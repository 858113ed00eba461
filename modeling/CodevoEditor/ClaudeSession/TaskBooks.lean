/-
# The books of the tasks

What the detector remembers of tasks, apart from the turn: those that are live, those that have
a tombstone with the order in which they were buried, those that a turn has inherited and the
level of the background.
-/

import CodevoEditor.ClaudeSession.ResultDetector

namespace CodevoEditor.ClaudeSession

open Js List OrderedMap

structure TaskBooks where
  live : OrderedMap String LiveTask
  terminal : OrderedMap String Tombstone
  buried : List String
  inherited : Finset String
  level : BackgroundLevel

namespace TaskBooks

/-- **The invariant of the books.** -/
structure Sound (books : TaskBooks) : Prop where
  disjoint : ∀ task ∈ books.live.keys, task ∉ books.terminal.keys
  buried_nodup : books.buried.Nodup
  mem_buried : ∀ task, task ∈ books.buried ↔ task ∈ books.terminal.keys
  live_le : books.live.size ≤ maxLiveTasks
  total_le : books.live.size + books.terminal.size ≤ maxObservedTasks
  inherited_live : ∀ task ∈ books.inherited, task ∈ books.live.keys
  ended_listed : books.level.ended ⊆ books.level.listed
  listed_tracked : books.level.listed ⊆ books.level.tracked
  tracked_live : ∀ task ∈ books.level.tracked, task ∈ books.live.keys

def empty : TaskBooks := ⟨.empty, .empty, [], ∅, .default⟩

def bury (books : TaskBooks) (task : String) (tombstone : Tombstone) : TaskBooks :=
  if books.terminal.has task then books
  else
    { books with
      buried := books.buried ++ [task]
      terminal := books.terminal.set task tombstone }

def exhume (books : TaskBooks) (task : String) : TaskBooks :=
  { books with
    terminal := books.terminal.delete task
    buried := books.buried.filter (· ≠ task) }

def close (books : TaskBooks) (task : String) : TaskBooks :=
  { books with
    live := books.live.delete task
    inherited := books.inherited.erase task
    level := books.level.forget task }

def finish (books : TaskBooks) (task : String) (facts : TaskFacts) : TaskBooks :=
  (books.close task).bury task (.finished facts)

def start (books : TaskBooks) (task : String) (run : LiveTask) (leveled : Bool) : TaskBooks :=
  { books with live := books.live.set task run, level := books.level.started task leveled }

variable {books : TaskBooks} {task : String}

lemma Sound.empty : empty.Sound where
  disjoint := nofun
  buried_nodup := nodup_nil
  mem_buried := fun _ => .rfl
  live_le := Nat.zero_le _
  total_le := Nat.zero_le _
  inherited_live := fun _ h => absurd h (Finset.notMem_empty _)
  ended_listed := Finset.Subset.refl _
  listed_tracked := Finset.Subset.refl _
  tracked_live := fun _ h => absurd h (Finset.notMem_empty _)

lemma bury_of_mem (h : task ∈ books.terminal.keys) (tombstone) : books.bury task tombstone = books := by
  unfold bury
  rw [if_pos (by rwa [OrderedMap.has, decide_eq_true_eq])]

lemma bury_of_not_mem (h : task ∉ books.terminal.keys) (tombstone) :
    books.bury task tombstone =
      { books with
        buried := books.buried ++ [task]
        terminal := books.terminal.set task tombstone } := by
  unfold bury
  rw [if_neg (by rwa [OrderedMap.has, decide_eq_true_eq])]

@[simp] lemma live_bury (books : TaskBooks) (task : String) (tombstone : Tombstone) :
    (books.bury task tombstone).live = books.live := by
  unfold bury
  split_ifs <;> rfl

lemma get?_terminal_bury {tombstone other} {key}
    (h : books.terminal.get? key = some other) :
    (books.bury task tombstone).terminal.get? key = some other := by
  by_cases hmem : task ∈ books.terminal.keys
  · rwa [bury_of_mem hmem]
  · rw [bury_of_not_mem hmem, get?_set, if_neg, h]
    rintro rfl
    exact hmem (mem_keys_iff.2 (by rw [h]; rfl))

lemma Sound.bury (h : books.Sound) (hlive : task ∉ books.live.keys)
    (hroom : task ∈ books.terminal.keys ∨ books.live.size + books.terminal.size < maxObservedTasks)
    (tombstone) : (books.bury task tombstone).Sound := by
  by_cases hmem : task ∈ books.terminal.keys
  · rwa [bury_of_mem hmem]
  have hroom := hroom.resolve_left hmem
  rw [bury_of_not_mem hmem]
  refine { h with disjoint := ?_, buried_nodup := ?_, mem_buried := ?_, total_le := ?_ }
  · intro other hoth
    rw [keys_set_of_not_has hmem, mem_append, mem_singleton]
    rintro (hkey | rfl)
    · exact h.disjoint other hoth hkey
    · exact hlive hoth
  · refine h.buried_nodup.append (nodup_singleton task) ?_
    rw [disjoint_singleton, h.mem_buried]
    exact hmem
  · intro other
    rw [keys_set_of_not_has hmem, mem_append, mem_append, h.mem_buried]
  · have hsize := size_set books.terminal task tombstone
    rw [if_neg hmem] at hsize
    dsimp only
    omega

lemma mem_keys_delete {κ μ : Type} [DecidableEq κ] {entries : OrderedMap κ μ} {key other : κ} :
    other ∈ (entries.delete key).keys ↔ other ∈ entries.keys ∧ other ≠ key := by
  rw [keys_delete, mem_filter, decide_eq_true_eq]

lemma Sound.close (h : books.Sound) (task : String) : (books.close task).Sound where
  disjoint := fun other hoth => h.disjoint other (mem_keys_delete.1 hoth).1
  buried_nodup := h.buried_nodup
  mem_buried := h.mem_buried
  live_le := (size_delete_le _ _).trans h.live_le
  total_le := (Nat.add_le_add_right (size_delete_le _ _) _).trans h.total_le
  inherited_live := fun other hoth => by
    obtain ⟨hne, hmem⟩ := Finset.mem_erase.1 hoth
    exact mem_keys_delete.2 ⟨h.inherited_live other hmem, hne⟩
  ended_listed := Finset.erase_subset_erase _ h.ended_listed
  listed_tracked := Finset.erase_subset_erase _ h.listed_tracked
  tracked_live := fun other hoth => by
    obtain ⟨hne, hmem⟩ := Finset.mem_erase.1 hoth
    exact mem_keys_delete.2 ⟨h.tracked_live other hmem, hne⟩

/-- **An end keeps the books**, of a task that they know or have room for. -/
theorem Sound.finish (h : books.Sound) (facts)
    (hroom : task ∈ books.live.keys ∨ task ∈ books.terminal.keys ∨
      books.live.size + books.terminal.size < maxObservedTasks) :
    (books.finish task facts).Sound := by
  refine (h.close task).bury (fun hmem => (mem_keys_delete.1 hmem).2 rfl) ?_ _
  have hle := h.total_le
  have hdelete := size_delete_le books.live task
  change task ∈ books.terminal.keys ∨ (books.live.delete task).size + books.terminal.size < maxObservedTasks
  rcases hroom with hlive | hkn | hroom
  · have hlt := size_delete_lt hlive
    exact .inr (by omega)
  · exact .inl hkn
  · exact .inr (by omega)

lemma mem_keys_set {κ μ : Type} [DecidableEq κ] {entries : OrderedMap κ μ} {key other : κ}
    {value : μ} : other ∈ (entries.set key value).keys ↔ other = key ∨ other ∈ entries.keys := by
  rw [mem_keys_iff, get?_set, mem_keys_iff]
  by_cases h : other = key
  · rw [if_pos h]
    exact iff_of_true rfl (.inl h)
  · rw [if_neg h, or_iff_right h]

lemma started_subset (level : BackgroundLevel) (task : String) (leveled : Bool)
    (hend : level.ended ⊆ level.listed) (hlist : level.listed ⊆ level.tracked) :
    (level.started task leveled).ended ⊆ (level.started task leveled).listed ∧
      (level.started task leveled).listed ⊆ (level.started task leveled).tracked ∧
      (level.started task leveled).tracked ⊆ insert task level.tracked := by
  have herased := Finset.erase_subset_erase task hend
  have herased' := Finset.erase_subset_erase task hlist
  have hinsert := Finset.insert_subset_insert task (Finset.erase_subset task level.tracked)
  unfold BackgroundLevel.started BackgroundLevel.forget
  cases leveled with
  | false =>
    exact ⟨herased, herased', (Finset.erase_subset task level.tracked).trans (Finset.subset_insert task _)⟩
  | true =>
    rw [if_neg (by decide)]
    split_ifs
    · exact ⟨herased.trans (Finset.subset_insert _ _), Finset.insert_subset_insert _ herased', hinsert⟩
    · exact ⟨herased, herased'.trans (Finset.subset_insert _ _), hinsert⟩

section

variable (h : books.Sound)
include h

/-- **A start keeps the books**, of a task that they do not know and have room for. -/
theorem Sound.start (hlive : task ∉ books.live.keys) (hterm : task ∉ books.terminal.keys)
    (hlt : books.live.size < maxLiveTasks)
    (hroom : books.live.size + books.terminal.size < maxObservedTasks) (run : LiveTask)
    (leveled : Bool) : (books.start task run leveled).Sound := by
  have hsize := size_set books.live task run
  rw [if_neg hlive] at hsize
  obtain ⟨hend, hlist, htrack⟩ := started_subset books.level task leveled h.ended_listed h.listed_tracked
  refine { h with
    disjoint := ?_, live_le := ?_, total_le := ?_, inherited_live := ?_, ended_listed := hend
    listed_tracked := hlist, tracked_live := ?_ }
  · intro other hoth
    rcases mem_keys_set.1 hoth with rfl | hmem
    · exact hterm
    · exact h.disjoint other hmem
  · change (books.live.set task run).size ≤ _
    omega
  · change (books.live.set task run).size + books.terminal.size ≤ _
    omega
  · exact fun other hoth => mem_keys_set.2 (.inr (h.inherited_live other hoth))
  · intro other hoth
    rcases Finset.mem_insert.1 (htrack hoth) with rfl | hmem
    · exact mem_keys_set.2 (.inl rfl)
    · exact mem_keys_set.2 (.inr (h.tracked_live other hmem))

lemma Sound.exhume (task : String) : (books.exhume task).Sound := by
  refine { h with disjoint := ?_, buried_nodup := ?_, mem_buried := ?_, total_le := ?_ }
  · exact fun other hoth hmem => h.disjoint other hoth (mem_keys_delete.1 hmem).1
  · exact h.buried_nodup.filter _
  · intro other
    change other ∈ books.buried.filter (· ≠ task) ↔ other ∈ (books.terminal.delete task).keys
    rw [mem_keys_delete, mem_filter, h.mem_buried, decide_eq_true_eq]
  · exact (Nat.add_le_add_left (size_delete_le _ _) _).trans h.total_le

/-- **A task that has finished is started again.** -/
theorem Sound.startAgain (hterm : task ∈ books.terminal.keys)
    (hlt : books.live.size < maxLiveTasks) (run : LiveTask) (leveled : Bool) :
    ((books.exhume task).start task run leveled).Sound := by
  have hsize := size_delete_lt hterm
  have hle := h.total_le
  refine (h.exhume task).start ?_ ?_ hlt ?_ run leveled
  · exact fun hlive => h.disjoint task hlive hterm
  · exact fun hmem => (mem_keys_delete.1 hmem).2 rfl
  · change books.live.size + (books.terminal.delete task).size < maxObservedTasks
    omega

lemma Sound.forgetOldest {oldest : String} {buried : List String}
    (heq : books.buried = oldest :: buried) :
    { books with terminal := books.terminal.delete oldest, buried := buried : TaskBooks }.Sound := by
  have hnd := h.buried_nodup
  rw [heq, nodup_cons] at hnd
  refine { h with disjoint := ?_, buried_nodup := hnd.2, mem_buried := ?_, total_le := ?_ }
  · exact fun other hoth hmem => h.disjoint other hoth (mem_keys_delete.1 hmem).1
  · intro other
    rw [mem_keys_delete, ← h.mem_buried, heq, mem_cons]
    constructor
    · intro hmem
      refine ⟨.inr hmem, ?_⟩
      rintro rfl
      exact hnd.1 hmem
    · rintro ⟨rfl | hmem, hne⟩
      · exact absurd rfl hne
      · exact hmem
  · exact (Nat.add_le_add_left (size_delete_le _ _) _).trans h.total_le

lemma Sound.inherit {inherited}
    (hinher : ∀ task ∈ inherited, task ∈ books.live.keys) :
    { books with inherited := inherited : TaskBooks }.Sound :=
  { h with inherited_live := hinher }

theorem Sound.replace {ν : Type} (message : Json ν) :
    { books with level := books.level.replace message : TaskBooks }.Sound := by
  unfold BackgroundLevel.replace
  cases message.arrayOf "tasks" with
  | none => exact h
  | some tasks =>
    dsimp only
    split_ifs with hlong
    · exact h
    · refine { h with ended_listed := ?_, listed_tracked := ?_, tracked_live := h.tracked_live }
      · refine ((Finset.filter_subset _ _).trans ?_).trans Finset.subset_union_left
        exact Finset.union_subset h.ended_listed (Finset.filter_subset _ _)
      · exact Finset.union_subset h.listed_tracked (Finset.filter_subset _ _)

lemma Sound.retire :
    { books with live := .empty, inherited := ∅, level := .default : TaskBooks }.Sound where
  disjoint := nofun
  buried_nodup := h.buried_nodup
  mem_buried := h.mem_buried
  live_le := Nat.zero_le _
  total_le := (Nat.add_le_add_right (Nat.zero_le _) _).trans h.total_le
  inherited_live := fun _ hmem => absurd hmem (Finset.notMem_empty _)
  ended_listed := Finset.Subset.refl _
  listed_tracked := Finset.Subset.refl _
  tracked_live := fun _ hmem => absurd hmem (Finset.notMem_empty _)

end

end TaskBooks

end CodevoEditor.ClaudeSession
