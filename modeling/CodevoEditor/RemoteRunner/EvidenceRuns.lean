/-
# Evidence is not lost silently

An event changes the evidence of one task, and room for a task that is not tracked yet is made
by forgetting others (`Changed`).
-/

import CodevoEditor.RemoteRunner.TaskEvidence

namespace CodevoEditor.RemoteRunner

open Js RuntimeRequests List Option OrderedMap

variable {evidence before after : Evidence} {task : String} {key : RequestKey}

namespace Evidence

/-- The fence has the last keys that were fenced, once each, and the marks are those of the newest
reads. -/
structure Ok (evidence : Evidence) : Prop where
  nodup : evidence.settled.Nodup
  settled : evidence.settled = evidence.fences.drop (evidence.fences.length - maxFencedPerTask)
  marks : ∀ read ∈ evidence.reads, ∃ sequence, evidence.marks.of read.source = some sequence ∧
    read.sequence ≤ sequence

lemma ok_new : new.Ok := ⟨nodup_nil, rfl, nofun⟩

lemma Ok.congr (h : before.Ok) (hstl : after.settled = before.settled) (hfences : after.fences = before.fences)
    (hmarks : after.marks = before.marks) (hreads : after.reads = before.reads) : after.Ok := by
  refine ⟨?_, ?_, ?_⟩
  · rw [hstl]
    exact h.nodup
  · rw [hstl, hfences]
    exact h.settled
  · rw [hmarks, hreads]
    exact h.marks

lemma opened_fence (evidence : Evidence) (key) : (evidence.fence key).opened = evidence.opened := by
  unfold fence
  split_ifs <;> rfl

lemma invalidated_fence (evidence : Evidence) (key) : (evidence.fence key).invalidated = evidence.invalidated := by
  unfold fence
  split_ifs <;> rfl

/-- **What fencing a key does to the fence**: the key is in it, and one may make room. -/
theorem fence_spec (evidence : Evidence) (key) :
    key ∈ (evidence.fence key).settled ∧
      (∀ other ∈ (evidence.fence key).settled, other ∈ evidence.settled ∨ other = key) ∧
      ∀ other ∈ evidence.fences, other ∈ (evidence.fence key).fences := by
  unfold fence
  split_ifs with hmem hfull
  · exact ⟨hmem, fun _ => .inl, fun _ => id⟩
  · refine ⟨mem_append_right _ (mem_singleton_self _), fun other hoth => ?_,
      fun other hoth => mem_append_left _ hoth⟩
    rcases mem_append.1 hoth with hold | hnew
    · exact .inl (mem_of_mem_tail hold)
    · exact .inr (mem_singleton.1 hnew)
  · refine ⟨mem_append_right _ (mem_singleton_self _), fun other hoth => ?_,
      fun other hoth => mem_append_left _ hoth⟩
    rcases mem_append.1 hoth with hold | hnew
    · exact .inl hold
    · exact .inr (mem_singleton.1 hnew)

lemma Ok.fence (h : evidence.Ok) (key) : (evidence.fence key).Ok := by
  have hstl := h.settled
  unfold Evidence.fence
  split_ifs with hmem hfull
  · exact h
  · refine ⟨?_, ?_, h.marks⟩
    · refine List.Nodup.append (h.nodup.sublist (tail_sublist _)) (nodup_singleton _) ?_
      rw [disjoint_singleton]
      exact fun hin => hmem (mem_of_mem_tail hin)
    · have hone : 1 ≤ maxFencedPerTask := by decide
      have hlong : maxFencedPerTask ≤ evidence.fences.length := by
        rw [hstl, length_drop] at hfull
        omega
      dsimp only
      rw [length_append, length_singleton, hstl, tail_drop,
        drop_append_of_le_length (by omega)]
      congr 2
      omega
  · refine ⟨?_, ?_, h.marks⟩
    · refine List.Nodup.append h.nodup (nodup_singleton _) ?_
      rwa [disjoint_singleton]
    · have hsht : evidence.fences.length < maxFencedPerTask := by
        rw [hstl, length_drop] at hfull
        omega
      rw [length_append, length_singleton, hstl, Nat.sub_eq_zero_of_le hsht.le,
        Nat.sub_eq_zero_of_le hsht, drop_zero, drop_zero]

lemma Ok.mem_fences (h : evidence.Ok) (hmem : key ∈ evidence.settled) : key ∈ evidence.fences := by
  rw [h.settled] at hmem
  exact mem_of_mem_drop hmem

/-- **What an event may do to the evidence of a task.**  `fenced` are the keys it fences, `reported`
those it reports settled, and `published` those it publishes as open. -/
structure Moved (fenced reported published : RequestKey → Prop) (before after : Evidence) : Prop where
  invalidated : before.invalidated → after.invalidated
  kept : ∀ key ∈ before.opened, key ∈ after.opened ∨ after.invalidated ∨ fenced key ∨
    key ∈ before.settled ∨ reported key
  entered : ∀ key ∈ after.opened, key ∈ before.opened ∨ key ∉ before.settled ∨ published key
  settled : ∀ key ∈ after.settled, key ∈ before.settled ∨ fenced key
  fences : before.Ok → ∀ key, fenced key → key ∈ after.fences
  ok : before.Ok → after.Ok

lemma moved_of_eq (hopened : after.opened = before.opened) (hstl : after.settled = before.settled)
    (hinval : after.invalidated = before.invalidated) (hok : before.Ok → after.Ok)
    {fenced reported published : RequestKey → Prop} (hno : ∀ key, ¬fenced key) :
    Moved fenced reported published before after := by
  refine ⟨fun h => hinval.trans h, fun key hkey => .inl (hopened ▸ hkey), fun key hkey => .inl (hopened ▸ hkey),
    fun key hkey => .inl (hstl ▸ hkey), fun _ key hkey => absurd hkey (hno key), hok⟩

lemma put_of (marks : Marks) (sequence : ℕ) (source source') :
    (marks.put sequence source).of source' = if source' = source then some sequence else marks.of source' := by
  cases source <;> cases source' <;> rfl

variable {read : RemoteInteractions}

lemma observe_of_stale (h : evidence.marks.isNewerThan read) :
    evidence.observe read = (evidence, .stale) := if_pos h

lemma observe_of_fresh (h : evidence.marks.isNewerThan read = false) : (evidence.observe read).1 =
    { evidence with
      opened := (read.openNow.filter fun key => key ∉ evidence.settled) ∪
        evidence.opened.filter fun key => read.isListedSection key = false
      marks := evidence.marks.put read.sequence read.source
      invalidated := evidence.invalidated ||
        decide (∃ key ∈ evidence.opened, key ∉ read.present ∧ read.isListedSection key)
      unreadableSince := if read.approvalsComplete then none else evidence.unreadableSince
      reads := evidence.reads ++ [read] } := by
  unfold observe
  rw [if_neg (Bool.eq_false_iff.1 h)]

lemma Ok.observe (h : evidence.Ok) (read) : (evidence.observe read).1.Ok := by
  by_cases hstale : evidence.marks.isNewerThan read
  · rw [observe_of_stale hstale]
    exact h
  · rw [Bool.not_eq_true] at hstale
    rw [observe_of_fresh hstale]
    refine ⟨h.nodup, h.settled, fun other hoth => ?_⟩
    rw [put_of]
    rcases mem_append.1 hoth with hold | hnew
    · obtain ⟨sequence, hmark, hle⟩ := h.marks other hold
      split_ifs with hsource
      · refine ⟨read.sequence, rfl, ?_⟩
        unfold Marks.isNewerThan at hstale
        rw [← hsource, hmark, any_some, decide_eq_false_iff_not, not_lt] at hstale
        exact hle.trans hstale
      · exact ⟨sequence, hmark, hle⟩
    · rw [mem_singleton.1 hnew, if_pos rfl]
      exact ⟨read.sequence, rfl, le_rfl⟩

lemma moved_observe (evidence : Evidence) (read) :
    Moved (fun _ => False)
      (fun key => evidence.marks.isNewerThan read = false ∧ key ∈ read.present ∧ key ∉ read.openNow)
      (fun _ => False) evidence (evidence.observe read).1 := by
  by_cases hstale : evidence.marks.isNewerThan read
  · rw [observe_of_stale hstale]
    exact ⟨id, fun _ => .inl, fun _ => .inl, fun _ => .inl, fun _ _ => False.elim, id⟩
  have hok (h : evidence.Ok) : (evidence.observe read).1.Ok := h.observe read
  rw [Bool.not_eq_true] at hstale
  rw [observe_of_fresh hstale] at hok ⊢
  refine ⟨fun htrue => Bool.or_eq_true_iff.2 (.inl htrue), fun key hkey => ?_, fun key hkey => ?_, fun _ => .inl,
    fun _ _ => False.elim, hok⟩
  · dsimp only
    by_cases hlist : read.isListedSection key
    · by_cases hpres : key ∈ read.present
      · by_cases hopen : key ∈ read.openNow
        · by_cases hstl : key ∈ evidence.settled
          · exact .inr (.inr (.inr (.inl hstl)))
          · exact .inl (Finset.mem_union_left _ (Finset.mem_filter.2 ⟨hopen, hstl⟩))
        · exact .inr (.inr (.inr (.inr ⟨hstale, hpres, hopen⟩)))
      · right
        left
        rw [Bool.or_eq_true_iff, decide_eq_true_iff]
        exact .inr ⟨key, hkey, hpres, hlist⟩
    · rw [Bool.not_eq_true] at hlist
      exact .inl (Finset.mem_union_right _ (Finset.mem_filter.2 ⟨hkey, hlist⟩))
  · rcases Finset.mem_union.1 hkey with hread | hkept
    · exact .inr (.inl (Finset.mem_filter.1 hread).2)
    · exact .inl (Finset.mem_filter.1 hkept).1

lemma moved_vanish (evidence : Evidence) :
    Moved (fun _ => False) (fun _ => False) (fun _ => False) evidence evidence.vanish.1 := by
  unfold vanish
  split_ifs with hemp
  · exact moved_of_eq rfl rfl rfl id fun _ => id
  · exact ⟨fun _ => rfl, fun _ _ => .inr (.inl rfl), nofun, fun _ => .inl, fun _ _ => False.elim,
      fun hok => hok.congr rfl rfl rfl rfl⟩

lemma moved_fence (evidence : Evidence) (key) :
    Moved (fun other => other = key) (fun _ => False) (fun _ => False) evidence
      ({ evidence with opened := evidence.opened.erase key }.fence key) := by
  obtain ⟨hmem, hold, hfences⟩ := fence_spec { evidence with opened := evidence.opened.erase key } key
  have hok (h : evidence.Ok) : Ok ({ evidence with opened := evidence.opened.erase key }.fence key) :=
    (h.congr rfl rfl rfl rfl : Ok { evidence with opened := evidence.opened.erase key }).fence key
  refine ⟨?_, fun other hoth => ?_, fun other hoth => ?_, hold, fun h other heq => ?_, hok⟩
  · rw [invalidated_fence]
    exact id
  · rw [opened_fence]
    by_cases heq : other = key
    · exact .inr (.inr (.inl heq))
    · exact .inl (Finset.mem_erase.2 ⟨heq, hoth⟩)
  · rw [opened_fence] at hoth
    exact .inl (Finset.mem_of_mem_erase hoth)
  · rw [heq]
    exact (hok h).mem_fences hmem

lemma moved_published (evidence : Evidence) (key) (isOpen : Bool) :
    Moved (fun other => other = key ∧ isOpen = false) (fun _ => False) (fun other => other = key ∧ isOpen)
      evidence (evidence.published key isOpen) := by
  unfold published
  cases isOpen with
  | false =>
    have h := moved_fence evidence key
    exact ⟨h.invalidated, fun other hoth => (h.kept other hoth).imp_right fun hrest =>
        hrest.imp_right fun hrest => hrest.imp_left fun heq => ⟨heq, rfl⟩,
      fun other hoth => (h.entered other hoth).imp_right fun hrest => hrest.imp_right False.elim,
      fun other hoth => (h.settled other hoth).imp_right fun heq => ⟨heq, rfl⟩,
      fun hok other hoth => h.fences hok other hoth.1, h.ok⟩
  | true =>
    refine ⟨id, fun other hoth => .inl ?_, fun other hoth => ?_, fun _ => .inl,
      fun _ _ hno => absurd hno.2 Bool.noConfusion, fun hok => hok.congr rfl rfl rfl rfl⟩
    · by_cases heq : other = key
      · exact Finset.mem_insert.2 (.inl heq)
      · exact Finset.mem_insert.2 (.inr (Finset.mem_erase.2 ⟨heq, hoth⟩))
    · rcases Finset.mem_insert.1 hoth with heq | hold
      · exact .inr (.inr ⟨heq, rfl⟩)
      · exact .inl (Finset.mem_of_mem_erase hold)

lemma fenceAll_mono (evidence : Evidence) (keys) :
    (evidence.fenceAll keys).opened ⊆ evidence.opened ∧ evidence.fences ⊆ (evidence.fenceAll keys).fences := by
  induction keys generalizing evidence with
  | nil => exact ⟨Finset.Subset.refl _, List.Subset.refl _⟩
  | cons key keys ih =>
    obtain ⟨hopened, hfences⟩ := ih ({ evidence with opened := evidence.opened.erase key }.fence key)
    obtain ⟨-, -, hmono⟩ := fence_spec { evidence with opened := evidence.opened.erase key } key
    rw [opened_fence] at hopened
    exact ⟨hopened.trans (Finset.erase_subset _ _), fun other hoth => hfences (hmono other hoth)⟩

lemma moved_fenceAll (evidence : Evidence) (keys) :
    Moved (fun key => key ∈ keys) (fun _ => False) (fun _ => False) evidence (evidence.fenceAll keys) := by
  induction keys generalizing evidence with
  | nil => exact ⟨id, fun _ => .inl, fun _ => .inl, fun _ => .inl, fun _ _ => nofun, id⟩
  | cons key keys ih =>
    have hfst := moved_fence evidence key
    have hrest := ih ({ evidence with opened := evidence.opened.erase key }.fence key)
    refine ⟨fun h => hrest.invalidated (hfst.invalidated h), fun other hoth => ?_,
      fun other hoth => .inl ((fenceAll_mono evidence (key :: keys)).1 hoth), fun other hoth => ?_,
      fun hok other hoth => ?_, fun hok => hrest.ok (hfst.ok hok)⟩
    · rcases hfst.kept other hoth with hopened | hinv | heq | hstl | hno
      · rcases hrest.kept other hopened with hopened | hinv | hin | hstl | hno
        · exact .inl hopened
        · exact .inr (.inl hinv)
        · exact .inr (.inr (.inl (mem_cons_of_mem _ hin)))
        · rcases hfst.settled other hstl with hold | heq
          · exact .inr (.inr (.inr (.inl hold)))
          · exact .inr (.inr (.inl (mem_cons.2 (.inl heq))))
        · exact hno.elim
      · exact .inr (.inl (hrest.invalidated hinv))
      · exact .inr (.inr (.inl (mem_cons.2 (.inl heq))))
      · exact .inr (.inr (.inr (.inl hstl)))
      · exact hno.elim
    · rcases hrest.settled other hoth with hstl | hin
      · rcases hfst.settled other hstl with hold | heq
        · exact .inl hold
        · exact .inr (mem_cons.2 (.inl heq))
      · exact .inr (mem_cons_of_mem _ hin)
    · rcases mem_cons.1 hoth with heq | hin
      · exact (fenceAll_mono _ keys).2 (hfst.fences hok other heq)
      · exact hrest.fences (hfst.ok hok) other hin

end Evidence

namespace Tasks

variable {tasks next last : Tasks}

/-- **What making room may do**: a task is forgotten, and where something was open of it, or it was
incomplete, the connection is incomplete. -/
structure Forgets (tasks next : Tasks) : Prop where
  maxTasks : next.maxTasks = tasks.maxTasks
  lost : tasks.invalidationLost → next.invalidationLost
  evidence : ∀ task, next.tasks.get? task = tasks.tasks.get? task ∨
    next.tasks.get? task = none ∧ ((tasks.evidenceOf task).invalidated ∨ (tasks.evidenceOf task).opened ≠ ∅ →
      next.invalidationLost)

lemma Forgets.refl (tasks : Tasks) : tasks.Forgets tasks := ⟨rfl, id, fun _ => .inl rfl⟩

lemma evidenceOf_congr (h : next.tasks.get? task = tasks.tasks.get? task) :
    next.evidenceOf task = tasks.evidenceOf task := congrArg (fun found => found.getD .new) h

lemma evidenceOf_of_none (h : tasks.tasks.get? task = none) : tasks.evidenceOf task = .new := by
  unfold evidenceOf
  rw [h, getD_none]

lemma evidenceOf_of_some (h : tasks.tasks.get? task = some evidence) : tasks.evidenceOf task = evidence := by
  unfold evidenceOf
  rw [h, getD_some]

lemma Forgets.trans (h : tasks.Forgets next) (h' : next.Forgets last) : tasks.Forgets last := by
  refine ⟨h'.maxTasks.trans h.maxTasks, h'.lost ∘ h.lost, fun task => ?_⟩
  rcases h.evidence task with hsame | ⟨hgone, hflag⟩
  · rcases h'.evidence task with hsame' | ⟨hgone', hflag'⟩
    · exact .inl (hsame'.trans hsame)
    · rw [evidenceOf_congr hsame] at hflag'
      exact .inr ⟨hgone', hflag'⟩
  · refine .inr ⟨?_, fun hevid => h'.lost (hflag hevid)⟩
    rcases h'.evidence task with hsame' | ⟨hgone', -⟩
    · exact hsame'.trans hgone
    · exact hgone'

lemma forgets_without (h : tasks.tasks.get? task = some evidence) : tasks.Forgets (tasks.without task evidence) := by
  refine ⟨rfl, fun htrue => Bool.or_eq_true_iff.2 (.inl htrue), fun other => ?_⟩
  unfold without
  rw [get?_delete]
  split_ifs with heq
  · refine .inr ⟨rfl, fun hevid => ?_⟩
    rw [heq, evidenceOf_of_some h] at hevid
    rw [Bool.or_eq_true_iff, Bool.or_eq_true_iff, decide_eq_true_iff]
    exact .inr hevid
  · exact .inl rfl

lemma get?_of_oldest (h : tasks.oldest = some (task, evidence)) : tasks.tasks.get? task = some evidence :=
  get?_eq_some_iff.2 (argmin_mem h)

variable (times : ℕ)

lemma forgets_evictTimes (tasks : Tasks) : tasks.Forgets (evictTimes times tasks) := by
  induction times generalizing tasks with
  | zero => exact Forgets.refl tasks
  | succ times ih =>
    unfold evictTimes
    split_ifs
    · split
      · exact Forgets.refl tasks
      · exact (forgets_without (get?_of_oldest ‹_›)).trans (ih _)
    · exact Forgets.refl tasks

theorem size_evictTimes (tasks : Tasks) (hmax : 1 ≤ tasks.maxTasks) (htimes : tasks.tasks.size ≤ times) :
    (evictTimes times tasks).tasks.size < tasks.maxTasks := by
  induction times generalizing tasks with
  | zero =>
    change tasks.tasks.size < tasks.maxTasks
    omega
  | succ times ih =>
    unfold evictTimes
    split_ifs with hfull
    · split
      · rename_i hnone
        have hemp : tasks.tasks.size = 0 := congrArg List.length (argmin_eq_none.1 hnone)
        omega
      · rename_i oldest evicted hsome
        have hhas : oldest ∈ tasks.tasks.keys := mem_keys_iff.2 (isSome_iff_exists.2 ⟨evicted, get?_of_oldest hsome⟩)
        have hless := size_delete_lt hhas
        refine ih (tasks.without oldest evicted) hmax ?_
        change (tasks.tasks.delete oldest).size ≤ times
        omega
    · exact not_le.1 hfull

/-- **What an update does**: the evidence of its task is changed, and others may be forgotten. -/
theorem update_spec (tasks : Tasks) (task : String) (change : Evidence → Evidence) :
    (tasks.update task change).tasks.get? task =
        some (change { tasks.evidenceOf task with touched := tasks.clock + 1 }) ∧
      ((tasks.invalidationLost → (tasks.update task change).invalidationLost) ∧
      (tasks.update task change).maxTasks = tasks.maxTasks ∧
      ∀ other, other ≠ task → (tasks.update task change).tasks.get? other = tasks.tasks.get? other ∨
        (tasks.update task change).tasks.get? other = none ∧
          ((tasks.evidenceOf other).invalidated ∨ (tasks.evidenceOf other).opened ≠ ∅ →
            (tasks.update task change).invalidationLost)) ∧
      (1 ≤ tasks.maxTasks → tasks.tasks.size ≤ tasks.maxTasks →
        (tasks.update task change).tasks.size ≤ tasks.maxTasks) := by
  unfold update
  dsimp only
  by_cases hhas : tasks.tasks.has task
  · rw [if_pos hhas]
    refine ⟨?_, ⟨id, rfl, fun other hne => .inl ?_⟩, fun _ hsize => ?_⟩
    · rw [get?_set, if_pos rfl]
      rfl
    · rw [get?_set, if_neg hne]
    · dsimp only
      rw [has_eq] at hhas
      rw [size_set, if_pos (mem_keys_iff.2 hhas)]
      exact hsize
  · rw [if_neg hhas]
    have hnone : tasks.tasks.get? task = none := by simpa using hhas
    have hforget := forgets_evictTimes tasks.tasks.size { tasks with clock := tasks.clock + 1 }
    have hgone : (evictForOneMore { tasks with clock := tasks.clock + 1 }).tasks.get? task = none := by
      rcases hforget.evidence task with hsame | ⟨hgone, -⟩
      · exact hsame.trans hnone
      · exact hgone
    refine ⟨?_, ⟨hforget.lost, hforget.maxTasks, fun other hne => ?_⟩, fun hmax _ => ?_⟩
    · rw [get?_set, if_pos rfl, evidenceOf_of_none hgone, evidenceOf_of_none hnone]
    · rw [get?_set, if_neg hne]
      exact hforget.evidence other
    · have hroom := size_evictTimes tasks.tasks.size { tasks with clock := tasks.clock + 1 } hmax le_rfl
      rw [size_set]
      split_ifs
      · exact hroom.le
      · exact hroom

/-- **What an event does to all tasks**: what it may do to the evidence of one, and another may be
forgotten. -/
structure Changed (tasks next : Tasks) (event : Event) : Prop where
  lost : tasks.invalidationLost → next.invalidationLost
  maxTasks : next.maxTasks = tasks.maxTasks
  size : 1 ≤ tasks.maxTasks → tasks.tasks.size ≤ tasks.maxTasks → next.tasks.size ≤ tasks.maxTasks
  evidence : ∀ task,
    Evidence.Moved (fun key => event.fences task key)
        (fun key => ∃ read, event = .observe read ∧ tasks.reportsSettled task key read)
        (fun key => event = .published task key true) (tasks.evidenceOf task) (next.evidenceOf task) ∨
      (∀ key, ¬event.fences task key) ∧ next.evidenceOf task = .new ∧
        ((tasks.evidenceOf task).invalidated ∨ (tasks.evidenceOf task).opened ≠ ∅ → next.invalidationLost)

lemma changed_update (tasks : Tasks) (task : String) (change : Evidence → Evidence) (event : Event)
    (hfences : ∀ other key, other ≠ task → ¬event.fences other key)
    (hmov : ∀ touched, Evidence.Moved (fun key => event.fences task key)
      (fun key => ∃ read, event = .observe read ∧ tasks.reportsSettled task key read)
      (fun key => event = .published task key true) { tasks.evidenceOf task with touched := touched }
      (change { tasks.evidenceOf task with touched := touched })) :
    Changed tasks (tasks.update task change) event := by
  obtain ⟨hat, ⟨hlost, hmax, hoths⟩, hsize⟩ := update_spec tasks task change
  refine ⟨hlost, hmax, hsize, fun other => ?_⟩
  by_cases heq : other = task
  · left
    rw [heq, evidenceOf_of_some hat]
    obtain ⟨hinval, hkept, hentered, hstl, hfenced, hok⟩ := hmov (tasks.clock + 1)
    exact ⟨hinval, hkept, hentered, hstl, fun h => hfenced (h.congr rfl rfl rfl rfl),
      fun h => hok (h.congr rfl rfl rfl rfl)⟩
  · rcases hoths other heq with hsame | ⟨hgone, hflag⟩
    · left
      rw [evidenceOf_congr hsame]
      exact ⟨id, fun _ => .inl, fun _ => .inl, fun _ => .inl, fun _ key hkey => absurd hkey (hfences other key heq), id⟩
    · exact .inr ⟨fun key => hfences other key heq, evidenceOf_of_none hgone, hflag⟩

lemma moved_imp {fenced fenced' reported reported' published published' : RequestKey → Prop}
    (h : Evidence.Moved fenced reported published before after) (hfenced : ∀ key, fenced key ↔ fenced' key)
    (hrep : ∀ key, reported key → reported' key) (hpubl : ∀ key, published key → published' key) :
    Evidence.Moved fenced' reported' published' before after := by
  refine ⟨h.invalidated, fun key hkey => ?_, fun key hkey => ?_, fun key hkey => ?_, fun hok key hkey => ?_, h.ok⟩
  · rcases h.kept key hkey with hopened | hinv | hfence | hstl | hreport
    · exact .inl hopened
    · exact .inr (.inl hinv)
    · exact .inr (.inr (.inl ((hfenced key).1 hfence)))
    · exact .inr (.inr (.inr (.inl hstl)))
    · exact .inr (.inr (.inr (.inr (hrep key hreport))))
  · exact (h.entered key hkey).imp_right fun hrest => hrest.imp_right (hpubl key)
  · exact (h.settled key hkey).imp_right (hfenced key).1
  · exact h.fences hok key ((hfenced key).2 hkey)

lemma isStale_eq (tasks : Tasks) (read) :
    tasks.isStale read = (tasks.evidenceOf read.taskId).marks.isNewerThan read := by
  unfold isStale evidenceOf
  cases tasks.tasks.get? read.taskId with
  | none =>
    unfold Marks.isNewerThan
    cases read.source <;> rfl
  | some evidence => rfl

lemma changed_defersSwitch (tasks : Tasks) (read) (now : ℕ) :
    Changed tasks (tasks.defersSwitch read now).1 (.defersSwitch read now) := by
  unfold defersSwitch
  cases hget : tasks.tasks.get? read.taskId with
  | none =>
    exact ⟨id, rfl, fun _ => id, fun task => .inl (Evidence.moved_of_eq rfl rfl rfl id fun _ hno => hno)⟩
  | some evidence =>
    have hhas : read.taskId ∈ tasks.tasks.keys := mem_keys_iff.2 (isSome_iff_exists.2 ⟨_, hget⟩)
    refine ⟨id, rfl, fun _ hsize => ?_, fun task => .inl ?_⟩
    · dsimp only
      rw [size_set, if_pos hhas]
      exact hsize
    · by_cases heq : task = read.taskId
      · rw [heq, evidenceOf_of_some hget, evidenceOf_of_some ((get?_set ..).trans (if_pos rfl))]
        refine Evidence.moved_of_eq ?_ ?_ ?_ (fun hok => hok.congr ?_ ?_ ?_ ?_) fun _ hno => hno
        all_goals rfl
      · unfold evidenceOf
        rw [get?_set, if_neg heq]
        exact Evidence.moved_of_eq rfl rfl rfl id fun _ hno => hno

theorem changed_step (tasks : Tasks) (event : Event) : Changed tasks (tasks.step event) event := by
  cases event with
  | observe read =>
    refine changed_update tasks read.taskId (fun evidence => (evidence.observe read).1) (.observe read)
      (fun _ _ _ hno => hno) fun touched => ?_
    refine moved_imp (Evidence.moved_observe _ read) (fun _ => .rfl) (fun key hkey => ?_) fun _ => False.elim
    exact ⟨read, rfl, rfl, (isStale_eq tasks read).trans hkey.1, hkey.2⟩
  | defersSwitch read now => exact changed_defersSwitch tasks read now
  | fenceSettled task requests =>
    have hkeys key : key ∈ (requests.filter fun request => !request.isOpen).map RuntimeRequest.key ↔
        ∃ request ∈ requests, request.isOpen = false ∧ request.key = key := by
      rw [List.mem_map]
      refine exists_congr fun request => ?_
      rw [mem_filter, Bool.not_eq_true', and_assoc]
    change Changed tasks (tasks.fenceSettled task requests) _
    unfold fenceSettled
    dsimp only
    split_ifs with hnone
    · refine ⟨id, rfl, fun _ => id, fun other => .inl ?_⟩
      refine ⟨id, fun _ => .inl, fun _ => .inl, fun _ => .inl, fun _ key hkey => ?_, id⟩
      obtain ⟨-, hkey⟩ := hkey
      rw [← hkeys, hnone] at hkey
      cases hkey
    · refine changed_update tasks task _ _ (fun other key hne hfence => hne hfence.1.symm) fun touched => ?_
      refine moved_imp (Evidence.moved_fenceAll _ _) (fun key => ?_) (fun _ => False.elim) fun _ => False.elim
      rw [hkeys]
      exact (and_iff_right rfl).symm
  | takeBumpDue =>
    exact ⟨id, rfl, fun _ => id, fun task => .inl (Evidence.moved_of_eq rfl rfl rfl id fun _ hno => hno)⟩
  | vanish task =>
    refine changed_update tasks task (fun evidence => evidence.vanish.1) (.vanish task)
      (fun _ _ _ hno => hno) fun touched => ?_
    exact moved_imp (Evidence.moved_vanish _) (fun _ => .rfl) (fun _ => False.elim) fun _ => False.elim
  | published task key isOpen =>
    refine changed_update tasks task (fun evidence => evidence.published key isOpen) (.published task key isOpen)
      (fun other _ hne hfence => ?_) fun touched => ?_
    · obtain ⟨heq, -⟩ := hfence
      exact hne heq.symm
    refine moved_imp (Evidence.moved_published _ key isOpen) (fun other => ?_) (fun _ => False.elim)
      fun other hoth => ?_
    · exact ⟨fun h => ⟨rfl, h.1.symm, h.2⟩, fun h => ⟨h.2.1.symm, h.2.2⟩⟩
    · rw [hoth.1, hoth.2]

lemma after_append (tasks : Tasks) (events later) :
    tasks.after (events ++ later) = (tasks.after events).after later := foldl_append

lemma after_singleton (tasks : Tasks) (events) (event : Event) :
    tasks.after (events ++ [event]) = (tasks.after events).step event := after_append tasks events [event]

lemma Changed.incomplete {event} (h : Changed tasks next event) (hincomp : tasks.isIncomplete task) :
    next.isIncomplete task := by
  unfold isIncomplete at hincomp ⊢
  rw [Bool.or_eq_true_iff] at hincomp ⊢
  rcases hincomp with hlost | hinv
  · exact .inl (h.lost hlost)
  · rcases h.evidence task with hmov | ⟨-, -, hflag⟩
    · exact .inr (hmov.invalidated hinv)
    · exact .inl (hflag (.inl hinv))

lemma Changed.kept {event} (h : Changed tasks next event) (hopen : key ∈ (tasks.evidenceOf task).opened) :
    key ∈ (next.evidenceOf task).opened ∨ next.isIncomplete task ∨ event.fences task key ∨
      key ∈ (tasks.evidenceOf task).settled ∨ ∃ read, event = .observe read ∧ tasks.reportsSettled task key read := by
  rcases h.evidence task with hmov | ⟨-, -, hflag⟩
  · rcases hmov.kept key hopen with hkept | hinv | hrest
    · exact .inl hkept
    · exact .inr (.inl (Bool.or_eq_true_iff.2 (.inr hinv)))
    · exact .inr (.inr hrest)
  · exact .inr (.inl (Bool.or_eq_true_iff.2 (.inl (hflag (.inr (Finset.ne_empty_of_mem hopen))))))

/-- What holds of the evidence after any events. -/
structure Sound (events : List Event) (tasks : Tasks) : Prop where
  evidence : ∀ task, (tasks.evidenceOf task).Ok
  fenced : ∀ task, ∀ key ∈ (tasks.evidenceOf task).settled, ∃ event ∈ events, event.fences task key
  room : 1 ≤ tasks.maxTasks
  size : tasks.tasks.size ≤ tasks.maxTasks

variable (maxTasks : ℕ)

variable (events : List Event)

lemma sound_after : Sound events ((withLimit maxTasks).after events) ∧
    ((withLimit maxTasks).after events).maxTasks = max maxTasks 1 := by
  induction events using List.reverseRecOn with
  | nil => exact ⟨⟨fun _ => Evidence.ok_new, fun _ => nofun, le_max_right _ _, Nat.zero_le _⟩, rfl⟩
  | append_singleton events event ih =>
    rw [after_singleton]
    obtain ⟨h, hmax⟩ := ih
    have hchg := changed_step ((withLimit maxTasks).after events) event
    refine ⟨⟨fun task => ?_, fun task key hkey => ?_, ?_, ?_⟩, hchg.maxTasks.trans hmax⟩
    · rcases hchg.evidence task with hmov | ⟨-, hnew, -⟩
      · exact hmov.ok (h.evidence task)
      · rw [hnew]
        exact Evidence.ok_new
    · rcases hchg.evidence task with hmov | ⟨-, hnew, -⟩
      · rcases hmov.settled key hkey with hold | hfences
        · obtain ⟨earlier, hmem, hfences⟩ := h.fenced task key hold
          exact ⟨earlier, mem_append_left _ hmem, hfences⟩
        · exact ⟨event, mem_append_right _ (mem_singleton_self _), hfences⟩
      · rw [hnew] at hkey
        cases hkey
    · rw [hchg.maxTasks]
      exact h.room
    · rw [hchg.maxTasks]
      exact hchg.size h.room h.size

/-- **A request that was open is open still, or what became of it is known.** -/
theorem open_request_after (later)
    (hopen : key ∈ (((withLimit maxTasks).after events).evidenceOf task).opened) :
    key ∈ (((withLimit maxTasks).after (events ++ later)).evidenceOf task).opened ∨
      ((withLimit maxTasks).after (events ++ later)).isIncomplete task ∨
      (∃ event ∈ events ++ later, event.fences task key) ∨
      ∃ before read rest, later = before ++ .observe read :: rest ∧
        ((withLimit maxTasks).after (events ++ before)).reportsSettled task key read := by
  induction later using List.reverseRecOn with
  | nil =>
    rw [append_nil]
    exact .inl hopen
  | append_singleton later event ih =>
    have hchg := changed_step ((withLimit maxTasks).after (events ++ later)) event
    rw [← append_assoc, after_singleton]
    rcases ih with hstill | hincomp | ⟨earlier, hmem, hfences⟩ | ⟨before, read, rest, hspl, hreports⟩
    · rcases hchg.kept hstill with hkept | hincomp | hfences | hstl | ⟨read, rfl, hreports⟩
      · exact .inl hkept
      · exact .inr (.inl hincomp)
      · exact .inr (.inr (.inl ⟨event, mem_append_right _ (mem_singleton_self _), hfences⟩))
      · obtain ⟨earlier, hmem, hfences⟩ := (sound_after maxTasks (events ++ later)).1.fenced task key hstl
        exact .inr (.inr (.inl ⟨earlier, mem_append_left _ hmem, hfences⟩))
      · exact .inr (.inr (.inr ⟨later, read, [], rfl, hreports⟩))
    · exact .inr (.inl (hchg.incomplete hincomp))
    · exact .inr (.inr (.inl ⟨earlier, mem_append_left _ hmem, hfences⟩))
    · refine .inr (.inr (.inr ⟨before, read, rest ++ [event], ?_, hreports⟩))
      rw [hspl, append_assoc, cons_append]

/-- **A read that is older than one the task has taken in only touches the task.** -/
theorem observe_older {read newer}
    (hnewer : newer ∈ (((withLimit maxTasks).after events).evidenceOf read.taskId).reads)
    (hsource : newer.source = read.source) (holder : read.sequence < newer.sequence) :
    ((withLimit maxTasks).after events).observe read =
      ({ (withLimit maxTasks).after events with
          clock := ((withLimit maxTasks).after events).clock + 1
          tasks := ((withLimit maxTasks).after events).tasks.set read.taskId
            { ((withLimit maxTasks).after events).evidenceOf read.taskId with
              touched := ((withLimit maxTasks).after events).clock + 1 } }, .stale) := by
  obtain ⟨sequence, hmark, hle⟩ := ((sound_after maxTasks events).1.evidence read.taskId).marks newer hnewer
  generalize (withLimit maxTasks).after events = tasks at *
  have hstale : (tasks.evidenceOf read.taskId).marks.isNewerThan read := by
    unfold Marks.isNewerThan
    rw [← hsource, hmark, any_some, decide_eq_true_iff]
    exact holder.trans_le hle
  have hhas : tasks.tasks.has read.taskId := by
    by_contra hnone
    rw [evidenceOf_of_none (by simpa using hnone)] at hnewer
    cases hnewer
  unfold observe update
  dsimp only
  rw [if_pos hhas, Evidence.observe_of_stale hstale, Evidence.observe_of_stale]
  · rfl
  · exact hstale

/-- **Evidence of requests is not lost silently**: a request that was open is open, marked as
incomplete, fenced, or read as settled since. -/
theorem evidence_is_not_lost (events later : List Event) (task : String) (key : RequestKey) :
    (key ∈ (((withLimit maxTasks).after events).evidenceOf task).opened →
      key ∈ (((withLimit maxTasks).after (events ++ later)).evidenceOf task).opened ∨
        ((withLimit maxTasks).after (events ++ later)).isIncomplete task ∨
        (∃ event ∈ events ++ later, event.fences task key) ∨
        ∃ before read rest, later = before ++ .observe read :: rest ∧
          ((withLimit maxTasks).after (events ++ before)).reportsSettled task key read) ∧
    (∀ read, ∀ newer ∈ (((withLimit maxTasks).after events).evidenceOf read.taskId).reads,
      newer.source = read.source → read.sequence < newer.sequence →
        ((withLimit maxTasks).after events).observe read =
          ({ (withLimit maxTasks).after events with
              clock := ((withLimit maxTasks).after events).clock + 1
              tasks := ((withLimit maxTasks).after events).tasks.set read.taskId
                { ((withLimit maxTasks).after events).evidenceOf read.taskId with
                  touched := ((withLimit maxTasks).after events).clock + 1 } }, .stale)) ∧
    (((withLimit maxTasks).after events).evidenceOf task).settled =
      (((withLimit maxTasks).after events).evidenceOf task).fences.drop
        ((((withLimit maxTasks).after events).evidenceOf task).fences.length - maxFencedPerTask) ∧
    (∀ event : Event, event.fences task key →
      key ∈ (((withLimit maxTasks).after (events ++ [event])).evidenceOf task).fences) ∧
    (key ∈ (((withLimit maxTasks).after events).evidenceOf task).settled →
      (∀ event, key ∈ (((withLimit maxTasks).after (events ++ [event])).evidenceOf task).opened →
        key ∈ (((withLimit maxTasks).after events).evidenceOf task).opened ∨ event = .published task key true) ∧
      ∀ requests, ∀ request ∈ ((withLimit maxTasks).after events).fenced task requests,
        request.isOpen → request.key ≠ key) ∧
    ((withLimit maxTasks).after events).tasks.size ≤ max maxTasks 1 := by
  obtain ⟨hsound, hmax⟩ := sound_after maxTasks events
  refine ⟨open_request_after maxTasks events later, fun read newer hnewer => observe_older maxTasks events hnewer,
    (hsound.evidence task).settled, fun event hfences => ?_, fun hsettled => ⟨fun event hopened => ?_,
      fun requests request hreq hopen heq => ?_⟩, hmax ▸ hsound.size⟩
  · rw [after_singleton]
    rcases (changed_step ((withLimit maxTasks).after events) event).evidence task with hmoved | ⟨hno, -, -⟩
    · exact hmoved.fences (hsound.evidence task) key hfences
    · exact absurd hfences (hno key)
  · rw [after_singleton] at hopened
    rcases (changed_step ((withLimit maxTasks).after events) event).evidence task with hmoved | ⟨-, hnew, -⟩
    · rcases hmoved.entered key hopened with hold | hnot | hpubl
      · exact .inl hold
      · exact absurd hsettled hnot
      · exact .inr hpubl
    · rw [hnew] at hopened
      cases hopened
  · unfold fenced at hreq
    unfold evidenceOf at hsettled
    split at hreq
    · rename_i hnone
      rw [hnone] at hsettled
      cases hsettled
    · rename_i evidence hsome
      rw [hsome, getD_some, ← heq] at hsettled
      have hkeep := (mem_filter.1 hreq).2
      rw [hopen, decide_eq_true hsettled] at hkeep
      cases hkeep

/-- A request that was just fenced is open again when an answer publishes it as open, and when it
comes in a read after its task was forgotten for another. -/
theorem fenced_request_reopens :
    ((.question, "q") : RequestKey) ∈ (((withLimit maxTrackedTasks).after
      [.published "a" (.question, "q") false, .published "a" (.question, "q") true]).evidenceOf "a").opened ∧
    ((.question, "q") : RequestKey) ∈ (((withLimit 1).after [.published "a" (.question, "q") false, .vanish "b",
      .observe ⟨"a", 0, [⟨"q", .pending⟩], [], .snapshot, true⟩]).evidenceOf "a").opened := by
  decide

end Tasks

end CodevoEditor.RemoteRunner
