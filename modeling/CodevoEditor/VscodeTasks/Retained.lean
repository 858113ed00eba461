/-
# What is retained can run

The search for cycles leaves each task behind the tasks it depends on, unless both are members
of a cycle (`Settled`).
-/

import CodevoEditor.Runs.Orders
import CodevoEditor.VscodeTasks.TaskGraph

namespace CodevoEditor.VscodeTasks

open Runs List Option Function

section LastIndex

variable {κ : Type} [DecidableEq κ] {entries : List κ} {key : κ} {index : ℕ}

lemma getElem?_of_lastIndex (h : lastIndex entries key = some index) : entries[index]? = some key := by
  induction entries generalizing index with
  | nil => cases h
  | cons entry entries ih =>
    rw [lastIndex] at h
    split at h
    · rename_i index' hindex'
      cases h
      exact ih hindex'
    · split_ifs at h with heq
      cases h
      rw [heq]
      rfl

lemma exists_lastIndex (h : key ∈ entries) : ∃ index, lastIndex entries key = some index := by
  induction entries with
  | nil => cases h
  | cons entry entries ih =>
    rw [lastIndex]
    split
    · exact ⟨_, rfl⟩
    · rename_i hnone
      rcases mem_cons.1 h with rfl | h
      · exact ⟨0, if_pos rfl⟩
      · obtain ⟨index, hidx⟩ := ih h
        rw [hnone] at hidx
        cases hidx

lemma lastIndex_eq_some_iff (hnd : entries.Nodup) :
    lastIndex entries key = some index ↔ entries[index]? = some key := by
  refine ⟨getElem?_of_lastIndex, fun h => ?_⟩
  obtain ⟨index', hindex'⟩ := exists_lastIndex (mem_of_getElem? h)
  have h' := getElem?_of_lastIndex hindex'
  obtain ⟨hlt, -⟩ := List.getElem?_eq_some_iff.1 h'
  rw [hindex', (getElem?_inj hlt hnd).1 (h'.trans h.symm)]

end LastIndex

variable {position fuel : ℕ} {label : String}

section Cycles

variable (tasks : List IndexedTask)

/-- What a position depends on, where there is a task with that label. -/
def DependsAt (position dependency : ℕ) : Prop :=
  dependency ∈ (dependsOnAt tasks position).filterMap (labelIndexes tasks)

lemma lt_of_labelIndexes (h : labelIndexes tasks label = some position) : position < tasks.length := by
  have hget := getElem?_of_lastIndex h
  obtain ⟨hlt, -⟩ := List.getElem?_eq_some_iff.1 hget
  rwa [length_map] at hlt

variable {tasks} {invalid : Finset ℕ}

/-- The search as far as it got: a task that is done is behind what it depends on, unless both are in a
cycle. -/
structure Settled (tasks : List IndexedTask) (invalid : Finset ℕ) (done : List ℕ) (visits : Visits) :
    Prop where
  visited : ∀ position, visits.state position = .visited ↔ position ∈ done
  visiting : ∀ position, visits.state position = .visiting ↔ position ∈ visits.stack
  ordered : Ordered (fun dependency position => DependsAt tasks position dependency ∧
    dependency ∉ invalid ∧ ¬ (position ∈ visits.cycleMembers ∧ dependency ∈ visits.cycleMembers)) done

/-- A position that has been visited is done, unless it is invalid or closes a cycle. -/
def Reached (invalid : Finset ℕ) (done : List ℕ) (visits : Visits) (position : ℕ) : Prop :=
  position ∈ invalid ∨ position ∈ done ∨
    ∃ front back, visits.stack = front ++ position :: back ∧ ∀ member ∈ position :: back, member ∈ visits.cycleMembers

def unvisited (tasks : List IndexedTask) (visits : Visits) : Finset ℕ :=
  (Finset.range tasks.length).filter fun position => visits.state position = .unvisited

/-- What a visit leaves as it is, and what it may do. -/
structure Goes (tasks : List IndexedTask) (invalid : Finset ℕ) (done : List ℕ) (visits : Visits)
    (added : List ℕ) (visits' : Visits) : Prop where
  settled : Settled tasks invalid (done ++ added) visits'
  stack : visits'.stack = visits.stack
  cycleMembers : visits.cycleMembers ⊆ visits'.cycleMembers

variable {visits : Visits} {done : List ℕ}

lemma Goes.refl (h : Settled tasks invalid done visits) : Goes tasks invalid done visits [] visits :=
  ⟨by rwa [append_nil], rfl, Finset.Subset.refl _⟩

variable {added : List ℕ} {visits' : Visits}

lemma Goes.trans {added'} {visits''}
    (h : Goes tasks invalid done visits added visits')
    (h' : Goes tasks invalid (done ++ added) visits' added' visits'') :
    Goes tasks invalid done visits (added ++ added') visits'' :=
  ⟨by rw [← append_assoc]; exact h'.settled, h'.stack.trans h.stack, h.cycleMembers.trans h'.cycleMembers⟩

lemma Goes.unvisited_subset (hstl : Settled tasks invalid done visits)
    (h : Goes tasks invalid done visits added visits') :
    unvisited tasks visits' ⊆ unvisited tasks visits := by
  intro position hmem
  obtain ⟨hrng, hstate⟩ := Finset.mem_filter.1 hmem
  refine Finset.mem_filter.2 ⟨hrng, ?_⟩
  cases hpre : visits.state position with
  | unvisited => rfl
  | visiting =>
    have hstack := (hstl.visiting position).1 hpre
    rw [← h.stack] at hstack
    rw [(h.settled.visiting position).2 hstack] at hstate
    cases hstate
  | visited =>
    have hdone := mem_append_left added ((hstl.visited position).1 hpre)
    rw [(h.settled.visited position).2 hdone] at hstate
    cases hstate

lemma Reached.mono (h : Reached invalid done visits position)
    (hgoes : Goes tasks invalid done visits added visits') :
    Reached invalid (done ++ added) visits' position := by
  rcases h with h | h | ⟨front, back, hstack, hmembers⟩
  · exact .inl h
  · exact .inr (.inl (mem_append_left _ h))
  · exact .inr (.inr ⟨front, back, hgoes.stack.trans hstack, fun member hmem =>
      hgoes.cycleMembers (hmembers member hmem)⟩)

lemma visit_positions (positions : List ℕ)
    (hpositions : ∀ position ∈ positions, position < tasks.length)
    (hvisit : ∀ position < tasks.length, ∀ done visits, Settled tasks invalid done visits →
      (unvisited tasks visits).card < fuel → ∃ added, Goes tasks invalid done visits added (visit tasks invalid
      fuel position visits) ∧ Reached invalid (done ++ added) (visit tasks invalid fuel position visits) position)
    (h : Settled tasks invalid done visits) (hfuel : (unvisited tasks visits).card < fuel) :
    ∃ added, Goes tasks invalid done visits added
        (positions.foldl (fun visits position => visit tasks invalid fuel position visits) visits) ∧
      ∀ position ∈ positions, Reached invalid (done ++ added)
        (positions.foldl (fun visits position => visit tasks invalid fuel position visits) visits) position := by
  induction positions generalizing done visits with
  | nil => exact ⟨[], .refl h, nofun⟩
  | cons position positions ih =>
    obtain ⟨hpos, hrest⟩ := forall_mem_cons.1 hpositions
    obtain ⟨added, hgoes, hrch⟩ := hvisit position hpos done visits h hfuel
    obtain ⟨added', hgoes', hreach'⟩ := ih hrest hgoes.settled
      ((Finset.card_le_card (hgoes.unvisited_subset h)).trans_lt hfuel)
    refine ⟨added ++ added', hgoes.trans hgoes', fun other hoth => ?_⟩
    rw [← append_assoc]
    rcases mem_cons.1 hoth with rfl | hoth
    · exact hrch.mono hgoes'
    · exact hreach' other hoth

/-- A task is gone into. -/
def enter (position : ℕ) (visits : Visits) : Visits :=
  { visits with
    state := Function.update visits.state position .visiting
    stack := visits.stack ++ [position] }

lemma Settled.enter (h : Settled tasks invalid done visits) (hdone : position ∉ done) :
    Settled tasks invalid done (enter position visits) := by
  refine ⟨fun other => ?_, fun other => ?_, h.ordered⟩
  · show Function.update visits.state position VisitState.visiting other = _ ↔ _
    by_cases heq : other = position
    · rw [heq, update_self]
      exact iff_of_false nofun hdone
    · rw [update_of_ne heq]
      exact h.visited other
  · show Function.update visits.state position VisitState.visiting other = _ ↔ other ∈ visits.stack ++ [position]
    rw [mem_append, mem_singleton]
    by_cases heq : other = position
    · rw [heq, update_self]
      exact iff_of_true rfl (.inr rfl)
    · rw [update_of_ne heq, or_iff_left heq]
      exact h.visiting other

lemma card_unvisited_enter (hpos : position < tasks.length)
    (hunvisited : visits.state position = .unvisited) :
    (unvisited tasks (enter position visits)).card < (unvisited tasks visits).card := by
  refine Finset.card_lt_card ((Finset.ssubset_iff_of_subset fun other hmem => ?_).2 ⟨position, ?_, ?_⟩)
  · obtain ⟨hrng, hstate⟩ := Finset.mem_filter.1 hmem
    refine Finset.mem_filter.2 ⟨hrng, ?_⟩
    by_cases heq : other = position
    · rw [heq]
      exact hunvisited
    · exact (update_of_ne heq _ _).symm.trans hstate
  · exact Finset.mem_filter.2 ⟨Finset.mem_range.2 hpos, hunvisited⟩
  · intro hmem
    have hstate : Function.update visits.state position VisitState.visiting position = .unvisited :=
      (Finset.mem_filter.1 hmem).2
    rw [update_self] at hstate
    cases hstate

lemma Goes.leave {left}
    (hgoes : Goes tasks invalid done (enter position visits) added left)
    (hstack : position ∉ visits.stack)
    (hrch : ∀ dependency, DependsAt tasks position dependency → Reached invalid (done ++ added) left dependency) :
    Goes tasks invalid done visits (added ++ [position])
      { left with
        state := Function.update left.state position .visited
        stack := left.stack.dropLast } := by
  have hleft : left.stack = visits.stack ++ [position] := hgoes.stack
  have hdrops : left.stack.dropLast = visits.stack := by rw [hleft, dropLast_concat]
  rw [hdrops]
  refine ⟨⟨fun other => ?_, fun other => ?_, ?_⟩, rfl, hgoes.cycleMembers⟩
  · show Function.update left.state position VisitState.visited other = _ ↔ _
    rw [← append_assoc, mem_append, mem_singleton]
    by_cases heq : other = position
    · rw [heq, update_self]
      exact iff_of_true rfl (.inr rfl)
    · rw [update_of_ne heq, or_iff_left heq]
      exact hgoes.settled.visited other
  · show Function.update left.state position VisitState.visited other = _ ↔ other ∈ visits.stack
    by_cases heq : other = position
    · rw [heq, update_self]
      exact iff_of_false nofun hstack
    · rw [update_of_ne heq, hgoes.settled.visiting other, hleft, mem_append, mem_singleton, or_iff_left heq]
  · rw [← append_assoc]
    refine hgoes.settled.ordered.append_singleton fun dependency ⟨hdeps, hval, hcycle⟩ => ?_
    rcases hrch dependency hdeps with hinv | hdone | ⟨front, back, hspl, hmembers⟩
    · exact absurd hinv hval
    · exact hdone
    · have hlast : position ∈ dependency :: back := by
        have hend : (front ++ dependency :: back).getLast? = some position := by
          rw [← hspl, hleft, getLast?_concat]
        rw [getLast?_append_of_ne_nil _ (cons_ne_nil _ _)] at hend
        exact mem_of_getLast? hend
      exact absurd ⟨hmembers position hlast, hmembers dependency mem_cons_self⟩ hcycle

/-- **A visit leaves a task behind what it depends on**, unless both are in a cycle. -/
theorem visit_goes (hpos : position < tasks.length) (h : Settled tasks invalid done visits)
    (hfuel : (unvisited tasks visits).card < fuel) :
    ∃ added, Goes tasks invalid done visits added (visit tasks invalid fuel position visits) ∧
      Reached invalid (done ++ added) (visit tasks invalid fuel position visits) position := by
  induction fuel generalizing position done visits with
  | zero => omega
  | succ fuel ih =>
    rw [visit]
    by_cases hskip : position ∈ invalid ∨ visits.state position = .visited
    · rw [if_pos hskip]
      refine ⟨[], .refl h, ?_⟩
      rw [append_nil]
      exact hskip.imp_right fun hvisited => .inl ((h.visited position).1 hvisited)
    rw [if_neg hskip]
    rw [not_or] at hskip
    by_cases hvisiting : visits.state position = .visiting
    · rw [if_pos hvisiting]
      have hstack := (h.visiting position).1 hvisiting
      cases hst : visits.stack.idxOf? position with
      | none => exact absurd hstack (idxOf?_eq_none_iff.1 hst)
      | some cycleStart =>
        obtain ⟨hlt, hget, -⟩ := idxOf?_eq_some_iff.1 hst
        have hspl : visits.stack = visits.stack.take cycleStart ++
            position :: visits.stack.drop (cycleStart + 1) := by
          rw [← hget, getElem_cons_drop, take_append_drop]
        have hdrop : visits.stack.drop cycleStart = position :: visits.stack.drop (cycleStart + 1) := by
          rw [← hget, getElem_cons_drop]
        refine ⟨[], ⟨⟨?_, h.visiting, ?_⟩, rfl, Finset.subset_union_left⟩,
          .inr (.inr ⟨_, _, hspl, fun member hmem => ?_⟩)⟩
        · rw [append_nil]
          exact h.visited
        · rw [append_nil]
          refine h.ordered.mono fun dependency member hpre => ⟨hpre.1, hpre.2.1, fun hboth => ?_⟩
          exact hpre.2.2 ⟨Finset.mem_union_left _ hboth.1, Finset.mem_union_left _ hboth.2⟩
        · refine Finset.mem_union_right _ (mem_toFinset.2 ?_)
          rwa [hdrop]
    rw [if_neg hvisiting]
    have hunvisited : visits.state position = .unvisited := by
      cases hstate : visits.state position with
      | unvisited => rfl
      | visiting => exact absurd hstate hvisiting
      | visited => exact absurd hstate hskip.2
    have hstack : position ∉ visits.stack := mt (h.visiting position).2 hvisiting
    have hdone : position ∉ done := mt (h.visited position).2 hskip.2
    obtain ⟨added, hgoes, hrch⟩ := visit_positions
      ((dependsOnAt tasks position).filterMap (labelIndexes tasks)) (fun dependency hdep => by
        obtain ⟨label, -, hlab⟩ := mem_filterMap.1 hdep
        exact lt_of_labelIndexes tasks hlab)
      (fun position hlt done visits hstl hcard => ih hlt hstl hcard) (h.enter hdone)
      ((Nat.lt_succ_iff.1 hfuel).trans_lt' (card_unvisited_enter hpos hunvisited))
    refine ⟨added ++ [position], hgoes.leave hstack hrch, .inr (.inl ?_)⟩
    exact mem_append_right _ (mem_append_right _ (mem_singleton.2 rfl))

lemma exists_done (tasks) (invalid) :
    ∃ done, (∀ position < tasks.length, position ∉ invalid → position ∈ done) ∧
      Ordered (fun dependency position => DependsAt tasks position dependency ∧ dependency ∉ invalid ∧
        ¬ (position ∈ (visitAll tasks invalid).cycleMembers ∧
          dependency ∈ (visitAll tasks invalid).cycleMembers)) done := by
  have hst : Settled tasks invalid [] ⟨fun _ => .unvisited, [], ∅⟩ :=
    ⟨fun position => iff_of_false nofun nofun, fun position => iff_of_false nofun nofun, .nil⟩
  have hcard : (unvisited tasks ⟨fun _ => .unvisited, [], ∅⟩).card < tasks.length + 1 := by
    have := Finset.card_filter_le (Finset.range tasks.length)
      fun position => (⟨fun _ => .unvisited, [], ∅⟩ : Visits).state position = .unvisited
    rw [Finset.card_range] at this
    exact Nat.lt_succ_of_le this
  obtain ⟨added, hgoes, hrch⟩ := visit_positions (List.range tasks.length)
    (fun position hmem => mem_range.1 hmem)
    (fun position hlt done visits hstl hcard => visit_goes hlt hstl hcard) hst hcard
  refine ⟨added, fun position hlt hval => ?_, hgoes.settled.ordered⟩
  rcases hrch position (mem_range.2 hlt) with hinv | hdone | ⟨front, back, hstack, -⟩
  · exact absurd hinv hval
  · exact hdone
  · rw [hgoes.stack] at hstack
    cases front <;> cases hstack

end Cycles

section Invalid

variable {tasks : List IndexedTask}

variable (message : String) (found : Finset ℕ × List VscodeTaskDiagnostic)

lemma subset_invalidate (position : ℕ) : found.1 ⊆ (invalidate tasks message found position).1 := by
  unfold invalidate
  split
  · exact Finset.subset_insert _ _
  · exact Finset.Subset.refl _

lemma mem_invalidate
    (hpos : position < tasks.length) :
    position ∈ (invalidate tasks message found position).1 := by
  unfold invalidate
  rw [getElem?_eq_getElem hpos]
  exact Finset.mem_insert_self _ _

lemma foldl_grows (step : Finset ℕ × List VscodeTaskDiagnostic → ℕ → Finset ℕ × List VscodeTaskDiagnostic)
    (positions : List ℕ) (found)
    (hsubset : ∀ found position, found.1 ⊆ (step found position).1)
    (hmem : ∀ found, ∀ position ∈ positions, position ∈ (step found position).1) :
    found.1 ⊆ (positions.foldl step found).1 ∧ ∀ position ∈ positions, position ∈ (positions.foldl step found).1 := by
  induction positions generalizing found with
  | nil => exact ⟨Finset.Subset.refl _, nofun⟩
  | cons position positions ih =>
    obtain ⟨hgrows, hall⟩ := ih (step found position) fun found other hoth =>
      hmem found other (mem_cons_of_mem _ hoth)
    refine ⟨(hsubset found position).trans hgrows, fun other hoth => ?_⟩
    rcases mem_cons.1 hoth with rfl | hoth
    · exact hgrows (hmem found other mem_cons_self)
    · exact hall other hoth

/-- Of the labels a task depends on none is missing, none its own and none listed twice. -/
lemma directGraphError_eq_none {seen labels}
    (h : directGraphError tasks label seen labels = none) :
    ∀ dependency ∈ labels, dependency ≠ label ∧ ∃ position, labelIndexes tasks dependency = some position := by
  induction labels generalizing seen with
  | nil => nofun
  | cons dependency labels ih =>
    rw [directGraphError] at h
    split_ifs at h with hself hseen hmiss
    intro other hoth
    rcases mem_cons.1 hoth with rfl | hoth
    · exact ⟨hself, ne_none_iff_exists'.1 hmiss⟩
    · exact ih h other hoth

lemma directGraphErrorsFrom_spec (rest) (start : ℕ)
    (found) :
    found.1 ⊆ (directGraphErrorsFrom tasks start rest found).1 ∧
      ∀ index task, rest[index]? = some task →
        start + index ∉ (directGraphErrorsFrom tasks start rest found).1 →
        directGraphError tasks task.2.label [] task.2.dependsOn = none := by
  induction rest generalizing start found with
  | nil => exact ⟨Finset.Subset.refl _, nofun⟩
  | cons first rest ih =>
    obtain ⟨taskIndex, task⟩ := first
    rw [directGraphErrorsFrom]
    cases hreason : directGraphError tasks task.label [] task.dependsOn with
    | none =>
      obtain ⟨hgrows, hval⟩ := ih (start + 1) found
      refine ⟨hgrows, fun index other hoth hnot => ?_⟩
      cases index with
      | zero =>
        cases hoth
        exact hreason
      | succ index =>
        rw [show start + (index + 1) = start + 1 + index by omega] at hnot
        exact hval index other hoth hnot
    | some reason =>
      obtain ⟨hgrows, hval⟩ := ih (start + 1)
        (insert start found.1, found.2 ++ [graphDiagnostic taskIndex task.label reason])
      refine ⟨(Finset.subset_insert _ _).trans hgrows, fun index other hoth hnot => ?_⟩
      cases index with
      | zero => exact absurd (hgrows (Finset.mem_insert_self _ _)) hnot
      | succ index =>
        rw [show start + (index + 1) = start + 1 + index by omega] at hnot
        exact hval index other hoth hnot

lemma dependsOnAt_eq {task} (h : tasks[position]? = some task) : dependsOnAt tasks position = task.2.dependsOn := by
  rw [dependsOnAt, h]
  rfl

lemma directGraphErrors_spec (diagnostics)
    (hpos : position < tasks.length)
    (hval : position ∉ (directGraphErrors tasks diagnostics).1) :
    ∀ label ∈ dependsOnAt tasks position, ∃ dependency, labelIndexes tasks label = some dependency := by
  have hget := getElem?_eq_getElem hpos
  have hnone := (directGraphErrorsFrom_spec tasks 0 (∅, diagnostics)).2 position _ hget (by rwa [Nat.zero_add])
  rw [dependsOnAt_eq hget]
  exact fun label hlab => (directGraphError_eq_none hnone label hlab).2

lemma markCycles_spec :
    found.1 ⊆ (markCycles tasks found).1 ∧ ∀ position < tasks.length,
      position ∈ (visitAll tasks found.1).cycleMembers → position ∈ (markCycles tasks found).1 := by
  obtain ⟨hgrows, hall⟩ := foldl_grows
    (fun found position =>
      if position ∈ found.1 then found
      else invalidate tasks "task dependency graph contains a cycle" found position)
    ((List.range tasks.length).filter (· ∈ (visitAll tasks found.1).cycleMembers)) found
    (fun found position => by
      split_ifs
      · exact Finset.Subset.refl _
      · exact subset_invalidate _ _ _)
    (fun found position hmem => by
      split_ifs with hget
      · exact hget
      · exact mem_invalidate _ _ (mem_range.1 (mem_filter.1 hmem).1))
  exact ⟨hgrows, fun position hlt hcycle => hall position (mem_filter.2 ⟨mem_range.2 hlt, decide_eq_true hcycle⟩)⟩

lemma propagateInvalidDependencies_spec
    (hfuel : (Finset.range tasks.length \ found.1).card < fuel) :
    found.1 ⊆ (propagateInvalidDependencies tasks fuel found).1 ∧
      newlyInvalid tasks (propagateInvalidDependencies tasks fuel found).1 = [] := by
  induction fuel generalizing found with
  | zero => omega
  | succ fuel ih =>
    rw [propagateInvalidDependencies]
    by_cases hnew : newlyInvalid tasks found.1 = []
    · rw [if_pos hnew]
      exact ⟨Finset.Subset.refl _, hnew⟩
    · rw [if_neg hnew]
      obtain ⟨hgrows, hall⟩ := foldl_grows _ (newlyInvalid tasks found.1) found
        (subset_invalidate "dependsOn references a non-executable dependency graph")
        fun found position hmem => mem_invalidate _ found (mem_range.1 (mem_filter.1 hmem).1)
      obtain ⟨position, hmem⟩ := exists_mem_of_ne_nil _ hnew
      obtain ⟨hrng, hcond⟩ := mem_filter.1 hmem
      have hnot : position ∉ found.1 := of_decide_eq_true (Bool.and_eq_true_iff.1 hcond).1
      have hlt : (Finset.range tasks.length \ ((newlyInvalid tasks found.1).foldl
          (invalidate tasks "dependsOn references a non-executable dependency graph") found).1).card
            < (Finset.range tasks.length \ found.1).card := by
        refine Finset.card_lt_card ((Finset.ssubset_iff_of_subset
          (Finset.sdiff_subset_sdiff (Finset.Subset.refl _) hgrows)).2 ⟨position, ?_, ?_⟩)
        · exact Finset.mem_sdiff.2 ⟨Finset.mem_range.2 (mem_range.1 hrng), hnot⟩
        · exact fun hmem' => (Finset.mem_sdiff.1 hmem').2 (hall position hmem)
      obtain ⟨hgrows', hnone⟩ := ih _ (hlt.trans_le (Nat.lt_succ_iff.1 hfuel))
      exact ⟨hgrows.trans hgrows', hnone⟩

/-- The tasks with errors and the members of cycles are invalid, and nothing is left to propagate. -/
lemma invalidTasks_closed (tasks) (diagnostics) :
    (markCycles tasks (directGraphErrors tasks diagnostics)).1 ⊆ (invalidTasks tasks diagnostics).1 ∧
      newlyInvalid tasks (invalidTasks tasks diagnostics).1 = [] := by
  refine propagateInvalidDependencies_spec (markCycles tasks (directGraphErrors tasks diagnostics)) ?_
  have := Finset.card_le_card (Finset.sdiff_subset (s := Finset.range tasks.length)
    (t := (markCycles tasks (directGraphErrors tasks diagnostics)).1))
  rw [Finset.card_range] at this
  exact Nat.lt_succ_of_le this

/-- **Of what is left, each task depends on what is left**, and comes behind it. -/
theorem invalidTasks_spec (tasks) (diagnostics) :
    (∀ position < tasks.length, position ∉ (invalidTasks tasks diagnostics).1 →
      ∀ label ∈ dependsOnAt tasks position, ∃ dependency, labelIndexes tasks label = some dependency ∧
        dependency ∉ (invalidTasks tasks diagnostics).1) ∧
      ∃ done, (∀ position < tasks.length, position ∉ (invalidTasks tasks diagnostics).1 → position ∈ done) ∧
        ∀ front position back, done = front ++ position :: back →
          position ∉ (invalidTasks tasks diagnostics).1 → position < tasks.length →
          ∀ dependency, DependsAt tasks position dependency → dependency ∈ front := by
  obtain ⟨hcycles, hmembers⟩ := markCycles_spec (directGraphErrors tasks diagnostics)
  obtain ⟨hgrows, hnone⟩ := invalidTasks_closed tasks diagnostics
  have hcl : ∀ position < tasks.length, position ∉ (invalidTasks tasks diagnostics).1 →
      ∀ label ∈ dependsOnAt tasks position, ∃ dependency, labelIndexes tasks label = some dependency ∧
        dependency ∉ (invalidTasks tasks diagnostics).1 := by
    intro position hlt hval label hlab
    obtain ⟨dependency, hdep⟩ := directGraphErrors_spec diagnostics hlt
      (fun hdirect => hval (hgrows (hcycles hdirect))) label hlab
    refine ⟨dependency, hdep, fun hmem => ?_⟩
    have hnew : position ∈ newlyInvalid tasks (invalidTasks tasks diagnostics).1 := by
      refine mem_filter.2 ⟨mem_range.2 hlt, ?_⟩
      rw [Bool.and_eq_true, decide_eq_true_eq]
      refine ⟨hval, any_eq_true.2 ⟨label, hlab, ?_⟩⟩
      rw [hdep]
      exact decide_eq_true hmem
    rw [hnone] at hnew
    cases hnew
  obtain ⟨done, hdone, hord⟩ := exists_done tasks (directGraphErrors tasks diagnostics).1
  refine ⟨hcl, done, fun position hlt hval => hdone position hlt fun hdirect =>
    hval (hgrows (hcycles hdirect)), fun front position back heq hval hlt dependency hdeps => ?_⟩
  obtain ⟨label, hlab, hdep⟩ := mem_filterMap.1 hdeps
  obtain ⟨dependency', hdep', hvalid'⟩ := hcl position hlt hval label hlab
  obtain rfl := some.inj (hdep'.symm.trans hdep)
  exact hord front position back heq dependency' ⟨hdeps, fun hdirect => hvalid' (hgrows (hcycles hdirect)),
    fun hboth => hval (hgrows (hmembers position hlt hboth.1))⟩

end Invalid

/-- Tasks of which one depends on the other. -/
def DependsOn (tasks : List ValidatedProcessTask) (label dependency : String) : Prop :=
  ∃ task ∈ tasks, task.label = label ∧ dependency ∈ task.dependsOn

/-- What the plans of a graph rely on. -/
structure ValidatedTaskGraph.Runnable (graph : ValidatedTaskGraph) : Prop where
  unique : (graph.tasks.map ValidatedProcessTask.label).Nodup
  closed : ∀ task ∈ graph.tasks, ∀ dependency ∈ task.dependsOn,
    dependency ∈ graph.tasks.map ValidatedProcessTask.label
  acyclic : ∃ order : List String, (∀ task ∈ graph.tasks, task.label ∈ order) ∧
    Ordered (fun dependency label => DependsOn graph.tasks label dependency) order

section Retained

variable {tasks : List IndexedTask}

lemma mem_retained {invalid : Finset ℕ} {task : ValidatedProcessTask} :
    (task ∈ (tasks.zipIdx.filter fun task => task.2 ∉ invalid).map fun task => task.1.2) ↔
      ∃ position taskIndex, tasks[position]? = some (taskIndex, task) ∧ position ∉ invalid := by
  rw [List.mem_map]
  constructor
  · rintro ⟨⟨⟨taskIndex, task⟩, position⟩, hmem, rfl⟩
    obtain ⟨hmem, hval⟩ := mem_filter.1 hmem
    exact ⟨position, taskIndex, mem_zipIdx_iff_getElem?.1 hmem, of_decide_eq_true hval⟩
  · rintro ⟨position, taskIndex, hget, hval⟩
    exact ⟨((taskIndex, task), position), mem_filter.2 ⟨mem_zipIdx_iff_getElem?.2 hget, decide_eq_true hval⟩, rfl⟩

/-- The label at a position. -/
def labelAt (tasks : List IndexedTask) (position : ℕ) : String :=
  (tasks[position]?.map fun task => task.2.label).getD ""

lemma labelAt_eq {task} (h : tasks[position]? = some task) : labelAt tasks position = task.2.label := by
  rw [labelAt, h]
  rfl

lemma getElem?_of_labelIndexes (h : labelIndexes tasks label = some position) :
    ∃ task, tasks[position]? = some task ∧ task.2.label = label := by
  have hget := getElem?_of_lastIndex h
  rw [getElem?_map, map_eq_some_iff] at hget
  exact hget

theorem runnable_retainExecutableTasks (diagnostics)
    (hunique : (tasks.map fun task => task.2.label).Nodup) :
    (retainExecutableTasks tasks diagnostics).1.Runnable := by
  obtain ⟨hcl, done, hdone, hord⟩ := invalidTasks_spec tasks diagnostics
  show (⟨(tasks.zipIdx.filter fun task => task.2 ∉ (invalidTasks tasks diagnostics).1).map fun task =>
    task.1.2⟩ : ValidatedTaskGraph).Runnable
  generalize (invalidTasks tasks diagnostics).1 = invalid at *
  have hpos {position position' : ℕ} {task task' : IndexedTask} (h : tasks[position]? = some task)
      (h' : tasks[position']? = some task') (hlab : task.2.label = task'.2.label) : position = position' := by
    have hget : (tasks.map fun task => task.2.label)[position]? = some task.2.label := by
      rw [getElem?_map, h]
      rfl
    have hget' : (tasks.map fun task => task.2.label)[position']? = some task'.2.label := by
      rw [getElem?_map, h']
      rfl
    obtain ⟨hlt, -⟩ := List.getElem?_eq_some_iff.1 hget
    exact (getElem?_inj hlt hunique).1 (by rw [hget, hget', hlab])
  refine ⟨?_, fun task hmem dependency hdep => ?_, ?_⟩
  · have hsublist := (filter_sublist (l := tasks.zipIdx)
      (p := fun task => task.2 ∉ invalid)).map fun task => task.1.2.label
    rw [List.map_map]
    refine hsublist.nodup ?_
    have hfst : (tasks.zipIdx.map fun task => task.1.2.label) = tasks.map fun task => task.2.label := by
      have hmap : (tasks.zipIdx.map Prod.fst).map (fun task => task.2.label)
          = tasks.zipIdx.map fun task => task.1.2.label := map_map
      rw [← hmap, zipIdx_map_fst]
    rwa [hfst]
  · obtain ⟨position, taskIndex, hget, hval⟩ := mem_retained.1 hmem
    obtain ⟨hlt, -⟩ := List.getElem?_eq_some_iff.1 hget
    obtain ⟨position', hlab, hvalid'⟩ := hcl position hlt hval dependency
      (by rw [dependsOnAt_eq hget]; exact hdep)
    obtain ⟨⟨taskIndex', task'⟩, hget', rfl⟩ := getElem?_of_labelIndexes hlab
    exact mem_map.2 ⟨task', mem_retained.2 ⟨position', taskIndex', hget', hvalid'⟩, rfl⟩
  · have hleft : Ordered (fun dependency position => DependsAt tasks position dependency)
        (done.filter fun position => position < tasks.length ∧ position ∉ invalid) := by
      refine .filter fun front position back heq hleft dependency hdeps => ?_
      obtain ⟨hlt, hval⟩ := of_decide_eq_true hleft
      obtain ⟨label, hlab, hdep⟩ := mem_filterMap.1 hdeps
      obtain ⟨dependency', hdep', hvalid'⟩ := hcl position hlt hval label hlab
      obtain rfl := some.inj (hdep'.symm.trans hdep)
      exact ⟨decide_eq_true ⟨lt_of_labelIndexes tasks hdep, hvalid'⟩,
        hord front position back heq hval hlt dependency' hdeps⟩
    refine ⟨(done.filter fun position => position < tasks.length ∧ position ∉ invalid).map (labelAt tasks),
      fun task hmem => ?_, hleft.map fun position hmem label hdeps => ?_⟩
    · obtain ⟨position, taskIndex, hget, hval⟩ := mem_retained.1 hmem
      obtain ⟨hlt, -⟩ := List.getElem?_eq_some_iff.1 hget
      exact mem_map.2 ⟨position, mem_filter.2 ⟨hdone position hlt hval, decide_eq_true ⟨hlt, hval⟩⟩,
        labelAt_eq hget⟩
    · obtain ⟨hlt, hval⟩ := of_decide_eq_true (mem_filter.1 hmem).2
      obtain ⟨task, htask, hlab, hdep⟩ := hdeps
      obtain ⟨position', taskIndex, hget, -⟩ := mem_retained.1 htask
      have hself := getElem?_eq_getElem hlt
      rw [labelAt_eq hself] at hlab
      obtain rfl := hpos hget hself hlab
      rw [← dependsOnAt_eq hget] at hdep
      obtain ⟨dependency, hidx, -⟩ := hcl position' hlt hval label hdep
      obtain ⟨task', hget', hlabel'⟩ := getElem?_of_labelIndexes hidx
      exact ⟨dependency, (labelAt_eq hget').trans hlabel', mem_filterMap.2 ⟨label, hdep, hidx⟩⟩

end Retained

end CodevoEditor.VscodeTasks
