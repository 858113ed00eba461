/-
# Which tasks are dropped

A task is doomed if it comes, along what it depends on, to a task that is refused for its own
dependencies or to one that depends on itself.
-/

import CodevoEditor.VscodeTasks.Retained
import Mathlib.Data.List.Chain

namespace CodevoEditor.VscodeTasks

open Runs List Relation

section Doomed

variable (tasks : List IndexedTask)

/-- The task names itself, or a label twice, or one that no task has. -/
def HasDirectError (position : ℕ) : Prop :=
  ∃ task, tasks[position]? = some task ∧ (task.2.label ∈ task.2.dependsOn ∨ ¬ task.2.dependsOn.Nodup ∨
    ∃ dependency ∈ task.2.dependsOn, dependency ∉ tasks.map fun task => task.2.label)

def IsDoomed (position : ℕ) : Prop :=
  ∃ other, ReflTransGen (DependsAt tasks) position other ∧
    (HasDirectError tasks other ∨ TransGen (DependsAt tasks) other other)

/-- The diagnostic for a position. -/
def diagnosticAt (entry : ℕ × String) : VscodeTaskDiagnostic :=
  graphDiagnostic ((tasks[entry.1]?.map Prod.fst).getD 0) (labelAt tasks entry.1) entry.2

/-- The positions that were found are doomed, and there is one diagnostic for each. -/
structure Booked (diagnostics : List VscodeTaskDiagnostic) (dropped : List (ℕ × String))
    (found : Finset ℕ × List VscodeTaskDiagnostic) : Prop where
  nodup : (dropped.map Prod.fst).Nodup
  mem : ∀ position, position ∈ found.1 ↔ position ∈ dropped.map Prod.fst
  doomed : ∀ position ∈ found.1, position < tasks.length ∧ IsDoomed tasks position
  diagnostics_eq : found.2 = diagnostics ++ dropped.map (diagnosticAt tasks)

end Doomed

variable {tasks : List IndexedTask} {diagnostics : List VscodeTaskDiagnostic} {position fuel : ℕ}
  {dropped : List (ℕ × String)} {found : Finset ℕ × List VscodeTaskDiagnostic} {invalid : Finset ℕ}

lemma IsDoomed.head {dependency} (h : IsDoomed tasks dependency)
    (hdep : DependsAt tasks position dependency) : IsDoomed tasks position := by
  obtain ⟨other, hoth, herror⟩ := h
  exact ⟨other, .head hdep hoth, herror⟩

lemma Booked.invalidate (h : Booked tasks diagnostics dropped found) (hlt : position < tasks.length)
    (hnew : position ∉ found.1) (hdoomed : IsDoomed tasks position) (message : String) :
    Booked tasks diagnostics (dropped ++ [(position, message)]) (invalidate tasks message found position) := by
  have hget := getElem?_eq_getElem hlt
  unfold VscodeTasks.invalidate
  rw [hget]
  refine ⟨?_, fun other => ?_, fun other hoth => ?_, ?_⟩
  · rw [map_append]
    refine h.nodup.append (nodup_singleton _) ?_
    simpa [← h.mem] using hnew
  · rw [Finset.mem_insert, h.mem, map_append, mem_append, map_singleton, mem_singleton]
    exact or_comm
  · rcases Finset.mem_insert.1 hoth with rfl | hoth
    · exact ⟨hlt, hdoomed⟩
    · exact h.doomed other hoth
  · simp [h.diagnostics_eq, diagnosticAt, labelAt_eq hget, hget]

lemma labelIndexes_eq_none_iff {label} :
    labelIndexes tasks label = none ↔ label ∉ tasks.map fun task => task.2.label := by
  constructor
  · intro hnone hmem
    obtain ⟨index, hidx⟩ := exists_lastIndex hmem
    rw [labelIndexes, hidx] at hnone
    cases hnone
  · intro hmem
    by_contra hsome
    obtain ⟨index, hidx⟩ := Option.ne_none_iff_exists'.1 hsome
    exact hmem (mem_of_getElem? (getElem?_of_lastIndex hidx))

lemma directGraphError_eq_none_iff {label} {seen labels} :
    directGraphError tasks label seen labels = none ↔ label ∉ labels ∧ labels.Nodup ∧
      ∀ dependency ∈ labels, dependency ∉ seen ∧ dependency ∈ tasks.map fun task => task.2.label := by
  induction labels generalizing seen with
  | nil => simp [directGraphError]
  | cons dependency labels ih =>
    rw [directGraphError]
    split_ifs with hself hseen hmiss
    · simp [hself]
    · simp [hseen]
    · rw [labelIndexes_eq_none_iff] at hmiss
      exact iff_of_false (by rintro ⟨⟩) fun h => hmiss (h.2.2 dependency mem_cons_self).2
    · rw [labelIndexes_eq_none_iff, not_not] at hmiss
      grind

lemma hasDirectError_iff {task} (hget : tasks[position]? = some task) :
    HasDirectError tasks position ↔ directGraphError tasks task.2.label [] task.2.dependsOn ≠ none := by
  simp only [HasDirectError, hget, Option.some.injEq, exists_eq_left', ne_eq, directGraphError_eq_none_iff]
  grind

lemma booked_directGraphErrorsFrom (rest) (start : ℕ)
    (hrest : ∀ index, rest[index]? = tasks[start + index]?) (h : Booked tasks diagnostics dropped found)
    (hpre : ∀ position ∈ found.1, position < start) :
    ∃ dropped, Booked tasks diagnostics dropped (directGraphErrorsFrom tasks start rest found) := by
  induction rest generalizing start found dropped with
  | nil => exact ⟨dropped, h⟩
  | cons first rest ih =>
    have hget : tasks[start]? = some first := by simpa using (hrest 0).symm
    have hnext : ∀ index, rest[index]? = tasks[start + 1 + index]? := fun index => by
      simpa [Nat.add_comm, Nat.add_left_comm] using hrest (index + 1)
    obtain ⟨taskIndex, task⟩ := first
    rw [directGraphErrorsFrom]
    cases hreason : directGraphError tasks task.label [] task.dependsOn with
    | none => exact ih (start + 1) hnext h fun position hpos => (hpre position hpos).trans (by simp)
    | some reason =>
      have herror : HasDirectError tasks start := (hasDirectError_iff hget).2 (by simp [hreason])
      have hbooked := h.invalidate (List.getElem?_eq_some_iff.1 hget).1
        (fun hmem => Nat.lt_irrefl _ (hpre start hmem)) ⟨start, .refl, .inl herror⟩ reason
      simp only [invalidate, hget] at hbooked
      refine ih (start + 1) hnext hbooked fun position hpos => ?_
      rcases Finset.mem_insert.1 hpos with rfl | hpos
      · simp
      · exact (hpre position hpos).trans (by simp)

lemma transGen_of_isChain {rest} {member}
    (h : IsChain (DependsAt tasks) (position :: rest ++ [position])) (hmember : member ∈ position :: rest) :
    TransGen (DependsAt tasks) member member := by
  have hpair := (h.imp fun _ _ => TransGen.single).pairwise
  rw [pairwise_append] at hpair
  have hback := hpair.2.2 member hmember position (by simp)
  rcases mem_cons.1 hmember with rfl | hrest
  · exact hback
  · exact hback.trans ((pairwise_cons.1 hpair.1).1 member hrest)

/-- What has been taken for a member of a cycle depends on itself. -/
def Cyclic (tasks : List IndexedTask) (visits : Visits) : Prop :=
  ∀ member ∈ visits.cycleMembers, TransGen (DependsAt tasks) member member

lemma foldl_cyclic (step : Visits → ℕ → Visits) (stack positions : List ℕ)
    (hstep : ∀ position ∈ positions, ∀ visits, visits.stack = stack → Cyclic tasks visits →
      (step visits position).stack = stack ∧ Cyclic tasks (step visits position))
    {visits} (hstack : visits.stack = stack) (h : Cyclic tasks visits) :
    (positions.foldl step visits).stack = stack ∧ Cyclic tasks (positions.foldl step visits) := by
  induction positions generalizing visits with
  | nil => exact ⟨hstack, h⟩
  | cons position positions ih =>
    rw [forall_mem_cons] at hstep
    obtain ⟨hstack', h'⟩ := hstep.1 visits hstack h
    exact ih hstep.2 hstack' h'

/-- **What a visit takes for members of a cycle depend on themselves**, as it goes along a path. -/
theorem visit_cyclic {visits} (h : Cyclic tasks visits)
    (hpath : IsChain (DependsAt tasks) (visits.stack ++ [position])) :
    (visit tasks invalid fuel position visits).stack = visits.stack ∧
      Cyclic tasks (visit tasks invalid fuel position visits) := by
  induction fuel generalizing position visits with
  | zero => exact ⟨rfl, h⟩
  | succ fuel ih =>
    rw [visit]
    split_ifs with hskip hvisiting
    · exact ⟨rfl, h⟩
    · cases hst : visits.stack.idxOf? position with
      | none => exact ⟨rfl, h⟩
      | some cycleStart =>
        obtain ⟨hlt, hget, -⟩ := idxOf?_eq_some_iff.1 hst
        have hdrop : visits.stack.drop cycleStart = position :: visits.stack.drop (cycleStart + 1) := by
          rw [← hget, getElem_cons_drop]
        refine ⟨rfl, fun member hmember => ?_⟩
        rcases Finset.mem_union.1 hmember with hmember | hmember
        · exact h member hmember
        · rw [mem_toFinset, hdrop] at hmember
          refine transGen_of_isChain (hpath.suffix ?_) hmember
          rw [← hdrop]
          exact ⟨visits.stack.take cycleStart, by rw [← append_assoc, take_append_drop]⟩
    · obtain ⟨hstack, hcyclic⟩ := foldl_cyclic
        (fun visits dependency => visit tasks invalid fuel dependency visits) (visits.stack ++ [position])
        ((dependsOnAt tasks position).filterMap (labelIndexes tasks))
        (fun dependency hdeps entered hstack hentered => by
          have hdep : DependsAt tasks position dependency := hdeps
          rw [← hstack] at hpath ⊢
          exact ih hentered (hpath.append (.singleton _) (by simpa [hstack] using hdep)))
        (show (enter position visits).stack = _ from rfl) h
      refine ⟨?_, hcyclic⟩
      change (foldl _ (enter position visits) _).stack.dropLast = _
      rw [hstack, dropLast_concat]

lemma visitAll_cyclic (tasks) (invalid) : Cyclic tasks (visitAll tasks invalid) := by
  refine (foldl_cyclic _ [] _ (fun position _ visits hstack h => ?_) rfl (by simp [Cyclic])).2
  rw [← hstack]
  exact visit_cyclic h (by simp [hstack])

lemma booked_directGraphErrors (tasks) (diagnostics) :
    ∃ dropped, Booked tasks diagnostics dropped (directGraphErrors tasks diagnostics) := by
  have hemp : Booked tasks diagnostics [] (∅, diagnostics) := ⟨by simp, by simp, by simp, by simp⟩
  exact booked_directGraphErrorsFrom tasks 0 (by simp) hemp (by simp)

lemma booked_markCycles (h : ∃ dropped, Booked tasks diagnostics dropped found) :
    ∃ dropped, Booked tasks diagnostics dropped (markCycles tasks found) := by
  unfold markCycles
  have hcycles : ∀ position ∈ (List.range tasks.length).filter (· ∈ (visitAll tasks found.1).cycleMembers),
      position < tasks.length ∧ TransGen (DependsAt tasks) position position := by
    intro position hmem
    simp only [mem_filter, mem_range, decide_eq_true_eq] at hmem
    exact ⟨hmem.1, visitAll_cyclic tasks found.1 position hmem.2⟩
  dsimp only
  generalize (List.range tasks.length).filter (· ∈ (visitAll tasks found.1).cycleMembers) = positions at hcycles
  induction positions generalizing found with
  | nil => exact h
  | cons position positions ih =>
    rw [forall_mem_cons] at hcycles
    refine ih ?_ hcycles.2
    dsimp only
    split_ifs with hget
    · exact h
    · obtain ⟨dropped, h⟩ := h
      exact ⟨_, h.invalidate hcycles.1.1 hget ⟨position, .refl, .inr hcycles.1.2⟩ _⟩

lemma booked_foldl_invalidate {positions : List ℕ} (hnd : positions.Nodup) (message : String)
    (hnew : ∀ position ∈ positions, position ∉ found.1 ∧ position < tasks.length ∧ IsDoomed tasks position)
    (h : ∃ dropped, Booked tasks diagnostics dropped found) :
    ∃ dropped, Booked tasks diagnostics dropped (positions.foldl (invalidate tasks message) found) := by
  induction positions generalizing found with
  | nil => exact h
  | cons position positions ih =>
    obtain ⟨dropped, h⟩ := h
    obtain ⟨⟨hnot, hlt, hdoomed⟩, hrest⟩ := forall_mem_cons.1 hnew
    rw [nodup_cons] at hnd
    refine ih hnd.2 (fun other hoth => ⟨?_, (hrest other hoth).2⟩) ⟨_, h.invalidate hlt hnot hdoomed message⟩
    rw [invalidate, getElem?_eq_getElem hlt]
    simp only [Finset.mem_insert, not_or]
    exact ⟨fun heq => hnd.1 (heq ▸ hoth), (hrest other hoth).1⟩

lemma booked_propagate (h : ∃ dropped, Booked tasks diagnostics dropped found) :
    ∃ dropped, Booked tasks diagnostics dropped (propagateInvalidDependencies tasks fuel found) := by
  induction fuel generalizing found with
  | zero => exact h
  | succ fuel ih =>
    rw [propagateInvalidDependencies]
    split_ifs
    · exact h
    · refine ih (booked_foldl_invalidate (nodup_range.filter _) _ (fun position hmem => ?_) h)
      simp only [mem_filter, mem_range, Bool.and_eq_true, decide_eq_true_eq, any_eq_true, Option.any_eq_true] at hmem
      obtain ⟨hlt, hnot, label, hlab, dependency, hdeps, hinv⟩ := hmem
      obtain ⟨dropped, h⟩ := h
      exact ⟨hnot, hlt, (h.doomed dependency hinv).2.head (mem_filterMap.2 ⟨label, hlab, hdeps⟩)⟩

lemma booked_invalidTasks (tasks) (diagnostics) :
    ∃ dropped, Booked tasks diagnostics dropped (invalidTasks tasks diagnostics) :=
  booked_propagate (booked_markCycles (booked_directGraphErrors tasks diagnostics))

lemma not_doomed (hlt : position < tasks.length) (hval : position ∉ (invalidTasks tasks diagnostics).1) :
    ¬ IsDoomed tasks position := by
  obtain ⟨hcl, done, hdone, hord⟩ := invalidTasks_spec tasks diagnostics
  have hkeeps : ∀ {start next}, start < tasks.length ∧ start ∉ (invalidTasks tasks diagnostics).1 →
      DependsAt tasks start next → next < tasks.length ∧ next ∉ (invalidTasks tasks diagnostics).1 := by
    rintro start next ⟨hlt, hval⟩ hdep
    obtain ⟨label, hlab, hnext⟩ := mem_filterMap.1 hdep
    obtain ⟨next', hnext', hvalid'⟩ := hcl start hlt hval label hlab
    obtain rfl := Option.some.inj (hnext'.symm.trans hnext)
    exact ⟨lt_of_labelIndexes tasks hnext, hvalid'⟩
  have hreaches : ∀ {other}, ReflTransGen (DependsAt tasks) position other →
      other < tasks.length ∧ other ∉ (invalidTasks tasks diagnostics).1 := by
    intro other hrch
    induction hrch with
    | refl => exact ⟨hlt, hval⟩
    | tail _ hstep ih => exact hkeeps ih hstep
  rintro ⟨other, hrch, herror | hcycle⟩
  · obtain ⟨hlt, hval⟩ := hreaches hrch
    have hget := getElem?_eq_getElem hlt
    have hnot : other ∉ (directGraphErrors tasks diagnostics).1 := fun hmem =>
      hval ((invalidTasks_closed tasks diagnostics).1 ((markCycles_spec _).1 hmem))
    exact (hasDirectError_iff hget).1 herror ((directGraphErrorsFrom_spec tasks 0 (∅, diagnostics)).2
      other _ hget (by rwa [Nat.zero_add]))
  · have hvalid' := hreaches hrch
    have hkept : ∀ {next}, TransGen (DependsAt tasks) other next →
        TransGen (fun start next => DependsAt tasks start next ∧ start < tasks.length ∧
          start ∉ (invalidTasks tasks diagnostics).1) other next := by
      intro next hnext
      induction hnext with
      | single hstep => exact .single ⟨hstep, hvalid'⟩
      | tail hpath hstep ih => exact ih.tail ⟨hstep, hreaches (hrch.trans hpath.to_reflTransGen)⟩
    have horder : Ordered (fun next start => DependsAt tasks start next ∧ start < tasks.length ∧
        start ∉ (invalidTasks tasks diagnostics).1) done :=
      fun front start back heq next hstep => hord front start back heq hstep.2.2 hstep.2.1 next hstep.1
    exact horder.not_transGen (hdone other hvalid'.1 hvalid'.2) (hkept hcycle)

/-- **Just the doomed tasks are dropped, with a diagnostic for each**; the others are kept in the order in
which they are listed. -/
theorem retainExecutableTasks_spec (tasks : List IndexedTask) (diagnostics : List VscodeTaskDiagnostic) :
    ∃ dropped : List (ℕ × String), (dropped.map Prod.fst).Nodup ∧
      (∀ position, position ∈ dropped.map Prod.fst ↔ position < tasks.length ∧ IsDoomed tasks position) ∧
      (retainExecutableTasks tasks diagnostics).2 = diagnostics ++ dropped.map (diagnosticAt tasks) ∧
      (retainExecutableTasks tasks diagnostics).1.tasks =
        (tasks.zipIdx.filter fun task => task.2 ∉ dropped.map Prod.fst).map fun task => task.1.2 := by
  obtain ⟨dropped, h⟩ := booked_invalidTasks tasks diagnostics
  refine ⟨dropped, h.nodup, fun position => ?_, h.diagnostics_eq, ?_⟩
  · rw [← h.mem]
    refine ⟨h.doomed position, fun ⟨hlt, hdoomed⟩ => ?_⟩
    by_contra hvalid
    exact not_doomed hlt hvalid hdoomed
  · simp only [retainExecutableTasks, h.mem]

end CodevoEditor.VscodeTasks
