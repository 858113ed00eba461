/-
# Completing a plan

The steps that are ready are completed one at a time.
-/

import CodevoEditor.VscodeTasks.Plans

namespace CodevoEditor.VscodeTasks

open Runs Relation List

/-- Of the tasks that `target` needs one at most is a sequence. -/
def OneSequence (tasks : List ValidatedProcessTask) (target : String) : Prop :=
  ∀ first ∈ tasks, ∀ second ∈ tasks, Needs tasks target first.label → first.dependencyOrder = .sequence →
    Needs tasks target second.label → second.dependencyOrder = .sequence → first = second

/-- The tasks that `target` needs can be put in order. -/
def Consistent (tasks : List ValidatedProcessTask) (target : String) : Prop :=
  ∃ order : List String, (∀ label, Needs tasks target label → label ∈ order) ∧
    Ordered (fun other label => Requires tasks target label other) order

namespace ValidatedTaskExecutionPlan

variable {plan : ValidatedTaskExecutionPlan} {tasks : List ValidatedProcessTask} {target : String}
  {completed : Finset ℕ} {labels : List String}

/-- A step can be taken: it is not completed, and all that it waits for is. -/
def Ready (plan : ValidatedTaskExecutionPlan) (completed : Finset ℕ) (index : ℕ) : Prop :=
  index ∉ completed ∧ ∃ step, plan.steps[index]? = some step ∧
    ∀ prerequisite ∈ step.prerequisites, prerequisite ∈ completed

variable {index : ℕ}

lemma mem_candidates_iff :
    index ∈ (List.range plan.steps.length).filter (fun index =>
        index ∉ completed && index ∉ (∅ : Finset ℕ) && (plan.steps[index]?.any fun step =>
          step.prerequisites.all fun prerequisite => prerequisite ∈ completed)) ↔
      plan.Ready completed index := by
  rw [mem_filter, mem_range, Ready]
  constructor
  · rintro ⟨hlt, hready⟩
    rw [getElem?_eq_getElem hlt] at hready ⊢
    simp only [Finset.notMem_empty, not_false_eq_true, decide_true, Bool.and_true, Bool.and_eq_true,
      decide_eq_true_eq, Option.any_some, all_eq_true] at hready
    exact ⟨hready.1, _, rfl, hready.2⟩
  · rintro ⟨hnot, step, hget, hall⟩
    obtain ⟨hlt, -⟩ := List.getElem?_eq_some_iff.1 hget
    refine ⟨hlt, ?_⟩
    rw [hget]
    simpa [hnot] using hall

lemma readySteps_cases (completed) :
    (plan.readySteps completed ∅ = [] ∧ ∀ index, ¬ plan.Ready completed index) ∨
      ∃ index, plan.readySteps completed ∅ = [index] ∧ plan.Ready completed index := by
  rw [readySteps, if_neg (not_not.2 rfl)]
  generalize hcands : (List.range plan.steps.length).filter _ = candidates
  have hmem index : index ∈ candidates ↔ plan.Ready completed index := by
    rw [← hcands, mem_candidates_iff]
  cases candidates with
  | nil => exact .inl ⟨rfl, fun index hready => absurd ((hmem index).2 hready) not_mem_nil⟩
  | cons index rest => exact .inr ⟨index, rfl, (hmem index).1 mem_cons_self⟩

/-- The steps that are completed, under their indexes and under their labels. -/
structure Completed (plan : ValidatedTaskExecutionPlan) (tasks : List ValidatedProcessTask) (target : String)
    (completed : Finset ℕ) (labels : List String) : Prop where
  nodup : labels.Nodup
  subset : labels ⊆ plan.labels
  ordered : Ordered (fun other label => Requires tasks target label other) labels
  mem_iff : ∀ (index : ℕ) label, plan.labels[index]? = some label → (index ∈ completed ↔ label ∈ labels)
  card : completed.card = labels.length

lemma completed_none : plan.Completed tasks target ∅ [] where
  nodup := nodup_nil
  subset := nil_subset _
  ordered := .nil
  mem_iff _ _ _ := iff_of_false (Finset.notMem_empty _) not_mem_nil
  card := rfl

lemma length_labels : plan.labels.length = plan.steps.length := length_map _

lemma getElem?_labels {step} (h : plan.steps[index]? = some step) : plan.labels[index]? = some step.label := by
  rw [labels, getElem?_map, h]
  rfl

lemma exists_step {label} (h : plan.labels[index]? = some label) :
    ∃ step, plan.steps[index]? = some step ∧ step.label = label := by
  rw [ValidatedTaskExecutionPlan.labels, getElem?_map] at h
  exact Option.map_eq_some_iff.1 h

lemma Serves.mem_of_requires (h : plan.Serves tasks target) {label other} (hmem : label ∈ plan.labels)
    (hreq : Requires tasks target label other) : other ∈ plan.labels := by
  rw [h.mem_labels] at hmem ⊢
  rcases hreq with hdep | ⟨task, htask, hneeds, -, front, later, back, heq, -⟩
  · exact hmem.tail hdep
  · refine hneeds.tail ⟨task, htask, rfl, ?_⟩
    rw [heq]
    exact mem_append_right _ mem_cons_self

lemma Completed.step (h : plan.Completed tasks target completed labels) (hserve : plan.Serves tasks target)
    (hready : plan.Ready completed index) :
    ∃ label, plan.steps[index]?.map ValidatedTaskExecutionStep.label = some label ∧
      plan.Completed tasks target (completed ∪ [index].toFinset) (labels ++ [label]) := by
  obtain ⟨hnot, step, hget, hall⟩ := hready
  have hlab := getElem?_labels hget
  have hmem := mem_of_getElem? hlab
  have hnew : step.label ∉ labels := fun hold => hnot ((h.mem_iff index step.label hlab).2 hold)
  refine ⟨step.label, by rw [hget]; rfl, ?_, ?_, h.ordered.append_singleton fun other hreq => ?_, ?_, ?_⟩
  · refine nodup_append.2 ⟨h.nodup, nodup_singleton _, fun label hold last hlast => ?_⟩
    rintro rfl
    exact hnew (mem_singleton.1 hlast ▸ hold)
  · exact append_subset.2 ⟨h.subset, cons_subset.2 ⟨hmem, nil_subset _⟩⟩
  · obtain ⟨prerequisite, hoth⟩ := mem_iff_getElem?.1 (hserve.mem_of_requires hmem hreq)
    refine (h.mem_iff prerequisite other hoth).1 (hall prerequisite ?_)
    exact (hserve.prerequisites step (mem_of_getElem? hget) prerequisite).2 ⟨other, hoth, hreq⟩
  · intro index' label hlabel'
    rw [Finset.mem_union, mem_append, mem_toFinset, mem_singleton, mem_singleton, h.mem_iff index' label hlabel']
    refine or_congr_right ⟨?_, ?_⟩
    · rintro rfl
      exact Option.some.inj (hlabel'.symm.trans hlab)
    · rintro rfl
      obtain ⟨hlt, -⟩ := List.getElem?_eq_some_iff.1 hlabel'
      exact (getElem?_inj hlt hserve.nodup).1 (hlabel'.trans hlab.symm)
  · rw [length_append, ← h.card, toFinset_cons, toFinset_nil, Finset.union_comm,
      insert_empty_eq, Finset.singleton_union, Finset.card_insert_of_notMem hnot]
    rfl

lemma Completed.inconsistent (h : plan.Completed tasks target completed labels)
    (hserve : plan.Serves tasks target) (hlt : completed.card < plan.steps.length)
    (hstuck : ∀ index, ¬ plan.Ready completed index) : ¬ Consistent tasks target := by
  rintro ⟨order, hall, hord⟩
  have hleft : ∃ label ∈ order, ¬ (label ∈ plan.labels → label ∈ labels) := by
    by_contra hno
    push Not at hno
    have hsubset : plan.labels ⊆ labels := fun label hmem =>
      hno label (hall label ((hserve.mem_labels label).1 hmem)) hmem
    have := (hserve.nodup.subperm hsubset).length_le
    rw [length_labels, ← h.card] at this
    omega
  obtain ⟨label, -, hnot, hdone⟩ := hord.exists_ready hleft
  push Not at hnot
  obtain ⟨hmem, hnot⟩ := hnot
  obtain ⟨index, hlab⟩ := mem_iff_getElem?.1 hmem
  obtain ⟨step, hget, rfl⟩ := exists_step hlab
  refine hstuck index ⟨fun hold => hnot ((h.mem_iff index _ hlab).1 hold), step, hget,
    fun prerequisite hprerequisite => ?_⟩
  obtain ⟨other, hoth, hreq⟩ :=
    (hserve.prerequisites step (mem_of_getElem? hget) prerequisite).1 hprerequisite
  exact (h.mem_iff prerequisite other hoth).2 (hdone other hreq (mem_of_getElem? hoth))

/-- All steps have been completed, each once, each after what it requires. -/
structure Carried (tasks : List ValidatedProcessTask) (target : String) (labels : List String) : Prop where
  nodup : labels.Nodup
  mem_iff : ∀ label, label ∈ labels ↔ Needs tasks target label
  ordered : Ordered (fun other label => Requires tasks target label other) labels

lemma Completed.carried (h : plan.Completed tasks target completed labels) (hserve : plan.Serves tasks target)
    (hall : plan.steps.length ≤ completed.card) : Carried tasks target labels := by
  refine ⟨h.nodup, fun label => ?_, h.ordered⟩
  have hperm := (h.nodup.subperm h.subset).perm_of_length_le (by
    rw [length_labels, ← h.card]
    exact hall)
  rw [hperm.mem_iff, hserve.mem_labels]

lemma Carried.consistent (h : Carried tasks target labels) : Consistent tasks target :=
  ⟨labels, fun label hneeds => (h.mem_iff label).2 hneeds, h.ordered⟩

/-- **The loop goes on until all is completed, or until what is left has no order.** -/
theorem Completed.run (h : plan.Completed tasks target completed labels) (hserve : plan.Serves tasks target)
    {rounds} (hrounds : plan.steps.length ≤ completed.card + rounds) :
    (∃ labels', plan.completeReady rounds completed labels = .ok labels' ∧ Carried tasks target labels') ∨
      (plan.completeReady rounds completed labels
        = .error "Unable to resolve the process task graph safely." ∧ ¬ Consistent tasks target) := by
  induction rounds generalizing completed labels with
  | zero => exact .inl ⟨labels, rfl, h.carried hserve hrounds⟩
  | succ rounds ih =>
    rw [completeReady]
    by_cases hlt : completed.card < plan.steps.length
    · rw [if_pos hlt]
      rcases plan.readySteps_cases completed with ⟨hready, hstuck⟩ | ⟨index, hready, hcan⟩
      · rw [hready]
        exact .inr ⟨rfl, h.inconsistent hserve hlt hstuck⟩
      · obtain ⟨label, hlab, hstep⟩ := h.step hserve hcan
        rw [hready]
        simp only [filterMap_cons, hlab, filterMap_nil]
        refine ih hstep ?_
        rw [hstep.card, length_append, ← h.card, length_singleton]
        omega
    · rw [if_neg hlt]
      exact .inl ⟨labels, rfl, h.carried hserve (not_lt.1 hlt)⟩

end ValidatedTaskExecutionPlan

open Classical in
/-- The members of a branch, in an order of the whole graph. -/
noncomputable def branchOrder (tasks : List ValidatedProcessTask) (order : List String) (root : String) :
    List String :=
  order.filter fun label => Needs tasks root label

section BranchOrder

variable {tasks : List ValidatedProcessTask} {order placed done rest : List String} {root label : String}

open Classical in
lemma mem_branchOrder : label ∈ branchOrder tasks order root ↔ label ∈ order ∧ Needs tasks root label := by
  rw [branchOrder, mem_filter, decide_eq_true_iff]

open Classical in
lemma ordered_branchOrder (h : Ordered (fun dependency label => DependsOn tasks label dependency) order) :
    Ordered (fun dependency label => DependsOn tasks label dependency) (branchOrder tasks order root) := by
  refine Ordered.filter fun front label back heq hneeds dependency hdep => ?_
  have hneeds := of_decide_eq_true hneeds
  rw [decide_eq_true_iff]
  exact ⟨hneeds.tail hdep, h front label back heq dependency hdep⟩

lemma Awaits.mem_earlier {earlier label} (h : Awaits tasks (done ++ root :: rest) label earlier)
    (hneeds : Needs tasks root label) : earlier ∈ done := by
  obtain ⟨front, later, back, heq, -, hnot⟩ := h
  rw [append_cons front, append_eq_append_iff] at heq
  rcases heq with ⟨between, hfr, hback⟩ | ⟨between, rfl, -⟩
  · cases between with
    | nil =>
      rw [append_nil] at hfr
      rw [← hfr]
      exact mem_append_right _ (mem_singleton.2 rfl)
    | cons first between =>
      obtain ⟨rfl, -⟩ := cons.inj hback
      exact absurd hneeds (hnot root (hfr ▸ mem_append_right _ mem_cons_self))
  · exact mem_append_left _ (mem_append_right _ (mem_singleton.2 rfl))

lemma exists_ordered_branches
    (h : Ordered (fun dependency label => DependsOn tasks label dependency) order)
    (hroots : ∀ root ∈ done ++ rest, root ∈ order)
    (hpl : Ordered (fun other label => DependsOn tasks label other ∨ Awaits tasks (done ++ rest) label other)
      placed)
    (hdone : ∀ root ∈ done, root ∈ placed) :
    ∃ placed', Ordered (fun other label => DependsOn tasks label other ∨ Awaits tasks (done ++ rest) label other)
        (placed' ++ order) := by
  induction rest generalizing done placed with
  | nil =>
    refine ⟨placed, hpl.append fun front label back heq other hoth => ?_⟩
    rcases hoth with hdep | ⟨front', later, back', heq', -⟩
    · exact mem_append_right _ (h front label back heq other hdep)
    · rw [append_nil] at heq'
      refine mem_append_left _ (hdone other ?_)
      rw [heq']
      exact mem_append_right _ mem_cons_self
  | cons root rest ih =>
    have hnext : Ordered
        (fun other label => DependsOn tasks label other ∨ Awaits tasks (done ++ root :: rest) label other)
        (placed ++ branchOrder tasks order root) := by
      refine hpl.append fun front label back heq other hoth => ?_
      rcases hoth with hdep | hawaits
      · exact mem_append_right _ (ordered_branchOrder h front label back heq other hdep)
      · have hmem : label ∈ branchOrder tasks order root :=
          heq ▸ mem_append_right _ mem_cons_self
        exact mem_append_left _ (hdone other (hawaits.mem_earlier (mem_branchOrder.1 hmem).2))
    rw [append_cons] at hnext hroots ⊢
    refine ih hroots hnext fun other hoth => ?_
    rcases mem_append.1 hoth with hoth | hoth
    · exact mem_append_left _ (hdone other hoth)
    · obtain rfl := mem_singleton.1 hoth
      have hroot := hroots other (mem_append_left _ (mem_append_right _ hoth))
      exact mem_append_right _ (mem_branchOrder.2 ⟨hroot, .refl⟩)

end BranchOrder

/-- **With one sequence at most there is an order.** -/
theorem ValidatedTaskGraph.Runnable.consistent {graph : ValidatedTaskGraph} (hgraph : graph.Runnable)
    {task} (htask : task ∈ graph.tasks)
    (hone : OneSequence graph.tasks task.label) : Consistent graph.tasks task.label := by
  obtain ⟨order, hall, hord⟩ := hgraph.acyclic
  have hneeded : ∀ label, Needs graph.tasks task.label label → label ∈ order := fun label hneeds =>
    hord.mem_of_reflTransGen (hall task htask) hneeds
  by_cases hseq : ∃ sequence ∈ graph.tasks, Needs graph.tasks task.label sequence.label ∧
      sequence.dependencyOrder = .sequence
  · obtain ⟨sequence, hmem, hneeds, horder⟩ := hseq
    obtain ⟨placed, hpl⟩ : ∃ placed, Ordered
        (fun other label => DependsOn graph.tasks label other ∨
          Awaits graph.tasks ([] ++ sequence.dependsOn) label other) (placed ++ order) :=
      exists_ordered_branches hord
        (fun root hroot => hord.mem_of_before (hneeded _ hneeds) ⟨sequence, hmem, rfl, hroot⟩) .nil nofun
    refine ⟨placed ++ order, fun label hlab => mem_append_right _ (hneeded label hlab),
      hpl.mono fun other label hreq => ?_⟩
    rcases hreq with hdep | ⟨sequence', hmem', hneeds', horder', hawaits⟩
    · exact .inl hdep
    · obtain rfl := hone sequence hmem sequence' hmem' hneeds horder hneeds' horder'
      exact .inr hawaits
  · refine ⟨order, hneeded, hord.mono fun other label hreq => ?_⟩
    rcases hreq with hdep | ⟨sequence, hmem, hneeds, horder, -⟩
    · exact hdep
    · exact absurd ⟨sequence, hmem, hneeds, horder⟩ hseq

/-- **The steps of a plan are completed, each once and behind what it requires, if there is an order
that respects all of that, and the run stops with an error if there is none.** -/
theorem chainLabels_retained (tasks : List IndexedTask) (diagnostics : List VscodeTaskDiagnostic)
    (hunique : (tasks.map fun task => task.2.label).Nodup) :
    ∀ task ∈ (retainExecutableTasks tasks diagnostics).1.tasks, ∃ plan,
      (retainExecutableTasks tasks diagnostics).1.executionPlan task.label = some plan ∧
        plan.Serves (retainExecutableTasks tasks diagnostics).1.tasks task.label ∧
        (OneSequence (retainExecutableTasks tasks diagnostics).1.tasks task.label →
          Consistent (retainExecutableTasks tasks diagnostics).1.tasks task.label) ∧
        (Consistent (retainExecutableTasks tasks diagnostics).1.tasks task.label → ∃ labels,
          plan.chainLabels = .ok labels ∧
            ValidatedTaskExecutionPlan.Carried (retainExecutableTasks tasks diagnostics).1.tasks task.label labels) ∧
        (¬ Consistent (retainExecutableTasks tasks diagnostics).1.tasks task.label →
          plan.chainLabels = .error "Unable to resolve the process task graph safely.") := by
  intro task htask
  have hgraph := runnable_retainExecutableTasks diagnostics hunique
  obtain ⟨plan, hplan, hserve⟩ := hgraph.executionPlan_serves htask
  refine ⟨plan, hplan, hserve, hgraph.consistent htask, ?_⟩
  have hstart : plan.steps.length ≤ (∅ : Finset ℕ).card + plan.steps.length := Nat.le_add_left _ _
  rcases ValidatedTaskExecutionPlan.completed_none.run hserve hstart with
    ⟨labels, heq, hcarry⟩ | ⟨heq, hinconsistent⟩
  · exact ⟨fun _ => ⟨labels, heq, hcarry⟩, fun hnot => absurd hcarry.consistent hnot⟩
  · exact ⟨fun hcons => absurd hcons hinconsistent, fun _ => heq⟩

/-- Two sequences go through the same branches in different orders. -/
def crossedSequences : List IndexedTask :=
  [(0, ⟨"lint", [], .parallel⟩), (1, ⟨"test", [], .parallel⟩), (2, ⟨"check", ["lint", "test"], .sequence⟩),
    (3, ⟨"verify", ["test", "lint"], .sequence⟩), (4, ⟨"release", ["check", "verify"], .parallel⟩)]

theorem chainLabels_retained_sample : ∃ plan,
    (retainExecutableTasks crossedSequences []).1.executionPlan "check" = some plan ∧
      plan.Serves (retainExecutableTasks crossedSequences []).1.tasks "check" := by
  obtain ⟨plan, hplan, hserve, -⟩ := chainLabels_retained crossedSequences [] (by decide)
    ⟨"check", ["lint", "test"], .sequence⟩ (by decide +kernel)
  exact ⟨plan, hplan, hserve⟩

/-- **A plan can get stuck.** -/
theorem crossedSequences_stuck : (crossedSequences.map fun task => task.2.label).Nodup ∧
    (retainExecutableTasks crossedSequences []).1.tasks = crossedSequences.map Prod.snd ∧
    ((retainExecutableTasks crossedSequences []).1.executionPlan "release").map
        ValidatedTaskExecutionPlan.chainLabels
      = some (.error "Unable to resolve the process task graph safely.") := by
  decide +kernel

end CodevoEditor.VscodeTasks
