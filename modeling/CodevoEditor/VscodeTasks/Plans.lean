/-
# What a plan has

In a graph that can run, a task has a plan: the tasks that it needs, each behind those it depends
on.
-/

import CodevoEditor.VscodeTasks.Walks

namespace CodevoEditor.VscodeTasks

open Runs Relation List

/-- Of the branches with these roots `label` is in a later one, in none of the earlier ones, and `root`
is the root of the branch before. -/
def Awaits (tasks : List ValidatedProcessTask) (roots : List String) (label root : String) : Prop :=
  ∃ front later back, roots = front ++ root :: later :: back ∧ Needs tasks later label ∧
    ∀ earlier ∈ front ++ [root], ¬ Needs tasks earlier label

/-- A sequence that `target` needs has `label` in a branch that waits for `root`. -/
def WaitsFor (tasks : List ValidatedProcessTask) (target label root : String) : Prop :=
  ∃ task ∈ tasks, Needs tasks target task.label ∧ task.dependencyOrder = .sequence ∧
    Awaits tasks task.dependsOn label root

/-- What has to be completed before a task, in a plan for `target`. -/
def Requires (tasks : List ValidatedProcessTask) (target label other : String) : Prop :=
  DependsOn tasks label other ∨ WaitsFor tasks target label other

namespace ValidatedTaskExecutionPlan

def labels (plan : ValidatedTaskExecutionPlan) : List String := plan.steps.map ValidatedTaskExecutionStep.label

/-- A plan for `target`: the tasks that it needs, and what each of them waits for. -/
structure Serves (plan : ValidatedTaskExecutionPlan) (tasks : List ValidatedProcessTask) (target : String) :
    Prop where
  nodup : plan.labels.Nodup
  mem_labels : ∀ label, label ∈ plan.labels ↔ Needs tasks target label
  ordered : Ordered (fun dependency label => DependsOn tasks label dependency) plan.labels
  prerequisites : ∀ step ∈ plan.steps, ∀ index : ℕ, index ∈ step.prerequisites ↔
    ∃ other, plan.labels[index]? = some other ∧ Requires tasks target step.label other

end ValidatedTaskExecutionPlan

namespace ValidatedTaskGraph

variable {graph : ValidatedTaskGraph}

/-- The sets of prerequisites, in the order of the plan, are those of a relation between labels. -/
structure Marks (graph : ValidatedTaskGraph) (positions : List ℕ) (requires : String → String → Prop)
    (prerequisites : List (Finset ℕ)) : Prop where
  length : prerequisites.length = positions.length
  mem_iff : ∀ (index : ℕ) required, prerequisites[index]? = some required →
    ∀ position, positions[index]? = some position → ∀ index' : ℕ, index' ∈ required ↔
      ∃ position', positions[index']? = some position' ∧ requires (graph.labelAt position) (graph.labelAt position')

variable {target : ℕ} {positions : List ℕ} {requires requires' : String → String → Prop}
  {prerequisites : List (Finset ℕ)}

lemma Marks.congr (h : graph.Marks positions requires prerequisites)
    (hiff : ∀ position ∈ positions, ∀ position' ∈ positions,
      (requires (graph.labelAt position) (graph.labelAt position') ↔
        requires' (graph.labelAt position) (graph.labelAt position'))) :
    graph.Marks positions requires' prerequisites := by
  refine ⟨h.length, fun index required hreq position hpos index' => ?_⟩
  rw [h.mem_iff index required hreq position hpos]
  exact exists_congr fun position' => and_congr_right fun hpos' =>
    hiff position (mem_of_getElem? hpos) position' (mem_of_getElem? hpos')

lemma marks_none : graph.Marks positions (fun _ _ => False) (List.replicate positions.length ∅) := by
  refine ⟨length_replicate, fun index required hreq position hpos index' => ?_⟩
  rw [eq_of_mem_replicate (mem_of_getElem? hreq)]
  constructor
  · intro hmem
    exact absurd hmem (Finset.notMem_empty _)
  · rintro ⟨-, -, ⟨⟩⟩

variable {position index : ℕ}

lemma Marks.insertPrerequisite (h : graph.Marks positions requires prerequisites)
    (hgraph : graph.Runnable) (hplan : graph.Planned target positions) {index' position'}
    (hidx : positions[index]? = some position) (hindex' : positions[index']? = some position') :
    ∃ prerequisites', ValidatedTaskGraph.insertPrerequisite prerequisites index index' = some prerequisites' ∧
      graph.Marks positions
        (fun label other => requires label other ∨
          (label = graph.labelAt position ∧ other = graph.labelAt position')) prerequisites' := by
  have hmem {other otherIndex} (hoth : positions[otherIndex]? = some other) : other < graph.tasks.length :=
    hplan.lt other (mem_of_getElem? hoth)
  have hsame {other otherIndex i p : ℕ} (hi : positions[i]? = some p) (hoth : positions[otherIndex]? = some other) :
      graph.labelAt other = graph.labelAt p ↔ otherIndex = i := by
    constructor
    · intro heq
      obtain rfl := hgraph.labelAt_inj (hmem hoth) (hmem hi) heq
      obtain ⟨hbd, -⟩ := List.getElem?_eq_some_iff.1 hoth
      exact (getElem?_inj hbd hplan.nodup).1 (hoth.trans hi.symm)
    · rintro rfl
      rw [Option.some.inj (hi.symm.trans hoth)]
  obtain ⟨hbd, -⟩ := List.getElem?_eq_some_iff.1 hidx
  refine ⟨_, if_pos (h.length ▸ hbd), by rw [length_modify, h.length], ?_⟩
  intro planIndex required hreq other hoth index''
  rw [getElem?_modify, Option.map_eq_map, Option.map_eq_some_iff] at hreq
  obtain ⟨before, hpre, rfl⟩ := hreq
  have hold := h.mem_iff planIndex before hpre other hoth index''
  by_cases hat : index = planIndex
  · rw [if_pos hat, Finset.mem_insert, hold]
    have hlab := (hsame hidx hoth).2 hat.symm
    constructor
    · rintro (rfl | ⟨other', hother', hreqd⟩)
      · exact ⟨position', hindex', .inr ⟨hlab, rfl⟩⟩
      · exact ⟨other', hother', .inl hreqd⟩
    · rintro ⟨other', hother', hreqd | ⟨-, heq⟩⟩
      · exact .inr ⟨other', hother', hreqd⟩
      · exact .inl ((hsame hindex' hother').1 heq)
  · rw [if_neg hat, hold]
    refine exists_congr fun other' => and_congr_right fun hother' => ?_
    rw [hsame hidx hoth]
    exact ⟨.inl, fun hor => hor.resolve_right fun heq => hat heq.1.symm⟩

lemma Marks.foldlM {σ : Type} {items : List σ} {step : List (Finset ℕ) → σ → Option (List (Finset ℕ))}
    {adds : σ → String → String → Prop}
    (hstep : ∀ item ∈ items, ∀ requires prerequisites, graph.Marks positions requires prerequisites →
      ∃ prerequisites', step prerequisites item = some prerequisites' ∧
        graph.Marks positions (fun label other => requires label other ∨ adds item label other) prerequisites')
    (h : graph.Marks positions requires prerequisites) :
    ∃ prerequisites', items.foldlM step prerequisites = some prerequisites' ∧
      graph.Marks positions
        (fun label other => requires label other ∨ ∃ item ∈ items, adds item label other) prerequisites' := by
  induction items generalizing requires prerequisites with
  | nil => exact ⟨prerequisites, rfl, h.congr fun position _ position' _ => by simp⟩
  | cons item items ih =>
    obtain ⟨hfst, hrest⟩ := forall_mem_cons.1 hstep
    obtain ⟨middle, heq, hmarks⟩ := hfst requires prerequisites h
    obtain ⟨prerequisites', heq', hmarks'⟩ := ih hrest hmarks
    refine ⟨prerequisites', ?_, hmarks'.congr fun position _ position' _ => ?_⟩
    · rw [foldlM_cons, heq]
      exact heq'
    · rw [exists_mem_cons_iff, or_assoc]

variable {task : ValidatedProcessTask}

lemma Marks.dependencies (h : graph.Marks positions requires prerequisites)
    (hgraph : graph.Runnable) (hplan : graph.Planned target positions) {planIndex : ℕ}
    (hidx : positions[planIndex]? = some position) (hget : graph.tasks[position]? = some task) :
    ∃ prerequisites', task.dependsOn.foldlM
        (fun prerequisites dependency => do
          let dependencyPosition ← graph.indexes dependency
          let dependencyIndex ← lastIndex positions dependencyPosition
          ValidatedTaskGraph.insertPrerequisite prerequisites planIndex dependencyIndex)
        prerequisites = some prerequisites' ∧
      graph.Marks positions
        (fun label other => requires label other ∨ ∃ dependency ∈ task.dependsOn,
          label = task.label ∧ other = dependency) prerequisites' := by
  refine Marks.foldlM (fun dependency hdep requires prerequisites hmarks => ?_) h
  obtain ⟨dependencyPosition, hlab⟩ := hgraph.exists_indexes (mem_of_getElem? hget) hdep
  obtain ⟨-, hlabelAt⟩ := hgraph.indexes_eq_some_iff.1 hlab
  have hmem : dependencyPosition ∈ positions :=
    hplan.ordered.mem_of_before (mem_of_getElem? hidx) ⟨task, hget, dependency, hdep, hlab⟩
  obtain ⟨dependencyIndex, hlast, hindex'⟩ := exists_planIndex hmem
  obtain ⟨prerequisites', heq, hmarks'⟩ := hmarks.insertPrerequisite hgraph hplan hidx hindex'
  refine ⟨prerequisites', ?_, ?_⟩
  · rw [hlab]
    show (lastIndex positions dependencyPosition).bind _ = _
    rw [hlast]
    exact heq
  · rwa [labelAt_eq hget, hlabelAt] at hmarks'

variable {barriers : Barriers}

lemma Marks.awaitPreviousRoot (h : graph.Marks positions requires barriers.prerequisites)
    (hgraph : graph.Runnable) (hplan : graph.Planned target positions) {previousRoot}
    (hprev : barriers.previousRoot = some previousRoot) (hroot : previousRoot ∈ positions)
    {branchMembers : Finset ℕ} (hmembers : ∀ position ∈ branchMembers, position ∈ positions) :
    ∃ prerequisites', graph.awaitPreviousRoot positions barriers branchMembers = some prerequisites' ∧
      graph.Marks positions
        (fun label other => requires label other ∨
          ∃ member ∈ branchMembers \ barriers.earlierBranchMembers,
            label = graph.labelAt member ∧ other = graph.labelAt previousRoot) prerequisites' := by
  obtain ⟨previousPlanIndex, hlast, hindex'⟩ := exists_planIndex hroot
  have hstep : ∀ member ∈ (List.range graph.tasks.length).filter
        (fun member => member ∈ branchMembers \ barriers.earlierBranchMembers),
      ∀ requires prerequisites, graph.Marks positions requires prerequisites →
        ∃ prerequisites', (do
            let memberPlanIndex ← lastIndex positions member
            ValidatedTaskGraph.insertPrerequisite prerequisites memberPlanIndex previousPlanIndex)
            = some prerequisites' ∧
          graph.Marks positions (fun label other => requires label other ∨
            (label = graph.labelAt member ∧ other = graph.labelAt previousRoot)) prerequisites' := by
    intro member hmember requires prerequisites hmarks
    have hmember := of_decide_eq_true (mem_filter.1 hmember).2
    obtain ⟨memberPlanIndex, hlast, hidx⟩ :=
      exists_planIndex (hmembers member (Finset.mem_sdiff.1 hmember).1)
    obtain ⟨prerequisites', heq, hmarks'⟩ := hmarks.insertPrerequisite hgraph hplan hidx hindex'
    refine ⟨prerequisites', ?_, hmarks'⟩
    rw [hlast]
    exact heq
  obtain ⟨prerequisites', heq, hmarks⟩ := Marks.foldlM hstep h
  refine ⟨prerequisites', ?_, hmarks.congr fun position _ position' _ => ?_⟩
  · rw [ValidatedTaskGraph.awaitPreviousRoot, hprev]
    show (lastIndex positions previousRoot).bind _ = _
    rw [hlast]
    exact heq
  · refine or_congr_right (exists_congr fun member => and_congr_left fun _ => ?_)
    rw [mem_filter, decide_eq_true_iff, mem_range]
    exact and_iff_right_of_imp fun hmember =>
      hplan.lt member (hmembers member (Finset.mem_sdiff.1 hmember).1)

variable {roots : List String} {later : String}

lemma awaits_append_singleton {tasks} {label root} :
    Awaits tasks (roots ++ [later]) label root ↔ Awaits tasks roots label root ∨
      (roots.getLast? = some root ∧ Needs tasks later label ∧ ∀ earlier ∈ roots, ¬ Needs tasks earlier label) := by
  constructor
  · rintro ⟨front, last, back, heq, hneeds, hearlier⟩
    rcases eq_nil_or_concat back with rfl | ⟨back, last', rfl⟩
    · obtain ⟨rfl, hlast⟩ := append_inj' (heq.trans (append_cons front root [last])) rfl
      obtain rfl := singleton_inj.1 hlast
      exact .inr ⟨getLast?_concat, hneeds, hearlier⟩
    · refine .inl ⟨front, last, back, ?_, hneeds, hearlier⟩
      rw [concat_eq_append, ← cons_append, ← cons_append, ← append_assoc] at heq
      exact (append_inj' heq rfl).1
  · rintro (⟨front, last, back, rfl, hneeds, hearlier⟩ | ⟨hlast, hneeds, hearlier⟩)
    · exact ⟨front, last, back ++ [later], by simp, hneeds, hearlier⟩
    · obtain ⟨front, rfl⟩ := getLast?_eq_some_iff.1 hlast
      exact ⟨front, later, [], by simp, hneeds, hearlier⟩

/-- The branches with the roots in `done` have been gone through. -/
structure Passed (graph : ValidatedTaskGraph) (positions : List ℕ) (requires : String → String → Prop)
    (done : List String) (barriers : Barriers) : Prop where
  members : ∀ position, position ∈ barriers.earlierBranchMembers ↔ position < graph.tasks.length ∧
    ∃ root ∈ done, Needs graph.tasks root (graph.labelAt position)
  root : barriers.previousRoot = done.getLast?.bind graph.indexes
  marks : graph.Marks positions
    (fun label other => requires label other ∨ Awaits graph.tasks done label other) barriers.prerequisites

/-- The roots of branches that the plan has. -/
def Branches (graph : ValidatedTaskGraph) (positions : List ℕ) (roots : List String) : Prop :=
  ∀ root ∈ roots, ∃ position ∈ positions, graph.indexes root = some position

variable {done : List String}

lemma Passed.appendSequenceBarrier (h : graph.Passed positions requires done barriers)
    (hgraph : graph.Runnable) (hplan : graph.Planned target positions)
    (hbranches : graph.Branches positions (done ++ [later])) :
    ∃ barriers', graph.appendSequenceBarrier positions barriers later = some barriers' ∧
      graph.Passed positions requires (done ++ [later]) barriers' := by
  obtain ⟨dependencyPosition, hmem, hidx⟩ := hbranches later (mem_append_right _ (mem_singleton.2 rfl))
  obtain ⟨hlt, rfl⟩ := hgraph.indexes_eq_some_iff.1 hidx
  obtain ⟨branchMembers, hcollect, hmembers⟩ := hgraph.exists_members hlt
  have hplannedMembers : ∀ position ∈ branchMembers, position ∈ positions := fun position hpos =>
    hplan.ordered.mem_of_reflTransGen hmem ((hgraph.reflTransGen_iff hlt).2 ((hmembers position).1 hpos))
  have hawait : ∃ prerequisites', graph.awaitPreviousRoot positions barriers branchMembers = some prerequisites' ∧
      graph.Marks positions (fun label other => requires label other ∨
        Awaits graph.tasks (done ++ [graph.labelAt dependencyPosition]) label other) prerequisites' := by
    cases hlast : done.getLast? with
    | none =>
      have hroot : barriers.previousRoot = none := by rw [h.root, hlast]; rfl
      refine ⟨barriers.prerequisites, by rw [ValidatedTaskGraph.awaitPreviousRoot, hroot], ?_⟩
      refine h.marks.congr fun position _ position' _ => ?_
      rw [awaits_append_singleton, hlast]
      simp
    | some previous =>
      obtain ⟨previousRoot, hrootMem, hrootIndex⟩ := hbranches previous (mem_append_left _ (mem_of_getLast? hlast))
      have hroot : barriers.previousRoot = some previousRoot := by rw [h.root, hlast]; exact hrootIndex
      obtain ⟨prerequisites', heq, hmarks⟩ := h.marks.awaitPreviousRoot hgraph hplan hroot hrootMem hplannedMembers
      refine ⟨prerequisites', heq, hmarks.congr fun position hpos position' hpos' => ?_⟩
      rw [awaits_append_singleton, hlast, or_assoc]
      refine or_congr_right (or_congr_right ?_)
      have hpositionLt := hplan.lt position hpos
      obtain ⟨-, hpreviousLabel⟩ := hgraph.indexes_eq_some_iff.1 hrootIndex
      have hearlier : position ∉ barriers.earlierBranchMembers ↔
          ∀ earlier ∈ done, ¬ Needs graph.tasks earlier (graph.labelAt position) := by
        rw [h.members position, and_iff_right hpositionLt]
        simp only [not_exists, not_and]
      constructor
      · rintro ⟨member, hmember, hlab, hoth⟩
        obtain ⟨hin, hout⟩ := Finset.mem_sdiff.1 hmember
        obtain rfl := hgraph.labelAt_inj hpositionLt ((hmembers member).1 hin).1 hlab
        exact ⟨by rw [hoth, hpreviousLabel], ((hmembers position).1 hin).2, hearlier.1 hout⟩
      · rintro ⟨hoth, hneeds, hout⟩
        refine ⟨position, Finset.mem_sdiff.2 ⟨(hmembers position).2 ⟨hpositionLt, hneeds⟩, hearlier.2 hout⟩, rfl, ?_⟩
        rw [hpreviousLabel]
        exact (Option.some.inj hoth).symm
  obtain ⟨prerequisites', heq, hmarks⟩ := hawait
  refine ⟨⟨barriers.earlierBranchMembers ∪ branchMembers, some dependencyPosition, prerequisites'⟩, ?_,
    fun position => ?_, ?_, hmarks⟩
  · rw [ValidatedTaskGraph.appendSequenceBarrier, hidx]
    show (graph.collectPositions _ dependencyPosition ∅).bind _ = _
    rw [hcollect]
    show (graph.awaitPreviousRoot positions barriers branchMembers).bind _ = _
    rw [heq]
    rfl
  · show position ∈ barriers.earlierBranchMembers ∪ branchMembers ↔ _
    rw [Finset.mem_union, h.members, hmembers, ← and_or_left]
    refine and_congr_right fun _ => ?_
    simp only [mem_append, mem_singleton, or_and_right, exists_or, exists_eq_left]
  · show some dependencyPosition = _
    rw [getLast?_concat]
    exact hidx.symm

lemma Passed.foldlM (h : graph.Passed positions requires done barriers) (hgraph : graph.Runnable)
    (hplan : graph.Planned target positions)
    (hbranches : graph.Branches positions (done ++ roots)) :
    ∃ barriers', roots.foldlM (graph.appendSequenceBarrier positions) barriers = some barriers' ∧
      graph.Passed positions requires (done ++ roots) barriers' := by
  induction roots generalizing done barriers with
  | nil => exact ⟨barriers, rfl, by rwa [append_nil]⟩
  | cons root roots ih =>
    rw [append_cons] at hbranches ⊢
    obtain ⟨middle, heq, hpassed⟩ := h.appendSequenceBarrier hgraph hplan
      fun other hoth => hbranches other (mem_append_left _ hoth)
    obtain ⟨barriers', heq', hpassed'⟩ := ih hpassed hbranches
    refine ⟨barriers', ?_, hpassed'⟩
    rw [foldlM_cons, heq]
    exact heq'

/-- **A sequence marks what its later branches wait for.** -/
theorem Marks.appendSequenceBarriers (h : graph.Marks positions requires prerequisites)
    (hgraph : graph.Runnable) (hplan : graph.Planned target positions)
    (hbranches : graph.Branches positions task.dependsOn) :
    ∃ prerequisites', graph.appendSequenceBarriers task positions prerequisites = some prerequisites' ∧
      graph.Marks positions
        (fun label other => requires label other ∨ Awaits graph.tasks task.dependsOn label other)
        prerequisites' := by
  have hst : graph.Passed positions requires [] ⟨∅, none, prerequisites⟩ := by
    refine ⟨fun position => ?_, rfl, h.congr fun position _ position' _ => ?_⟩
    · simp
    · simp [Awaits]
  obtain ⟨barriers', heq, hpassed⟩ := hst.foldlM hgraph hplan hbranches
  refine ⟨barriers'.prerequisites, ?_, hpassed.marks⟩
  rw [ValidatedTaskGraph.appendSequenceBarriers, heq]
  rfl

/-- What a position of the plan adds to the prerequisites. -/
def Adds (graph : ValidatedTaskGraph) (position : ℕ) (label other : String) : Prop :=
  ∃ task, graph.tasks[position]? = some task ∧
    ((∃ dependency ∈ task.dependsOn, label = task.label ∧ other = dependency) ∨
      (task.dependencyOrder = .sequence ∧ Awaits graph.tasks task.dependsOn label other))

lemma Marks.appendPrerequisites (h : graph.Marks positions requires prerequisites)
    (hgraph : graph.Runnable) (hplan : graph.Planned target positions)
    (hmem : position ∈ positions) :
    ∃ prerequisites', graph.appendPrerequisites positions prerequisites position = some prerequisites' ∧
      graph.Marks positions (fun label other => requires label other ∨ graph.Adds position label other)
        prerequisites' := by
  obtain ⟨planIndex, hlast, hidx⟩ := exists_planIndex hmem
  have hlt := hplan.lt position hmem
  have hget := getElem?_eq_getElem hlt
  generalize graph.tasks[position] = task at hget
  have hadds label other : graph.Adds position label other ↔
      (∃ dependency ∈ task.dependsOn, label = task.label ∧ other = dependency) ∨
        (task.dependencyOrder = .sequence ∧ Awaits graph.tasks task.dependsOn label other) := by
    rw [Adds, hget]
    simp
  have hbranches : graph.Branches positions task.dependsOn := fun root hroot => by
    obtain ⟨dependency, hlab⟩ := hgraph.exists_indexes (mem_of_getElem? hget) hroot
    exact ⟨dependency, hplan.ordered.mem_of_before hmem ⟨task, hget, root, hroot, hlab⟩, hlab⟩
  obtain ⟨middle, heq, hmarks⟩ := h.dependencies hgraph hplan hidx hget
  have hbody : graph.appendPrerequisites positions prerequisites position
      = if task.dependencyOrder = .sequence then graph.appendSequenceBarriers task positions middle
        else some middle := by
    rw [ValidatedTaskGraph.appendPrerequisites, hlast]
    rw [hget]
    show Option.bind (task.dependsOn.foldlM (m := Option) _ _) _ = _
    rw [heq]
    rfl
  rw [hbody]
  by_cases hord : task.dependencyOrder = .sequence
  · rw [if_pos hord]
    obtain ⟨prerequisites', heq', hmarks'⟩ := hmarks.appendSequenceBarriers hgraph hplan hbranches
    refine ⟨prerequisites', heq', hmarks'.congr fun position _ position' _ => ?_⟩
    rw [hadds, and_iff_right hord, or_assoc]
  · rw [if_neg hord]
    refine ⟨middle, rfl, hmarks.congr fun position _ position' _ => ?_⟩
    rw [hadds, ← or_assoc]
    exact (or_iff_left fun hseq => hord hseq.1).symm

lemma Planned.exists_adds_iff (hplan : graph.Planned target positions)
    (hgraph : graph.Runnable) (htarg : target < graph.tasks.length) (hmem : position ∈ positions)
    (other : String) :
    (∃ position' ∈ positions, graph.Adds position' (graph.labelAt position) other) ↔
      Requires graph.tasks (graph.labelAt target) (graph.labelAt position) other := by
  constructor
  · rintro ⟨position', hmem', task, hget, ⟨_, hdep, heq, rfl⟩ | ⟨hord, hawaits⟩⟩
    · exact .inl ⟨task, mem_of_getElem? hget, heq.symm, hdep⟩
    · obtain ⟨-, hneeds⟩ := (hgraph.reflTransGen_iff htarg).1 ((hplan.mem_iff position').1 hmem')
      rw [labelAt_eq hget] at hneeds
      exact .inr ⟨task, mem_of_getElem? hget, hneeds, hord, hawaits⟩
  · rintro (⟨task, htask, heq, hdep⟩ | ⟨task, htask, hneeds, hord, hawaits⟩)
    · obtain ⟨position', hget⟩ := mem_iff_getElem?.1 htask
      obtain ⟨hlt, -⟩ := List.getElem?_eq_some_iff.1 hget
      obtain rfl := hgraph.labelAt_inj (hplan.lt position hmem) hlt (heq.symm.trans (labelAt_eq hget).symm)
      exact ⟨position, hmem, task, hget, .inl ⟨other, hdep, labelAt_eq hget, rfl⟩⟩
    · obtain ⟨position', hget⟩ := mem_iff_getElem?.1 htask
      obtain ⟨hlt, -⟩ := List.getElem?_eq_some_iff.1 hget
      rw [← labelAt_eq hget] at hneeds
      have hrch := (hgraph.reflTransGen_iff htarg).2 ⟨hlt, hneeds⟩
      exact ⟨position', (hplan.mem_iff position').2 hrch, task, hget, .inr ⟨hord, hawaits⟩⟩

lemma mapM_eq_some_map {α β : Type} {f : α → Option β} {g : α → β} {items : List α}
    (h : ∀ item ∈ items, f item = some (g item)) : items.mapM f = some (items.map g) := by
  induction items with
  | nil => rfl
  | cons item items ih =>
    obtain ⟨hfst, hrest⟩ := forall_mem_cons.1 h
    rw [mapM_cons, hfst, ih hrest]
    rfl

/-- The step at an index of the plan. -/
def plannedStep (graph : ValidatedTaskGraph) (positions : List ℕ) (prerequisites : List (Finset ℕ)) (index : ℕ) :
    ValidatedTaskExecutionStep where
  label := graph.labelAt (positions.getD index 0)
  prerequisites := (List.range positions.length).filter (· ∈ prerequisites.getD index ∅)

section

variable (h : graph.Marks positions requires prerequisites)
include h

lemma Marks.getElem?_eq_some (hmem : index ∈ List.range positions.length) :
    positions[index]? = some (positions.getD index 0) ∧
      prerequisites[index]? = some (prerequisites.getD index ∅) := by
  have hidx := mem_range.1 hmem
  rw [getD_eq_getElem?_getD, getD_eq_getElem?_getD, getElem?_eq_getElem hidx,
    getElem?_eq_getElem (h.length ▸ hidx)]
  exact ⟨rfl, rfl⟩

lemma Marks.mapM_executionStep (hplan : graph.Planned target positions) :
    (List.range positions.length).mapM (graph.executionStep positions prerequisites)
      = some ((List.range positions.length).map (graph.plannedStep positions prerequisites)) := by
  refine mapM_eq_some_map fun index hmem => ?_
  obtain ⟨hpos, hreq⟩ := h.getElem?_eq_some hmem
  have hget := getElem?_eq_getElem (hplan.lt _ (mem_of_getElem? hpos))
  rw [executionStep, hpos]
  show (graph.tasks[_]?).bind _ = _
  rw [hget]
  rw [hreq]
  show some _ = some (graph.plannedStep positions prerequisites index)
  rw [plannedStep, labelAt_eq hget]

lemma Marks.labels_plannedSteps :
    (ValidatedTaskExecutionPlan.mk
        ((List.range positions.length).map (graph.plannedStep positions prerequisites))).labels
      = positions.map graph.labelAt := by
  rw [ValidatedTaskExecutionPlan.labels]
  refine ext_getElem (by simp) fun index hidx hindex' => ?_
  have hmem : index ∈ List.range positions.length := mem_range.2 (by simpa using hidx)
  have hpos := (h.getElem?_eq_some hmem).1
  rw [getElem?_eq_getElem (mem_range.1 hmem)] at hpos
  simp only [getElem_map, getElem_range, plannedStep]
  rw [Option.some.inj hpos]

end

lemma Marks.serves (hgraph : graph.Runnable) (hlt : target < graph.tasks.length)
    (hplan : graph.Planned target positions)
    (h : graph.Marks positions (Requires graph.tasks (graph.labelAt target)) prerequisites) :
    (ValidatedTaskExecutionPlan.mk
        ((List.range positions.length).map (graph.plannedStep positions prerequisites))).Serves
      graph.tasks (graph.labelAt target) := by
  refine ⟨?_, fun label => ?_, ?_, ?_⟩
  · rw [h.labels_plannedSteps]
    exact hplan.nodup.map_on fun position hmem position' hmem' heq =>
      hgraph.labelAt_inj (hplan.lt position hmem) (hplan.lt position' hmem') heq
  · rw [h.labels_plannedSteps, mem_map]
    constructor
    · rintro ⟨position, hmem, rfl⟩
      exact ((hgraph.reflTransGen_iff hlt).1 ((hplan.mem_iff position).1 hmem)).2
    · intro hneeds
      obtain ⟨position, hpos, rfl⟩ := hgraph.exists_position hlt hneeds
      exact ⟨position, (hplan.mem_iff position).2 ((hgraph.reflTransGen_iff hlt).2 ⟨hpos, hneeds⟩), rfl⟩
  · rw [h.labels_plannedSteps]
    refine hplan.ordered.map fun position hmem label hdeps => ?_
    have hpos := hplan.lt position hmem
    obtain ⟨dependency, hdep, rfl⟩ := hgraph.exists_position hpos (.single hdeps)
    exact ⟨dependency, rfl, (hgraph.dependsAt_iff hpos).2 ⟨hdep, hdeps⟩⟩
  · rintro _ hstep index'
    obtain ⟨index, hmem, rfl⟩ := mem_map.1 hstep
    obtain ⟨hpos, hreq⟩ := h.getElem?_eq_some hmem
    show index' ∈ (List.range positions.length).filter _ ↔ _
    rw [mem_filter, mem_range, decide_eq_true_iff, h.labels_plannedSteps,
      h.mem_iff index _ hreq _ hpos index', getElem?_map]
    constructor
    · rintro ⟨-, position', hpos', hoth⟩
      rw [hpos']
      exact ⟨_, rfl, hoth⟩
    · rintro ⟨other, hoth, hrequire⟩
      obtain ⟨position', hpos', rfl⟩ := Option.map_eq_some_iff.1 hoth
      obtain ⟨hindex', -⟩ := List.getElem?_eq_some_iff.1 hpos'
      exact ⟨hindex', position', hpos', hrequire⟩

/-- **A retained task has a plan: what it needs, each step with what it requires.** -/
theorem Runnable.executionPlan_serves (hgraph : graph.Runnable) (htask : task ∈ graph.tasks) :
    ∃ plan, graph.executionPlan task.label = some plan ∧ plan.Serves graph.tasks task.label := by
  obtain ⟨target, hidx⟩ : ∃ target, graph.indexes task.label = some target :=
    exists_lastIndex (mem_map_of_mem htask)
  obtain ⟨hlt, hlab⟩ := hgraph.indexes_eq_some_iff.1 hidx
  obtain ⟨positions, hpositions, hplan⟩ := hgraph.exists_positions hlt
  have hbody : ∀ position ∈ positions, ∀ requires prerequisites, graph.Marks positions requires prerequisites →
      ∃ prerequisites', graph.appendPrerequisites positions prerequisites position = some prerequisites' ∧
        graph.Marks positions (fun label other => requires label other ∨ graph.Adds position label other)
          prerequisites' :=
    fun position hmem requires prerequisites hmarks => hmarks.appendPrerequisites hgraph hplan hmem
  obtain ⟨prerequisites, hprerequisites, hmarks⟩ := Marks.foldlM hbody marks_none
  have hreqd : graph.Marks positions (Requires graph.tasks (graph.labelAt target)) prerequisites :=
    hmarks.congr fun position hmem position' _ => by
      rw [false_or, hplan.exists_adds_iff hgraph hlt hmem]
  refine ⟨_, ?_, hlab ▸ hreqd.serves hgraph hlt hplan⟩
  rw [executionPlan, hidx]
  show (graph.appendPositionPostorder _ target (∅, [])).bind _ = _
  rw [hpositions]
  show Option.bind (positions.foldlM (m := Option) _ _) _ = _
  rw [hprerequisites]
  show Option.bind ((List.range positions.length).mapM (m := Option) _) _ = _
  rw [hreqd.mapM_executionStep hplan]
  rfl

end ValidatedTaskGraph

end CodevoEditor.VscodeTasks
