/-
# The walk behind a plan

In a graph that can run, the walk from a task plans all that it needs, each once and behind what it
depends on.
-/

import CodevoEditor.VscodeTasks.Retained

namespace CodevoEditor.VscodeTasks

open Runs Relation List

/-- A task needs another one: it depends on it, maybe by way of others. -/
def Needs (tasks : List ValidatedProcessTask) : String → String → Prop := ReflTransGen (DependsOn tasks)

namespace ValidatedTaskGraph

variable {graph : ValidatedTaskGraph}

def labelAt (graph : ValidatedTaskGraph) (position : ℕ) : String :=
  (graph.tasks[position]?.map ValidatedProcessTask.label).getD ""

variable {position : ℕ}

lemma labelAt_eq {task} (h : graph.tasks[position]? = some task) : graph.labelAt position = task.label := by
  rw [labelAt, h]
  rfl

/-- One position depends on another. -/
def DependsAt (graph : ValidatedTaskGraph) (position dependency : ℕ) : Prop :=
  ∃ task, graph.tasks[position]? = some task ∧ ∃ label ∈ task.dependsOn, graph.indexes label = some dependency

namespace Runnable

variable (h : graph.Runnable)

variable {label : String}

include h in
lemma indexes_eq_some_iff :
    graph.indexes label = some position ↔ position < graph.tasks.length ∧ graph.labelAt position = label := by
  rw [indexes, lastIndex_eq_some_iff h.unique, getElem?_map, Option.map_eq_some_iff]
  constructor
  · rintro ⟨task, hget, rfl⟩
    obtain ⟨hlt, -⟩ := List.getElem?_eq_some_iff.1 hget
    exact ⟨hlt, labelAt_eq hget⟩
  · rintro ⟨hlt, hlab⟩
    have hget := getElem?_eq_getElem hlt
    exact ⟨_, hget, (labelAt_eq hget).symm.trans hlab⟩

include h in
lemma labelAt_inj {position'} (hlt : position < graph.tasks.length)
    (hlt' : position' < graph.tasks.length) (heq : graph.labelAt position = graph.labelAt position') :
    position = position' :=
  Option.some.inj ((h.indexes_eq_some_iff.2 ⟨hlt, heq⟩).symm.trans (h.indexes_eq_some_iff.2 ⟨hlt', rfl⟩))

include h in
lemma exists_indexes {task} (htask : task ∈ graph.tasks)
    (hlab : label ∈ task.dependsOn) : ∃ position, graph.indexes label = some position :=
  exists_lastIndex (h.closed task htask label hlab)

include h in
lemma dependsAt_iff {dependency} (hlt : position < graph.tasks.length) :
    graph.DependsAt position dependency ↔ dependency < graph.tasks.length ∧
      DependsOn graph.tasks (graph.labelAt position) (graph.labelAt dependency) := by
  constructor
  · rintro ⟨task, hget, label, hlab, hidx⟩
    obtain ⟨hlt', rfl⟩ := h.indexes_eq_some_iff.1 hidx
    exact ⟨hlt', task, mem_of_getElem? hget, (labelAt_eq hget).symm, hlab⟩
  · rintro ⟨hlt', task, htask, heq, hlab⟩
    obtain ⟨position', hget⟩ := mem_iff_getElem?.1 htask
    obtain ⟨hlt'', -⟩ := List.getElem?_eq_some_iff.1 hget
    rw [← labelAt_eq hget] at heq
    obtain rfl := h.labelAt_inj hlt'' hlt heq
    exact ⟨task, hget, _, hlab, h.indexes_eq_some_iff.2 ⟨hlt', rfl⟩⟩

include h in
lemma reflTransGen_iff {other} (hlt : position < graph.tasks.length) :
    ReflTransGen graph.DependsAt position other ↔
      other < graph.tasks.length ∧ Needs graph.tasks (graph.labelAt position) (graph.labelAt other) := by
  constructor
  · intro hrch
    induction hrch with
    | refl => exact ⟨hlt, .refl⟩
    | tail _ hstep ih =>
      obtain ⟨hlt', hdep⟩ := (h.dependsAt_iff ih.1).1 hstep
      exact ⟨hlt', ih.2.tail hdep⟩
  · rintro ⟨hlt', hneeds⟩
    generalize hlab : graph.labelAt other = label at hneeds
    induction hneeds generalizing other with
    | refl =>
      rw [h.labelAt_inj hlt' hlt hlab]
    | @tail middle label _ hstep ih =>
      obtain ⟨task, htask, heq, hmem⟩ := hstep
      obtain ⟨position', hget⟩ := mem_iff_getElem?.1 htask
      obtain ⟨hlt'', -⟩ := List.getElem?_eq_some_iff.1 hget
      have hmid : graph.labelAt position' = middle := (labelAt_eq hget).trans heq
      refine (ih hlt'' hmid).tail ((h.dependsAt_iff hlt'').2 ⟨hlt', ?_⟩)
      rw [hlab, hmid]
      exact ⟨task, htask, heq, hmem⟩

include h in
lemma exists_position (hlt : position < graph.tasks.length)
    (hneeds : Needs graph.tasks (graph.labelAt position) label) :
    ∃ other, other < graph.tasks.length ∧ graph.labelAt other = label := by
  cases hneeds with
  | refl => exact ⟨position, hlt, rfl⟩
  | tail _ hstep =>
    obtain ⟨task, htask, -, hlab⟩ := hstep
    obtain ⟨other, hidx⟩ := h.exists_indexes htask hlab
    exact ⟨other, h.indexes_eq_some_iff.1 hidx⟩

include h in
lemma exists_rank : ∃ rank : ℕ → ℕ, ∀ position dependency, graph.DependsAt position dependency →
    rank dependency < rank position := by
  obtain ⟨order, hall, hord⟩ := h.acyclic
  refine ⟨fun position => order.idxOf (graph.labelAt position), fun position dependency hdep => ?_⟩
  obtain ⟨task, hget, -⟩ := id hdep
  obtain ⟨hlt, -⟩ := List.getElem?_eq_some_iff.1 hget
  refine hord.idxOf_lt ?_ ((h.dependsAt_iff hlt).1 hdep).2
  rw [labelAt_eq hget]
  exact hall task (mem_of_getElem? hget)

end Runnable

/-- The walk as far as it got: `entered` are the tasks it has entered and not left. -/
structure Explored (graph : ValidatedTaskGraph) (entered : Finset ℕ) (walked : Finset ℕ × List ℕ) : Prop where
  visited : walked.1 = entered ∪ walked.2.toFinset
  disjoint : ∀ position ∈ walked.2, position ∉ entered
  nodup : walked.2.Nodup
  ordered : Ordered (fun dependency position => graph.DependsAt position dependency) walked.2
  lt : ∀ position ∈ walked.1, position < graph.tasks.length

/-- A part of the walk that starts at `start`. -/
structure Walks (graph : ValidatedTaskGraph) (entered : Finset ℕ) (start : ℕ)
    (walked walked' : Finset ℕ × List ℕ) : Prop where
  explored : graph.Explored entered walked'
  added : ∃ added, walked'.2 = walked.2 ++ added ∧ ∀ position ∈ added, ReflTransGen graph.DependsAt start position

variable {walked : Finset ℕ × List ℕ} {entered : Finset ℕ} {start : ℕ}

lemma Walks.refl (h : graph.Explored entered walked) : graph.Walks entered start walked walked :=
  ⟨h, [], (append_nil _).symm, nofun⟩

variable {walked' : Finset ℕ × List ℕ}

lemma Walks.trans {start'} {walked''}
    (hst : ReflTransGen graph.DependsAt start start')
    (h : graph.Walks entered start' walked walked')
    (h' : graph.Walks entered start walked' walked'') :
    graph.Walks entered start walked walked'' := by
  obtain ⟨added, heq, hrch⟩ := h.added
  obtain ⟨added', heq', hreach'⟩ := h'.added
  refine ⟨h'.explored, added ++ added', by rw [heq', heq, append_assoc], fun position hmem => ?_⟩
  rcases mem_append.1 hmem with hmem | hmem
  · exact hst.trans (hrch position hmem)
  · exact hreach' position hmem

lemma Walks.subset (hexpl : graph.Explored entered walked)
    (h : graph.Walks entered start walked walked') :
    walked.1 ⊆ walked'.1 ∧ walked.2 ⊆ walked'.2 := by
  obtain ⟨added, heq, -⟩ := h.added
  have hsubset : walked.2 ⊆ walked'.2 := by
    rw [heq]
    exact subset_append_left _ _
  refine ⟨?_, hsubset⟩
  rw [hexpl.visited, h.explored.visited]
  exact Finset.union_subset_union_right fun position hmem =>
    mem_toFinset.2 (hsubset (mem_toFinset.1 hmem))

lemma walk_labels {fuel} (position : ℕ) (rank : ℕ → ℕ) (labels : List String)
    (hlabels : ∀ label ∈ labels, ∃ dependency, graph.indexes label = some dependency ∧
      graph.DependsAt position dependency ∧ dependency < graph.tasks.length ∧
      ∀ other ∈ entered, rank dependency < rank other)
    (hwalk : ∀ start walked, start < graph.tasks.length → graph.Explored entered walked →
      (∀ other ∈ entered, rank start < rank other) → graph.tasks.length < fuel + walked.1.card →
      ∃ walked', graph.appendPositionPostorder fuel start walked = some walked' ∧
      graph.Walks entered start walked walked' ∧ start ∈ walked'.2)
    (h : graph.Explored entered walked) (hfuel : graph.tasks.length < fuel + walked.1.card) :
    ∃ walked', labels.foldlM (fun walked label => do
        let position ← graph.indexes label
        graph.appendPositionPostorder fuel position walked) walked = some walked' ∧
      graph.Walks entered position walked walked' ∧
      ∀ label ∈ labels, ∀ dependency, graph.indexes label = some dependency → dependency ∈ walked'.2 := by
  induction labels generalizing walked with
  | nil => exact ⟨walked, rfl, .refl h, nofun⟩
  | cons label labels ih =>
    obtain ⟨⟨dependency, hidx, hdep, hlt, hrank⟩, hrest⟩ := forall_mem_cons.1 hlabels
    obtain ⟨walked', heq, hwalks, hmem⟩ := hwalk dependency walked hlt h hrank hfuel
    have hcard := Finset.card_le_card (hwalks.subset h).1
    obtain ⟨walked'', heq', hwalks', hmem'⟩ := ih hrest hwalks.explored (by omega)
    refine ⟨walked'', ?_, hwalks.trans (.single hdep) hwalks', fun other hoth index hindex' => ?_⟩
    · rw [foldlM_cons, hidx]
      show (graph.appendPositionPostorder fuel dependency walked).bind _ = _
      rw [heq]
      exact heq'
    · rcases mem_cons.1 hoth with rfl | hoth
      · rw [hidx] at hindex'
        cases hindex'
        exact (hwalks'.subset hwalks.explored).2 hmem
      · exact hmem' other hoth index hindex'

lemma Explored.enter (h : graph.Explored entered walked) (hlt : position < graph.tasks.length)
    (hnew : position ∉ walked.1) :
    graph.Explored (insert position entered) (insert position walked.1, walked.2) := by
  refine ⟨?_, fun other hmem => ?_, h.nodup, h.ordered, fun other hmem => ?_⟩
  · show insert position walked.1 = insert position entered ∪ walked.2.toFinset
    rw [h.visited, Finset.insert_union]
  · rw [Finset.mem_insert, not_or]
    refine ⟨?_, h.disjoint other hmem⟩
    rintro rfl
    exact hnew (h.visited ▸ Finset.mem_union_right _ (mem_toFinset.2 hmem))
  · rcases Finset.mem_insert.1 hmem with rfl | hmem
    · exact hlt
    · exact h.lt other hmem

lemma Walks.leave (hentered : position ∉ entered)
    (h : graph.Walks (insert position entered) position (insert position walked.1, walked.2) walked')
    (hdep : ∀ dependency, graph.DependsAt position dependency → dependency ∈ walked'.2) :
    graph.Walks entered position walked (walked'.1, walked'.2 ++ [position]) := by
  obtain ⟨⟨hvisited', hdisj, hnd, hord, hlt⟩, added, hadded, hrch⟩ := h
  refine ⟨⟨?_, fun other hmem => ?_, ?_, hord.append_singleton hdep, hlt⟩, added ++ [position], ?_,
    fun other hmem => ?_⟩
  · show walked'.1 = entered ∪ (walked'.2 ++ [position]).toFinset
    rw [hvisited', Finset.insert_union, toFinset_append]
    ext other
    simp only [Finset.mem_insert, Finset.mem_union, mem_toFinset, mem_singleton]
    tauto
  · rcases mem_append.1 hmem with hmem | hmem
    · exact fun hmem' => hdisj other hmem (Finset.mem_insert_of_mem hmem')
    · rwa [mem_singleton.1 hmem]
  · refine nodup_append.2 ⟨hnd, nodup_singleton _, fun other hmem last hlast => ?_⟩
    rintro rfl
    exact hdisj other hmem (mem_singleton.1 hlast ▸ Finset.mem_insert_self _ _)
  · show walked'.2 ++ [position] = walked.2 ++ (added ++ [position])
    rw [hadded, append_assoc]
  · rcases mem_append.1 hmem with hmem | hmem
    · exact hrch other hmem
    · rw [mem_singleton.1 hmem]

/-- **The walk plans a task behind what it depends on.** -/
theorem Runnable.walk (h : graph.Runnable) {rank : ℕ → ℕ}
    (hrank : ∀ position dependency, graph.DependsAt position dependency → rank dependency < rank position)
    {fuel} (hlt : start < graph.tasks.length) (hexpl : graph.Explored entered walked)
    (hst : ∀ other ∈ entered, rank start < rank other)
    (hfuel : graph.tasks.length < fuel + walked.1.card) :
    ∃ walked', graph.appendPositionPostorder fuel start walked = some walked' ∧
      graph.Walks entered start walked walked' ∧ start ∈ walked'.2 := by
  induction fuel generalizing start entered walked with
  | zero =>
    have hsubset : walked.1 ⊆ Finset.range graph.tasks.length := fun position hmem =>
      Finset.mem_range.2 (hexpl.lt position hmem)
    have := Finset.card_le_card hsubset
    rw [Finset.card_range] at this
    omega
  | succ fuel ih =>
    obtain ⟨visited, plan⟩ := walked
    rw [appendPositionPostorder]
    have hnot : start ∉ entered := fun hmem => absurd (hst start hmem) (Nat.lt_irrefl _)
    by_cases hvisited : start ∈ visited
    · rw [if_pos hvisited]
      refine ⟨_, rfl, .refl hexpl, ?_⟩
      have hmem : start ∈ entered ∪ plan.toFinset := hexpl.visited ▸ hvisited
      exact mem_toFinset.1 ((Finset.mem_union.1 hmem).resolve_left hnot)
    · rw [if_neg hvisited]
      have hget := getElem?_eq_getElem hlt
      have htask := mem_of_getElem? hget
      generalize graph.tasks[start] = task at hget htask
      have hcard : (insert start visited).card = visited.card + 1 := Finset.card_insert_of_notMem hvisited
      obtain ⟨walked', heq, hwalks, hmem⟩ := walk_labels start rank task.dependsOn
        (fun label hlab => by
          obtain ⟨dependency, hidx⟩ := h.exists_indexes htask hlab
          have hdep : graph.DependsAt start dependency := ⟨task, hget, label, hlab, hidx⟩
          refine ⟨dependency, hidx, hdep, (h.indexes_eq_some_iff.1 hidx).1, fun other hoth => ?_⟩
          have hlower := hrank start dependency hdep
          rcases Finset.mem_insert.1 hoth with rfl | hoth
          · exact hlower
          · exact hlower.trans (hst other hoth))
        (fun start walked hlt hexpl hst hfuel => ih hlt hexpl hst hfuel)
        (hexpl.enter hlt hvisited) (by dsimp only at hfuel ⊢; omega)
      have hdep : ∀ dependency, graph.DependsAt start dependency → dependency ∈ walked'.2 := by
        rintro dependency ⟨task', hget', label, hlab, hidx⟩
        obtain rfl := Option.some.inj (hget.symm.trans hget')
        exact hmem label hlab dependency hidx
      refine ⟨(walked'.1, walked'.2 ++ [start]), ?_, hwalks.leave hnot hdep,
        mem_append_right _ (mem_singleton.2 rfl)⟩
      rw [hget]
      show Option.bind (task.dependsOn.foldlM (m := Option) _ _) _ = _
      rw [heq]
      rfl

/-- The positions of a plan: all that the target leads to, each once, behind what they depend on. -/
structure Planned (graph : ValidatedTaskGraph) (target : ℕ) (positions : List ℕ) : Prop where
  nodup : positions.Nodup
  ordered : Ordered (fun dependency position => graph.DependsAt position dependency) positions
  mem_iff : ∀ position, position ∈ positions ↔ ReflTransGen graph.DependsAt target position
  lt : ∀ position ∈ positions, position < graph.tasks.length

lemma exists_planIndex {positions} (hmem : position ∈ positions) :
    ∃ index, lastIndex positions position = some index ∧ positions[index]? = some position := by
  obtain ⟨index, hidx⟩ := exists_lastIndex hmem
  exact ⟨index, hidx, getElem?_of_lastIndex hidx⟩

lemma Runnable.exists_positions (h : graph.Runnable) {target} (hlt : target < graph.tasks.length) :
    ∃ positions, graph.appendPositionPostorder (graph.tasks.length + 1) target (∅, [])
        = some (positions.toFinset, positions) ∧ graph.Planned target positions := by
  obtain ⟨rank, hrank⟩ := h.exists_rank
  obtain ⟨⟨visited, positions⟩, heq, ⟨⟨hvisited, -, hnd, hord, hin⟩, added, hadded, hrch⟩, hmem⟩ :=
    h.walk hrank hlt (show graph.Explored ∅ (∅, []) from ⟨rfl, nofun, nodup_nil, .nil, nofun⟩) nofun
      (show graph.tasks.length < graph.tasks.length + 1 + (∅ : Finset ℕ).card by
        omega)
  dsimp only at hvisited hnd hord hadded hmem hin
  subst hvisited hadded
  exact ⟨positions, heq, hnd, hord,
    fun position => ⟨hrch position, hord.mem_of_reflTransGen hmem⟩,
    fun position hpos => hin position (mem_toFinset.2 hpos)⟩

lemma collectPositions_eq (fuel position : ℕ) (walked) :
    graph.collectPositions fuel position walked.1
      = (graph.appendPositionPostorder fuel position walked).map Prod.fst := by
  induction fuel generalizing position walked with
  | zero => rfl
  | succ fuel ih =>
    obtain ⟨visited, plan⟩ := walked
    have hfold (labels : List String) (walked : Finset ℕ × List ℕ) :
        labels.foldlM (fun collected label => do
            let position ← graph.indexes label
            graph.collectPositions fuel position collected) walked.1
          = (labels.foldlM (fun walked label => do
              let position ← graph.indexes label
              graph.appendPositionPostorder fuel position walked) walked).map Prod.fst := by
      induction labels generalizing walked with
      | nil => rfl
      | cons label labels ihLabels =>
        rw [foldlM_cons, foldlM_cons]
        cases graph.indexes label with
        | none => rfl
        | some position =>
          show (graph.collectPositions fuel position walked.1).bind _
            = ((graph.appendPositionPostorder fuel position walked).bind _).map Prod.fst
          rw [ih]
          cases graph.appendPositionPostorder fuel position walked with
          | none => rfl
          | some walked' => exact ihLabels walked'
    rw [collectPositions, appendPositionPostorder]
    by_cases hvisited : position ∈ visited
    · rw [if_pos hvisited, if_pos hvisited]
      rfl
    · rw [if_neg hvisited, if_neg hvisited]
      cases graph.tasks[position]? with
      | none => rfl
      | some task =>
        show task.dependsOn.foldlM _ _ = Option.map _ (Option.bind (task.dependsOn.foldlM (m := Option) _ _) _)
        rw [hfold task.dependsOn (insert position visited, plan)]
        generalize task.dependsOn.foldlM (m := Option) _ (insert position visited, plan) = walked'
        cases walked' with
        | none => rfl
        | some walked' => rfl

lemma Runnable.exists_members (h : graph.Runnable) {root} (hlt : root < graph.tasks.length) :
    ∃ members, graph.collectPositions (graph.tasks.length + 1) root ∅ = some members ∧
      ∀ position, position ∈ members ↔ position < graph.tasks.length ∧
        Needs graph.tasks (graph.labelAt root) (graph.labelAt position) := by
  obtain ⟨positions, heq, hplan⟩ := h.exists_positions hlt
  refine ⟨positions.toFinset, ?_, fun position => ?_⟩
  · rw [show (∅ : Finset ℕ) = ((∅, []) : Finset ℕ × List ℕ).1 from rfl, collectPositions_eq, heq]
    rfl
  · rw [mem_toFinset, hplan.mem_iff, h.reflTransGen_iff hlt]

end ValidatedTaskGraph

end CodevoEditor.VscodeTasks
