/-
# The order in which a task's dependencies run

`src/domain/vscodeProcessTaskDependencyPlan.ts`: the labels of a task and of all that it depends
on, each behind those that it depends on.
-/

import CodevoEditor.Js.OrderedMap
import CodevoEditor.Js.Text
import CodevoEditor.Runs.Orders

namespace CodevoEditor.Domain

open Js Runs List Relation

structure VscodeProcessTaskDisplay where
  label : JsString
  executable : Bool
  dependsOn : List JsString

/-- `byLabel`; there is none where two tasks have one label. -/
def tasksByLabel (tasks : List VscodeProcessTaskDisplay) : Option (OrderedMap JsString VscodeProcessTaskDisplay) :=
  tasks.foldlM
    (fun byLabel task => if byLabel.has task.label then none else some (byLabel.set task.label task))
    .empty

structure PlanSearch where
  visiting : Finset JsString
  visited : Finset JsString
  plan : List JsString

/-- `visit`, with as much fuel as there are tasks to go into. -/
def visitLabel (byLabel : OrderedMap JsString VscodeProcessTaskDisplay) :
    ℕ → JsString → PlanSearch → Option PlanSearch
  | 0, _, _ => none
  | fuel + 1, label, search =>
      if label ∈ search.visited then some search
      else if label ∈ search.visiting then none
      else match byLabel.get? label with
        | none => none
        | some task =>
          if task.executable = false ∨ task.dependsOn.toFinset.card ≠ task.dependsOn.length then none
          else
            (task.dependsOn.foldlM (fun search dependency => visitLabel byLabel fuel dependency search)
              { search with visiting := insert label search.visiting }).map fun search =>
              ⟨search.visiting.erase label, insert label search.visited, search.plan ++ [label]⟩

def vscodeProcessTaskDependencyPlan (tasks : List VscodeProcessTaskDisplay) (rootLabel : JsString) :
    Option (List JsString) :=
  (tasksByLabel tasks).bind fun byLabel =>
    (visitLabel byLabel (tasks.length + 1) rootLabel ⟨∅, ∅, []⟩).map PlanSearch.plan

section Plans

variable (tasks : List VscodeProcessTaskDisplay)

def DependsOn (label dependency : JsString) : Prop :=
  ∃ task ∈ tasks, task.label = label ∧ dependency ∈ task.dependsOn

/-- There is a task with the label that can be executed and names no dependency twice. -/
def IsRunnable (label : JsString) : Prop :=
  ∃ task ∈ tasks, task.label = label ∧ task.executable ∧ task.dependsOn.Nodup

/-- All that a label depends on can run, and none of it depends on itself. -/
def IsPlannable (root : JsString) : Prop :=
  ∀ label, ReflTransGen (DependsOn tasks) root label →
    IsRunnable tasks label ∧ ¬ TransGen (DependsOn tasks) label label

/-- What is planned so far is in order, and apart from the labels that are gone into. -/
structure PlanSearch.Ok (search : PlanSearch) : Prop where
  visited : ∀ label, label ∈ search.visited ↔ label ∈ search.plan
  nodup : search.plan.Nodup
  runnable : ∀ label ∈ search.plan, IsRunnable tasks label
  ordered : Ordered (fun dependency label => DependsOn tasks label dependency) search.plan
  apart : ∀ label ∈ search.visiting, label ∉ search.plan

/-- A search goes on to another and plans some labels that `labels` depend on, and these too. -/
structure PlanSearch.Leads (labels : List JsString) (search next : PlanSearch) : Prop where
  ok : next.Ok tasks
  visiting : next.visiting = search.visiting
  planned : ∃ added, next.plan = search.plan ++ added ∧
    ∀ label ∈ added, ∃ start ∈ labels, ReflTransGen (DependsOn tasks) start label
  all : ∀ label ∈ labels, label ∈ next.plan

end Plans

variable {tasks : List VscodeProcessTaskDisplay} {search next : PlanSearch} {label : JsString}
  {labels : List JsString} {fuel : ℕ}

lemma tasksByLabel_spec (hunique : (tasks.map VscodeProcessTaskDisplay.label).Nodup) :
    ∃ byLabel, tasksByLabel tasks = some byLabel ∧
      ∀ label task, byLabel.get? label = some task ↔ task ∈ tasks ∧ task.label = label := by
  induction tasks using reverseRecOn with
  | nil => exact ⟨.empty, rfl, by simp⟩
  | append_singleton tasks task ih =>
    rw [map_append, nodup_append] at hunique
    obtain ⟨hunique, -, hnew⟩ := hunique
    obtain ⟨byLabel, hbyLabel, hget⟩ := ih hunique
    have hoth : ∀ other ∈ tasks, other.label ≠ task.label := fun other hmem =>
      hnew _ (mem_map_of_mem hmem) _ (by simp)
    have hnone : byLabel.get? task.label = none := Option.eq_none_iff_forall_ne_some.2 fun other h =>
      hoth other ((hget _ _).1 h).1 ((hget _ _).1 h).2
    refine ⟨byLabel.set task.label task, ?_, fun label other => ?_⟩
    · unfold tasksByLabel at hbyLabel ⊢
      rw [foldlM_append, hbyLabel]
      simp [hnone]
    · rw [OrderedMap.get?_set]
      split_ifs with heq
      · simp only [Option.some.injEq, mem_append, mem_singleton, heq]
        have := hoth other
        grind
      · simp only [hget, mem_append, mem_singleton]
        grind

lemma PlanSearch.Ok.enter (h : search.Ok tasks) (hnew : label ∉ search.plan) :
    PlanSearch.Ok tasks { search with visiting := insert label search.visiting } :=
  ⟨h.visited, h.nodup, h.runnable, h.ordered, by
    simp only [Finset.mem_insert, forall_eq_or_imp]
    exact ⟨hnew, h.apart⟩⟩

section Search

variable {byLabel : OrderedMap JsString VscodeProcessTaskDisplay}
  (hget : ∀ label task, byLabel.get? label = some task ↔ task ∈ tasks ∧ task.label = label)

lemma foldlM_leads {visit : PlanSearch → JsString → Option PlanSearch} (h : search.Ok tasks)
    (hvisit : ∀ label ∈ labels, ∀ search next, search.Ok tasks → visit search label = some next →
      PlanSearch.Leads tasks [label] search next)
    (hnext : labels.foldlM visit search = some next) : PlanSearch.Leads tasks labels search next := by
  induction labels generalizing search with
  | nil =>
    obtain rfl : search = next := by simpa using hnext
    exact ⟨h, rfl, ⟨[], by simp⟩, nofun⟩
  | cons label labels ih =>
    obtain ⟨middle, hmid, hrest⟩ := Option.bind_eq_some_iff.1 hnext
    have hfst := hvisit label (by simp) search middle h hmid
    have hlat := ih hfst.ok (fun other hoth => hvisit other (by simp [hoth])) hrest
    obtain ⟨added, hadded, hreached⟩ := hfst.planned
    obtain ⟨added', hadded', hreached'⟩ := hlat.planned
    refine ⟨hlat.ok, hlat.visiting.trans hfst.visiting, ⟨added ++ added', ?_, ?_⟩, ?_⟩
    · rw [hadded', hadded, append_assoc]
    · grind
    · have := hfst.all label (by simp)
      have := hlat.all
      grind

lemma foldlM_fails {visit : PlanSearch → JsString → Option PlanSearch} (h : search.Ok tasks)
    (hvisit : ∀ label ∈ labels, ∀ search next, search.Ok tasks → visit search label = some next →
      PlanSearch.Leads tasks [label] search next)
    (hnone : labels.foldlM visit search = none) :
    ∃ label ∈ labels, ∃ middle, middle.Ok tasks ∧ middle.visiting = search.visiting ∧ visit middle label = none := by
  induction labels generalizing search with
  | nil => simp at hnone
  | cons label labels ih =>
    cases hmid : visit search label with
    | none => exact ⟨label, by simp, search, h, rfl, hmid⟩
    | some middle =>
      have hfst := hvisit label (by simp) search middle h hmid
      obtain ⟨other, hoth, last, hok, hvisiting, hlast⟩ := ih hfst.ok
        (fun other hoth => hvisit other (by simp [hoth])) (by simpa [hmid] using hnone)
      exact ⟨other, by simp [hoth], last, hok, hvisiting.trans hfst.visiting, hlast⟩

include hget in
/-- **A visit that does not give up plans the label**, as the last if it is new. -/
theorem visitLabel_leads (h : search.Ok tasks) (hvisit : visitLabel byLabel fuel label search = some next) :
    PlanSearch.Leads tasks [label] search next ∧ (label ∉ search.plan → next.plan.getLast? = some label) := by
  induction fuel generalizing label search next with
  | zero => simp [visitLabel] at hvisit
  | succ fuel ih =>
    rw [visitLabel] at hvisit
    split_ifs at hvisit with hvisited hvisiting
    · cases hvisit
      have hplanned := (h.visited label).1 hvisited
      exact ⟨⟨h, rfl, ⟨[], by simp⟩, by simpa⟩, fun hnew => absurd hplanned hnew⟩
    · split at hvisit
      · cases hvisit
      · rename_i task htask
        obtain ⟨hmem, rfl⟩ := (hget _ _).1 htask
        split_ifs at hvisit with hbad
        obtain ⟨left, hleft, rfl⟩ := Option.map_eq_some_iff.1 hvisit
        have hnew : task.label ∉ search.plan := mt (h.visited _).2 hvisited
        have hleads := foldlM_leads (h.enter hnew) (fun label _ search next hok hvisit => (ih hok hvisit).1) hleft
        obtain ⟨added, hadded, hreached⟩ := hleads.planned
        have hapart : task.label ∉ left.plan := hleads.ok.apart _ (by simp [hleads.visiting])
        have hdeps : ∀ dependency, DependsOn tasks task.label dependency → dependency ∈ task.dependsOn := by
          rintro dependency ⟨other, hoth, heq, hdep⟩
          have hsame := (hget _ _).2 ⟨hoth, heq⟩
          rw [htask] at hsame
          rwa [Option.some.inj hsame]
        have hvisiting' : left.visiting.erase task.label = search.visiting := by
          rw [hleads.visiting, Finset.erase_insert hvisiting]
        refine ⟨⟨⟨fun other => ?_, ?_, fun other hoth => ?_, ?_, fun other hoth => ?_⟩, hvisiting',
          ⟨added ++ [task.label], ?_, fun other hoth => ?_⟩, by simp⟩, fun _ => by simp⟩
        · simp only [Finset.mem_insert, mem_append, mem_singleton, hleads.ok.visited]
          exact or_comm
        · exact hleads.ok.nodup.append (nodup_singleton _) (by simpa using hapart)
        · rcases mem_append.1 hoth with hoth | hoth
          · exact hleads.ok.runnable other hoth
          · rw [mem_singleton.1 hoth]
            refine ⟨task, hmem, rfl, by simpa using (not_or.1 hbad).1, ?_⟩
            have hcard := not_not.1 (not_or.1 hbad).2
            exact dedup_eq_self.1 ((dedup_sublist _).eq_of_length hcard)
        · exact hleads.ok.ordered.append_singleton fun dependency hdep =>
            hleads.all dependency (hdeps dependency hdep)
        · have hne : other ≠ task.label := Finset.ne_of_mem_erase hoth
          simpa [hne] using hleads.ok.apart other (Finset.mem_of_mem_erase hoth)
        · simp [hadded]
        · refine ⟨task.label, by simp, ?_⟩
          rcases mem_append.1 hoth with hoth | hoth
          · obtain ⟨start, hst, hrch⟩ := hreached other hoth
            exact .head ⟨task, hmem, rfl, hst⟩ hrch
          · rw [mem_singleton.1 hoth]

include hget in
/-- **A visit gives up for a reason**: something that the label depends on cannot run, or depends on
itself. -/
theorem visitLabel_fails (h : search.Ok tasks)
    (hpath : ∀ start ∈ search.visiting, TransGen (DependsOn tasks) start label)
    (hfuel : ((tasks.map VscodeProcessTaskDisplay.label).toFinset \ search.visiting).card < fuel)
    (hvisit : visitLabel byLabel fuel label search = none) : ¬ IsPlannable tasks label := by
  induction fuel generalizing label search with
  | zero => omega
  | succ fuel ih =>
    rw [visitLabel] at hvisit
    split_ifs at hvisit with hvisited hvisiting
    · exact fun hplan => (hplan label .refl).2 (hpath label hvisiting)
    · split at hvisit
      · rename_i hnone
        rintro hplan
        obtain ⟨task, hmem, heq, -⟩ := (hplan label .refl).1
        rw [(hget label task).2 ⟨hmem, heq⟩] at hnone
        cases hnone
      · rename_i task htask
        obtain ⟨hmem, rfl⟩ := (hget _ _).1 htask
        split_ifs at hvisit with hbad
        · rintro hplan
          obtain ⟨other, hoth, heq, hexecutable, hnd⟩ := (hplan _ .refl).1
          have hsame := (hget _ _).2 ⟨hoth, heq⟩
          rw [htask] at hsame
          cases hsame
          simp [hexecutable, toFinset_card_of_nodup hnd] at hbad
        · obtain ⟨dependency, hdep, middle, hok, hvisiting', hfails⟩ := foldlM_fails
            (h.enter (mt (h.visited _).2 hvisited))
            (fun _ _ search next hok hvisit => (visitLabel_leads hget hok hvisit).1) (by simpa using hvisit)
          have hstep : DependsOn tasks task.label dependency := ⟨task, hmem, rfl, hdep⟩
          have hfewer : ((tasks.map VscodeProcessTaskDisplay.label).toFinset \ middle.visiting).card < fuel := by
            rw [hvisiting', Finset.sdiff_insert]
            have hlab : task.label ∈ (tasks.map VscodeProcessTaskDisplay.label).toFinset \ search.visiting := by
              simpa [hvisiting] using ⟨task, hmem, rfl⟩
            have := Finset.card_erase_lt_of_mem hlab
            omega
          intro hplan
          refine ih hok (fun start hst => ?_) hfewer hfails fun label hlab => hplan label (.head hstep hlab)
          rw [hvisiting', Finset.mem_insert] at hst
          rcases hst with rfl | hst
          · exact .single hstep
          · exact (hpath start hst).tail hstep

end Search

/-- **There is a plan just where all that a task depends on can run and none of it depends on itself**:
it lists that once each, behind what it depends on, and the task as the last. -/
theorem vscodeProcessTaskDependencyPlan_spec (tasks : List VscodeProcessTaskDisplay) (root : JsString)
    (hunique : (tasks.map VscodeProcessTaskDisplay.label).Nodup) :
    ((vscodeProcessTaskDependencyPlan tasks root).isSome ↔ IsPlannable tasks root) ∧
    ∀ plan, vscodeProcessTaskDependencyPlan tasks root = some plan →
      (∀ label, label ∈ plan ↔ ReflTransGen (DependsOn tasks) root label) ∧ plan.Nodup ∧
      Ordered (fun dependency label => DependsOn tasks label dependency) plan ∧
      plan.getLast? = some root := by
  obtain ⟨byLabel, hbyLabel, hget⟩ := tasksByLabel_spec hunique
  have hstart : PlanSearch.Ok tasks ⟨∅, ∅, []⟩ := ⟨by simp, by simp, by simp, .nil, by simp⟩
  unfold vscodeProcessTaskDependencyPlan
  rw [hbyLabel, Option.bind_some]
  cases hvisit : visitLabel byLabel (tasks.length + 1) root ⟨∅, ∅, []⟩ with
  | none =>
    have hfuel : ((tasks.map VscodeProcessTaskDisplay.label).toFinset \ ∅).card < tasks.length + 1 := by
      have := toFinset_card_le (tasks.map VscodeProcessTaskDisplay.label)
      simpa using Nat.lt_succ_of_le this
    simpa using visitLabel_fails hget hstart (by simp) hfuel hvisit
  | some next =>
    obtain ⟨hleads, hlast⟩ := visitLabel_leads hget hstart hvisit
    obtain ⟨added, hadded, hreached⟩ := hleads.planned
    have hroot : root ∈ next.plan := hleads.all root (by simp)
    have hplanned : ∀ label, ReflTransGen (DependsOn tasks) root label → label ∈ next.plan :=
      fun label hlabel => hleads.ok.ordered.mem_of_reflTransGen hroot hlabel
    refine ⟨?_, fun plan hplan => ?_⟩
    · simp only [Option.map_some, Option.isSome_some, true_iff]
      exact fun label hlabel => ⟨hleads.ok.runnable label (hplanned label hlabel),
        hleads.ok.ordered.not_transGen (hplanned label hlabel)⟩
    · obtain rfl : next.plan = plan := by simpa using hplan
      refine ⟨fun label => ⟨fun hlabel => ?_, hplanned label⟩, hleads.ok.nodup, hleads.ok.ordered, hlast (by simp)⟩
      rw [hadded, nil_append] at hlabel
      simpa using hreached label hlabel

theorem vscodeProcessTaskDependencyPlan_sample :
    let tasks : List VscodeProcessTaskDisplay := [⟨[0], true, [[1], [2]]⟩, ⟨[1], true, [[2]]⟩, ⟨[2], true, []⟩]
    vscodeProcessTaskDependencyPlan tasks [0] = some [[2], [1], [0]] ∧ IsPlannable tasks [0] :=
  ⟨by decide, (vscodeProcessTaskDependencyPlan_spec _ _ (by decide)).1.1 (by decide)⟩

end CodevoEditor.Domain
