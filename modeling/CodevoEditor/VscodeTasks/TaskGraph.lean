/-
# Tasks that depend on each other

`src-tauri/src/vscode_task_dependencies.rs`, and the loop over ready steps of
`process_task_runtime.rs`. Tasks that cannot run, because of what they depend on, are left out
of the graph (`retainExecutableTasks`).

Recursions have as much fuel as there are tasks.
-/

import Mathlib.Data.Finset.Card

namespace CodevoEditor.VscodeTasks

inductive TaskDependencyOrder
  | sequence
  | parallel
  deriving DecidableEq

structure ValidatedProcessTask where
  label : String
  dependsOn : List String
  dependencyOrder : TaskDependencyOrder
  deriving DecidableEq

/-- A task, and its index in the file. -/
abbrev IndexedTask := ℕ × ValidatedProcessTask

inductive VscodeTaskDiagnosticCode
  | dependencyGraph
  | duplicateLabel
  | invalidTask
  | unsupportedTask

structure VscodeTaskDiagnostic where
  taskIndex : ℕ
  label : Option String
  code : VscodeTaskDiagnosticCode
  message : String

/-- The index under a key of a map that was collected from a list: that of the last entry. -/
def lastIndex {κ : Type} [DecidableEq κ] : List κ → κ → Option ℕ
  | [], _ => none
  | entry :: entries, key =>
      match lastIndex entries key with
      | some index => some (index + 1)
      | none => if entry = key then some 0 else none

section Retain

variable (tasks : List IndexedTask)

def labelIndexes (label : String) : Option ℕ := lastIndex (tasks.map fun task => task.2.label) label

def graphDiagnostic (taskIndex : ℕ) (label message : String) : VscodeTaskDiagnostic where
  taskIndex := taskIndex
  label := some label
  code := .dependencyGraph
  message := message

/-- What is wrong with the first label that cannot be depended on. -/
def directGraphError (label : String) : List String → List String → Option String
  | _, [] => none
  | seen, dependency :: rest =>
      if dependency = label then some "a task cannot depend on itself"
      else if dependency ∈ seen then some "dependsOn contains a duplicate label"
      else if labelIndexes tasks dependency = none then
        some "dependsOn references a missing or non-executable task"
      else directGraphError label (dependency :: seen) rest

/-- The loop over the tasks, from a position on. -/
def directGraphErrorsFrom : ℕ → List IndexedTask → Finset ℕ × List VscodeTaskDiagnostic →
    Finset ℕ × List VscodeTaskDiagnostic
  | _, [], found => found
  | position, (taskIndex, task) :: rest, found =>
      match directGraphError tasks task.label [] task.dependsOn with
      | some reason =>
          directGraphErrorsFrom (position + 1) rest
            (insert position found.1, found.2 ++ [graphDiagnostic taskIndex task.label reason])
      | none => directGraphErrorsFrom (position + 1) rest found

def directGraphErrors (diagnostics : List VscodeTaskDiagnostic) : Finset ℕ × List VscodeTaskDiagnostic :=
  directGraphErrorsFrom tasks 0 tasks (∅, diagnostics)

inductive VisitState
  | unvisited
  | visiting
  | visited
  deriving DecidableEq

structure Visits where
  state : ℕ → VisitState
  stack : List ℕ
  cycleMembers : Finset ℕ

/-- The labels a position depends on. -/
def dependsOnAt (position : ℕ) : List String := (tasks[position]?.map fun task => task.2.dependsOn).getD []

def visit (invalid : Finset ℕ) : ℕ → ℕ → Visits → Visits
  | 0, _, visits => visits
  | fuel + 1, position, visits =>
      if position ∈ invalid ∨ visits.state position = .visited then visits
      else if visits.state position = .visiting then
        match visits.stack.idxOf? position with
        | some cycleStart =>
            { visits with cycleMembers := visits.cycleMembers ∪ (visits.stack.drop cycleStart).toFinset }
        | none => visits
      else
        let entered : Visits :=
          { visits with
            state := Function.update visits.state position .visiting
            stack := visits.stack ++ [position] }
        let left := ((dependsOnAt tasks position).filterMap (labelIndexes tasks)).foldl
          (fun visits dependencyPosition => visit invalid fuel dependencyPosition visits) entered
        { left with
          state := Function.update left.state position .visited
          stack := left.stack.dropLast }

def visitAll (invalid : Finset ℕ) : Visits :=
  (List.range tasks.length).foldl (fun visits position => visit tasks invalid (tasks.length + 1) position visits)
    ⟨fun _ => .unvisited, [], ∅⟩

/-- What is found at a position goes into the set, with its diagnostic. -/
def invalidate (message : String) (found : Finset ℕ × List VscodeTaskDiagnostic) (position : ℕ) :
    Finset ℕ × List VscodeTaskDiagnostic :=
  match tasks[position]? with
  | some (taskIndex, task) =>
      (insert position found.1, found.2 ++ [graphDiagnostic taskIndex task.label message])
  | none => found

def markCycles (found : Finset ℕ × List VscodeTaskDiagnostic) : Finset ℕ × List VscodeTaskDiagnostic :=
  let cycleMembers := (visitAll tasks found.1).cycleMembers
  ((List.range tasks.length).filter (· ∈ cycleMembers)).foldl
    (fun found position =>
      if position ∈ found.1 then found
      else invalidate tasks "task dependency graph contains a cycle" found position)
    found

/-- The tasks that depend on one that is not executable, and are not known to be so themselves. -/
def newlyInvalid (invalid : Finset ℕ) : List ℕ :=
  (List.range tasks.length).filter fun position =>
    position ∉ invalid && (dependsOnAt tasks position).any fun dependency =>
      (labelIndexes tasks dependency).any fun dependency => dependency ∈ invalid

def propagateInvalidDependencies : ℕ → Finset ℕ × List VscodeTaskDiagnostic →
    Finset ℕ × List VscodeTaskDiagnostic
  | 0, found => found
  | fuel + 1, found =>
      if newlyInvalid tasks found.1 = [] then found
      else
        propagateInvalidDependencies fuel
          ((newlyInvalid tasks found.1).foldl
            (invalidate tasks "dependsOn references a non-executable dependency graph") found)

def invalidTasks (diagnostics : List VscodeTaskDiagnostic) : Finset ℕ × List VscodeTaskDiagnostic :=
  propagateInvalidDependencies tasks (tasks.length + 1) (markCycles tasks (directGraphErrors tasks diagnostics))

end Retain

structure ValidatedTaskGraph where
  tasks : List ValidatedProcessTask

def retainExecutableTasks (tasks : List IndexedTask) (diagnostics : List VscodeTaskDiagnostic) :
    ValidatedTaskGraph × List VscodeTaskDiagnostic :=
  let invalid := invalidTasks tasks diagnostics
  (⟨(tasks.zipIdx.filter fun task => task.2 ∉ invalid.1).map fun task => task.1.2⟩, invalid.2)

structure ValidatedTaskExecutionStep where
  label : String
  prerequisites : List ℕ

structure ValidatedTaskExecutionPlan where
  steps : List ValidatedTaskExecutionStep

namespace ValidatedTaskGraph

variable (graph : ValidatedTaskGraph)

def indexes (label : String) : Option ℕ := lastIndex (graph.tasks.map ValidatedProcessTask.label) label

/-- The positions gone through, and the plan so far. -/
def appendPositionPostorder : ℕ → ℕ → Finset ℕ × List ℕ → Option (Finset ℕ × List ℕ)
  | 0, _, _ => none
  | fuel + 1, position, (visited, plan) =>
      if position ∈ visited then some (visited, plan)
      else do
        let task ← graph.tasks[position]?
        let (visited, plan) ← task.dependsOn.foldlM
          (fun walked dependency => do
            let position ← graph.indexes dependency
            appendPositionPostorder fuel position walked)
          (insert position visited, plan)
        some (visited, plan ++ [position])

def collectPositions : ℕ → ℕ → Finset ℕ → Option (Finset ℕ)
  | 0, _, _ => none
  | fuel + 1, position, collected =>
      if position ∈ collected then some collected
      else do
        let task ← graph.tasks[position]?
        task.dependsOn.foldlM
          (fun collected dependency => do
            let position ← graph.indexes dependency
            collectPositions fuel position collected)
          (insert position collected)

/-- `prerequisites.get_mut(index)?.insert(prerequisite)`. -/
def insertPrerequisite (prerequisites : List (Finset ℕ)) (index prerequisite : ℕ) : Option (List (Finset ℕ)) :=
  if index < prerequisites.length then some (prerequisites.modify index (insert prerequisite)) else none

/-- What the loop over the branches of a sequence has. -/
structure Barriers where
  earlierBranchMembers : Finset ℕ
  previousRoot : Option ℕ
  prerequisites : List (Finset ℕ)

variable (positions : List ℕ)

/-- The members of a branch wait for the root of the branch before. -/
def awaitPreviousRoot (barriers : Barriers) (branchMembers : Finset ℕ) : Option (List (Finset ℕ)) :=
  match barriers.previousRoot with
  | none => some barriers.prerequisites
  | some previousRoot => do
      let previousPlanIndex ← lastIndex positions previousRoot
      ((List.range graph.tasks.length).filter fun member =>
          member ∈ branchMembers \ barriers.earlierBranchMembers).foldlM
        (fun prerequisites member => do
          let memberPlanIndex ← lastIndex positions member
          insertPrerequisite prerequisites memberPlanIndex previousPlanIndex)
        barriers.prerequisites

def appendSequenceBarrier (barriers : Barriers) (dependency : String) :
    Option Barriers := do
  let dependencyPosition ← graph.indexes dependency
  let branchMembers ← graph.collectPositions (graph.tasks.length + 1) dependencyPosition ∅
  let prerequisites ← graph.awaitPreviousRoot positions barriers branchMembers
  some ⟨barriers.earlierBranchMembers ∪ branchMembers, some dependencyPosition, prerequisites⟩

def appendSequenceBarriers (task : ValidatedProcessTask) (positions : List ℕ)
    (prerequisites : List (Finset ℕ)) : Option (List (Finset ℕ)) := do
  let barriers ← task.dependsOn.foldlM (graph.appendSequenceBarrier positions) ⟨∅, none, prerequisites⟩
  some barriers.prerequisites

/-- The body of the loop over the positions of the plan. -/
def appendPrerequisites (prerequisites : List (Finset ℕ)) (position : ℕ) :
    Option (List (Finset ℕ)) := do
  let planIndex ← lastIndex positions position
  let task ← graph.tasks[position]?
  let prerequisites ← task.dependsOn.foldlM
    (fun prerequisites dependency => do
      let dependencyPosition ← graph.indexes dependency
      let dependencyIndex ← lastIndex positions dependencyPosition
      insertPrerequisite prerequisites planIndex dependencyIndex)
    prerequisites
  if task.dependencyOrder = .sequence then graph.appendSequenceBarriers task positions prerequisites
  else some prerequisites

def executionStep (prerequisites : List (Finset ℕ)) (planIndex : ℕ) :
    Option ValidatedTaskExecutionStep := do
  let position ← positions[planIndex]?
  let task ← graph.tasks[position]?
  let required ← prerequisites[planIndex]?
  some ⟨task.label, (List.range positions.length).filter (· ∈ required)⟩

def executionPlan (label : String) : Option ValidatedTaskExecutionPlan := do
  let target ← graph.indexes label
  let (_, positions) ← graph.appendPositionPostorder (graph.tasks.length + 1) target (∅, [])
  let prerequisites ← positions.foldlM (graph.appendPrerequisites positions) (List.replicate positions.length ∅)
  let steps ← (List.range positions.length).mapM (graph.executionStep positions prerequisites)
  some ⟨steps⟩

end ValidatedTaskGraph

namespace ValidatedTaskExecutionPlan

variable (plan : ValidatedTaskExecutionPlan)

def readySteps (completed running : Finset ℕ) : List ℕ :=
  if running ≠ ∅ then []
  else
    ((List.range plan.steps.length).filter fun index =>
      index ∉ completed && index ∉ running && (plan.steps[index]?.any fun step =>
        step.prerequisites.all fun prerequisite => prerequisite ∈ completed)).take 1

/-- The loop of `resolve_chain_labels` over the ready steps. -/
def completeReady : ℕ → Finset ℕ → List String → Except String (List String)
  | 0, _, labels => .ok labels
  | rounds + 1, completed, labels =>
      if completed.card < plan.steps.length then
        match plan.readySteps completed ∅ with
        | [] => .error "Unable to resolve the process task graph safely."
        | ready =>
            completeReady rounds (completed ∪ ready.toFinset)
              (labels ++ ready.filterMap fun index => plan.steps[index]?.map ValidatedTaskExecutionStep.label)
      else .ok labels

def chainLabels : Except String (List String) := plan.completeReady plan.steps.length ∅ []

end ValidatedTaskExecutionPlan

end CodevoEditor.VscodeTasks
