/-
# The order of threads

`src/domain/agentThreadOrganization.ts`: threads are snoozed, settled and sorted by hand. A
thread that is moved gets a sort order between those of its neighbours (`sortOrderBetween`);
where there is none its section is numbered anew (`renumberFrom`).
-/

import CodevoEditor.Threads.Thread

namespace CodevoEditor.Threads

open Js

structure AgentThreadOrganizationPatch where
  snoozedUntil : Option (Option ℤ) := none
  settledAt : Option (Option ℤ) := none
  sortOrder : Option (Option Float) := none

inductive AgentThreadDropSection
  | pinned
  | active
  | settled
  deriving DecidableEq

inductive AgentThreadPlacement
  | before
  | after
  deriving DecidableEq

structure AgentThreadSortOrderAssignment where
  threadId : JsString
  sortOrder : Float

def maxThreadOrganizationValue : ℤ := 8640000000000000

def validThreadOrganizationValue : Option ℤ → Bool
  | none => true
  | some value => isSafeInteger value && 0 ≤ value && value ≤ maxThreadOrganizationValue

/-- `validThreadSortOrder` of a number. -/
def validSortOrderNumber (value : Float) : Bool :=
  value.isFinite && value.abs ≤ Float.ofInt maxSafeInteger

def validThreadSortOrder : Option Float → Bool
  | none => true
  | some value => validSortOrderNumber value

/-- `a === b`, where a double may be NaN. -/
def sameSortOrder : Option (Option Float) → Option (Option Float) → Bool
  | some (some left), some (some right) => left == right
  | some none, some none => true
  | none, none => true
  | _, _ => false

variable (thread : AgentThread)

/-- `thread.sortOrder != null`. -/
def manualSortOrder : Option Float := thread.sortOrder.join

def compareAgentThreadOrder (localeCompare : JsString → JsString → Ordering) (left right : AgentThread) : Ordering :=
  let leftManual := (manualSortOrder left).isSome
  let rightManual := (manualSortOrder right).isSome
  if leftManual ≠ rightManual then if leftManual then .gt else .lt
  else
    let difference := (manualSortOrder left).getD 0 - (manualSortOrder right).getD 0
    if difference < 0 then .lt
    else if 0 < difference then .gt
    else
      (compare right.updatedAtEpochMs left.updatedAtEpochMs).then
        (localeCompare left.threadId right.threadId)

def sameThreadOrganizationOwner (left right : AgentThreadOwner) : Bool :=
  left.rootKey = right.rootKey && left.ownerId = right.ownerId &&
    left.repositoryRoot = right.repositoryRoot

/-- A thread after `{ ...thread, ...patch }`. -/
def AgentThread.patched (patch : AgentThreadOrganizationPatch) : AgentThread :=
  { thread with
    snoozedUntil := patch.snoozedUntil.or thread.snoozedUntil
    settledAt := patch.settledAt.or thread.settledAt
    sortOrder := patch.sortOrder.or thread.sortOrder }

def updateAgentThreadOrganization (state : AgentThreadsState) (threadId : JsString)
    (owner : AgentThreadOwner) (patch : AgentThreadOrganizationPatch) : AgentThreadsState :=
  match state.threads.get? threadId with
  | none => state
  | some thread =>
      if !sameThreadOrganizationOwner thread.owner owner then state
      else if patch.snoozedUntil.isNone && patch.settledAt.isNone && patch.sortOrder.isNone then state
      else if !patch.sortOrder.all validThreadSortOrder ||
          !patch.snoozedUntil.all validThreadOrganizationValue ||
          !patch.settledAt.all validThreadOrganizationValue then state
      else if patch.settledAt.join.isSome && (runningTurn thread).isSome then state
      else
        let next := thread.patched patch
        if next.settledAt.join.isSome && next.snoozedUntil.join.isSome then state
        else if next.snoozedUntil = thread.snoozedUntil ∧ next.settledAt = thread.settledAt ∧
            sameSortOrder next.sortOrder thread.sortOrder then state
        else { threads := state.threads.set threadId next }

/-- `section`. -/
inductive AgentThreadSection
  | archived
  | settled
  | snoozed
  | pinned
  | active
  deriving DecidableEq

def AgentThreadDropSection.section : AgentThreadDropSection → AgentThreadSection
  | .pinned => .pinned
  | .active => .active
  | .settled => .settled

def threadSection (now : ℤ) : AgentThreadSection :=
  if thread.archived then .archived
  else if thread.settledAt.join.isSome then .settled
  else if now < thread.snoozedUntil.join.getD 0 then .snoozed
  else if thread.pinned then .pinned
  else .active

def validSortOrderOrNull (value : Float) : Option Float :=
  if validSortOrderNumber value then some value else none

def sortOrderBetween (previous next : Option Float) : Option Float :=
  match previous, next with
  | none, none => some 0
  | none, some next => validSortOrderOrNull (next - 1)
  | some previous, none => validSortOrderOrNull (previous + 1)
  | some previous, some next =>
      let integer := (previous / 2 + next / 2).floor
      if previous < integer ∧ integer < next then some integer
      else
        let fraction := previous + (next - previous) / 2
        if previous < fraction ∧ fraction < next then validSortOrderOrNull fraction else none

def renumberFrom (ordered : List AgentThread) (position : ℕ) : List AgentThreadSortOrderAssignment :=
  let start :=
    match ordered.findIdx? fun thread => (manualSortOrder thread).isSome with
    | none => position
    | some firstManual => min position firstManual
  (ordered.drop start).mapIdx fun index thread => ⟨thread.threadId, Float.ofNat index⟩

def numberThrough (ordered : List AgentThread) (position : ℕ) : List AgentThreadSortOrderAssignment :=
  let firstManual := ((ordered.drop (position + 1)).findIdx? fun thread =>
    (manualSortOrder thread).isSome).map (· + (position + 1))
  let stop := firstManual.getD ordered.length
  let count := stop - position
  let base := (firstManual.bind fun index => ordered[index]?.bind manualSortOrder).getD (Float.ofNat count)
  let assignments : List AgentThreadSortOrderAssignment :=
    ((ordered.take stop).drop position).mapIdx fun index thread =>
      ⟨thread.threadId, base - Float.ofNat count + Float.ofNat index⟩
  if assignments.all fun assignment => validSortOrderNumber assignment.sortOrder then assignments
  else renumberFrom ordered position

def minimalSortOrderPlan (ordered : List AgentThread) (position : ℕ) : List AgentThreadSortOrderAssignment :=
  match ordered[position]? with
  | none => []
  | some moved =>
      let next := ordered[position + 1]?
      if next.any fun next => (manualSortOrder next).isNone then numberThrough ordered position
      else
        let previous := if position = 0 then none else ordered[position - 1]?
        match sortOrderBetween (previous.bind manualSortOrder) (next.bind manualSortOrder) with
        | none => renumberFrom ordered position
        | some value => [⟨moved.threadId, value⟩]

def agentThreadReorderPlan (localeCompare : JsString → JsString → Ordering)
    (threads : List AgentThread) (threadId targetThreadId : JsString)
    (placement : AgentThreadPlacement) (now : ℤ) : List AgentThreadSortOrderAssignment :=
  if threadId = targetThreadId ∨ !validThreadOrganizationValue (some now) then []
  else
    match threads.find? (fun thread => thread.threadId = threadId),
      threads.find? (fun thread => thread.threadId = targetThreadId) with
    | some moved, some target =>
        if !sameThreadOrganizationOwner moved.owner target.owner ||
            threadSection moved now ≠ threadSection target now then []
        else
          let remaining := (threads.filter fun thread =>
            thread.threadId ≠ threadId && sameThreadOrganizationOwner thread.owner moved.owner &&
              threadSection thread now = threadSection moved now).mergeSort fun left right =>
                compareAgentThreadOrder localeCompare left right ≠ .gt
          let position := remaining.findIdx (fun thread => thread.threadId = targetThreadId) +
            if placement = .after then 1 else 0
          minimalSortOrderPlan (remaining.take position ++ [moved] ++ remaining.drop position) position
    | _, _ => []

/-- `threads.set(item.threadId, { ...threads.get(item.threadId)!, sortOrder })`. -/
def assignSortOrder (threads : OrderedMap JsString AgentThread)
    (item : AgentThreadSortOrderAssignment) : OrderedMap JsString AgentThread :=
  match threads.get? item.threadId with
  | none => threads
  | some thread => threads.set item.threadId { thread with sortOrder := some (some item.sortOrder) }

/-- The sort orders of a plan that change something. -/
def applySortOrders (state prepared : AgentThreadsState)
    (plan : List AgentThreadSortOrderAssignment) : AgentThreadsState :=
  let changed := plan.filter fun item =>
    !sameSortOrder ((state.threads.get? item.threadId).bind (·.sortOrder)) (some (some item.sortOrder))
  { threads := changed.foldl assignSortOrder prepared.threads }

/-- The thread in the section it is dropped on. -/
def droppedThread (destination : AgentThreadDropSection) (now : ℤ) : AgentThread :=
  { thread with
    pinned :=
      match destination with
      | .pinned => true
      | .active => false
      | .settled => thread.pinned
    snoozedUntil := some none
    settledAt := some (if destination = .settled then some (thread.settledAt.join.getD now) else none) }

def reorderAgentThread (localeCompare : JsString → JsString → Ordering) (state : AgentThreadsState)
    (threadId : JsString) (owner : AgentThreadOwner) (targetThreadId : JsString)
    (placement : AgentThreadPlacement) (now : ℤ) (destination : Option AgentThreadDropSection) :
    AgentThreadsState :=
  match state.threads.get? threadId, state.threads.get? targetThreadId with
  | some thread, some target =>
      if !sameThreadOrganizationOwner thread.owner owner ||
          !sameThreadOrganizationOwner thread.owner target.owner then state
      else
        let reorder (prepared : AgentThreadsState) : AgentThreadsState :=
          applySortOrders state prepared (agentThreadReorderPlan localeCompare
            prepared.threads.values threadId targetThreadId placement now)
        match destination with
        | none => reorder state
        | some destination =>
            if !validThreadOrganizationValue (some now) || thread.archived || target.archived ||
                (targetThreadId ≠ threadId && threadSection target now ≠ destination.section) ||
                (destination = .settled && (runningTurn thread).isSome) then state
            else
              let prepared : AgentThreadsState :=
                { threads := state.threads.set threadId (droppedThread thread destination now) }
              if targetThreadId = threadId then prepared else reorder prepared
  | _, _ => state

end CodevoEditor.Threads
