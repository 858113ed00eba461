/-
# The runtime requests of a thread

`src/domain/agentRuntimeRequest.ts`: what is displayed of the requests of a thread, and
`mergeAgentThreadRequests`, by which a message changes it.

The source compares old and new objects only to return the old one when nothing has changed; a
value has no identity here, and the result is the same. What a request says (its body, its
provider, the answer it got) is never looked at and stands as `content`.
-/

import CodevoEditor.Js.Sorting
import CodevoEditor.Js.KeyedMap
import CodevoEditor.RuntimeRequests.Model

namespace CodevoEditor.ThreadRequests

open Js RuntimeRequests

def maxAgentThreadRequestsRetained : ℕ := 256

def maxAgentThreadRequestFences : ℕ := 1024

def agentRuntimeRequestTransitions : RequestStatus → List RequestStatus
  | .pending => [.submitting, .cancelled, .expired, .timedOut]
  | .submitting => [.resolved, .pending, .expired]
  | .resolved | .cancelled | .expired | .timedOut => []

lemma agentRuntimeRequestTransitions_eq : agentRuntimeRequestTransitions = RequestStatus.successors := by
  funext status
  cases status <;> rfl

structure AgentRuntimeRequest (β : Type) where
  id : JsString
  turnId : JsString
  createdAtEpochMs : ℕ
  order : ℕ
  version : ℕ
  status : RequestStatus
  content : β

structure AgentRuntimeRequestFence where
  turnId : JsString
  id : JsString
  version : ℕ
  createdAtEpochMs : ℕ
  deriving DecidableEq

structure AgentThreadRequestsRetention where
  fences : List AgentRuntimeRequestFence
  forgottenThroughEpochMs : Option ℕ

inductive AgentThreadRequestsJournal
  | saved
  | degraded

inductive AgentThreadRequestsSource
  | pull
  | push

structure AgentThreadRequestsSnapshot (β : Type) where
  threadId : JsString
  epoch : JsString
  journal : AgentThreadRequestsJournal
  requests : List (AgentRuntimeRequest β)
  truncated : Bool
  unreadable : ℕ

structure AgentThreadRequestsState (β : Type) extends AgentThreadRequestsSnapshot β where
  retention : AgentThreadRequestsRetention

structure AgentThreadRequests (β : Type) extends AgentThreadRequestsSnapshot β where
  workspaceId : Option JsString
  reset : Bool

structure AgentThreadRequestsMerge (β : Type) extends AgentThreadRequestsSnapshot β where
  reset : Bool
  source : AgentThreadRequestsSource

variable {β : Type}

def requestKey (turnId id : JsString) : JsString := turnId ++ js "/" ++ id

def AgentRuntimeRequest.key (request : AgentRuntimeRequest β) : JsString :=
  requestKey request.turnId request.id

def AgentRuntimeRequestFence.key (fence : AgentRuntimeRequestFence) : JsString :=
  requestKey fence.turnId fence.id

def isOpen (request : AgentRuntimeRequest β) : Bool :=
  0 < (agentRuntimeRequestTransitions request.status).length

/-- The first loop of `ordered`: the earliest creation of each turn. -/
def turnStarts (requests : List (AgentRuntimeRequest β)) : OrderedMap JsString ℕ :=
  requests.foldl (fun starts request =>
    let known := (starts.get? request.turnId).getD request.createdAtEpochMs
    starts.set request.turnId (min known request.createdAtEpochMs)) .empty

def startOf (starts : OrderedMap JsString ℕ) (request : AgentRuntimeRequest β) : ℕ :=
  (starts.get? request.turnId).getD request.createdAtEpochMs

/-- The comparator of `ordered`. -/
def compareRequests (starts : OrderedMap JsString ℕ) (left right : AgentRuntimeRequest β) : Ordering :=
  (compare (startOf starts left) (startOf starts right)).then <|
    (compareText left.turnId right.turnId).then <|
      (compare left.order right.order).then (compareText left.id right.id)

def ordered (requests : List (AgentRuntimeRequest β)) : List (AgentRuntimeRequest β) :=
  sort (compareRequests (turnStarts requests)) requests

structure Partition (β : Type) where
  kept : List (AgentRuntimeRequest β)
  dropped : List (AgentRuntimeRequest β)

/-- `partitioned`. The set of closed requests is a set of objects. -/
def partitioned (requests : List (AgentRuntimeRequest β)) : Partition β :=
  let sorted := ordered requests
  let excess := sorted.length - maxAgentThreadRequestsRetained
  if sorted.length ≤ maxAgentThreadRequestsRetained then ⟨sorted, []⟩
  else
    let closed := (sorted.filter fun request => !isOpen request).take excess
    let survivors := sorted.filter fun request => request.key ∉ closed.map AgentRuntimeRequest.key
    let overflow := survivors.length - maxAgentThreadRequestsRetained
    ⟨ordered (survivors.drop overflow), closed ++ survivors.take overflow⟩

def fenceOf (request : AgentRuntimeRequest β) : AgentRuntimeRequestFence :=
  ⟨request.turnId, request.id, request.version, request.createdAtEpochMs⟩

def compareFences (left right : AgentRuntimeRequestFence) : Ordering :=
  (compare left.createdAtEpochMs right.createdAtEpochMs).then <|
    (compareText left.turnId right.turnId).then (compareText left.id right.id)

def forgottenThrough (previous : Option ℕ) : Option AgentRuntimeRequestFence → Option ℕ
  | none => previous
  | some latest => some (max (previous.getD latest.createdAtEpochMs) latest.createdAtEpochMs)

/-- The fences once those of displayed requests are deleted and those of dropped ones set. -/
def fencesAfter (fences : OrderedMap JsString AgentRuntimeRequestFence) (partition : Partition β) :
    OrderedMap JsString AgentRuntimeRequestFence :=
  (fences.deleteAll AgentRuntimeRequest.key partition.kept).setAll AgentRuntimeRequest.key fenceOf partition.dropped

def refenced (retention : AgentThreadRequestsRetention)
    (fences : OrderedMap JsString AgentRuntimeRequestFence) (partition : Partition β) :
    AgentThreadRequestsRetention :=
  let sorted := sort compareFences (fencesAfter fences partition).values
  let overflow := sorted.length - maxAgentThreadRequestFences
  ⟨sorted.drop overflow, forgottenThrough retention.forgottenThroughEpochMs (sorted.take overflow).getLast?⟩

def isBeyondForgottenFences (candidate : AgentRuntimeRequest β) (source : AgentThreadRequestsSource)
    (forgottenThroughEpochMs : Option ℕ) : Bool :=
  match source with
  | .pull => true
  | .push => forgottenThroughEpochMs.all fun horizon => horizon < candidate.createdAtEpochMs

/-- `isAdmissible`: `known` is the version that is known. -/
def isAdmissible (candidate : AgentRuntimeRequest β) (known : Option ℕ)
    (source : AgentThreadRequestsSource) (forgottenThroughEpochMs : Option ℕ) : Bool :=
  match known with
  | some version => version < candidate.version
  | none =>
      if isOpen candidate then isBeyondForgottenFences candidate source forgottenThroughEpochMs
      else true

def noRetention : AgentThreadRequestsRetention := ⟨[], none⟩

namespace AgentThreadRequestsState

variable (state : AgentThreadRequestsState β)

def displayed : OrderedMap JsString (AgentRuntimeRequest β) :=
  .keyedBy AgentRuntimeRequest.key state.requests

def fences : OrderedMap JsString AgentRuntimeRequestFence :=
  .keyedBy AgentRuntimeRequestFence.key state.retention.fences

def horizon : Option ℕ := state.retention.forgottenThroughEpochMs

end AgentThreadRequestsState

def blank (message : AgentThreadRequestsMerge β) : AgentThreadRequestsState β where
  threadId := message.threadId
  epoch := message.epoch
  journal := message.journal
  requests := []
  truncated := false
  unreadable := message.unreadable
  retention := noRetention

variable (state : AgentThreadRequestsState β)

def published (message : AgentThreadRequestsMerge β)
    (requests : List (AgentRuntimeRequest β)) (retention : AgentThreadRequestsRetention)
    (evicted : Bool) : AgentThreadRequestsState β :=
  { state with
    journal := message.journal
    requests := requests
    truncated := state.truncated || message.truncated || evicted
    unreadable := message.unreadable
    retention := retention }

/-- One turn of the loop of `applied`: what is displayed, and whether anything was admitted. -/
def offer (source : AgentThreadRequestsSource)
    (progress : OrderedMap JsString (AgentRuntimeRequest β) × Bool) (candidate : AgentRuntimeRequest β) :
    OrderedMap JsString (AgentRuntimeRequest β) × Bool :=
  let known := ((progress.1.get? candidate.key).map AgentRuntimeRequest.version).or
    ((state.fences.get? candidate.key).map AgentRuntimeRequestFence.version)
  if isAdmissible candidate known source state.horizon then
    (progress.1.set candidate.key candidate, true)
  else progress

/-- The loop of `applied`. -/
def admitted (message : AgentThreadRequestsMerge β) : OrderedMap JsString (AgentRuntimeRequest β) × Bool :=
  message.requests.foldl (offer state message.source) (state.displayed, false)

def applied (message : AgentThreadRequestsMerge β) : AgentThreadRequestsState β :=
  let (displayed, changed) := admitted state message
  if !changed then published state message state.requests state.retention false
  else
    let partition := partitioned displayed.values
    published state message partition.kept (refenced state.retention state.fences partition)
      (0 < partition.dropped.length)

def mergeAgentThreadRequests (state : Option (AgentThreadRequestsState β))
    (message : AgentThreadRequestsMerge β) : AgentThreadRequestsState β :=
  match state with
  | none => applied (blank message) message
  | some state =>
      if state.threadId ≠ message.threadId then state
      else if message.reset || state.epoch ≠ message.epoch then applied (blank message) message
      else applied state message

/-- What is displayed after one message after the other. -/
def mergeAll (state : Option (AgentThreadRequestsState β))
    (messages : List (AgentThreadRequestsMerge β)) : Option (AgentThreadRequestsState β) :=
  messages.foldl (fun state message => some (mergeAgentThreadRequests state message)) state

end CodevoEditor.ThreadRequests
