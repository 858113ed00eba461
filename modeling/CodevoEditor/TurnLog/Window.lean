/-
# The window of a turn log

`src/domain/agentTurnWindow.ts`.

`commit` asks whether a row still holds the very object that was taken, so events are objects
here, with an id by which two of them are the same (`EventObject`). The step probe only counts
work and is left out; the digest and its fold are parameters, on which nothing here depends.
-/

import CodevoEditor.AgentEvents.Retention

namespace CodevoEditor.TurnLog

open Js AgentEvents

def agentTurnLogFirstSeq : ℕ := 1
def maxAgentTurnWindowLiveSnapshots : ℕ := 512
def maxAgentTurnWindowIdentities : ℕ := 4096
def emptyBatchBytes : ℤ := 2
def opSeparatorBytes : ℤ := 1

/-- Which object it is: one that the window was given, one that it has made, or
`CLIPPED_AGENT_TURN_LOG_ROW`. -/
inductive ObjectId
  | given (number : ℕ)
  | made (number : ℕ)
  | clipped
  deriving DecidableEq

/-- An event as an object; `===` compares the ids. -/
structure EventObject where
  id : ObjectId
  event : AgentTurnEvent

def clippedAgentTurnLogRow : EventObject :=
  ⟨.clipped, .unknownLine { stream := .stdout, raw := [], clipped := true }⟩

inductive AgentTurnLogLoss
  | none
  | legacyWindow
  | backgroundBuffer
  | supervisorGap
  | writeFailure
  | diskBudget (atEpochMs : ℤ)
  | turnCeiling
  | unreadable

/-- `AgentTurnWindowPolicy`, without the step probe. -/
structure AgentTurnWindowPolicy where
  eventBytes : AgentTurnEvent → ℤ
  opBytes : ℕ → AgentTurnEvent → ℤ
  coalesceText : AgentTurnEvent → AgentTurnEvent → Option AgentTurnEvent
  maxEventBytes : ℤ
  maxOpBytes : ℤ
  maxLiveSnapshots : ℕ := maxAgentTurnWindowLiveSnapshots
  maxIdentities : ℕ := maxAgentTurnWindowIdentities

structure WindowRow where
  seq : ℕ
  event : AgentTurnEvent

structure AgentTurnLogEntry where
  seq : ℕ
  event : EventObject

structure AgentTurnWindowBatch (δ : Type) where
  ops : List AgentTurnLogEntry
  digest : Option δ
  complete : Bool

structure AgentTurnWindowPending where
  ops : ℕ
  bytes : ℤ

structure AgentTurnWindowAcceptance where
  urgent : Bool
  pending : AgentTurnWindowPending

/-- `WindowState`, without the policy; `objects` counts the objects it has made. -/
structure WindowState (δ : Type) where
  live : OrderedMap ℕ AgentTurnEvent
  dirty : OrderedMap ℕ EventObject
  identities : Finset JsString
  snapshots : AgentTurnSnapshotIndex
  tail : Option WindowRow
  nextSeq : ℕ
  totalBytes : ℤ
  pendingBytes : ℤ
  bounded : Bool
  loss : AgentTurnLogLoss
  digest : δ
  objects : ℕ

namespace WindowState

variable {δ : Type} (policy : AgentTurnWindowPolicy)

/-- `createState`. -/
def create (firstSeq : ℕ) (digest : δ) : WindowState δ where
  live := .empty
  dirty := .empty
  identities := ∅
  snapshots := .create
  tail := none
  nextSeq := firstSeq
  totalBytes := 0
  pendingBytes := 0
  bounded := false
  loss := .none
  digest := digest
  objects := 0

variable (state : WindowState δ) (event : AgentTurnEvent)

/-- A new object with an event. -/
def made : EventObject :=
  ⟨.made state.objects, event⟩

def pendingOf : AgentTurnWindowPending :=
  ⟨state.dirty.size, state.pendingBytes⟩

variable (seq : ℕ)

def markDirty (object : EventObject) : WindowState δ :=
  let previousBytes := ((state.dirty.get? seq).map fun replaced =>
    policy.opBytes seq replaced.event).getD 0
  { state with
    pendingBytes := state.pendingBytes + (policy.opBytes seq object.event - previousBytes)
    dirty := state.dirty.set seq object }

def replaceRow (previous : AgentTurnEvent) (object : EventObject) : WindowState δ :=
  { state with
    totalBytes := state.totalBytes + (policy.eventBytes object.event - policy.eventBytes previous)
    }.markDirty policy seq object

/-- The loop of `retainLiveSnapshot`; the snapshots that were renewed last stay. -/
def trimLive (state : WindowState δ) : List ℕ → WindowState δ
  | [] => state
  | oldest :: seqs =>
      if state.live.size ≤ policy.maxLiveSnapshots then state
      else trimLive { state with live := state.live.delete oldest, bounded := true } seqs

def retainLiveSnapshot (event : AgentTurnEvent) : WindowState δ :=
  let live := (state.live.delete seq).set seq event
  trimLive policy { state with live } live.keys

/-- The identities that `trackIdentities` reads off an event. -/
def identitiesOf : AgentTurnEvent → List JsString
  | .toolCall event => [event.toolId]
  | .toolResult event => [event.toolId]
  | .backgroundTask event => [event.taskId]
  | .subagent event => event.toolId.toList ++ event.taskId.toList
  | event => event.agentThreadId?.toList

def trackIdentities : WindowState δ :=
  let identities := state.identities ∪ (identitiesOf event).toFinset
  if identities.card ≤ policy.maxIdentities then { state with identities }
  else { state with identities := ∅, live := .empty, snapshots := .create, bounded := true }

variable (object : EventObject)

def appendRow : WindowState δ :=
  let seq := state.nextSeq
  let marked := { state with
    nextSeq := seq + 1
    tail := some ⟨seq, object.event⟩
    totalBytes := state.totalBytes + policy.eventBytes object.event }.markDirty policy seq object
  let adopted := { marked with snapshots := marked.snapshots.adopt object.event seq }
  let retained := if isAgentTurnSnapshotEvent object.event then
    adopted.retainLiveSnapshot policy seq object.event else adopted
  retained.trackIdentities policy object.event

def overOpBound (event : AgentTurnEvent) : Bool :=
  policy.maxOpBytes < policy.opBytes seq event

/-- `coalesceIntoTail`; `none` is `false`. -/
def coalesceIntoTail : Option (WindowState δ) :=
  match state.tail with
  | none => none
  | some tail =>
      match policy.coalesceText tail.event event with
      | none => none
      | some coalesced =>
          if overOpBound policy tail.seq coalesced then none
          else
            some { state.replaceRow policy tail.seq tail.event (state.made coalesced) with
              tail := some ⟨tail.seq, coalesced⟩
              objects := state.objects + 1 }

/-- The placed event as an object: the one that was given, if its ids are as they were. -/
def placedObject (placed : AgentTurnEvent) : EventObject :=
  if placed = object.event then object else state.made placed

/-- `mergeSupersededAgentTurnEvent` as an object: of a usage it is the later event itself. -/
def mergedObject (placed : EventObject) (merged : AgentTurnEvent) : EventObject :=
  match placed.event with
  | .subagentUsage _ => ⟨placed.id, merged⟩
  | .contextUsage _ => ⟨placed.id, merged⟩
  | _ => state.made merged

/-- `supersedeInPlace`, with whether it has. -/
def supersedeInPlace (placed : EventObject) (liveSlot : Option ℕ) : WindowState δ × Bool :=
  match liveSlot with
  | none => (state, false)
  | some seq =>
      if state.tail.any fun tail => isAgentTurnCoalescibleTextEvent tail.event then (state, false)
      else
        match state.live.get? seq with
        | none => ({ state with bounded := true }, false)
        | some previous =>
            match mergeSupersededAgentTurnEvent previous placed.event with
            | none => (state, false)
            | some merged =>
                if overOpBound policy seq merged then (state, false)
                else
                  ({ state.replaceRow policy seq previous (state.mergedObject placed merged) with
                      objects := state.objects + 1 }.retainLiveSnapshot policy seq merged, true)

/-- The place of an event; a placed event is the first object that is made of it. -/
def placeEvent (placement : AgentTurnSnapshotPlacement) : WindowState δ :=
  let placed := state.placedObject object placement.event
  let counted := { state with objects := state.objects + 1 }
  match counted.supersedeInPlace policy placed placement.liveSlot with
  | (superseded, true) => superseded
  | (state, false) => state.appendRow policy placed

def acceptEvent : WindowState δ :=
  if policy.maxEventBytes < policy.eventBytes object.event then
    { state with loss := .supervisorGap }
  else if overOpBound policy state.nextSeq object.event then { state with loss := .supervisorGap }
  else
    match state.coalesceIntoTail policy object.event with
    | some coalesced => coalesced
    | none => state.placeEvent policy object (state.snapshots.place object.event)

def urgentAgentTurnLogEvent : AgentTurnEvent → Bool
  | .userMessage _ => true
  | .result _ => true
  | .error _ => true
  | _ => false

def acceptEvents (foldDigest : δ → List AgentTurnEvent → δ) (state : WindowState δ)
    (objects : List EventObject) : WindowState δ × AgentTurnWindowAcceptance :=
  let accepted := objects.foldl (acceptEvent policy) state
  let digested := { accepted with
    digest := foldDigest accepted.digest (objects.map (·.event)) }
  (digested, ⟨objects.any fun object => urgentAgentTurnLogEvent object.event, digested.pendingOf⟩)

def sortedSeqs : List ℕ := state.dirty.keys.insertionSort (· ≤ ·)

/-- The loop of `takeBatch`. -/
def takeOps (state : WindowState δ) (maxOps : ℕ) (maxBytes : ℤ) :
    List ℕ → List AgentTurnLogEntry → ℤ → List AgentTurnLogEntry
  | [], ops, _ => ops
  | seq :: seqs, ops, bytes =>
      match state.dirty.get? seq with
      | none => takeOps state maxOps maxBytes seqs ops bytes
      | some object =>
          if maxOps ≤ ops.length then ops
          else
            let size := policy.opBytes seq object.event + opSeparatorBytes
            if 0 < ops.length ∧ maxBytes < bytes + size then ops
            else takeOps state maxOps maxBytes seqs (ops ++ [⟨seq, object⟩]) (bytes + size)

def takeBatch (maxOps : ℕ) (maxBytes : ℤ) : AgentTurnWindowBatch δ :=
  let seqs := state.sortedSeqs
  let ops := state.takeOps policy maxOps maxBytes seqs [] emptyBatchBytes
  let complete : Bool := ops.length = seqs.length
  ⟨ops, if complete then some state.digest else none, complete⟩

/-- The step of the loop of `commitBatch`. -/
def commitOp (op : AgentTurnLogEntry) : WindowState δ :=
  match state.dirty.get? op.seq with
  | none => state
  | some current =>
      if current.id ≠ op.event.id then state
      else
        { state with
          dirty := state.dirty.delete op.seq
          pendingBytes := state.pendingBytes - policy.opBytes op.seq current.event }

def commitBatch (batch : AgentTurnWindowBatch δ) : WindowState δ :=
  let committed := batch.ops.foldl (commitOp policy) state
  if committed.dirty.size = 0 then { committed with pendingBytes := 0 } else committed

def clipRow : WindowState δ × Bool :=
  match state.dirty.get? seq with
  | none => (state, false)
  | some current =>
      if current.id = clippedAgentTurnLogRow.id then (state, false)
      else
        let clipped := { state with
          loss := .supervisorGap
          totalBytes := state.totalBytes + (policy.eventBytes clippedAgentTurnLogRow.event -
            policy.eventBytes current.event) }.markDirty policy seq clippedAgentTurnLogRow
        ({ clipped with
            tail := clipped.tail.map fun tail =>
              if tail.seq = seq then ⟨seq, clippedAgentTurnLogRow.event⟩ else tail }, true)

end WindowState

end CodevoEditor.TurnLog
