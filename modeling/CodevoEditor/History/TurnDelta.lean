/-
# Deltas of a turn

`src/domain/agentHistoryTurnDelta.ts` plans how the events of a turn are built from those that
were stored last: runs of them are copied, and what is new is inserted.

The planner finds an event among the stored ones by `===`, so the events are any type `ι` of
objects here; the store has what an object is serialized to, of any type `β`.
-/

import CodevoEditor.Js.OrderedMap

namespace CodevoEditor.History

open Js

def maxPersistedAgentEventsPerTurn : ℕ := 512
def maxAgentHistoryDeltaEdits : ℕ := maxPersistedAgentEventsPerTurn

inductive AgentHistoryEventEdit (ι : Type)
  | copy (start count : ℕ)
  | insert (events : List ι)
  deriving DecidableEq

structure AgentHistoryTurnDeltaPlan (ι : Type) where
  baseEventCount : ℕ
  edits : List (AgentHistoryEventEdit ι)
  retainedBytes : ℕ
  insertedBytes : ℕ
  deriving DecidableEq

section Planner

variable {ι : Type} [DecidableEq ι]

/-- `positions`: the last index of every object. -/
def positionsOf (base : List ι) : OrderedMap ι ℕ :=
  base.zipIdx.foldl (fun positions entry => positions.set entry.1 entry.2) .empty

/-- An event that is not stored joins the insertion before it. -/
def insertEvent (drafts : List (AgentHistoryEventEdit ι)) (event : ι) : List (AgentHistoryEventEdit ι) :=
  match drafts.getLast? with
  | some (.insert events) => drafts.dropLast ++ [.insert (events ++ [event])]
  | _ => drafts ++ [.insert [event]]

/-- An event that is stored joins the copy before it, if it comes next there. -/
def copyEvent (drafts : List (AgentHistoryEventEdit ι)) (position : ℕ) : List (AgentHistoryEventEdit ι) :=
  match drafts.getLast? with
  | some (.copy start count) =>
      if start + count = position then drafts.dropLast ++ [.copy start (count + 1)]
      else drafts ++ [.copy position 1]
  | _ => drafts ++ [.copy position 1]

/-- The body of the loop of `planAgentHistoryTurnDelta`. -/
def planEvent (persistedAgentEventBytes : ι → ℕ) (positions : OrderedMap ι ℕ)
    (plan : AgentHistoryTurnDeltaPlan ι) (event : ι) : AgentHistoryTurnDeltaPlan ι :=
  let bytes := persistedAgentEventBytes event
  match positions.get? event with
  | none =>
      { plan with
        insertedBytes := plan.insertedBytes + bytes
        edits := insertEvent plan.edits event }
  | some position =>
      { plan with
        retainedBytes := plan.retainedBytes + bytes
        edits := copyEvent plan.edits position }

def planAgentHistoryTurnDelta (persistedAgentEventBytes : ι → ℕ) (base next : List ι) :
    Option (AgentHistoryTurnDeltaPlan ι) :=
  if next.length = 0 ∨ maxPersistedAgentEventsPerTurn < base.length ∨
      maxPersistedAgentEventsPerTurn < next.length then none
  else
    let plan := next.foldl (planEvent persistedAgentEventBytes (positionsOf base)) ⟨base.length, [], 0, 0⟩
    if maxAgentHistoryDeltaEdits < plan.edits.length then none else some plan

end Planner

def maxAgentEventsPerTurn : ℕ := 512
def maxHistoryDeltaEdits : ℕ := maxAgentEventsPerTurn
def historyEventsDigestHexLength : ℕ := 64

inductive HistoryEventEdit (β : Type)
  | copy (start count : UInt32)
  | insert (events : List β)

/-- `HistoryTurnDelta`; the digest is its bytes. -/
structure HistoryTurnDelta (β : Type) where
  baseEventCount : UInt32
  baseEventsDigest : List UInt8
  edits : List (HistoryEventEdit β)

/-- The fields of `AgentTurn` that `delta_turn` hands on or reads. -/
structure AgentTurn (β : Type) where
  turnId : String
  events : List β

structure AgentThread (β : Type) where
  turns : List (AgentTurn β)

/-- `checked_add` of `usize`. -/
def checkedAdd (a b : ℕ) : Option ℕ := if a + b < 2 ^ 64 then some (a + b) else none

/-- `b'0'..=b'9' | b'a'..=b'f'`. -/
def isHexDigit (byte : UInt8) : Bool := (48 ≤ byte && byte ≤ 57) || (97 ≤ byte && byte ≤ 102)

section Store

variable {β : Type}

def insertedEvents (edits : List (HistoryEventEdit β)) : List β :=
  edits.flatMap fun
    | .insert events => events
    | .copy _ _ => []

/-- How many events an edit makes; none is refused. -/
def editSize : HistoryEventEdit β → Option ℕ
  | .copy _ count => if 0 < count then some count.toNat else none
  | .insert events => if events.isEmpty then none else some events.length

/-- The loop of `delta_turn`. -/
def totalEvents : List (HistoryEventEdit β) → ℕ → Option ℕ
  | [], total => some total
  | edit :: edits, total =>
      (editSize edit).bind fun size => (checkedAdd total size).bind (totalEvents edits)

def deltaTurn (thread : AgentThread β) (delta : HistoryTurnDelta β) : Option (AgentTurn β) :=
  match thread.turns with
  | [turn] =>
      if ¬ turn.events.isEmpty ∨ delta.baseEventsDigest.length ≠ historyEventsDigestHexLength ∨
          ¬ delta.baseEventsDigest.all isHexDigit ∨
          maxAgentEventsPerTurn < delta.baseEventCount.toNat ∨ delta.edits.isEmpty ∨
          maxHistoryDeltaEdits < delta.edits.length then none
      else
        (totalEvents delta.edits 0).bind fun total =>
          if total ≤ maxAgentEventsPerTurn then some turn else none
  | _ => none

/-- `base.get(start..end)`. -/
def getRange (base : List β) (start stop : ℕ) : Option (List β) :=
  if start ≤ stop ∧ stop ≤ base.length then some ((base.drop start).take (stop - start)) else none

/-- `apply_edits`, with the events that are built so far. -/
def applyEditsFrom (base : List β) : List (HistoryEventEdit β) → List β → Option (List β)
  | [], events => some events
  | .copy start count :: edits, events =>
      (checkedAdd start.toNat count.toNat).bind fun stop =>
        (getRange base start.toNat stop).bind fun copied =>
          applyEditsFrom base edits (events ++ copied)
  | .insert inserted :: edits, events => applyEditsFrom base edits (events ++ inserted)

def applyEdits (base : List β) (edits : List (HistoryEventEdit β)) : Option (List β) :=
  applyEditsFrom base edits []

end Store

section Wire

variable {ι β : Type} (stored : ι → β)

/-- A number of a document as a `u32`. -/
def decodeU32 (number : ℕ) : Option UInt32 :=
  if number < 2 ^ 32 then some (.ofNat number) else none

/-- An edit of `prepareAgentHistoryTurnDelta` as the store reads it. -/
def decodeEdit : AgentHistoryEventEdit ι → Option (HistoryEventEdit β)
  | .copy start count =>
      (decodeU32 start).bind fun start => (decodeU32 count).map fun count => .copy start count
  | .insert events => some (.insert (events.map stored))

/-- The delta of `prepareAgentHistoryTurnDelta` as the store reads it. -/
def decodeDelta (baseEventsDigest : List UInt8) (plan : AgentHistoryTurnDeltaPlan ι) : Option (HistoryTurnDelta β) :=
  (decodeU32 plan.baseEventCount).bind fun baseEventCount =>
    (plan.edits.mapM (decodeEdit stored)).map fun edits => ⟨baseEventCount, baseEventsDigest, edits⟩

end Wire

end CodevoEditor.History
