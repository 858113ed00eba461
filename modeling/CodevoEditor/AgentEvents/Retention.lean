/-
# The bounded window of retained events

`packages/agent-events/src/agentTurnEventRetention.ts`.
-/

import CodevoEditor.AgentEvents.SnapshotIndex
import Mathlib.Data.List.DropRight
import Mathlib.Data.List.ReduceOption

namespace CodevoEditor.AgentEvents

open Js

/-- `AgentTurnEventRetentionPolicy`. Limits are not negative. -/
structure AgentTurnEventRetentionPolicy where
  maxEvents : ℕ
  maxBytes : ℕ
  maxSubagentThreads : ℕ
  eventBytes : AgentTurnEvent → ℤ
  coalesceText : AgentTurnEvent → AgentTurnEvent → Option AgentTurnEvent

structure AgentTurnEventRetentionResult where
  events : List AgentTurnEvent
  truncated : Bool
  deriving DecidableEq

/-- `RetentionState`, without the policy and the step probe. -/
structure RetentionState where
  slots : List (Option AgentTurnEvent)
  snapshots : AgentTurnSnapshotIndex
  subagentThreads : OrderedMap JsString ℤ
  liveCount : ℤ
  retainedBytes : ℤ
  evictionCursor : ℕ
  truncated : Bool

namespace RetentionState

variable (policy : AgentTurnEventRetentionPolicy) (state : RetentionState) (slot : ℕ)

/-- `state.slots[slot] ?? null`. -/
def slotAt : Option AgentTurnEvent :=
  (state.slots[slot]?).join

variable (event : AgentTurnEvent)

def countSubagentThread (delta : ℤ) : RetentionState :=
  match event.agentThreadId? with
  | none => state
  | some agentThreadId =>
      let count := (state.subagentThreads.get? agentThreadId).getD 0 + delta
      if 0 < count then
        { state with subagentThreads := state.subagentThreads.set agentThreadId count }
      else { state with subagentThreads := state.subagentThreads.delete agentThreadId }

def adoptSlot (slot : ℕ) : RetentionState :=
  let counted := { state with
    liveCount := state.liveCount + 1
    retainedBytes := state.retainedBytes + policy.eventBytes event }.countSubagentThread event 1
  { counted with snapshots := counted.snapshots.adopt event slot }

def replaceSlot (previous event : AgentTurnEvent) : RetentionState :=
  { state with
    retainedBytes := state.retainedBytes + (policy.eventBytes event - policy.eventBytes previous)
    slots := state.slots.set slot (some event) }

def tailIsCoalescibleText : Bool :=
  (state.slotAt (state.slots.length - 1)).any isAgentTurnCoalescibleTextEvent

/-- `supersedeInPlace`; `none` is `false`. -/
def supersedeInPlace (placement : AgentTurnSnapshotPlacement) : Option RetentionState :=
  match placement.liveSlot with
  | none => none
  | some slot =>
      if state.tailIsCoalescibleText then none
      else match state.slotAt slot with
        | none => none
        | some previous =>
            (mergeSupersededAgentTurnEvent previous placement.event).map (state.replaceSlot policy slot previous)

def placeEvent (placement : AgentTurnSnapshotPlacement) : RetentionState :=
  match state.supersedeInPlace policy placement with
  | some superseded => superseded
  | none =>
      { state with slots := state.slots ++ [some placement.event] }.adoptSlot policy
        placement.event state.slots.length

/-- `coalesceIntoTail`; `none` is `false`. -/
def coalesceIntoTail : Option RetentionState :=
  match state.slotAt (state.slots.length - 1) with
  | none => none
  | some tail =>
      (policy.coalesceText tail event).map (state.replaceSlot policy (state.slots.length - 1) tail)

def exceedsLimits : Bool :=
  (policy.maxEvents : ℤ) < state.liveCount || (policy.maxBytes : ℤ) < state.retainedBytes ||
    policy.maxSubagentThreads < state.subagentThreads.size

/-- `isPinned` of what a slot holds: tombstones and accepted input. -/
def isPinned (slot : Option AgentTurnEvent) : Bool := slot.all AgentTurnEvent.isUserMessage

/-- The cursor after the loop of `nextVictimSlot`. -/
def skipPinned : ℕ :=
  state.evictionCursor + ((state.slots.drop state.evictionCursor).takeWhile isPinned).length

/-- `nextVictimSlot`: the moved cursor and the victim. -/
def nextVictimSlot : RetentionState × Option ℕ :=
  let cursor := state.skipPinned
  ({ state with evictionCursor := cursor },
    if cursor < state.slots.length then some cursor
    else if state.slots.length = 0 then none
    else some (state.slots.length - 1))

def trimTail : RetentionState :=
  let slots := state.slots.rdropWhile Option.isNone
  { state with slots := slots, evictionCursor := min state.evictionCursor slots.length }

def evictSlot : RetentionState :=
  match state.slotAt slot with
  | none => state
  | some event =>
      let counted := { state with
        slots := state.slots.set slot none
        liveCount := state.liveCount - 1
        retainedBytes := state.retainedBytes - policy.eventBytes event
        truncated := true }.countSubagentThread event (-1)
      { counted with snapshots := counted.snapshots.evict event slot }.trimTail

/-- `enforceLimits`, with fuel for its loop. -/
def enforceLimitsWith : ℕ → RetentionState → RetentionState
  | 0, state => state
  | fuel + 1, state =>
      if state.exceedsLimits policy then
        match state.nextVictimSlot with
        | (state, none) => state
        | (state, some victim) => enforceLimitsWith fuel (state.evictSlot policy victim)
      else state

/-- `enforceLimits`: every turn of the loop takes an event out of a slot. -/
def enforceLimits : RetentionState :=
  enforceLimitsWith policy state.slots.length state

/-- `acceptEvent` before `enforceLimits`: the event joins the tail, replaces a
snapshot or takes a new slot. -/
def admitEvent : RetentionState :=
  match state.coalesceIntoTail policy event with
  | some coalesced => coalesced
  | none => state.placeEvent policy (state.snapshots.place event)

def acceptEvent : RetentionState :=
  if (policy.maxBytes : ℤ) < policy.eventBytes event then { state with truncated := true }
  else (state.admitEvent policy event).enforceLimits policy

def liveEvents : List AgentTurnEvent := state.slots.reduceOption

/-- The state `retain` starts from, before it adopts what exists. -/
def initial (existing : List AgentTurnEvent) (snapshots : AgentTurnSnapshotIndex) :
    RetentionState where
  slots := existing.map some
  snapshots := snapshots
  subagentThreads := .empty
  liveCount := 0
  retainedBytes := 0
  evictionCursor := 0
  truncated := false

/-- The state of `retain` once the existing events are adopted. -/
def adopted (existing : List AgentTurnEvent) (snapshots : AgentTurnSnapshotIndex) : RetentionState :=
  existing.zipIdx.foldl (fun state slot => state.adoptSlot policy slot.1 slot.2) (initial existing snapshots)

end RetentionState

variable (policy : AgentTurnEventRetentionPolicy)

/-- The state of `retain` after the incoming events. -/
def retainState (existing incoming : List AgentTurnEvent) (snapshots : AgentTurnSnapshotIndex) : RetentionState :=
  incoming.foldl (fun state event => state.acceptEvent policy event)
    (RetentionState.adopted policy existing snapshots)

def retain (existing incoming : List AgentTurnEvent) (snapshots : AgentTurnSnapshotIndex) :
    AgentTurnEventRetentionResult :=
  if incoming = [] then ⟨existing, false⟩
  else
    let state := retainState policy existing incoming snapshots
    ⟨state.liveEvents, state.truncated⟩

def snapshotIndexFor (incoming : List AgentTurnEvent) : AgentTurnSnapshotIndex :=
  if incoming.any isAgentTurnSnapshotEvent then .create else .inert

def retainAgentTurnEvents (existing incoming : List AgentTurnEvent) : AgentTurnEventRetentionResult :=
  retain policy existing incoming (snapshotIndexFor incoming)

def capAgentTurnEvents (events : List AgentTurnEvent) : AgentTurnEventRetentionResult :=
  retain policy [] events .inert

end CodevoEditor.AgentEvents
