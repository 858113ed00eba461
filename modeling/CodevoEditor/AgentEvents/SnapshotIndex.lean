/-
# The index of live snapshots

`packages/agent-events/src/agentTurnSnapshotIndex.ts`.

The source hands the index around as three closures over a mutable state; here the state is a
value and every operation returns the next one. The step probe only counts work and is left out.
-/

import CodevoEditor.AgentEvents.SubagentAliases

namespace CodevoEditor.AgentEvents

open Js

structure AgentTurnSnapshotPlacement where
  event : AgentTurnEvent
  liveSlot : Option ℕ

/-- `AgentTurnKeyedSnapshotScope | "subagentTool" | "subagentTask"`. -/
inductive LiveSlotKind
  | keyed (scope : AgentTurnKeyedSnapshotScope)
  | subagentTool
  | subagentTask
  deriving DecidableEq

instance : LawfulBEq (LiveSlotKind × JsString) := inferInstance

structure IndexState where
  liveSlots : LiveSlotKind → OrderedMap JsString ℕ
  aliases : AgentTurnSubagentAliasIndex

namespace IndexState

/-- The state of a fresh index (`createAgentTurnSnapshotIndex`). -/
def create : IndexState := ⟨fun _ => .empty, createAgentTurnSubagentAliasIndex⟩

variable (state : IndexState)

def updateLiveSlots (kind : LiveSlotKind) (update : OrderedMap JsString ℕ → OrderedMap JsString ℕ) : IndexState :=
  { state with
    liveSlots := Function.update state.liveSlots kind (update (state.liveSlots kind)) }

variable (event : AgentTurnEvent)

def countAlias (delta : ℤ) : IndexState :=
  match agentTurnSubagentAlias event with
  | none => state
  | some link => { state with aliases := retainAgentTurnSubagentAlias state.aliases link delta }

/-- Update the slot of an id that is present. -/
def updateId (kind : LiveSlotKind) (id : Option JsString)
    (update : JsString → OrderedMap JsString ℕ → OrderedMap JsString ℕ) : IndexState :=
  match id with
  | none => state
  | some id => state.updateLiveSlots kind (update id)

def releaseSubagentIds (ids : AgentTurnSubagentIds) : IndexState :=
  let state := state.updateId .subagentTool ids.toolId fun id live => live.delete id
  state.updateId .subagentTask ids.taskId fun id live => live.delete id

/-- `releaseLiveSlots`: the loop deletes every key. -/
def releaseLiveSlots (kind : LiveSlotKind) : IndexState :=
  state.updateLiveSlots kind fun _ => .empty

def releaseScope : AgentTurnSnapshotScope → IndexState
  | .keyed scope => state.releaseLiveSlots (.keyed scope)
  | .subagent => (state.releaseLiveSlots .subagentTool).releaseLiveSlots .subagentTask

def releaseTarget : AgentTurnBarrierTarget → IndexState
  | .scope scope => state.releaseScope scope
  | .target (.identity scope identity) =>
      state.updateLiveSlots (.keyed scope) fun live => live.delete identity
  | .target (.subagentIds ids) =>
      if (state.liveSlots .subagentTool).size = 0 ∧ (state.liveSlots .subagentTask).size = 0 then
        state
      else state.releaseSubagentIds (resolveAgentTurnSubagentIds state.aliases ids).ids

def releaseTargets (targets : List AgentTurnBarrierTarget) : IndexState :=
  targets.foldl releaseTarget state

def claimTarget (target : AgentTurnSnapshotTarget) (slot : ℕ) : IndexState :=
  match target with
  | .identity scope identity =>
      state.updateLiveSlots (.keyed scope) fun live => live.set identity slot
  | .subagentIds ids =>
      let resolution := resolveAgentTurnSubagentIds state.aliases ids
      if ¬ resolution.canonical then state.releaseSubagentIds resolution.ids
      else
        let state := state.updateId .subagentTool resolution.ids.toolId fun id live =>
          live.set id slot
        state.updateId .subagentTask resolution.ids.taskId fun id live => live.set id slot

def adoptEvent (slot : ℕ) : IndexState :=
  let state := state.countAlias event 1
  match agentTurnEventSupersession event with
  | .content => state
  | .barrier targets => state.releaseTargets targets
  | .snapshot target => state.claimTarget target slot

def releaseIfOwned (live : OrderedMap JsString ℕ) (key : JsString) (slot : ℕ) : OrderedMap JsString ℕ :=
  if live.get? key = some slot then live.delete key else live

def evictEvent (slot : ℕ) : IndexState :=
  let state := state.countAlias event (-1)
  match agentTurnEventSupersession event with
  | .snapshot (.identity scope identity) =>
      state.updateLiveSlots (.keyed scope) fun live => releaseIfOwned live identity slot
  | .snapshot (.subagentIds ids) =>
      let state := state.updateId .subagentTool ids.toolId fun id live =>
        releaseIfOwned live id slot
      state.updateId .subagentTask ids.taskId fun id live => releaseIfOwned live id slot
  | _ => state

def sharedSubagentSlot (ids : AgentTurnSubagentIds) : Option ℕ :=
  let tool := ids.toolId.bind (state.liveSlots .subagentTool).get?
  let task := ids.taskId.bind (state.liveSlots .subagentTask).get?
  if ids.toolId ≠ none ∧ tool = none then none
  else if ids.taskId ≠ none ∧ task = none then none
  else if tool ≠ none ∧ task ≠ none ∧ tool ≠ task then none
  else tool.or task

def placeEvent : AgentTurnSnapshotPlacement :=
  match agentTurnEventSupersession event with
  | .snapshot (.identity scope identity) =>
      ⟨event, (state.liveSlots (.keyed scope)).get? identity⟩
  | .snapshot (.subagentIds ids) =>
      let resolution := resolveAgentTurnSubagentIds state.aliases ids
      if ¬ resolution.canonical then ⟨event, none⟩
      else ⟨withAgentTurnSubagentIds event resolution.ids, state.sharedSubagentSlot resolution.ids⟩
  | _ => ⟨event, none⟩

end IndexState

inductive AgentTurnSnapshotIndex
  | inert
  | live (state : IndexState)

namespace AgentTurnSnapshotIndex

/-- `createAgentTurnSnapshotIndex`. -/
def create : AgentTurnSnapshotIndex := .live .create

def place : AgentTurnSnapshotIndex → AgentTurnEvent → AgentTurnSnapshotPlacement
  | .inert, event => ⟨event, none⟩
  | .live state, event => state.placeEvent event

def adopt : AgentTurnSnapshotIndex → AgentTurnEvent → ℕ → AgentTurnSnapshotIndex
  | .inert, _, _ => .inert
  | .live state, event, slot => .live (state.adoptEvent event slot)

def evict : AgentTurnSnapshotIndex → AgentTurnEvent → ℕ → AgentTurnSnapshotIndex
  | .inert, _, _ => .inert
  | .live state, event, slot => .live (state.evictEvent event slot)

end AgentTurnSnapshotIndex

end CodevoEditor.AgentEvents
