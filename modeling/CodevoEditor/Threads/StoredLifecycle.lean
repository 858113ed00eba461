/-
# The lifecycle a thread file keeps

`src/domain/agentSubagentLifecycleLegacy.ts`, `agentLifecyclePersistence.ts` and
`agentTurnLifecycleRestore.ts`: a thread file keeps a lifecycle in its first version, without
nested entries and without the details that came later (`persistedAgentSubagentLifecycle`); when
it is short of room only the last entry stays (`compactPersistedAgentSubagentLifecycle`).
-/

import CodevoEditor.AgentEvents.LifecycleWire

namespace CodevoEditor.Threads

open Js AgentEvents

def legacySubagentLifecycleRootKeys : List JsString := [js "entries", js "truncated"]

def legacySubagentLifecycleEntryKeys : List JsString :=
  [js "id", js "toolId", js "taskId", js "agentThreadId", js "name", js "description", js "state",
    js "telemetryState", js "resultState", js "durationMs", js "totalTokens", js "steps",
    js "lastToolName"]

/-- `readAgentSubagentLifecycle`: what the strict reader rejects is absent. -/
def readAgentSubagentLifecycle (value : JsValue) : Option AgentSubagentLifecycle :=
  match parseAgentSubagentLifecycle value with
  | .ok lifecycle => lifecycle
  | .error _ => none

def derivedState (entry : AgentSubagentLifecycleEntry) : AgentSubagentLifecycleState :=
  if entry.resultState = some .failed then .failed
  else if entry.telemetryState = some .failed then .failed
  else
    match entry.telemetryState, entry.resultState with
    | some state, _ => state
    | none, some .completed => .completed
    | none, some .failed => .failed
    | none, none => .running

def legacyEntry (entry : AgentSubagentLifecycleEntry) : AgentSubagentLifecycleEntry :=
  let legacy : AgentSubagentLifecycleEntry :=
    { entry with
      taskTitle := none
      batchKey := none
      nestedCount := none
      parentToolId := none
      model := none
      effort := none }
  { legacy with state := derivedState legacy }

def legacyAgentSubagentLifecycle (lifecycle : AgentSubagentLifecycle) : AgentSubagentLifecycle :=
  let entries := (lifecycle.entries.filter fun entry => entry.parentToolId = none).map legacyEntry
  { entries, truncated := lifecycle.truncated || entries.length ≠ lifecycle.entries.length }

def agentSubagentLifecycleHasRetainedDetail (lifecycle : AgentSubagentLifecycle) : Bool :=
  lifecycle.openBatchKey ≠ none || lifecycle.countedNestedToolIds ≠ none ||
    lifecycle.entries.any fun entry =>
      entry.model ≠ none || entry.effort ≠ none || entry.taskTitle ≠ none ||
        entry.batchKey ≠ none || entry.nestedCount ≠ none || entry.parentToolId ≠ none

def hasOnlyKeys (fields : List (JsString × JsValue)) (allowed : List JsString) : Bool :=
  (fields.map Prod.fst).all (· ∈ allowed)

def isLegacyAgentSubagentLifecycleShape : JsValue → Bool
  | .object root =>
      hasOnlyKeys root legacySubagentLifecycleRootKeys &&
        match fieldOf root (js "entries") with
        | .array entries =>
            entries.all fun entry =>
              match entry with
              | .object fields => hasOnlyKeys fields legacySubagentLifecycleEntryKeys
              | _ => false
        | _ => false
  | _ => false

def persistedAgentSubagentLifecycle (lifecycle : Option AgentSubagentLifecycle) :
    Option AgentSubagentLifecycle := do
  let validated ← readAgentSubagentLifecycle (legacyAgentSubagentLifecycle (← lifecycle)).toValue
  if isLegacyAgentSubagentLifecycleShape validated.toValue then some validated else none

/-- Both come from the strict reader, which lists fields in one order, so their
texts agree when they do. -/
def sameLegacyAgentSubagentLifecycle (left right : AgentSubagentLifecycle) : Bool :=
  match persistedAgentSubagentLifecycle (some left), persistedAgentSubagentLifecycle (some right) with
  | some first, some second => first = second
  | _, _ => false

def compactPersistedAgentSubagentLifecycle (lifecycle : AgentSubagentLifecycle) :
    Option AgentSubagentLifecycle := do
  let legacy ← persistedAgentSubagentLifecycle (some lifecycle)
  let last ← legacy.entries.getLast?
  some { entries := [last], truncated := true }

def restorableAgentTurnLifecycle (current : Option AgentSubagentLifecycle)
    (logged : AgentSubagentLifecycle) : Option AgentSubagentLifecycle := do
  let current ← current
  if agentSubagentLifecycleHasRetainedDetail current then none
  else
    let validated ← readAgentSubagentLifecycle logged.toValue
    let compacted := (compactPersistedAgentSubagentLifecycle validated).any fun compact =>
      sameLegacyAgentSubagentLifecycle current compact
    if compacted && !sameLegacyAgentSubagentLifecycle current validated then some validated
    else if !agentSubagentLifecycleHasRetainedDetail validated then none
    else if !sameLegacyAgentSubagentLifecycle current validated then none
    else some validated

end CodevoEditor.Threads
