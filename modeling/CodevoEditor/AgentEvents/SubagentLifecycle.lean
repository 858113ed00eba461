/-
# The lifecycle of subagents

`packages/agent-events/src/agentSubagentLifecycle.ts`: what stays known of the subagents of a turn
when its events are gone. An entry stands for one subagent under up to three aliases; entries that
turn out to be one are merged.
-/

import CodevoEditor.AgentEvents.Event
import CodevoEditor.Js.CodePoints
import CodevoEditor.Js.OrderedMap

namespace CodevoEditor.AgentEvents

open Js

def maxRuntimeSubagentTitleCharacters : ℕ := 120
def maxRetainedSubagents : ℕ := 32
def maxSubagentTaskTitleBytes : ℕ := maxRuntimeSubagentTitleCharacters * 4
def maxSubagentBatchKeyBytes : ℕ := 272
def maxSubagentParentToolIdBytes : ℕ := 256
def maxSubagentNestedCount : ℕ := 999
def maxSubagentCountedNestedIds : ℕ := 32
def maxSubagentModelBytes : ℕ := 64
def maxNestedAncestorDepth : ℕ := 8
def spawnBatchKeyPrefix : JsString := js "spawn:"

inductive AgentSubagentLifecycleState
  | running
  | completed
  | failed
  | interrupted
  deriving DecidableEq

/-- `"completed" | "failed"`. -/
inductive AgentSubagentResultState
  | completed
  | failed
  deriving DecidableEq

structure AgentSubagentLifecycleEntry where
  id : JsString
  toolId : Option JsString := none
  taskId : Option JsString := none
  agentThreadId : Option JsString := none
  name : JsString
  description : JsString
  state : AgentSubagentLifecycleState
  telemetryState : Option AgentSubagentLifecycleState := none
  resultState : Option AgentSubagentResultState := none
  durationMs : Option JsNumber := none
  totalTokens : Option JsNumber := none
  steps : Option JsNumber := none
  lastToolName : Option JsString := none
  taskTitle : Option JsString := none
  batchKey : Option JsString := none
  nestedCount : Option ℕ := none
  parentToolId : Option JsString := none
  model : Option JsString := none
  effort : Option AgentSubagentSpawnEffort := none
  deriving DecidableEq

structure AgentSubagentLifecycle where
  entries : List AgentSubagentLifecycleEntry
  truncated : Bool
  openBatchKey : Option JsString := none
  countedNestedToolIds : Option (List JsString) := none
  deriving DecidableEq

structure SubagentEventIdentity where
  toolId : Option JsString := none
  taskId : Option JsString := none
  agentThreadId : Option JsString := none

/-- The entries by their ids. -/
abbrev LifecycleEntries := OrderedMap JsString AgentSubagentLifecycleEntry

def validId (id : Option JsString) : Bool := id.any fun id => id ≠ [] && utf8ByteLength id ≤ 256

def spawn (name : JsString) : Bool :=
  name = js "Task" || name = js "Agent" || name = js "SpawnAgent" || name = js "spawn_agent"

/-- The names of a spawn tool that Codex acknowledges without a child. -/
def isSpawnAgent (name : JsString) : Bool := name = js "spawn_agent" || name = js "SpawnAgent"

def asyncLaunchAcknowledgementPrefix : JsString := js "Async agent launched"

def asyncLaunchAcknowledgementScanCharacters : ℕ := 64

def closesAgentSubagentSpawnBatch (event : AgentTurnEvent)
    (acknowledgesAsyncLaunch : ToolResultEvent → Bool) : Bool :=
  match event with
  | .toolCall event => event.parentToolId = none && !spawn event.name
  | .assistantText event => event.parentToolId = none && trim event.text ≠ []
  | .toolResult event => event.parentToolId = none && !acknowledgesAsyncLaunch event
  | .userMessage _ => true
  | .result _ => true
  | _ => false

def taskTitleOf (value : Option JsString) : Option JsString :=
  value.bind fun value =>
    let line := collapseWhiteSpace false (trim value)
    if line = [] then none else some (takeCodePoints maxRuntimeSubagentTitleCharacters line)

def backgroundTaskIdentity (event : BackgroundTaskEvent) : Option SubagentEventIdentity :=
  if event.status = .starting ∧ event.taskType = .agent then some { taskId := some event.taskId }
  else if event.status ≠ .stopped then none
  else if event.taskType ≠ .agent ∧ event.taskType ≠ .other then none
  else some { taskId := some event.taskId }

def subagentEventIdentity : AgentTurnEvent → Option SubagentEventIdentity
  | .toolCall event =>
      if event.parentToolId = none ∧ spawn event.name then some { toolId := some event.toolId }
      else none
  | .toolResult event =>
      if event.parentToolId = none then some { toolId := some event.toolId } else none
  | .subagent event => some { toolId := event.toolId, taskId := event.taskId }
  | .backgroundTask event => backgroundTaskIdentity event
  | .subagentActivity event => some { agentThreadId := some event.agentThreadId }
  | .subagentTurnDone event => some { agentThreadId := some event.agentThreadId }
  | _ => none

/-- The ancestor of a nested spawn that is nested itself no more, `depth` tools
up at most. -/
def nestedRootFrom (entries : LifecycleEntries) : ℕ → JsString → Option AgentSubagentLifecycleEntry
  | 0, _ => none
  | depth + 1, toolId =>
      (entries.values.find? fun entry => entry.toolId = some toolId).bind fun parent =>
        match parent.parentToolId with
        | none => some parent
        | some parentToolId => nestedRootFrom entries depth parentToolId

variable (entries : LifecycleEntries)

def nestedRoot (parentToolId : JsString) :
    Option AgentSubagentLifecycleEntry := nestedRootFrom entries maxNestedAncestorDepth parentToolId

/-- `counted` is a set: a map to `Unit`. -/
def rememberCountedNested (counted : OrderedMap JsString Unit) (toolId : JsString) : OrderedMap JsString Unit :=
  (counted.set toolId ()).keys.foldl (fun counted oldest =>
    if counted.size ≤ maxSubagentCountedNestedIds then counted else counted.delete oldest)
    (counted.set toolId ())

variable (entry : AgentSubagentLifecycleEntry)

def lifecycleState : AgentSubagentLifecycleState :=
  if entry.resultState = some .failed ∨ entry.telemetryState = some .failed then .failed
  else
    match entry.telemetryState, entry.resultState with
    | some state, _ => state
    | none, some .completed => .completed
    | none, some .failed => .failed
    | none, none => .running

/-- `{ ...entry, state: lifecycleState(entry) }`. -/
def settled : AgentSubagentLifecycleEntry :=
  { entry with state := lifecycleState entry }

def terminalOf (a b : Option AgentSubagentLifecycleState) : Option AgentSubagentLifecycleState :=
  if a = some .failed ∨ b = some .failed then some .failed
  else if a = some .interrupted ∨ b = some .interrupted then some .interrupted
  else if a = some .completed ∨ b = some .completed then some .completed
  else a.or b

def mergeAliases (first second : AgentSubagentLifecycleEntry) : AgentSubagentLifecycleEntry where
  id := first.id
  toolId := first.toolId.or second.toolId
  taskId := first.taskId.or second.taskId
  agentThreadId := first.agentThreadId.or second.agentThreadId
  name := first.name
  description := if first.description = [] then second.description else first.description
  state := first.state
  telemetryState := terminalOf first.telemetryState second.telemetryState
  resultState :=
    if first.resultState = some .failed ∨ second.resultState = some .failed then some .failed
    else first.resultState.or second.resultState
  durationMs := first.durationMs.or second.durationMs
  totalTokens := first.totalTokens.or second.totalTokens
  steps := first.steps.or second.steps
  lastToolName := first.lastToolName.or second.lastToolName
  taskTitle := first.taskTitle.or second.taskTitle
  batchKey := first.batchKey.or second.batchKey
  nestedCount := first.nestedCount.or second.nestedCount
  parentToolId := if first.parentToolId = second.parentToolId then first.parentToolId else none
  model := first.model.or second.model
  effort := first.effort.or second.effort

variable (identity : SubagentEventIdentity)

/-- The entry is known under an alias of the identity. -/
def SubagentEventIdentity.hits (entry : AgentSubagentLifecycleEntry) : Bool :=
  (identity.toolId ≠ none && entry.toolId = identity.toolId) ||
    (identity.taskId ≠ none && entry.taskId = identity.taskId) ||
    (identity.agentThreadId ≠ none && entry.agentThreadId = identity.agentThreadId)

/-- The entries without `aliases`, and `found` merged with all of them. -/
def absorbAliases (found : AgentSubagentLifecycleEntry)
    (aliases : List AgentSubagentLifecycleEntry) : LifecycleEntries × AgentSubagentLifecycleEntry :=
  aliases.foldl (fun absorbed entry => (absorbed.1.delete entry.id, mergeAliases absorbed.2 entry)) (entries, found)

def resolveAlias : LifecycleEntries × Option AgentSubagentLifecycleEntry :=
  match entries.values.filter identity.hits with
  | [] => (entries, none)
  | first :: aliases =>
      let absorbed := absorbAliases entries first aliases
      (absorbed.1.set absorbed.2.id absorbed.2, some absorbed.2)

def rootSubagentByToolId (toolId : JsString) : Option AgentSubagentLifecycleEntry :=
  entries.values.find? fun entry => entry.toolId = some toolId && entry.parentToolId = none

def isAsyncLaunchAcknowledgementText (outputSummary : JsString) : Bool :=
  asyncLaunchAcknowledgementPrefix.isPrefixOf
    (trimStart (outputSummary.take asyncLaunchAcknowledgementScanCharacters))

def acknowledgesAsyncLaunch (result : ToolResultEvent) : Bool :=
  if result.isError then false
  else
    match rootSubagentByToolId entries result.toolId with
    | none => false
    | some entry =>
        if entry.telemetryState = some .running then true
        else if entry.telemetryState ≠ none then false
        else isAsyncLaunchAcknowledgementText result.outputSummary

def spawnBatchKey (toolId : Option JsString) : Option JsString :=
  if validId toolId then toolId.map (spawnBatchKeyPrefix ++ ·) else none

inductive NestedSpawnOutcome
  | retained
  | skipped
  | truncated
  deriving DecidableEq

/-- `event.description ?? event.inputSummary`. -/
def ToolCallEvent.summary (event : ToolCallEvent) : JsString :=
  event.description.getD event.inputSummary

def retainNestedSpawn (counted : OrderedMap JsString Unit)
    (event : ToolCallEvent) (parentToolId : JsString) :
    LifecycleEntries × OrderedMap JsString Unit × NestedSpawnOutcome :=
  if !validId (some event.toolId) || !validId (some parentToolId) then (entries, counted, .skipped)
  else
    let resolved := resolveAlias entries { toolId := some event.toolId }
    let entries := resolved.1
    let existing := resolved.2
    if (existing.bind (·.parentToolId)) ≠ none then (entries, counted, .retained)
    else if counted.has event.toolId then (entries, counted, .retained)
    else
      match nestedRoot entries parentToolId with
      | none => (entries, counted, .skipped)
      | some root =>
          if existing.map (·.id) = some root.id then (entries, counted, .retained)
          else
            let entries := entries.set root.id { root with
              nestedCount := some (min maxSubagentNestedCount (root.nestedCount.getD 0 + 1)) }
            let description := clipUtf8 event.summary 512
            let taskTitle := (existing.bind (·.taskTitle)).or (taskTitleOf (some event.summary))
            match existing with
            | some existing =>
                (entries.set existing.id { existing with
                  parentToolId := some parentToolId
                  description :=
                    if existing.description = [] then description else existing.description
                  taskTitle := taskTitle.or existing.taskTitle }, counted, .retained)
            | none =>
                if maxRetainedSubagents ≤ entries.size then
                  (entries, rememberCountedNested counted event.toolId, .truncated)
                else
                  (entries.set (js "tool:" ++ event.toolId)
                    { id := js "tool:" ++ event.toolId
                      toolId := some event.toolId
                      parentToolId := some parentToolId
                      name := clipUtf8 event.name 128
                      description
                      state := .running
                      taskTitle }, counted, .retained)

variable (event : AgentSubagentSpawnEvent)

def spawnDetails (batchKey : Option JsString) (receiverless : Bool) : AgentSubagentLifecycleEntry :=
  let model := entry.model.or (event.model.map fun model => clipUtf8 model maxSubagentModelBytes)
  let live : Bool := entry.telemetryState.getD .running = .running
  let telemetryState :=
    if event.status = .failed then some .failed
    else if event.status = .interrupted ∧ live then some .interrupted
    else if event.status = .completed ∧ receiverless ∧ entry.agentThreadId = none ∧ live then
      some .completed
    else entry.telemetryState
  settled { entry with
    taskTitle := entry.taskTitle.or (taskTitleOf event.taskTitle)
    batchKey := entry.batchKey.or batchKey
    model := if model = none ∨ model = some [] then entry.model else model
    effort := entry.effort.or event.reasoningEffort
    telemetryState }

/-- The identities of a spawn: its call and its first receiver are one. -/
def spawnTargets (receivers : List JsString) : List SubagentEventIdentity :=
  if receivers.length = 0 then [{ toolId := some event.callId }]
  else receivers.zipIdx.map fun receiver =>
    if receiver.2 = 0 then
      { toolId := some event.callId, agentThreadId := some receiver.1 }
    else { agentThreadId := some receiver.1 }

/-- One target of a spawn; the flag says that there was no room for it. -/
def retainSpawnTarget (batchKey : Option JsString)
    (receiverless : Bool) (retained : LifecycleEntries × Bool) (identity : SubagentEventIdentity) :
    LifecycleEntries × Bool :=
  let childName := identity.agentThreadId.bind fun agentThreadId =>
    (retained.1.values.find? fun entry => entry.agentThreadId = some agentThreadId).map (·.name)
  let resolved := resolveAlias retained.1 identity
  if resolved.2 = none ∧ maxRetainedSubagents ≤ resolved.1.size then (resolved.1, true)
  else
    let base := resolved.2.getD
      { id :=
          match identity.agentThreadId with
          | none => js "tool:" ++ event.callId
          | some agentThreadId => js "thread:" ++ agentThreadId
        name := js "subagent"
        description := []
        state := .running }
    let named := { base with
      name := childName.getD base.name
      toolId := identity.toolId.or base.toolId
      taskId := identity.taskId.or base.taskId
      agentThreadId := identity.agentThreadId.or base.agentThreadId }
    let next := spawnDetails named event batchKey receiverless
    (resolved.1.set next.id next, retained.2)

def retainSpawn (openBatchKey : Option JsString) : LifecycleEntries × Option JsString × Bool :=
  if !validId (some event.callId) then (entries, openBatchKey, false)
  else
    let batchKey := openBatchKey.or (spawnBatchKey (some event.callId))
    let receivers := event.agentThreadIds.filter fun id => validId (some id)
    let retained := (spawnTargets event receivers).foldl
      (retainSpawnTarget event batchKey (receivers.length = 0)) (entries, false)
    (retained.1, batchKey, retained.2)

/-- `...(validId(toolId) ? { toolId } : {})` and so on: valid ids are taken over. -/
def withValidIds : AgentSubagentLifecycleEntry :=
  { entry with
    toolId := if validId identity.toolId then identity.toolId else entry.toolId
    taskId := if validId identity.taskId then identity.taskId else entry.taskId
    agentThreadId :=
      if validId identity.agentThreadId then identity.agentThreadId else entry.agentThreadId }

/-- The id of a new entry. -/
def newEntryKey : Option JsString :=
  if validId identity.toolId then identity.toolId.map (js "tool:" ++ ·)
  else if validId identity.taskId then identity.taskId.map (js "task:" ++ ·)
  else if validId identity.agentThreadId then identity.agentThreadId.map (js "thread:" ++ ·)
  else none

/-- The title that the start of a subagent or of a task gives it. -/
def withStartTitle (description : Option JsString) : AgentSubagentLifecycleEntry :=
  { entry with taskTitle := entry.taskTitle.or (taskTitleOf description) }

def afterBackgroundTask (event : BackgroundTaskEvent) : AgentSubagentLifecycleEntry :=
  let entry := if event.status = .starting then withStartTitle entry event.description else entry
  if event.status = .stopped ∧
      (entry.telemetryState = none ∨ entry.telemetryState = some .running) then
    { entry with telemetryState := some .interrupted }
  else entry

/-- `event.status === "starting" ? "running" : event.status`. -/
def nextTelemetry : AgentSubagentEventStatus → AgentSubagentLifecycleState
  | .starting => .running
  | .running => .running
  | .completed => .completed
  | .failed => .failed

def afterSubagent (event : SubagentEvent) : AgentSubagentLifecycleEntry :=
  let entry := if event.status = .starting then withStartTitle entry event.description else entry
  let next := nextTelemetry event.status
  { entry with
    telemetryState :=
      if entry.telemetryState = some .failed then some .failed
      else if (entry.telemetryState = some .completed ∨ entry.telemetryState = some .interrupted) ∧
          next = .running then entry.telemetryState
      else some next
    name := (event.subagentType.map fun subagentType => clipUtf8 subagentType 128).getD entry.name
    description :=
      (event.description.map fun description => clipUtf8 description 512).getD entry.description
    durationMs := event.durationMs.or entry.durationMs
    totalTokens := event.totalTokens.or entry.totalTokens
    steps := event.toolUses.or entry.steps
    lastToolName :=
      (event.lastToolName.map fun lastToolName => clipUtf8 lastToolName 128).or entry.lastToolName }

def afterActivity (event : SubagentActivityEvent) : AgentSubagentLifecycleEntry :=
  let next : AgentSubagentLifecycleState :=
    match event.activity with
    | .completed => .completed
    | .interrupted => .interrupted
    | _ => .running
  { entry with
    telemetryState :=
      if event.activity = .interacted ∨ entry.telemetryState = none ∨
          entry.telemetryState = some .running then some next
      else entry.telemetryState
    name := clipUtf8 (if event.agentPath = [] then js "subagent" else event.agentPath) 128 }

def afterTurnDone (event : SubagentTurnDoneEvent) : AgentSubagentLifecycleEntry :=
  { entry with
    telemetryState := some (if event.isError then .failed else .completed)
    durationMs := event.durationMs.or entry.durationMs }

def afterToolResult (event : ToolResultEvent) : AgentSubagentLifecycleEntry :=
  if entry.resultState = none then
    { entry with resultState := some (if event.isError then .failed else .completed) }
  else entry

/-- The batch that is open after a call of a spawn tool. -/
def openBatchAfter (event : ToolCallEvent) (openBatchKey : Option JsString) : Option JsString :=
  if entry.batchKey = none then openBatchKey.or (spawnBatchKey (some event.toolId))
  else openBatchKey

def afterToolCall (event : ToolCallEvent) (openBatchKey : Option JsString) : AgentSubagentLifecycleEntry :=
  { entry with
    name := clipUtf8 event.name 128
    description := clipUtf8 event.summary 512
    taskTitle := entry.taskTitle.or (taskTitleOf (some event.summary))
    batchKey := entry.batchKey.or openBatchKey }

/-- An entry after an event about it, and the batch that is open then. -/
def entryAfter (event : AgentTurnEvent) (entry : AgentSubagentLifecycleEntry)
    (openBatchKey : Option JsString) : AgentSubagentLifecycleEntry × Option JsString :=
  match event with
  | .toolCall event =>
      let openBatchKey := openBatchAfter entry event openBatchKey
      (afterToolCall entry event openBatchKey, openBatchKey)
  | .toolResult event => (afterToolResult entry event, openBatchKey)
  | .backgroundTask event => (afterBackgroundTask entry event, openBatchKey)
  | .subagent event => (afterSubagent entry event, openBatchKey)
  | .subagentActivity event => (afterActivity entry event, openBatchKey)
  | .subagentTurnDone event => (afterTurnDone entry event, openBatchKey)
  | _ => (entry, openBatchKey)

/-- An event that starts no entry: a result, or a task that was not an agent or
is not stopped. -/
def startsNoEntry : AgentTurnEvent → Bool
  | .toolResult _ => true
  | .backgroundTask event => event.taskType ≠ .agent || event.status ≠ .stopped
  | _ => false

/-- The variables of the loop. -/
structure LifecycleTable where
  entries : LifecycleEntries := .empty
  counted : OrderedMap JsString Unit := .empty
  truncated : Bool := false
  openBatchKey : Option JsString := none
  changed : Bool := false

namespace LifecycleTable

variable (table : LifecycleTable) (event : AgentTurnEvent)

def closeBatch : LifecycleTable :=
  if table.openBatchKey ≠ none ∧
      closesAgentSubagentSpawnBatch event (acknowledgesAsyncLaunch table.entries) then
    { table with openBatchKey := none, changed := true }
  else table

/-- What an event says about a subagent that `identity` names. -/
def retainIdentified (identity : SubagentEventIdentity) : LifecycleTable :=
  let resolved := resolveAlias table.entries identity
  let found := resolved.2
  let table := { table with entries := resolved.1 }
  if found = none ∧ startsNoEntry event then table
  else
    match (found.map (·.id)).or (newEntryKey identity) with
    | none => { table with changed := true }
    | some key =>
        if found = none ∧ maxRetainedSubagents ≤ table.entries.size then
          { table with truncated := true, changed := true }
        else
          let base := found.getD
            { id := key
              name := js "subagent"
              description := []
              state := .running }
          let after := entryAfter event (withValidIds base identity) table.openBatchKey
          { table with
            entries := table.entries.set key (settled after.1)
            openBatchKey := after.2
            changed := true }

/-- Entries of spawn tools go once a child thread speaks for itself. -/
def dropSpawnTools (entries : LifecycleEntries) : LifecycleEntries :=
  entries.entries.foldl (fun kept entry =>
    if isSpawnAgent entry.2.name then kept.delete entry.1 else kept) entries

/-- A call of a spawn tool is an acknowledgement only, next to child threads. -/
def acknowledgesSpawn (entries : LifecycleEntries) : AgentTurnEvent → Bool
  | .toolCall event =>
      isSpawnAgent event.name && entries.values.any fun entry => entry.agentThreadId ≠ none
  | _ => false

def retainAbout : LifecycleTable :=
  let table :=
    match event with
    | .subagentActivity _ => { table with entries := dropSpawnTools table.entries }
    | .subagentTurnDone _ => { table with entries := dropSpawnTools table.entries }
    | _ => table
  if acknowledgesSpawn table.entries event then table
  else
    match subagentEventIdentity event with
    | none => table
    | some identity => table.retainIdentified event identity

def retainNested (event : ToolCallEvent) (parentToolId : JsString) : LifecycleTable :=
  let retained := retainNestedSpawn table.entries table.counted event parentToolId
  { table with
    entries := retained.1
    counted := retained.2.1
    truncated := table.truncated || retained.2.2 = .truncated
    changed := true }

def retainSpawnEvent (event : AgentSubagentSpawnEvent) : LifecycleTable :=
  let retained := retainSpawn table.entries event table.openBatchKey
  { table with
    entries := retained.1
    openBatchKey := retained.2.1
    truncated := table.truncated || retained.2.2
    changed := true }

/-- The call of a spawn tool by a child, and its parent. -/
def nestedSpawnOf : AgentTurnEvent → Option (ToolCallEvent × JsString)
  | .toolCall event => if spawn event.name then event.parentToolId.map (event, ·) else none
  | _ => none

def step : LifecycleTable :=
  let table := table.closeBatch event
  match event with
  | .subagentSpawn event => table.retainSpawnEvent event
  | event =>
      match nestedSpawnOf event with
      | some (event, parentToolId) => table.retainNested event parentToolId
      | none => table.retainAbout event

/-- The loop's variables before the first event. -/
def start (previous : Option AgentSubagentLifecycle) : LifecycleTable where
  entries := ((previous.map (·.entries)).getD []).foldl (fun entries entry => entries.set entry.id entry) .empty
  counted := ((previous.bind (·.countedNestedToolIds)).getD []).foldl
    (fun counted toolId => counted.set toolId ()) .empty
  truncated := (previous.map (·.truncated)).getD false
  openBatchKey := previous.bind (·.openBatchKey)

/-- What the variables are written out as. -/
def lifecycle : AgentSubagentLifecycle where
  entries := table.entries.values
  truncated := table.truncated
  openBatchKey := table.openBatchKey
  countedNestedToolIds := if table.counted.size = 0 then none else some table.counted.keys

end LifecycleTable

def retainAgentSubagentLifecycle (previous : Option AgentSubagentLifecycle)
    (events : List AgentTurnEvent) : Option AgentSubagentLifecycle :=
  let table := events.foldl LifecycleTable.step (LifecycleTable.start previous)
  if !table.changed then previous else some table.lifecycle

end CodevoEditor.AgentEvents
