/-
# Background tasks of the Claude stream

`packages/agent-events/src/agentOutput/claudeMonitorTasks.ts` and
`claudeSubagentClassification.ts`: a task that a `Monitor` call started is a monitor, and
untyped updates of a task that is known to be none of an agent's are left out.
-/

import CodevoEditor.AgentEvents.Event
import CodevoEditor.Js.OrderedMap

namespace CodevoEditor.AgentOutput

open Js AgentEvents

def maxPendingMonitorCalls : ℕ := 64
def maxMonitorTasks : ℕ := 256

/-- Two sets of ids. -/
structure ClaudeMonitorTasks where
  calls : OrderedMap JsString Unit := .empty
  tasks : OrderedMap JsString Unit := .empty
  deriving DecidableEq

/-- A frame: the fields of an object. -/
abbrev Frame := List (JsString × JsValue)

def isRootMonitorCall (event : ToolCallEvent) : Bool :=
  event.name = js "Monitor" && event.parentToolId = none

def concernsMonitors : AgentTurnEvent → Bool
  | .backgroundTask _ => true
  | .toolCall event => isRootMonitorCall event
  | _ => false

/-- `JSON.parse` gave an object that no tool is the parent of. -/
def rootFrame (parsed : Option JsValue) : Option Frame :=
  match parsed with
  | some (.object frame) =>
      match fieldOf frame (js "parent_tool_use_id") with
      | .undefined => some frame
      | .null => some frame
      | _ => none
  | _ => none

def isString (value : JsValue) (text : JsString) : Bool :=
  match value with
  | .string other => other = text
  | _ => false

def startingToolUseId (root : Option Frame) (taskId : JsString) : Option JsString :=
  root.bind fun root =>
    if !isString (fieldOf root (js "subtype")) (js "task_started") ||
        !isString (fieldOf root (js "task_id")) taskId then none
    else
      match fieldOf root (js "tool_use_id") with
      | .string toolUseId => some toolUseId
      | _ => none

def rememberCall (calls : OrderedMap JsString Unit) (event : ToolCallEvent) : OrderedMap JsString Unit :=
  if isRootMonitorCall event then
    let calls := (calls.delete event.toolId).set event.toolId ()
    calls.keys.foldl (fun calls oldest =>
      if calls.size ≤ maxPendingMonitorCalls then calls else calls.delete oldest) calls
  else calls

def taskEnded : BackgroundTaskStatus → Bool
  | .completed => true
  | .failed => true
  | .stopped => true
  | .starting => false
  | .running => false

def classifiedTask (state : ClaudeMonitorTasks) (root : Option Frame) (event : BackgroundTaskEvent) :
    ClaudeMonitorTasks × BackgroundTaskEvent :=
  if state.tasks.has event.taskId then
    ({ state with
        tasks := if taskEnded event.status then state.tasks.delete event.taskId else state.tasks },
      { event with taskType := .monitor })
  else if event.status ≠ .starting ∨ state.calls.size = 0 then (state, event)
  else if maxMonitorTasks ≤ state.tasks.size then (state, event)
  else
    match startingToolUseId root event.taskId with
    | none => (state, event)
    | some call =>
        if state.calls.has call then
          (⟨state.calls.delete call, state.tasks.set event.taskId ()⟩, { event with taskType := .monitor })
        else (state, event)

/-- One event of a line. -/
def classifyMonitorEvent (root : Option Frame)
    (classified : ClaudeMonitorTasks × List AgentTurnEvent) (event : AgentTurnEvent) :
    ClaudeMonitorTasks × List AgentTurnEvent :=
  match event with
  | .toolCall call =>
      (if root = none then classified.1
        else { classified.1 with calls := rememberCall classified.1.calls call },
        classified.2 ++ [event])
  | .backgroundTask task =>
      let step := classifiedTask classified.1 root task
      (step.1, classified.2 ++ [.backgroundTask step.2])
  | event => (classified.1, classified.2 ++ [event])

def classifyClaudeMonitorTasks (previous : Option ClaudeMonitorTasks) (parsed : Option JsValue)
    (events : List AgentTurnEvent) : Option ClaudeMonitorTasks × List AgentTurnEvent :=
  if !events.any concernsMonitors then (previous, events)
  else
    let classified := events.foldl (classifyMonitorEvent (rootFrame parsed)) (previous.getD {}, [])
    (some classified.1, classified.2)

def maxNonAgentTasks : ℕ := 512

structure ClaudeSubagentClassification where
  nonAgentTaskIds : OrderedMap JsString Unit := .empty
  full : Bool := false
  deriving DecidableEq

def rememberNonAgentTask (state : ClaudeSubagentClassification) :
    AgentTurnEvent → ClaudeSubagentClassification
  | .backgroundTask event =>
      if event.taskType ≠ .shell ∧ event.taskType ≠ .monitor then state
      else if state.nonAgentTaskIds.has event.taskId then state
      else if maxNonAgentTasks ≤ state.nonAgentTaskIds.size then { state with full := true }
      else { state with nonAgentTaskIds := state.nonAgentTaskIds.set event.taskId () }
  | _ => state

/-- The tasks that the events themselves call agents. -/
def explicitAgents (events : List AgentTurnEvent) : List JsString :=
  events.filterMap fun event =>
    match event with
    | .backgroundTask event => if event.taskType = .agent then some event.taskId else none
    | _ => none

def mayBeAgent (state : ClaudeSubagentClassification) (agents : List JsString) :
    AgentTurnEvent → Bool
  | .subagent event =>
      match event.taskId with
      | none => true
      | some taskId => taskId ∈ agents || (!state.full && !state.nonAgentTaskIds.has taskId)
  | _ => true

def classificationLimitNotice : AgentTurnEvent :=
  .unknownLine { stream := .stdout
                 raw := js "<subagent task classification limit reached; untyped updates omitted>"
                 clipped := true }

def classifyClaudeSubagentTelemetry (previous : Option ClaudeSubagentClassification)
    (events : List AgentTurnEvent) : ClaudeSubagentClassification × List AgentTurnEvent :=
  let state := events.foldl rememberNonAgentTask (previous.getD {})
  (state, events.filter (mayBeAgent state (explicitAgents events)) ++
    if state.full && (previous.map (·.full)) ≠ some true then [classificationLimitNotice] else [])

end CodevoEditor.AgentOutput
