/-
# Agent turn events

`packages/agent-events/src/agentTurnEvent.ts`, `agentSubagentSpawn.ts`, `agentAttachment.ts` and
`agentProvider.ts`.

A field declared `x?: T` or `x: T | null` is an `Option`: the code never tells an absent key from
one that holds `undefined`. A field that is both is an `Option` of an `Option`.
-/

import CodevoEditor.Js.Value

namespace CodevoEditor.AgentEvents

open Js

inductive AgentTaskOutputStream
  | stdout
  | stderr
  deriving DecidableEq

inductive AgentCliKind
  | claudeCode
  | codex
  deriving DecidableEq

structure AgentAppServerTokenBreakdown where
  inputTokens : JsNumber
  cachedInputTokens : JsNumber
  cacheWriteInputTokens : JsNumber
  outputTokens : JsNumber
  reasoningOutputTokens : JsNumber
  totalTokens : JsNumber
  deriving DecidableEq

structure AgentAppServerUsage where
  last : AgentAppServerTokenBreakdown
  total : AgentAppServerTokenBreakdown
  contextWindow : Option JsNumber
  deriving DecidableEq

/-- `AgentTurnUsage`; `threadScope` is `scope?: "thread"`. -/
structure AgentTurnUsage where
  threadScope : Bool := false
  appServerUsage : Option AgentAppServerUsage := none
  cachedInputTokens : Option (Option JsNumber) := none
  reasoningOutputTokens : Option (Option JsNumber) := none
  inputTokens : JsNumber
  outputTokens : JsNumber
  costUsd : Option (Option JsNumber) := none
  contextTokens : Option JsNumber
  deriving DecidableEq

inductive AgentImageMime
  | png
  | jpeg
  | gif
  | webp
  deriving DecidableEq

structure AgentRemoteAttachment where
  serverId : JsString
  attachmentId : JsString
  deriving DecidableEq

/-- Where the bytes of an image or a file are: exactly one of `storedPath` and
`remote`. -/
inductive AgentAttachmentSource
  | storedPath (path : JsString)
  | remote (attachment : AgentRemoteAttachment)
  deriving DecidableEq

inductive AgentAttachment
  | image (attachmentId name : JsString) (mime : AgentImageMime) (bytes width height : JsNumber)
      (source : AgentAttachmentSource)
  | file (attachmentId name : JsString) (bytes : JsNumber) (source : AgentAttachmentSource)
  | reference (name path : JsString) (bytes : JsNumber)
  deriving DecidableEq

inductive BackgroundTaskStatus
  | starting
  | running
  | completed
  | failed
  | stopped
  deriving DecidableEq

inductive BackgroundTaskType
  | monitor
  | shell
  | agent
  | other
  deriving DecidableEq

structure BackgroundTaskEvent where
  taskId : JsString
  status : BackgroundTaskStatus
  taskType : BackgroundTaskType
  description : Option JsString := none
  deriving DecidableEq

inductive SubagentActivity
  | started
  | interacted
  | interrupted
  | completed
  deriving DecidableEq

structure SubagentActivityEvent where
  agentThreadId : JsString
  agentPath : JsString
  activity : SubagentActivity
  deriving DecidableEq

inductive AgentSubagentSpawnStatus
  | inProgress
  | completed
  | failed
  | interrupted
  deriving DecidableEq

inductive AgentSubagentSpawnEffort
  | none
  | minimal
  | low
  | medium
  | high
  | xhigh
  deriving DecidableEq

structure AgentSubagentSpawnEvent where
  callId : JsString
  status : AgentSubagentSpawnStatus
  taskTitle : Option JsString
  model : Option JsString
  reasoningEffort : Option AgentSubagentSpawnEffort
  agentThreadIds : List JsString
  deriving DecidableEq

structure SubagentUsageEvent where
  agentThreadId : JsString
  usage : AgentTurnUsage
  deriving DecidableEq

structure SubagentTurnDoneEvent where
  agentThreadId : JsString
  durationMs : Option JsNumber
  isError : Bool
  deriving DecidableEq

structure QueuedEvent where
  threadId : JsString
  clientUserMessageId : Option JsString
  deriving DecidableEq

/-- The payload of `assistantText` and of `reasoning`. -/
structure AgentTextEvent where
  text : JsString
  parentToolId : Option JsString := none
  deriving DecidableEq

structure UserMessageEvent where
  remoteMessageId : Option JsString := none
  text : JsString
  attachments : Option (List AgentAttachment) := none
  deriving DecidableEq

structure ToolCallEvent where
  toolId : JsString
  name : JsString
  inputSummary : JsString
  description : Option JsString := none
  parentToolId : Option JsString := none
  deriving DecidableEq

structure ToolResultEvent where
  toolId : JsString
  outputSummary : JsString
  isError : Bool
  parentToolId : Option JsString := none
  deriving DecidableEq

inductive AgentSubagentEventStatus
  | starting
  | running
  | completed
  | failed
  deriving DecidableEq

structure SubagentEvent where
  status : AgentSubagentEventStatus
  toolId : Option JsString := none
  taskId : Option JsString := none
  subagentType : Option JsString := none
  description : Option JsString := none
  durationMs : Option JsNumber := none
  totalTokens : Option JsNumber := none
  toolUses : Option JsNumber := none
  lastToolName : Option JsString := none
  deriving DecidableEq

structure ResultEvent where
  durationMs : Option (Option JsNumber) := none
  text : JsString
  isError : Bool
  usage : Option AgentTurnUsage
  deriving DecidableEq

structure ContextCompactionEvent where
  beforeTokens : Option JsNumber
  afterTokens : Option JsNumber
  deriving DecidableEq

inductive ContextCompactionStatus
  | compacting
  | idle
  | failed
  deriving DecidableEq

structure ContextCompactionStatusEvent where
  status : ContextCompactionStatus
  message : Option JsString
  deriving DecidableEq

structure ContextUsageEvent where
  observedAtEpochMs : Option JsNumber := none
  model : JsString
  inputTokens : Option JsNumber
  contextWindow : Option JsNumber
  deriving DecidableEq

structure UnknownLineEvent where
  stream : AgentTaskOutputStream
  raw : JsString
  clipped : Bool
  deriving DecidableEq

/-- `AgentSubagentContentEvent`: what a child agent's event can hold. -/
inductive AgentSubagentContentEvent
  | assistantText (event : AgentTextEvent)
  | reasoning (event : AgentTextEvent)
  | toolCall (event : ToolCallEvent)
  | toolResult (event : ToolResultEvent)
  deriving DecidableEq

inductive AgentTurnEvent
  | backgroundTask (event : BackgroundTaskEvent)
  | subagentActivity (event : SubagentActivityEvent)
  | subagentEvent (agentThreadId : JsString) (event : AgentSubagentContentEvent)
  | subagentSpawn (event : AgentSubagentSpawnEvent)
  | subagentUsage (event : SubagentUsageEvent)
  | subagentTurnDone (event : SubagentTurnDoneEvent)
  | queued (event : QueuedEvent)
  | assistantText (event : AgentTextEvent)
  | reasoning (event : AgentTextEvent)
  | userMessage (event : UserMessageEvent)
  | toolCall (event : ToolCallEvent)
  | toolResult (event : ToolResultEvent)
  | subagent (event : SubagentEvent)
  | result (event : ResultEvent)
  | contextCompaction (event : ContextCompactionEvent)
  | contextCompactionStatus (event : ContextCompactionStatusEvent)
  | contextUsage (event : ContextUsageEvent)
  | error (message : JsString)
  | unknownLine (event : UnknownLineEvent)
  deriving DecidableEq

/-- The `agentThreadId` of an event, of the kinds that carry one:
`"agentThreadId" in event`. -/
def AgentTurnEvent.agentThreadId? : AgentTurnEvent → Option JsString
  | .subagentActivity event => some event.agentThreadId
  | .subagentEvent agentThreadId _ => some agentThreadId
  | .subagentUsage event => some event.agentThreadId
  | .subagentTurnDone event => some event.agentThreadId
  | _ => none

/-- `event.kind === "userMessage"`. -/
def AgentTurnEvent.isUserMessage : AgentTurnEvent → Bool
  | .userMessage _ => true
  | _ => false

end CodevoEditor.AgentEvents
