/-
# Agent threads

`src/domain/agentThread.ts` and the types it is made of: a thread belongs to an owner, runs a
provider in a place, and is a list of turns.

Epoch times, sequences and offsets are integers, sort orders are doubles. A field declared `x?:
T | null` is an `Option` of an `Option`.
-/

import CodevoEditor.AgentEvents.SubagentLifecycle
import CodevoEditor.AgentOutput.Parser

namespace CodevoEditor.Threads

open Js AgentEvents AgentOutput

def maxAgentThreadsPerRoot : ℕ := 64
def maxAgentTurnsPerThread : ℕ := 64

inductive AgentTaskIsolation
  | worktree
  | inPlace
  deriving DecidableEq

inductive AgentTaskStatus
  | pending
  | running
  | exited (exitCode : ℤ)
  | failed (message : JsString)
  | stopped
  deriving DecidableEq

inductive AgentTurnStatus
  | task (status : AgentTaskStatus)
  | interrupted
  deriving DecidableEq

structure AgentTaskStatusEvent where
  taskId : JsString
  workspaceId : JsString
  repositoryRoot : JsString
  isolation : AgentTaskIsolation
  worktreePath : Option JsString
  sequence : ℤ
  status : AgentTaskStatus

inductive ClaudePermissionMode
  | default
  | plan
  | supervised
  | acceptEdits
  | auto
  | bypassPermissions

inductive ClaudeEffortChoice
  | default
  | low
  | medium
  | high
  | xhigh
  | max
  | ultracode
  | ultrathink

inductive ClaudeContextChoice
  | k200
  | m1

inductive CodexExecutionMode
  | default
  | readOnly
  | workspaceWrite
  | auto
  | dangerFullAccess

inductive CodexEffortChoice
  | default
  | none
  | minimal
  | low
  | medium
  | high
  | xhigh
  | max
  | ultra

structure ClaudeLaunchOptions where
  model : JsString
  mode : ClaudePermissionMode
  effort : ClaudeEffortChoice
  context : Option ClaudeContextChoice := none
  fastMode : Option Bool := none
  thinkingMode : Option Bool := none
  chrome : Option Bool := none

structure CodexLaunchOptions where
  model : JsString
  mode : CodexExecutionMode
  effort : Option CodexEffortChoice := none

inductive AgentLaunchOptions
  | claudeCode (options : ClaudeLaunchOptions)
  | codex (options : CodexLaunchOptions)

inductive AgentTurnHaltSource
  | composerStopButton
  | composerEscape
  | stopConfirmationBanner
  | sessionDock
  | threadMenu
  deriving DecidableEq

inductive AgentTurnHaltEscalationSource
  | source (source : AgentTurnHaltSource)
  | interruptRefused
  deriving DecidableEq

inductive AgentTurnHaltMode
  | softInterrupt
  | hardStop
  deriving DecidableEq

inductive AgentTurnHaltTrigger
  | ui (source : AgentTurnHaltSource)
  | interruptRefused (source : AgentTurnHaltSource)

structure AgentTurnHaltEscalation where
  source : AgentTurnHaltEscalationSource
  requestedAtEpochMs : ℤ
  deriving DecidableEq

structure AgentTurnHaltRecord where
  source : AgentTurnHaltSource
  mode : AgentTurnHaltMode
  requestedAtEpochMs : ℤ
  escalation : Option AgentTurnHaltEscalation := none
  deriving DecidableEq

inductive AgentTurnEventsRetention
  | serverGap
  | clientWindow

inductive AgentTurnOrigin
  | background
  deriving DecidableEq

structure AgentTurnStreamMetrics where
  receivedUtf8Bytes : ℤ
  complete : Bool

structure AgentTurn where
  codexTransport : Option CodexTransport := none
  origin : Option AgentTurnOrigin := none
  turnId : JsString
  prompt : JsString
  status : AgentTurnStatus
  startedAtEpochMs : ℤ
  endedAtEpochMs : Option ℤ
  events : List AgentTurnEvent
  eventsTruncated : Bool
  eventsRetention : Option AgentTurnEventsRetention := none
  lastStatusSequence : ℤ
  lastOutputSequence : ℤ
  queueBoundarySequence : Option ℤ := none
  promptRestored : Option Bool := none
  haltRequested : Option Bool := none
  haltRequest : Option AgentTurnHaltRecord := none
  foregroundSettled : Option Bool := none
  firstEventOffset : Option ℤ := none
  subagentLifecycle : Option AgentSubagentLifecycle := none
  streamMetrics : Option (Option AgentTurnStreamMetrics) := none
  launch : Option AgentLaunchOptions
  cliVersion : Option JsString
  attachments : Option (List AgentAttachment) := none

structure AgentThreadOwner where
  rootKey : JsString
  ownerId : JsString
  repositoryRoot : JsString
  deriving DecidableEq

structure AgentThreadTarget where
  isolation : AgentTaskIsolation
  worktreePath : Option JsString

structure AgentProviderSession where
  kind : AgentCliKind
  sessionId : Option JsString

inductive GitIntegrationMode
  | fastForward
  | merge

structure AgentThreadPushReceipt where
  remote : JsString
  branch : JsString

structure AgentThreadIntegrationReceipt where
  intoBranch : JsString
  mergeSha : JsString
  mode : GitIntegrationMode

structure AgentThreadIntegration where
  lastCommitSha : Option JsString
  pushed : Option AgentThreadPushReceipt
  integrated : Option AgentThreadIntegrationReceipt
  branchDeleted : Bool

inductive ExternalSessionAttachment
  | image (mime : AgentImageMime) (name path : Option JsString)
  | file (name : JsString) (path : Option JsString)

inductive ExternalSessionExchangeRole
  | user
  | assistant

structure ExternalSessionExchange where
  role : ExternalSessionExchangeRole
  text : JsString
  attachments : Option (List ExternalSessionAttachment) := none

/-- `ExternalAgentSessionPreview`. -/
structure ExternalAgentSessionHistory where
  provider : AgentCliKind
  sessionId : JsString
  exchanges : List ExternalSessionExchange
  exchangesTruncated : Bool
  totalPreviewBytes : ℤ

structure AgentThreadExternalOrigin where
  provider : AgentCliKind
  sessionId : JsString
  importedAtEpochMs : ℤ
  history : Option ExternalAgentSessionHistory := none

structure AgentThread where
  historyRevision : Option ℤ := none
  snoozedUntil : Option (Option ℤ) := none
  settledAt : Option (Option ℤ) := none
  sortOrder : Option (Option Float) := none
  threadId : JsString
  owner : AgentThreadOwner
  target : AgentThreadTarget
  provider : AgentProviderSession
  title : JsString
  pinned : Bool
  archived : Bool
  createdAtEpochMs : ℤ
  updatedAtEpochMs : ℤ
  turns : List AgentTurn
  turnsTruncated : Bool
  integration : Option AgentThreadIntegration
  viewedAtEpochMs : Option ℤ
  externalOrigin : Option AgentThreadExternalOrigin

structure AgentThreadsState where
  threads : OrderedMap JsString AgentThread

/-- `Number.isSafeInteger(value)`. -/
def isSafeInteger (value : ℤ) : Bool := -maxSafeInteger ≤ value && value ≤ maxSafeInteger

def isTerminalAgentTaskStatus : AgentTaskStatus → Bool
  | .pending => false
  | .running => false
  | .exited _ => true
  | .failed _ => true
  | .stopped => true

def isTerminalAgentTurnStatus : AgentTurnStatus → Bool
  | .interrupted => true
  | .task status => isTerminalAgentTaskStatus status

/-- The last turn, while it is not over. -/
def runningTurn (thread : AgentThread) : Option AgentTurn :=
  thread.turns.getLast?.filter fun last => !isTerminalAgentTurnStatus last.status

end CodevoEditor.Threads
