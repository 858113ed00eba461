/-
# The store of agent threads

`agentThreadsReducer` of `src/domain/agentThread.ts`, with `agentTurnRestartRecovery.ts`,
`agentTurnHaltRequest.ts`, `agentTurnHaltRecord.ts` and `agentSessionIdentity.ts`: threads are
loaded, created, opened and evicted; turns are started, placed and brought up to date by the
events of their tasks.
-/

import CodevoEditor.Threads.Organization
import CodevoEditor.Threads.StoredLifecycle

namespace CodevoEditor.Threads

open Js AgentEvents AgentOutput

def maxAgentSteersPerTurn : ℕ := 32
def maxAgentSteerBytesPerTurn : ℕ := 512 * 1024
def maxAgentTaskPromptBytes : ℕ := 32 * 1024
def maxAgentThreadTitleBytes : ℕ := 256
def maxAgentThreadTitleChars : ℕ := 200
def maxAgentSessionIdBytes : ℕ := 128

structure AgentThreadLoadOwner where
  rootKey : JsString
  ownerId : JsString

structure AgentTurnHaltRequest where
  threadId : JsString
  ownerId : JsString
  turnId : JsString
  trigger : AgentTurnHaltTrigger
  mode : AgentTurnHaltMode
  requestedAtEpochMs : ℤ

/-- The fields of a `turnEventsAppended` action. -/
structure TurnEventsAppended where
  threadId : JsString
  turnId : JsString
  workspaceId : JsString
  repositoryRoot : JsString
  isolation : AgentTaskIsolation
  worktreePath : Option JsString
  outputSequence : ℤ
  events : List AgentTurnEvent
  sessionId : Option JsString
  sessionFallback : Option AgentSessionFallback := none
  supervisorTruncated : Bool
  streamMetricsDelta : Option AgentTurnStreamMetrics := none

inductive AgentThreadsAction
  | threadOrganizationUpdated (threadId : JsString) (owner : AgentThreadOwner) (patch : AgentThreadOrganizationPatch)
  | threadReordered (threadId : JsString) (owner : AgentThreadOwner) (targetThreadId : JsString)
      (placement : AgentThreadPlacement) (destination : Option AgentThreadDropSection) (now : ℤ)
  | loaded (owner : AgentThreadLoadOwner) (threads : List AgentThread) (retainedThreadIds : List JsString)
  | threadCreated (thread : AgentThread)
  | historyThreadEvicted (threadId : JsString)
  | historyThreadOpened (thread : AgentThread) (evictThreadId : Option JsString)
  | externalHistoryLoaded (threadId : JsString) (owner : AgentThreadOwner) (history : ExternalAgentSessionHistory)
  | turnStarted (threadId : JsString) (turn : AgentTurn)
  | backgroundTurnRecorded (threadId workspaceId : JsString) (turn : AgentTurn)
  | taskStatusEvent (threadId : JsString) (event : AgentTaskStatusEvent) (nowEpochMs : ℤ)
  | turnEventsAppended (action : TurnEventsAppended)
  | turnSteered (threadId turnId : JsString) (event : UserMessageEvent)
  | turnInterrupted (turnId : JsString) (nowEpochMs : ℤ)
  | turnHaltRequested (request : AgentTurnHaltRequest)
  | turnHydrated (threadId turnId : JsString) (events : List AgentTurnEvent) (hasEarlier : Bool)
  | turnPromptRestored (threadId turnId prompt : JsString)
  | turnLifecycleRestored (threadId turnId : JsString) (lifecycle : AgentSubagentLifecycle)
  | integrationRecorded (threadId : JsString) (integration : AgentThreadIntegration)
  | threadViewed (threadId : JsString) (atEpochMs : ℤ)
  | threadMarkedUnread (threadId : JsString)
  | threadRenamed (threadId title : JsString)
  | ownerRebound (threadId previousOwnerId : JsString) (owner : AgentThreadOwner)
  | pinToggled (threadId : JsString)
  | archived (threadId : JsString)
  | unarchived (threadId : JsString)
  | providerSessionInvalidated (threadId : JsString) (owner : AgentThreadOwner) (sessionId : JsString)
  | deleted (threadId : JsString)
  | ownerReleased (ownerId : JsString)

def emptyAgentThreadsState : AgentThreadsState := ⟨.empty⟩

structure TurnLocation where
  thread : AgentThread
  index : ℕ
  turn : AgentTurn

variable (thread : AgentThread)

/-- The first turn of a thread with an id. -/
def AgentThread.locate (turnId : JsString) : Option TurnLocation :=
  let index := thread.turns.findIdx fun turn => turn.turnId = turnId
  thread.turns[index]?.map fun turn => ⟨thread, index, turn⟩

variable (state : AgentThreadsState)

def findTurn (turnId : JsString) : Option TurnLocation :=
  state.threads.values.findSome? fun thread => thread.locate turnId

def findTurnInThread (threadId turnId : JsString) : Option TurnLocation :=
  (state.threads.get? threadId).bind fun thread => thread.locate turnId

def replaceThread (thread : AgentThread) : AgentThreadsState :=
  { threads := state.threads.set thread.threadId thread }

/-- The thread of a place, with another turn there. -/
def TurnLocation.replaced (location : TurnLocation) (turn : AgentTurn) : AgentThread :=
  { location.thread with turns := location.thread.turns.set location.index turn }

def replaceTurn (location : TurnLocation) (turn : AgentTurn) (nowEpochMs : ℤ) : AgentThreadsState :=
  replaceThread state
    { location.replaced turn with
      updatedAtEpochMs := max location.thread.updatedAtEpochMs nowEpochMs }

variable (turn : AgentTurn)

def boundAgentTurnEvents : AgentTurn :=
  let bounded := capPersistedTurnEvents turn.events
  let truncated := turn.eventsTruncated || bounded.truncated
  if bounded.events.length = turn.events.length ∧ truncated = turn.eventsTruncated ∧
      turn.streamMetrics.isSome then turn
  else
    { turn with
      events := bounded.events
      eventsTruncated := truncated
      streamMetrics := some turn.streamMetrics.join }

def boundAgentThreadEvents : AgentThread :=
  { thread with turns := thread.turns.map boundAgentTurnEvents }

/-- The last event that is no usage says how a turn ended. -/
def lastEventStatus : List AgentTurnEvent → Option AgentTurnStatus
  | .result event :: _ =>
      some (.task (if event.isError then .failed (js "The provider reported a failed turn.")
        else .exited 0))
  | .contextUsage _ :: events => lastEventStatus events
  | .subagentUsage _ :: events => lastEventStatus events
  | _ => none

def recoverAgentTurnResultStatus : Option AgentTurnStatus :=
  if turn.status ≠ .task .running ∧ turn.status ≠ .task .pending ∧ turn.status ≠ .interrupted then
    none
  else if turn.subagentLifecycle.any fun lifecycle =>
      lifecycle.truncated || lifecycle.entries.any fun entry => entry.state = .running then none
  else lastEventStatus turn.events.reverse

def interruptedStreamMetrics (streamMetrics : Option AgentTurnStreamMetrics) : Option AgentTurnStreamMetrics :=
  streamMetrics.map fun metrics => if metrics.complete then { metrics with complete := false }
    else metrics

def markInterruptedTurn : AgentTurn :=
  match recoverAgentTurnResultStatus turn with
  | some recovered => { turn with status := recovered }
  | none =>
      if isTerminalAgentTurnStatus turn.status then turn
      else
        { turn with
          status := .interrupted
          streamMetrics := some (interruptedStreamMetrics turn.streamMetrics.join) }

def markInterruptedTurns : AgentThread :=
  { thread with turns := thread.turns.map markInterruptedTurn }

def isEvictableThread : Bool :=
  !thread.pinned && (runningTurn thread).isNone

def compareThreadEvictionOrder (left right : AgentThread) : Ordering :=
  (compare left.updatedAtEpochMs right.updatedAtEpochMs).then
    (if left.threadId < right.threadId then .lt
      else if right.threadId < left.threadId then .gt else .eq)

/-- The loop of `evictThreadsForRoot`; `count` threads of the root are left. -/
def evictThreads : List AgentThread → ℕ → OrderedMap JsString AgentThread →
    OrderedMap JsString AgentThread
  | [], _, threads => threads
  | thread :: evictable, count, threads =>
      if count ≤ maxAgentThreadsPerRoot then threads
      else evictThreads evictable (count - 1) (threads.delete thread.threadId)

def evictThreadsForRoot (threads : OrderedMap JsString AgentThread) (rootKey : JsString) :
    OrderedMap JsString AgentThread :=
  let inRoot := threads.values.filter fun thread => thread.owner.rootKey = rootKey
  let evictable := (inRoot.filter isEvictableThread).mergeSort fun left right =>
    compareThreadEvictionOrder left right ≠ .gt
  evictThreads evictable inRoot.length threads

variable (threadId : JsString)

def loadExternalHistory (owner : AgentThreadOwner) (history : ExternalAgentSessionHistory) : AgentThreadsState :=
  match state.threads.get? threadId with
  | none => state
  | some thread =>
      match thread.externalOrigin with
      | none => state
      | some origin =>
          if thread.owner ≠ owner ∨ origin.provider ≠ history.provider ∨
              origin.sessionId ≠ history.sessionId ∨ origin.history ≠ none then state
          else replaceThread state { thread with externalOrigin := some { origin with history := some history } }

/-- The threads that a load keeps. -/
def keptThreads (threads : OrderedMap JsString AgentThread) (rootKey : JsString)
    (retainedThreadIds : List JsString) : OrderedMap JsString AgentThread :=
  threads.entries.foldl (fun kept entry =>
    if entry.2.owner.rootKey ≠ rootKey then kept.set entry.1 entry.2
    else if (runningTurn entry.2).isSome ∨ entry.1 ∈ retainedThreadIds then kept.set entry.1 entry.2
    else kept) .empty

/-- One thread of a load. -/
def takeLoadedThread (owner : AgentThreadLoadOwner) (threads : OrderedMap JsString AgentThread)
    (thread : AgentThread) : OrderedMap JsString AgentThread :=
  if thread.owner.rootKey ≠ owner.rootKey then threads
  else if thread.owner.ownerId ≠ owner.ownerId then threads
  else if threads.has thread.threadId then threads
  else threads.set thread.threadId (boundAgentThreadEvents (markInterruptedTurns thread))

def loadThreads (owner : AgentThreadLoadOwner)
    (loaded : List AgentThread) (retainedThreadIds : List JsString) : AgentThreadsState :=
  let kept := keptThreads state.threads owner.rootKey retainedThreadIds
  { threads := evictThreadsForRoot (loaded.foldl (takeLoadedThread owner) kept) owner.rootKey }

def createThread (thread : AgentThread) : AgentThreadsState :=
  if state.threads.has thread.threadId then state
  else if thread.turns.any fun turn => (findTurn state turn.turnId).isSome then state
  else
    { threads := evictThreadsForRoot
        (state.threads.set thread.threadId (boundAgentThreadEvents thread)) thread.owner.rootKey }

/-- The threads without the one that makes room. -/
def withoutVictim (thread : AgentThread)
    (evictThreadId : Option JsString) : Option (OrderedMap JsString AgentThread) :=
  match evictThreadId with
  | none => some state.threads
  | some evictThreadId =>
      match state.threads.get? evictThreadId with
      | none => none
      | some victim =>
          if victim.owner.rootKey ≠ thread.owner.rootKey then none
          else if !isEvictableThread victim then none
          else some (state.threads.delete victim.threadId)

def openHistoryThread (thread : AgentThread) (evictThreadId : Option JsString) : AgentThreadsState :=
  if state.threads.has thread.threadId then state
  else
    match withoutVictim state thread evictThreadId with
    | none => state
    | some threads =>
        if maxAgentThreadsPerRoot ≤ (threads.values.filter fun other =>
            other.owner.rootKey = thread.owner.rootKey).length then state
        else if thread.turns.any fun turn => (findTurn ⟨threads⟩ turn.turnId).isSome then state
        else { threads := threads.set thread.threadId (boundAgentThreadEvents (markInterruptedTurns thread)) }

def evictHistoryThread : AgentThreadsState :=
  match state.threads.get? threadId with
  | none => state
  | some thread =>
      if !isEvictableThread thread then state else { threads := state.threads.delete threadId }

/-- What is left of the turns to make room, and whether one had to go. -/
def retainTurnsForNewTurn : Option (List AgentTurn × Bool) :=
  if thread.turns.length < maxAgentTurnsPerThread then some (thread.turns, false)
  else
    match thread.turns.findIdx? fun turn => isTerminalAgentTurnStatus turn.status with
    | none => none
    | some oldest => some (thread.turns.eraseIdx oldest, true)

/-- `value != null ? null : value`. -/
def cleared (value : Option (Option ℤ)) : Option (Option ℤ) :=
  if value.join.isSome then some none else value

def placeTurn (thread : AgentThread) (turn : AgentTurn) (atEpochMs : ℤ)
    (place : List AgentTurn → AgentTurn → List AgentTurn) : AgentThreadsState :=
  if thread.archived then state
  else if (findTurn state turn.turnId).isSome then state
  else
    match retainTurnsForNewTurn thread with
    | none => state
    | some retained =>
        replaceThread state
          { thread with
            snoozedUntil := cleared thread.snoozedUntil
            settledAt := cleared thread.settledAt
            turns := place retained.1 (boundAgentTurnEvents turn)
            turnsTruncated := thread.turnsTruncated || retained.2
            updatedAtEpochMs := max thread.updatedAtEpochMs atEpochMs }

def appendTurn (thread : AgentThread) (turn : AgentTurn) (atEpochMs : ℤ) : AgentThreadsState :=
  if (runningTurn thread).isSome then state
  else placeTurn state thread turn atEpochMs fun turns placed => turns ++ [placed]

def insertTurnBefore (thread : AgentThread) (anchor turn : AgentTurn) (atEpochMs : ℤ) : AgentThreadsState :=
  placeTurn state thread turn atEpochMs fun turns placed =>
    let index := turns.findIdx fun candidate => candidate.turnId = anchor.turnId
    turns.take index ++ [placed] ++ turns.drop index

def startTurn (turn : AgentTurn) : AgentThreadsState :=
  match state.threads.get? threadId with
  | none => state
  | some thread => appendTurn state thread turn turn.startedAtEpochMs

def recordBackgroundTurn (threadId workspaceId : JsString) (turn : AgentTurn) : AgentThreadsState :=
  match state.threads.get? threadId with
  | none => state
  | some thread =>
      if thread.owner.ownerId ≠ workspaceId then state
      else if turn.origin ≠ some .background ∨ !isTerminalAgentTurnStatus turn.status then state
      else
        let atEpochMs := turn.endedAtEpochMs.getD turn.startedAtEpochMs
        match runningTurn thread with
        | none => appendTurn state thread turn atEpochMs
        | some running => insertTurnBefore state thread running turn atEpochMs

/-! ### Events of a task -/

def acceptedTaskStatusLocation (event : AgentTaskStatusEvent) : Option TurnLocation :=
  (findTurnInThread state threadId event.taskId).filter fun location =>
    event.workspaceId = location.thread.owner.ownerId &&
      event.repositoryRoot = location.thread.owner.repositoryRoot &&
      event.isolation = location.thread.target.isolation &&
      event.worktreePath = location.thread.target.worktreePath &&
      !isTerminalAgentTurnStatus location.turn.status &&
      location.turn.lastStatusSequence < event.sequence

def applyTurnStatusEvent (event : AgentTaskStatusEvent) (nowEpochMs : ℤ) : AgentThreadsState :=
  match acceptedTaskStatusLocation state threadId event with
  | none => state
  | some location =>
      replaceTurn state location
        { location.turn with
          status := .task event.status
          lastStatusSequence := event.sequence
          endedAtEpochMs := if isTerminalAgentTaskStatus event.status then some nowEpochMs
            else location.turn.endedAtEpochMs }
        nowEpochMs

structure QueueDeliveryProgress where
  queueBoundarySequence : ℤ
  foregroundSettled : Bool

def queueDeliveryStep (outputSequence : ℤ) (progress : QueueDeliveryProgress) :
    AgentTurnEvent → QueueDeliveryProgress
  | .result event =>
      { queueBoundarySequence := if event.isError then turn.queueBoundarySequence.getD 0
          else outputSequence
        foregroundSettled := !event.isError }
  | .toolResult event =>
      if event.parentToolId = none then { progress with queueBoundarySequence := outputSequence }
      else progress
  | .userMessage _ => { progress with foregroundSettled := false }
  | .assistantText event =>
      if event.parentToolId = none then { progress with foregroundSettled := false } else progress
  | .toolCall event =>
      if event.parentToolId = none then { progress with foregroundSettled := false } else progress
  | _ => progress

def queueDeliveryProgress (events : List AgentTurnEvent) (outputSequence : ℤ) : QueueDeliveryProgress :=
  events.foldl (queueDeliveryStep turn outputSequence)
    ⟨turn.queueBoundarySequence.getD 0, turn.foregroundSettled.getD false⟩

def validStreamMetricBytes (value : ℤ) : Bool := isSafeInteger value && 0 ≤ value

def mergeAgentTurnStreamMetrics (current delta : Option AgentTurnStreamMetrics) : Option AgentTurnStreamMetrics :=
  match delta with
  | none => current
  | some delta =>
      if !validStreamMetricBytes delta.receivedUtf8Bytes then
        current.map fun metrics => { metrics with complete := false }
      else
        match current with
        | none => some delta
        | some current =>
            if !validStreamMetricBytes current.receivedUtf8Bytes then none
            else
              let receivedUtf8Bytes := current.receivedUtf8Bytes + delta.receivedUtf8Bytes
              if !validStreamMetricBytes receivedUtf8Bytes then
                some { current with complete := false }
              else some ⟨receivedUtf8Bytes, current.complete && delta.complete⟩

def isSessionIdStart (unit : UInt16) : Bool :=
  (65 ≤ unit && unit ≤ 90) || (97 ≤ unit && unit ≤ 122) || (48 ≤ unit && unit ≤ 57)

def isSessionIdPart (unit : UInt16) : Bool := isSessionIdStart unit || unit = 95 || unit = 45

/-- `/^[A-Za-z0-9][A-Za-z0-9_-]{7,127}$/`, within the byte limit. -/
def isAgentSessionId (value : JsString) : Bool :=
  utf8ByteLength value ≤ maxAgentSessionIdBytes &&
    match value with
    | [] => false
    | first :: rest =>
        isSessionIdStart first && rest.all isSessionIdPart && 7 ≤ rest.length && rest.length ≤ 127

def agentProviderSessionAfterReport (provider : AgentProviderSession)
    (reportedSessionId : Option JsString) : AgentProviderSession :=
  match reportedSessionId with
  | none => provider
  | some reported =>
      if !isAgentSessionId reported then provider
      else if provider.sessionId = some reported then provider
      else if provider.sessionId ≠ none ∧ provider.kind ≠ .claudeCode then provider
      else { provider with sessionId := some reported }

/-- Whether a session fallback of an append is taken. -/
def acceptsSessionFallback (provider : AgentProviderSession) (turn : AgentTurn)
    (sessionId : Option JsString) (fallback : AgentSessionFallback) : Bool :=
  provider.kind = .codex && turn.codexTransport = some .appServer &&
    some fallback.previousThreadId = provider.sessionId && some fallback.threadId = sessionId &&
    fallback.previousThreadId ≠ fallback.threadId &&
    isAgentSessionId fallback.previousThreadId && isAgentSessionId fallback.threadId

/-- Where an append goes, if it is taken. -/
def acceptedOutputLocation (action : TurnEventsAppended) : Option TurnLocation :=
  (findTurnInThread state action.threadId action.turnId).filter fun location =>
    action.workspaceId = location.thread.owner.ownerId &&
      action.repositoryRoot = location.thread.owner.repositoryRoot &&
      action.isolation = location.thread.target.isolation &&
      action.worktreePath = location.thread.target.worktreePath &&
      !isTerminalAgentTurnStatus location.turn.status &&
      location.turn.lastOutputSequence < action.outputSequence

/-- The turn with the events of an append. -/
def TurnEventsAppended.updatedTurn (action : TurnEventsAppended) (turn : AgentTurn) : AgentTurn :=
  let merged := mergeTurnEvents turn.events action.events
  let progress := queueDeliveryProgress turn action.events action.outputSequence
  { turn with
    events := merged.events
    eventsTruncated := turn.eventsTruncated || merged.truncated || action.supervisorTruncated
    lastOutputSequence := action.outputSequence
    queueBoundarySequence := some progress.queueBoundarySequence
    foregroundSettled := some progress.foregroundSettled
    subagentLifecycle := retainAgentSubagentLifecycle
      (turn.subagentLifecycle.or (retainAgentSubagentLifecycle none turn.events)) action.events
    streamMetrics := some (mergeAgentTurnStreamMetrics turn.streamMetrics.join action.streamMetricsDelta) }

def appendTurnEvents (action : TurnEventsAppended) : AgentThreadsState :=
  match acceptedOutputLocation state action with
  | none => state
  | some location =>
      let provider := location.thread.provider
      replaceThread state
        { location.replaced (action.updatedTurn location.turn) with
          provider :=
            match action.sessionFallback.filter (acceptsSessionFallback provider location.turn action.sessionId) with
            | some fallback => { provider with sessionId := some fallback.threadId }
            | none => agentProviderSessionAfterReport provider action.sessionId }

def agentTurnEventsUtf8Bytes (events : List AgentTurnEvent) : ℕ :=
  (events.map agentTurnEventUtf8Bytes).sum

def agentTurnAcceptsSteerBytes (bytes : ℕ) : Bool :=
  let messages := turn.events.filter (·.isUserMessage)
  isSafeInteger bytes && messages.length < maxAgentSteersPerTurn &&
    agentTurnEventsUtf8Bytes messages + bytes ≤ maxAgentSteerBytesPerTurn

def appendSteeredMessage (threadId turnId : JsString) (event : UserMessageEvent) : AgentThreadsState :=
  match findTurnInThread state threadId turnId with
  | none => state
  | some location =>
      let turn := location.turn
      if isTerminalAgentTurnStatus turn.status then state
      else if maxAgentEventTextBytes < utf8ByteLength event.text then state
      else if !agentTurnAcceptsSteerBytes turn (agentTurnEventUtf8Bytes (.userMessage event)) then
        state
      else
        let merged := mergeTurnEvents turn.events [.userMessage event]
        replaceThread state (location.replaced
          { turn with
            events := merged.events
            foregroundSettled := some false
            eventsTruncated := turn.eventsTruncated || merged.truncated })

def interruptTurn (turnId : JsString) (nowEpochMs : ℤ) : AgentThreadsState :=
  match findTurn state turnId with
  | none => state
  | some location =>
      if isTerminalAgentTurnStatus location.turn.status then state
      else
        replaceTurn state location
          { location.turn with
            status := .interrupted
            endedAtEpochMs := some nowEpochMs
            streamMetrics := some (interruptedStreamMetrics location.turn.streamMetrics.join) }
          nowEpochMs

def isEpochMs (value : ℤ) : Bool := isSafeInteger value && 0 ≤ value

def AgentTurnHaltTrigger.source : AgentTurnHaltTrigger → AgentTurnHaltSource
  | .ui source => source
  | .interruptRefused source => source

def escalationSourceOf : AgentTurnHaltTrigger → AgentTurnHaltEscalationSource
  | .ui source => .source source
  | .interruptRefused _ => .interruptRefused

def recordAgentTurnHalt (current : Option AgentTurnHaltRecord) (attempt : AgentTurnHaltRequest) :
    Option AgentTurnHaltRecord :=
  if !isEpochMs attempt.requestedAtEpochMs then current
  else
    match current with
    | none =>
        some { source := attempt.trigger.source
               mode := attempt.mode
               requestedAtEpochMs := attempt.requestedAtEpochMs }
    | some record =>
        if record.escalation ≠ none then current
        else if record.mode ≠ .softInterrupt ∨ attempt.mode ≠ .hardStop then current
        else
          some { record with
            escalation := some
              { source := escalationSourceOf attempt.trigger
                requestedAtEpochMs := max attempt.requestedAtEpochMs record.requestedAtEpochMs } }

def requestAgentTurnHalt (request : AgentTurnHaltRequest) : AgentThreadsState :=
  match findTurnInThread state request.threadId request.turnId with
  | none => state
  | some location =>
      if location.thread.owner.ownerId ≠ request.ownerId then state
      else if isTerminalAgentTurnStatus location.turn.status then state
      else
        let haltRequest := recordAgentTurnHalt location.turn.haltRequest request
        if location.turn.haltRequested = some true ∧ haltRequest = location.turn.haltRequest then
          state
        else
          replaceThread state (location.replaced { location.turn with haltRequested := some true, haltRequest })

def hydratedEventOffset (hydratedLength : ℕ) : ℤ :=
  let previous := turn.firstEventOffset.getD 0
  let base := if isSafeInteger previous ∧ previous ≤ 0 then previous else 0
  let prepended : ℤ := hydratedLength - turn.events.length
  if !isSafeInteger prepended then base
  else if prepended ≤ 0 then base
  else if !isSafeInteger (base - prepended) then base
  else base - prepended

/-- The place of a turn that is over. -/
def findSettledTurn (threadId turnId : JsString) : Option TurnLocation :=
  (findTurnInThread state threadId turnId).filter fun location =>
    isTerminalAgentTurnStatus location.turn.status

def hydrateTurn (threadId turnId : JsString) (events : List AgentTurnEvent) (hasEarlier : Bool) : AgentThreadsState :=
  match findSettledTurn state threadId turnId with
  | none => state
  | some location =>
      let turn := location.turn
      let bounded := capPersistedTurnEvents events
      let offset := hydratedEventOffset turn bounded.events.length
      replaceThread state (location.replaced
        { turn with
          events := bounded.events
          eventsTruncated := hasEarlier || bounded.truncated
          firstEventOffset := if offset = 0 then turn.firstEventOffset else some offset })

def isRestorableAgentPrompt (prompt : JsString) : Bool :=
  prompt ≠ [] && 0 ∉ prompt && utf8ByteLength prompt ≤ maxAgentTaskPromptBytes

def restoreTurnPrompt (threadId turnId prompt : JsString) : AgentThreadsState :=
  if !isRestorableAgentPrompt prompt then state
  else
    match findSettledTurn state threadId turnId with
    | none => state
    | some location =>
        replaceThread state (location.replaced { location.turn with prompt, promptRestored := some true })

def restoreTurnLifecycle (threadId turnId : JsString) (lifecycle : AgentSubagentLifecycle) : AgentThreadsState :=
  match findSettledTurn state threadId turnId with
  | none => state
  | some location =>
      match restorableAgentTurnLifecycle location.turn.subagentLifecycle lifecycle with
      | none => state
      | some restored =>
          replaceThread state (location.replaced { location.turn with subagentLifecycle := some restored })

def firstNonEmptyLine (prompt : JsString) : JsString :=
  let lines := (splitNewlines prompt).1 ++ [(splitNewlines prompt).2]
  (lines.findSome? fun line => if trim line = [] then none else some (trim line)).getD []

def agentThreadTitle (prompt : JsString) : JsString :=
  let line := firstNonEmptyLine prompt
  if line = [] then js "Untitled thread"
  else if utf8ByteLength line ≤ maxAgentThreadTitleBytes then line
  else clipUtf8 line (maxAgentThreadTitleBytes - utf8ByteLength (js "…")) ++ js "…"

def normalizeAgentThreadTitle (raw : JsString) : Option JsString :=
  let line := firstNonEmptyLine (raw.take maxAgentThreadTitleChars)
  if line = [] then none else some (agentThreadTitle line)

/-- A change of one thread; `none` leaves the state as it is. -/
def changeThread (change : AgentThread → Option AgentThread) : AgentThreadsState :=
  match (state.threads.get? threadId).bind change with
  | none => state
  | some thread => replaceThread state thread

def recordIntegration (integration : AgentThreadIntegration) : AgentThreadsState :=
  changeThread state threadId fun thread =>
    if thread.archived then none
    else some { thread with
      integration := some integration
      updatedAtEpochMs := thread.updatedAtEpochMs + 1 }

def markThreadViewed (atEpochMs : ℤ) : AgentThreadsState :=
  changeThread state threadId fun thread =>
    if !isSafeInteger atEpochMs ∨ atEpochMs < 0 then none
    else if thread.viewedAtEpochMs.any (atEpochMs ≤ ·) then none
    else some { thread with viewedAtEpochMs := some atEpochMs }

def markThreadUnread : AgentThreadsState :=
  changeThread state threadId fun thread =>
    if thread.viewedAtEpochMs = none then none else some { thread with viewedAtEpochMs := none }

def renameThread (threadId raw : JsString) : AgentThreadsState :=
  changeThread state threadId fun thread =>
    match normalizeAgentThreadTitle raw with
    | none => none
    | some title => if title = thread.title then none else some { thread with title }

def rebindOwner (threadId previousOwnerId : JsString) (owner : AgentThreadOwner) : AgentThreadsState :=
  changeThread state threadId fun thread =>
    if (runningTurn thread).isSome then none
    else if thread.owner.ownerId ≠ previousOwnerId then none
    else if thread.owner.rootKey ≠ owner.rootKey then none
    else if thread.owner.repositoryRoot ≠ owner.repositoryRoot then none
    else if trim owner.ownerId = [] then none
    else if thread.owner.ownerId = owner.ownerId then none
    else some { thread with owner }

def togglePin : AgentThreadsState :=
  changeThread state threadId fun thread => some { thread with pinned := !thread.pinned }

def archiveThread : AgentThreadsState :=
  changeThread state threadId fun thread =>
    if thread.archived then none
    else if (runningTurn thread).isSome then none
    else some { thread with archived := true }

def unarchiveThread : AgentThreadsState :=
  changeThread state threadId fun thread =>
    if !thread.archived then none else some { thread with archived := false }

def invalidateProviderSession (owner : AgentThreadOwner) (sessionId : JsString) : AgentThreadsState :=
  changeThread state threadId fun thread =>
    if thread.owner ≠ owner then none
    else if thread.provider.sessionId ≠ some sessionId then none
    else some { thread with provider := { thread.provider with sessionId := none } }

def deleteThread : AgentThreadsState :=
  match state.threads.get? threadId with
  | none => state
  | some thread =>
      if (runningTurn thread).isSome then state else { threads := state.threads.delete threadId }

def releaseOwner (ownerId : JsString) : AgentThreadsState :=
  let threads : OrderedMap JsString AgentThread := state.threads.entries.foldl (fun kept entry =>
    if entry.2.owner.ownerId = ownerId ∧ (runningTurn entry.2).isNone then kept
    else kept.set entry.1 entry.2) .empty
  if threads.size = state.threads.size then state else { threads }

def agentThreadsReducer (localeCompare : JsString → JsString → Ordering)
    (state : AgentThreadsState) : AgentThreadsAction → AgentThreadsState
  | .loaded owner threads retainedThreadIds => loadThreads state owner threads retainedThreadIds
  | .threadCreated thread => createThread state thread
  | .historyThreadOpened thread evictThreadId => openHistoryThread state thread evictThreadId
  | .historyThreadEvicted threadId => evictHistoryThread state threadId
  | .externalHistoryLoaded threadId owner history =>
      loadExternalHistory state threadId owner history
  | .turnStarted threadId turn => startTurn state threadId turn
  | .backgroundTurnRecorded threadId workspaceId turn =>
      recordBackgroundTurn state threadId workspaceId turn
  | .taskStatusEvent threadId event nowEpochMs =>
      applyTurnStatusEvent state threadId event nowEpochMs
  | .turnEventsAppended action => appendTurnEvents state action
  | .turnSteered threadId turnId event => appendSteeredMessage state threadId turnId event
  | .turnInterrupted turnId nowEpochMs => interruptTurn state turnId nowEpochMs
  | .turnHaltRequested request => requestAgentTurnHalt state request
  | .turnHydrated threadId turnId events hasEarlier =>
      hydrateTurn state threadId turnId events hasEarlier
  | .turnPromptRestored threadId turnId prompt => restoreTurnPrompt state threadId turnId prompt
  | .turnLifecycleRestored threadId turnId lifecycle =>
      restoreTurnLifecycle state threadId turnId lifecycle
  | .integrationRecorded threadId integration => recordIntegration state threadId integration
  | .threadViewed threadId atEpochMs => markThreadViewed state threadId atEpochMs
  | .threadMarkedUnread threadId => markThreadUnread state threadId
  | .threadOrganizationUpdated threadId owner patch =>
      updateAgentThreadOrganization state threadId owner patch
  | .threadReordered threadId owner targetThreadId placement destination now =>
      reorderAgentThread localeCompare state threadId owner targetThreadId placement now destination
  | .threadRenamed threadId title => renameThread state threadId title
  | .ownerRebound threadId previousOwnerId owner => rebindOwner state threadId previousOwnerId owner
  | .pinToggled threadId => togglePin state threadId
  | .archived threadId => archiveThread state threadId
  | .unarchived threadId => unarchiveThread state threadId
  | .providerSessionInvalidated threadId owner sessionId =>
      invalidateProviderSession state threadId owner sessionId
  | .deleted threadId => deleteThread state threadId
  | .ownerReleased ownerId => releaseOwner state ownerId

end CodevoEditor.Threads
