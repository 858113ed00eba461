/-
# The router of a Claude session

`claude_session_router.rs`: the output of a session comes in chunks of bytes, of which the
router makes lines, and each line goes to the turn that is attached, into the output of a
background turn, or nowhere.

The attached turn and the detector hold one reference to one ledger: here the detector holds it.
The time of a call is a parameter of it.
-/

import CodevoEditor.ClaudeSession.BackgroundLine

namespace CodevoEditor.ClaudeSession

def maxRoutedLineBytes : ℕ := 1024 * 1024
def wakeUpReplyCap : ℕ := 30
def maxBackgroundTurnBytes : ℕ := 256 * 1024
def backgroundResultReserveBytes : ℕ := 64 * 1024
def backgroundAnswerReserveBytes : ℕ := 32 * 1024
def maxReportedBackgroundTasks : ℕ := 32
def oversizedFrameError : String := "Claude session frame exceeded its size limit."
def costField : String := "total_cost_usd"
def processCostField : String := "codevo_process_total_cost_usd"
def maxBackgroundPermissionDenials : ℕ := 16
def maxUnownedControlAnswers : ℕ := 16
def maxControlRequestIdBytes : ℕ := 128
def maxOwnedRuns : ℕ := 256
def maxRunIdBytes : ℕ := 256

variable {ν φ : Type}

def rootResult (message : Json ν) : Bool := message.strOf "type" = some "result" && message.isRoot

def runId (value : Option (Json ν)) : Option String :=
  (value.bind Json.asStr).filter fun id => id.utf8ByteSize ≠ 0 && id.utf8ByteSize ≤ maxRunIdBytes

def sameRun : Option String → Option String → Bool
  | some claimed, some named => claimed = named
  | _, _ => true

def taskFrame (message : Json ν) : Option String :=
  if message.strOf "type" ≠ some "system" then none
  else (message.strOf "subtype").filter fun subtype => taskFrames.contains subtype

def rootToolResult (message : Json ν) : Bool :=
  message.strOf "type" = some "user" && message.isRoot &&
    ((contentBlocks message).getD []).any fun block => block.strOf "type" = some "tool_result"

def rootAnswer (message : Json ν) : Bool :=
  message.strOf "type" = some "assistant" && message.isRoot &&
    ((contentBlocks message).getD []).any fun block => block.strOf "type" = some "text"

def opensActivity (kind : Option String) (message : Json ν) : Bool :=
  kind.any fun kind =>
    ["assistant", "user", "stream_event", "result"].contains kind ||
      (kind = "system" && message.strOf "subtype" = some "init")

def resultNames (message : Json ν) (id : String) : Bool :=
  message.strOf "user_message_uuid" = some id ||
    (message.arrayOf "user_message_uuids").any fun ids => ids.any fun named => named.asStr = some id

def validRequestId (id : String) : Bool :=
  let alphanumeric (character : Char) : Bool :=
    ('a' ≤ character && character ≤ 'z') || ('A' ≤ character && character ≤ 'Z') ||
      ('0' ≤ character && character ≤ '9')
  id.utf8ByteSize ≠ 0 && id.utf8ByteSize ≤ maxControlRequestIdBytes &&
    (id.toList.take 1).all alphanumeric &&
    (id.toList.drop 1).all fun character => alphanumeric character || "_.:-".toList.contains character

def maxPendingTaskStops : ℕ := maxReportedBackgroundTasks
def maxTaskStopReasonBytes : ℕ := 256
def maxRetiredTaskStops : ℕ := 2 * maxPendingTaskStops
def unexplainedRefusal : String := "Claude did not say why."

inductive TaskStopReply
  | accepted
  | refused (reason : String)
  deriving DecidableEq

structure PendingTaskStop where
  requestId : String
  reply : Option TaskStopReply
  deriving DecidableEq

structure PendingTaskStops where
  pending : List PendingTaskStop
  retired : List String

def boundedReason (error : Option String) : String :=
  let reason := takeBytes maxTaskStopReasonBytes ((error.getD "").toList.filter fun character => !isControl character)
  let reason := trim (String.ofList reason)
  if reason = [] then unexplainedRefusal else String.ofList reason

namespace PendingTaskStops

def default : PendingTaskStops := ⟨[], []⟩

variable (stops : PendingTaskStops)

def known (requestId : String) : Bool :=
  (stops.pending.any fun entry => entry.requestId = requestId) || stops.retired.contains requestId

def begin (requestId : String) : PendingTaskStops × Bool :=
  if maxPendingTaskStops ≤ stops.pending.length ∨ stops.known requestId then (stops, false)
  else ({ stops with pending := stops.pending ++ [⟨requestId, none⟩] }, true)

def retire (requestId : String) : PendingTaskStops :=
  let retired := stops.retired ++ [requestId]
  { stops with retired := retired.drop (retired.length - maxRetiredTaskStops) }

/-- The reply that a response is. -/
def replyOf (message : Json ν) : Option TaskStopReply :=
  match (message.pointer ["response", "subtype"]).bind Json.asStr with
  | some subtype =>
    if subtype = "success" then some .accepted
    else if subtype = "error" then
      some (.refused (boundedReason ((message.pointer ["response", "error"]).bind Json.asStr)))
    else none
  | none => none

def resolve (message : Json ν) : PendingTaskStops × Bool :=
  if message.strOf "type" ≠ some "control_response" then (stops, false)
  else match (message.pointer ["response", "request_id"]).bind Json.asStr, replyOf message with
    | some requestId, some reply =>
      if stops.retired.contains requestId then (stops, true)
      else match stops.pending.findIdx? fun entry => entry.requestId = requestId with
        | none => (stops, false)
        | some index =>
          ({ stops with pending := stops.pending.modify index fun entry =>
              { entry with reply := some (entry.reply.getD reply) } }, true)
    | _, _ => (stops, false)

def take (requestId : String) : PendingTaskStops × Option TaskStopReply :=
  match stops.pending.find? fun entry => entry.requestId = requestId && entry.reply.isSome with
  | none => (stops, none)
  | some entry => (({ stops with pending := stops.pending.erase entry }).retire requestId, entry.reply)

def withdraw (requestId : String) : PendingTaskStops :=
  match stops.pending.find? fun entry => entry.requestId = requestId with
  | none => stops
  | some entry => { stops with pending := stops.pending.erase entry }.retire requestId

end PendingTaskStops

/-! ### The state -/

structure ClaudeBackgroundTurn where
  output : List UInt8
  truncated : Bool
  complete : Bool

inductive ClaudeBackgroundReply
  | none
  | expected
  | inProgress
  deriving DecidableEq

structure ClaudeBackgroundTasks where
  tasks : List LiveBackgroundTask
  total : ℕ
  agents : ℕ
  reply : ClaudeBackgroundReply
  deriving DecidableEq

def ClaudeBackgroundTasks.default : ClaudeBackgroundTasks := ⟨[], 0, 0, .none⟩

structure RouterStep where
  turnOutput : List UInt8
  settled : Bool
  interrupted : Bool
  cancelled : Bool
  resultFailed : Bool
  interruptAcknowledged : Bool
  unownedActivity : Bool
  backgroundTurns : List ClaudeBackgroundTurn
  backgroundTasks : Option ClaudeBackgroundTasks
  permissionDenials : List String
  unsupportedRequests : List String
  failure : Option String

def RouterStep.default : RouterStep where
  turnOutput := []
  settled := false
  interrupted := false
  cancelled := false
  resultFailed := false
  interruptAcknowledged := false
  unownedActivity := false
  backgroundTurns := []
  backgroundTasks := none
  permissionDenials := []
  unsupportedRequests := []
  failure := none

/-- `if …acknowledges_interrupt(…) { step.interrupt_acknowledged = true; }`. -/
def RouterStep.acknowledge (acknowledged : Bool) (step : RouterStep) : RouterStep :=
  if acknowledged then { step with interruptAcknowledged := true } else step

structure OwnedRun where
  task : String
  tool : Option String

structure AttachedTurn where
  commandId : String
  started : Bool
  resultSeen : Bool
  initExpected : Bool
  running : Option String
  interrupting : Bool
  interruptEvidence : Bool
  cancelled : Bool
  resultFailed : Bool
  runs : List OwnedRun

structure UnsolicitedTurn where
  output : List UInt8
  truncated : Bool
  denials : ℕ
  unsupportedAnswers : ℕ

def UnsolicitedTurn.default : UnsolicitedTurn := ⟨[], false, 0, 0⟩

inductive BudgetClass
  | closing
  | answer
  | activity
  deriving DecidableEq

inductive Destination
  | turn
  | command
  | unsolicited
  | background
  | discard
  deriving DecidableEq

/-- A line for the turn that is attached. -/
def Destination.forTurn : Destination → Bool
  | turn => true
  | command => true
  | _ => false

inductive LineMode
  | buffering
  | streaming
  | skipping
  deriving DecidableEq

structure Router (φ : Type) where
  detector : ResultLineDetector
  attached : Option AttachedTurn
  lifecycleSupported : Bool
  unsolicited : Option UnsolicitedTurn
  pendingInterrupt : Option String
  costBaseline : φ
  idleUnsupportedAnswers : ℕ
  backgroundRevision : ℕ
  backgroundOfferPending : Bool
  reportedBackground : ClaudeBackgroundTasks
  wakeUpPending : Bool
  wakeUpUnconsumed : Bool
  wakeUpExpectedSince : Option ℕ
  wakeUpReplyCap : ℕ
  taskStops : PendingTaskStops
  line : List UInt8
  mode : LineMode

namespace AttachedTurn

variable (turn : AttachedTurn)

def release (task : String) : AttachedTurn :=
  { turn with runs := turn.runs.filter fun run => run.task ≠ task }

def claim (message : Json ν) (live : String → Bool) : AttachedTurn :=
  match runId (message.get "task_id") with
  | none => turn
  | some task =>
    let released := turn.release task
    let runs :=
      if released.runs.length = maxOwnedRuns then
        released.runs.eraseIdx ((released.runs.findIdx? fun run => !live run.task).getD 0)
      else released.runs
    { released with runs := runs ++ [⟨task, runId (message.get "tool_use_id")⟩] }

/-- What `note_run` does to the turn. -/
def noteRun (claimed : Bool) (message : Json ν) (live : String → Bool) (turn : AttachedTurn) : AttachedTurn :=
  if claimed then turn.claim message live
  else match runId (message.get "task_id") with
    | none => turn
    | some task => turn.release task

def owns (message : Json ν) : Bool :=
  match message.strOf "parent_tool_use_id" with
  | some parent => turn.runs.any fun run => run.tool = some parent
  | none =>
    match (taskFrame message).bind fun _ => runId (message.get "task_id") with
    | none => false
    | some task => turn.runs.any fun run =>
      run.task = task && sameRun run.tool (runId (message.get "tool_use_id"))

end AttachedTurn

namespace BudgetClass

def of (message : Json ν) : BudgetClass :=
  if rootResult message then .closing else if rootAnswer message then .answer else .activity

def limit : BudgetClass → ℕ
  | closing => maxBackgroundTurnBytes
  | answer => maxBackgroundTurnBytes - backgroundResultReserveBytes
  | activity => maxBackgroundTurnBytes - backgroundResultReserveBytes - backgroundAnswerReserveBytes

end BudgetClass

namespace UnsolicitedTurn

/-- The turn after a line, and whether it has been taken. -/
def push (turn : UnsolicitedTurn) (line : List UInt8) (budget : BudgetClass) : UnsolicitedTurn × Bool :=
  if budget.limit < turn.output.length + line.length then ({ turn with truncated := true }, false)
  else ({ turn with output := turn.output ++ line }, true)

def finish (turn : UnsolicitedTurn) (complete : Bool) : ClaudeBackgroundTurn :=
  ⟨turn.output, turn.truncated, complete⟩

end UnsolicitedTurn

namespace Router

def new (env : Platform ν φ) (cap : ℕ) : Router φ where
  detector := .new .awaitBackgroundWork
  attached := none
  lifecycleSupported := false
  unsolicited := none
  pendingInterrupt := none
  costBaseline := env.zero
  idleUnsupportedAnswers := 0
  backgroundRevision := 0
  backgroundOfferPending := false
  reportedBackground := .default
  wakeUpPending := false
  wakeUpUnconsumed := false
  wakeUpExpectedSince := none
  wakeUpReplyCap := cap
  taskStops := .default
  line := []
  mode := .buffering

variable (router : Router φ)

/-- `turn.lifecycle.names_command(id)`, of the turn that is attached. -/
def namesCommand (id : String) : Bool := router.detector.lifecycle.any fun lifecycle =>
  lifecycle.namesCommand id

def owned : Bool :=
  router.unsolicited.isNone && router.attached.any fun turn => turn.started || !router.lifecycleSupported

def attachedDestination : Destination := if router.attached.isSome then .turn else .discard

def attachedResultFailed : Bool := router.attached.any AttachedTurn.resultFailed

def consumeWakeUp : Router φ :=
  { router with wakeUpPending := false, wakeUpUnconsumed := false, wakeUpExpectedSince := none }

def openUnsolicited : Router φ := { router with unsolicited := some .default }.consumeWakeUp

def attach (lifecycle : ClaudeInputLifecycle) : Router φ :=
  { router with
    detector := router.detector.rearm (some lifecycle)
    attached := some
      { commandId := lifecycle.initialId
        started := false
        resultSeen := false
        initExpected := false
        running := some lifecycle.initialId
        interrupting := false
        interruptEvidence := false
        cancelled := false
        resultFailed := false
        runs := [] }
    pendingInterrupt := none
    idleUnsupportedAnswers := 0 }.consumeWakeUp

def detach : Router φ :=
  { router with
    detector := router.detector.rearm none
    attached := none
    pendingInterrupt := none
    idleUnsupportedAnswers := 0 }

def interruptSent (requestId : String) : Router φ :=
  { router with
    pendingInterrupt := some requestId
    detector := router.detector.suspendDrainSettlement
    attached := router.attached.map fun turn => { turn with interrupting := true } }

def withdrawInterrupt (requestId : String) : Router φ :=
  if router.pendingInterrupt ≠ some requestId then router
  else
    { router with
      pendingInterrupt := none
      detector := router.detector.resumeDrainSettlement
      attached := router.attached.map fun turn =>
        { turn with interrupting := false, interruptEvidence := false } }

def settleFinishedForeground : Router φ × Option RouterStep :=
  let finished := router.attached.any fun turn =>
    turn.resultSeen && turn.running.isNone && !turn.interrupting
  if !finished then (router, none)
  else
    let settled := router.detector.settleFinishedForeground
    let router := { router with detector := settled.1 }
    if !settled.2 then (router, none)
    else
      (router.detach, some { RouterStep.default with settled := true, resultFailed := router.attachedResultFailed })

def noteWakeUp : Router φ :=
  if router.attached.isNone && router.unsolicited.isNone then { router with wakeUpPending := true }
  else { router with wakeUpUnconsumed := true }

def interruptUndecided : Bool := router.attached.any AttachedTurn.interrupting

def attachedCutShort : Bool := router.attached.any fun turn =>
  turn.resultFailed || (turn.cancelled && !turn.resultSeen)

def idle : Bool := router.unsolicited.isNone && router.attached.all fun turn => turn.running.isNone

def promoteUnconsumedWakeUp : Router φ :=
  if !router.wakeUpUnconsumed || !router.idle || router.interruptUndecided then router
  else if router.attachedCutShort then { router with wakeUpUnconsumed := false }
  else { router with wakeUpUnconsumed := false, wakeUpPending := true }

def refreshWakeUp (now : ℕ) : Router φ :=
  if !router.wakeUpPending || !router.idle then { router with wakeUpExpectedSince := none }
  else
    let since := router.wakeUpExpectedSince.getD now
    let router := { router with wakeUpExpectedSince := some since }
    if now - since < router.wakeUpReplyCap then router else router.consumeWakeUp

def reply (now : ℕ) : ClaudeBackgroundReply :=
  if router.unsolicited.isSome then .inProgress
  else if router.wakeUpExpectedSince.any fun since => now - since < router.wakeUpReplyCap then .expected
  else .none

def backgroundTasks (now : ℕ) : ClaudeBackgroundTasks :=
  let live := router.detector.backgroundTasks
  { tasks := live.take maxReportedBackgroundTasks
    total := live.length
    agents := (live.filter fun task => task.kind = .agent).length
    reply := router.reply now }

def backgroundChange (now : ℕ) : Router φ × Option ClaudeBackgroundTasks :=
  let router := router.refreshWakeUp now
  let revision := router.detector.backgroundRevision
  let refused := router.backgroundOfferPending
  let router := { router with backgroundOfferPending := false }
  if !refused && revision = router.backgroundRevision &&
      router.reply now = router.reportedBackground.reply then (router, none)
  else
    let router := { router with backgroundRevision := revision }
    let current := router.backgroundTasks now
    if !refused && current = router.reportedBackground then (router, none)
    else ({ router with reportedBackground := current }, some current)

def forgetReportedBackground : Router φ :=
  { router with reportedBackground := .default, backgroundOfferPending := true }

def acknowledgesInterrupt (message : Json ν) : Router φ × Bool :=
  let id := (message.pointer ["response", "request_id"]).bind Json.asStr
  if message.strOf "type" ≠ some "control_response" then (router, false)
  else if id.isNone ∨ id ≠ router.pendingInterrupt then (router, false)
  else ({ router with pendingInterrupt := none }, true)

def settleReady : Router φ × Bool × Bool :=
  let interrupted := router.attached.any fun turn => turn.interrupting && turn.running.isNone
  if interrupted then
    let settled := router.detector.settleInterrupted
    ({ router with detector := settled.1 }, settled.2, true)
  else
    let settled := router.detector.settleIfReady
    ({ router with detector := settled.1 }, settled.2, false)

def recordSettlement (viaInterrupt : Bool) (step : RouterStep) : Router φ × RouterStep :=
  let interrupted := router.attached.any fun turn =>
    turn.interrupting && (viaInterrupt || turn.interruptEvidence)
  let cancelled := !interrupted && router.attached.any fun turn => turn.cancelled && !turn.resultSeen
  let resultFailed := !interrupted && !cancelled && router.attachedResultFailed
  let step := { step with
    settled := true, interrupted := interrupted, cancelled := cancelled, resultFailed := resultFailed }
  let router :=
    if interrupted || cancelled || resultFailed then { router with wakeUpUnconsumed := false } else router
  (router.detach, step)

def emitUnsolicited (complete : Bool) (step : RouterStep) : Router φ × RouterStep :=
  match router.unsolicited with
  | none => (router, step)
  | some active =>
    ({ router with unsolicited := none },
      { step with backgroundTurns := step.backgroundTurns ++ [active.finish complete] })

/-- The total of the process, where a result says it. -/
def processTotal (env : Platform ν φ) (message : Json ν) : Option φ :=
  match message.get costField with
  | some (.number number) => (env.asF64 number).filter fun total =>
    env.isFinite total && env.le env.zero total
  | _ => none

def normalizeCost (env : Platform ν φ) (destination : Destination) (message : Json ν)
    (line : List UInt8) : List UInt8 × Option φ :=
  if destination = .discard ∨ !rootResult message then (line, none)
  else match processTotal env message, message with
    | some total, .object fields =>
      let delta := env.sub total router.costBaseline
      let fields := removeField costField fields
      let fields :=
        if env.le env.minusCostTolerance delta then
          insertField costField (env.ofF64 (env.max delta env.zero)) fields
        else fields
      let fields := insertField processCostField (env.ofF64 total) fields
      match env.toVec (.object fields) with
      | none => (line, none)
      | some rewritten => (rewritten ++ [newline], some total)
    | _, _ => (line, none)

/-- Whether the line has been taken. -/
def deliver (destination : Destination) (line : List UInt8) (budget : BudgetClass)
    (step : RouterStep) : (Router φ × RouterStep) × Bool :=
  match destination with
  | .turn => ((router, { step with turnOutput := step.turnOutput ++ line }), true)
  | .command => ((router, { step with turnOutput := step.turnOutput ++ line }), true)
  | .unsolicited =>
    match router.unsolicited with
    | none => ((router, step), false)
    | some active =>
      let pushed := active.push line budget
      (({ router with unsolicited := some pushed.1 }, step), pushed.2)
  | .background =>
    let pushed := UnsolicitedTurn.default.push line .closing
    ((router, { step with backgroundTurns := step.backgroundTurns ++ [pushed.1.finish true] }), pushed.2)
  | .discard => ((router, step), false)

/-- `self.cost_baseline = total`, of a total that has been passed on. -/
def chargeCost (accepted : Bool) : Option φ → Router φ
  | none => router
  | some total => if accepted then { router with costBaseline := total } else router

def forward (env : Platform ν φ) (destination : Destination) (message : Json ν) (line : List UInt8)
    (step : RouterStep) : Router φ × RouterStep :=
  let line := if destination = .unsolicited then backgroundLine env message line else some line
  match line with
  | none => (router, step)
  | some line =>
    let normalized := router.normalizeCost env destination message line
    let delivered := router.deliver destination normalized.1 (.of message) step
    (delivered.1.1.chargeCost delivered.2 normalized.2, delivered.1.2)

def attachedRunOwns (message : Json ν) : Bool := router.attached.any fun turn => turn.owns message

def foreignTaskFrame (message : Json ν) : Bool :=
  (taskFrame message).isSome && message.isRoot && !router.attachedRunOwns message

def delivery (destination : Destination) (message : Json ν) : Destination :=
  if destination ≠ .turn ∨ !router.foreignTaskFrame message then destination else .discard

def noteRun (destination : Destination) (owned : Bool) (message : Json ν) : Router φ :=
  if taskFrame message ≠ some "task_started" then router
  else
    let claimed := destination = .turn && (owned || router.unsolicited.isSome)
    let note := AttachedTurn.noteRun claimed message router.detector.hasLiveBackgroundTask
    { router with attached := router.attached.map note }

def namesOurResult (message : Json ν) : Bool :=
  let uuid := message.get "user_message_uuid"
  let uuids := message.get "user_message_uuids"
  let named := (uuid.toList ++ (uuids.bind Json.asArray).getD []).filterMap Json.asStr
  router.attached.isSome &&
    (named.any router.namesCommand ||
      (!router.lifecycleSupported && router.unsolicited.isNone && uuid.isNone && uuids.isNone &&
        (message.pointer ["origin", "kind"]).isNone))

def finishesAttachedCommand (message : Json ν) : Bool :=
  router.attached.any fun turn =>
    message.strOf "type" = some "command_lifecycle" &&
      message.strOf "command_uuid" = some turn.commandId &&
      (message.strOf "state").any fun state => state = "completed" || state = "cancelled"

def backgroundPermission (message : Json ν) : Router φ × Option String :=
  match router.unsolicited with
  | none => (router, none)
  | some active =>
    if (message.pointer ["request", "subtype"]).bind Json.asStr ≠ some "can_use_tool" ∨
        maxBackgroundPermissionDenials ≤ active.denials then (router, none)
    else match (message.strOf "request_id").filter validRequestId with
      | none => (router, none)
      | some id =>
        ({ router with unsolicited := some { active with denials := active.denials + 1 } }, some id)

def unsupportedRequest (message : Json ν) : Router φ × Option String :=
  if (message.pointer ["request", "subtype"]).bind Json.asStr = some "can_use_tool" then (router, none)
  else match (message.strOf "request_id").filter validRequestId with
    | none => (router, none)
    | some id =>
      match router.unsolicited with
      | some active =>
        if maxUnownedControlAnswers ≤ active.unsupportedAnswers then (router, none)
        else
          ({ router with
            unsolicited := some { active with unsupportedAnswers := active.unsupportedAnswers + 1 } },
            some id)
      | none =>
        if maxUnownedControlAnswers ≤ router.idleUnsupportedAnswers then (router, none)
        else ({ router with idleUnsupportedAnswers := router.idleUnsupportedAnswers + 1 }, some id)

def classifyControlRequest (message : Json ν) (step : RouterStep) : (Router φ × RouterStep) × Destination :=
  if router.owned then ((router, step), .turn)
  else match router.backgroundPermission message with
    | (router, some id) =>
      ((router, { step with permissionDenials := step.permissionDenials ++ [id] }), .unsolicited)
    | (router, none) =>
      match router.unsupportedRequest message with
      | (router, none) => ((router, { step with unownedActivity := true }), .discard)
      | (router, some id) =>
        ((router, { step with unsupportedRequests := step.unsupportedRequests ++ [id] }),
          if router.unsolicited.isSome then .unsolicited else .discard)

def classifyOwned (kind : Option String) (message : Json ν) : Router φ × Destination :=
  if rootResult message then (router, .background)
  else
    let rootInit := kind = some "system" ∧ message.strOf "subtype" = some "init" ∧ message.isRoot
    match router.attached with
    | none => (router, .turn)
    | some turn =>
      if ¬ rootInit then (router, .turn)
      else if turn.resultSeen && !turn.initExpected then (router.openUnsolicited, .unsolicited)
      else ({ router with attached := some { turn with initExpected := false } }, .turn)

/-- The turn after its command has been completed or cancelled. -/
def commandEnded (turn : AttachedTurn) (id state : String) : AttachedTurn :=
  { turn with
    started := turn.started || id = turn.commandId
    interruptEvidence := turn.interruptEvidence || (turn.interrupting && state = "cancelled")
    cancelled := turn.cancelled ||
      (state = "cancelled" && id = turn.commandId && !turn.interrupting && !turn.resultSeen)
    running := if turn.running = some id then none else turn.running }

def classifyLifecycle (message : Json ν) (step : RouterStep) : (Router φ × RouterStep) × Destination :=
  let router := { router with lifecycleSupported := true }
  let id := (message.strOf "command_uuid").getD ""
  match router.attached with
  | none => ((router, step), .discard)
  | some turn =>
    if !router.namesCommand id then ((router, step), .discard)
    else match message.strOf "state" with
      | none => ((router, step), .command)
      | some state =>
        if state = "completed" ∨ state = "cancelled" then
          (({ router with attached := some (commandEnded turn id state) }, step), .command)
        else if state = "queued" then ((router.consumeWakeUp, step), .command)
        else if state ≠ "started" then ((router, step), .command)
        else
          let started := { turn with
            running := some id
            started := turn.started || id = turn.commandId
            initExpected := true }
          let router := { router with attached := some started }.consumeWakeUp
          (router.emitUnsolicited false step, .command)

/-- The turn after a result that names it. -/
def resultArrived (lifecycleSupported : Bool) (message : Json ν) (turn : AttachedTurn) : AttachedTurn :=
  let finished := turn.running.any (resultNames message)
  { turn with
    started := true
    resultSeen := true
    initExpected := false
    resultFailed := failedResult message
    interruptEvidence := turn.interruptEvidence || (turn.interrupting && failedResult message)
    running := if finished || !lifecycleSupported then none else turn.running }

def classify (message : Json ν) (step : RouterStep) : (Router φ × RouterStep) × Destination :=
  let kind := message.strOf "type"
  let root := message.isRoot
  if kind = some "command_lifecycle" then router.classifyLifecycle message step
  else if kind = some "control_response" then
    let resolved := router.taskStops.resolve message
    let router := { router with taskStops := resolved.1 }
    ((router, step), if resolved.2 then .discard else router.attachedDestination)
  else if kind = some "control_request" ∧ root then router.classifyControlRequest message step
  else if rootResult message && router.namesOurResult message then
    let emitted := router.emitUnsolicited false step
    let attached := emitted.1.attached.map (resultArrived router.lifecycleSupported message)
    (({ emitted.1 with attached := attached }, emitted.2), .turn)
  else if router.unsolicited.isSome then
    ((router, step), if router.attachedRunOwns message then .turn else .unsolicited)
  else if router.owned then
    let classified := router.classifyOwned kind message
    ((classified.1, step), classified.2)
  else if root && opensActivity kind message then ((router.openUnsolicited, step), .unsolicited)
  else ((router, step), router.attachedDestination)

/-- `if settled { self.record_settlement(via_interrupt, step); }`. -/
def settleWhen (settled viaInterrupt : Bool) (step : RouterStep) : Router φ × RouterStep :=
  if settled then router.recordSettlement viaInterrupt step else (router, step)

/-- `settle_ready`, where the turn may settle at all. -/
def settleReadyWhen (test : Bool) : Router φ × Bool × Bool :=
  if test then router.settleReady else (router, false, false)

/-- A tool result of the root answers a wake-up. -/
def noteToolResult (message : Json ν) : Router φ :=
  if rootToolResult message && router.detector.admitsRoot message then
    { router with wakeUpUnconsumed := false }
  else router

def expireLevelEnded (env : Platform ν φ) (message : Json ν) : Router φ × Bool :=
  let expired := router.detector.expireLevelEnded env message
  ({ router with detector := expired.1 }, expired.2)

/-- What is done before a message is classified. -/
def beforeClassify (env : Platform ν φ) (message : Json ν) (step : RouterStep) : Router φ × RouterStep :=
  let acknowledged := router.acknowledgesInterrupt message
  let expired := (acknowledged.1.noteToolResult message).expireLevelEnded env message
  let ready := expired.1.settleReadyWhen (expired.2 && expired.1.owned)
  ready.1.settleWhen ready.2.1 ready.2.2 (step.acknowledge acknowledged.2)

/-- The detector after a message, and whether it settles the turn. -/
def observed (env : Platform ν φ) (destination : Destination) (owned : Bool) (message : Json ν) :
    ResultLineDetector × Except String Bool :=
  if owned && (destination = .turn || destination = .command) then
    router.detector.consumeMessage env message
  else if destination = .command then
    let observed := router.detector.observeCommand message
    (observed.1, observed.2.map fun _ => false)
  else
    let tracked := router.detector.trackMessage env message
    (tracked.1, tracked.2.map fun _ => false)

/-- `if self.detector.resets() != resets { self.consume_wake_up(); }`. -/
def noteResets (resets : ℕ) : Router φ :=
  if router.detector.resets ≠ resets then router.consumeWakeUp else router

/-- `if self.detector.wake_ups() != wake_ups { self.note_wake_up(); }`. -/
def noteWakeUps (wakeUps : ℕ) : Router φ :=
  if router.detector.wakeUps ≠ wakeUps then router.noteWakeUp else router

def observe (env : Platform ν φ) (destination : Destination) (owned : Bool) (message : Json ν) :
    Router φ × Except String Bool :=
  let observed := router.observed env destination owned message
  let noted := { router with detector := observed.1 }.noteResets router.detector.resets
  (noted.noteWakeUps router.detector.wakeUps, observed.2)

/-- What is done once a message has been passed on. -/
def afterForward (finishesCommand natural : Bool) (step : RouterStep) : Router φ × RouterStep :=
  let router :=
    if finishesCommand then { router with detector := router.detector.commandFinished } else router
  let ready := if natural then (router, true, false) else router.settleReadyWhen router.owned
  let settled := ready.1.settleWhen ready.2.1 ready.2.2 step
  (settled.1.promoteUnconsumedWakeUp, settled.2)

/-- The end of a background turn at its result. -/
def emitWhen (test : Bool) (step : RouterStep) : Router φ × RouterStep :=
  if test then router.emitUnsolicited true step else (router, step)

/-- What the outcome of the detector means for the turn. -/
def conclude (finishesCommand : Bool) (outcome : Except String Bool) (step : RouterStep) : Router φ × RouterStep :=
  match outcome with
  | .error error => (router, { step with failure := some error })
  | .ok natural => router.afterForward finishesCommand natural step

/-- What becomes of a message whose destination is known. -/
def routeClassified (env : Platform ν φ) (finishesCommand : Bool) (destination : Destination)
    (message : Json ν) (line : List UInt8) (step : RouterStep) : Router φ × RouterStep :=
  let owned := router.owned
  let noted := router.noteRun destination owned message
  let observed := noted.observe env destination owned message
  let forwarded := observed.1.forward env (noted.delivery destination message) message line step
  let emitted := forwarded.1.emitWhen (destination = .unsolicited && rootResult message) forwarded.2
  emitted.1.conclude finishesCommand observed.2 emitted.2

def routeMessage (env : Platform ν φ) (message : Json ν) (line : List UInt8) (step : RouterStep) :
    Router φ × RouterStep :=
  let before := router.beforeClassify env message step
  let classified := before.1.classify message before.2
  classified.1.1.routeClassified env (before.1.finishesAttachedCommand message) classified.2 message
    line classified.1.2

def routeLine (env : Platform ν φ) (line : List UInt8) (step : RouterStep) : Router φ × RouterStep :=
  match env.fromSlice line with
  | some message => router.routeMessage env message line step
  | none =>
    match router.unsolicited with
    | some active => ({ router with unsolicited := some { active with truncated := true } }, step)
    | none => (router.deliver router.attachedDestination line .activity step).1

def overflow (complete : Bool) (step : RouterStep) : Router φ × RouterStep :=
  let line := router.line
  let router := { router with line := [], mode := if complete then .buffering else .skipping }
  if lifecycleCandidate line then (router, { step with failure := some oversizedFrameError })
  else if router.owned then
    ({ router with mode := if complete then .buffering else .streaming },
      { step with turnOutput := step.turnOutput ++ line })
  else match router.unsolicited with
    | none => (router, step)
    | some active => ({ router with unsolicited := some { active with truncated := true } }, step)

def absorb (env : Platform ν φ) (piece : List UInt8) (complete : Bool) (step : RouterStep) : Router φ × RouterStep :=
  let next := if complete then LineMode.buffering else router.mode
  match router.mode with
  | .streaming => ({ router with mode := next }, { step with turnOutput := step.turnOutput ++ piece })
  | .skipping => ({ router with mode := next }, step)
  | .buffering =>
    let router := { router with line := router.line ++ piece }
    if maxRoutedLineBytes < router.line.length - complete.toNat then router.overflow complete step
    else if !complete then (router, step)
    else { router with line := [] }.routeLine env router.line step

end Router

/-- A chunk up to each newline, and what is behind the last one. -/
def pieces : List UInt8 → List (List UInt8)
  | [] => []
  | byte :: chunk =>
    if byte = newline then [byte] :: pieces chunk
    else match pieces chunk with
      | [] => [[byte]]
      | piece :: rest => (byte :: piece) :: rest

namespace Router

/-- The loop of `feed`. -/
def feedPieces (env : Platform ν φ) : List (List UInt8) → Router φ × RouterStep → Router φ × RouterStep
  | [], routed => routed
  | piece :: rest, (router, step) =>
    if step.failure.isSome then (router, step)
    else feedPieces env rest (router.absorb env piece (piece.getLast? = some newline) step)

def feed (env : Platform ν φ) (router : Router φ) (now : ℕ) (chunk : List UInt8) : Router φ × RouterStep :=
  let routed := feedPieces env (pieces chunk) (router, .default)
  let change := routed.1.backgroundChange now
  (change.1, { routed.2 with backgroundTasks := change.2 })

end Router

end CodevoEditor.ClaudeSession
