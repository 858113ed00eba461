/-
# When a turn of a Claude session is over

`agent_task_result_detector.rs`: a turn is over at its root result, unless tasks that it has
started are still live; then it is over when they have ended.
-/

import CodevoEditor.ClaudeSession.InputLifecycle

namespace CodevoEditor.ClaudeSession

open Js

def maxLineBytes : ℕ := 1024 * 1024
def maxLiveTasks : ℕ := 256
def maxObservedTasks : ℕ := 4096
def maxRetiredSessions : ℕ := 16
def maxPendingMonitorCalls : ℕ := 64
def monitorTool : String := "Monitor"
def maxBackgroundTaskDescriptionBytes : ℕ := 512

def trackingLimitError : String := "Claude background tasks exceeded their tracking limit."
def historyLimitError : String := "Claude background task history exceeded its tracking limit."
def oversizedLifecycleError : String := "Claude background lifecycle frame exceeded its size limit."

inductive ResultSettlePolicy
  | settleOnFailure
  | awaitBackgroundWork
  deriving DecidableEq

inductive TaskScope
  | foreground
  | background
  deriving DecidableEq

inductive TaskEnd
  | finished
  | unexplained
  deriving DecidableEq

inductive BackgroundTaskKind
  | agent
  | shell
  | monitor
  | other
  deriving DecidableEq

structure LiveBackgroundTask where
  taskId : String
  kind : BackgroundTaskKind
  description : Option String
  deriving DecidableEq

structure TaskFacts where
  kind : BackgroundTaskKind
  description : Option String
  run : Option String
  inert : Bool

structure LiveTask where
  scope : TaskScope
  facts : TaskFacts
  order : ℕ

inductive Tombstone
  | finished (facts : TaskFacts)
  | retired

variable {ν φ : Type}

/-! ### What a message says -/

variable (message : Json ν)

def failedResult : Bool :=
  message.boolOf "is_error" = some true ||
    (message.strOf "subtype").any fun subtype => "error".toList.isPrefixOf subtype.toList

def taskEnd (status : Option String) : TaskEnd :=
  if status = some "completed" ∨ status = some "failed" then .finished else .unexplained

def didWork (env : Platform ν φ) (message : Json ν) : Bool :=
  let positive (value : Option (Json ν)) : Bool := match value with
    | some (.number number) => (env.asU64 number).any (0 < ·)
    | _ => false
  positive (message.get "num_turns") || positive (message.pointer ["usage", "output_tokens"]) ||
    (message.strOf "result").any fun text => trim text ≠ []

/-- The tasks that no turn waits for. -/
def inertTask : Bool :=
  message.boolOf "ambient" = some true ||
    (message.strOf "task_type").any fun kind => kind = "plan" || kind = "dream"

def boundedDescription (value : Option (Json ν)) : Option String :=
  match value.bind Json.asStr with
  | none => none
  | some text =>
    let text := trim text
    if text = [] ∨ text.any isControl then none
    else some (String.ofList (takeBytes maxBackgroundTaskDescriptionBytes text))

def taskKind (previous : Option TaskFacts) : BackgroundTaskKind :=
  match message.strOf "task_type" with
  | some kind =>
    if kind = "agent" ∨ kind = "local_agent" ∨ kind = "remote_agent" then .agent
    else if kind = "shell" ∨ kind = "local_bash" then .shell
    else if kind = "monitor" ∨ kind = "monitor_mcp" ∨ kind = "monitor_ws" then .monitor
    else .other
  | none => (previous.map TaskFacts.kind).getD .other

def taskFacts (previous : Option TaskFacts) : TaskFacts where
  kind := taskKind message previous
  description :=
    if message.strOf "subtype" = some "task_started" then boundedDescription (message.get "description")
    else previous.bind TaskFacts.description
  run := ((message.strOf "tool_use_id").filter validId).or (previous.bind TaskFacts.run)
  inert := inertTask message

/-- The subtypes of the frames about a task. -/
def taskFrames : List String := ["task_started", "task_progress", "task_notification", "task_updated"]

def leveledTask : Bool :=
  (message.strOf "task_type").any fun kind =>
    kind = "local_bash" || kind = "monitor_mcp" || kind = "monitor_ws"

def taskBookend : Option String :=
  match message.strOf "subtype" with
  | none => none
  | some subtype =>
    if subtype = "task_progress" ∨ subtype = "task_notification" ∨ subtype = "task_updated" ∨
        subtype = "background_tasks_changed" then
      some ((message.strOf "task_id").getD "")
    else none

def newline : UInt8 := 10

/-- The bytes of a text of ASCII characters. -/
def asciiBytes (text : String) : List UInt8 := text.toList.map fun character =>
  UInt8.ofNat character.toNat

def lifecycleCandidate (line : List UInt8) : Bool :=
  !(asciiBytes "\x7b\"type\":\"assistant\"").isPrefixOf line &&
    !(asciiBytes "\x7b\"type\":\"stream_event\"").isPrefixOf line &&
    !(asciiBytes "\x7b\"type\":\"user\"").isPrefixOf line

structure BackgroundLevel where
  announced : Finset String
  tracked : Finset String
  listed : Finset String
  ended : Finset String

namespace BackgroundLevel

def default : BackgroundLevel := ⟨∅, ∅, ∅, ∅⟩

/-- The tasks that a listing announces. -/
def announcedIn (tasks : List (Json ν)) : Finset String :=
  ((tasks.filter fun task => task.boolOf "ambient" ≠ some true).filterMap fun task =>
    (task.strOf "task_id").filter validId).toFinset

variable (level : BackgroundLevel)

def replace (message : Json ν) : BackgroundLevel :=
  match message.arrayOf "tasks" with
  | none => level
  | some tasks =>
    if maxObservedTasks < tasks.length then level
    else
      let announced := announcedIn tasks
      { announced := announced
        tracked := level.tracked
        listed := level.listed ∪ level.tracked.filter (· ∈ announced)
        ended := (level.ended ∪ level.listed.filter (· ∉ announced)).filter (· ∉ announced) }

def forget (task : String) : BackgroundLevel :=
  { level with
    tracked := level.tracked.erase task
    listed := level.listed.erase task
    ended := level.ended.erase task }

def started (task : String) (leveled : Bool) : BackgroundLevel :=
  let level := level.forget task
  if !leveled then level
  else
    { level with
      tracked := insert task level.tracked
      listed := if task ∈ level.announced then insert task level.listed else level.listed }

def hasEnded : Bool := level.ended ≠ ∅

def awaits (message : Json ν) : Bool :=
  (taskBookend message).any fun task => task = "" || task ∈ level.ended

end BackgroundLevel

structure ResultLineDetector where
  line : List UInt8
  skippingLine : Bool
  fired : Bool
  live : OrderedMap String LiveTask
  level : BackgroundLevel
  inherited : Finset String
  terminal : OrderedMap String Tombstone
  buried : List String
  session : Option String
  retired : List String
  lifecycle : Option ClaudeInputLifecycle
  resultCandidate : Bool
  resultSeen : Bool
  rootOutput : Bool
  resetPending : Bool
  drainSuspended : Bool
  policy : ResultSettlePolicy
  started : ℕ
  backgroundRevision : ℕ
  wakeUps : ℕ
  resets : ℕ
  monitorCalls : List String

namespace ResultLineDetector

/-- `new().with_settle_policy(policy)`. -/
def new (policy : ResultSettlePolicy) : ResultLineDetector where
  line := []
  skippingLine := false
  fired := false
  live := .empty
  level := .default
  inherited := ∅
  terminal := .empty
  buried := []
  session := none
  retired := []
  lifecycle := none
  resultCandidate := false
  resultSeen := false
  rootOutput := false
  resetPending := false
  drainSuspended := false
  policy := policy
  started := 0
  backgroundRevision := 0
  wakeUps := 0
  resets := 0
  monitorCalls := []

variable (detector : ResultLineDetector)

def rearm (lifecycle : Option ClaudeInputLifecycle) : ResultLineDetector :=
  { detector with
    fired := false
    resultCandidate := false
    resultSeen := false
    rootOutput := false
    drainSuspended := false
    lifecycle := lifecycle
    inherited := detector.live.keys.toFinset }

def suspendDrainSettlement : ResultLineDetector :=
  { detector with drainSuspended := true }

def resumeDrainSettlement : ResultLineDetector :=
  { detector with drainSuspended := false }

variable (id : String)

def holdsTurn (task : LiveTask) : Bool :=
  if id ∈ detector.inherited then false
  else detector.policy ≠ .awaitBackgroundWork || task.facts.kind ≠ .monitor

def armedLiveEmpty : Bool :=
  detector.live.entries.all fun entry => !detector.holdsTurn entry.1 entry.2

def armedForegroundLive : Bool :=
  detector.live.entries.any fun entry =>
    entry.2.scope = .foreground && entry.1 ∉ detector.inherited

variable (task : String)

def hasLiveBackgroundTask : Bool :=
  (detector.live.get? task).any fun task => task.scope = .background

def backgroundTasks : List LiveBackgroundTask :=
  let tasks := detector.live.entries.filter fun entry => entry.2.scope = .background
  (tasks.mergeSort fun entry other => entry.2.order ≤ other.2.order).map fun entry =>
    ⟨entry.1, entry.2.facts.kind, entry.2.facts.description⟩

variable (message : Json ν)

def admitsRoot : Bool :=
  if !message.isRoot then false
  else match message.strOf "session_id" with
    | none => true
    | some session =>
      if !validId session || detector.retired.contains session then false
      else detector.session.all (· = session)

def acceptsRoot : ResultLineDetector × Bool :=
  if !detector.admitsRoot message then (detector, false)
  else ({ detector with session := detector.session.or (message.strOf "session_id") }, true)

def ownRoot : Bool :=
  message.isRoot && (message.strOf "session_id").all fun session => detector.session.all (· = session)

def drains : Bool :=
  detector.policy = .awaitBackgroundWork && !detector.drainSuspended

/-- `lifecycle.close_if_settled()`, of the lifecycle that is there. -/
def closeIfSettled : ResultLineDetector × Bool :=
  match detector.lifecycle with
  | none => (detector, true)
  | some lifecycle =>
    let closed := lifecycle.closeIfSettled
    ({ detector with lifecycle := some closed.1 }, closed.2)

def settled : ResultLineDetector × Bool :=
  if detector.resultCandidate && detector.armedLiveEmpty then detector.closeIfSettled
  else (detector, false)

/-- `self.fired = …; self.fired`. -/
def fire (settled : ResultLineDetector × Bool) : ResultLineDetector × Bool :=
  ({ settled.1 with fired := settled.2 }, settled.2)

def settleInterrupted : ResultLineDetector × Bool :=
  if detector.fired then (detector, false) else fire detector.closeIfSettled

def settleFinishedForeground : ResultLineDetector × Bool :=
  if detector.fired || !detector.resultSeen || detector.armedForegroundLive then (detector, false)
  else fire detector.closeIfSettled

def settleIfReady : ResultLineDetector × Bool :=
  if detector.fired then (detector, false)
  else
    let detector :=
      if detector.drains && detector.resultSeen && detector.armedLiveEmpty then
        { detector with resultCandidate := true }
      else detector
    fire detector.settled

def commandFinished : ResultLineDetector :=
  let detector := { detector with resultSeen := true }
  if detector.armedLiveEmpty then { detector with resultCandidate := true } else detector

/-- `lifecycle.observe(message)?`, of the lifecycle that is there. -/
def observeLifecycle : ResultLineDetector × Except String Unit :=
  match detector.lifecycle with
  | none => (detector, .ok ())
  | some lifecycle =>
    let observed := lifecycle.observe message
    ({ detector with lifecycle := some observed.1 }, observed.2)

def observeCommand : ResultLineDetector × Except String Unit :=
  if message.strOf "type" ≠ some "command_lifecycle" then (detector, .ok ())
  else detector.observeLifecycle message

def unpromptedResult : Bool :=
  let uuid := message.get "user_message_uuid"
  if detector.policy ≠ .awaitBackgroundWork then false
  else if !((uuid.map Json.isNull).getD true) then false
  else if (message.arrayOf "user_message_uuids").any fun ids => (ids.filterMap Json.asStr).any fun id =>
      detector.lifecycle.any fun lifecycle => lifecycle.namesCommand id then false
  else uuid.isSome || (message.pointer ["origin", "kind"]).any Json.isString

/-! #### Starts and ends -/

def noteMonitorCall (call : String) : ResultLineDetector :=
  let known := detector.monitorCalls.filter (· ≠ call)
  let known := if known.length = maxPendingMonitorCalls then known.tail else known
  { detector with monitorCalls := known ++ [call] }

/-- The calls of the `Monitor` tool in an answer. -/
def monitorCallsOf : List String :=
  let content := ((message.pointer ["message", "content"]).bind Json.asArray).getD []
  let calls := content.filter fun block =>
    block.strOf "type" = some "tool_use" && block.strOf "name" = some monitorTool
  (calls.filterMap fun block => block.strOf "id").filter validId

def noteMonitorCalls : ResultLineDetector :=
  if message.strOf "type" ≠ some "assistant" then detector
  else (monitorCallsOf message).foldl noteMonitorCall detector

def startedFacts : ResultLineDetector × TaskFacts :=
  let facts := taskFacts message none
  match facts.run with
  | none => (detector, facts)
  | some run =>
    if run ∈ detector.monitorCalls then
      ({ detector with monitorCalls := detector.monitorCalls.erase run }, { facts with kind := .monitor })
    else (detector, facts)

def noteBackground (scope : TaskScope) : ResultLineDetector :=
  if scope = .background then
    { detector with backgroundRevision := wrappingSucc detector.backgroundRevision }
  else detector

def noteWakeUp (scope : TaskScope) (taskEnd : TaskEnd) : ResultLineDetector :=
  if scope = .background ∧ taskEnd = .finished then
    { detector with wakeUps := wrappingSucc detector.wakeUps }
  else detector

def bury (tombstone : Tombstone) : ResultLineDetector :=
  if detector.terminal.has task then detector
  else
    { detector with
      buried := detector.buried ++ [task]
      terminal := detector.terminal.set task tombstone }

def exhume : ResultLineDetector :=
  { detector with
    terminal := detector.terminal.delete task
    buried := detector.buried.filter (· ≠ task) }

/-- The loop of `make_room` over the order in which tasks were buried. -/
def makeRoomFrom (detector : ResultLineDetector) : List String → ResultLineDetector × Except String Unit
  | [] =>
    if detector.terminal.size + detector.live.size < maxObservedTasks then (detector, .ok ())
    else if detector.policy ≠ .awaitBackgroundWork then (detector, .error historyLimitError)
    else (detector, .error trackingLimitError)
  | oldest :: buried =>
    if detector.terminal.size + detector.live.size < maxObservedTasks then (detector, .ok ())
    else if detector.policy ≠ .awaitBackgroundWork then (detector, .error historyLimitError)
    else
      makeRoomFrom { detector with terminal := detector.terminal.delete oldest, buried := buried } buried

def makeRoom : ResultLineDetector × Except String Unit :=
  detector.makeRoomFrom detector.buried

def start (scope : TaskScope) (facts : TaskFacts) (message : Json ν) : ResultLineDetector :=
  let detector := { detector with
    level := detector.level.started task (leveledTask message)
    started := wrappingSucc detector.started }
  let detector := detector.noteBackground scope
  { detector with live := detector.live.set task ⟨scope, facts, detector.started⟩ }

def finish (message : Json ν) (taskEnd : TaskEnd) : ResultLineDetector :=
  let removed : ResultLineDetector × TaskFacts := match detector.live.get? task with
    | some live =>
      ((({ detector with live := detector.live.delete task }.noteBackground live.scope).noteWakeUp
        live.scope taskEnd), live.facts)
    | none => (detector, taskFacts message none)
  let detector := { removed.1 with
    inherited := removed.1.inherited.erase task
    level := removed.1.level.forget task }
  detector.bury task (.finished removed.2)

/-- The end of each live task of a session that is retired. -/
def retireTask (retired : String × LiveTask) : ResultLineDetector :=
  (detector.noteBackground retired.2.scope).bury retired.1 .retired

/-- What `retire_session` forgets before it buries the tasks. -/
def endSession : ResultLineDetector :=
  let sessions := match detector.session with
    | none => detector.retired
    | some session =>
      (if detector.retired.length = maxRetiredSessions then detector.retired.tail
        else detector.retired) ++ [session]
  { detector with
    resets := wrappingSucc detector.resets
    session := none
    retired := sessions
    inherited := ∅
    monitorCalls := []
    level := .default
    live := .empty }

variable (env : Platform ν φ)

def retireSession (detector : ResultLineDetector) : ResultLineDetector :=
  let live := (env.listed detector.live.keys.toFinset).filterMap fun task =>
    (detector.live.get? task).map fun live => (task, live)
  live.foldl retireTask detector.endSession

/-- The loop of `expire_level_ended`. -/
def finishEnded (tasks : List String) : ResultLineDetector :=
  tasks.foldl (fun detector task => detector.finish task message .unexplained) detector

def expireLevelEnded (detector : ResultLineDetector) (message : Json ν) : ResultLineDetector × Bool :=
  if !detector.level.hasEnded || !detector.ownRoot message || detector.level.awaits message then
    (detector, false)
  else
    let level := { detector.level with ended := ∅ }
    ({ detector with level := level }.finishEnded message (env.listed detector.level.ended), true)

def frameStatus (subtype : String) (message : Json ν) : Option String :=
  if subtype = "task_updated" then (message.get "patch").bind (Json.strOf "status")
  else message.strOf "status"

def frameScope : TaskScope :=
  if message.boolOf "is_backgrounded" = some false then .foreground else .background

def terminalStatuses : List String :=
  ["completed", "failed", "killed", "cancelled", "stopped", "interrupted"]

def terminalFrame (subtype : String) (message : Json ν) : Bool :=
  inertTask message || (frameStatus subtype message).any fun status => terminalStatuses.contains status

def reviveResumed (message : Json ν) : ResultLineDetector × Except String Unit :=
  match detector.terminal.get? id with
  | some (.finished previous) =>
    match previous.run with
    | none => (detector, .ok ())
    | some run =>
      let resumed := ((message.strOf "tool_use_id").filter validId).any (· ≠ run)
      if !resumed || previous.inert || previous.kind ≠ .agent then (detector, .ok ())
      else if maxLiveTasks ≤ detector.live.size then (detector, .error trackingLimitError)
      else
        let facts := taskFacts message (some previous)
        let detector := (detector.exhume id).start id .background facts message
        ({ detector with inherited := insert id detector.inherited }, .ok ())
  | _ => (detector, .ok ())

/-- A task that is started again after it has finished. -/
def startAgain (message : Json ν) : ResultLineDetector × Except String Unit :=
  if maxLiveTasks ≤ detector.live.size then (detector, .error trackingLimitError)
  else
    let detector := detector.exhume id
    let started := { detector with inherited := detector.inherited.erase id }.startedFacts message
    (started.1.start id (frameScope message) started.2 message, .ok ())

/-- A task that is not known yet is started. -/
def startNew (message : Json ν) : ResultLineDetector × Except String Unit :=
  if maxLiveTasks ≤ detector.live.size then (detector, .error trackingLimitError)
  else match detector.makeRoom with
    | (detector, .error _) => (detector, .error trackingLimitError)
    | (detector, .ok ()) =>
      let started := detector.startedFacts message
      (started.1.start id (frameScope message) started.2 message, .ok ())

/-- A line that says that a task has ended. -/
def endTask (id subtype : String) (message : Json ν) : ResultLineDetector × Except String Unit :=
  let roomy : ResultLineDetector × Except String Unit :=
    if !detector.terminal.has id && !detector.live.has id then detector.makeRoom
    else (detector, .ok ())
  match roomy with
  | (detector, .error error) => (detector, .error error)
  | (detector, .ok ()) =>
    (detector.finish id message (taskEnd (frameStatus subtype message)), .ok ())

/-- `consume_task`, of a frame about a task. -/
def consumeTaskFrame (id subtype : String) (message : Json ν) : ResultLineDetector × Except String Unit :=
  let terminal := terminalFrame subtype message
  let finished : Bool := match detector.terminal.get? id with
    | some (.finished _) => true
    | _ => false
  if !terminal && subtype = "task_started" && finished then detector.startAgain id message
  else if !terminal && subtype ≠ "task_started" then detector.reviveResumed id message
  else if terminal then detector.endTask id subtype message
  else if !detector.terminal.has id && !detector.live.has id then detector.startNew id message
  else (detector, .ok ())

def consumeTask : ResultLineDetector × Except String Unit :=
  match message.strOf "subtype" with
  | none => (detector, .ok ())
  | some subtype =>
    if subtype = "background_tasks_changed" then
      ({ detector with level := detector.level.replace message }, .ok ())
    else if !taskFrames.contains subtype then (detector, .ok ())
    else match (message.strOf "task_id").filter validId with
      | none => (detector, .ok ())
      | some id => detector.consumeTaskFrame id subtype message

/-- `consume_task`, and the live task that it has started is inherited. -/
def trackTask : ResultLineDetector × Except String Unit :=
  let task := (message.strOf "task_id").filter fun task => !detector.live.has task
  match detector.consumeTask message with
  | (detector, .error error) => (detector, .error error)
  | (detector, .ok ()) =>
    let detector := match task.filter fun task => detector.live.has task with
      | none => detector
      | some task => { detector with inherited := insert task detector.inherited }
    if !detector.armedLiveEmpty then ({ detector with resultCandidate := false }, .ok ())
    else (detector, .ok ())

def trackMessage (detector : ResultLineDetector) (message : Json ν) : ResultLineDetector × Except String Unit :=
  let accepted := detector.acceptsRoot message
  if !accepted.2 then (accepted.1, .ok ())
  else
    let detector := ((accepted.1.noteMonitorCalls message).expireLevelEnded env message).1
    if message.strOf "type" ≠ some "system" then (detector, .ok ())
    else detector.trackTask message

/-- The branch of `consume_value` for a result. -/
def consumeResult : ResultLineDetector × Except String Bool :=
  let detector := { detector with resultCandidate := detector.armedLiveEmpty, resultSeen := true }
  if failedResult message && detector.policy = .settleOnFailure then (detector, .ok true)
  else
    let settled := detector.settled
    (settled.1, .ok settled.2)

/-- What a line of the system says of the output of the root. -/
def noteRootOutput : ResultLineDetector :=
  match message.strOf "subtype" with
  | some subtype =>
    if subtype = "init" then
      { detector with rootOutput := detector.resetPending, resetPending := false }
    else if subtype = "compact_boundary" then { detector with rootOutput := true }
    else detector
  | none => detector

/-- The branch of `consume_value` for a line of the system. -/
def consumeSystem : ResultLineDetector × Except String Bool :=
  let detector := detector.noteRootOutput message
  let hadLive := !detector.armedLiveEmpty
  match detector.consumeTask message with
  | (detector, .error error) => (detector, .error error)
  | (detector, .ok ()) =>
    if !detector.armedLiveEmpty then ({ detector with resultCandidate := false }, .ok false)
    else if !hadLive || !detector.resultSeen || !detector.drains then (detector, .ok false)
    else
      let settled := { detector with resultCandidate := true }.settled
      (settled.1, .ok settled.2)

/-- `consume_value`, of a message that the lifecycle has observed. -/
def consumeKind (detector : ResultLineDetector) (message : Json ν) : ResultLineDetector × Except String Bool :=
  match message.strOf "type" with
  | none => (detector, .ok false)
  | some kind =>
    if kind = "result" then detector.consumeResult message
    else if kind = "assistant" then ({ detector with rootOutput := true }, .ok false)
    else if kind = "conversation_reset" then
      ({ detector.retireSession env with rootOutput := true, resetPending := true }, .ok false)
    else if kind = "system" then detector.consumeSystem message
    else if kind = "command_lifecycle" then
      let settled := detector.settled
      (settled.1, .ok settled.2)
    else (detector, .ok false)

def consumeValue (detector : ResultLineDetector) (message : Json ν) : ResultLineDetector × Except String Bool :=
  let accepted := detector.acceptsRoot message
  if !accepted.2 then (accepted.1, .ok false)
  else
    let detector := ((accepted.1.noteMonitorCalls message).expireLevelEnded env message).1
    let result := message.strOf "type" = some "result"
    if result && detector.unpromptedResult message then (detector, .ok false)
    else if result && !failedResult message && !detector.rootOutput && !didWork env message then
      (detector, .ok false)
    else match detector.observeLifecycle message with
      | (detector, .error error) => (detector, .error error)
      | (detector, .ok ()) => detector.consumeKind env message

/-- `if settled { self.fired = true; }`. -/
def fireIfSettled : ResultLineDetector × Except String Bool → ResultLineDetector × Except String Bool
  | (detector, .ok true) => ({ detector with fired := true }, .ok true)
  | other => other

def consumeMessage (detector : ResultLineDetector) (message : Json ν) : ResultLineDetector × Except String Bool :=
  if detector.fired then (detector, .ok false) else fireIfSettled (detector.consumeValue env message)

def consumeLine (detector : ResultLineDetector) (line : List UInt8) : ResultLineDetector × Except String Bool :=
  match env.fromSlice line with
  | none => (detector, .ok false)
  | some message => detector.consumeValue env message

/-- One turn of the loop of `feed`; whether it ends there. -/
def feedByte (detector : ResultLineDetector) (byte : UInt8) : ResultLineDetector × Except String Bool :=
  if byte = newline then
    if detector.skippingLine then ({ detector with line := [], skippingLine := false }, .ok false)
    else fireIfSettled ({ detector with line := [] }.consumeLine env detector.line)
  else if detector.skippingLine then (detector, .ok false)
  else if detector.line.length = maxLineBytes then
    if lifecycleCandidate detector.line then (detector, .error oversizedLifecycleError)
    else ({ detector with line := [], skippingLine := true }, .ok false)
  else ({ detector with line := detector.line ++ [byte] }, .ok false)

def feedFrom (env : Platform ν φ) (detector : ResultLineDetector) :
    List UInt8 → ResultLineDetector × Except String Bool
  | [] => (detector, .ok false)
  | byte :: chunk =>
    match detector.feedByte env byte with
    | (detector, .ok false) => feedFrom env detector chunk
    | other => other

def feed (detector : ResultLineDetector) (chunk : List UInt8) : ResultLineDetector × Except String Bool :=
  if detector.fired then (detector, .ok false) else detector.feedFrom env chunk

end ResultLineDetector

end CodevoEditor.ClaudeSession
