/-
# The registry of Claude sessions

`claude_session_registry.rs`: a turn asks for the session of its thread, and where there is none
that it may reuse, a slot is reserved, a process is spawned and its session is inserted.

A call that only asks sessions to terminate leaves the registry as it is and is left out.
-/

import CodevoEditor.Js.OrderedMap

namespace CodevoEditor.ClaudeSession
namespace SessionRegistry

open Js

def maxLiveClaudeSessions : ℕ := 8
def reuseDecisionAttempts : ℕ := 2
def admissionClosedError : String := "Agent task startup is closed."
def endedDuringStartError : String := "Claude exited while its thread session was starting."
def busyError : String := "This thread's Claude session is busy. Retry in a moment."
def stopTimeoutError : String :=
  "The previous Claude session for this thread could not be stopped in time."
def restartConfirmationError : String :=
  "sessionRestartRequiresConfirmation: Restarting ends this Claude session. " ++
    "Background tasks it started may stop."

-- `χ` identifies an executable, and `ω` is what else a session is launched with.
variable {χ ω : Type}

structure ClaudeSessionKey where
  workspaceId : String
  threadId : String
  deriving DecidableEq

structure ClaudeSessionFingerprint (χ ω : Type) where
  executable : χ
  providerGeneration : ℕ
  launch : ω
  deriving DecidableEq

/-- A session, by the number of its start: `Arc::ptr_eq` compares this number. -/
structure ThreadSession (χ ω : Type) where
  number : ℕ
  key : ClaudeSessionKey
  generation : ℕ
  fingerprint : ClaudeSessionFingerprint χ ω
  deriving DecidableEq

structure StartingSlot where
  generation : Option ℕ
  ended : Bool

structure RegistryState (χ ω : Type) where
  sessions : OrderedMap ClaudeSessionKey (ThreadSession χ ω)
  starting : OrderedMap ClaudeSessionKey StartingSlot
  closed : Bool

inductive RestartReason
  | providerChanged
  | launchChanged
  | conversationChanged
  | unhealthy

def RestartReason.needsConfirmation : RestartReason → Bool
  | launchChanged => true
  | conversationChanged => true
  | _ => false

inductive Disposition
  | spawn
  | reuse
  | busy
  | restart (reason : RestartReason)

inductive SessionAvailability
  | idle
  | attached
  | ending
  deriving DecidableEq

inductive RestartPolicy
  | refuseIfBackground
  | stopBackground
  deriving DecidableEq

inductive IdleTermination
  | requested
  | notIdle
  | backgroundTasks
  deriving DecidableEq

/-- What a session says of itself, its fingerprint apart. -/
structure LiveSessionFacts where
  conversation : Option String
  availability : SessionAvailability
  background : Bool
  lastActivity : ℕ

structure SessionRequest (χ ω : Type) where
  key : ClaudeSessionKey
  fingerprint : ClaudeSessionFingerprint χ ω
  resumeSessionId : Option String
  restart : RestartPolicy

section Decisions

variable [DecidableEq χ] [DecidableEq ω]

def decideSessionDisposition (live : Option (ClaudeSessionFingerprint χ ω × LiveSessionFacts))
    (requested : ClaudeSessionFingerprint χ ω) (resumeSessionId : Option String) : Disposition :=
  match live with
  | none => .spawn
  | some (fingerprint, facts) =>
    match facts.availability with
    | .attached => .busy
    | .ending => .restart .unhealthy
    | .idle =>
      if fingerprint.executable ≠ requested.executable ∨
          fingerprint.providerGeneration ≠ requested.providerGeneration then .restart .providerChanged
      else if fingerprint ≠ requested then .restart .launchChanged
      else match facts.conversation, resumeSessionId with
        | some current, some wanted =>
          if current = wanted then .reuse else .restart .conversationChanged
        | _, _ => .restart .conversationChanged

end Decisions

structure EvictionCandidate where
  key : ClaudeSessionKey
  generation : ℕ
  attached : Bool
  background : Bool
  lastActivity : ℕ

/-- The order of `min_by_key`: by background work, last activity and generation. -/
def EvictionCandidate.before (candidate other : EvictionCandidate) : Bool :=
  if candidate.background ≠ other.background then other.background
  else if candidate.lastActivity ≠ other.lastActivity then
    candidate.lastActivity < other.lastActivity
  else candidate.generation < other.generation

def chooseEviction (candidates : List EvictionCandidate) : Option ClaudeSessionKey :=
  let chosen := (candidates.filter fun candidate => !candidate.attached).foldl (fun chosen candidate =>
    match chosen with
    | none => some candidate
    | some best => if candidate.before best then some candidate else some best) none
  chosen.map EvictionCandidate.key

namespace RegistryState

variable (state : RegistryState χ ω)

def new : RegistryState χ ω := ⟨.empty, .empty, false⟩

variable (key : ClaudeSessionKey)

/-- The session of the key, and those of the thread in other workspaces. -/
def snapshot : Except String (Option (ThreadSession χ ω) × List (ThreadSession χ ω)) :=
  if state.closed then .error admissionClosedError
  else if state.starting.has key then .error busyError
  else
    let displaced := state.sessions.entries.filter fun entry =>
      entry.1.threadId = key.threadId && entry.1.workspaceId ≠ key.workspaceId
    .ok (state.sessions.get? key, displaced.map Prod.snd)

def ensureOpen : Except String Unit := if state.closed then .error admissionClosedError else .ok ()

/-- Where the registry is full, the sessions of which one may be evicted. -/
inductive Reservation (χ ω : Type)
  | reserved (state : RegistryState χ ω)
  | full (sessions : List (ThreadSession χ ω))

/-- One turn of the loop of `reserve_slot`. -/
def reserveSlot (max : ℕ) (key : ClaudeSessionKey) : Except String (Reservation χ ω) :=
  if state.closed then .error admissionClosedError
  else if state.starting.has key || state.sessions.has key then .error busyError
  else if state.sessions.size + state.starting.size < max then
    .ok (.reserved { state with starting := state.starting.set key ⟨none, false⟩ })
  else .ok (.full state.sessions.values)

def assign (generation : ℕ) : RegistryState χ ω :=
  match state.starting.get? key with
  | none => state
  | some slot =>
    { state with starting := state.starting.set key { slot with generation := some generation } }

/-- The drop of a `StartingGuard`. -/
def release : RegistryState χ ω :=
  { state with starting := state.starting.delete key }

/-- `insert`; where it is refused, the session is killed. -/
def insert (session : ThreadSession χ ω) : RegistryState χ ω × Option String :=
  let ended := (state.starting.get? key).any StartingSlot.ended
  if state.closed then (state, some admissionClosedError)
  else if ended then (state, some endedDuringStartError)
  else if state.sessions.has key then (state, some busyError)
  else ({ state with sessions := state.sessions.set key session }, none)

/-- The end of `wait_and_remove`. -/
def remove (session : ThreadSession χ ω) : RegistryState χ ω :=
  if (state.sessions.get? session.key).any fun current => current.number = session.number then
    { state with sessions := state.sessions.delete session.key }
  else state

def sessionEnded (generation : ℕ) : RegistryState χ ω :=
  let admitted := (state.sessions.get? key).any fun session => session.generation = generation
  let sessions := if admitted then state.sessions.delete key else state.sessions
  let starting := match state.starting.get? key with
    | none => state.starting
    | some slot =>
      if slot.generation = some generation then state.starting.set key { slot with ended := true }
      else state.starting
  { state with sessions := sessions, starting := starting }

def closeAdmission : RegistryState χ ω := { state with closed := true }

end RegistryState

inductive SessionLease (χ ω : Type)
  | session (session : ThreadSession χ ω)
  | ephemeral

/-- Where a call of `acquire` stands. -/
inductive Stage (χ ω : Type)
  | displacing (existing : Option (ThreadSession χ ω)) (displaced : List (ThreadSession χ ω))
  | deciding (session : ThreadSession χ ω) (attempts : ℕ)
  | restarting (session : ThreadSession χ ω)
  | confirming (session : ThreadSession χ ω)
  | reserving (attempts : ℕ)
  | choosing (sessions : List (ThreadSession χ ω)) (attempts : ℕ)
  | evicting (victim : ThreadSession χ ω) (attempts : ℕ)
  | spawning
  | drawing
  | assigning (session : ThreadSession χ ω)
  | starting (session : ThreadSession χ ω)
  | inserting (session : ThreadSession χ ω)
  | releasing (outcome : Except String (SessionLease χ ω))
  | finished (outcome : Except String (SessionLease χ ω))

/-- What the environment answers at a stage. -/
inductive Answer (χ ω : Type)
  | go
  /-- Whether the session has been reaped in time. -/
  | reaped (done : Bool)
  /-- What the session says, whether it can be pinned, and what becomes of its termination. -/
  | looked (facts : LiveSessionFacts) (pinned : Bool) (termination : IdleTermination) (ending : Bool)
  /-- What the sessions say, and whether the one that is chosen is idle. -/
  | candidates (facts : ThreadSession χ ω → LiveSessionFacts) (terminated : Bool)
  | spawned (failure : Option String)
  | started (failure : Option String)

structure Acquire (χ ω : Type) where
  request : SessionRequest χ ω
  stage : Stage χ ω

/-- The registry, the calls of `acquire` by their number, the sessions that have been started
and those that have reported their end. -/
structure World (χ ω : Type) where
  registry : RegistryState χ ω
  acquires : ℕ → Option (Acquire χ ω)
  drawn : ℕ
  started : List (ThreadSession χ ω)
  ended : List (ThreadSession χ ω)

namespace World

def new : World χ ω := ⟨.new, fun _ => none, 0, [], []⟩

variable (world : World χ ω)

def put (id : ℕ) (acquire : Acquire χ ω) : World χ ω :=
  { world with acquires := Function.update world.acquires id (some acquire) }

/-- The call goes to a stage. -/
def goTo (id : ℕ) (acquire : Acquire χ ω) (stage : Stage χ ω) : World χ ω :=
  world.put id { acquire with stage := stage }

/-- What comes after the displaced sessions. -/
def afterDisplacing (existing : Option (ThreadSession χ ω)) (max : ℕ) : Stage χ ω :=
  match existing with
  | some session => .deciding session reuseDecisionAttempts
  | none => .reserving (Nat.max max 1)

/-- `choose_eviction`, of what the sessions say. -/
def victim (sessions : List (ThreadSession χ ω)) (facts : ThreadSession χ ω → LiveSessionFacts) :
    Option (ThreadSession χ ω) :=
  let candidates := sessions.map fun session =>
    { key := session.key
      generation := session.generation
      attached := (facts session).availability ≠ .idle
      background := (facts session).background
      lastActivity := (facts session).lastActivity : EvictionCandidate }
  (chooseEviction candidates).bind fun key => sessions.find? fun session => session.key = key

/-- What `restart` does with the session. -/
def restartStage (request : SessionRequest χ ω) (session : ThreadSession χ ω) (reason : RestartReason)
    (termination : IdleTermination) (ending : Bool) : Stage χ ω :=
  let consentRequired := reason.needsConfirmation && request.restart = .refuseIfBackground
  let termination :=
    if consentRequired || termination = .requested then termination else .notIdle
  if termination = .backgroundTasks then .finished (.error restartConfirmationError)
  else if termination = .notIdle && !ending then .finished (.error busyError)
  else .restarting session

section Steps

variable [DecidableEq χ] [DecidableEq ω]

/-- One turn of the loop of `keep_or_end`. -/
def decideStage (request : SessionRequest χ ω) (session : ThreadSession χ ω) (attempts max : ℕ)
    (facts : LiveSessionFacts) (pinned : Bool) (termination : IdleTermination) (ending : Bool) :
    Stage χ ω :=
  match decideSessionDisposition (some (session.fingerprint, facts)) request.fingerprint request.resumeSessionId with
  | .reuse =>
    if pinned then .confirming session
    else if attempts = 0 then .finished (.error busyError)
    else .deciding session attempts
  | .busy => .finished (.error busyError)
  | .spawn => .reserving (Nat.max max 1)
  | .restart reason => restartStage request session reason termination ending

/-- A call goes on; `none` where the answer is none to its stage. -/
def advance (max : ℕ) (id : ℕ) (acquire : Acquire χ ω) (answer : Answer χ ω) : Option (World χ ω) :=
  let key := acquire.request.key
  match acquire.stage, answer with
  | .displacing existing [], .go => some (world.goTo id acquire (afterDisplacing existing max))
  | .displacing existing (session :: displaced), .reaped done =>
    if !done then some (world.goTo id acquire (.finished (.error stopTimeoutError)))
    else if session ∉ world.ended then none
    else
      some ({ world with registry := world.registry.remove session }.goTo id acquire (.displacing existing displaced))
  | .deciding session (attempts + 1), .looked facts pinned termination ending =>
    some (world.goTo id acquire (decideStage acquire.request session attempts max facts pinned termination ending))
  | .restarting session, .reaped done =>
    if !done then some (world.goTo id acquire (.finished (.error stopTimeoutError)))
    else if session ∉ world.ended then none
    else
      some ({ world with registry := world.registry.remove session }.goTo id acquire (.reserving (Nat.max max 1)))
  | .confirming session, .go =>
    match world.registry.ensureOpen with
    | .error error => some (world.goTo id acquire (.finished (.error error)))
    | .ok () => some (world.goTo id acquire (.finished (.ok (.session session))))
  | .reserving 0, .go => some (world.goTo id acquire (.finished (.ok .ephemeral)))
  | .reserving (attempts + 1), .go =>
    match world.registry.reserveSlot max key with
    | .error error => some (world.goTo id acquire (.finished (.error error)))
    | .ok (.reserved registry) => some ({ world with registry := registry }.goTo id acquire .spawning)
    | .ok (.full sessions) => some (world.goTo id acquire (.choosing sessions attempts))
  | .choosing sessions attempts, .candidates facts terminated =>
    match victim sessions facts with
    | none => some (world.goTo id acquire (.finished (.ok .ephemeral)))
    | some victim =>
      if terminated then some (world.goTo id acquire (.evicting victim attempts))
      else some (world.goTo id acquire (.reserving attempts))
  | .evicting victim attempts, .reaped done =>
    if !done then some (world.goTo id acquire (.finished (.error stopTimeoutError)))
    else if victim ∉ world.ended then none
    else
      some ({ world with registry := world.registry.remove victim }.goTo id acquire (.reserving attempts))
  | .spawning, .spawned failure =>
    match failure with
    | some error => some (world.goTo id acquire (.releasing (.error error)))
    | none => some (world.goTo id acquire .drawing)
  | .drawing, .go =>
    -- `fetch_add(1) + 1`, of a counter of 64 bits.
    let session : ThreadSession χ ω := ⟨world.drawn, key, (world.drawn + 1) % 2 ^ 64, acquire.request.fingerprint⟩
    some ({ world with drawn := world.drawn + 1 }.goTo id acquire (.assigning session))
  | .assigning session, .go =>
    -- The threads of the session run from its start on: it may report its end at once.
    some ({ world with
      registry := world.registry.assign key session.generation
      started := session :: world.started }.goTo id acquire (.starting session))
  | .starting session, .started failure =>
    match failure with
    | some error => some (world.goTo id acquire (.releasing (.error error)))
    | none => some (world.goTo id acquire (.inserting session))
  | .inserting session, .go =>
    let inserted := world.registry.insert key session
    let outcome : Except String (SessionLease χ ω) := match inserted.2 with
      | some error => .error error
      | none => .ok (.session session)
    some ({ world with registry := inserted.1 }.goTo id acquire (.releasing outcome))
  | .releasing outcome, .go =>
    some ({ world with registry := world.registry.release key }.goTo id acquire (.finished outcome))
  | _, _ => none

end Steps

end World

/-- What may happen next. -/
inductive Event (χ ω : Type)
  /-- A new call looks at the registry for the first time. -/
  | acquire (id : ℕ) (request : SessionRequest χ ω)
  | advance (id : ℕ) (answer : Answer χ ω)
  /-- A session reports its end. -/
  | ended (session : ThreadSession χ ω)
  | close

namespace World

variable [DecidableEq χ] [DecidableEq ω]

/-- The world after an event; `none` where it cannot happen. -/
def step (max : ℕ) (world : World χ ω) : Event χ ω → Option (World χ ω)
  | .acquire id request =>
    match world.acquires id with
    | some _ => none
    | none =>
      match world.registry.snapshot request.key with
      | .error error => some (world.put id ⟨request, .finished (.error error)⟩)
      | .ok (existing, displaced) => some (world.put id ⟨request, .displacing existing displaced⟩)
  | .advance id answer =>
    match world.acquires id with
    | none => none
    | some acquire => world.advance max id acquire answer
  | .ended session =>
    if session ∈ world.started then
      some { world with
        registry := world.registry.sessionEnded session.key session.generation
        ended := session :: world.ended }
    else none
  | .close => some { world with registry := world.registry.closeAdmission }

/-- A run: what cannot happen does not. -/
def after (max : ℕ) (world : World χ ω) (events : List (Event χ ω)) : World χ ω :=
  events.foldl (fun world event => (world.step max event).getD world) world

end World

end SessionRegistry
end CodevoEditor.ClaudeSession
