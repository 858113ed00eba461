/-
# The queue of the journal

`src-tauri/src/agent_runtime_requests/journal.rs` (`Queue`): the latest snapshot of each turn
that has still to be written, and the answers of each turn that are on their way.

How a raw snapshot is observed is a parameter (`observe`). The order in which the slots of the
`HashMap` are looked at is any order of them. Sizes and times are natural numbers.
-/

import CodevoEditor.RuntimeRequests.Health
import CodevoEditor.Runs.Labelled

namespace CodevoEditor.RuntimeRequests

open Js

def DigestedState.of : ObservedState → DigestedState
  | .pending => .pending
  | .resolved _ => .resolved
  | .closed status reason => .closed status reason

def ObservedRequest.digested (request : ObservedRequest) : DigestedRequest where
  id := request.id
  kind := request.body.kind
  state := .of request.state
  revision := request.revision

def ObservedTurn.intoDigest (turn : ObservedTurn) : ObservedTurn where
  sequence := turn.sequence
  requests := []
  digested := turn.digested ++ turn.requests.map ObservedRequest.digested
  rejected := turn.rejected

def ObservedTurn.digestBytes (turn : ObservedTurn) : ℕ :=
  (turn.digested.map fun request => request.id.utf8ByteSize).sum + (turn.rejected.map String.utf8ByteSize).sum

/-! ### Snapshots that wait -/

/-- The limits of the queue and of its retries. -/
structure JournalLimits where
  queuedTurns : ℕ
  queuedBytes : ℕ
  queuedDigests : ℕ
  writeAttempts : ℕ
  retryBackoff : ℕ

inductive SnapshotContent (Raw : Type)
  | raw (snapshot : Raw)
  | observed (turn : ObservedTurn)

structure QueuedSnapshot (Raw : Type) where
  content : SnapshotContent Raw
  revision : ℕ
  sequence : ℕ
  bytes : ℕ
  digest : Bool
  firstObservedAtEpochMs : ℕ
  observedAtEpochMs : ℕ
  attempts : ℕ
  notBefore : Option ℕ

structure Slot (Raw : Type) where
  latest : Option (QueuedSnapshot Raw)
  answersInFlight : ℕ

structure Queue (Raw : Type) where
  limits : JournalLimits
  slots : OrderedMap TurnAuthority (Slot Raw)
  sweeps : List HistoryScope
  writing : Option TurnAuthority
  sweeping : Bool
  queuedTurns : ℕ
  queuedDigests : ℕ
  queuedBytes : ℕ
  closed : Bool
  writerExited : Bool

inductive Offer (Raw : Type)
  | queued
  | superseded
  | full (rejected : QueuedSnapshot Raw)

inductive Ready (Raw : Type)
  | job (key : TurnAuthority) (queued : QueuedSnapshot Raw)
  | sweep (scope : HistoryScope)
  | notBefore (instant : ℕ)
  | idle

inductive Enqueued
  | queued
  | superseded
  | digested
  | dropped

variable {Raw : Type} (observe : Raw → ObservedTurn)

def SnapshotContent.intoObserved : SnapshotContent Raw → ObservedTurn
  | observed turn => turn
  | raw snapshot => observe snapshot

def QueuedSnapshot.intoDigest (queued : QueuedSnapshot Raw) : QueuedSnapshot Raw :=
  let turn := (queued.content.intoObserved observe).intoDigest
  { queued with bytes := turn.digestBytes, digest := true, content := .observed turn }

variable (slot : Slot Raw)

def Slot.isIdle : Bool := slot.latest.isNone && slot.answersInFlight = 0

def Slot.vacant : Slot Raw := ⟨none, 0⟩

def Slot.cleared : Slot Raw := { slot with latest := none }

def Slot.filled (queued : QueuedSnapshot Raw) : Slot Raw :=
  { slot with latest := some queued }

def Slot.answering (answers : ℕ) : Slot Raw := { slot with answersInFlight := answers }

namespace Queue

def new (limits : JournalLimits) : Queue Raw where
  limits := limits
  slots := .empty
  sweeps := []
  writing := none
  sweeping := false
  queuedTurns := 0
  queuedDigests := 0
  queuedBytes := 0
  closed := false
  writerExited := false

variable (queue : Queue Raw) (key : TurnAuthority)

def waiting : Option (QueuedSnapshot Raw) :=
  (queue.slots.get? key).bind Slot.latest

def slotOf : Slot Raw :=
  (queue.slots.get? key).getD .vacant

/-- What a snapshot that leaves the queue leaves behind in the counters. -/
def discount (taken : QueuedSnapshot Raw) : Queue Raw :=
  if taken.digest then { queue with queuedDigests := queue.queuedDigests - 1 }
  else
    { queue with
      queuedTurns := queue.queuedTurns - 1
      queuedBytes := queue.queuedBytes - taken.bytes }

def take : Option (QueuedSnapshot Raw) × Queue Raw :=
  match queue.waiting key with
  | some taken =>
    (some taken, { queue with slots := queue.slots.set key (queue.slotOf key).cleared }.discount taken)
  | none => (none, queue)

variable (queued : QueuedSnapshot Raw)

def fits : Bool :=
  if queued.digest then queue.queuedDigests < queue.limits.queuedDigests
  else
    queue.queuedTurns < queue.limits.queuedTurns && queue.queuedBytes + queued.bytes ≤ queue.limits.queuedBytes

def dropIdleSlots : Queue Raw :=
  { queue with
    slots :=
      ⟨queue.slots.entries.filter fun entry => !entry.2.isIdle,
        queue.slots.nodup.sublist (List.filter_sublist.map _)⟩ }

/-- A snapshot that fits, in the place of what waited. -/
def place : Queue Raw :=
  { queue with
    slots := queue.slots.set key ((queue.slotOf key).filled queued)
    queuedDigests := if queued.digest then queue.queuedDigests + 1 else queue.queuedDigests
    queuedTurns := if queued.digest then queue.queuedTurns else queue.queuedTurns + 1
    queuedBytes := if queued.digest then queue.queuedBytes else queue.queuedBytes + queued.bytes }

/-- The first time that a snapshot and the one it replaces were observed. -/
def merged (replaced : Option (QueuedSnapshot Raw)) (queued : QueuedSnapshot Raw) : QueuedSnapshot Raw :=
  match replaced with
  | some replaced =>
    { queued with
      firstObservedAtEpochMs := min replaced.firstObservedAtEpochMs queued.firstObservedAtEpochMs }
  | none => queued

def offer : Offer Raw × Queue Raw :=
  if (queue.waiting key).any (queued.sequence ≤ ·.sequence) then (.superseded, queue)
  else
    let (replaced, queue) := queue.take key
    let queued := merged replaced queued
    if queue.fits queued then (.queued, queue.place key queued)
    else (.full queued, queue.dropIdleSlots)

def enqueue : Enqueued × Queue Raw :=
  match queue.offer key queued with
  | (.queued, queue) => (.queued, queue)
  | (.superseded, queue) => (.superseded, queue)
  | (.full rejected, queue) =>
    if rejected.digest then (.dropped, queue)
    else match queue.offer key (rejected.intoDigest observe) with
      | (.queued, queue) => (.digested, queue)
      | (.superseded, queue) => (.superseded, queue)
      | (.full _, queue) => (.dropped, queue)

/-- The first slot in an order that is ready, and else when the next one will be. -/
def firstReady (now : ℕ) :
    List (TurnAuthority × Slot Raw) → Option ℕ → Option TurnAuthority × Option ℕ
  | [], earliest => (none, earliest)
  | (key, slot) :: slots, earliest =>
    match slot.latest.filter fun _ => slot.answersInFlight = 0 with
    | none => firstReady now slots earliest
    | some latest => match latest.notBefore.filter (now < ·) with
      | none => (some key, earliest)
      | some notBefore => firstReady now slots (some ((earliest.map (min · notBefore)).getD notBefore))

/-- `order` is the slots in the order in which they are looked at. -/
def takeReady (order : List (TurnAuthority × Slot Raw)) (now : ℕ) : Ready Raw × Queue Raw :=
  let (ready, earliest) := firstReady now order none
  match ready.bind fun key => (queue.take key).1.map fun taken => (key, taken) with
  | some (key, taken) => (.job key taken, { (queue.take key).2 with writing := some key })
  | none => match queue.sweeps.getLast? with
    | some scope => (.sweep scope, { queue with sweeps := queue.sweeps.dropLast, sweeping := true })
    | none => ((earliest.map .notBefore).getD .idle, queue)

def isSettled : Bool :=
  queue.writing.isNone && !queue.sweeping && queue.sweeps.isEmpty && queue.queuedTurns = 0 && queue.queuedDigests = 0

def turnIsSettled : Bool :=
  queue.writing ≠ some key && (queue.waiting key).isNone

/-- `AnswerHold::acquire`, once the queue has been waited for. -/
def hold : Queue Raw :=
  let slot := queue.slotOf key
  { queue with slots := queue.slots.set key (slot.answering (slot.answersInFlight + 1)) }

/-- The end of an `AnswerHold`. -/
def release : Queue Raw :=
  (match queue.slots.get? key with
    | some slot =>
      { queue with slots := queue.slots.set key (slot.answering (slot.answersInFlight - 1)) }
    | none => queue).dropIdleSlots

/-- The end of a job (`write_job`): what is to be retried waits again. -/
def written (retry : Option (QueuedSnapshot Raw)) : Option Enqueued × Queue Raw :=
  let retried := retry.map fun retry => queue.enqueue observe key retry
  let queue := (retried.map Prod.snd).getD queue
  (retried.map Prod.fst, { queue with writing := none }.dropIdleSlots)

end Queue

/-- `retry_of`: a job that failed waits for a while, if it may be tried again. -/
def retryOf (limits : JournalLimits) (failed : QueuedSnapshot Raw) (kind : StoreErrorKind) (now : ℕ) :
    Option (QueuedSnapshot Raw) :=
  let retryable := kind = .busy ∨ kind = .full ∨ kind = .unavailable
  let attempts := failed.attempts + 1
  if ¬ retryable ∨ limits.writeAttempts ≤ attempts then none
  else
    some { failed with
      attempts := attempts
      notBefore := some (now + limits.retryBackoff * attempts) }

/-- What is left of a job that the store refused: it has been observed. -/
def refused (job : QueuedSnapshot Raw) : QueuedSnapshot Raw :=
  { job with content := .observed (job.content.intoObserved observe), notBefore := none }

/-- What has gone into the snapshot that waits for a turn, or into a job. -/
structure Heard where
  sequences : List ℕ
  times : List ℕ

namespace Heard

def nothing : Heard := ⟨[], []⟩

def of (queued : QueuedSnapshot Raw) : Heard := ⟨[queued.sequence], [queued.firstObservedAtEpochMs]⟩

def after (heard arrived : Heard) : Enqueued → Heard
  | .queued | .digested => ⟨heard.sequences ++ arrived.sequences, heard.times ++ arrived.times⟩
  | .superseded => ⟨heard.sequences ++ arrived.sequences, heard.times⟩
  | .dropped => nothing

end Heard

/-- The queue, the job of its writer and the answers that are held, with what has been
heard. -/
structure JournalRun (Raw : Type) where
  queue : Queue Raw
  job : Option (TurnAuthority × QueuedSnapshot Raw)
  holds : List TurnAuthority
  heard : TurnAuthority → Heard
  jobHeard : Heard

inductive JournalOperation (Raw : Type)
  | offer (key : TurnAuthority) (queued : QueuedSnapshot Raw)
  | takeReady (order : List (TurnAuthority × Slot Raw)) (now : ℕ)
  | completed
  | failed (observed : Bool) (kind : StoreErrorKind) (now : ℕ)
  | hold (key : TurnAuthority)
  | release (key : TurnAuthority)
  | sweep (scope : HistoryScope)
  | swept
  | close

namespace JournalRun

def start (limits : JournalLimits) : JournalRun Raw := ⟨.new limits, none, [], fun _ => .nothing, .nothing⟩

def offer (run : JournalRun Raw) (key : TurnAuthority) (queued : QueuedSnapshot Raw) : JournalRun Raw :=
  let enqueued := run.queue.enqueue observe key queued
  { run with
    queue := enqueued.2
    heard := Function.update run.heard key ((run.heard key).after (.of queued) enqueued.1) }

def takeReady (run : JournalRun Raw) (order : List (TurnAuthority × Slot Raw)) (now : ℕ) : JournalRun Raw :=
  match run.queue.takeReady order now with
  | (.job key queued, queue) =>
    { run with
      queue := queue
      job := some (key, queued)
      heard := Function.update run.heard key .nothing
      jobHeard := run.heard key }
  | (_, queue) => { run with queue := queue }

/-- The end of the job, with what is to be retried of it. -/
def written (run : JournalRun Raw) (retry : QueuedSnapshot Raw → Option (QueuedSnapshot Raw)) : JournalRun Raw :=
  match run.job with
  | none => run
  | some (key, queued) =>
    let written := run.queue.written observe key (retry queued)
    { run with
      queue := written.2
      job := none
      heard := match written.1 with
        | none => run.heard
        | some outcome => Function.update run.heard key ((run.heard key).after run.jobHeard outcome)
      jobHeard := .nothing }

variable (run : JournalRun Raw)

def apply : JournalOperation Raw → JournalRun Raw
  | .offer key queued => run.offer observe key queued
  | .takeReady order now => run.takeReady order now
  | .completed => run.written observe fun _ => none
  | .failed observed kind now => run.written observe fun job =>
    retryOf run.queue.limits (if observed then refused observe job else job) kind now
  | .hold key => { run with queue := run.queue.hold key, holds := key :: run.holds }
  | .release key => { run with queue := run.queue.release key, holds := run.holds.erase key }
  | .sweep scope =>
    if scope ∈ run.queue.sweeps then run
    else { run with queue := { run.queue with sweeps := run.queue.sweeps ++ [scope] } }
  | .swept => { run with queue := { run.queue with sweeping := false } }
  | .close => { run with queue := { run.queue with closed := true } }

/-- There is one writer, and it takes nothing once the queue is closed; an answer ends once. -/
def Allowed : JournalOperation Raw → Prop
  | .takeReady order _ =>
    order.Perm run.queue.slots.entries ∧ run.job = none ∧ run.queue.sweeping = false ∧ run.queue.closed = false
  | .completed | .failed _ _ _ => run.job.isSome
  | .release key => key ∈ run.holds
  | .swept => run.queue.sweeping
  | _ => True

end JournalRun

inductive Journals : JournalRun Raw → List (JournalOperation Raw) → JournalRun Raw → Prop
  | op (run : JournalRun Raw) (operation : JournalOperation Raw) (allowed : run.Allowed operation) :
    Journals run [operation] (run.apply observe operation)

end CodevoEditor.RuntimeRequests
