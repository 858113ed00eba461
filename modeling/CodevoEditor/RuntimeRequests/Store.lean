/-
# The stored runtime requests

`src-tauri/src/agent_history_store/runtime_requests.rs` and `runtime_request_turn_states.rs`.

A transaction that is not committed leaves the database as it is. What `serde_json` writes and
reads, and the check of an answer against its question, are a parameter (`Encoding`), on which
nothing here depends. The rows of a `HashMap` are taken in the order of the table: each of them
is closed for itself.
-/

import CodevoEditor.RuntimeRequests.Model
import CodevoEditor.Sql.Table
import Mathlib.Data.Int.Init

namespace CodevoEditor.RuntimeRequests

open Sql

def fullBodyFormat : ℤ := 1
def omittedBodyFormat : ℤ := 0

structure RequestKey where
  threadId : String
  turnId : String
  requestId : String
  deriving DecidableEq

def TurnKey.request (key : TurnKey) (requestId : String) : RequestKey :=
  ⟨key.threadId, key.turnId, requestId⟩

/-- A row of `runtime_requests`, without `anchor_tool_id`, which is always `NULL`. -/
structure RequestRow where
  kind : Option RequestKind
  status : Option RequestStatus
  reason : Option CloseReason
  runId : String
  version : ℤ
  regIndex : ℤ
  format : ℤ
  body : String
  outcome : Option String
  createdAt : ℤ
  updatedAt : ℤ
  resolvedAt : Option ℤ
  deriving DecidableEq

structure SuppressedRequest where
  id : String
  kind : RequestKind

/-- A row of `runtime_request_turns`. -/
structure TurnRow where
  runId : String
  appliedSequence : ℤ
  suppressed : List SuppressedRequest
  incarnation : ℤ

/-- A row of `runtime_request_marks`. -/
structure RequestMarks where
  pruned : ℤ
  skipped : ℤ

/-- The tables that are written here, and the threads that are deleted and saved. -/
structure RequestDatabase where
  requests : Table RequestKey RequestRow
  turns : Table TurnKey TurnRow
  marks : Table String RequestMarks
  tombstones : List String
  threads : List String

/-- What is written and read as JSON, and the check of an answer. -/
structure Encoding where
  body : RequestProvider → RequestBody → String
  outcome : RequestResolution → String
  decodeBody : String → Option (RequestProvider × RequestBody)
  validateFor : RequestResolution → String → RequestProvider → RequestBody → Bool

def integer (value : ℕ) : ℤ := min value maxSafeInteger

section

variable (encoding : Encoding)

def encodeBody (request : ObservedRequest) : Option String :=
  let encoded := encoding.body request.provider request.body
  if maxRequestBodyBytes < encoded.utf8ByteSize then none else some encoded

def encodeOutcome (resolution : RequestResolution) : Option String :=
  let encoded := encoding.outcome resolution
  if maxRequestOutcomeBytes < encoded.utf8ByteSize then none else some encoded

end

def retainedBySession : RequestKind → ℕ
  | .question => maxRetainedAgentQuestions
  | .approval => maxRetainedAgentApprovals

structure TurnState where
  incarnation : ℤ := 0
  appliedSequence : ℤ := 0
  suppressed : List SuppressedRequest := []
  stored : Bool := false

namespace TurnState

def load (database : RequestDatabase) (key : TurnKey) (runId : String) : TurnState :=
  match database.turns.get? key with
  | none => {}
  | some row =>
      if row.runId ≠ runId then {}
      else ⟨row.incarnation, row.appliedSequence, row.suppressed, true⟩

def save (state : TurnState) (database : RequestDatabase) (key : TurnKey) (runId : String) : RequestDatabase :=
  { database with
    turns := database.turns.set key ⟨runId, state.appliedSequence, state.suppressed, state.incarnation⟩ }

def suppresses (state : TurnState) (requestId : String) : Bool :=
  state.suppressed.any fun suppressed => suppressed.id = requestId

/-- The loop of `suppress`; one turn for each request is enough. -/
def forgetOldest (kind : RequestKind) : ℕ → List SuppressedRequest → List SuppressedRequest
  | 0, suppressed => suppressed
  | fuel + 1, suppressed =>
      if retainedBySession kind < suppressed.countP (·.kind = kind) then
        forgetOldest kind fuel (suppressed.eraseP (·.kind = kind))
      else suppressed

def suppress (state : TurnState) (request : SuppressedRequest) : TurnState :=
  if state.suppresses request.id then state
  else
    let suppressed := state.suppressed ++ [request]
    { state with suppressed := forgetOldest request.kind suppressed.length suppressed }

end TurnState

inductive OutcomeChange
  | keep
  | clear
  | replace (text : Option String)

namespace OutcomeChange

def text : OutcomeChange → Option String
  | replace text => text
  | keep | clear => none

def omitsRequiredOutcome : OutcomeChange → Bool
  | replace none => true
  | _ => false

/-- `CASE … WHEN 0 THEN outcome WHEN 1 THEN NULL ELSE …`. -/
def apply (outcome : Option String) : OutcomeChange → Option String
  | keep => outcome
  | clear => none
  | replace text => text

end OutcomeChange

structure Closing where
  status : RequestStatus
  reason : Option CloseReason
  outcome : OutcomeChange

inductive Listing
  | pending
  | resolved (sent : Option RequestResolution)
  | closed (status : ClosedStatus) (reason : CloseReason)
  deriving DecidableEq

namespace Listing

def observed : ObservedState → Listing
  | .pending => .pending
  | .resolved sent => .resolved (some sent)
  | .closed status reason => .closed status reason

def digested : DigestedState → Listing
  | .pending => .pending
  | .resolved => .resolved none
  | .closed status reason => .closed status reason

end Listing

namespace Closing

def unconfirmed : Closing := ⟨.expired, some .answerUnconfirmed, .keep⟩

def reachableFrom (closing : Closing) (current : RequestStatus) : Option Closing :=
  let direct := current.mayBecome closing.status
  let throughSubmitting := current.mayBecome .submitting && RequestStatus.submitting.mayBecome closing.status
  if !direct && !throughSubmitting then none else some closing

/-- The `match` of `Closing::listed`. -/
def ofListing (encoding : Encoding) : RequestStatus → Listing → Option Closing
  | .pending, .resolved (some sent) => some ⟨.resolved, none, .replace (encodeOutcome encoding sent)⟩
  | .submitting, .resolved (some sent) =>
      some ⟨.resolved, none, .replace (encodeOutcome encoding sent)⟩
  | .submitting, .resolved none => some ⟨.resolved, none, .keep⟩
  | .pending, .resolved none => some ⟨.resolved, none, .replace none⟩
  | .pending, .closed status reason => some ⟨status.status, some reason, .clear⟩
  | .submitting, .closed _ _ => some unconfirmed
  | _, _ => none

def listed (encoding : Encoding) (current : RequestStatus) (listing : Listing) : Option Closing :=
  (ofListing encoding current listing).bind fun closing => closing.reachableFrom current

/-- The `match` of `Closing::absent`. -/
def ofAbsence : RequestStatus → Option Closing
  | .pending => some ⟨.expired, some .turnEnded, .clear⟩
  | .submitting => some unconfirmed
  | _ => none

def absent (current : RequestStatus) : Option Closing :=
  (ofAbsence current).bind fun closing => closing.reachableFrom current

end Closing

structure Advance where
  runId : String
  key : TurnKey
  requestId : String
  source : RequestStatus
  version : ℤ
  time : ℤ

inductive Advanced
  | refused
  | taken
  | takenWithoutAnswer
  deriving DecidableEq

def Advanced.isTaken (advanced : Advanced) : Bool := advanced ≠ .refused

/-- The row is where `advance` expects it. -/
def Advance.takes (step : Advance) (key : RequestKey) (row : RequestRow) : Bool :=
  key = step.key.request step.requestId ∧ row.runId = step.runId ∧ row.status = some step.source ∧
    row.version < step.version ∧ (row.format = omittedBodyFormat ∨ row.format = fullBodyFormat)

/-- What `advance` makes of a row. -/
def Advance.row (step : Advance) (closing : Closing) (row : RequestRow) : RequestRow :=
  let outcome := closing.outcome.apply row.outcome
  let answerMissing : Bool := closing.status = .resolved ∧ outcome = none
  { row with
    status := some closing.status
    reason := closing.reason
    version := step.version
    updatedAt := step.time
    resolvedAt := some step.time
    outcome := outcome
    format := if answerMissing then omittedBodyFormat else row.format
    body := if answerMissing then "" else row.body }

variable (database : RequestDatabase)

def advance (step : Advance) (closing : Closing) : RequestDatabase × Advanced :=
  ({ database with requests := database.requests.updateWhere step.takes (step.row closing) },
    match (database.requests.selectWhere step.takes).head? with
    | none => .refused
    | some entry =>
        let row := step.row closing entry.2
        if row.status = some .resolved ∧ row.outcome = none then .takenWithoutAnswer else .taken)

/-! ### Snapshots -/

structure KnownRow where
  kind : Option RequestKind
  status : Option RequestStatus
  runId : String
  regIndex : ℤ

def turnRows (key : TurnKey) : List (String × KnownRow) :=
  (database.requests.selectWhere fun row _ =>
      row.threadId = key.threadId ∧ row.turnId = key.turnId).map fun entry =>
    (entry.1.requestId, ⟨entry.2.kind, entry.2.status, entry.2.runId, entry.2.regIndex⟩)

/-- `mark`. -/
def addMarks (threadId : String) (pruned skipped : ℕ) : RequestDatabase :=
  if pruned = 0 ∧ skipped = 0 then database
  else
    let marks := (database.marks.get? threadId).getD ⟨0, 0⟩
    { database with
      marks := database.marks.set threadId ⟨marks.pruned + integer pruned, marks.skipped + integer skipped⟩ }

inductive RetentionScope
  | turn
  | thread

def RetentionScope.limit : RetentionScope → ℕ
  | turn => maxRequestsPerTurn
  | thread => maxRequestsPerThread

/-- `turn_filter`: `thread_id=?1 AND (?2='' OR turn_id=?2)`. -/
def RetentionScope.covers (scope : RetentionScope) (key : TurnKey) (row : RequestKey) : Bool :=
  let turnFilter := match scope with
    | .turn => key.turnId
    | .thread => ""
  row.threadId = key.threadId ∧ (turnFilter = "" ∨ row.turnId = turnFilter)

structure PrunedRow where
  turnId : String
  requestId : String
  kind : Option RequestKind
  runId : String

/-- `ORDER BY created_at,turn_id,reg_index`. -/
def createdBefore (a b : RequestKey × RequestRow) : Bool :=
  a.2.createdAt < b.2.createdAt ∨ a.2.createdAt = b.2.createdAt ∧
    (a.1.turnId < b.1.turnId ∨ a.1.turnId = b.1.turnId ∧ a.2.regIndex < b.2.regIndex)

def pruneOldestClosed (key : TurnKey) (scope : RetentionScope) : Option (PrunedRow × RequestDatabase) :=
  let closed := database.requests.selectWhere fun row entry =>
    scope.covers key row && entry.status.any (·.isTerminal)
  (Table.firstBy createdBefore closed).map fun victim =>
    (⟨victim.1.turnId, victim.1.requestId, victim.2.kind, victim.2.runId⟩,
      { database with requests := database.requests.deleteWhere fun row _ => row = victim.1 })

/-- `Reconciliation`, without what stays as it is. -/
structure Reconciliation where
  database : RequestDatabase
  state : TurnState
  report : ApplyReport

structure ListedRequest where
  id : String
  kind : RequestKind
  listing : Listing
  revision : Option ℕ

def revisionOf (observation : TurnObservation) (revision : Option ℕ) : ℤ :=
  integer (revision.getD observation.revision)

namespace Reconciliation

variable (encoding : Encoding) (runId : String) (observation : TurnObservation)

variable (reconciliation : Reconciliation)

def answerMatches (requestId : String) (sent : Option RequestResolution) : Bool :=
  match sent.bind (encodeOutcome encoding) with
  | none => true
  | some sent =>
      match reconciliation.database.requests.get? (observation.key.request requestId) with
      | none => true
      | some row =>
          match row.outcome with
          | none => true
          | some outcome => row.format ≠ fullBodyFormat || outcome = sent

def collides (row : KnownRow) (source : RequestStatus) (request : ListedRequest) : Bool :=
  if row.runId ≠ runId then true
  else if ¬ source.isTerminal then false
  else
    match request.listing with
    | .pending => true
    | .closed _ _ => source = .resolved
    | .resolved sent =>
        if source ≠ .resolved then true
        else !reconciliation.answerMatches encoding observation request.id sent

def skip : Reconciliation :=
  { reconciliation with
    report := { reconciliation.report with skipped := reconciliation.report.skipped + 1 } }

/-- The end of `reconcile`: the row is closed. -/
def close (request : ListedRequest) (source : RequestStatus) (closing : Closing) : Reconciliation :=
  let step : Advance := ⟨runId, observation.key, request.id, source,
    revisionOf observation request.revision, integer observation.observedAtEpochMs⟩
  let (database, advanced) := advance reconciliation.database step closing
  { reconciliation with
    database := database
    report := { reconciliation.report with
      transitions := reconciliation.report.transitions + if advanced.isTaken then 1 else 0
      lostAnswers := reconciliation.report.lostAnswers +
        if advanced = .takenWithoutAnswer then 1 else 0 } }

def reconcile (row : KnownRow) (request : ListedRequest) : Reconciliation :=
  match row.kind with
  | none => reconciliation
  | some kind =>
      if kind ≠ request.kind then reconciliation.skip
      else
        match row.status with
        | none => reconciliation
        | some source =>
            if reconciliation.collides encoding runId observation row source request then
              reconciliation.skip
            else
              match Closing.listed encoding source request.listing with
              | none => reconciliation
              | some closing => reconciliation.close runId observation request source closing

def suppress (pruned : PrunedRow) : Reconciliation :=
  match pruned.kind with
  | none => reconciliation
  | some kind =>
      if pruned.runId ≠ runId then reconciliation
      else if pruned.turnId = observation.key.turnId then
        { reconciliation with state := reconciliation.state.suppress ⟨pruned.requestId, kind⟩ }
      else
        let key : TurnKey := ⟨observation.key.threadId, pruned.turnId⟩
        let other := TurnState.load reconciliation.database key runId
        if ¬ other.stored then reconciliation
        else
          { reconciliation with
            database := (other.suppress ⟨pruned.requestId, kind⟩).save reconciliation.database key runId }

/-- The body of the loop of `make_room`, with whether there is room. -/
def makeRoomIn (scope : RetentionScope) : Reconciliation × Bool :=
  let key := observation.key
  if (reconciliation.database.requests.countWhere fun row _ => scope.covers key row) < scope.limit then
    (reconciliation, true)
  else
    match pruneOldestClosed reconciliation.database key scope with
    | none => (reconciliation, false)
    | some (pruned, database) =>
        (suppress runId observation
          { reconciliation with
            database := database
            report := { reconciliation.report with pruned := reconciliation.report.pruned + 1 } }
          pruned, true)

def makeRoom : Reconciliation × Bool :=
  match reconciliation.makeRoomIn runId observation .turn with
  | (reconciliation, false) => (reconciliation, false)
  | (reconciliation, true) => reconciliation.makeRoomIn runId observation .thread

/-- The row of a request that is new. -/
def newRow (request : ObservedRequest) (regIndex : ℤ) : RequestRow :=
  let closing := Closing.listed encoding .pending (.observed request.state)
  let outcomeOmitted := closing.any (·.outcome.omitsRequiredOutcome)
  let body := if outcomeOmitted then none else encodeBody encoding request
  let time := integer observation.observedAtEpochMs
  { kind := some request.body.kind
    status := some (closing.elim .pending (·.status))
    reason := closing.bind (·.reason)
    runId := runId
    version := revisionOf observation request.revision
    regIndex := regIndex
    format := if body.isSome then fullBodyFormat else omittedBodyFormat
    body := body.getD ""
    outcome := closing.bind (·.outcome.text)
    createdAt := min time (integer observation.firstObservedAtEpochMs)
    updatedAt := time
    resolvedAt := closing.map fun _ => time }

/-- `insert`, with whether it has; `none` where the key is there already. -/
def insert (request : ObservedRequest) (regIndex : ℤ) : Option (Reconciliation × Bool) :=
  match reconciliation.makeRoom runId observation with
  | (reconciliation, false) => some (reconciliation.skip, false)
  | (reconciliation, true) =>
      let closing := Closing.listed encoding .pending (.observed request.state)
      let outcomeOmitted := closing.any (·.outcome.omitsRequiredOutcome)
      (reconciliation.database.requests.insertRow (observation.key.request request.id)
          (newRow encoding runId observation request regIndex)).map fun requests =>
        ({ reconciliation with
            database := { reconciliation.database with requests := requests }
            report := { reconciliation.report with
              transitions := reconciliation.report.transitions + 1
              lostAnswers := reconciliation.report.lostAnswers + if outcomeOmitted then 1 else 0 } },
          true)

/-- The body of the loop over `turn.requests`, with the next index. -/
def applyRequest (known : List (String × KnownRow)) (progress : Reconciliation × ℤ)
    (request : ObservedRequest) : Option (Reconciliation × ℤ) :=
  let (reconciliation, nextIndex) := progress
  match known.lookup request.id with
  | some row =>
      let listed : ListedRequest := ⟨request.id, request.body.kind, .observed request.state, request.revision⟩
      some (reconciliation.reconcile encoding runId observation row listed, nextIndex)
  | none =>
      if reconciliation.state.suppresses request.id then some progress
      else
        (reconciliation.insert encoding runId observation request nextIndex).map
          fun (reconciliation, inserted) =>
            (reconciliation, if inserted then nextIndex + 1 else nextIndex)

/-- The body of the loop over `turn.digested`. -/
def applyDigested (known : List (String × KnownRow)) (reconciliation : Reconciliation)
    (request : DigestedRequest) : Reconciliation :=
  match known.lookup request.id with
  | some row =>
      let listed : ListedRequest := ⟨request.id, request.kind, .digested request.state, request.revision⟩
      reconciliation.reconcile encoding runId observation row listed
  | none => if reconciliation.state.suppresses request.id then reconciliation else reconciliation.skip

/-- A row that is open is closed as absent, with whether it is. -/
def closeAbsent (database : RequestDatabase) (requestId : String) (row : KnownRow) :
    RequestDatabase × Option RequestStatus :=
  match row.status with
  | none => (database, none)
  | some source =>
      match Closing.absent source with
      | none => (database, none)
      | some closing =>
          let step : Advance := ⟨runId, observation.key, requestId, source,
            integer observation.revision, integer observation.observedAtEpochMs⟩
          let (database, advanced) := advance database step closing
          (database, if advanced.isTaken then some closing.status else none)

/-- The body of the last loop of `apply_snapshot`: the row is not listed. -/
def applyAbsent (listed : List String) (reconciliation : Reconciliation)
    (entry : String × KnownRow) : Reconciliation :=
  if entry.1 ∈ listed ∨ entry.2.runId ≠ runId then reconciliation
  else
    let (database, closed) := closeAbsent runId observation reconciliation.database entry.1 entry.2
    { reconciliation with
      database := database
      report := { reconciliation.report with
        transitions := reconciliation.report.transitions + if closed.isSome then 1 else 0 } }

/-- The body of the loop of `close_predecessor_rows`, with the known rows so far and how
many were closed. -/
def closePredecessor (progress : RequestDatabase × List (String × KnownRow) × ℕ)
    (entry : String × KnownRow) : RequestDatabase × List (String × KnownRow) × ℕ :=
  let (database, known, count) := progress
  if entry.2.runId ≠ runId then (database, known ++ [entry], count)
  else
    match closeAbsent runId observation database entry.1 entry.2 with
    | (database, some status) =>
        (database, known ++ [(entry.1, { entry.2 with status := some status })], count + 1)
    | (database, none) => (database, known ++ [entry], count)

def closePredecessorRows (database : RequestDatabase) (known : List (String × KnownRow)) :
    RequestDatabase × List (String × KnownRow) × ℕ :=
  known.foldl (closePredecessor runId observation) (database, [], 0)

end Reconciliation

section Snapshot

variable (encoding : Encoding) (runId : String) (observation : TurnObservation)

/-- The loops of `apply_snapshot` over what is observed and known. -/
def reconcileTurn (known : List (String × KnownRow)) (reconciliation : Reconciliation) : Option Reconciliation :=
  let turn := observation.turn
  let nextIndex := (known.map fun entry => entry.2.regIndex + 1).max?.getD 0
  let listed := turn.rejected ++ turn.requests.map (·.id) ++ turn.digested.map (·.id)
  (turn.requests.foldlM (Reconciliation.applyRequest encoding runId observation known)
      (reconciliation, nextIndex)).map fun progress =>
    let digested := turn.digested.foldl (Reconciliation.applyDigested encoding runId observation known) progress.1
    known.foldl (Reconciliation.applyAbsent runId observation listed) digested

/-- `apply_snapshot`; `none` is an error. -/
def applySnapshot (database : RequestDatabase) : Option (ApplyReport × RequestDatabase) :=
  let key := observation.key
  if key.threadId ∈ database.tombstones then some ({ tombstoned := true }, database)
  else
    let saved := TurnState.load database key runId
    let incarnation := integer observation.incarnation
    let version := integer observation.turn.sequence
    if saved.stored ∧ incarnation < saved.incarnation then some ({ superseded := true }, database)
    else
      let continues : Bool := saved.stored ∧ incarnation = saved.incarnation
      if continues ∧ version ≤ saved.appliedSequence then some ({ stale := true }, database)
      else
        let (taken, known, takenOver) :=
          if continues then (database, turnRows database key, 0)
          else Reconciliation.closePredecessorRows runId observation database (turnRows database key)
        let state := if continues then saved else { incarnation := incarnation }
        let turn := observation.turn
        let nothingObserved := turn.requests.isEmpty && turn.digested.isEmpty && turn.rejected.isEmpty
        if known.isEmpty ∧ nothingObserved ∧ ¬ continues then some ({}, database)
        else
          (reconcileTurn encoding runId observation known
              ⟨taken, state, { transitions := takenOver }⟩).map fun reconciled =>
            let saved := { reconciled.state with appliedSequence := version }.save reconciled.database key runId
            (reconciled.report, addMarks saved key.threadId reconciled.report.pruned
              (reconciled.report.skipped + reconciled.report.lostAnswers))

end Snapshot

section Intent

variable (encoding : Encoding) (runId : String) (intent : AnswerIntent)

def intentIsValid (row : RequestRow) : Bool :=
  if row.kind ≠ some intent.resolution.kind then false
  else if row.format = omittedBodyFormat then true
  else if row.format ≠ fullBodyFormat then false
  else
    match encoding.decodeBody row.body with
    | none => false
    | some (provider, body) => encoding.validateFor intent.resolution intent.requestId provider body

def isTheSavedAnswer (row : RequestRow) : Bool :=
  let sent := encodeOutcome encoding intent.resolution
  row.status = some .resolved ∧ row.format = fullBodyFormat ∧ sent.isSome ∧ row.outcome = sent

/-- The update of `record_intent`. -/
def submittingRow (row : RequestRow) : RequestRow :=
  { row with
    status := some .submitting
    outcome := encodeOutcome encoding intent.resolution
    version := integer intent.version
    updatedAt := integer intent.atEpochMs }

def recordIntent (database : RequestDatabase) : IntentReceipt × RequestDatabase :=
  let key := intent.key
  if key.threadId ∈ database.tombstones then (.threadDeleted, database)
  else
    let turn := TurnState.load database key runId
    if ¬ turn.stored ∨ turn.incarnation ≠ integer intent.incarnation then (.notJournaled, database)
    else
      match database.requests.get? (key.request intent.requestId) with
      | none => (.notJournaled, database)
      | some target =>
          if target.runId ≠ runId then (.notJournaled, database)
          else if isTheSavedAnswer encoding intent target then (.alreadyAnswered, database)
          else if target.status ≠ some .pending ∨ integer intent.version ≤ target.version then
            (.notJournaled, database)
          else if ¬ intentIsValid encoding intent target then (.refused, database)
          else
            (if (encodeOutcome encoding intent.resolution).isSome then .recorded
              else .recordedWithoutAnswer,
              { database with
                requests := database.requests.updateWhere
                  (fun row entry => row = key.request intent.requestId ∧ entry.runId = runId ∧
                    entry.status = some .pending)
                  (submittingRow encoding intent) })

/-- The status and the reason that a settlement gives, and what it does to the outcome. -/
def settlementOf : IntentSettlement → Closing
  | .reverted => ⟨.pending, none, .clear⟩
  | .deliveryFailed => ⟨.expired, some .deliveryFailed, .clear⟩
  | .unconfirmed => ⟨.expired, some .answerUnconfirmed, .keep⟩

/-- The row that `settle_intent` updates. -/
def IntentSettle.takes (settle : IntentSettle) (database : RequestDatabase) (key : RequestKey)
    (row : RequestRow) : Bool :=
  key = settle.key.request settle.requestId ∧ row.runId = runId ∧ row.status = some .submitting ∧
    row.version = integer settle.intentVersion ∧
    (database.turns.get? settle.key).any fun turn =>
      turn.runId = runId ∧ turn.incarnation = integer settle.incarnation

/-- The update of `settle_intent`. -/
def settledRow (settle : IntentSettle) (row : RequestRow) : RequestRow :=
  let settlement := settlementOf settle.settlement
  let time := integer settle.atEpochMs
  { row with
    status := some settlement.status
    reason := settlement.reason
    version := integer settle.version
    updatedAt := time
    resolvedAt := if settlement.status.isTerminal then some time else none
    outcome := settlement.outcome.apply row.outcome }

def settleIntent (settle : IntentSettle) (database : RequestDatabase) : Bool × RequestDatabase :=
  if settle.version ≤ settle.intentVersion then (false, database)
  else if ¬ RequestStatus.submitting.mayBecome (settlementOf settle.settlement).status then
    (false, database)
  else
    (database.requests.countWhere (settle.takes runId database) = 1,
      { database with
        requests := database.requests.updateWhere (settle.takes runId database) (settledRow settle) })

end Intent

section Recovery

variable (runId : String) (now : ℤ)

/-- An open row of another run, with a status. -/
def leftOpen (status : RequestStatus) (_ : RequestKey) (row : RequestRow) : Bool :=
  row.status = some status ∧ row.runId ≠ runId

def restartedRow (row : RequestRow) : RequestRow :=
  { row with
    status := some .expired
    reason := some .appRestarted
    outcome := none
    version := row.version + 1
    updatedAt := now
    resolvedAt := some now }

def unconfirmedRow (row : RequestRow) : RequestRow :=
  { row with
    status := some .expired
    reason := some .answerUnconfirmed
    version := row.version + 1
    updatedAt := now
    resolvedAt := some now }

/-- A row of another run that is old, and whose thread is not saved. -/
def isOrphan (threads : List String) (key : RequestKey) (row : RequestRow) : Bool :=
  row.runId ≠ runId ∧ row.updatedAt < now - integer orphanRequestRetentionMs ∧ key.threadId ∉ threads

/-- The statements of `recover` on the requests, one after the other. -/
def recoverRequests (tombstones threads : List String) (requests : Table RequestKey RequestRow) :
    Table RequestKey RequestRow :=
  let kept := requests.deleteWhere fun key _ => key.threadId ∈ tombstones
  let expired := kept.updateWhere (leftOpen runId .pending) (restartedRow now)
  let closed := expired.updateWhere (leftOpen runId .submitting) (unconfirmedRow now)
  closed.deleteWhere (isOrphan runId now threads)

end Recovery

def recover (runId : String) (nowEpochMs : ℕ) (database : RequestDatabase) : RecoveryReport × RequestDatabase :=
  let now := integer nowEpochMs
  let deleted := fun (key : RequestKey) (_ : RequestRow) => decide (key.threadId ∈ database.tombstones)
  let kept := database.requests.deleteWhere deleted
  let expired := kept.updateWhere (leftOpen runId .pending) (restartedRow now)
  let closed := expired.updateWhere (leftOpen runId .submitting) (unconfirmedRow now)
  let requests := recoverRequests runId now database.tombstones database.threads database.requests
  let marks := database.marks.deleteWhere fun threadId _ => threadId ∈ database.tombstones
  (⟨kept.countWhere (leftOpen runId .pending), expired.countWhere (leftOpen runId .submitting),
      database.requests.countWhere deleted,
      closed.countWhere (isOrphan runId now database.threads)⟩,
    { database with
      requests := requests
      turns := database.turns.deleteWhere fun key row =>
        row.runId ≠ runId ∨ key.threadId ∈ database.tombstones
      marks := marks.deleteWhere fun threadId _ =>
        threadId ∉ database.threads ∧ threadId ∉ requests.keys.map (·.threadId) })

end CodevoEditor.RuntimeRequests
