/-
# The turn log store

`src-tauri/src/agent_turn_log`: the log of one thread, a row of `turn_meta` and the rows of
`events` for each turn (`schema.rs`). The JSON columns of `turn_meta` are held decoded. An `i64`
of a counter is an integer; a transaction that fails leaves the tables as they were.

The encoding of an event and what makes a scope, an event, a digest or a lifecycle valid are
parameters (`LogCodec`).
-/

import CodevoEditor.Sql.Table
import CodevoEditor.Js.Records

namespace CodevoEditor.TurnLogStore

open Js Sql

/-! ### The wire (`wire.rs`, `errors.rs`) -/

def agentTurnLogSeqBase : ℤ := 1
def maxAppendOps : ℕ := 256
def maxAppendBytes : ℕ := 1024 * 1024
def maxLogCounter : ℤ := 9007199254740991
def maxTurnPromptBytes : ℕ := 32 * 1024
def maxSafeInteger : ℕ := 9007199254740991

inductive AgentTurnLogError
  | supersededWriter
  | sequenceGap (nextSeq : Option ℤ)
  | sealed
  | ownerMismatch
  | budgetExhausted
  | unreadable
  deriving DecidableEq

def sequenceGap : AgentTurnLogError := .sequenceGap none

inductive AgentTurnLogLossKind
  | none
  | legacyWindow
  | backgroundBuffer
  | supervisorGap
  | writeFailure
  | diskBudget
  | turnCeiling
  | unreadable
  deriving DecidableEq

def AgentTurnLogLossKind.severity : AgentTurnLogLossKind → ℕ
  | none => 0
  | legacyWindow => 1
  | backgroundBuffer => 2
  | supervisorGap => 3
  | writeFailure => 4
  | turnCeiling => 5
  | diskBudget => 6
  | unreadable => 7

structure AgentTurnLogLoss where
  kind : AgentTurnLogLossKind
  atEpochMs : Option ℕ
  deriving DecidableEq

def AgentTurnLogLoss.merged (loss next : AgentTurnLogLoss) : AgentTurnLogLoss :=
  if loss.kind.severity < next.kind.severity then next else loss

structure AgentTurnLogScope where
  rootKey : String
  ownerId : String
  threadId : String
  turnId : String

structure AgentTurnLogEntry (ε : Type) where
  seq : ℤ
  event : ε
  deriving DecidableEq

structure OpenAgentTurnLogRequest where
  scope : AgentTurnLogScope
  priorLoss : AgentTurnLogLoss
  prompt : Option String

structure AgentTurnLogLease (δ : Type) where
  writerEpoch : ℤ
  nextSeq : ℤ
  digest : Option δ
  digestThroughSeq : ℤ
  deriving DecidableEq

structure AppendAgentTurnLogRequest (ε δ μ : Type) where
  scope : AgentTurnLogScope
  writerEpoch : ℤ
  expectedNextSeq : ℤ
  ops : List (AgentTurnLogEntry ε)
  digest : Option δ
  sealing : Bool
  loss : AgentTurnLogLoss
  lifecycle : Option μ

inductive AgentTurnLogBudget
  | ok
  | near
  | evicting

structure AppendAgentTurnLogReceipt where
  persistedThroughSeq : ℤ
  nextSeq : ℤ
  turnBytes : ℤ
  budget : AgentTurnLogBudget

structure TurnMetaRow (δ μ : Type) where
  writerEpoch : ℤ
  nextSeq : ℤ
  firstSeq : ℤ
  eventCount : ℤ
  bytes : ℤ
  loss : AgentTurnLogLoss
  sealed : Bool
  digest : Option δ
  digestThroughSeq : ℤ
  prompt : Option String
  lifecycle : Option μ

structure EventRow where
  kind : ℤ
  bytes : ℤ
  payload : List UInt8
  deriving DecidableEq

structure TurnLogDatabase (δ μ : Type) where
  turnMeta : Table String (TurnMetaRow δ μ)
  events : Table (String × ℤ) EventRow

/-- What the store takes from elsewhere. -/
structure LogCodec (ε δ μ : Type) where
  encodeEvent : ε → List UInt8
  eventKindCode : ε → ℤ
  validEvent : ε → Bool
  validScope : AgentTurnLogScope → Bool
  validDigest : δ → Bool
  validLifecycle : μ → Bool

variable {ε δ μ : Type}

def validateLoss (loss : AgentTurnLogLoss) : Except AgentTurnLogError Unit :=
  match loss.atEpochMs with
  | some atEpochMs =>
    if loss.kind = .diskBudget ∧ atEpochMs ≤ maxSafeInteger then .ok () else .error .budgetExhausted
  | none => if loss.kind = .diskBudget then .error .budgetExhausted else .ok ()

def validateTurnPrompt (prompt : Option String) : Except AgentTurnLogError Unit :=
  match prompt with
  | none => .ok ()
  | some prompt =>
    if prompt.isEmpty ∨ maxTurnPromptBytes < prompt.utf8ByteSize ∨ '\x00' ∈ prompt.toList then
      .error .budgetExhausted
    else .ok ()

/-- The loop of `validate_op_order`. -/
def validateOpOrderFrom (expectedNextSeq : ℤ) :
    List (AgentTurnLogEntry ε) → Option ℤ → ℤ → Except AgentTurnLogError Unit
  | [], _, _ => .ok ()
  | op :: ops, previous, nextAppend =>
    if op.seq < agentTurnLogSeqBase then .error sequenceGap
    else if previous.any (op.seq ≤ ·) then .error sequenceGap
    else if op.seq < expectedNextSeq then
      validateOpOrderFrom expectedNextSeq ops (some op.seq) nextAppend
    else if op.seq ≠ nextAppend then .error sequenceGap
    else validateOpOrderFrom expectedNextSeq ops (some op.seq) (nextAppend + 1)

def validateOpOrder (ops : List (AgentTurnLogEntry ε)) (expectedNextSeq : ℤ) : Except AgentTurnLogError Unit :=
  validateOpOrderFrom expectedNextSeq ops none expectedNextSeq

variable (codec : LogCodec ε δ μ)

def validateScope (scope : AgentTurnLogScope) : Except AgentTurnLogError Unit :=
  if codec.validScope scope then .ok () else .error .ownerMismatch

def validateDigest (digest : δ) : Except AgentTurnLogError Unit :=
  if codec.validDigest digest then .ok () else .error .budgetExhausted

def validateTurnLifecycle (lifecycle : Option μ) : Except AgentTurnLogError Unit :=
  if lifecycle.all codec.validLifecycle then .ok () else .error .budgetExhausted

def validateOpenRequest (request : OpenAgentTurnLogRequest) : Except AgentTurnLogError Unit := do
  validateScope codec request.scope
  validateLoss request.priorLoss
  validateTurnPrompt request.prompt

/-- What `validate_append_request` asks before it looks at the ops. -/
def validateAppendCounters (request : AppendAgentTurnLogRequest ε δ μ) : Except AgentTurnLogError Unit :=
  if request.writerEpoch < 1 then .error .supersededWriter
  else if request.expectedNextSeq < agentTurnLogSeqBase then .error sequenceGap
  else if maxAppendOps < request.ops.length then .error .budgetExhausted
  else .ok ()

def validateAppendRequest (request : AppendAgentTurnLogRequest ε δ μ) : Except AgentTurnLogError Unit := do
  validateScope codec request.scope
  validateLoss request.loss
  validateAppendCounters request
  validateOpOrder request.ops request.expectedNextSeq
  validateTurnLifecycle codec request.lifecycle
  match request.digest with
  | none => .ok ()
  | some digest => validateDigest codec digest

def validateLease (lease : AgentTurnLogLease δ) : Except AgentTurnLogError Unit :=
  if lease.writerEpoch < 1 ∨ lease.nextSeq < agentTurnLogSeqBase then .error .unreadable
  else match lease.digest with
    | none => if lease.digestThroughSeq ≠ 0 then .error .unreadable else .ok ()
    | some digest => do
      validateDigest codec digest
      if lease.digestThroughSeq < agentTurnLogSeqBase ∨ lease.nextSeq - 1 < lease.digestThroughSeq then
        .error .unreadable
      else .ok ()

def validateReceipt (receipt : AppendAgentTurnLogReceipt) : Except AgentTurnLogError Unit :=
  if receipt.nextSeq < agentTurnLogSeqBase ∨ receipt.persistedThroughSeq ≠ receipt.nextSeq - 1 ∨
      receipt.turnBytes < 0 then
    .error .unreadable
  else .ok ()

def freshRow (loss : AgentTurnLogLoss) (prompt : Option String) : TurnMetaRow δ μ where
  writerEpoch := 1
  nextSeq := agentTurnLogSeqBase
  firstSeq := 0
  eventCount := 0
  bytes := 0
  loss := loss
  sealed := false
  digest := none
  digestThroughSeq := 0
  prompt := prompt
  lifecycle := none

namespace TurnMetaRow

variable (row : TurnMetaRow δ μ)

/-- The row once another writer has it. -/
def reopened (request : OpenAgentTurnLogRequest) : TurnMetaRow δ μ :=
  { row with
    writerEpoch := row.writerEpoch + 1
    loss := row.loss.merged request.priorLoss
    prompt := match row.prompt with
      | none => request.prompt
      | some prompt => some prompt }

def lease : AgentTurnLogLease δ :=
  ⟨row.writerEpoch, row.nextSeq, row.digest, row.digestThroughSeq⟩

def receipt : AppendAgentTurnLogReceipt :=
  ⟨row.nextSeq - 1, row.nextSeq, row.bytes, .ok⟩

end TurnMetaRow

namespace TurnLogDatabase

def empty : TurnLogDatabase δ μ := ⟨.empty, .empty⟩

variable (db : TurnLogDatabase δ μ)

/-- `update_turn_meta`, of a row that is there; `insert_turn_meta`, of one that is not. -/
def putTurnMeta (turnId : String) (row : TurnMetaRow δ μ) : TurnLogDatabase δ μ :=
  { db with turnMeta := db.turnMeta.set turnId row }

def openLease (request : OpenAgentTurnLogRequest) : AgentTurnLogLease δ × TurnLogDatabase δ μ :=
  let row := match db.turnMeta.get? request.scope.turnId with
    | some existing => existing.reopened request
    | none => freshRow request.priorLoss request.prompt
  (row.lease, db.putTurnMeta request.scope.turnId row)

/-- `AgentTurnLogStore::open`, on a connection that is there. -/
def storeOpen (request : OpenAgentTurnLogRequest) :
    Except AgentTurnLogError (AgentTurnLogLease δ) × TurnLogDatabase δ μ :=
  match validateOpenRequest codec request with
  | .error error => (.error error, db)
  | .ok () =>
    let opened := db.openLease request
    ((validateLease codec opened.1).map fun _ => opened.1, opened.2)

end TurnLogDatabase

structure EncodedOp where
  seq : ℤ
  kind : ℤ
  payload : List UInt8

/-- The row that an op leaves. -/
def EncodedOp.row (op : EncodedOp) : EventRow := ⟨op.kind, op.payload.length, op.payload⟩

/-- The loop of `encode_ops`, with the bytes so far. -/
def encodeOpsFrom : List (AgentTurnLogEntry ε) → ℕ → Except AgentTurnLogError (List EncodedOp)
  | [], _ => .ok []
  | entry :: ops, total =>
    if ¬ codec.validEvent entry.event then .error .budgetExhausted
    else
      let payload := codec.encodeEvent entry.event
      if maxAppendBytes < total + payload.length then .error .budgetExhausted
      else do
        let encoded ← encodeOpsFrom ops (total + payload.length)
        .ok (⟨entry.seq, codec.eventKindCode entry.event, payload⟩ :: encoded)

def encodeOps (ops : List (AgentTurnLogEntry ε)) : Except AgentTurnLogError (List EncodedOp) :=
  encodeOpsFrom codec ops 0

structure AppendPlan where
  appends : List EncodedOp
  replacements : List EncodedOp
  firstSeq : ℤ

/-- `checked_add` and `checked_sub` of `i64`. -/
def checkedI64 (value : ℤ) : Option ℤ := if -2 ^ 63 ≤ value ∧ value < 2 ^ 63 then some value else none

def checkedCounter (current added : ℤ) : Except AgentTurnLogError ℤ :=
  match (checkedI64 (current + added)).filter fun value =>
      0 ≤ current && 0 ≤ added && value ≤ maxLogCounter with
  | some value => .ok value
  | none => .error .budgetExhausted

def payloadBytes (ops : List EncodedOp) : ℤ := (ops.map fun op => (op.payload.length : ℤ)).sum

def planOps (ops : List EncodedOp) (row : TurnMetaRow δ μ) : Except AgentTurnLogError AppendPlan :=
  let appends := ops.filter fun op => row.nextSeq ≤ op.seq
  let replacements := ops.filter fun op => op.seq < row.nextSeq
  if replacements.any fun op => row.eventCount = 0 || op.seq < row.firstSeq then .error sequenceGap
  else
    .ok ⟨appends, replacements,
      if row.eventCount = 0 then (appends.head?.map EncodedOp.seq).getD row.firstSeq else row.firstSeq⟩

/-- The bytes of a turn once its replacements and appends are written. -/
def turnBytes (bytes replaced added replacement : ℤ) : Except AgentTurnLogError ℤ :=
  match (((checkedI64 (bytes - replaced)).bind fun bytes => checkedI64 (bytes + added)).bind
      fun bytes => checkedI64 (bytes + replacement)).filter
      fun bytes => 0 ≤ bytes && bytes ≤ maxLogCounter with
  | some bytes => .ok bytes
  | none => .error .budgetExhausted

namespace TurnLogDatabase

/-- The loop of `existing_bytes`, with the total so far. -/
def existingBytesFrom (db : TurnLogDatabase δ μ) (turnId : String) :
    List EncodedOp → ℤ → Except AgentTurnLogError ℤ
  | [], total => .ok total
  | op :: ops, total => match db.events.get? (turnId, op.seq) with
    | none => .error sequenceGap
    | some row => do
      let total ← checkedCounter total row.bytes
      existingBytesFrom db turnId ops total

def replaceEvents (turnId : String) :
    List EncodedOp → TurnLogDatabase δ μ → Except AgentTurnLogError (TurnLogDatabase δ μ)
  | [], db => .ok db
  | op :: ops, db =>
    if (db.events.get? (turnId, op.seq)).isNone then .error sequenceGap
    else replaceEvents turnId ops { db with events := db.events.set (turnId, op.seq) op.row }

def insertEvents (turnId : String) :
    List EncodedOp → TurnLogDatabase δ μ → Except AgentTurnLogError (TurnLogDatabase δ μ)
  | [], db => .ok db
  | op :: ops, db => match db.events.insertRow (turnId, op.seq) op.row with
    | none => .error .unreadable
    | some events => insertEvents turnId ops { db with events := events }

def appendLifecycleToSealedTurn [DecidableEq μ] (db : TurnLogDatabase δ μ)
    (request : AppendAgentTurnLogRequest ε δ μ) (row : TurnMetaRow δ μ) :
    Except AgentTurnLogError (AppendAgentTurnLogReceipt × TurnLogDatabase δ μ) :=
  match request.lifecycle.filter fun _ => request.ops.isEmpty && !request.sealing with
  | none => .error .sealed
  | some lifecycle =>
    if row.nextSeq ≠ request.expectedNextSeq then .error (.sequenceGap (some row.nextSeq))
    else match row.lifecycle with
      | some stored => if stored = lifecycle then .ok (row.receipt, db) else .error .sealed
      | none =>
        let row := { row with lifecycle := some lifecycle }
        .ok (row.receipt, db.putTurnMeta request.scope.turnId row)

/-- The row of a turn once an append is written. -/
def appended (row : TurnMetaRow δ μ) (request : AppendAgentTurnLogRequest ε δ μ)
    (nextSeq eventCount bytes firstSeq : ℤ) : TurnMetaRow δ μ :=
  { row with
    nextSeq := nextSeq
    eventCount := eventCount
    bytes := bytes
    firstSeq := firstSeq
    sealed := row.sealed || request.sealing
    loss := row.loss.merged request.loss
    digest := request.digest.or row.digest
    digestThroughSeq := if request.digest.isSome then nextSeq - 1 else row.digestThroughSeq
    lifecycle := request.lifecycle.or row.lifecycle }

/-- What `append` does to a turn that is not sealed, once the sequence agrees. -/
def appendToTurn (db : TurnLogDatabase δ μ) (request : AppendAgentTurnLogRequest ε δ μ)
    (ops : List EncodedOp) (row : TurnMetaRow δ μ) :
    Except AgentTurnLogError (AppendAgentTurnLogReceipt × TurnLogDatabase δ μ) := do
  let turnId := request.scope.turnId
  let plan ← planOps ops row
  let replacedBytes ← db.existingBytesFrom turnId plan.replacements 0
  let bytes ← turnBytes row.bytes replacedBytes (payloadBytes plan.appends) (payloadBytes plan.replacements)
  let nextSeq ← checkedCounter row.nextSeq plan.appends.length
  let eventCount ← checkedCounter row.eventCount plan.appends.length
  let db ← replaceEvents turnId plan.replacements db
  let db ← insertEvents turnId plan.appends db
  let row := appended row request nextSeq eventCount bytes plan.firstSeq
  .ok (row.receipt, db.putTurnMeta turnId row)

def append [DecidableEq μ] (db : TurnLogDatabase δ μ) (request : AppendAgentTurnLogRequest ε δ μ) :
    Except AgentTurnLogError (AppendAgentTurnLogReceipt × TurnLogDatabase δ μ) := do
  let ops ← encodeOps codec request.ops
  match db.turnMeta.get? request.scope.turnId with
  | none => .error .supersededWriter
  | some row =>
    if row.writerEpoch ≠ request.writerEpoch then .error .supersededWriter
    else if row.sealed then db.appendLifecycleToSealedTurn request row
    else if row.nextSeq ≠ request.expectedNextSeq then .error (.sequenceGap (some row.nextSeq))
    else db.appendToTurn request ops row

/-- `AgentTurnLogStore::append`, on a connection that is there. -/
def storeAppend [DecidableEq μ] (db : TurnLogDatabase δ μ)
    (request : AppendAgentTurnLogRequest ε δ μ) :
    Except AgentTurnLogError AppendAgentTurnLogReceipt × TurnLogDatabase δ μ :=
  match validateAppendRequest codec request with
  | .error error => (.error error, db)
  | .ok () => match db.append codec request with
    | .error error => (.error error, db)
    | .ok (receipt, db) => ((validateReceipt receipt).map fun _ => receipt, db)

end TurnLogDatabase

end CodevoEditor.TurnLogStore
