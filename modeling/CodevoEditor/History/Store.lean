/-
# The store of saved threads

`src-tauri/src/agent_history_store/mod.rs` (`validate`, `upsert`, `new_turn_ordinal`,
`commit_save`) and `imports.rs` (`migrate_legacy_history`): a saved thread is a header and its
turns, each its JSON text, under a revision that every save raises.

JSON and SHA-256 are parameters (`Codec`), as is what else makes a document valid. A field that
nothing here reads is in `rest`.
-/

import CodevoEditor.History.HaltRequests
import CodevoEditor.History.TurnDelta
import CodevoEditor.Js.Records

namespace CodevoEditor.History

open Js Sql

def maxPageBytes : ℕ := 4 * 1024 * 1024

inductive AgentTurnStatus
  | pending
  | running
  | exited (exitCode : ℤ)
  | failed (message : String)
  | stopped
  | interrupted

def AgentTurnStatus.isTerminal : AgentTurnStatus → Bool
  | pending | running => false
  | _ => true

/-- `AgentTurn`, with the fields that a save reads. -/
structure SavedTurn (β τ : Type) extends AgentTurn β where
  status : AgentTurnStatus
  lastOutputSequence : ℕ
  lastStatusSequence : ℕ
  rest : τ

/-- `AgentThreadExternalOrigin`; the provider is its JSON text. -/
structure ExternalOrigin (η : Type) where
  provider : String
  sessionId : String
  history : Option η

/-- `AgentThread`, with the fields that a save reads. -/
structure SavedThread (β τ η θ : Type) where
  threadId : String
  rootKey : String
  repositoryRoot : String
  createdAtEpochMs : ℕ
  updatedAtEpochMs : ℕ
  turns : List (SavedTurn β τ)
  externalOrigin : Option (ExternalOrigin η)
  rest : θ

structure ThreadRow where
  payload : String
  updatedAt : ℤ
  revision : ℤ
  lastSaveHash : Option (List UInt8)

/-- The row once a save is accepted. -/
def ThreadRow.accepted (row : ThreadRow) (revision : ℕ) (fingerprint : List UInt8) : ThreadRow :=
  { row with revision := revision, lastSaveHash := some fingerprint }

structure TurnRow where
  ordinal : ℤ
  payload : String

structure ImportIdentity where
  provider : String
  sessionId : String
  repositoryRoot : String
  deriving DecidableEq

structure HistoryDatabase where
  threads : Table String ThreadRow
  turns : Table (String × String) TurnRow
  turnHaltRequests : Table (String × String) HaltRow
  importIdentity : Table String ImportIdentity
  importedCheckpoints : Table String Unit
  importedLegacy : Table String String
  migrated : Table String Unit
  tombstones : Table String Unit

/-- What the store uses of `serde_json`, of `sha2` and of the validation of a document. -/
structure Codec (β τ η θ : Type) where
  encodeEvents : List β → List UInt8
  encodeTurn : SavedTurn β τ → String
  decodeTurn : String → Option (SavedTurn β τ)
  encodeThread : SavedThread β τ η θ → String
  decodeThread : String → Option (SavedThread β τ η θ)
  encodeDeltaRequest : SavedThread β τ η θ → HistoryTurnDelta β → List TurnHaltRequest → List UInt8
  encodeHistory : η → String
  extractStatus : String → Except HistoryError AgentTurnStatus
  sha256 : List UInt8 → List UInt8
  validDocument : String → SavedThread β τ η θ → Bool
  validEvent : β → Bool

variable {β τ η θ : Type} (codec : Codec β τ η θ)

namespace SavedThread

/-- The thread as `delta_turn` looks at it. -/
def outline (thread : SavedThread β τ η θ) : AgentThread β := ⟨thread.turns.map (·.toAgentTurn)⟩

def turnIds (thread : SavedThread β τ η θ) : List String := thread.turns.map (·.turnId)

/-- What a row of `threads` holds of a thread. -/
def header (thread : SavedThread β τ η θ) : SavedThread β τ η θ :=
  { thread with
    turns := []
    externalOrigin := thread.externalOrigin.map fun origin => { origin with history := none } }

end SavedThread

def validate (root : String) (thread : SavedThread β τ η θ) : Except HistoryError Unit :=
  if maxAgentSafeInteger < thread.updatedAtEpochMs ∨ maxAgentSafeInteger < thread.createdAtEpochMs then
    .error (.message "Agent thread timestamp is out of bounds.")
  else if ¬ thread.turnIds.Nodup then
    .error (.message "Agent thread contains duplicate turn identifiers.")
  else if codec.validDocument root thread then .ok ()
  else .error (.message "Agent thread document is invalid.")

namespace HistoryDatabase

def migrateLegacyHistory (db : HistoryDatabase) (thread : SavedThread β τ η θ) : HistoryDatabase :=
  match thread.externalOrigin.bind (·.history) with
  | none => db
  | some history =>
    if db.importedCheckpoints.has thread.threadId ∨ db.importedLegacy.has thread.threadId then db
    else
      { db with importedLegacy := db.importedLegacy.set thread.threadId (codec.encodeHistory history) }

/-- What `upsert` asks of the thread that is saved. -/
def checkPrevious (db : HistoryDatabase) (thread : SavedThread β τ η θ) : Except HistoryError Unit :=
  match db.threads.get? thread.threadId with
  | none => .ok ()
  | some row => match codec.decodeThread row.payload with
    | none => .error .json
    | some previous => do
      validate codec thread.rootKey previous
      if previous.threadId ≠ thread.threadId then
        .error (.message "The saved thread belongs to another agent project root.")
      else if thread.updatedAtEpochMs < previous.updatedAtEpochMs then
        .error (.message "The saved thread update is stale.")
      else .ok ()

/-- `INSERT OR IGNORE INTO import_identity`, once no other thread has the identity. -/
def identify (db : HistoryDatabase) (thread : SavedThread β τ η θ) : Except HistoryError HistoryDatabase :=
  match thread.externalOrigin with
  | none => .ok db
  | some origin =>
    let identity : ImportIdentity := ⟨origin.provider, origin.sessionId, thread.repositoryRoot⟩
    match (db.importIdentity.selectWhere fun _ row => row = identity).head? with
    | some (existing, _) =>
      if existing ≠ thread.threadId then
        .error (.message "This provider session has already been imported.")
      else .ok db
    | none =>
      if db.importIdentity.has thread.threadId then .ok db
      else .ok { db with importIdentity := db.importIdentity.set thread.threadId identity }

/-- `INSERT INTO threads … ON CONFLICT DO UPDATE`. -/
def putThread (db : HistoryDatabase) (thread : SavedThread β τ η θ) : HistoryDatabase :=
  let payload := codec.encodeThread thread.header
  let row : ThreadRow := match db.threads.get? thread.threadId with
    | some row => { row with payload := payload, updatedAt := thread.updatedAtEpochMs }
    | none => ⟨payload, thread.updatedAtEpochMs, 1, none⟩
  { db with threads := db.threads.set thread.threadId row }

/-- The last turn of a thread: `ORDER BY ordinal DESC LIMIT 1`. -/
def lastTurn (db : HistoryDatabase) (threadId : String) : Option ((String × String) × TurnRow) :=
  Table.firstBy (fun row other => other.2.ordinal < row.2.ordinal)
    (db.turns.selectWhere fun key _ => key.1 = threadId)

/-- `new_turn_ordinal`: a turn that has ended goes before a last turn that has not. -/
def newTurnOrdinal (db : HistoryDatabase) (threadId : String) (turn : SavedTurn β τ)
    (earlierInBatch : List (SavedTurn β τ)) : Except HistoryError (ℤ × HistoryDatabase) :=
  match db.lastTurn threadId with
  | none => .ok (1, db)
  | some ((_, lastTurnId), last) =>
    if ¬ turn.status.isTerminal ∨ earlierInBatch.any (·.turnId = lastTurnId) then
      .ok (last.ordinal + 1, db)
    else do
      let status ← codec.extractStatus last.payload
      if status.isTerminal then .ok (last.ordinal + 1, db)
      else
        .ok (last.ordinal,
          { db with
            turns := db.turns.updateWhere (fun key row => key.1 = threadId && row.ordinal = last.ordinal)
              fun row => { row with ordinal := last.ordinal + 1 } })

/-- What a save asks of a turn that is saved. -/
def checkTurn (db : HistoryDatabase) (threadId : String) (turn : SavedTurn β τ) : Except HistoryError Unit :=
  match db.turns.get? (threadId, turn.turnId) with
  | none => .ok ()
  | some row => match codec.decodeTurn row.payload with
    | none => .error .json
    | some previous =>
      if previous.turnId ≠ turn.turnId then
        .error (.message "The saved turn identifier is invalid.")
      else if turn.lastOutputSequence < previous.lastOutputSequence ∨
          turn.lastStatusSequence < previous.lastStatusSequence ∨
          (previous.status.isTerminal ∧ ¬ turn.status.isTerminal) then
        .error (.message "The saved turn update is stale.")
      else .ok ()

/-- A turn that is stored keeps its place. -/
def turnOrdinal (db : HistoryDatabase) (threadId : String) (turn : SavedTurn β τ)
    (earlier : List (SavedTurn β τ)) : Except HistoryError (ℤ × HistoryDatabase) :=
  match db.turns.get? (threadId, turn.turnId) with
  | some row => .ok (row.ordinal, db)
  | none => db.newTurnOrdinal codec threadId turn earlier

/-- One turn of the loop of `upsert`. -/
def putTurn (db : HistoryDatabase) (threadId : String) (turn : SavedTurn β τ)
    (earlier : List (SavedTurn β τ)) : Except HistoryError HistoryDatabase := do
  db.checkTurn codec threadId turn
  let (ordinal, db) ← db.turnOrdinal codec threadId turn earlier
  let payload := codec.encodeTurn turn
  if maxPageBytes - 65536 < payload.utf8ByteSize then
    .error (.message "Agent turn exceeds the bounded history page size.")
  else .ok { db with turns := db.turns.set (threadId, turn.turnId) ⟨ordinal, payload⟩ }

/-- The loop of `upsert`, with the turns that are done. -/
def putTurns (threadId : String) :
    List (SavedTurn β τ) → List (SavedTurn β τ) → HistoryDatabase → Except HistoryError HistoryDatabase
  | _, [], db => .ok db
  | earlier, turn :: turns, db => do
    let db ← db.putTurn codec threadId turn earlier
    putTurns threadId (earlier ++ [turn]) turns db

def upsert (db : HistoryDatabase) (thread : SavedThread β τ η θ) : Except HistoryError HistoryDatabase := do
  db.checkPrevious codec thread
  let db ← (db.migrateLegacyHistory codec thread).identify thread
  putTurns codec thread.threadId [] thread.turns (db.putThread codec thread)

/-- `commit_save`: the new revision, and the tables once the transaction is committed. -/
def commitSave (db : HistoryDatabase) (thread : SavedThread β τ η θ) (expectedRevision : ℕ)
    (halts : List TurnHaltRequest) (fingerprint : List UInt8) :
    Except HistoryError (ℕ × HistoryDatabase) := do
  let db ← db.upsert codec thread
  let revision := expectedRevision + 1
  .ok (revision,
    { db with
      turnHaltRequests := recordHalts thread.threadId halts db.turnHaltRequests
      threads := Table.updateWhere db.threads (fun key _ => key = thread.threadId) fun row =>
        row.accepted revision fingerprint
      migrated := if db.migrated.has thread.threadId then db.migrated
        else db.migrated.set thread.threadId () })

variable {codec} {db next : HistoryDatabase} {thread : SavedThread β τ η θ} {turn : SavedTurn β τ}
  {threadId : String}

lemma migrateLegacyHistory_frame (codec : Codec β τ η θ) (db : HistoryDatabase)
    (thread) :
    ∃ legacy, db.migrateLegacyHistory codec thread = { db with importedLegacy := legacy } := by
  unfold migrateLegacyHistory
  split
  · exact ⟨_, rfl⟩
  · split_ifs
    · exact ⟨_, rfl⟩
    · exact ⟨_, rfl⟩

lemma identify_frame (h : db.identify thread = .ok next) :
    ∃ identities, next = { db with importIdentity := identities } := by
  unfold identify at h
  split at h
  · cases h
    exact ⟨_, rfl⟩
  · dsimp only at h
    split at h
    · split_ifs at h
      cases h
      exact ⟨_, rfl⟩
    · split_ifs at h
      · cases h
        exact ⟨_, rfl⟩
      · cases h
        exact ⟨_, rfl⟩

lemma newTurnOrdinal_frame {earlier} {ordinal}
    (h : db.newTurnOrdinal codec threadId turn earlier = .ok (ordinal, next)) :
    ∃ turns, next = { db with turns := turns } ∧
      ∀ key, (turns.get? key).map TurnRow.payload = (db.turns.get? key).map TurnRow.payload := by
  unfold newTurnOrdinal at h
  split at h
  · cases h
    exact ⟨_, rfl, fun _ => rfl⟩
  · split_ifs at h
    · cases h
      exact ⟨_, rfl, fun _ => rfl⟩
    · obtain ⟨status, -, h⟩ := bind_eq_ok.1 h
      split_ifs at h
      · cases h
        exact ⟨_, rfl, fun _ => rfl⟩
      · cases h
        refine ⟨_, rfl, fun key => ?_⟩
        rw [Table.get?_updateWhere, Option.map_map]
        refine congrArg (Option.map · _) (funext fun row => ?_)
        rw [Function.comp_apply]
        split_ifs <;> rfl

/-- **What saving one turn does**: its text is stored, and no other text changes. -/
theorem putTurn_frame {earlier}
    (h : db.putTurn codec threadId turn earlier = .ok next) :
    ∃ turns, next = { db with turns := turns } ∧
      (turns.get? (threadId, turn.turnId)).map TurnRow.payload = some (codec.encodeTurn turn) ∧
      ∀ key ≠ (threadId, turn.turnId),
        (turns.get? key).map TurnRow.payload = (db.turns.get? key).map TurnRow.payload := by
  obtain ⟨-, -, h⟩ := bind_eq_ok.1 h
  obtain ⟨⟨ordinal, placed⟩, hpl, h⟩ := bind_eq_ok.1 h
  obtain ⟨turns, rfl, hpayloads⟩ : ∃ turns, placed = { db with turns := turns } ∧
      ∀ key, (turns.get? key).map TurnRow.payload = (db.turns.get? key).map TurnRow.payload := by
    unfold turnOrdinal at hpl
    split at hpl
    · cases hpl
      exact ⟨_, rfl, fun _ => rfl⟩
    · exact newTurnOrdinal_frame hpl
  dsimp only at h
  split_ifs at h
  cases h
  refine ⟨_, rfl, ?_, fun key hne => ?_⟩
  · rw [OrderedMap.get?_set, if_pos rfl]
    rfl
  · rw [OrderedMap.get?_set, if_neg hne]
    exact hpayloads key

/-- **What saving a batch of turns does**: the texts of its turns are stored, and no other
text changes. -/
theorem putTurns_frame {earlier turns}
    (h : putTurns codec threadId earlier turns db = .ok next) :
    ∃ rows, next = { db with turns := rows } ∧
      ((turns.map (·.turnId)).Nodup → ∀ turn ∈ turns,
        (rows.get? (threadId, turn.turnId)).map TurnRow.payload = some (codec.encodeTurn turn)) ∧
      ∀ key, (∀ turn ∈ turns, key ≠ (threadId, turn.turnId)) →
        (rows.get? key).map TurnRow.payload = (db.turns.get? key).map TurnRow.payload := by
  induction turns generalizing earlier db with
  | nil =>
    cases h
    exact ⟨_, rfl, nofun, fun _ _ => rfl⟩
  | cons first turns ih =>
    obtain ⟨placed, hfst, h⟩ := bind_eq_ok.1 h
    obtain ⟨_, rfl, hstore, hoths⟩ := putTurn_frame hfst
    obtain ⟨rows, rfl, hrest, hkept⟩ := ih h
    refine ⟨rows, rfl, fun hnd turn hmem => ?_, fun key hkey => ?_⟩
    · rw [List.map_cons, List.nodup_cons] at hnd
      rcases List.mem_cons.1 hmem with rfl | hmem
      · rw [hkept _ fun other hoth heq => hnd.1 ?_]
        · exact hstore
        · obtain ⟨-, heq⟩ := Prod.mk.inj heq
          rw [heq]
          exact List.mem_map_of_mem hoth
      · exact hrest hnd.2 turn hmem
    · rw [hkept key fun turn hmem => hkey turn (List.mem_cons_of_mem _ hmem)]
      exact hoths key (hkey first List.mem_cons_self)

lemma putThread_frame (codec : Codec β τ η θ) (db : HistoryDatabase)
    (thread) :
    ∃ row, db.putThread codec thread = { db with threads := db.threads.set thread.threadId row } :=
  ⟨_, rfl⟩

/-- **What a save does** to the thread and to the texts of the turns. -/
theorem commitSave_frame {expectedRevision revision} {halts}
    {fingerprint}
    (h : db.commitSave codec thread expectedRevision halts fingerprint = .ok (revision, next)) :
    revision = expectedRevision + 1 ∧ next.tombstones = db.tombstones ∧
      (∃ row, next.threads.get? thread.threadId = some row ∧ row.revision = expectedRevision + 1 ∧
        row.lastSaveHash = some fingerprint) ∧
      (thread.turnIds.Nodup → ∀ turn ∈ thread.turns,
        (next.turns.get? (thread.threadId, turn.turnId)).map TurnRow.payload = some (codec.encodeTurn turn)) ∧
      ∀ key, (∀ turn ∈ thread.turns, key ≠ (thread.threadId, turn.turnId)) →
        (next.turns.get? key).map TurnRow.payload = (db.turns.get? key).map TurnRow.payload := by
  obtain ⟨upserted, hupsert, h⟩ := bind_eq_ok.1 h
  cases h
  obtain ⟨-, -, hupsert⟩ := bind_eq_ok.1 hupsert
  obtain ⟨identified, hidentify, hputs⟩ := bind_eq_ok.1 hupsert
  obtain ⟨legacy, hlegacy⟩ := migrateLegacyHistory_frame codec db thread
  rw [hlegacy] at hidentify
  obtain ⟨identities, hident⟩ := identify_frame hidentify
  obtain ⟨row, hrow⟩ := putThread_frame codec identified thread
  rw [hrow, hident] at hputs
  obtain ⟨rows, rfl, hstore, hkept⟩ := putTurns_frame hputs
  have hthr : (Table.updateWhere (db.threads.set thread.threadId row)
      (fun key _ => key = thread.threadId)
      fun row => row.accepted (expectedRevision + 1) fingerprint).get? thread.threadId =
      some (row.accepted (expectedRevision + 1) fingerprint) := by
    rw [Table.get?_updateWhere, OrderedMap.get?_set, if_pos rfl, Option.map_some, if_pos (decide_eq_true rfl)]
  exact ⟨rfl, rfl, ⟨_, hthr, Int.natCast_succ _, rfl⟩, hstore, hkept⟩

end HistoryDatabase

end CodevoEditor.History
