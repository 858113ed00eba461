/-
# Saving and deleting a thread

`src-tauri/src/agent_history_store/mod.rs` (`save_with_halt_requests`, `delete`) and
`git_worktree.rs` (`safe_agent_task_id`): a thread is saved over the revision that is stored, by
one client at a time; the save that was accepted last is known by its fingerprint.
-/

import CodevoEditor.History.SaveTurnDelta
import CodevoEditor.RuntimeRequests.Store

namespace CodevoEditor.History

open Js Sql

def minAgentTaskIdBytes : ℕ := 3

def maxAgentTaskIdBytes : ℕ := 64

def isAgentTaskIdStart (character : Char) : Bool := character.isLower || character.isDigit

def isAgentTaskIdBody (character : Char) : Bool := isAgentTaskIdStart character || character = '-'

/-- Whether no two dashes follow one another. -/
def hasNoDoubleDash : List Char → Bool
  | '-' :: '-' :: _ => false
  | _ :: rest => hasNoDoubleDash rest
  | [] => true

def safeAgentTaskId (candidate : String) : Except HistoryError Unit :=
  if candidate.utf8ByteSize < minAgentTaskIdBytes then
    .error (.message "Agent task id must be at least 3 characters.")
  else if maxAgentTaskIdBytes < candidate.utf8ByteSize then
    .error (.message "Agent task id must not exceed 64 characters.")
  else if ¬ hasNoDoubleDash candidate.toList then
    .error (.message "Agent task id must not contain consecutive dashes.")
  else match candidate.toList with
    | [] => .error (.message "Agent task id is required.")
    | first :: rest =>
      if ¬ isAgentTaskIdStart first then
        .error (.message "Agent task id must start with a lowercase letter or digit.")
      else if ¬ rest.all isAgentTaskIdBody then
        .error (.message "Agent task id may only contain lowercase letters, digits and dashes.")
      else .ok ()

/-- The tables, with those that only a deletion changes here. -/
structure HistoryTables extends HistoryDatabase where
  attachmentCleanup : Table String Unit
  importedExchanges : Table (String × ℤ) String
  runtimeRequests : Table RuntimeRequests.RequestKey RuntimeRequests.RequestRow
  runtimeRequestMarks : Table String RuntimeRequests.RequestMarks
  runtimeRequestTurns : Table RuntimeRequests.TurnKey RuntimeRequests.TurnRow

/-- What a save uses besides: the JSON of halt requests. -/
structure SaveCodec (β τ η θ : Type) extends Codec β τ η θ where
  encodeHalts : List TurnHaltRequest → List UInt8

structure HistorySaveReceipt where
  revision : ℕ
  eventsDigest : Option (List UInt8)
  deriving DecidableEq

variable {β τ η θ : Type}

/-- The end of a transaction: what was done stands, unless something failed. -/
def transact {σ α : Type} (fault : Option HistoryError) (before : σ) :
    Except HistoryError (α × σ) → Except HistoryError α × σ
  | .error error => (.error error, before)
  | .ok (result, next) =>
    match fault with
    | none => (.ok result, next)
    | some error => (.error error, before)

section

variable (codec : SaveCodec β τ η θ)

def saveFingerprint (thread : SavedThread β τ η θ) (halts : List TurnHaltRequest) : List UInt8 :=
  codec.sha256 ((codec.encodeThread thread).toUTF8.toList ++
    if halts = [] then [] else codec.encodeHalts halts)

def eventsDigest (thread : SavedThread β τ η θ) : Option (List UInt8) :=
  match thread.turns with
  | [turn] => some (historyEventsDigest codec.toCodec turn.events)
  | _ => none

/-- What `save_with_halt_requests` asks before it opens the store. -/
def checkSave (root : String) (thread : SavedThread β τ η θ) (expectedRevision : ℕ)
    (halts : List TurnHaltRequest) : Except HistoryError Unit :=
  if maxAgentSafeInteger ≤ expectedRevision then
    .error (.message "Agent history revision is out of bounds.")
  else do
    validate codec.toCodec root thread
    TurnHaltRequest.validate thread.turnIds halts
    if maxPageBytes < (codec.encodeThread thread).utf8ByteSize then
      .error (.message "Agent thread save batch exceeds 4 MiB.")
    else .ok ()

namespace HistoryDatabase

variable (db : HistoryDatabase)

/-- The revision that is stored of a thread: none is the revision 0. -/
def revisionOf (threadId : String) : ℤ := ((db.threads.get? threadId).map ThreadRow.revision).getD 0

/-- The thread is at a revision that was saved with a fingerprint. -/
def wasSaved (threadId : String) (revision : ℕ) (fingerprint : List UInt8) : Bool :=
  (db.threads.get? threadId).any fun row =>
    decide (row.revision = (revision : ℤ)) && decide (row.lastSaveHash = some fingerprint)

/-- What `save_with_halt_requests` does in its transaction. -/
def saveThread (thread : SavedThread β τ η θ) (expectedRevision : ℕ) (halts : List TurnHaltRequest) :
    Except HistoryError (HistorySaveReceipt × HistoryDatabase) :=
  let fingerprint := saveFingerprint codec thread halts
  if db.tombstones.has thread.threadId then .error (.message "The saved thread has been deleted.")
  else if db.wasSaved thread.threadId (expectedRevision + 1) fingerprint then
    .ok (⟨expectedRevision + 1, eventsDigest codec thread⟩, db)
  else if db.revisionOf thread.threadId ≠ expectedRevision then
    .error (.message "The saved thread update is stale; reload its current revision.")
  else do
    let (revision, next) ← db.commitSave codec.toCodec thread expectedRevision halts fingerprint
    .ok (⟨revision, eventsDigest codec thread⟩, next)

end HistoryDatabase

namespace HistoryTables

variable (tables : HistoryTables) (root : String)

def saveWithHaltRequests (thread : SavedThread β τ η θ) (expectedRevision : ℕ)
    (halts : List TurnHaltRequest) (fault : Option HistoryError) :
    Except HistoryError HistorySaveReceipt × HistoryTables :=
  transact fault tables do
    checkSave codec root thread expectedRevision halts
    let (receipt, db) ← tables.toHistoryDatabase.saveThread codec thread expectedRevision halts
    .ok (receipt, { tables with toHistoryDatabase := db })

variable (id : String)

/-- What a deletion asks of the thread that is saved. -/
def checkDeleted : Except HistoryError Unit :=
  match tables.threads.get? id with
  | none => .ok ()
  | some row => match codec.decodeThread row.payload with
    | none => .error .json
    | some thread => do
      validate codec.toCodec root thread
      if thread.threadId ≠ id then
        .error (.message "The saved thread belongs to another agent project root.")
      else .ok ()

/-- `INSERT OR IGNORE INTO attachment_cleanup`, where there is a thread. -/
def noteCleanup : Table String Unit :=
  if tables.threads.has id ∧ ¬ tables.attachmentCleanup.has id then tables.attachmentCleanup.set id ()
  else tables.attachmentCleanup

/-- The rows that are left when a thread is deleted. -/
def deleteRows : HistoryTables :=
  { tables with
    importIdentity := tables.importIdentity.delete id
    turns := Table.deleteWhere tables.turns fun key _ => key.1 = id
    turnHaltRequests := Table.deleteWhere tables.turnHaltRequests fun key _ => key.1 = id
    runtimeRequests := Table.deleteWhere tables.runtimeRequests fun key _ => key.threadId = id
    runtimeRequestMarks := tables.runtimeRequestMarks.delete id
    runtimeRequestTurns := Table.deleteWhere tables.runtimeRequestTurns fun key _ => key.threadId = id
    importedExchanges := Table.deleteWhere tables.importedExchanges fun key _ => key.1 = id
    importedCheckpoints := tables.importedCheckpoints.delete id
    importedLegacy := tables.importedLegacy.delete id
    threads := tables.threads.delete id
    tombstones := if tables.tombstones.has id then tables.tombstones else tables.tombstones.set id ()
    attachmentCleanup := tables.noteCleanup id }

/-- The transaction of `delete`: whether attachments are to be removed. -/
def deleteThread (fault : Option HistoryError) : Except HistoryError Bool × HistoryTables :=
  transact fault tables do
    safeAgentTaskId id
    tables.checkDeleted codec root id
    .ok ((tables.noteCleanup id).has id, tables.deleteRows id)

/-- `delete`: the attachments go once the thread is gone. -/
def delete (fault : Option HistoryError) (removal : Except HistoryError Unit)
    (cleanupFault : Option HistoryError) : Except HistoryError Unit × HistoryTables :=
  match tables.deleteThread codec root id fault with
  | (.error error, tables) => (.error error, tables)
  | (.ok false, tables) => (.ok (), tables)
  | (.ok true, tables) =>
    match removal with
    | .error error => (.error error, tables)
    | .ok () =>
      transact cleanupFault tables (.ok ((), { tables with attachmentCleanup := tables.attachmentCleanup.delete id }))

end HistoryTables

end

/-- A call of a client. -/
inductive HistoryCall (β τ η θ : Type)
  | save (thread : SavedThread β τ η θ) (expectedRevision : ℕ) (halts : List TurnHaltRequest)
    (fault : Option HistoryError)
  | delete (id : String) (fault : Option HistoryError) (removal : Except HistoryError Unit)
    (cleanupFault : Option HistoryError)

/-- The thread that a call is about. -/
def HistoryCall.threadId : HistoryCall β τ η θ → String
  | .save thread _ _ _ => thread.threadId
  | .delete id _ _ _ => id

namespace HistoryTables

variable (codec : SaveCodec β τ η θ) (root : String) (tables : HistoryTables)

def run : HistoryCall β τ η θ → HistoryTables
  | .save thread expectedRevision halts fault =>
    (tables.saveWithHaltRequests codec root thread expectedRevision halts fault).2
  | .delete id fault removal cleanupFault => (tables.delete codec root id fault removal cleanupFault).2

/-- The calls of all clients, in the order in which the store takes them. -/
def runs (calls : List (HistoryCall β τ η θ)) : HistoryTables := calls.foldl (run codec root) tables

/-- Each call is about another thread, or changes nothing. -/
def Undisturbed (threadId : String) : HistoryTables → List (HistoryCall β τ η θ) → Prop
  | _, [] => True
  | tables, call :: calls =>
    (call.threadId ≠ threadId ∨ tables.run codec root call = tables) ∧
      Undisturbed threadId (tables.run codec root call) calls

end HistoryTables

end CodevoEditor.History
