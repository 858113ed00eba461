/-
# Saving a turn as a delta

`src-tauri/src/agent_history_store/delta.rs` (`save_turn_delta`): the events of a stored turn
are rebuilt from a delta and saved, if the thread is at the expected revision and the stored
events are those the delta starts from.
-/

import CodevoEditor.History.Store

namespace CodevoEditor.History

open Js Sql

inductive HistoryDeltaRefusal
  | baseMismatch
  | missingBase
  | invalidDelta
  deriving DecidableEq

inductive HistoryDeltaOutcome
  | saved (revision : ℕ) (eventsDigest : List UInt8)
  | needsFullSave (reason : HistoryDeltaRefusal)
  deriving DecidableEq

abbrev DeltaResult := Except HistoryError HistoryDeltaOutcome

def refuse (reason : HistoryDeltaRefusal) : DeltaResult := .ok (.needsFullSave reason)

def deltaFingerprintDomain : List UInt8 := "agent-history-turn-delta-v1\u0000".toUTF8.toList
def eventsDigestDomain : List UInt8 := "agent-history-turn-events-v1\u0000".toUTF8.toList

variable {β τ η θ : Type} (codec : Codec β τ η θ)

def digest (domain encoded : List UInt8) : List UInt8 := codec.sha256 (domain ++ encoded)

def historyEventsDigest (events : List β) : List UInt8 :=
  digest codec eventsDigestDomain (codec.encodeEvents events)

/-- The thread with the events of its turn. -/
def SavedThread.rebuilt (thread : SavedThread β τ η θ) (events : List β) : SavedThread β τ η θ :=
  { thread with
    turns := match thread.turns with
      | [] => []
      | turn :: turns => { turn with events := events } :: turns }

/-- What `save_turn_delta` does before it opens the store: the turn and the fingerprint. -/
def prepareTurnDelta (root : String) (thread : SavedThread β τ η θ) (expectedRevision : ℕ)
    (delta : HistoryTurnDelta β) (halts : List TurnHaltRequest) :
    Except DeltaResult (AgentTurn β × List UInt8) :=
  if maxAgentSafeInteger ≤ expectedRevision then
    .error (.error (.message "Agent history revision is out of bounds."))
  else match deltaTurn thread.outline delta with
    | none => .error (refuse .invalidDelta)
    | some turn =>
      if ¬ (validate codec root thread).isOk ∨ ¬ (TurnHaltRequest.validate thread.turnIds halts).isOk ∨
          (insertedEvents delta.edits).any (fun event => !codec.validEvent event) then
        .error (refuse .invalidDelta)
      else
        let encoded := codec.encodeDeltaRequest thread delta halts
        if maxPageBytes < encoded.length then .error (refuse .invalidDelta)
        else .ok (turn, digest codec deltaFingerprintDomain encoded)

namespace HistoryDatabase

/-- What `save_turn_delta` does in its transaction. -/
def saveDelta (db : HistoryDatabase) (root : String) (thread : SavedThread β τ η θ) (turn : AgentTurn β)
    (expectedRevision : ℕ) (delta : HistoryTurnDelta β) (halts : List TurnHaltRequest)
    (fingerprint : List UInt8) : DeltaResult × HistoryDatabase :=
  if db.tombstones.has thread.threadId then (refuse .missingBase, db)
  else match db.threads.get? thread.threadId, db.turns.get? (thread.threadId, turn.turnId) with
    | none, _ | _, none => (refuse .missingBase, db)
    | some stored, some row => match codec.decodeTurn row.payload with
      | none => (refuse .baseMismatch, db)
      | some base =>
        if base.turnId ≠ turn.turnId then (refuse .baseMismatch, db)
        else if stored.revision = expectedRevision + 1 ∧ stored.lastSaveHash = some fingerprint then
          (.ok (.saved (expectedRevision + 1) (historyEventsDigest codec base.events)), db)
        else if stored.revision ≠ expectedRevision ∨
            base.events.length ≠ delta.baseEventCount.toNat ∨
            historyEventsDigest codec base.events ≠ delta.baseEventsDigest then
          (refuse .baseMismatch, db)
        else match applyEdits base.events delta.edits with
          | none => (refuse .invalidDelta, db)
          | some events =>
            let rebuilt := thread.rebuilt events
            if ¬ (validate codec root rebuilt).isOk ∨
                maxPageBytes < (codec.encodeThread rebuilt).utf8ByteSize then
              (refuse .invalidDelta, db)
            else match db.commitSave codec rebuilt expectedRevision halts fingerprint with
              | .ok (revision, saved) =>
                (.ok (.saved revision (historyEventsDigest codec events)), saved)
              | .error _ => (refuse .invalidDelta, db)

def saveTurnDelta (db : HistoryDatabase) (root : String) (thread : SavedThread β τ η θ)
    (expectedRevision : ℕ) (delta : HistoryTurnDelta β) (halts : List TurnHaltRequest) :
    DeltaResult × HistoryDatabase :=
  match prepareTurnDelta codec root thread expectedRevision delta halts with
  | .error result => (result, db)
  | .ok (turn, fingerprint) =>
    db.saveDelta codec root thread turn expectedRevision delta halts fingerprint

end HistoryDatabase

variable {codec} {db next later : HistoryDatabase} {root : String} {thread : SavedThread β τ η θ}
  {expectedRevision : ℕ} {delta : HistoryTurnDelta β} {halts : List TurnHaltRequest}

variable {fingerprint : List UInt8}

lemma turns_of_prepareTurnDelta {turn}
    (h : prepareTurnDelta codec root thread expectedRevision delta halts = .ok (turn, fingerprint)) :
    ∃ saved, thread.turns = [saved] ∧ saved.toAgentTurn = turn := by
  unfold prepareTurnDelta at h
  cases hget : deltaTurn thread.outline delta with
  | none =>
    rw [hget] at h
    split_ifs at h
  | some found =>
    rw [hget] at h
    dsimp only at h
    split_ifs at h
    cases h
    unfold deltaTurn SavedThread.outline at hget
    split at hget
    · rename_i only honly
      obtain ⟨saved, hsaved, rfl⟩ := List.map_eq_singleton_iff.1 honly
      split_ifs at hget
      obtain ⟨total, -, hget⟩ := Option.bind_eq_some_iff.1 hget
      split_ifs at hget
      exact ⟨saved, hsaved, Option.some.inj hget⟩
    · cases hget

variable {result : DeltaResult}

lemma not_saved_of_prepareTurnDelta
    (h : prepareTurnDelta codec root thread expectedRevision delta halts = .error result)
    (revision : ℕ) (eventsDigest) : result ≠ .ok (.saved revision eventsDigest) := by
  unfold prepareTurnDelta refuse at h
  rintro rfl
  cases hget : deltaTurn thread.outline delta with
  | none =>
    rw [hget] at h
    dsimp only at h
    split_ifs at h
    · cases h
    · cases h
  | some found =>
    rw [hget] at h
    dsimp only at h
    split_ifs at h
    · cases h
    · cases h
    · cases h

/-- **What saving a delta does**: it is refused, it is the replay of a delta that was saved,
or the rebuilt turn is saved. -/
inductive SaveStep (codec : Codec β τ η θ) (db : HistoryDatabase) (thread : SavedThread β τ η θ)
    (turn : SavedTurn β τ) (expectedRevision : ℕ) (delta : HistoryTurnDelta β)
    (fingerprint : List UInt8) : DeltaResult → HistoryDatabase → Prop
  | refused (reason : HistoryDeltaRefusal) :
    SaveStep codec db thread turn expectedRevision delta fingerprint (refuse reason) db
  | replayed (stored : ThreadRow) (row : TurnRow) (base : SavedTurn β τ)
    (alive : db.tombstones.has thread.threadId = false)
    (thread_eq : db.threads.get? thread.threadId = some stored)
    (turn_eq : db.turns.get? (thread.threadId, turn.turnId) = some row)
    (base_eq : codec.decodeTurn row.payload = some base) (id_eq : base.turnId = turn.turnId)
    (revision_eq : stored.revision = expectedRevision + 1)
    (hash_eq : stored.lastSaveHash = some fingerprint) :
    SaveStep codec db thread turn expectedRevision delta fingerprint
      (.ok (.saved (expectedRevision + 1) (historyEventsDigest codec base.events))) db
  | committed (stored : ThreadRow) (row : TurnRow) (base : SavedTurn β τ) (events : List β)
    (next : HistoryDatabase)
    (alive : db.tombstones.has thread.threadId = false)
    (thread_eq : db.threads.get? thread.threadId = some stored)
    (turn_eq : db.turns.get? (thread.threadId, turn.turnId) = some row)
    (base_eq : codec.decodeTurn row.payload = some base) (id_eq : base.turnId = turn.turnId)
    (revision_eq : stored.revision = expectedRevision)
    (count_eq : base.events.length = delta.baseEventCount.toNat)
    (digest_eq : historyEventsDigest codec base.events = delta.baseEventsDigest)
    (events_eq : applyEdits base.events delta.edits = some events)
    (alive_next : next.tombstones = db.tombstones)
    (thread_next : ∃ stored, next.threads.get? thread.threadId = some stored ∧
      stored.revision = expectedRevision + 1 ∧ stored.lastSaveHash = some fingerprint)
    (turn_next : (next.turns.get? (thread.threadId, turn.turnId)).map TurnRow.payload =
      some (codec.encodeTurn { turn with events := events }))
    (others : ∀ key ≠ (thread.threadId, turn.turnId),
      (next.turns.get? key).map TurnRow.payload = (db.turns.get? key).map TurnRow.payload) :
    SaveStep codec db thread turn expectedRevision delta fingerprint
      (.ok (.saved (expectedRevision + 1) (historyEventsDigest codec events))) next

variable {turn : SavedTurn β τ}

lemma saveDelta_step (htrn : thread.turns = [turn]) (fingerprint) :
    SaveStep codec db thread turn expectedRevision delta fingerprint
      (db.saveDelta codec root thread turn.toAgentTurn expectedRevision delta halts fingerprint).1
      (db.saveDelta codec root thread turn.toAgentTurn expectedRevision delta halts fingerprint).2 := by
  unfold HistoryDatabase.saveDelta
  split_ifs with htomb
  · exact .refused _
  split
  · exact .refused _
  · exact .refused _
  rename_i stored row hstore hrow
  split
  · exact .refused _
  rename_i base hbase
  rw [Bool.not_eq_true] at htomb
  split_ifs with hid hreplay hbasis
  · exact .refused _
  · exact .replayed stored row base htomb hstore hrow hbase (not_not.1 hid) hreplay.1 hreplay.2
  · exact .refused _
  push Not at hid hbasis
  obtain ⟨hrev, hcnt, hdigest⟩ := hbasis
  split
  · exact .refused _
  rename_i events hevs
  dsimp only
  split_ifs with hchecks
  · exact .refused _
  split
  · rename_i revision saved hcommit
    have hrebuilt : (thread.rebuilt events).turns = [{ turn with events := events }] := by
      unfold SavedThread.rebuilt
      rw [htrn]
    have hfrm := HistoryDatabase.commitSave_frame hcommit
    rw [SavedThread.turnIds, hrebuilt] at hfrm
    obtain ⟨rfl, htombs, hthr, hturn, hoths⟩ := hfrm
    refine .committed stored row base events saved htomb hstore hrow hbase hid hrev hcnt
      hdigest hevs htombs hthr ?_ fun key hne => ?_
    · exact hturn (List.nodup_singleton _) _ (List.mem_singleton_self _)
    · refine hoths key fun other hoth => ?_
      rw [List.mem_singleton.1 hoth]
      exact hne
  · exact .refused _

variable {stored : ThreadRow}

lemma saveDelta_replay {turn} {row} {base}
    (alive : db.tombstones.has thread.threadId = false)
    (hthr : db.threads.get? thread.threadId = some stored)
    (hturn : db.turns.get? (thread.threadId, turn.turnId) = some row)
    (hbase : codec.decodeTurn row.payload = some base) (hid : base.turnId = turn.turnId)
    (hrev : stored.revision = expectedRevision + 1)
    (hhash : stored.lastSaveHash = some fingerprint) :
    db.saveDelta codec root thread turn expectedRevision delta halts fingerprint =
      (.ok (.saved (expectedRevision + 1) (historyEventsDigest codec base.events)), db) := by
  unfold HistoryDatabase.saveDelta
  rw [if_neg (by rw [alive]; decide), hthr, hturn]
  dsimp only
  rw [hbase]
  dsimp only
  rw [if_neg (not_not.2 hid), if_pos ⟨hrev, hhash⟩]

/-- Nothing has happened to the thread and to its turns since. -/
structure SameSave (thread : SavedThread β τ η θ) (next later : HistoryDatabase) : Prop where
  tombstones_eq : later.tombstones.has thread.threadId = next.tombstones.has thread.threadId
  thread_eq : (later.threads.get? thread.threadId).map (fun row => (row.revision, row.lastSaveHash)) =
    (next.threads.get? thread.threadId).map fun row => (row.revision, row.lastSaveHash)
  turn_eq : ∀ turn ∈ thread.turns,
    (later.turns.get? (thread.threadId, turn.turnId)).map TurnRow.payload =
      (next.turns.get? (thread.threadId, turn.turnId)).map TurnRow.payload

lemma SameSave.refl (thread : SavedThread β τ η θ) (next : HistoryDatabase) : SameSave thread next next :=
  ⟨rfl, rfl, fun _ _ => rfl⟩

lemma SameSave.thread_row (h : SameSave thread next later)
    (hthr : next.threads.get? thread.threadId = some stored) :
    ∃ row, later.threads.get? thread.threadId = some row ∧ row.revision = stored.revision ∧
      row.lastSaveHash = stored.lastSaveHash := by
  have heq := h.thread_eq
  rw [hthr, Option.map_some] at heq
  obtain ⟨row, hrow, hpair⟩ := Option.map_eq_some_iff.1 heq
  obtain ⟨hrev, hhash⟩ := Prod.mk.inj hpair
  exact ⟨row, hrow, hrev, hhash⟩

lemma SameSave.turn_row (h : SameSave thread next later) (hturn : turn ∈ thread.turns)
    {payload}
    (hpay : (next.turns.get? (thread.threadId, turn.turnId)).map TurnRow.payload = some payload) :
    ∃ row, later.turns.get? (thread.threadId, turn.turnId) = some row ∧ row.payload = payload :=
  Option.map_eq_some_iff.1 ((h.turn_eq turn hturn).trans hpay)

/-- What a saved delta needs of JSON: the turn that was stored is read back. -/
def ReadsBack (codec : Codec β τ η θ) (thread : SavedThread β τ η θ) (next : HistoryDatabase) : Prop :=
  ∀ turn ∈ thread.turns, ∀ events,
    (next.turns.get? (thread.threadId, turn.turnId)).map TurnRow.payload =
      some (codec.encodeTurn { turn with events := events }) →
    codec.decodeTurn (codec.encodeTurn { turn with events := events }) = some { turn with events := events }

lemma SaveStep.replay
    (h : SaveStep codec db thread turn expectedRevision delta fingerprint result next)
    (hturn : turn ∈ thread.turns)
    (hsaved : ∃ revision eventsDigest, result = .ok (.saved revision eventsDigest))
    (hreads : ReadsBack codec thread next) (hsame : SameSave thread next later) :
    later.saveDelta codec root thread turn.toAgentTurn expectedRevision delta halts fingerprint =
      (result, later) := by
  have htombs := hsame.tombstones_eq
  rcases h with ⟨reason⟩ | ⟨stored, row, base, alive, hthr, hrow, hbase, hid, hrev, hhash⟩ |
    ⟨_, _, base, events, _, alive, _, _, _, _, _, _, _, _, hkept, ⟨stored, hthr, hrev, hhash⟩, hpay, -⟩
  · obtain ⟨revision, eventsDigest, heq⟩ := hsaved
    cases heq
  · obtain ⟨stored', hthread', hrev', hhash'⟩ := hsame.thread_row hthr
    obtain ⟨row', hrow', hpay'⟩ := hsame.turn_row hturn (by rw [hrow, Option.map_some])
    rw [← hpay'] at hbase
    exact saveDelta_replay (htombs.trans alive) hthread' hrow' hbase hid
      (hrev'.trans hrev) (hhash'.trans hhash)
  · obtain ⟨stored', hthread', hrev', hhash'⟩ := hsame.thread_row hthr
    obtain ⟨row', hrow', hpay'⟩ := hsame.turn_row hturn hpay
    have hbase := hreads turn hturn events hpay
    rw [← hpay'] at hbase
    rw [hkept] at htombs
    exact saveDelta_replay (htombs.trans alive) hthread' hrow' hbase rfl
      (hrev'.trans hrev) (hhash'.trans hhash)

/-- A turn whose events are the characters of its text. -/
def sampleSavedTurn (events : List Char) : SavedTurn Char Unit where
  turnId := "turn-1"
  events := events
  status := .running
  lastOutputSequence := 1
  lastStatusSequence := 1
  rest := ()

def sampleSavedThread (turns : List (SavedTurn Char Unit)) : SavedThread Char Unit Unit Unit where
  threadId := "thread-1"
  rootKey := "root"
  repositoryRoot := "root"
  createdAtEpochMs := 1
  updatedAtEpochMs := 2
  turns := turns
  externalOrigin := none
  rest := ()

def sampleCodec : Codec Char Unit Unit Unit where
  encodeEvents events := events.map fun event => event.toNat.toUInt8
  encodeTurn turn := String.ofList turn.events
  decodeTurn text := some (sampleSavedTurn text.toList)
  encodeThread _ := "thread"
  decodeThread _ := some (sampleSavedThread [])
  encodeDeltaRequest _ delta _ := [delta.edits.length.toUInt8]
  encodeHistory _ := ""
  extractStatus _ := .ok .running
  sha256 bytes := List.replicate 63 48 ++ [48 + bytes.sum % 10]
  validDocument _ _ := true
  validEvent _ := true

def sampleHistory : HistoryDatabase where
  threads := OrderedMap.empty.set "thread-1" ⟨"thread", 2, 1, none⟩
  turns := OrderedMap.empty.set ("thread-1", "turn-1") ⟨1, "ab"⟩
  turnHaltRequests := .empty
  importIdentity := .empty
  importedCheckpoints := .empty
  importedLegacy := .empty
  migrated := .empty
  tombstones := .empty

/-- One more event at the end of the two that are stored. -/
def sampleDelta : HistoryTurnDelta Char where
  baseEventCount := 2
  baseEventsDigest := historyEventsDigest sampleCodec ['a', 'b']
  edits := [.copy 0 2, .insert ['c']]

def sampleSave (db : HistoryDatabase) : DeltaResult × HistoryDatabase :=
  db.saveTurnDelta sampleCodec "root" (sampleSavedThread [sampleSavedTurn []]) 1 sampleDelta []

end CodevoEditor.History
