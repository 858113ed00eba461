/-
# Saved threads do not regress

A save is refused, is the repetition of the last one, or raises the revision by one and writes
turns that are not behind those that were stored (`SavedAs`).
-/

import CodevoEditor.History.SaveThread

namespace CodevoEditor.History

open Js Sql List Option OrderedMap

variable {β τ η θ : Type}

/-- What is read back of a turn: its place in the streams, and whether it has ended. -/
def ReadsBackTurns (codec : Codec β τ η θ) : Prop :=
  ∀ turn, ∃ read, codec.decodeTurn (codec.encodeTurn turn) = some read ∧
    read.lastOutputSequence = turn.lastOutputSequence ∧ read.lastStatusSequence = turn.lastStatusSequence ∧
    read.status.isTerminal = turn.status.isTerminal

/-- A turn is not behind one that was stored. -/
structure Follows (previous turn : SavedTurn β τ) : Prop where
  output : previous.lastOutputSequence ≤ turn.lastOutputSequence
  status : previous.lastStatusSequence ≤ turn.lastStatusSequence
  terminal : previous.status.isTerminal → turn.status.isTerminal

lemma Follows.refl (turn : SavedTurn β τ) : Follows turn turn := ⟨le_rfl, le_rfl, id⟩

/-- No turn that is stored falls behind. -/
def Advances (codec : Codec β τ η θ) (db next : HistoryDatabase) : Prop :=
  ∀ key row previous, db.turns.get? key = some row → codec.decodeTurn row.payload = some previous →
    ∃ row' turn, next.turns.get? key = some row' ∧ codec.decodeTurn row'.payload = some turn ∧ Follows previous turn

variable {fingerprint : List UInt8} {revision : ℕ}

namespace HistoryDatabase

variable {codec : Codec β τ η θ} {db next : HistoryDatabase} {thread : SavedThread β τ η θ}
  {turn : SavedTurn β τ} {threadId : String}

variable {previous : SavedTurn β τ} {payload : String}

/-- **A turn that is saved follows the one that is stored.** -/
theorem checkTurn_spec (h : db.checkTurn codec threadId turn = .ok ())
    (hrow : (db.turns.get? (threadId, turn.turnId)).map TurnRow.payload = some payload)
    (hprev : codec.decodeTurn payload = some previous) : Follows previous turn := by
  obtain ⟨row, hget, rfl⟩ := map_eq_some_iff.1 hrow
  unfold checkTurn at h
  rw [hget] at h
  dsimp only at h
  rw [hprev] at h
  dsimp only at h
  split_ifs at h with hid hstale
  rw [not_or, not_or, not_lt, not_lt, not_and, not_not] at hstale
  exact ⟨hstale.1, hstale.2.1, hstale.2.2⟩

lemma putTurns_follow {earlier turns}
    (h : putTurns codec threadId earlier turns db = .ok next)
    (hnd : (turns.map (·.turnId)).Nodup) (hturn : turn ∈ turns)
    (hrow : (db.turns.get? (threadId, turn.turnId)).map TurnRow.payload = some payload)
    (hprev : codec.decodeTurn payload = some previous) : Follows previous turn := by
  induction turns generalizing earlier db with
  | nil => cases hturn
  | cons first turns ih =>
    obtain ⟨placed, hfst, hrest⟩ := bind_eq_ok.1 h
    rw [map_cons, nodup_cons] at hnd
    rcases mem_cons.1 hturn with rfl | hmem
    · obtain ⟨⟨⟩, hcheck, -⟩ := bind_eq_ok.1 hfst
      exact checkTurn_spec hcheck hrow hprev
    · obtain ⟨rows, rfl, -, hoths⟩ := putTurn_frame hfst
      refine ih hrest hnd.2 hmem ?_
      have hne : (threadId, turn.turnId) ≠ (threadId, first.turnId) := fun heq => hnd.1
        ((Prod.mk.inj heq).2 ▸ mem_map_of_mem hmem)
      exact (hoths _ hne).trans hrow

/-- **What a save that is committed does**: the revision, the turns, and that nothing else is
touched. -/
structure Committed (codec : Codec β τ η θ) (db next : HistoryDatabase) (thread : SavedThread β τ η θ)
    (expectedRevision : ℕ) (fingerprint : List UInt8) : Prop where
  tombstones : next.tombstones = db.tombstones
  saved : next.wasSaved thread.threadId (expectedRevision + 1) fingerprint
  revision : next.revisionOf thread.threadId = expectedRevision + 1
  others : ∀ other, other ≠ thread.threadId → next.threads.get? other = db.threads.get? other
  turns : ∀ key, key.1 ≠ thread.threadId →
    (next.turns.get? key).map TurnRow.payload = (db.turns.get? key).map TurnRow.payload
  advances : ReadsBackTurns codec → Advances codec db next

variable {halts : List TurnHaltRequest} {expectedRevision : ℕ}

lemma threads_commitSave
    (h : db.commitSave codec thread expectedRevision halts fingerprint = .ok (revision, next))
    {other} (hne : other ≠ thread.threadId) :
    next.threads.get? other = db.threads.get? other := by
  obtain ⟨upserted, hupsert, h⟩ := bind_eq_ok.1 h
  obtain ⟨-, -, hupsert⟩ := bind_eq_ok.1 hupsert
  obtain ⟨identified, hidentify, hputs⟩ := bind_eq_ok.1 hupsert
  obtain ⟨legacy, hlegacy⟩ := migrateLegacyHistory_frame codec db thread
  rw [hlegacy] at hidentify
  obtain ⟨identities, hident⟩ := identify_frame hidentify
  obtain ⟨row, hrow⟩ := putThread_frame codec identified thread
  rw [hrow, hident] at hputs
  obtain ⟨rows, rfl, -, -⟩ := putTurns_frame hputs
  cases h
  change (Table.updateWhere (db.threads.set thread.threadId row) (fun key _ => key = thread.threadId)
    fun row => row.accepted (expectedRevision + 1) fingerprint).get? other = _
  rw [Table.get?_updateWhere, get?_set, if_neg hne]
  simp only [hne, decide_false, Bool.false_eq_true, if_false, Option.map_id']

lemma turns_commitSave
    (h : db.commitSave codec thread expectedRevision halts fingerprint = .ok (revision, next))
    (hnd : thread.turnIds.Nodup) (hturn : turn ∈ thread.turns)
    (hrow : (db.turns.get? (thread.threadId, turn.turnId)).map TurnRow.payload = some payload)
    (hprev : codec.decodeTurn payload = some previous) : Follows previous turn := by
  obtain ⟨upserted, hupsert, -⟩ := bind_eq_ok.1 h
  obtain ⟨-, -, hupsert⟩ := bind_eq_ok.1 hupsert
  obtain ⟨identified, hidentify, hputs⟩ := bind_eq_ok.1 hupsert
  obtain ⟨legacy, hlegacy⟩ := migrateLegacyHistory_frame codec db thread
  rw [hlegacy] at hidentify
  obtain ⟨identities, hident⟩ := identify_frame hidentify
  obtain ⟨row, hput⟩ := putThread_frame codec identified thread
  rw [hput, hident] at hputs
  exact putTurns_follow hputs hnd hturn hrow hprev

lemma committed_of_commitSave (hnd : thread.turnIds.Nodup)
    (h : db.commitSave codec thread expectedRevision halts fingerprint = .ok (revision, next)) :
    revision = expectedRevision + 1 ∧ Committed codec db next thread expectedRevision fingerprint := by
  obtain ⟨hrev, htombs, ⟨row, hrow, hat, hhash⟩, hstore, hoths⟩ := commitSave_frame h
  refine ⟨hrev, htombs, ?_, ?_, fun other hne => threads_commitSave h hne, fun key hne => ?_,
    fun hreads key row previous hget hprev => ?_⟩
  · unfold wasSaved
    rw [hrow, any_some, hat, hhash, decide_eq_true rfl, Bool.and_true]
    exact decide_eq_true (Int.natCast_succ expectedRevision).symm
  · unfold revisionOf
    rw [hrow]
    exact hat
  · exact hoths key fun turn _ heq => hne (heq ▸ rfl)
  · have hpay : (db.turns.get? key).map TurnRow.payload = some row.payload := by
      rw [hget, map_some]
    by_cases hbatch : ∃ turn ∈ thread.turns, key = (thread.threadId, turn.turnId)
    · obtain ⟨turn, hturn, rfl⟩ := hbatch
      have hfollows := turns_commitSave h hnd hturn hpay hprev
      obtain ⟨row', hget', hpay'⟩ := map_eq_some_iff.1 (hstore hnd turn hturn)
      obtain ⟨read, hread, houtput, hstat, hterm⟩ := hreads turn
      refine ⟨row', read, hget', hpay' ▸ hread, ?_⟩
      exact ⟨houtput ▸ hfollows.output, hstat ▸ hfollows.status, hterm ▸ hfollows.terminal⟩
    · have hsame := hoths key fun turn hturn heq => hbatch ⟨turn, hturn, heq⟩
      obtain ⟨row', hget', hpay'⟩ := map_eq_some_iff.1 (hsame.trans hpay)
      exact ⟨row', previous, hget', hpay' ▸ hprev, Follows.refl previous⟩

end HistoryDatabase

namespace HistoryTables

variable {codec : SaveCodec β τ η θ} {tables next : HistoryTables} {root : String} {thread : SavedThread β τ η θ}
  {expectedRevision : ℕ} {halts : List TurnHaltRequest} {threadId : String}

/-- **What a save may do.** -/
inductive SavedAs (codec : SaveCodec β τ η θ) (tables : HistoryTables) (thread : SavedThread β τ η θ)
    (expectedRevision : ℕ) (halts : List TurnHaltRequest) :
    Except HistoryError HistorySaveReceipt → HistoryTables → Prop
  | refused (error : HistoryError) : SavedAs codec tables thread expectedRevision halts (.error error) tables
  | repeated (hsaved : tables.wasSaved thread.threadId (expectedRevision + 1)
      (saveFingerprint codec thread halts)) (halive : tables.tombstones.has thread.threadId = false) :
    SavedAs codec tables thread expectedRevision halts (.ok ⟨expectedRevision + 1, eventsDigest codec thread⟩) tables
  | committed (db : HistoryDatabase) (hrev : tables.revisionOf thread.threadId = expectedRevision)
      (halive : tables.tombstones.has thread.threadId = false)
      (hcomm : tables.toHistoryDatabase.Committed codec.toCodec db thread expectedRevision
        (saveFingerprint codec thread halts)) :
    SavedAs codec tables thread expectedRevision halts
      (.ok ⟨expectedRevision + 1, eventsDigest codec thread⟩) { tables with toHistoryDatabase := db }

/-- A transaction that works does so without a fault; one that does not leaves all as it was. -/
lemma transact_cases {σ α : Type} (fault) (before : σ)
    (work : Except HistoryError (α × σ)) :
    (∃ error, transact fault before work = (.error error, before)) ∨
      ∃ result after, fault = none ∧ work = .ok (result, after) ∧ transact fault before work = (.ok result, after) := by
  cases work with
  | error error => exact .inl ⟨error, rfl⟩
  | ok outcome =>
    cases fault with
    | none => exact .inr ⟨outcome.1, outcome.2, rfl, rfl, rfl⟩
    | some error => exact .inl ⟨error, rfl⟩

lemma nodup_of_checkSave (h : checkSave codec root thread expectedRevision halts = .ok ()) :
    thread.turnIds.Nodup := by
  unfold checkSave at h
  by_cases hbd : maxAgentSafeInteger ≤ expectedRevision
  · rw [if_pos hbd] at h
    cases h
  rw [if_neg hbd] at h
  obtain ⟨⟨⟩, hval, -⟩ := bind_eq_ok.1 h
  unfold validate at hval
  split_ifs at hval with htime hnd
  · exact hnd

lemma savedAs (codec : SaveCodec β τ η θ) (tables : HistoryTables) (root : String)
    (thread) (expectedRevision : ℕ) (halts : List TurnHaltRequest)
    (fault) :
    SavedAs codec tables thread expectedRevision halts
      (tables.saveWithHaltRequests codec root thread expectedRevision halts fault).1
      (tables.saveWithHaltRequests codec root thread expectedRevision halts fault).2 := by
  have hsaves : tables.saveWithHaltRequests codec root thread expectedRevision halts fault =
      transact fault tables (do
        checkSave codec root thread expectedRevision halts
        let saved ← tables.toHistoryDatabase.saveThread codec thread expectedRevision halts
        .ok (saved.1, { tables with toHistoryDatabase := saved.2 })) := rfl
  rw [hsaves]
  rcases transact_cases fault tables (do
      checkSave codec root thread expectedRevision halts
      let saved ← tables.toHistoryDatabase.saveThread codec thread expectedRevision halts
      .ok (saved.1, { tables with toHistoryDatabase := saved.2 }))
    with ⟨error, heq⟩ | ⟨receipt, after, rfl, hwork, heq⟩
  · rw [heq]
    exact .refused error
  · rw [heq]
    obtain ⟨⟨⟩, hcheck, hwork⟩ := bind_eq_ok.1 hwork
    obtain ⟨⟨receipt', db⟩, hsave, hwork⟩ := bind_eq_ok.1 hwork
    cases hwork
    unfold HistoryDatabase.saveThread at hsave
    dsimp only at hsave
    split_ifs at hsave with htomb hsaved hstale
    · cases hsave
      exact .repeated hsaved (Bool.not_eq_true _ ▸ htomb)
    · obtain ⟨⟨revision, next⟩, hcommit, hsave⟩ := bind_eq_ok.1 hsave
      cases hsave
      obtain ⟨rfl, hcomm⟩ := HistoryDatabase.committed_of_commitSave (nodup_of_checkSave hcheck) hcommit
      exact .committed next (not_not.1 hstale) (Bool.not_eq_true _ ▸ htomb) hcomm

/-- **A save that was the last is repeated without a change.** -/
theorem save_again (hcheck : checkSave codec root thread expectedRevision halts = .ok ())
    (halive : tables.tombstones.has thread.threadId = false)
    (hsaved : tables.wasSaved thread.threadId (expectedRevision + 1) (saveFingerprint codec thread halts)) :
    tables.saveWithHaltRequests codec root thread expectedRevision halts none =
      (.ok ⟨expectedRevision + 1, eventsDigest codec thread⟩, tables) := by
  unfold saveWithHaltRequests
  rw [hcheck]
  unfold HistoryDatabase.saveThread
  rw [if_neg (by rw [halive]; decide), if_pos hsaved]
  rfl

/-- **What a deletion does.** -/
structure Deleted (tables next : HistoryTables) (id : String) : Prop where
  tombstone : next.tombstones.has id
  thread : next.threads.get? id = none
  turns : ∀ key, key.1 = id → next.turns.get? key = none
  kept : ∀ key, tables.turns.get? key = none → next.turns.get? key = none
  others : ∀ other, other ≠ id → next.threads.get? other = tables.threads.get? other ∧
    next.tombstones.has other = tables.tombstones.has other

lemma deleted_deleteRows (tables) (id : String) : Deleted tables (tables.deleteRows id) id := by
  unfold deleteRows
  refine ⟨?_, ?_, fun key heq => ?_, fun key hnone => ?_, fun other hne => ⟨?_, ?_⟩⟩
  · dsimp only
    split_ifs with hhas
    · exact hhas
    · rw [has_eq, get?_set, if_pos rfl]
      rfl
  · exact (get?_delete ..).trans (if_pos rfl)
  · dsimp only
    rw [Table.get?_deleteWhere]
    cases tables.turns.get? key with
    | none => rfl
    | some row =>
      rw [filter_some, decide_eq_true heq]
      rfl
  · dsimp only
    rw [Table.get?_deleteWhere, hnone]
    rfl
  · exact (get?_delete ..).trans (if_neg hne)
  · dsimp only
    split_ifs
    · rfl
    · rw [has_eq, has_eq, get?_set, if_neg hne]

lemma deleteThread_cases (codec : SaveCodec β τ η θ) (tables : HistoryTables) (root id : String)
    (fault) :
    (∃ error, tables.deleteThread codec root id fault = (.error error, tables)) ∨
      ∃ cleanup, tables.deleteThread codec root id fault = (.ok cleanup, tables.deleteRows id) := by
  rcases transact_cases fault tables (do
      safeAgentTaskId id
      tables.checkDeleted codec root id
      .ok ((tables.noteCleanup id).has id, tables.deleteRows id))
    with ⟨error, heq⟩ | ⟨cleanup, after, rfl, hwork, heq⟩
  · exact .inl ⟨error, heq⟩
  · obtain ⟨⟨⟩, -, hwork⟩ := bind_eq_ok.1 hwork
    obtain ⟨⟨⟩, -, hwork⟩ := bind_eq_ok.1 hwork
    cases hwork
    exact .inr ⟨_, heq⟩

lemma delete_cases (codec : SaveCodec β τ η θ) (tables : HistoryTables) (root id : String)
    (fault) (removal) (cleanupFault) :
    (∃ error, tables.deleteThread codec root id fault = (.error error, tables)) ∧
        (tables.delete codec root id fault removal cleanupFault).2 = tables ∨
      (∃ cleanup, tables.deleteThread codec root id fault = (.ok cleanup, tables.deleteRows id)) ∧
        Deleted tables (tables.delete codec root id fault removal cleanupFault).2 id := by
  have hdel := deleted_deleteRows tables id
  unfold delete
  rcases deleteThread_cases codec tables root id fault with ⟨error, heq⟩ | ⟨cleanup, heq⟩
  · rw [heq]
    exact .inl ⟨⟨error, rfl⟩, rfl⟩
  · rw [heq]
    refine .inr ⟨⟨cleanup, rfl⟩, ?_⟩
    cases cleanup with
    | false => exact hdel
    | true =>
      cases removal with
      | error error => exact hdel
      | ok done =>
        cases cleanupFault with
        | none => exact ⟨hdel.tombstone, hdel.thread, hdel.turns, hdel.kept, hdel.others⟩
        | some error => exact hdel

/-- A thread that is gone: it left a tombstone, and nothing of it is stored. -/
structure Gone (tables : HistoryTables) (id : String) : Prop where
  tombstone : tables.tombstones.has id
  thread : tables.threads.get? id = none
  turns : ∀ key, key.1 = id → tables.turns.get? key = none

/-- The thread is stored, and a save of it was the last. -/
structure LastSave (tables : HistoryTables) (threadId : String) (revision : ℕ) (fingerprint : List UInt8) : Prop where
  alive : tables.tombstones.has threadId = false
  saved : tables.wasSaved threadId revision fingerprint

lemma wasSaved_congr {db next : HistoryDatabase} (h : next.threads.get? threadId = db.threads.get? threadId)
    (revision : ℕ) (fingerprint) :
    next.wasSaved threadId revision fingerprint = db.wasSaved threadId revision fingerprint := by
  unfold HistoryDatabase.wasSaved
  rw [h]

theorem Gone.run {id} (h : tables.Gone id) (call : HistoryCall β τ η θ) : (tables.run codec root call).Gone id := by
  cases call with
  | save thread expectedRevision halts fault =>
    have hsaved := savedAs codec tables root thread expectedRevision halts fault
    change Gone (tables.saveWithHaltRequests codec root thread expectedRevision halts fault).2 id
    generalize tables.saveWithHaltRequests codec root thread expectedRevision halts fault = outcome at hsaved ⊢
    obtain ⟨result, next⟩ := outcome
    cases hsaved with
    | refused => exact h
    | repeated => exact h
    | committed db hrev halive hcomm =>
      have hne : id ≠ thread.threadId := by
        rintro rfl
        exact absurd (h.tombstone.symm.trans halive) (by decide)
      refine ⟨?_, ?_, fun key hkey => ?_⟩
      · dsimp only
        rw [hcomm.tombstones]
        exact h.tombstone
      · exact (hcomm.others id hne).trans h.thread
      · have hsame := hcomm.turns key (hkey ▸ hne)
        rw [h.turns key hkey, map_none] at hsame
        exact map_eq_none_iff.1 hsame
  | delete other fault removal cleanupFault =>
    change Gone (tables.delete codec root other fault removal cleanupFault).2 id
    rcases delete_cases codec tables root other fault removal cleanupFault with ⟨-, hsame⟩ | ⟨-, hdel⟩
    · rw [hsame]
      exact h
    · by_cases heq : id = other
      · rw [heq]
        exact ⟨hdel.tombstone, hdel.thread, hdel.turns⟩
      · refine ⟨(hdel.others id heq).2.trans h.tombstone, (hdel.others id heq).1.trans h.thread,
          fun key hkey => ?_⟩
        exact hdel.kept key (h.turns key hkey)

lemma Gone.runs {id} (h : tables.Gone id) (calls) : (tables.runs codec root calls).Gone id := by
  unfold HistoryTables.runs
  induction calls generalizing tables with
  | nil => exact h
  | cons call calls ih =>
    exact ih (h.run call)

lemma LastSave.run (h : tables.LastSave threadId revision fingerprint)
    (call : HistoryCall β τ η θ)
    (hcall : call.threadId ≠ threadId ∨ tables.run codec root call = tables) :
    (tables.run codec root call).LastSave threadId revision fingerprint := by
  rcases hcall with hne | hsame
  · cases call with
    | save thread expectedRevision halts fault =>
      have hsaved := savedAs codec tables root thread expectedRevision halts fault
      change LastSave (tables.saveWithHaltRequests codec root thread expectedRevision halts fault).2 _ _ _
      generalize tables.saveWithHaltRequests codec root thread expectedRevision halts fault = outcome at hsaved ⊢
      obtain ⟨result, next⟩ := outcome
      cases hsaved with
      | refused => exact h
      | repeated => exact h
      | committed db hrev halive hcomm =>
        refine ⟨?_, (wasSaved_congr (hcomm.others threadId hne.symm) _ _).trans h.saved⟩
        rw [hcomm.tombstones]
        exact h.alive
    | delete id fault removal cleanupFault =>
      change LastSave (tables.delete codec root id fault removal cleanupFault).2 _ _ _
      rcases delete_cases codec tables root id fault removal cleanupFault with ⟨-, hsame⟩ | ⟨-, hdel⟩
      · rw [hsame]
        exact h
      · obtain ⟨hthr, htomb⟩ := hdel.others threadId hne.symm
        exact ⟨htomb.trans h.alive, (wasSaved_congr hthr _ _).trans h.saved⟩
  · rw [hsame]
    exact h

lemma LastSave.runs (h : tables.LastSave threadId revision fingerprint)
    (calls) (hcalls : Undisturbed codec root threadId tables calls) :
    (tables.runs codec root calls).LastSave threadId revision fingerprint := by
  unfold HistoryTables.runs
  induction calls generalizing tables with
  | nil => exact h
  | cons call calls ih =>
    exact ih (h.run call hcalls.1) hcalls.2

lemma check_of_saved {fault} {receipt}
    (h : (tables.saveWithHaltRequests codec root thread expectedRevision halts fault).1 = .ok receipt) :
    checkSave codec root thread expectedRevision halts = .ok () := by
  unfold saveWithHaltRequests at h
  cases hcheck : checkSave codec root thread expectedRevision halts with
  | error error =>
    rw [hcheck] at h
    cases h
  | ok done => rfl

/-- **Saved threads never regress.** A save that fails changes nothing. -/
theorem saved_history_never_regresses (codec : SaveCodec β τ η θ) (hreads : ReadsBackTurns codec.toCodec)
    (root : String) (tables : HistoryTables) :
    (∀ (thread : SavedThread β τ η θ) (expectedRevision : ℕ) (halts : List TurnHaltRequest)
        (fault : Option HistoryError) (result : Except HistoryError HistorySaveReceipt) (next : HistoryTables),
      tables.saveWithHaltRequests codec root thread expectedRevision halts fault = (result, next) →
        (∀ error, result = .error error → next = tables) ∧
        ∀ receipt, result = .ok receipt →
          receipt = ⟨expectedRevision + 1, eventsDigest codec thread⟩ ∧
          (tables.wasSaved thread.threadId (expectedRevision + 1) (saveFingerprint codec thread halts) ∧
              next = tables ∨
            tables.revisionOf thread.threadId = expectedRevision ∧
              next.revisionOf thread.threadId = expectedRevision + 1 ∧
              Advances codec.toCodec tables.toHistoryDatabase next.toHistoryDatabase) ∧
          ∀ calls, Undisturbed codec root thread.threadId next calls →
            (next.runs codec root calls).saveWithHaltRequests codec root thread expectedRevision halts none =
              (.ok receipt, next.runs codec root calls)) ∧
    ∀ (id : String) (fault : Option HistoryError) (removal : Except HistoryError Unit)
        (cleanupFault : Option HistoryError),
      (∃ error, tables.deleteThread codec root id fault = (.error error, tables)) ∧
          (tables.delete codec root id fault removal cleanupFault).2 = tables ∨
        (∃ cleanup, (tables.deleteThread codec root id fault).1 = .ok cleanup) ∧
          ∀ calls, Gone ((tables.delete codec root id fault removal cleanupFault).2.runs codec root calls) id := by
  constructor
  · intro thread expectedRevision halts fault result next heq
    have hsaved := savedAs codec tables root thread expectedRevision halts fault
    have hcheck receipt (hok : result = .ok receipt) : checkSave codec root thread expectedRevision halts = .ok () :=
      check_of_saved ((congrArg Prod.fst heq).trans hok)
    have hagain (hlast : next.LastSave thread.threadId (expectedRevision + 1) (saveFingerprint codec thread halts))
        (hchecked : checkSave codec root thread expectedRevision halts = .ok ())
        (calls : List (HistoryCall β τ η θ)) (hcalls : Undisturbed codec root thread.threadId next calls) :
        (next.runs codec root calls).saveWithHaltRequests codec root thread expectedRevision halts none =
          (.ok ⟨expectedRevision + 1, eventsDigest codec thread⟩, next.runs codec root calls) :=
      save_again hchecked (hlast.runs calls hcalls).alive (hlast.runs calls hcalls).saved
    rw [heq] at hsaved
    cases hsaved with
    | refused error => exact ⟨fun _ _ => rfl, nofun⟩
    | repeated hwas halive =>
      refine ⟨nofun, fun receipt hok => ?_⟩
      cases hok
      exact ⟨rfl, .inl ⟨hwas, rfl⟩, hagain ⟨halive, hwas⟩ (hcheck _ rfl)⟩
    | committed db hrev halive hcomm =>
      refine ⟨nofun, fun receipt hok => ?_⟩
      cases hok
      refine ⟨rfl, .inr ⟨hrev, hcomm.revision, hcomm.advances hreads⟩, hagain ⟨?_, hcomm.saved⟩
        (hcheck _ rfl)⟩
      rw [hcomm.tombstones]
      exact halive
  · intro id fault removal cleanupFault
    rcases delete_cases codec tables root id fault removal cleanupFault with hfail | ⟨⟨cleanup, heq⟩, hdel⟩
    · exact .inl hfail
    · refine .inr ⟨⟨cleanup, congrArg Prod.fst heq⟩, fun calls => ?_⟩
      exact Gone.runs ⟨hdel.tombstone, hdel.thread, hdel.turns⟩ calls

/-- A turn is written as its sequences, one letter for each, and whether it has ended. -/
def sampleSaveCodec : SaveCodec Char Unit Unit Unit where
  toCodec :=
    { sampleCodec with
      encodeTurn := fun turn => String.ofList (List.replicate turn.lastOutputSequence 'o' ++
        List.replicate turn.lastStatusSequence 's' ++ if turn.status.isTerminal then ['t'] else [])
      decodeTurn := fun text => some
        { sampleSavedTurn [] with
          status := if 't' ∈ text.toList then .stopped else .running
          lastOutputSequence := text.toList.count 'o'
          lastStatusSequence := text.toList.count 's' } }
  encodeHalts := fun halts => [halts.length.toUInt8]

lemma readsBackTurns_sampleSaveCodec : ReadsBackTurns sampleSaveCodec.toCodec := by
  intro turn
  have hletter : (sampleSaveCodec.encodeTurn turn).toList = List.replicate turn.lastOutputSequence 'o' ++
      List.replicate turn.lastStatusSequence 's' ++ if turn.status.isTerminal then ['t'] else [] :=
    String.toList_ofList
  refine ⟨_, rfl, ?_, ?_, ?_⟩
  · dsimp only
    rw [hletter]
    cases turn.status.isTerminal <;> simp [count_replicate]
  · dsimp only
    rw [hletter]
    cases turn.status.isTerminal <;> simp [count_replicate]
  · dsimp only
    rw [hletter]
    cases turn.status.isTerminal <;> simp [mem_replicate, AgentTurnStatus.isTerminal]

def sampleTables : HistoryTables where
  toHistoryDatabase :=
    { threads := .empty, turns := .empty, turnHaltRequests := .empty, importIdentity := .empty,
      importedCheckpoints := .empty, importedLegacy := .empty, migrated := .empty, tombstones := .empty }
  attachmentCleanup := .empty
  importedExchanges := .empty
  runtimeRequests := .empty
  runtimeRequestMarks := .empty
  runtimeRequestTurns := .empty

def sampleFullSave (tables : HistoryTables) : Except HistoryError HistorySaveReceipt × HistoryTables :=
  tables.saveWithHaltRequests sampleSaveCodec "root" (sampleSavedThread [sampleSavedTurn ['a']]) 0 [] none

/-- The first save of a thread is accepted, and accepted again. -/
theorem saved_history_never_regresses_sample : ∃ receipt, (sampleFullSave sampleTables).1 = .ok receipt ∧
    sampleFullSave (sampleFullSave sampleTables).2 = sampleFullSave sampleTables := by
  obtain ⟨receipt, hok⟩ : ∃ receipt, (sampleFullSave sampleTables).1 = .ok receipt :=
    ⟨⟨1, some (historyEventsDigest sampleCodec ['a'])⟩, by decide +kernel⟩
  have hsave := (saved_history_never_regresses sampleSaveCodec readsBackTurns_sampleSaveCodec "root" sampleTables).1
    (sampleSavedThread [sampleSavedTurn ['a']]) 0 [] none _ _ (.refl (sampleFullSave sampleTables))
  obtain ⟨-, -, hagain⟩ := hsave.2 receipt hok
  refine ⟨receipt, hok, (hagain [] trivial).trans ?_⟩
  rw [← hok]
  rfl

/-- The save that was accepted last is refused once its thread is deleted. -/
theorem deleted_thread_is_not_saved_again :
    (sampleFullSave sampleTables).1 = .ok ⟨1, some (historyEventsDigest sampleCodec ['a'])⟩ ∧
      (sampleFullSave ((sampleFullSave sampleTables).2.delete sampleSaveCodec "root" "thread-1" none (.ok ())
        none).2).1 = .error (.message "The saved thread has been deleted.") := by
  decide +kernel

end HistoryTables

end CodevoEditor.History
