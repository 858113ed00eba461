/-
# Runs over the stored requests

What an answer, its settlement and a recovery do to a row, and with the snapshots of
`RuntimeRequests.Lifecycle` what every run does to the table.
-/

import CodevoEditor.RuntimeRequests.Lifecycle

namespace CodevoEditor.RuntimeRequests

open Sql Option

/-- Each row that stays is left as it is or changed as it should be. -/
structure WellChanged (before after : Table RequestKey RequestRow) : Prop where
  changes : ∀ key old new, before.get? key = some old → after.get? key = some new → new = old ∨ RowChange old new
  closed : ∀ key old new, before.get? key = some old → after.get? key = some new → old.isClosed → new = old

variable {before after next : Table RequestKey RequestRow}

lemma wellChanged_of_changes
    (h : ∀ key old new, before.get? key = some old → after.get? key = some new →
      new = old ∨ RowChange old new) : WellChanged before after := by
  refine ⟨h, fun key old new hold hnew hcl => ?_⟩
  rcases h key old new hold hnew with heq | hchange
  · exact heq
  · rw [hchange.not_isClosed] at hcl
    cases hcl

lemma WellChanged.refl (table) : WellChanged table table :=
  wellChanged_of_changes fun _ _ _ hold hnew => .inl (some.inj (hnew.symm.trans hold))

lemma Evolves.wellChanged (h : Evolves before after) : WellChanged before after := by
  refine wellChanged_of_changes fun key old new hold hnew => ?_
  rcases h.kept key old new hold hnew with heq | ⟨hchange, -⟩
  · exact .inl heq
  · exact .inr hchange

variable {test : RequestKey → RequestRow → Bool} {change : RequestRow → RequestRow}

lemma wellChanged_updateWhere
    (h : ∀ key row, before.get? key = some row → test key row → RowChange row (change row)) :
    WellChanged before (before.updateWhere test change) := by
  refine wellChanged_of_changes fun key old new hold hnew => ?_
  rw [Table.get?_updateWhere, hold, map_some] at hnew
  cases hnew
  split_ifs with htest
  · exact .inr (h key old hold htest)
  · exact .inl rfl

lemma RowsOk.updateWhere (hok : RowsOk before)
    (h : ∀ key row, before.get? key = some row → test key row → RowOk (change row)) :
    RowsOk (before.updateWhere test change) := by
  intro key row hrow
  rw [Table.get?_updateWhere] at hrow
  obtain ⟨old, hold, rfl⟩ := map_eq_some_iff.1 hrow
  split_ifs with htest
  · exact h key old hold htest
  · exact hok key old hold

variable {database : RequestDatabase} {row : RequestRow}

section Intent

variable {encoding : Encoding} {runId : String} {intent : AnswerIntent} {settle : IntentSettle}

lemma rowOk_submittingRow (hok : RowOk row) (hpend : row.status = some .pending) :
    RowOk (submittingRow encoding intent row) := by
  refine ⟨nofun, nofun, fun status hstat => ?_⟩
  cases hstat
  exact hok.resolvedAt .pending hpend

/-- **Recording an answer changes one row, as it should.** -/
theorem recordIntent_spec (encoding : Encoding) (runId : String) (intent)
    (hok : RowsOk database.requests) :
    RowsOk (recordIntent encoding runId intent database).2.requests ∧
      WellChanged database.requests (recordIntent encoding runId intent database).2.requests := by
  have hrefl := WellChanged.refl database.requests
  unfold recordIntent
  dsimp only
  generalize (if (encodeOutcome encoding intent.resolution).isSome then
    IntentReceipt.recorded else .recordedWithoutAnswer) = receipt
  split_ifs
  · exact ⟨hok, hrefl⟩
  · exact ⟨hok, hrefl⟩
  · split
    · exact ⟨hok, hrefl⟩
    · rename_i target htarg
      split_ifs with hrun hsaved hpend hval
      · exact ⟨hok, hrefl⟩
      · exact ⟨hok, hrefl⟩
      · exact ⟨hok, hrefl⟩
      · rw [not_or, not_not, Int.not_le] at hpend
        constructor
        · refine hok.updateWhere fun key row hrow htkn => ?_
          obtain ⟨-, -, hstat⟩ := of_decide_eq_true htkn
          exact rowOk_submittingRow (hok key row hrow) hstat
        · dsimp only
          refine wellChanged_updateWhere fun key row hrow htkn => ?_
          obtain ⟨rfl, -, hstat⟩ := of_decide_eq_true htkn
          obtain rfl := some.inj (hrow.symm.trans htarg)
          exact ⟨⟨.pending, .submitting, hstat, rfl, rfl⟩, hpend.2⟩
      · exact ⟨hok, hrefl⟩

lemma rowOk_settledRow (row) : RowOk (settledRow settle row) := by
  unfold settledRow
  cases settle.settlement with
  | reverted =>
    refine ⟨nofun, nofun, fun status hstat => ?_⟩
    cases hstat
    exact iff_of_false Bool.false_ne_true Bool.false_ne_true
  | deliveryFailed =>
    refine ⟨nofun, fun _ h => absurd rfl h, fun status hstat => ?_⟩
    cases hstat
    exact iff_of_true rfl rfl
  | unconfirmed =>
    refine ⟨nofun, fun _ _ => rfl, fun status hstat => ?_⟩
    cases hstat
    exact iff_of_true rfl rfl

lemma rowsOk_settleIntent (hok : RowsOk database.requests) :
    RowsOk (settleIntent runId settle database).2.requests := by
  unfold settleIntent
  split_ifs
  · exact hok
  · exact hok.updateWhere fun key row _ _ => rowOk_settledRow row
  · exact hok

/-- A settlement changes a row and leaves its version. -/
def Saturates (runId : String) (settle : IntentSettle) (database : RequestDatabase) : Prop :=
  settle.intentVersion < settle.version ∧ maxSafeInteger ≤ settle.intentVersion ∧
    ∃ key row, database.requests.get? key = some row ∧ settle.takes runId database key row

variable {a b : ℕ}

lemma integer_lt_integer (hlt : a < b) (hsafe : a < maxSafeInteger) : integer a < integer b := by
  unfold integer
  omega

lemma integer_eq_integer (hlt : a < b) (hsafe : maxSafeInteger ≤ a) : integer a = integer b := by
  unfold integer
  omega

variable (settlement : IntentSettlement)

lemma submitting_mayBecome_settlementOf : RequestStatus.submitting.mayBecome (settlementOf settlement).status := by
  cases settlement <;> rfl

lemma settlementOf_status_ne_submitting : (settlementOf settlement).status ≠ .submitting := by
  cases settlement <;> decide

/-- **A settlement changes its row as it should if and only if it does not saturate.** -/
theorem wellChanged_settleIntent_iff :
    WellChanged database.requests (settleIntent runId settle database).2.requests ↔
      ¬ Saturates runId settle database := by
  have hstat := submitting_mayBecome_settlementOf settle.settlement
  unfold settleIntent
  split_ifs with hver
  · refine iff_of_true (WellChanged.refl _) fun h => ?_
    exact absurd hver (Nat.not_le.2 h.1)
  · constructor
    · rintro h ⟨hlt, hsafe, key, row, hrow, htakes⟩
      have hchg := h.changes key row (settledRow settle row) hrow
        (by rw [Table.get?_updateWhere, hrow, map_some, if_pos htakes])
      obtain ⟨-, -, hsubmitting, hintent, -⟩ := of_decide_eq_true htakes
      rcases hchg with heq | hchange
      · have hsame := congrArg RequestRow.status heq
        rw [hsubmitting] at hsame
        exact settlementOf_status_ne_submitting _ (some.inj hsame)
      · have hless := hchange.version
        rw [hintent, integer_eq_integer hlt hsafe] at hless
        exact Int.lt_irrefl _ hless
    · intro h
      refine wellChanged_updateWhere fun key row hrow htakes => ?_
      have hsafe : settle.intentVersion < maxSafeInteger := by
        rw [← Nat.not_le]
        exact fun hsafe => h ⟨Nat.not_le.1 hver, hsafe, key, row, hrow, htakes⟩
      obtain ⟨-, -, hsubmitting, hintent, -⟩ := of_decide_eq_true htakes
      refine ⟨⟨.submitting, _, hsubmitting, rfl, ?_⟩, ?_⟩
      · unfold RequestStatus.leadsTo
        rw [hstat, Bool.true_or]
      · rw [hintent]
        exact integer_lt_integer (Nat.not_le.1 hver) hsafe

end Intent

section Recovery

variable {runId : String} {now : ℤ}

variable {key : RequestKey}

lemma restartedRow_spec (h : leftOpen runId .pending key row) :
    RowChange row (restartedRow now row) ∧ RowOk (restartedRow now row) ∧ (restartedRow now row).isClosed := by
  obtain ⟨hstat, -⟩ := of_decide_eq_true h
  refine ⟨⟨⟨.pending, .expired, hstat, rfl, rfl⟩, Int.lt_succ _⟩, ⟨nofun,
    fun _ h => absurd rfl h, fun status hstat => ?_⟩, rfl⟩
  cases hstat
  exact iff_of_true rfl rfl

lemma unconfirmedRow_spec (h : leftOpen runId .submitting key row) :
    RowChange row (unconfirmedRow now row) ∧ RowOk (unconfirmedRow now row) ∧ (unconfirmedRow now row).isClosed := by
  obtain ⟨hstat, -⟩ := of_decide_eq_true h
  refine ⟨⟨⟨.submitting, .expired, hstat, rfl, rfl⟩, Int.lt_succ _⟩, ⟨nofun,
    fun _ _ => rfl, fun status hstat => ?_⟩, rfl⟩
  cases hstat
  exact iff_of_true rfl rfl

/-- **A recovery closes each row of an earlier run that is left open.** -/
theorem evolves_recover (runId : String) (nowEpochMs : ℕ) (hok : RowsOk database.requests) :
    Evolves database.requests (recover runId nowEpochMs database).2.requests :=
  ((((Evolves.refl hok).deleteWhere _).updateWhere fun _ _ => restartedRow_spec).updateWhere
    fun _ _ => unconfirmedRow_spec).deleteWhere _

end Recovery

inductive RequestAction
  | apply (runId : String) (observation : TurnObservation)
  | record (runId : String) (intent : AnswerIntent)
  | settle (runId : String) (settle : IntentSettle)
  | recover (runId : String) (nowEpochMs : ℕ)
  /-- Threads are saved and deleted elsewhere. -/
  | threads (tombstones threads : List String)

variable (encoding : Encoding)

def step (database : RequestDatabase) : RequestAction → RequestDatabase
  | .apply runId observation =>
      ((applySnapshot encoding runId observation database).map (·.2)).getD database
  | .record runId intent => (recordIntent encoding runId intent database).2
  | .settle runId settle => (settleIntent runId settle database).2
  | .recover runId nowEpochMs => (RuntimeRequests.recover runId nowEpochMs database).2
  | .threads tombstones threads => { database with tombstones := tombstones, threads := threads }

def run (database : RequestDatabase) (actions : List RequestAction) : RequestDatabase :=
  actions.foldl (step encoding) database

/-- The step that may go wrong. -/
def RequestAction.saturates (database : RequestDatabase) : RequestAction → Prop
  | .settle runId settlement => Saturates runId settlement database
  | _ => False

/-- **A step keeps what holds of the rows, and changes them as it should unless it
saturates.** -/
theorem step_spec (hok : RowsOk database.requests) (action) :
    RowsOk (step encoding database action).requests ∧
      (WellChanged database.requests (step encoding database action).requests ↔ ¬ action.saturates database) := by
  cases action with
  | apply runId observation =>
    dsimp only [step]
    rcases hnext : applySnapshot encoding runId observation database with _ | ⟨report, next⟩
    · exact ⟨hok, iff_of_true (WellChanged.refl _) id⟩
    · have hevolves := evolves_applySnapshot hok hnext
      exact ⟨hevolves.ok, iff_of_true hevolves.wellChanged id⟩
  | record runId intent =>
    obtain ⟨hrows, hchg⟩ := recordIntent_spec encoding runId intent hok
    exact ⟨hrows, iff_of_true hchg id⟩
  | settle runId settle => exact ⟨rowsOk_settleIntent hok, wellChanged_settleIntent_iff⟩
  | recover runId nowEpochMs =>
    have hevolves := evolves_recover runId nowEpochMs hok
    exact ⟨hevolves.ok, iff_of_true hevolves.wellChanged id⟩
  | threads tombstones threads => exact ⟨hok, iff_of_true (WellChanged.refl _) id⟩

lemma rowsOk_run (hok : RowsOk database.requests) (actions) : RowsOk (run encoding database actions).requests := by
  induction actions generalizing database with
  | nil => exact hok
  | cons action actions ih => exact ih (step_spec encoding hok action).1

def emptyDatabase : RequestDatabase :=
  ⟨⟨[], List.nodup_nil⟩, ⟨[], List.nodup_nil⟩, ⟨[], List.nodup_nil⟩, [], []⟩

lemma rowsOk_emptyDatabase : RowsOk emptyDatabase.requests :=
  fun _ _ hrow => by cases hrow

/-- Every document is `{}`, and every answer fits. -/
def plainEncoding : Encoding where
  body _ _ := "{}"
  outcome _ := "{}"
  decodeBody _ := some (.codex, .question "{}")
  validateFor _ _ _ _ := true

def sampleTurn : TurnKey := ⟨"thread", "turn"⟩

def sampleRequest : ObservedRequest := ⟨"request", .codex, .question "{}", .pending, some 1⟩

def sampleObservation : TurnObservation :=
  ⟨sampleTurn, 1, 1, 0, 0, ⟨1, [sampleRequest], [], []⟩⟩

/-- An answer to the request that has the greatest version, and is taken back. -/
def saturatingRun : List RequestAction :=
  [.apply "run" sampleObservation,
    .record "run" ⟨sampleTurn, 1, "request", .answers "{}", maxSafeInteger, 0⟩,
    .settle "run" ⟨sampleTurn, 1, "request", maxSafeInteger, .reverted, maxSafeInteger + 1, 0⟩]

def submittedRow : RequestRow :=
  { kind := some .question, status := some .submitting, reason := none, runId := "run"
    version := 9007199254740991, regIndex := 0, format := 1, body := "{}", outcome := some "{}"
    createdAt := 0, updatedAt := 0, resolvedAt := none }

end CodevoEditor.RuntimeRequests
