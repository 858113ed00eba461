/-
# Snapshots that come late, twice or in another order

A snapshot of a thread that is deleted, of an incarnation before the stored one, or of a
sequence that has been applied leaves the database (`deliver_of_stale`).
-/

import CodevoEditor.RuntimeRequests.LifecycleRuns

namespace CodevoEditor.RuntimeRequests

open Sql Runs List Option

section Deliveries

variable (encoding : Encoding) (runId : String)

/-- `apply_snapshot`, where an error leaves the database. -/
def deliver (database : RequestDatabase) (observation : TurnObservation) : RequestDatabase :=
  ((applySnapshot encoding runId observation database).map (·.2)).getD database

/-- The snapshot is applied: it is not refused, something is known of the turn, and there
is no error. -/
def isApplied (database : RequestDatabase) (observation : TurnObservation) : Bool :=
  !isStale runId database observation && !isVoid runId database observation &&
    (applySnapshot encoding runId observation database).isSome

/-- The snapshots of a delivery that are applied. -/
def appliedOf (database : RequestDatabase) : List TurnObservation → List TurnObservation
  | [] => []
  | observation :: observations =>
      if isApplied encoding runId database observation then
        observation :: appliedOf (deliver encoding runId database observation) observations
      else appliedOf database observations

end Deliveries

section Stale

variable {encoding : Encoding} {runId : String} {database : RequestDatabase}
  {observation : TurnObservation}

theorem deliver_of_stale (h : isStale runId database observation) :
    deliver encoding runId database observation = database := by
  unfold isStale at h
  rw [Bool.or_eq_true, decide_eq_true_iff] at h
  unfold deliver applySnapshot
  dsimp only
  rcases h with hdel | hold
  · rw [if_pos hdel]
    rfl
  · rw [Bool.and_eq_true, Bool.or_eq_true, Bool.and_eq_true, decide_eq_true_iff,
      decide_eq_true_iff, decide_eq_true_iff] at hold
    obtain ⟨hstore, hpre | ⟨hsame, happ⟩⟩ := hold
    · split_ifs with hdel hsuper
      · rfl
      · rfl
      all_goals exact absurd ⟨hstore, hpre⟩ hsuper
    · have hcont : decide ((TurnState.load database observation.key runId).stored ∧
          integer observation.incarnation = (TurnState.load database observation.key runId).incarnation) :=
        decide_eq_true ⟨hstore, hsame⟩
      split_ifs with hdel hsuper hstale
      · rfl
      · rfl
      · rfl
      all_goals exact absurd ⟨hcont, happ⟩ hstale

/-- **What is not applied leaves the database.** -/
theorem deliver_of_not_isApplied (h : isApplied encoding runId database observation = false) :
    deliver encoding runId database observation = database := by
  by_cases hstale : isStale runId database observation
  · exact deliver_of_stale hstale
  · unfold isApplied at h
    rw [Bool.eq_false_iff.2 hstale, Bool.not_false, Bool.true_and, Bool.and_eq_false_iff, Bool.not_eq_false'] at h
    rcases h with hvoid | herror
    · unfold isVoid at hvoid
      rw [Bool.and_eq_true, Bool.and_eq_true, Bool.not_eq_true', List.isEmpty_iff] at hvoid
      obtain ⟨⟨hcont, hrows⟩, hobs⟩ := hvoid
      have hdeparts : ¬ decide ((TurnState.load database observation.key runId).stored ∧
          integer observation.incarnation = (TurnState.load database observation.key runId).incarnation) :=
        Bool.eq_false_iff.1 hcont
      unfold deliver applySnapshot
      dsimp only
      rw [hrows]
      split_ifs with hdel hsuper hold hemp
      · rfl
      · rfl
      · rfl
      · rfl
      · exact absurd ⟨rfl, hobs, hdeparts⟩ hemp
    · unfold deliver
      rw [not_isSome_iff_eq_none.1 (Bool.eq_false_iff.1 herror)]
      rfl

end Stale

/-! ### What is stored of a turn -/

/-- The incarnation and the sequence that are stored of a turn. -/
def TurnState.mark (state : TurnState) : Option (ℤ × ℤ) :=
  if state.stored then some (state.incarnation, state.appliedSequence) else none

def markOf (runId : String) (database : RequestDatabase) (key : TurnKey) : Option (ℤ × ℤ) :=
  (TurnState.load database key runId).mark

/-- The incarnation and the sequence of a snapshot, as they are stored. -/
def TurnObservation.mark (observation : TurnObservation) : ℤ × ℤ :=
  (integer observation.incarnation, integer observation.turn.sequence)

/-- The one is before the other, by incarnation and then by sequence. -/
def MarkBefore (a b : ℤ × ℤ) : Prop := a.1 < b.1 ∨ a.1 = b.1 ∧ a.2 < b.2

lemma MarkBefore.trans {a b c} (h : MarkBefore a b) (h' : MarkBefore b c) : MarkBefore a c := by
  unfold MarkBefore at *
  omega

variable (state : TurnState)

lemma TurnState.suppress_fields (request) :
    (state.suppress request).incarnation = state.incarnation ∧
      (state.suppress request).appliedSequence = state.appliedSequence ∧
      (state.suppress request).stored = state.stored := by
  unfold suppress
  split_ifs
  · exact ⟨rfl, rfl, rfl⟩
  · exact ⟨rfl, rfl, rfl⟩

lemma TurnState.mark_suppress_stored {state : TurnState} (h : state.stored)
    (request) :
    ({ state.suppress request with stored := true } : TurnState).mark = state.mark := by
  obtain ⟨hincarn, hseq, -⟩ := state.suppress_fields request
  unfold mark
  rw [h, hincarn, hseq]

lemma TurnState.load_save (database) (key other : TurnKey)
    (runId : String) :
    TurnState.load (state.save database key runId) other runId =
      if other = key then { state with stored := true } else TurnState.load database other runId := by
  unfold load save
  rw [Js.OrderedMap.get?_set]
  split_ifs with hkey
  · exact if_neg fun h => h rfl
  · rfl

lemma TurnState.load_congr {database next} (h : next.turns = database.turns)
    {key} {runId} :
    TurnState.load next key runId = TurnState.load database key runId := by
  unfold load
  rw [h]

lemma addMarks_turns (database) (threadId : String) (pruned skipped : ℕ) :
    (addMarks database threadId pruned skipped).turns = database.turns := by
  unfold addMarks
  split_ifs
  · rfl
  · rfl

lemma startState_incarnation (runId : String) (observation)
    (database) :
    (startState runId observation database).incarnation = integer observation.incarnation := by
  unfold startState
  split_ifs with hcont
  · exact (of_decide_eq_true hcont).2.symm
  · rfl

section Marks

variable {encoding : Encoding} {runId : String} {observation : TurnObservation}
  {before after : Scene} {events : List SnapshotEvent}

lemma PruneStep.keeps_marks (h : PruneStep runId observation before events after) :
    (∀ key, markOf runId after.1 key = markOf runId before.1 key) ∧ after.2.incarnation = before.2.incarnation := by
  obtain ⟨reconciliation, scope, pruned, database, -, hprn⟩ := h
  obtain ⟨victim, row, -, -, -, -, -, -, rfl⟩ := pruneOldestClosed_spec hprn
  unfold Reconciliation.suppress
  split
  · exact ⟨fun _ => rfl, rfl⟩
  · rename_i kind _
    split_ifs with hrun hturn
    · exact ⟨fun _ => rfl, rfl⟩
    · exact ⟨fun _ => rfl, (TurnState.suppress_fields _ _).1⟩
    · dsimp only
      split_ifs with hstore
      · refine ⟨fun key => ?_, rfl⟩
        change (TurnState.load (TurnState.save _ _ _ runId) key runId).mark = _
        rw [TurnState.load_save]
        split_ifs with hkey
        · rw [hkey]
          exact TurnState.mark_suppress_stored hstore _
        · rfl
      · exact ⟨fun _ => rfl, rfl⟩

lemma keeps_marks_of_prunes (h : Reaches (PruneStep runId observation) before events after) :
    (∀ key, markOf runId after.1 key = markOf runId before.1 key) ∧ after.2.incarnation = before.2.incarnation :=
  h.invariant (P := fun scene => (∀ key, markOf runId scene.1 key = markOf runId before.1 key) ∧
      scene.2.incarnation = before.2.incarnation)
    (fun _ _ _ hkept hstep =>
      ⟨fun key => (hstep.keeps_marks.1 key).trans (hkept.1 key), hstep.keeps_marks.2.trans hkept.2⟩)
    ⟨fun _ => rfl, rfl⟩

lemma SnapshotStep.keeps_marks {known} {capped : Prop}
    (h : SnapshotStep encoding runId observation known capped before events after) :
    (∀ key, markOf runId after.1 key = markOf runId before.1 key) ∧ after.2.incarnation = before.2.incarnation := by
  cases h with
  | closed => exact ⟨fun _ => rfl, rfl⟩
  | crowded _ _ _ hprn => exact keeps_marks_of_prunes hprn
  | inserted _ middle _ hprn =>
    have hkept : (∀ key, markOf runId middle.1 key = markOf runId before.1 key) ∧
        middle.2.incarnation = before.2.incarnation := keeps_marks_of_prunes hprn
    exact hkept

/-- **A snapshot that is applied is newer than what is stored of its turn, and is what is
stored then.**  What is stored of other turns stays. -/
theorem Applied.marks {database next}
    (h : Applied encoding runId observation database next) :
    (∀ mark, markOf runId database observation.key = some mark → MarkBefore mark observation.mark) ∧
      markOf runId next observation.key = some observation.mark ∧
      ∀ key, key ≠ observation.key → markOf runId next key = markOf runId database key := by
  obtain ⟨known, closed, steps, last, pruned, skipped, -, hcl, hsteps, rfl⟩ := h.run False fun h => h.elim
  have hkept := (hcl.trans hsteps).invariant
    (P := fun scene => (∀ key, markOf runId scene.1 key = markOf runId database key) ∧
      scene.2.incarnation = (startState runId observation database).incarnation)
    (fun _ _ _ hscene hstep =>
      ⟨fun key => (hstep.keeps_marks.1 key).trans (hscene.1 key), hstep.keeps_marks.2.trans hscene.2⟩)
    ⟨fun _ => rfl, rfl⟩
  have hnext key : markOf runId (addMarks (TurnState.save
        { last.2 with appliedSequence := integer observation.turn.sequence } last.1 observation.key
        runId) observation.key.threadId pruned skipped) key =
      if key = observation.key then some (last.2.incarnation, integer observation.turn.sequence)
      else markOf runId last.1 key := by
    unfold markOf
    rw [TurnState.load_congr (addMarks_turns _ _ _ _), TurnState.load_save]
    split_ifs
    · rfl
    · rfl
  refine ⟨fun mark hmark => ?_, ?_, fun key hkey => ?_⟩
  · unfold markOf TurnState.mark at hmark
    split_ifs at hmark with hstore
    cases hmark
    exact h.newer hstore
  · rw [hnext, if_pos rfl, hkept.2, startState_incarnation]
    rfl
  · rw [hnext, if_neg hkey]
    exact hkept.1 key

end Marks

section

variable {encoding : Encoding} {runId : String}

lemma applied_of_isApplied {database} {observation}
    (h : isApplied encoding runId database observation) :
    Applied encoding runId observation database (deliver encoding runId database observation) := by
  unfold isApplied at h
  rw [Bool.and_eq_true, Bool.and_eq_true, Bool.not_eq_true', Bool.not_eq_true'] at h
  obtain ⟨⟨hnew, hsaves⟩, hsome⟩ := h
  obtain ⟨⟨report, next⟩, hnext⟩ := isSome_iff_exists.1 hsome
  have hdel : deliver encoding runId database observation = next := by
    unfold deliver
    rw [hnext]
    rfl
  rw [hdel]
  rcases applySnapshot_cases hnext with ⟨hstale | hvoid, -⟩ | happ
  · rw [hnew] at hstale
    cases hstale
  · rw [hsaves] at hvoid
    cases hvoid
  · exact happ

variable (observations : List TurnObservation) (database : RequestDatabase)

lemma foldl_deliver_appliedOf :
    observations.foldl (deliver encoding runId) database =
      (appliedOf encoding runId database observations).foldl (deliver encoding runId) database := by
  induction observations generalizing database with
  | nil => rfl
  | cons observation observations ih =>
    rw [appliedOf]
    split_ifs with happ
    · exact ih _
    · rw [foldl_cons, deliver_of_not_isApplied (Bool.eq_false_iff.2 happ)]
      exact ih _

lemma appliedOf_sublist : (appliedOf encoding runId database observations).Sublist observations := by
  induction observations generalizing database with
  | nil => exact .refl _
  | cons observation observations ih =>
    rw [appliedOf]
    split_ifs
    · exact (ih _).cons_cons _
    · exact (ih _).cons _

lemma appliedOf_appliedOf :
    appliedOf encoding runId database (appliedOf encoding runId database observations) =
      appliedOf encoding runId database observations := by
  induction observations generalizing database with
  | nil => rfl
  | cons observation observations ih =>
    rw [appliedOf]
    split_ifs with happ
    · rw [appliedOf, if_pos happ, ih]
    · exact ih _

lemma before_of_mem_appliedOf {observations} {database}
    {observation} {mark}
    (hmark : markOf runId database observation.key = some mark)
    (hmem : observation ∈ appliedOf encoding runId database observations) :
    MarkBefore mark observation.mark := by
  induction observations generalizing database mark with
  | nil => cases hmem
  | cons first observations ih =>
    rw [appliedOf] at hmem
    split_ifs at hmem with happ
    · obtain ⟨hnewer, hstore, hoths⟩ := (applied_of_isApplied happ).marks
      rcases mem_cons.1 hmem with rfl | hrest
      · exact hnewer mark hmark
      · by_cases hkey : observation.key = first.key
        · rw [hkey] at hmark
          rw [← hkey] at hstore
          exact (hnewer mark hmark).trans (ih hstore hrest)
        · exact ih ((hoths _ hkey).trans hmark) hrest
    · exact ih hmark hmem

lemma pairwise_appliedOf :
    (appliedOf encoding runId database observations).Pairwise fun earlier later =>
      earlier.key = later.key → MarkBefore earlier.mark later.mark := by
  induction observations generalizing database with
  | nil => exact .nil
  | cons first observations ih =>
    rw [appliedOf]
    split_ifs with happ
    · refine .cons (fun later hlat hkey => ?_) (ih _)
      obtain ⟨-, hstore, -⟩ := (applied_of_isApplied happ).marks
      rw [hkey] at hstore
      exact before_of_mem_appliedOf hstore hlat
    · exact ih _

end

section Takeover

variable {encoding : Encoding} {runId : String} {observation : TurnObservation}
  {known : List (String × KnownRow)} {capped : Prop} {before after : Scene}
  {events : List SnapshotEvent}

/-- What is at a key, if anything, is closed or one of some rows. -/
def ClosedOr (rows : RequestRow → Prop) (key : RequestKey) (database : RequestDatabase) : Prop :=
  ∀ found, database.requests.get? key = some found → rows found ∨ found.isClosed

/-- What is at a key, if anything, is closed. -/
abbrev ClosedAt : RequestKey → RequestDatabase → Prop := ClosedOr fun _ => False

lemma isClosed_row_of_closing {step : Advance} {closing : Closing}
    (hcls : (∃ listing, Closing.listed encoding step.source listing = some closing) ∨
      Closing.absent step.source = some closing) (row) :
    (step.row closing row).isClosed := by
  rcases hcls with ⟨listing, hlist⟩ | habsent
  · exact (closes_of_listed hlist).terminal
  · exact (closes_of_absent habsent).terminal

variable {row : RequestRow} {key : RequestKey}

lemma get?_of_prunes (h : Reaches (PruneStep runId observation) before events after)
    (hrow : after.1.requests.get? key = some row) : before.1.requests.get? key = some row := by
  refine h.invariant (P := fun scene => scene.1.requests.get? key = some row →
    before.1.requests.get? key = some row) (fun _ _ _ hkept hstep hget => ?_) id hrow
  obtain ⟨reconciliation, scope, pruned, database, -, hprn⟩ := hstep
  obtain ⟨victim, _, -, -, -, -, -, -, rfl⟩ := pruneOldestClosed_spec hprn
  refine hkept ?_
  change (Reconciliation.suppress runId observation _ pruned).database.requests.get? key = _ at hget
  rw [Reconciliation.suppress_requests, Table.get?_deleteWhere, filter_eq_some_iff] at hget
  exact hget.1

variable {requestId : String}

lemma SnapshotStep.closedAt (hkn : known.lookup requestId ≠ none)
    (h : SnapshotStep encoding runId observation known capped before events after)
    (hpre : ClosedAt (observation.key.request requestId) before.1) :
    ClosedAt (observation.key.request requestId) after.1 := by
  cases h with
  | closed database state step closing hkey hrun hcls =>
    intro found hget
    change (Table.updateWhere _ _ _).get? _ = some found at hget
    rw [Table.get?_updateWhere] at hget
    obtain ⟨row, hrow, rfl⟩ := map_eq_some_iff.1 hget
    split_ifs
    · exact .inr (isClosed_row_of_closing hcls row)
    · exact hpre row hrow
  | crowded _ _ _ hprn => exact fun found hget => hpre found (get?_of_prunes hprn hget)
  | inserted _ middle _ hprn request regIndex requests _ hnew _ _ hinsert =>
    intro found hget
    rw [(Table.get?_insertRow hinsert).2] at hget
    split_ifs at hget with hsame
    · refine absurd ?_ hkn
      have hid : requestId = request.id := congrArg RequestKey.requestId hsame
      rw [hid]
      exact hnew
    · exact hpre found (get?_of_prunes hprn hget)

variable {database : RequestDatabase}

lemma closedOr_closeAbsent {rows : RequestRow → Prop}
    (h : ClosedOr rows key database) (requestId : String) (entry : KnownRow) :
    ClosedOr rows key (Reconciliation.closeAbsent runId observation database requestId entry).1 := by
  unfold Reconciliation.closeAbsent
  split
  · exact h
  · split
    · exact h
    · rename_i closing hcls
      intro found hget
      change (Table.updateWhere _ _ _).get? _ = some found at hget
      rw [Table.get?_updateWhere] at hget
      obtain ⟨old, hold, rfl⟩ := map_eq_some_iff.1 hget
      split_ifs
      · exact .inr (closes_of_absent hcls).terminal
      · exact h old hold

/-- An open row of the run whose version is before the revision of the snapshot, in a
format that is known. -/
structure Overtaken (runId : String) (observation : TurnObservation) (row : RequestRow) : Prop where
  isOpen : ∃ status, row.status = some status ∧ status.isTerminal = false
  ofRun : row.runId = runId
  before : row.version < integer observation.revision
  format : row.format = omittedBodyFormat ∨ row.format = fullBodyFormat

lemma closedAt_closeAbsent (hrow : Overtaken runId observation row)
    (h : ClosedOr (· = row) (observation.key.request requestId) database) {entry}
    (hent : entry.status = row.status) :
    ClosedAt (observation.key.request requestId)
      (Reconciliation.closeAbsent runId observation database requestId entry).1 := by
  obtain ⟨status, hstat, hopen⟩ := hrow.isOpen
  obtain ⟨closing, hcls⟩ : ∃ closing, Closing.absent status = some closing := by
    cases status with
    | pending => exact ⟨_, rfl⟩
    | submitting => exact ⟨_, rfl⟩
    | resolved | cancelled | expired | timedOut => cases hopen
  unfold Reconciliation.closeAbsent
  rw [hent, hstat]
  dsimp only
  rw [hcls]
  intro found hget
  change (Table.updateWhere _ _ _).get? _ = some found at hget
  rw [Table.get?_updateWhere] at hget
  obtain ⟨old, hold, rfl⟩ := map_eq_some_iff.1 hget
  split_ifs with htakes
  · exact .inr (closes_of_absent hcls).terminal
  · rcases h old hold with rfl | hcl
    · refine absurd ?_ htakes
      exact decide_eq_true ⟨rfl, hrow.ofRun, hstat, hrow.before, hrow.format⟩
    · exact .inr hcl

lemma closePredecessor_fst (progress)
    (entry) :
    (Reconciliation.closePredecessor runId observation progress entry).1 =
      if entry.2.runId ≠ runId then progress.1
      else (Reconciliation.closeAbsent runId observation progress.1 entry.1 entry.2).1 := by
  unfold Reconciliation.closePredecessor
  dsimp only
  split_ifs
  · rfl
  · split
    · rename_i heq
      rw [heq]
    · rename_i heq
      rw [heq]

lemma closedOr_foldl_closePredecessor {rows : RequestRow → Prop}
    {entries : List (String × KnownRow)} {progress : RequestDatabase × List (String × KnownRow) × ℕ}
    (h : ClosedOr rows key progress.1) :
    ClosedOr rows key (entries.foldl (Reconciliation.closePredecessor runId observation) progress).1 := by
  induction entries generalizing progress with
  | nil => exact h
  | cons entry entries ih =>
    refine ih ?_
    rw [closePredecessor_fst]
    split_ifs
    · exact h
    · exact closedOr_closeAbsent h _ _

/-- **Closing the rows of a predecessor closes each row that is overtaken.** -/
theorem closedAt_closePredecessorRows
    (hrow : database.requests.get? (observation.key.request requestId) = some row)
    (hovertaken : Overtaken runId observation row) :
    ClosedAt (observation.key.request requestId)
      (Reconciliation.closePredecessorRows runId observation database (turnRows database observation.key)).1 := by
  have hent : (requestId, (⟨row.kind, row.status, row.runId, row.regIndex⟩ : KnownRow)) ∈
      turnRows database observation.key := by
    refine mem_map.2 ⟨_, Table.mem_selectWhere.2
      ⟨Js.OrderedMap.get?_eq_some_iff.1 hrow, decide_eq_true ⟨rfl, rfl⟩⟩, rfl⟩
  obtain ⟨first, rest, hspl⟩ := append_of_mem hent
  unfold Reconciliation.closePredecessorRows
  rw [hspl, foldl_append, foldl_cons]
  refine closedOr_foldl_closePredecessor ?_
  rw [closePredecessor_fst, if_neg (not_not.2 hovertaken.ofRun)]
  refine closedAt_closeAbsent hovertaken (closedOr_foldl_closePredecessor ?_) rfl
  intro found hget
  exact .inl (some.inj (hget.symm.trans hrow))

/-- **A new incarnation closes each row that it overtakes.** -/
theorem closedAt_of_takeover {mark}
    (happ : isApplied encoding runId database observation)
    (hmark : markOf runId database observation.key = some mark)
    (hnewer : mark.1 < observation.mark.1)
    (hrow : database.requests.get? (observation.key.request requestId) = some row)
    (hovertaken : Overtaken runId observation row) :
    ClosedAt (observation.key.request requestId) (deliver encoding runId database observation) := by
  have hdeparts : ¬ continues runId observation database := by
    intro hcont
    obtain ⟨hstore, hsame⟩ := of_decide_eq_true hcont
    unfold markOf TurnState.mark at hmark
    rw [if_pos hstore] at hmark
    cases hmark
    exact absurd (hsame ▸ hnewer) (Int.lt_irrefl _)
  obtain ⟨known, closed, steps, last, pruned, skipped, hids, -, hsteps, hnext⟩ :=
    (applied_of_isApplied happ).run False fun h => h.elim
  have hkn : known.lookup requestId ≠ none := by
    rw [Ne, Reconciliation.lookup_eq_none_iff, hids, not_not]
    exact mem_map.2 ⟨_, mem_map.2 ⟨_, Table.mem_selectWhere.2
      ⟨Js.OrderedMap.get?_eq_some_iff.1 hrow, decide_eq_true ⟨rfl, rfl⟩⟩, rfl⟩, rfl⟩
  have hst : ClosedAt (observation.key.request requestId) (takenOver runId observation database) := by
    rw [takenOver, if_neg hdeparts]
    exact closedAt_closePredecessorRows hrow hovertaken
  have hlast := hsteps.invariant
    (P := fun scene => ClosedAt (observation.key.request requestId) scene.1)
    (fun _ _ _ hscene hstep => hstep.closedAt hkn hscene) hst
  intro found hget
  rw [hnext, addMarks_requests] at hget
  exact hlast found hget

end Takeover

/-- **Snapshots that are stale, repeated or out of order.** A stale snapshot leaves the database.
-/
theorem snapshots_in_any_order (encoding : Encoding) (runId : String) (database : RequestDatabase) :
    (∀ observation, isStale runId database observation → deliver encoding runId database observation = database) ∧
    (∀ observations,
      let applied := appliedOf encoding runId database observations
      observations.foldl (deliver encoding runId) database =
          applied.foldl (deliver encoding runId) database ∧
        applied.Sublist observations ∧ appliedOf encoding runId database applied = applied ∧
        applied.Pairwise fun earlier later =>
          earlier.key = later.key → MarkBefore earlier.mark later.mark) ∧
    ∀ observation mark, isApplied encoding runId database observation →
      markOf runId database observation.key = some mark → mark.1 < observation.mark.1 →
      ∀ requestId row, database.requests.get? (observation.key.request requestId) = some row →
        Overtaken runId observation row →
        ∀ found, (deliver encoding runId database observation).requests.get?
          (observation.key.request requestId) = some found → found.isClosed := by
  refine ⟨fun _ hstale => deliver_of_stale hstale, fun observations => ⟨?_, ?_, ?_, ?_⟩,
    fun observation mark happ hmark hnewer requestId row hrow hovertaken found hfound => ?_⟩
  · exact foldl_deliver_appliedOf observations database
  · exact appliedOf_sublist observations database
  · exact appliedOf_appliedOf observations database
  · exact pairwise_appliedOf observations database
  · have hclosed := closedAt_of_takeover happ hmark hnewer hrow hovertaken found hfound
    exact hclosed.resolve_left id

/-- A turn whose request is pending, as of a revision. -/
def observedAs (incarnation revision : ℕ) (requests : List ObservedRequest) : TurnObservation :=
  ⟨sampleTurn, incarnation, revision, 0, 0, ⟨1, requests, [], []⟩⟩

/-- The database after the first incarnation of the turn. -/
def predecessorDatabase : RequestDatabase :=
  deliver plainEncoding "run" emptyDatabase (observedAs 1 5 [{ sampleRequest with revision := none }])

def predecessorRow : RequestRow :=
  { kind := some .question, status := some .pending, reason := none, runId := "run"
    version := 5, regIndex := 0, format := 1, body := "{}", outcome := none
    createdAt := 0, updatedAt := 0, resolvedAt := none }

theorem snapshots_in_any_order_predecessor :
    ∀ found, (deliver plainEncoding "run" predecessorDatabase (observedAs 2 6 [])).requests.get?
      (sampleTurn.request "request") = some found → found.isClosed :=
  (snapshots_in_any_order plainEncoding "run" predecessorDatabase).2.2 (observedAs 2 6 []) (1, 1)
    (by decide +kernel) (by decide +kernel) (by decide) "request" predecessorRow
    (by decide +kernel)
    ⟨⟨.pending, rfl, rfl⟩, rfl, by decide, .inr rfl⟩

/-- A second incarnation, as of the revision that the row of the first one has. -/
theorem predecessor_left_open :
    isApplied plainEncoding "run" predecessorDatabase (observedAs 2 5 []) ∧
      (deliver plainEncoding "run" predecessorDatabase (observedAs 2 5 [])).requests.get?
        (sampleTurn.request "request") = some predecessorRow ∧ predecessorRow.isClosed = false := by
  refine ⟨by decide +kernel, by decide +kernel, by decide⟩

end CodevoEditor.RuntimeRequests
