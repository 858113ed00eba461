/-
# What a snapshot does, step by step

`apply_snapshot` writes the requests in steps of three kinds: it closes a row, it prunes one to
make room, and it inserts one (`SnapshotStep`).
-/

import CodevoEditor.RuntimeRequests.Store
import CodevoEditor.Runs.Labelled
import Mathlib.Data.List.Count
import Mathlib.Order.Nat

namespace CodevoEditor.RuntimeRequests

open Sql Runs List Option Bool

/-- What a snapshot does to the table; `began` is the start of an incarnation of a turn. -/
inductive SnapshotEvent
  | began (turn : TurnKey)
  | closed (key : RequestKey)
  | pruned (key : RequestKey) (kind : Option RequestKind) (runId : String)
  | inserted (key : RequestKey)

/-- The database, and the state of the turn that is saved in the end. -/
abbrev Scene := RequestDatabase × TurnState

def Reconciliation.scene (reconciliation : Reconciliation) : Scene :=
  (reconciliation.database, reconciliation.state)

/-- The rows that a scope counts. -/
def RetentionScope.count (scope : RetentionScope) (key : TurnKey) (database : RequestDatabase) : ℕ :=
  database.requests.countWhere fun row _ => scope.covers key row

/-- A turn that is named: the empty name stands for every turn of the thread. -/
def RetentionScope.Names (scope : RetentionScope) (key : TurnKey) : Prop :=
  scope = .turn → key.turnId ≠ ""

/-- No turn that is named and no thread holds more rows than it may. -/
def Bounded (database : RequestDatabase) : Prop :=
  ∀ (scope : RetentionScope) (key : TurnKey), scope.Names key → scope.count key database ≤ scope.limit

section

variable (encoding : Encoding) (runId : String) (observation : TurnObservation)

/-- A row is pruned, of a scope that is full. -/
inductive PruneStep : Scene → List SnapshotEvent → Scene → Prop
  | prune (reconciliation : Reconciliation) (scope : RetentionScope) (pruned : PrunedRow)
      (database : RequestDatabase)
      (hfull : scope.limit ≤ scope.count observation.key reconciliation.database)
      (hpruned : pruneOldestClosed reconciliation.database observation.key scope = some (pruned, database)) :
      PruneStep reconciliation.scene
        [.pruned ⟨observation.key.threadId, pruned.turnId, pruned.requestId⟩ pruned.kind pruned.runId]
        (({ reconciliation with database := database } : Reconciliation).suppress runId observation pruned).scene

/-- A step of a snapshot; `known` are the rows of the turn before, and there is room if nothing held
too many rows (`capped`). -/
inductive SnapshotStep (known : List (String × KnownRow)) (capped : Prop) :
    Scene → List SnapshotEvent → Scene → Prop
  | closed (database : RequestDatabase) (state : TurnState) (step : Advance) (closing : Closing)
      (hkey : step.key = observation.key) (hrun : step.runId = runId)
      (hclose : (∃ listing, Closing.listed encoding step.source listing = some closing) ∨
        Closing.absent step.source = some closing) :
      SnapshotStep known capped (database, state)
        [.closed (observation.key.request step.requestId)]
        ((advance database step closing).1, state)
  | crowded (before after : Scene) (pruned : List SnapshotEvent)
      (hpruned : Reaches (PruneStep runId observation) before pruned after) :
      SnapshotStep known capped before pruned after
  | inserted (before after : Scene) (pruned : List SnapshotEvent)
      (hpruned : Reaches (PruneStep runId observation) before pruned after)
      (request : ObservedRequest) (regIndex : ℤ) (requests : Table RequestKey RequestRow)
      (hlist : request ∈ observation.turn.requests)
      (hnew : known.lookup request.id = none)
      (hallow : before.2.suppresses request.id = false)
      (hroom : capped → ∀ scope : RetentionScope, scope.Names observation.key →
        scope.count observation.key after.1 < scope.limit)
      (hinsert : after.1.requests.insertRow (observation.key.request request.id)
        (Reconciliation.newRow encoding runId observation request regIndex) = some requests) :
      SnapshotStep known capped before
        (pruned ++ [.inserted (observation.key.request request.id)])
        ({ after.1 with requests := requests }, after.2)

end

lemma RetentionScope.count_eq (scope : RetentionScope) (key : TurnKey) (database : RequestDatabase) :
    scope.count key database = database.requests.keys.countP (scope.covers key) :=
  Table.countWhere_keys _ _

variable {next : RequestDatabase}

lemma RetentionScope.count_congr {database}
    (h : next.requests.keys = database.requests.keys) (scope : RetentionScope) (key : TurnKey) :
    scope.count key next = scope.count key database := by
  rw [count_eq, count_eq, h]

variable {scope : RetentionScope} {key : TurnKey} {pruned : PrunedRow}

lemma pruneOldestClosed_spec {database}
    (h : pruneOldestClosed database key scope = some (pruned, next)) :
    ∃ victim row, database.requests.get? victim = some row ∧
      victim = ⟨key.threadId, pruned.turnId, pruned.requestId⟩ ∧ scope.covers key victim ∧
      row.status.any (·.isTerminal) ∧ row.kind = pruned.kind ∧ row.runId = pruned.runId ∧
      next = { database with requests := database.requests.deleteWhere fun row _ => row = victim } := by
  obtain ⟨⟨victim, row⟩, hfst, heq⟩ := map_eq_some_iff.1 h
  cases heq
  obtain ⟨hmem, htest⟩ := Table.mem_selectWhere.1 (Table.mem_of_firstBy hfst)
  obtain ⟨hcover, hcl⟩ := and_eq_true_iff.1 htest
  refine ⟨victim, row, Js.OrderedMap.get?_eq_some_iff.2 hmem, ?_, hcover, hcl, rfl, rfl, rfl⟩
  have hthr := (of_decide_eq_true hcover).1
  rw [← hthr]

lemma count_prune {database}
    (h : pruneOldestClosed database key scope = some (pruned, next)) :
    scope.count key next + 1 = scope.count key database ∧
      ∀ (scope' : RetentionScope) (key' : TurnKey), scope'.count key' next ≤ scope'.count key' database := by
  obtain ⟨victim, row, hrow, -, hcover, -, -, -, rfl⟩ := pruneOldestClosed_spec h
  have hkeys : (database.requests.deleteWhere fun row _ => decide (row = victim)).keys =
      database.requests.keys.filter fun row => !decide (row = victim) :=
    Table.keys_deleteWhere_keys _ _
  have hnd : database.requests.keys.Nodup := database.requests.nodup
  have hmem : victim ∈ database.requests.keys := by
    rw [Js.OrderedMap.mem_keys_iff, hrow]
    rfl
  constructor
  · rw [RetentionScope.count_eq, RetentionScope.count_eq, hkeys]
    have herase : database.requests.keys.filter (fun row => !decide (row = victim)) =
        database.requests.keys.erase victim := (hnd.erase_eq_filter victim).symm
    have hpos : 0 < database.requests.keys.countP (scope.covers key) := countP_pos_iff.2 ⟨victim, hmem, hcover⟩
    rw [herase, countP_erase, if_pos ⟨hmem, hcover⟩]
    omega
  · intro scope' key'
    rw [RetentionScope.count_eq, RetentionScope.count_eq, hkeys]
    exact filter_sublist.countP_le

lemma Reconciliation.suppress_requests (runId : String) (observation)
    (reconciliation : Reconciliation) (pruned : PrunedRow) :
    (reconciliation.suppress runId observation pruned).database.requests =
      reconciliation.database.requests := by
  unfold suppress
  split
  · rfl
  · split_ifs
    · rfl
    · rfl
    · dsimp only
      split_ifs <;> rfl

section Bounds

variable {encoding : Encoding} {runId : String} {observation : TurnObservation}
  {known : List (String × KnownRow)} {capped : Prop} {before after : Scene}
  {events : List SnapshotEvent}

lemma PruneStep.count_le (h : PruneStep runId observation before events after)
    (scope : RetentionScope) (key : TurnKey) :
    scope.count key after.1 ≤ scope.count key before.1 := by
  obtain ⟨reconciliation, scope', pruned, database, -, hprn⟩ := h
  have hcnt := (count_prune hprn).2 scope key
  refine le_of_eq_of_le (RetentionScope.count_congr ?_ scope key) hcnt
  exact congrArg Js.OrderedMap.keys (Reconciliation.suppress_requests runId observation _ pruned)

lemma covers_of_covers_request {turn} {requestId} (hnames : scope.Names key)
    (hcover : scope.covers key (turn.request requestId)) :
    scope.covers key = scope.covers turn ∧ scope.Names turn := by
  obtain ⟨hthr, hturn⟩ := of_decide_eq_true hcover
  change turn.threadId = key.threadId at hthr
  cases scope with
  | turn =>
    have hnamed := hnames rfl
    have hsame : turn.turnId = key.turnId := hturn.resolve_left hnamed
    have hkey : turn = key := by
      exact TurnKey.mk.injEq .. ▸ ⟨hthr, hsame⟩
    rw [hkey]
    exact ⟨rfl, hnames⟩
  | thread =>
    refine ⟨funext fun row => ?_, nofun⟩
    unfold RetentionScope.covers
    rw [hthr]

lemma bounded_of_count_le {database}
    (h : ∀ (scope : RetentionScope) (key : TurnKey), scope.count key next ≤ scope.count key database)
    (hbounded : Bounded database) : Bounded next :=
  fun scope key hnames => (h scope key).trans (hbounded scope key hnames)

lemma count_le_of_prunes (h : Reaches (PruneStep runId observation) before events after)
    (scope : RetentionScope) (key : TurnKey) :
    scope.count key after.1 ≤ scope.count key before.1 :=
  h.invariant (P := fun scene => scope.count key scene.1 ≤ scope.count key before.1)
    (fun _ _ _ hle hstep => (hstep.count_le scope key).trans hle) le_rfl

theorem SnapshotStep.bounded_after (hb : capped)
    (h : SnapshotStep encoding runId observation known capped before events after)
    (hpre : Bounded before.1) : Bounded after.1 := by
  cases h with
  | closed database state step closing =>
    refine bounded_of_count_le (fun scope key => le_of_eq ?_) hpre
    exact RetentionScope.count_congr (Table.keys_updateWhere _ _ _) scope key
  | crowded _ _ _ hprn => exact bounded_of_count_le (count_le_of_prunes hprn) hpre
  | inserted _ middle pruned hprn request regIndex requests _ _ _ hroom hinsert =>
    intro scope key hnames
    have hmid := bounded_of_count_le (count_le_of_prunes hprn) hpre scope key hnames
    have hkeys := (Table.keys_insertRow hinsert).2
    have hcnt : scope.count key { middle.1 with requests := requests } =
        scope.count key middle.1 +
          if scope.covers key (observation.key.request request.id) then 1 else 0 := by
      rw [RetentionScope.count_eq, RetentionScope.count_eq, hkeys, countP_append, countP_singleton]
    rw [hcnt]
    split_ifs with hcover
    · -- the scope covers the new row, so it is the scope that was made room in
      obtain ⟨hsame, hnamed⟩ := covers_of_covers_request hnames hcover
      have hless := hroom hb scope hnamed
      rw [RetentionScope.count_eq, ← hsame, ← RetentionScope.count_eq] at hless
      exact hless
    · exact hmid

end Bounds

namespace Reconciliation

section Derivation

variable {encoding : Encoding} {runId : String} {observation : TurnObservation}
  {known : List (String × KnownRow)} {capped : Prop} {reconciliation : Reconciliation}

/-- The steps of a snapshot lead from one reconciliation to another. -/
abbrev Leads (encoding : Encoding) (runId : String) (observation : TurnObservation)
    (known : List (String × KnownRow)) (capped : Prop) (before after : Reconciliation) : Prop :=
  ∃ events, Reaches (SnapshotStep encoding runId observation known capped) before.scene events after.scene

lemma Leads.refl (before) :
    Leads encoding runId observation known capped before before := ⟨[], .refl _⟩

variable {before after : Reconciliation}

lemma Leads.trans {between}
    (h : Leads encoding runId observation known capped before between)
    (h' : Leads encoding runId observation known capped between after) :
    Leads encoding runId observation known capped before after := by
  obtain ⟨events, hrun⟩ := h
  obtain ⟨rest, hrest⟩ := h'
  exact ⟨events ++ rest, hrun.trans hrest⟩

lemma Leads.bounded (h : Leads encoding runId observation known capped before after)
    (hpre : capped → Bounded before.database) : capped → Bounded after.database := by
  intro hb
  obtain ⟨events, hrun⟩ := h
  exact hrun.invariant (P := fun scene => Bounded scene.1)
    (fun _ _ _ hscene hstep => hstep.bounded_after hb hscene) (hpre hb)

lemma leads_reconcile (row : KnownRow) (request) :
    Leads encoding runId observation known capped reconciliation
      (reconciliation.reconcile encoding runId observation row request) := by
  unfold reconcile
  split
  · exact .refl _
  · split_ifs
    · exact .refl _
    · split
      · exact .refl _
      · split_ifs
        · exact .refl _
        · split
          · exact .refl _
          · rename_i source _ _ _ closing hlist
            exact ⟨_, .single (.closed _ _ ⟨runId, observation.key, request.id, source,
              revisionOf observation request.revision, integer observation.observedAtEpochMs⟩
              closing rfl rfl (.inl ⟨_, hlist⟩))⟩

lemma makeRoomIn_spec (runId : String) (observation)
    (reconciliation : Reconciliation) (scope : RetentionScope) :
    (∃ pruned, Reaches (PruneStep runId observation) reconciliation.scene pruned
        (reconciliation.makeRoomIn runId observation scope).1.scene) ∧
      ((reconciliation.makeRoomIn runId observation scope).2 →
        scope.count observation.key reconciliation.database ≤ scope.limit →
          scope.count observation.key
            (reconciliation.makeRoomIn runId observation scope).1.database < scope.limit) := by
  unfold makeRoomIn
  dsimp only
  split_ifs with hfits
  · exact ⟨⟨[], .refl _⟩, fun _ _ => hfits⟩
  · split
    · exact ⟨⟨[], .refl _⟩, nofun⟩
    · rename_i pruned database hprn
      obtain ⟨hone, -⟩ := count_prune hprn
      refine ⟨⟨_, .single (.prune { reconciliation with
        report := { reconciliation.report with pruned := reconciliation.report.pruned + 1 } }
        scope pruned database (Nat.not_lt.1 hfits) hprn)⟩, fun _ hle => ?_⟩
      rw [RetentionScope.count_eq, suppress_requests, ← RetentionScope.count_eq]
      change scope.count observation.key database < scope.limit
      omega

lemma makeRoom_spec (runId : String) (observation)
    (reconciliation : Reconciliation) :
    (∃ pruned, Reaches (PruneStep runId observation) reconciliation.scene pruned
        (reconciliation.makeRoom runId observation).1.scene) ∧
      ((reconciliation.makeRoom runId observation).2 → Bounded reconciliation.database →
        ∀ scope : RetentionScope, scope.Names observation.key →
          scope.count observation.key (reconciliation.makeRoom runId observation).1.database < scope.limit) := by
  obtain ⟨⟨first, hfst⟩, hturn⟩ := makeRoomIn_spec runId observation reconciliation .turn
  unfold makeRoom
  split
  · rename_i made heq
    rw [heq] at hfst
    exact ⟨⟨first, hfst⟩, nofun⟩
  · rename_i made heq
    rw [heq] at hfst hturn
    obtain ⟨⟨second, hsnd⟩, hthr⟩ := makeRoomIn_spec runId observation made .thread
    refine ⟨⟨first ++ second, hfst.trans hsnd⟩, fun hroom hbounded scope hnames => ?_⟩
    cases scope with
    | turn =>
      have hless := hturn rfl (hbounded .turn observation.key hnames)
      exact (count_le_of_prunes hsnd .turn observation.key).trans_lt hless
    | thread =>
      have hle := count_le_of_prunes hfst .thread observation.key
      have hbd := hbounded .thread observation.key nofun
      exact hthr hroom (hle.trans hbd)

variable {request : ObservedRequest}

lemma leads_insert {regIndex} {inserted}
    (hlist : request ∈ observation.turn.requests) (hnew : known.lookup request.id = none)
    (hallow : reconciliation.state.suppresses request.id = false)
    (hbounded : capped → Bounded reconciliation.database)
    (hinsert : reconciliation.insert encoding runId observation request regIndex = some inserted) :
    Leads encoding runId observation known capped reconciliation inserted.1 := by
  obtain ⟨⟨pruned, hprn⟩, hroom⟩ := makeRoom_spec runId observation reconciliation
  unfold insert at hinsert
  split at hinsert
  · rename_i made heq
    rw [heq] at hprn
    cases hinsert
    exact ⟨pruned, .single (.crowded _ _ pruned hprn)⟩
  · rename_i made heq
    rw [heq] at hprn hroom
    obtain ⟨requests, hreqs, rfl⟩ := map_eq_some_iff.1 hinsert
    exact ⟨_, .single (.inserted _ _ pruned hprn request regIndex requests hlist hnew hallow
      (fun hc => hroom rfl (hbounded hc)) hreqs)⟩

variable {progress : Reconciliation × ℤ}

lemma leads_applyRequest {next}
    (hlist : request ∈ observation.turn.requests)
    (hbounded : capped → Bounded progress.1.database)
    (hnext : applyRequest encoding runId observation known progress request = some next) :
    Leads encoding runId observation known capped progress.1 next.1 := by
  unfold applyRequest at hnext
  dsimp only at hnext
  split at hnext
  · cases hnext
    exact leads_reconcile _ _
  · rename_i hlookup
    split_ifs at hnext with hsuppressed
    · cases hnext
      exact .refl _
    · obtain ⟨inserted, hins, rfl⟩ := map_eq_some_iff.1 hnext
      exact leads_insert hlist hlookup (eq_false_iff.2 hsuppressed) hbounded hins

lemma leads_foldlM_applyRequest {requests : List ObservedRequest} {next : Reconciliation × ℤ}
    (hlist : ∀ request ∈ requests, request ∈ observation.turn.requests)
    (hbounded : capped → Bounded progress.1.database)
    (hnext : requests.foldlM (applyRequest encoding runId observation known) progress = some next) :
    Leads encoding runId observation known capped progress.1 next.1 := by
  induction requests generalizing progress with
  | nil =>
    cases hnext
    exact .refl _
  | cons request requests ih =>
    obtain ⟨applied, happ, hrest⟩ := bind_eq_some_iff.1 hnext
    obtain ⟨hreq, hreqs⟩ := forall_mem_cons.1 hlist
    have hone := leads_applyRequest hreq hbounded happ
    exact hone.trans (ih hreqs (hone.bounded hbounded) hrest)

lemma leads_foldl_applyDigested (requests : List DigestedRequest) :
    Leads encoding runId observation known capped reconciliation
      (requests.foldl (applyDigested encoding runId observation known) reconciliation) := by
  induction requests generalizing reconciliation with
  | nil => exact .refl _
  | cons request requests ih =>
    refine Leads.trans ?_ ih
    unfold applyDigested
    split
    · exact leads_reconcile _ _
    · split_ifs
      · exact .refl _
      · exact .refl _

lemma closeAbsent_step (database) (state) (requestId : String)
    (row : KnownRow) :
    ∃ events, Reaches (SnapshotStep encoding runId observation known capped) (database, state) events
      ((closeAbsent runId observation database requestId row).1, state) := by
  unfold closeAbsent
  split
  · exact ⟨[], .refl _⟩
  · rename_i source _
    split
    · exact ⟨[], .refl _⟩
    · rename_i closing hcls
      exact ⟨_, .single (.closed database state ⟨runId, observation.key, requestId, source,
        integer observation.revision, integer observation.observedAtEpochMs⟩ closing rfl rfl
        (.inr hcls))⟩

lemma leads_foldl_applyAbsent {listed} (entries : List (String × KnownRow)) :
    Leads encoding runId observation known capped reconciliation
      (entries.foldl (applyAbsent runId observation listed) reconciliation) := by
  induction entries generalizing reconciliation with
  | nil => exact .refl _
  | cons entry entries ih =>
    refine Leads.trans ?_ ih
    unfold applyAbsent
    split_ifs
    · exact .refl _
    · exact closeAbsent_step _ _ _ _

variable (encoding runId observation known capped) in
lemma closePredecessor_step (state)
    (progress) (entry) :
    (∃ events, Reaches (SnapshotStep encoding runId observation known capped) (progress.1, state)
        events ((closePredecessor runId observation progress entry).1, state)) ∧
      ∃ row, (closePredecessor runId observation progress entry).2.1 = progress.2.1 ++ [(entry.1, row)] := by
  have habsent : ∃ events, Reaches (SnapshotStep encoding runId observation known capped)
      (progress.1, state) events
      ((closeAbsent runId observation progress.1 entry.1 entry.2).1, state) :=
    closeAbsent_step progress.1 state entry.1 entry.2
  unfold closePredecessor
  dsimp only
  split_ifs
  · exact ⟨⟨[], .refl _⟩, entry.2, rfl⟩
  · split
    · rename_i closed status heq
      rw [heq] at habsent
      exact ⟨habsent, _, rfl⟩
    · rename_i closed heq
      rw [heq] at habsent
      exact ⟨habsent, entry.2, rfl⟩

variable (encoding runId observation known capped) in
lemma foldl_closePredecessor_steps (state : TurnState) (entries : List (String × KnownRow))
    (progress : RequestDatabase × List (String × KnownRow) × ℕ) :
    (∃ events, Reaches (SnapshotStep encoding runId observation known capped) (progress.1, state)
        events ((entries.foldl (closePredecessor runId observation) progress).1, state)) ∧
      (entries.foldl (closePredecessor runId observation) progress).2.1.map (·.1) =
        progress.2.1.map (·.1) ++ entries.map (·.1) := by
  induction entries generalizing progress with
  | nil => exact ⟨⟨[], .refl _⟩, (append_nil _).symm⟩
  | cons entry entries ih =>
    obtain ⟨⟨events, hone⟩, row, hkn⟩ :=
      closePredecessor_step encoding runId observation known capped state progress entry
    obtain ⟨⟨rest, hrest⟩, hmap⟩ := ih (closePredecessor runId observation progress entry)
    refine ⟨⟨events ++ rest, hone.trans hrest⟩, ?_⟩
    rw [foldl_cons, hmap, hkn, map_append, append_assoc]
    rfl

lemma leads_reconcileTurn {next : Reconciliation}
    (hbounded : capped → Bounded reconciliation.database)
    (hnext : reconcileTurn encoding runId observation known reconciliation = some next) :
    Leads encoding runId observation known capped reconciliation next := by
  obtain ⟨progress, hprog, rfl⟩ := map_eq_some_iff.1 hnext
  have hobs := leads_foldlM_applyRequest (fun _ h => h) hbounded hprog
  exact hobs.trans ((leads_foldl_applyDigested _).trans (leads_foldl_applyAbsent _))

end Derivation

end Reconciliation

section Applied

variable (encoding : Encoding) (runId : String) (observation : TurnObservation)
  (database : RequestDatabase)

/-- The turn goes on, in the incarnation that is stored. -/
def continues : Bool :=
  let saved := TurnState.load database observation.key runId
  saved.stored ∧ integer observation.incarnation = saved.incarnation

/-- The state of the turn that a snapshot starts from. -/
def startState : TurnState :=
  if continues runId observation database then TurnState.load database observation.key runId
  else { incarnation := integer observation.incarnation }

/-- The incarnation and the sequence of a snapshot are after what is stored. -/
def IsNewer : Prop :=
  let saved := TurnState.load database observation.key runId
  saved.stored → saved.incarnation < integer observation.incarnation ∨
    saved.incarnation = integer observation.incarnation ∧ saved.appliedSequence < integer observation.turn.sequence

/-- The database once the rows of a predecessor are closed. -/
def takenOver : RequestDatabase :=
  if continues runId observation database then database
  else (Reconciliation.closePredecessorRows runId observation database (turnRows database observation.key)).1

/-- A snapshot that is applied, and what it leaves. -/
structure Applied (next : RequestDatabase) : Prop where
  notDeleted : observation.key.threadId ∉ database.tombstones
  newer : IsNewer runId observation database
  run : ∀ capped : Prop, (capped → Bounded database) →
    ∃ (known : List (String × KnownRow)) (closed events : List SnapshotEvent) (after : Scene)
      (pruned skipped : ℕ),
      known.map (·.1) = (turnRows database observation.key).map (·.1) ∧
        Reaches (SnapshotStep encoding runId observation known capped)
          (database, startState runId observation database) closed
          (takenOver runId observation database, startState runId observation database) ∧
        Reaches (SnapshotStep encoding runId observation known capped)
          (takenOver runId observation database, startState runId observation database) events
          after ∧
        next = addMarks
          (({ after.2 with appliedSequence := integer observation.turn.sequence } : TurnState).save
            after.1 observation.key runId) observation.key.threadId pruned skipped

end Applied

section Refused

variable (runId : String) (database : RequestDatabase) (observation : TurnObservation)

/-- What makes `apply_snapshot` refuse a snapshot. -/
def isStale : Bool :=
  let saved := TurnState.load database observation.key runId
  observation.key.threadId ∈ database.tombstones ||
    saved.stored && (integer observation.incarnation < saved.incarnation ||
      integer observation.incarnation = saved.incarnation &&
        integer observation.turn.sequence ≤ saved.appliedSequence)

/-- Nothing is known of the turn, and nothing is observed of it. -/
def isVoid : Bool :=
  let turn := observation.turn
  !continues runId observation database && (turnRows database observation.key).isEmpty &&
    (turn.requests.isEmpty && turn.digested.isEmpty && turn.rejected.isEmpty)

end Refused

/-- **What `apply_snapshot` does.**  It leaves the database, or it applies the snapshot. -/
theorem applySnapshot_cases {encoding} {runId} {observation}
    {database} {report}
    (hnext : applySnapshot encoding runId observation database = some (report, next)) :
    (isStale runId database observation ∨ isVoid runId database observation) ∧
        next = database ∨
      Applied encoding runId observation database next := by
  unfold applySnapshot at hnext
  dsimp only at hnext
  split_ifs at hnext with hdel hsuper hstale hcont hemp hemp
  · refine .inl ⟨.inl ?_, (Prod.mk.inj (some.inj hnext)).2.symm⟩
    unfold isStale
    rw [decide_eq_true hdel, Bool.true_or]
  · refine .inl ⟨.inl ?_, (Prod.mk.inj (some.inj hnext)).2.symm⟩
    unfold isStale
    dsimp only
    rw [hsuper.1, decide_eq_true hsuper.2, Bool.true_or, Bool.true_and, Bool.or_true]
  · obtain ⟨hgoes, hold⟩ := hstale
    obtain ⟨hstore, hsame⟩ := of_decide_eq_true hgoes
    refine .inl ⟨.inl ?_, (Prod.mk.inj (some.inj hnext)).2.symm⟩
    unfold isStale
    dsimp only
    rw [hstore, decide_eq_true hsame, decide_eq_true hold, Bool.true_and, Bool.true_and, Bool.or_true, Bool.or_true]
  · exact absurd hcont hemp.2.2
  · obtain ⟨reconciled, hrecon, hsaved⟩ := map_eq_some_iff.1 hnext
    cases hsaved
    have hgoes := of_decide_eq_true hcont
    refine .inr ⟨hdel, fun _ => .inr ⟨hgoes.2.symm, ?_⟩, fun capped hbounded => ?_⟩
    · exact Int.not_le.1 fun hle => hstale ⟨hcont, hle⟩
    · obtain ⟨events, hevs⟩ : Reconciliation.Leads encoding runId observation _ capped _ _ :=
        Reconciliation.leads_reconcileTurn hbounded hrecon
      have hst : startState runId observation database =
          TurnState.load database observation.key runId := if_pos hcont
      have htkn : takenOver runId observation database = database := if_pos hcont
      rw [hst, htkn]
      exact ⟨_, [], events, reconciled.scene, _, _, rfl, .refl _, hevs, rfl⟩
  · obtain ⟨hkn, hobs, -⟩ := hemp
    obtain ⟨-, hids⟩ := Reconciliation.foldl_closePredecessor_steps encoding runId observation []
      False {} (turnRows database observation.key) (database, [], 0)
    have hrows : turnRows database observation.key = [] := by
      rw [List.isEmpty_iff] at hkn
      have hmap : ([] : List String) = (turnRows database observation.key).map (·.1) := by
        refine .trans ?_ hids
        exact (congrArg (List.map (·.1)) hkn).symm
      exact map_eq_nil_iff.1 hmap.symm
    refine .inl ⟨.inr ?_, (Prod.mk.inj (some.inj hnext)).2.symm⟩
    have hdeparts : continues runId observation database = false := eq_false_iff.2 hcont
    unfold isVoid
    dsimp only
    rw [hdeparts, hrows, hobs]
    rfl
  · obtain ⟨reconciled, hrecon, hsaved⟩ := map_eq_some_iff.1 hnext
    cases hsaved
    have hleft (hstore : (TurnState.load database observation.key runId).stored) :
        integer observation.incarnation ≠ (TurnState.load database observation.key runId).incarnation :=
      fun heq => hcont (decide_eq_true ⟨hstore, heq⟩)
    refine .inr ⟨hdel, fun hstore => .inl ?_, fun capped hbounded => ?_⟩
    · have hnot : ¬ integer observation.incarnation < (TurnState.load database observation.key runId).incarnation :=
        fun hlt => hsuper ⟨hstore, hlt⟩
      have hne := hleft hstore
      omega
    · have hst : startState runId observation database =
          { incarnation := integer observation.incarnation } := if_neg hcont
      have htakenOver : takenOver runId observation database =
          (Reconciliation.closePredecessorRows runId observation database
            (turnRows database observation.key)).1 := if_neg hcont
      rw [hst, htakenOver]
      obtain ⟨-, hids⟩ := Reconciliation.foldl_closePredecessor_steps encoding runId observation []
        capped { incarnation := integer observation.incarnation }
        (turnRows database observation.key) (database, [], 0)
      obtain ⟨⟨closed, hcl⟩, -⟩ := Reconciliation.foldl_closePredecessor_steps encoding runId
        observation (Reconciliation.closePredecessorRows runId observation database
          (turnRows database observation.key)).2.1 capped
        { incarnation := integer observation.incarnation }
        (turnRows database observation.key) (database, [], 0)
      have htkn : capped → Bounded (Reconciliation.closePredecessorRows runId observation database
          (turnRows database observation.key)).1 := by
        intro hc
        exact hcl.invariant (P := fun scene => Bounded scene.1)
          (fun _ _ _ hscene hstep => hstep.bounded_after hc hscene) (hbounded hc)
      obtain ⟨events, hevs⟩ := Reconciliation.leads_reconcileTurn htkn hrecon
      exact ⟨_, closed, events, reconciled.scene, _, _, hids, hcl, hevs, rfl⟩

end CodevoEditor.RuntimeRequests
