/-
# What stays of the stored requests

A named turn holds at most 512 rows and a thread at most 4096; a request is inserted where there
is room, and room is made by deleting the oldest request that is closed.
-/

import CodevoEditor.RuntimeRequests.StaleSnapshots

namespace CodevoEditor.RuntimeRequests

open Sql Runs List Option

def RequestKey.turn (key : RequestKey) : TurnKey := ⟨key.threadId, key.turnId⟩

/-- An event changes the rows. -/
inductive RowStep : Table RequestKey RequestRow → List SnapshotEvent →
    Table RequestKey RequestRow → Prop
  | began (requests : Table RequestKey RequestRow) (turn : TurnKey) :
      RowStep requests [.began turn] requests
  | closed (requests next : Table RequestKey RequestRow) (key : RequestKey)
      (hkeys : next.keys = requests.keys)
      (hrows : ∀ other row, next.get? other = some row →
        requests.get? other = some row ∨ other = key ∧ row.isClosed) :
      RowStep requests [.closed key] next
  | pruned (requests : Table RequestKey RequestRow) (key : RequestKey) (row : RequestRow)
      (hrow : requests.get? key = some row) (hclosed : row.isClosed) :
      RowStep requests [.pruned key row.kind row.runId] (requests.deleteWhere fun other _ => other = key)
  | inserted (requests next : Table RequestKey RequestRow) (key : RequestKey) (row : RequestRow)
      (hinsert : requests.insertRow key row = some next) :
      RowStep requests [.inserted key] next

section Delivered

variable (encoding : Encoding) (runId : String)

/-- Snapshots are delivered, each with the events of its rows; an incarnation of a turn begins with
a snapshot that is applied. -/
inductive Delivered : RequestDatabase → List TurnObservation → List (List SnapshotEvent) → Prop
  | nil (database : RequestDatabase) : Delivered database [] []
  | cons (database : RequestDatabase) (observation : TurnObservation)
      (observations : List TurnObservation) (events : List SnapshotEvent)
      (trace : List (List SnapshotEvent))
      (hrows : Reaches RowStep database.requests events (deliver encoding runId database observation).requests)
      (hbegan : ∀ turn, .began turn ∈ events ↔ turn = observation.key ∧
        isApplied encoding runId database observation ∧
        continues runId observation database = false)
      (hrest : Delivered (deliver encoding runId database observation) observations trace) :
      Delivered database (observation :: observations) (events :: trace)

end Delivered

/-- What an event makes of the requests of a turn that are suppressed. -/
def recallEvent (runId : String) (turn : TurnKey) (suppressed : List SuppressedRequest) :
    SnapshotEvent → List SuppressedRequest
  | .began other => if other = turn then [] else suppressed
  | .pruned key (some kind) owner =>
      if key.turn = turn ∧ owner = runId then
        (({ suppressed := suppressed } : TurnState).suppress ⟨key.requestId, kind⟩).suppressed
      else suppressed
  | _ => suppressed

/-- The requests of a turn that are suppressed after some events. -/
def recalled (runId : String) (turn : TurnKey) (suppressed : List SuppressedRequest)
    (events : List SnapshotEvent) : List SuppressedRequest :=
  events.foldl (recallEvent runId turn) suppressed

/-- Another request of the kind is pruned from the turn of a request. -/
def prunesAnother (runId : String) (key : RequestKey) (kind : RequestKind) : SnapshotEvent → Bool
  | .pruned other found owner =>
      other.turn = key.turn ∧ other ≠ key ∧ found = some kind ∧ owner = runId
  | _ => false

lemma TurnState.suppress_suppressed (state : TurnState) (request) :
    (state.suppress request).suppressed =
      (({ suppressed := state.suppressed } : TurnState).suppress request).suppressed := by
  unfold suppress
  have hsame : state.suppresses request.id =
      ({ suppressed := state.suppressed } : TurnState).suppresses request.id := rfl
  rw [hsame]
  split_ifs
  · rfl
  · rfl

variable {suppressed : List SuppressedRequest} {kind : RequestKind} {requestId : String}
    {key : RequestKey}

variable {event : SnapshotEvent}

section Keeps

/-- A request is suppressed, and few of its kind are after it. -/
def Keeps (request : SuppressedRequest) (few : ℕ) (suppressed : List SuppressedRequest) : Prop :=
  ∃ before after, suppressed = before ++ request :: after ∧ after.countP (·.kind = request.kind) ≤ few

variable {request : SuppressedRequest} {few : ℕ}

lemma Keeps.mem (h : Keeps request few suppressed) : request ∈ suppressed := by
  obtain ⟨before, after, rfl, -⟩ := h
  exact mem_append_right _ mem_cons_self

lemma Keeps.mono {more} (h : Keeps request few suppressed) (hle : few ≤ more) : Keeps request more suppressed := by
  obtain ⟨before, after, heq, hfew⟩ := h
  exact ⟨before, after, heq, hfew.trans hle⟩

/-- **A request with few of its kind after it is not forgotten.** -/
theorem Keeps.forgetOldest {fuel} (hfew : few < retainedBySession request.kind)
    (h : Keeps request few suppressed) :
    Keeps request few (TurnState.forgetOldest kind fuel suppressed) := by
  induction fuel generalizing suppressed with
  | zero => exact h
  | succ fuel ih =>
    unfold TurnState.forgetOldest
    split_ifs with hmany
    · refine ih ?_
      obtain ⟨before, after, rfl, haft⟩ := h
      by_cases hpre : ∃ other ∈ before, decide (other.kind = kind)
      · obtain ⟨other, hmem, hkind⟩ := hpre
        rw [eraseP_append_left (p := fun other : SuppressedRequest => decide (other.kind = kind)) hkind _ hmem]
        exact ⟨_, after, rfl, haft⟩
      · have hnone : ∀ other ∈ before, ¬ decide (other.kind = kind) :=
          fun other hmem hkind => hpre ⟨other, hmem, hkind⟩
        rw [eraseP_append_right _ hnone, eraseP_cons]
        by_cases hkind : request.kind = kind
        · -- the request is the first of its kind, so there are few of them
          rw [countP_append, countP_eq_zero.2 hnone, countP_cons, ← hkind] at hmany
          rw [if_pos (decide_eq_true rfl)] at hmany
          omega
        · rw [decide_eq_false hkind, cond_false]
          exact ⟨before, _, rfl, eraseP_sublist.countP_le.trans haft⟩
    · exact h

lemma Keeps.suppress {other} (h : Keeps request few suppressed)
    (hfew : few + [other].countP (·.kind = request.kind) < retainedBySession request.kind) :
    Keeps request (few + [other].countP (·.kind = request.kind))
      (({ suppressed := suppressed } : TurnState).suppress other).suppressed := by
  unfold TurnState.suppress
  split
  · exact h.mono (Nat.le_add_right _ _)
  · refine Keeps.forgetOldest hfew ?_
    obtain ⟨before, after, rfl, haft⟩ := h
    refine ⟨before, after ++ [other], append_assoc .., ?_⟩
    rw [countP_append]
    omega

lemma suppresses_eq_false_iff :
    ({ suppressed := suppressed } : TurnState).suppresses requestId = false ↔ requestId ∉ suppressed.map (·.id) := by
  unfold TurnState.suppresses
  rw [List.any_eq_false, List.mem_map]
  constructor
  · rintro h ⟨other, hmem, hid⟩
    exact h other hmem (decide_eq_true hid)
  · intro h other hmem hid
    exact h ⟨other, hmem, of_decide_eq_true hid⟩

lemma keeps_suppress_self (hnew : request.id ∉ suppressed.map (·.id)) :
    Keeps request 0 (({ suppressed := suppressed } : TurnState).suppress request).suppressed := by
  unfold TurnState.suppress
  rw [suppresses_eq_false_iff.2 hnew, if_neg Bool.false_ne_true]
  refine Keeps.forgetOldest ?_ ⟨suppressed, [], rfl, le_rfl⟩
  cases request.kind with
  | question => decide
  | approval => decide

lemma Keeps.recall {runId} (h : Keeps ⟨key.requestId, kind⟩ few suppressed)
    (hgoes : event ≠ .began key.turn)
    (hfew : few + [event].countP (prunesAnother runId key kind) < retainedBySession kind) :
    Keeps ⟨key.requestId, kind⟩ (few + [event].countP (prunesAnother runId key kind))
      (recallEvent runId key.turn suppressed event) := by
  have hsame : Keeps ⟨key.requestId, kind⟩
      (few + [event].countP (prunesAnother runId key kind)) suppressed := h.mono (Nat.le_add_right _ _)
  cases event with
  | began other =>
    unfold RuntimeRequests.recallEvent
    dsimp only
    rw [if_neg fun heq => hgoes (congrArg _ heq)]
    exact hsame
  | closed | inserted => exact hsame
  | pruned other found owner =>
    cases found with
    | none => exact hsame
    | some found =>
      unfold RuntimeRequests.recallEvent
      dsimp only
      split_ifs with hhere
      · by_cases heq : other = key
        · -- the request itself, which is suppressed already
          have hthere : ({ suppressed := suppressed } : TurnState).suppresses other.requestId := by
            rw [← Bool.not_eq_false, suppresses_eq_false_iff, not_not, heq]
            exact mem_map.2 ⟨_, h.mem, rfl⟩
          unfold TurnState.suppress
          rw [if_pos hthere]
          exact hsame
        · have hcnt : [SnapshotEvent.pruned other (some found) owner].countP
              (prunesAnother runId key kind) =
                [(⟨other.requestId, found⟩ : SuppressedRequest)].countP (·.kind = kind) := by
            rw [countP_singleton, countP_singleton]
            refine if_congr ?_ rfl rfl
            unfold prunesAnother
            rw [decide_eq_true_iff, decide_eq_true_iff]
            exact ⟨fun h => some.inj h.2.2.1, fun h => ⟨hhere.1, heq, congrArg _ h, hhere.2⟩⟩
          rw [hcnt] at hfew ⊢
          exact h.suppress hfew
      · exact hsame

/-- **What is on the list stays on it until as many of its kind are pruned as it holds.** -/
theorem keeps_recalled {runId} {events}
    (hgoes : .began key.turn ∉ events)
    (hfew : few + events.countP (prunesAnother runId key kind) < retainedBySession kind)
    (h : Keeps ⟨key.requestId, kind⟩ few suppressed) :
    Keeps ⟨key.requestId, kind⟩ (few + events.countP (prunesAnother runId key kind))
      (recalled runId key.turn suppressed events) := by
  induction events generalizing few suppressed with
  | nil => exact h
  | cons event events ih =>
    rw [mem_cons, not_or] at hgoes
    have hspl : (event :: events).countP (prunesAnother runId key kind) =
        [event].countP (prunesAnother runId key kind) + events.countP (prunesAnother runId key kind) := by
      rw [← countP_append]
      rfl
    rw [hspl] at hfew ⊢
    rw [← Nat.add_assoc] at hfew ⊢
    have hhead : Keeps ⟨key.requestId, kind⟩ (few + [event].countP (prunesAnother runId key kind))
        (recallEvent runId key.turn suppressed event) := h.recall (.symm hgoes.1) (by omega)
    exact ih hgoes.2 hfew hhead

/-- **A pruned request that is forgotten was followed by many of its kind.** -/
theorem retained_of_forgotten {runId} {earlier later}
    (hnew : key.requestId ∉ (recalled runId key.turn suppressed earlier).map (·.id))
    (hgoes : .began key.turn ∉ later)
    (hgone : key.requestId ∉ (recalled runId key.turn suppressed (earlier ++ .pruned key (some kind) runId ::
      later)).map (·.id)) :
    retainedBySession kind ≤ later.countP (prunesAnother runId key kind) := by
  rw [← Nat.not_lt]
  intro hfew
  refine hgone ?_
  unfold recalled
  rw [foldl_append, foldl_cons]
  change _ ∈ (recalled runId key.turn (recallEvent runId key.turn (recalled runId key.turn suppressed
    earlier) (.pruned key (some kind) runId)) later).map (·.id)
  have hput : Keeps ⟨key.requestId, kind⟩ 0 (recallEvent runId key.turn (recalled runId key.turn suppressed
      earlier) (.pruned key (some kind) runId)) := by
    unfold recallEvent
    dsimp only
    rw [if_pos ⟨rfl, rfl⟩]
    exact keeps_suppress_self hnew
  have hkept := keeps_recalled hgoes (by rwa [Nat.zero_add]) hput
  exact mem_map.2 ⟨_, hkept.mem, rfl⟩

end Keeps

variable {database : RequestDatabase} {turnId : String}

section Scenes

variable {encoding : Encoding} {runId : String} {observation : TurnObservation}
  {start : TurnKey → List SuppressedRequest} {earlier events : List SnapshotEvent}
  {before after : Scene} {known : List (String × KnownRow)} {capped : Prop}

/-- The list of each turn whose state is stored is what the events leave of it. -/
structure Recalls (runId : String) (start : TurnKey → List SuppressedRequest) (key : TurnKey)
    (events : List SnapshotEvent) (scene : Scene) : Prop where
  own : scene.2.suppressed = recalled runId key (start key) events
  others : ∀ turn, turn ≠ key → (TurnState.load scene.1 turn runId).stored →
    (TurnState.load scene.1 turn runId).suppressed = recalled runId turn (start turn) events

/-- Each request that is inserted was not on the list of its turn, but for what was pruned to
make room for it. -/
def InsertsAllowed (runId : String) (start : TurnKey → List SuppressedRequest)
    (earlier events : List SnapshotEvent) : Prop :=
  ∀ done key rest, events = done ++ .inserted key :: rest → ∃ checked room, done = checked ++ room ∧
    key.requestId ∉ (recalled runId key.turn (start key.turn) (earlier ++ checked)).map (·.id)

lemma recalled_append (runId : String) (turn : TurnKey) (suppressed)
    (earlier events) :
    recalled runId turn suppressed (earlier ++ events) =
      recalled runId turn (recalled runId turn suppressed earlier) events :=
  foldl_append

lemma recalled_pruned_of_not {turn} {kind} {owner}
    (h : kind = none ∨ owner ≠ runId ∨ key.turn ≠ turn) :
    recalled runId turn suppressed (earlier ++ [.pruned key kind owner]) =
      recalled runId turn suppressed earlier := by
  rw [recalled_append]
  cases kind with
  | none => rfl
  | some kind =>
    refine if_neg ?_
    rintro ⟨hturn, howner⟩
    rcases h with hnone | hoth | haway
    · cases hnone
    · exact hoth howner
    · exact haway hturn

lemma recalled_pruned {threadId} :
    recalled runId ⟨threadId, turnId⟩ suppressed
        (earlier ++ [.pruned ⟨threadId, turnId, requestId⟩ (some kind) runId]) =
      (({ suppressed := recalled runId ⟨threadId, turnId⟩ suppressed earlier } : TurnState).suppress
        ⟨requestId, kind⟩).suppressed := by
  rw [recalled_append]
  exact if_pos ⟨rfl, rfl⟩

lemma PruneStep.recalls (hstep : PruneStep runId observation before events after)
    (h : Recalls runId start observation.key earlier before) :
    Recalls runId start observation.key (earlier ++ events) after := by
  obtain ⟨reconciliation, scope, ⟨turnId, requestId, kind, owner⟩, database, -, hprn⟩ := hstep
  obtain ⟨victim, row, -, -, -, -, -, -, rfl⟩ := pruneOldestClosed_spec hprn
  obtain ⟨hown, hoths⟩ := h
  have hleave (hnone : kind = none ∨ owner ≠ runId) turn :
      recalled runId turn (start turn) (earlier ++
        [.pruned ⟨observation.key.threadId, turnId, requestId⟩ kind owner]) =
          recalled runId turn (start turn) earlier :=
    recalled_pruned_of_not (hnone.imp id .inl)
  unfold Reconciliation.suppress
  dsimp only
  split
  · have hsame := hleave (.inl rfl)
    exact ⟨hown.trans (hsame _).symm, fun turn hturn hstore =>
      (hoths turn hturn hstore).trans (hsame _).symm⟩
  · rename_i kind
    split_ifs with hrun hturn hstore
    · have hsame := hleave (.inr hrun)
      exact ⟨hown.trans (hsame _).symm, fun turn hturn hstore =>
        (hoths turn hturn hstore).trans (hsame _).symm⟩
    · -- the request is of the turn of the snapshot
      obtain rfl := not_not.1 hrun
      subst hturn
      refine ⟨?_, fun turn hoth hstore => ?_⟩
      · refine (TurnState.suppress_suppressed _ _).trans (.trans ?_ recalled_pruned.symm)
        exact congrArg (fun list => (({ suppressed := list } : TurnState).suppress ⟨requestId, kind⟩).suppressed) hown
      · exact (hoths turn hoth hstore).trans (recalled_pruned_of_not (.inr (.inr (.symm hoth)))).symm
    · -- the request is of another turn, whose state is stored
      obtain rfl := not_not.1 hrun
      have haway : (⟨observation.key.threadId, turnId, requestId⟩ : RequestKey).turn ≠
          observation.key := fun heq => hturn (congrArg TurnKey.turnId heq)
      refine ⟨hown.trans (recalled_pruned_of_not (.inr (.inr haway))).symm, fun turn hoth hturnStored => ?_⟩
      change (TurnState.load (TurnState.save _ _ _ _) turn _).suppressed = _
      change (TurnState.load (TurnState.save _ _ _ _) turn _).stored at hturnStored
      rw [TurnState.load_save] at hturnStored ⊢
      split_ifs at hturnStored ⊢ with hsame
      · subst hsame
        refine (TurnState.suppress_suppressed _ _).trans (.trans ?_ recalled_pruned.symm)
        exact congrArg (fun list => (({ suppressed := list } : TurnState).suppress
          ⟨requestId, kind⟩).suppressed) (hoths _ haway hstore)
      · exact (hoths turn hoth hturnStored).trans (recalled_pruned_of_not (.inr (.inr (.symm hsame)))).symm
    · have haway : (⟨observation.key.threadId, turnId, requestId⟩ : RequestKey).turn ≠
          observation.key := fun heq => hturn (congrArg TurnKey.turnId heq)
      refine ⟨hown.trans (recalled_pruned_of_not (.inr (.inr haway))).symm, fun turn hoth hturnStored => ?_⟩
      refine (hoths turn hoth hturnStored).trans (recalled_pruned_of_not (.inr (.inr ?_))).symm
      rintro rfl
      exact hstore hturnStored

lemma recalls_of_prunes (h : Reaches (PruneStep runId observation) before events after)
    (hpre : Recalls runId start observation.key earlier before) :
    Recalls runId start observation.key (earlier ++ events) after :=
  h.invariant_trace (P := Recalls runId start observation.key)
    (fun _ _ _ _ hscene hstep => hstep.recalls hscene) hpre

lemma not_mem_of_prunes (h : Reaches (PruneStep runId observation) before events after)
    (hmem : event ∈ events) :
    ∃ key kind owner, event = .pruned key kind owner := by
  refine h.trace (P := fun events _ => ∀ event ∈ events, ∃ key kind owner,
    event = .pruned key kind owner) (fun done s events t hdone hstep => ?_) ?_ event hmem
  · rw [forall_mem_append]
    refine ⟨hdone, ?_⟩
    obtain ⟨reconciliation, scope, pruned, database, -, -⟩ := hstep
    rintro event hev
    exact ⟨_, _, _, mem_singleton.1 hev⟩
  · exact nofun

/-- **A step of a snapshot keeps account of what is suppressed.** -/
theorem SnapshotStep.recalls
    (hstep : SnapshotStep encoding runId observation known capped before events after)
    (h : Recalls runId start observation.key earlier before) :
    Recalls runId start observation.key (earlier ++ events) after := by
  cases hstep with
  | closed database state step closing =>
    refine ⟨h.own.trans ?_, fun turn hturn hstore => (h.others turn hturn hstore).trans ?_⟩
    · rw [recalled_append]
      rfl
    · rw [recalled_append]
      rfl
  | crowded _ _ _ hprn => exact recalls_of_prunes hprn h
  | inserted _ middle pruned hprn =>
    have hmid := recalls_of_prunes hprn h
    refine ⟨hmid.own.trans ?_, fun turn hturn hstore =>
      (hmid.others turn hturn hstore).trans ?_⟩
    · rw [← append_assoc, recalled_append _ _ _ (earlier ++ pruned)]
      rfl
    · rw [← append_assoc, recalled_append _ _ _ (earlier ++ pruned)]
      rfl

theorem SnapshotStep.insertsAllowed
    (hstep : SnapshotStep encoding runId observation known capped before events after)
    (h : Recalls runId start observation.key earlier before) :
    InsertsAllowed runId start earlier events := by
  intro done key rest heq
  have hmem : SnapshotEvent.inserted key ∈ events := by
    rw [heq]
    exact mem_append_right _ mem_cons_self
  cases hstep with
  | closed => cases mem_singleton.1 hmem
  | crowded _ _ _ hprn =>
    obtain ⟨_, _, _, hprn⟩ := not_mem_of_prunes hprn hmem
    cases hprn
  | inserted _ middle pruned hprn request regIndex requests _ _ hallow =>
    refine ⟨[], done, rfl, ?_⟩
    have hkey : key = observation.key.request request.id := by
      rcases mem_append.1 hmem with hearly | hlast
      · obtain ⟨_, _, _, hev⟩ := not_mem_of_prunes hprn hearly
        cases hev
      · exact SnapshotEvent.inserted.inj (mem_singleton.1 hlast)
    rw [hkey, append_nil]
    change request.id ∉ (recalled runId observation.key (start observation.key) earlier).map (·.id)
    rw [← h.own, ← suppresses_eq_false_iff]
    exact hallow

lemma InsertsAllowed.append {more}
    (h : InsertsAllowed runId start earlier events)
    (hmore : InsertsAllowed runId start (earlier ++ events) more) :
    InsertsAllowed runId start earlier (events ++ more) := by
  intro done key rest heq
  rcases append_split heq with ⟨between, hevs⟩ | ⟨later, rfl, hlat⟩
  · exact h done key between hevs
  · obtain ⟨checked, room, rfl, hnew⟩ := hmore later key rest hlat
    rw [append_assoc] at hnew
    exact ⟨events ++ checked, room, (append_assoc _ _ _).symm, hnew⟩

/-- **The steps of a snapshot keep account, and insert what is not suppressed.** -/
theorem recalls_of_steps {own}
    (h : Reaches (SnapshotStep encoding runId observation known capped) before events after)
    (hpre : Recalls runId start observation.key (earlier ++ own) before)
    (hown : InsertsAllowed runId start earlier own) :
    Recalls runId start observation.key (earlier ++ (own ++ events)) after ∧
      InsertsAllowed runId start earlier (own ++ events) := by
  refine h.invariant_trace
    (P := fun events scene => Recalls runId start observation.key (earlier ++ events) scene ∧
      InsertsAllowed runId start earlier events)
    (fun done scene events next hscene hstep => ?_) ⟨hpre, hown⟩
  rw [← append_assoc]
  exact ⟨hstep.recalls hscene.1, hscene.2.append (hstep.insertsAllowed hscene.1)⟩

lemma PruneStep.rows (hstep : PruneStep runId observation before events after) :
    RowStep before.1.requests events after.1.requests := by
  obtain ⟨reconciliation, scope, pruned, database, -, hprn⟩ := hstep
  obtain ⟨victim, row, hrow, rfl, -, hcl, hkind, hrun, rfl⟩ := pruneOldestClosed_spec hprn
  change RowStep _ _ (Reconciliation.suppress runId observation _ pruned).database.requests
  rw [Reconciliation.suppress_requests, ← hkind, ← hrun]
  exact .pruned _ _ row hrow hcl

lemma SnapshotStep.rows
    (hstep : SnapshotStep encoding runId observation known capped before events after) :
    Reaches RowStep before.1.requests events after.1.requests := by
  have hprunes {scene scene' : Scene} {pruned : List SnapshotEvent}
      (hprn : Reaches (PruneStep runId observation) scene pruned scene') :
      Reaches RowStep scene.1.requests pruned scene'.1.requests := by
    induction hprn with
    | refl => exact .refl _
    | next head _ ih => exact .next head.rows ih
  cases hstep with
  | closed database state step closing hkey hrun hcls =>
    refine .single (.closed _ _ _ (Table.keys_updateWhere _ _ _) fun other row hrow => ?_)
    change (Table.updateWhere _ _ _).get? _ = some row at hrow
    rw [Table.get?_updateWhere] at hrow
    obtain ⟨old, hold, rfl⟩ := map_eq_some_iff.1 hrow
    split_ifs with htakes
    · refine .inr ⟨?_, isClosed_row_of_closing hcls old⟩
      rw [← hkey]
      exact (of_decide_eq_true htakes).1
    · exact .inl hold
  | crowded _ _ _ hprn => exact hprunes hprn
  | inserted _ middle _ hprn request regIndex requests _ _ _ _ hinsert =>
    exact (hprunes hprn).trans (.single (.inserted _ _ _ _ hinsert))

lemma SnapshotStep.not_began
    (hstep : SnapshotStep encoding runId observation known capped before events after)
    (turn : TurnKey) : .began turn ∉ events := by
  intro hmem
  cases hstep with
  | closed => cases mem_singleton.1 hmem
  | crowded _ _ _ hprn =>
    obtain ⟨_, _, _, hev⟩ := not_mem_of_prunes hprn hmem
    cases hev
  | inserted _ _ _ hprn =>
    rcases mem_append.1 hmem with hearly | hlast
    · obtain ⟨_, _, _, hev⟩ := not_mem_of_prunes hprn hearly
      cases hev
    · cases mem_singleton.1 hlast

lemma bounded_of_requests {next} (h : next.requests = database.requests)
    (hbd : Bounded database) : Bounded next :=
  bounded_of_count_le (fun scope key => le_of_eq (RetentionScope.count_congr (by rw [h]) scope key)) hbd

end Scenes

section Deliveries

variable {encoding : Encoding} {runId : String} {observation : TurnObservation}
  {database next : RequestDatabase} {start : TurnKey → List SuppressedRequest}
  {earlier : List SnapshotEvent}

/-- The list of each turn whose state is stored is what the events have left of it. -/
def AllRecalled (runId : String) (start : TurnKey → List SuppressedRequest)
    (events : List SnapshotEvent) (database : RequestDatabase) : Prop :=
  ∀ turn, (TurnState.load database turn runId).stored →
    (TurnState.load database turn runId).suppressed = recalled runId turn (start turn) events

/-- How an incarnation begins. -/
def beginning (runId : String) (observation : TurnObservation) (database : RequestDatabase) : List SnapshotEvent :=
  if continues runId observation database then [] else [.began observation.key]

lemma recalls_start (h : AllRecalled runId start earlier database) :
    Recalls runId start observation.key (earlier ++ beginning runId observation database)
      (database, startState runId observation database) := by
  unfold beginning startState
  split_ifs with hcont
  · rw [append_nil]
    exact ⟨h _ (of_decide_eq_true hcont).1, fun turn _ hstore => h turn hstore⟩
  · refine ⟨?_, fun turn hturn hstore => (h turn hstore).trans ?_⟩
    · rw [recalled_append]
      exact (if_pos rfl).symm
    · rw [recalled_append]
      exact (if_neg (Ne.symm hturn)).symm

/-- **What an applied snapshot does to the rows and to the lists.** -/
theorem Applied.traced (h : Applied encoding runId observation database next)
    (hbd : Bounded database) (hlists : AllRecalled runId start earlier database) :
    ∃ events, Reaches RowStep database.requests events next.requests ∧
      (∀ turn, .began turn ∈ events ↔ turn = observation.key ∧ continues runId observation database = false) ∧
      AllRecalled runId start (earlier ++ events) next ∧ InsertsAllowed runId start earlier events ∧
      Bounded next := by
  obtain ⟨known, closed, steps, last, pruned, skipped, -, hcl, hsteps, rfl⟩ := h.run True fun _ => hbd
  have hrun := hcl.trans hsteps
  have hbegan : ∀ turn, .began turn ∉ closed ++ steps :=
    hrun.trace (P := fun events _ => ∀ turn, .began turn ∉ events)
      (fun done s events t hdone hstep turn hmem =>
        (mem_append.1 hmem).elim (hdone turn) (hstep.not_began turn))
      fun turn => not_mem_nil
  have hnone : InsertsAllowed runId start earlier (beginning runId observation database) := by
    intro done key rest heq
    have hmem : SnapshotEvent.inserted key ∈ beginning runId observation database := by
      rw [heq]
      exact mem_append_right _ mem_cons_self
    unfold beginning at hmem
    split_ifs at hmem
    · cases hmem
    · cases mem_singleton.1 hmem
  obtain ⟨hrecalls, hallow⟩ := recalls_of_steps hrun (recalls_start hlists) hnone
  refine ⟨beginning runId observation database ++ (closed ++ steps), ?_, fun turn => ?_, ?_, hallow, ?_⟩
  · have hbeginning : Reaches RowStep database.requests (beginning runId observation database)
        database.requests := by
      unfold beginning
      split_ifs
      · exact .refl _
      · exact .single (.began _ _)
    refine hbeginning.trans ?_
    rw [addMarks_requests]
    have hrows : ∀ {before after : Scene} {events : List SnapshotEvent},
        Reaches (SnapshotStep encoding runId observation known True) before events after →
          Reaches RowStep before.1.requests events after.1.requests := by
      intro before after events hrch
      induction hrch with
      | refl => exact .refl _
      | next head _ ih => exact head.rows.trans ih
    exact hrows hrun
  · unfold beginning
    rw [mem_append, or_iff_left (hbegan turn)]
    split_ifs with hcont
    · rw [hcont]
      exact ⟨nofun, fun hnot => by cases hnot.2⟩
    · rw [mem_singleton, Bool.eq_false_iff.2 hcont]
      exact ⟨fun heq => ⟨SnapshotEvent.began.inj heq, rfl⟩, fun heq => congrArg _ heq.1⟩
  · intro turn hstore
    rw [TurnState.load_congr (addMarks_turns _ _ _ _), TurnState.load_save] at hstore ⊢
    split_ifs at hstore ⊢ with hturn
    · rw [hturn]
      exact hrecalls.own
    · exact hrecalls.others turn hturn hstore
  · refine bounded_of_requests (addMarks_requests _ _ _ _) ?_
    exact hrun.invariant (P := fun scene => Bounded scene.1)
      (fun _ _ _ hscene hstep => hstep.bounded_after trivial hscene) hbd

/-- Deliveries keep the bounds, keep account of what is suppressed, and insert what is not. -/
lemma deliveries_traced (observations) (hbd : Bounded database)
    (hlists : AllRecalled runId start earlier database) :
    Bounded (observations.foldl (deliver encoding runId) database) ∧
      ∃ trace, Delivered encoding runId database observations trace ∧
        ∀ done events rest, trace = done ++ events :: rest →
          InsertsAllowed runId start (earlier ++ done.flatten) events := by
  induction observations generalizing database earlier with
  | nil => exact ⟨hbd, [], .nil _, fun done events rest heq => by simp at heq⟩
  | cons observation observations ih =>
    obtain ⟨events, hrows, hbegan, hnext, hallow, hkept⟩ : ∃ events,
        Reaches RowStep database.requests events (deliver encoding runId database observation).requests ∧
        (∀ turn, .began turn ∈ events ↔ turn = observation.key ∧
          isApplied encoding runId database observation ∧
          continues runId observation database = false) ∧
        AllRecalled runId start (earlier ++ events) (deliver encoding runId database observation) ∧
        InsertsAllowed runId start earlier events ∧
        Bounded (deliver encoding runId database observation) := by
      cases happ : isApplied encoding runId database observation with
      | true =>
        obtain ⟨events, hrows, hbegan, hrest⟩ := (applied_of_isApplied happ).traced hbd hlists
        refine ⟨events, hrows, fun turn => (hbegan turn).trans ?_, hrest⟩
        rw [and_iff_right (rfl : true)]
      | false =>
        rw [deliver_of_not_isApplied happ]
        refine ⟨[], .refl _, fun turn => ?_, ?_, ?_, hbd⟩
        · exact ⟨nofun, fun hnot => by cases hnot.2.1⟩
        · rwa [append_nil]
        · intro done key rest heq
          simp at heq
    obtain ⟨hlast, trace, hdel, hinserts⟩ := ih hkept hnext
    refine ⟨hlast, events :: trace, .cons _ _ _ _ _ hrows hbegan hdel, ?_⟩
    intro done now rest heq
    cases done with
    | nil =>
      obtain ⟨rfl, -⟩ := cons.inj heq
      rw [flatten_nil, append_nil]
      exact hallow
    | cons first done =>
      obtain ⟨rfl, htrace⟩ := cons.inj heq
      rw [flatten_cons, ← append_assoc]
      exact hinserts done now rest htrace

end Deliveries

lemma bounded_emptyDatabase : Bounded emptyDatabase := fun _ _ _ => Nat.zero_le _

variable {scope : RetentionScope}

section Crowded

variable {encoding : Encoding} {runId : String} {observation : TurnObservation}
  {known : List (String × KnownRow)} {reconciliation : Reconciliation} {index : ℤ}
  {victim : RequestKey × RequestRow} {rest : List (RequestKey × RequestRow)}

lemma pruneOldestClosed_head {key}
    (hents : database.requests.entries = victim :: rest)
    (hcover : scope.covers key victim.1) (hcl : victim.2.isClosed)
    (hfst : ∀ entry ∈ rest, createdBefore entry victim = false) :
    ∃ requests : Table RequestKey RequestRow, requests.entries = rest ∧
      pruneOldestClosed database key scope =
        some (⟨victim.1.turnId, victim.1.requestId, victim.2.kind, victim.2.runId⟩,
          { database with requests := requests }) := by
  refine ⟨database.requests.deleteWhere fun row _ => row = victim.1, ?_, ?_⟩
  · have hnd := database.requests.nodup
    rw [hents, map_cons, nodup_cons] at hnd
    unfold Table.deleteWhere
    dsimp only
    rw [hents, filter_cons_of_neg (by simp), filter_eq_self]
    intro entry hent
    rw [Bool.not_eq_true', decide_eq_false_iff_not]
    intro heq
    exact hnd.1 (mem_map.2 ⟨entry, hent, heq⟩)
  · have htest : (scope.covers key victim.1 && victim.2.status.any (·.isTerminal)) :=
      Bool.and_eq_true_iff.2 ⟨hcover, hcl⟩
    have hfold (rows : List (RequestKey × RequestRow))
        (hrows : ∀ entry ∈ rows, createdBefore entry victim = false) :
        rows.foldl (fun first row => if createdBefore row first then row else first) victim =
          victim := by
      induction rows with
      | nil => rfl
      | cons row rows ih =>
        rw [foldl_cons, hrows row mem_cons_self, if_neg Bool.false_ne_true]
        exact ih fun entry hent => hrows entry (mem_cons_of_mem _ hent)
    unfold pruneOldestClosed Table.selectWhere
    rw [hents, filter_cons, if_pos htest]
    unfold Table.firstBy
    dsimp only
    rw [hfold _ fun entry hent => hfst entry (mem_of_mem_filter hent)]
    rfl

variable (encoding runId observation known reconciliation index) in
lemma applyRequest_crowded (request)
    (hents : reconciliation.database.requests.entries = victim :: rest)
    (hcover : ∀ entry ∈ victim :: rest, RetentionScope.turn.covers observation.key entry.1)
    (hfull : maxRequestsPerTurn ≤ (victim :: rest).length) (hroom : rest.length < maxRequestsPerThread)
    (hcl : victim.2.isClosed)
    (hfst : ∀ entry ∈ rest, createdBefore entry victim = false)
    (hnew : observation.key.request request.id ∉ rest.map Prod.fst)
    (hkn : known.lookup request.id = none)
    (hallow : reconciliation.state.suppresses request.id = false) :
    ∃ next, Reconciliation.applyRequest encoding runId observation known (reconciliation, index)
        request = some (next, index + 1) ∧
      next.database.requests.entries = rest ++ [(observation.key.request request.id,
        Reconciliation.newRow encoding runId observation request index)] ∧
      ∀ kind, victim.2.kind = some kind → victim.2.runId = runId →
        victim.1.turnId = observation.key.turnId →
          next.state = reconciliation.state.suppress ⟨victim.1.requestId, kind⟩ := by
  obtain ⟨requests, hreqs, hprn⟩ :=
    pruneOldestClosed_head hents (hcover victim mem_cons_self) hcl hfst
  have hturn : ¬ (reconciliation.database.requests.countWhere fun row _ =>
      RetentionScope.turn.covers observation.key row) < RetentionScope.turn.limit := by
    unfold Table.countWhere Table.selectWhere
    rw [hents, filter_eq_self.2 fun entry hent => hcover entry hent]
    exact Nat.not_lt.2 hfull
  set pruned : PrunedRow := ⟨victim.1.turnId, victim.1.requestId, victim.2.kind, victim.2.runId⟩
  set made := Reconciliation.suppress runId observation
    { reconciliation with
      database := { reconciliation.database with requests := requests }
      report := { reconciliation.report with pruned := reconciliation.report.pruned + 1 } } pruned
    with hmade
  have hmadeRequests : made.database.requests = requests :=
    Reconciliation.suppress_requests runId observation _ pruned
  have hthr : (made.database.requests.countWhere fun row _ =>
      RetentionScope.thread.covers observation.key row) < RetentionScope.thread.limit := by
    unfold Table.countWhere Table.selectWhere
    rw [hmadeRequests, hreqs]
    exact (length_filter_le _ _).trans_lt hroom
  have hmakes : reconciliation.makeRoom runId observation = (made, true) := by
    have hone : reconciliation.makeRoomIn runId observation .turn = (made, true) := by
      unfold Reconciliation.makeRoomIn
      rw [if_neg hturn, hprn]
    unfold Reconciliation.makeRoom
    rw [hone]
    unfold Reconciliation.makeRoomIn
    dsimp only
    rw [if_pos hthr]
  have hmiss : observation.key.request request.id ∉ made.database.requests.keys := by
    unfold Js.OrderedMap.keys
    rw [hmadeRequests, hreqs]
    exact hnew
  have hinsert row :
      made.database.requests.insertRow (observation.key.request request.id) row =
        some (made.database.requests.set (observation.key.request request.id) row) := by
    unfold Table.insertRow
    rw [Js.OrderedMap.get?_eq_none_iff.2 hmiss]
    rfl
  unfold Reconciliation.applyRequest
  rw [hkn]
  dsimp only
  rw [hallow, if_neg Bool.false_ne_true]
  unfold Reconciliation.insert
  rw [hmakes]
  dsimp only
  rw [hinsert]
  refine ⟨_, rfl, ?_, fun kind hkind hrun hhere => ?_⟩
  · dsimp only
    rw [Js.OrderedMap.entries_set_of_not_has hmiss, hmadeRequests, hreqs]
  · dsimp only
    rw [hmade]
    unfold Reconciliation.suppress
    split
    · rename_i hnone
      cases hkind.symm.trans hnone
    · rename_i found hget
      obtain rfl := some.inj (hkind.symm.trans hget)
      rw [if_neg (not_not.2 hrun), if_pos hhere]

lemma foldl_applyAbsent_closed {listed} (entries : List (String × KnownRow))
    (hcl : ∀ entry ∈ entries, entry.2.status = some .expired) :
    (entries.foldl (Reconciliation.applyAbsent runId observation listed) reconciliation).database =
      reconciliation.database := by
  induction entries generalizing reconciliation with
  | nil => rfl
  | cons entry entries ih =>
    rw [foldl_cons, ih fun other hoth => hcl other (mem_cons_of_mem _ hoth)]
    unfold Reconciliation.applyAbsent Reconciliation.closeAbsent
    rw [hcl entry mem_cons_self]
    split_ifs
    · rfl
    · rfl

lemma deliver_of_closed {progress}
    (hdel : observation.key.threadId ∉ database.tombstones)
    (hcont : continues runId observation database)
    (hnewer : (TurnState.load database observation.key runId).appliedSequence < integer observation.turn.sequence)
    (hdigested : observation.turn.digested = [])
    (hcl : ∀ entry ∈ turnRows database observation.key, entry.2.status = some .expired)
    (hprog : observation.turn.requests.foldlM (Reconciliation.applyRequest encoding runId observation
      (turnRows database observation.key)) (⟨database, TurnState.load database observation.key runId, {}⟩,
      ((turnRows database observation.key).map fun entry => entry.2.regIndex + 1).max?.getD 0) = some progress) :
    (deliver encoding runId database observation).requests = progress.1.database.requests := by
  have hgoes := of_decide_eq_true hcont
  have hdecides : decide ((TurnState.load database observation.key runId).stored ∧
      integer observation.incarnation = (TurnState.load database observation.key runId).incarnation) := hcont
  have hrecon : reconcileTurn encoding runId observation (turnRows database observation.key)
      ⟨database, TurnState.load database observation.key runId, {}⟩ =
        some ((turnRows database observation.key).foldl (Reconciliation.applyAbsent runId observation
          (observation.turn.rejected ++ observation.turn.requests.map (·.id) ++ [])) progress.1) := by
    unfold reconcileTurn
    dsimp only
    rw [hprog, hdigested]
    rfl
  unfold deliver applySnapshot
  dsimp only
  rw [if_neg hdel, if_neg fun hold => absurd (hgoes.2 ▸ hold.2) (Int.lt_irrefl _), hdecides,
    if_neg fun hstale => absurd hnewer (Int.not_lt.2 hstale.2)]
  rw [if_pos rfl, if_pos rfl, if_neg fun hvoid => hvoid.2.2 rfl]
  rw [hrecon, map_some, map_some, getD_some, addMarks_requests]
  change ((turnRows database observation.key).foldl _ progress.1).database.requests = _
  rw [foldl_applyAbsent_closed _ hcl]

end Crowded

def expiredRow (createdAt : ℕ) : RequestRow :=
  { kind := some .question, status := some .expired, reason := some .turnEnded, runId := "run"
    version := 1, regIndex := createdAt, format := 1, body := "{}", outcome := none
    createdAt := createdAt, updatedAt := createdAt, resolvedAt := some createdAt }

/-- A request whose name tells how late it was created. -/
def expiredEntry (turnId : String) (createdAt : ℕ) : RequestKey × RequestRow :=
  (⟨"thread", turnId, String.ofList (List.replicate createdAt 'r')⟩, expiredRow createdAt)

def expiredRows (turnId : String) (first count : ℕ) : List (RequestKey × RequestRow) :=
  (List.range' first count).map (expiredEntry turnId)

lemma expiredRows_succ (turnId : String) (first count : ℕ) :
    expiredRows turnId first (count + 1) = expiredEntry turnId first :: expiredRows turnId (first + 1) count := by
  unfold expiredRows
  rw [range'_succ, map_cons]

lemma nodup_expiredRows (turnId : String) (first count : ℕ) :
    ((expiredRows turnId first count).map Prod.fst).Nodup := by
  unfold expiredRows
  rw [List.map_map]
  refine List.Nodup.map (fun i j heq => ?_) nodup_range'
  have hnames := congrArg (fun key : RequestKey => key.requestId.toList.length) heq
  simpa [expiredEntry] using hnames

variable {first count : ℕ}

lemma not_mem_expiredRows (hname : requestId.toList.all (fun letter => letter = 'r') = false)
    (key : TurnKey) :
    key.request requestId ∉ (expiredRows turnId first count).map Prod.fst := by
  obtain ⟨letter, hletter, hoth⟩ := all_eq_false.1 hname
  unfold expiredRows
  rw [List.map_map]
  intro hmem
  obtain ⟨i, -, heq⟩ := mem_map.1 hmem
  have hid : String.ofList (List.replicate i 'r') = requestId := congrArg RequestKey.requestId heq
  rw [← hid, String.toList_ofList] at hletter
  exact hoth (decide_eq_true (eq_of_mem_replicate hletter))

variable {entry : RequestKey × RequestRow} {createdAt : ℕ}

lemma not_createdBefore (h : (createdAt : ℤ) < entry.2.createdAt) :
    createdBefore entry (expiredEntry turnId createdAt) = false := by
  have hlate : (expiredEntry turnId createdAt).2.createdAt = createdAt := rfl
  refine decide_eq_false ?_
  rintro (hpre | ⟨hsame, -⟩)
  · omega
  · omega

lemma createdAt_of_mem (h : entry ∈ expiredRows turnId first count) :
    (first : ℤ) ≤ entry.2.createdAt ∧ entry.1.turn = ⟨"thread", turnId⟩ ∧
      entry.2.status = some .expired := by
  obtain ⟨i, hi, rfl⟩ := mem_map.1 h
  have hle := (mem_range'_1.1 hi).1
  refine ⟨?_, rfl, rfl⟩
  change (first : ℤ) ≤ (i : ℤ)
  omega

/-- The list of a turn that has pruned 32 questions, with one that is still listed first. -/
def fullList : List SuppressedRequest :=
  ⟨"forgotten", .question⟩ ::
    (List.range 31).map fun i => ⟨String.ofList (List.replicate i 's'), .question⟩

/-- A turn that is full, and its list as well. -/
def forgetfulDatabase : RequestDatabase where
  requests := ⟨expiredRows "turn" 1 512, nodup_expiredRows "turn" 1 512⟩
  turns := ⟨[(sampleTurn, ⟨"run", 1, fullList, 1⟩)], nodup_singleton _⟩
  marks := ⟨[], nodup_nil⟩
  tombstones := []
  threads := []

def lateQuestion (requestId : String) : ObservedRequest :=
  ⟨requestId, .codex, .question "{}", .pending, none⟩

/-- A later snapshot of the turn, in the same incarnation. -/
def laterSnapshot (key : TurnKey) (requests : List ObservedRequest) : TurnObservation :=
  ⟨key, 1, 2, 1000, 1000, ⟨2, requests, [], []⟩⟩

lemma turnRows_closed {key}
    (h : ∀ entry ∈ database.requests.entries, entry.2.status = some .expired) :
    ∀ entry ∈ turnRows database key, entry.2.status = some .expired := by
  intro entry hent
  obtain ⟨row, hrow, rfl⟩ := mem_map.1 hent
  exact h row (Table.mem_selectWhere.1 hrow).1

lemma lookup_turnRows {key}
    (h : key.request requestId ∉ database.requests.entries.map Prod.fst) :
    (turnRows database key).lookup requestId = none := by
  rw [Reconciliation.lookup_eq_none_iff]
  intro hmem
  obtain ⟨entry, hent, rfl⟩ := mem_map.1 hmem
  obtain ⟨row, hrow, rfl⟩ := mem_map.1 hent
  obtain ⟨hthere, htest⟩ := Table.mem_selectWhere.1 hrow
  obtain ⟨hthr, hturn⟩ := of_decide_eq_true htest
  refine h (mem_map.2 ⟨row, hthere, ?_⟩)
  obtain ⟨⟨threadId, turnId, rowId⟩, value⟩ := row
  obtain rfl : threadId = key.threadId := hthr
  obtain rfl : turnId = key.turnId := hturn
  rfl

lemma covers_expiredRows {key} (hkey : scope.covers key ⟨"thread", turnId, ""⟩) :
    ∀ entry ∈ expiredRows turnId first count, scope.covers key entry.1 := by
  intro entry hent
  obtain ⟨i, -, rfl⟩ := mem_map.1 hent
  exact hkey

lemma not_createdBefore_expiredRows {other} (h : createdAt < first) :
    ∀ entry ∈ expiredRows other first count, createdBefore entry (expiredEntry turnId createdAt) = false := by
  intro entry hent
  have hlate := (createdAt_of_mem hent).1
  exact not_createdBefore (by omega)

/-- A snapshot of the full turn lists another question before one that was pruned. -/
def relisting : TurnObservation :=
  laterSnapshot sampleTurn [lateQuestion "new", lateQuestion "forgotten"]

lemma get?_forgotten :
    ((deliver plainEncoding "run" forgetfulDatabase relisting).requests.get?
      (sampleTurn.request "forgotten")).isSome := by
  set known := turnRows forgetfulDatabase sampleTurn
  set index : ℤ := (known.map fun entry => entry.2.regIndex + 1).max?.getD 0 with hidx
  have hcl : ∀ entry ∈ known, entry.2.status = some .expired :=
    turnRows_closed fun entry hent => (createdAt_of_mem hent).2.2
  have hlookup {requestId} (hname : requestId.toList.all (fun letter => letter = 'r') = false) :
      known.lookup requestId = none := lookup_turnRows (not_mem_expiredRows hname _)
  have hcover : ∀ {first count : ℕ}, ∀ entry ∈ expiredRows "turn" first count,
      RetentionScope.turn.covers relisting.key entry.1 := covers_expiredRows (by decide)
  -- the first question takes the place of the oldest row, and of the oldest name on the list
  obtain ⟨next, hnext, hents, hstate⟩ := applyRequest_crowded plainEncoding "run" relisting known
    ⟨forgetfulDatabase, TurnState.load forgetfulDatabase sampleTurn "run", {}⟩
    index (lateQuestion "new") (expiredRows_succ "turn" 1 511)
    (forall_mem_cons.2 ⟨by decide, hcover⟩) (by simp [expiredRows, maxRequestsPerTurn])
    (by simp [expiredRows, maxRequestsPerThread]) rfl (not_createdBefore_expiredRows (by decide))
    (not_mem_expiredRows (by decide) _) (hlookup (by decide)) (by decide +kernel)
  have hforgot : next.state.suppresses "forgotten" = false := by
    rw [hstate .question rfl rfl rfl]
    decide +kernel
  rw [expiredRows_succ, cons_append] at hents
  -- the second one takes the place of the next row
  have hnot : relisting.key.request "forgotten" ∉ (expiredRows "turn" 3 510 ++
      [(relisting.key.request "new", Reconciliation.newRow plainEncoding "run" relisting
        (lateQuestion "new") index)]).map Prod.fst := by
    rw [map_append, mem_append, not_or]
    exact ⟨not_mem_expiredRows (by decide) _, by decide⟩
  obtain ⟨last, hlast, hrows, -⟩ := applyRequest_crowded plainEncoding "run" relisting known next
    (index + 1) (lateQuestion "forgotten") hents (forall_mem_cons.2 ⟨by decide, forall_mem_append.2
      ⟨hcover, forall_mem_singleton.2 (by decide)⟩⟩)
    (by simp [expiredRows, maxRequestsPerTurn]) (by simp [expiredRows, maxRequestsPerThread]) rfl
    (forall_mem_append.2 ⟨not_createdBefore_expiredRows (by decide),
      forall_mem_singleton.2 (not_createdBefore (by decide))⟩)
    hnot (hlookup (by decide)) hforgot
  have hprog : relisting.turn.requests.foldlM
      (Reconciliation.applyRequest plainEncoding "run" relisting known)
      (⟨forgetfulDatabase, TurnState.load forgetfulDatabase sampleTurn "run", {}⟩,
        index) = some (last, index + 1 + 1) := by
    change List.foldlM _ _ [lateQuestion "new", lateQuestion "forgotten"] = _
    rw [foldlM_cons, hnext, bind_eq_bind, bind_some, foldlM_cons, hlast]
    rfl
  rw [deliver_of_closed (by decide) (by decide +kernel) (by decide +kernel) rfl hcl hprog,
    ← Js.OrderedMap.mem_keys_iff]
  unfold Js.OrderedMap.keys
  rw [hrows, map_append]
  exact mem_append_right _ (mem_singleton_self _)

/-- A turn without a name that is full, and an older row of another turn. -/
def unnamedDatabase : RequestDatabase where
  requests := ⟨expiredEntry "turn" 0 :: expiredRows "" 1 512, by
    rw [map_cons, nodup_cons]
    refine ⟨fun hmem => ?_, nodup_expiredRows "" 1 512⟩
    obtain ⟨entry, hentry, heq⟩ := mem_map.1 hmem
    have hturn := (createdAt_of_mem hentry).2.1
    rw [heq] at hturn
    exact absurd hturn (by decide)⟩
  turns := ⟨[(⟨"thread", ""⟩, ⟨"run", 1, [], 1⟩)], nodup_singleton _⟩
  marks := ⟨[], nodup_nil⟩
  tombstones := []
  threads := []

/-- How many rows a turn holds. -/
def turnSize (database : RequestDatabase) (key : TurnKey) : ℕ :=
  database.requests.keys.countP fun row => row.turn = key

lemma countP_expiredRows (turnId : String) (first count : ℕ) :
    ((expiredRows turnId first count).map Prod.fst).countP (fun row => row.turn = ⟨"thread", turnId⟩) = count := by
  rw [countP_eq_length.2 fun row hrow => ?_]
  · simp [expiredRows]
  · obtain ⟨entry, hent, rfl⟩ := mem_map.1 hrow
    exact decide_eq_true (createdAt_of_mem hent).2.1

lemma turnSize_unnamed :
    turnSize unnamedDatabase ⟨"thread", ""⟩ = 512 ∧
      turnSize (deliver plainEncoding "run" unnamedDatabase
        (laterSnapshot ⟨"thread", ""⟩ [lateQuestion "new"])) ⟨"thread", ""⟩ = 513 := by
  set observation := laterSnapshot ⟨"thread", ""⟩ [lateQuestion "new"]
  set known := turnRows unnamedDatabase ⟨"thread", ""⟩
  set index : ℤ := (known.map fun entry => entry.2.regIndex + 1).max?.getD 0
  have hcl : ∀ entry ∈ known, entry.2.status = some .expired :=
    turnRows_closed (forall_mem_cons.2 ⟨rfl, fun entry hent => (createdAt_of_mem hent).2.2⟩)
  have hname : (⟨"thread", ""⟩ : TurnKey).request "new" ∉
      unnamedDatabase.requests.entries.map Prod.fst := by
    change _ ∉ (expiredEntry "turn" 0 :: expiredRows "" 1 512).map Prod.fst
    rw [map_cons, mem_cons, not_or]
    exact ⟨by decide, not_mem_expiredRows (by decide) _⟩
  obtain ⟨next, hnext, hrows, -⟩ := applyRequest_crowded plainEncoding "run" observation known
    ⟨unnamedDatabase, TurnState.load unnamedDatabase ⟨"thread", ""⟩ "run", {}⟩ index
    (lateQuestion "new") rfl
    (forall_mem_cons.2 ⟨by decide, covers_expiredRows (by decide)⟩)
    (by simp [expiredRows, maxRequestsPerTurn]) (by simp [expiredRows, maxRequestsPerThread]) rfl
    (not_createdBefore_expiredRows (by decide)) (not_mem_expiredRows (by decide) _)
    (lookup_turnRows hname) (by decide +kernel)
  have hprog : observation.turn.requests.foldlM
      (Reconciliation.applyRequest plainEncoding "run" observation known)
      (⟨unnamedDatabase, TurnState.load unnamedDatabase ⟨"thread", ""⟩ "run", {}⟩, index) =
        some (next, index + 1) := by
    change List.foldlM _ _ [lateQuestion "new"] = _
    rw [foldlM_cons, hnext]
    rfl
  constructor
  · change ((expiredEntry "turn" 0 :: expiredRows "" 1 512).map Prod.fst).countP _ = 512
    rw [map_cons, countP_cons_of_neg (by decide), countP_expiredRows]
  · unfold turnSize
    rw [deliver_of_closed (by decide) (by decide +kernel) (by decide +kernel) rfl hcl hprog]
    unfold Js.OrderedMap.keys
    rw [hrows, map_append, countP_append, countP_expiredRows]
    rfl

end CodevoEditor.RuntimeRequests
