/-
# The life of a stored request

A row that stays in the table is left as it is or takes one step along `RequestStatus.successors`
with a greater version (`RowChange`).
-/

import CodevoEditor.RuntimeRequests.SnapshotSteps

namespace CodevoEditor.RuntimeRequests

open Sql Runs Option

/-- The status may be followed by another, by way of `submitting` if it is resolved. -/
def RequestStatus.leadsTo (status next : RequestStatus) : Bool :=
  status.mayBecome next || status.mayBecome .submitting && next = .resolved && RequestStatus.submitting.mayBecome next

lemma RequestStatus.not_isTerminal_of_leadsTo {status next : RequestStatus}
    (h : status.leadsTo next) : status.isTerminal = false := by
  cases status with
  | pending | submitting => rfl
  | resolved | cancelled | expired | timedOut => cases next <;> cases h

/-- A row is changed as it should be. -/
structure RowChange (before after : RequestRow) : Prop where
  status : ∃ source target, before.status = some source ∧ after.status = some target ∧ source.leadsTo target
  version : before.version < after.version

def RequestRow.isClosed (row : RequestRow) : Bool := row.status.any (·.isTerminal)

lemma RowChange.not_isClosed {before after : RequestRow} (h : RowChange before after) : before.isClosed = false := by
  obtain ⟨source, target, hsource, -, hleads⟩ := h.status
  rw [RequestRow.isClosed, hsource, any_some]
  exact RequestStatus.not_isTerminal_of_leadsTo hleads

/-- What holds of every row. -/
structure RowOk (row : RequestRow) : Prop where
  resolved : row.status = some .resolved → row.format = fullBodyFormat → row.outcome ≠ none
  expired : row.status = some .expired → row.outcome ≠ none → row.reason = some .answerUnconfirmed
  resolvedAt : ∀ status, row.status = some status → (row.resolvedAt.isSome ↔ status.isTerminal)

def RowsOk (requests : Table RequestKey RequestRow) : Prop :=
  ∀ key row, requests.get? key = some row → RowOk row

/-- A closing fits a status: it ends it, a resolution at once brings an outcome, and an
expiry keeps one only as unconfirmed. -/
structure Closes (source : RequestStatus) (closing : Closing) : Prop where
  leadsTo : source.leadsTo closing.status
  terminal : closing.status.isTerminal
  resolved : source = .pending → closing.status = .resolved → ∃ text, closing.outcome = .replace text
  expired : closing.status = .expired → closing.outcome = .clear ∨ closing.reason = some .answerUnconfirmed

variable {closing : Closing} {encoding : Encoding}

lemma closes_of_listed {source} {listing}
    (h : Closing.listed encoding source listing = some closing) :
    Closes source closing := by
  obtain ⟨made, hmade, hrch⟩ := bind_eq_some_iff.1 h
  obtain rfl : made = closing := by
    unfold Closing.reachableFrom at hrch
    dsimp only at hrch
    split_ifs at hrch
    exact some.inj hrch
  unfold Closing.ofListing at hmade
  split at hmade
  · cases hmade
    exact ⟨rfl, rfl, fun _ _ => ⟨_, rfl⟩, nofun⟩
  · cases hmade
    exact ⟨rfl, rfl, nofun, nofun⟩
  · cases hmade
    exact ⟨rfl, rfl, nofun, nofun⟩
  · cases hmade
    exact ⟨rfl, rfl, fun _ _ => ⟨_, rfl⟩, nofun⟩
  · cases hmade
    rename_i status reason
    refine ⟨?_, ?_, fun _ h => ?_, fun _ => .inl rfl⟩
    · cases status <;> rfl
    · cases status <;> rfl
    · cases status <;> cases h
  · cases hmade
    exact ⟨rfl, rfl, nofun, fun _ => .inr rfl⟩
  · cases hmade

lemma closes_of_absent {source} (h : Closing.absent source = some closing) : Closes source closing := by
  cases source with
  | pending =>
    cases h
    exact ⟨rfl, rfl, nofun, fun _ => .inl rfl⟩
  | submitting =>
    cases h
    exact ⟨rfl, rfl, nofun, fun _ => .inr rfl⟩
  | resolved | cancelled | expired | timedOut => cases h

/-- **A row that is closed is changed as it should be.** -/
theorem Closes.row {step : Advance} (h : Closes step.source closing) {key : RequestKey}
    {row} (htakes : step.takes key row) :
    RowChange row (step.row closing row) ∧ RowOk (step.row closing row) ∧ (step.row closing row).isClosed := by
  obtain ⟨-, -, hstat, hver, -⟩ := of_decide_eq_true htakes
  refine ⟨⟨⟨step.source, closing.status, hstat, rfl, h.leadsTo⟩, hver⟩, ⟨?_, ?_, ?_⟩, h.terminal⟩
  · intro hres hfmt hnone
    have hmiss : closing.status = .resolved ∧ closing.outcome.apply row.outcome = none :=
      ⟨some.inj hres, hnone⟩
    unfold Advance.row at hfmt
    dsimp only at hfmt
    rw [decide_eq_true hmiss, if_pos rfl] at hfmt
    cases hfmt
  · intro hexp hsome
    rcases h.expired (some.inj hexp) with hclear | hreason
    · refine absurd ?_ hsome
      unfold Advance.row
      rw [hclear]
      rfl
    · exact hreason
  · intro status hstat
    cases hstat
    exact iff_of_true rfl h.terminal

/-- A row of the table is as it was, or was changed once and is closed now. -/
structure Evolves (start now : Table RequestKey RequestRow) : Prop where
  ok : RowsOk now
  kept : ∀ key before row, start.get? key = some before → now.get? key = some row →
    row = before ∨ RowChange before row ∧ row.isClosed

variable {start now : Table RequestKey RequestRow}

lemma Evolves.refl (hst : RowsOk start) : Evolves start start :=
  ⟨hst, fun _ _ _ hpre hrow => .inl (some.inj (hrow.symm.trans hpre))⟩

lemma Evolves.updateWhere (h : Evolves start now) {test : RequestKey → RequestRow → Bool}
    {change : RequestRow → RequestRow}
    (hchange : ∀ key row, test key row → RowChange row (change row) ∧ RowOk (change row) ∧ (change row).isClosed) :
    Evolves start (now.updateWhere test change) := by
  refine ⟨fun key row hrow => ?_, fun key before row hpre hrow => ?_⟩
  · rw [Table.get?_updateWhere] at hrow
    obtain ⟨old, hold, rfl⟩ := map_eq_some_iff.1 hrow
    split_ifs with htest
    · exact (hchange key old htest).2.1
    · exact h.ok key old hold
  · rw [Table.get?_updateWhere] at hrow
    obtain ⟨old, hold, rfl⟩ := map_eq_some_iff.1 hrow
    split_ifs with htest
    · obtain ⟨hchg, -, hcl⟩ := hchange key old htest
      rcases h.kept key before old hpre hold with rfl | ⟨-, hterm⟩
      · exact .inr ⟨hchg, hcl⟩
      · rw [hchg.not_isClosed] at hterm
        cases hterm
    · exact h.kept key before old hpre hold

variable {database : RequestDatabase}

lemma Evolves.advance (h : Evolves start database.requests) {step : Advance}
    (hcloses : Closes step.source closing) :
    Evolves start (RuntimeRequests.advance database step closing).1.requests :=
  h.updateWhere fun _ _ htakes => hcloses.row htakes

lemma Evolves.deleteWhere (h : Evolves start now) (test : RequestKey → RequestRow → Bool) :
    Evolves start (now.deleteWhere test) := by
  have hold {key} {row} (hrow : (now.deleteWhere test).get? key = some row) : now.get? key = some row := by
    rw [Table.get?_deleteWhere, filter_eq_some_iff] at hrow
    exact hrow.1
  exact ⟨fun key row hrow => h.ok key row (hold hrow),
    fun key before row hpre hrow => h.kept key before row hpre (hold hrow)⟩

lemma Evolves.insertRow (h : Evolves start now) {next}
    {key} {row} (hinsert : now.insertRow key row = some next)
    (hnew : start.get? key = none) (hok : RowOk row) : Evolves start next := by
  obtain ⟨-, hget⟩ := Table.get?_insertRow hinsert
  refine ⟨fun other found hfound => ?_, fun other before found hpre hfound => ?_⟩
  · rw [hget] at hfound
    split_ifs at hfound
    · cases hfound
      exact hok
    · exact h.ok other found hfound
  · rw [hget] at hfound
    split_ifs at hfound with hoth
    · rw [hoth, hnew] at hpre
      cases hpre
    · exact h.kept other before found hpre hfound

namespace Reconciliation

variable {encoding : Encoding} {runId : String} {observation : TurnObservation}
  {known : List (String × KnownRow)}

lemma rowOk_newRow (request) (regIndex : ℤ) : RowOk (newRow encoding runId observation request regIndex) := by
  unfold newRow
  rcases hcls : Closing.listed encoding .pending (.observed request.state) with _ | closing
  · refine ⟨nofun, nofun, fun status hstat => ?_⟩
    cases hstat
    exact iff_of_false Bool.false_ne_true Bool.false_ne_true
  · have hcloses := closes_of_listed hcls
    refine ⟨fun hres hfmt hnone => ?_, fun hexp hsome => ?_, fun status hstat => ?_⟩
    · obtain ⟨text, htext⟩ := hcloses.resolved rfl (some.inj hres)
      change closing.outcome.text = none at hnone
      rw [htext] at hnone
      obtain rfl : text = none := hnone
      change (if ((if closing.outcome.omitsRequiredOutcome then none else
        encodeBody encoding request).isSome) then _ else _) = _ at hfmt
      rw [htext] at hfmt
      cases hfmt
    · rcases hcloses.expired (some.inj hexp) with hclear | hreason
      · refine absurd ?_ hsome
        change closing.outcome.text = none
        rw [hclear]
        rfl
      · exact hreason
    · cases hstat
      exact iff_of_true rfl hcloses.terminal

/-- What is not known of the turn was not there. -/
def KnowsTurn (observation : TurnObservation) (start : Table RequestKey RequestRow)
    (known : List (String × KnownRow)) : Prop :=
  ∀ requestId, known.lookup requestId = none → start.get? (observation.key.request requestId) = none

lemma lookup_eq_none_iff {entries : List (String × KnownRow)} {requestId : String} :
    entries.lookup requestId = none ↔ requestId ∉ entries.map (·.1) := by
  rw [List.lookup_eq_none_iff]
  simp only [List.mem_map, not_exists, not_and]
  constructor
  · intro h entry hent heq
    have := h entry hent
    rw [heq] at this
    simp at this
  · intro h entry hent
    have := h entry hent
    simpa using fun heq => this heq.symm

lemma knowsTurn_of_ids (h : known.map (·.1) = (turnRows database observation.key).map (·.1)) :
    KnowsTurn observation database.requests known := by
  intro requestId hlookup
  rw [lookup_eq_none_iff, h] at hlookup
  by_contra hsome
  obtain ⟨row, hrow⟩ := ne_none_iff_exists'.1 hsome
  refine hlookup (List.mem_map.2 ⟨_, List.mem_map.2 ⟨_, Table.mem_selectWhere.2
    ⟨Js.OrderedMap.get?_eq_some_iff.1 hrow, ?_⟩, rfl⟩, rfl⟩)
  exact decide_eq_true ⟨rfl, rfl⟩

end Reconciliation

variable {events : List SnapshotEvent} {before after : Scene} {observation : TurnObservation}

variable {runId : String}

lemma PruneStep.evolves (h : PruneStep runId observation before events after)
    (hpre : Evolves start before.1.requests) : Evolves start after.1.requests := by
  obtain ⟨reconciliation, scope, pruned, database, -, hprn⟩ := h
  obtain ⟨victim, row, -, -, -, -, -, -, rfl⟩ := pruneOldestClosed_spec hprn
  change Evolves start (Reconciliation.suppress runId observation _ pruned).database.requests
  rw [Reconciliation.suppress_requests]
  exact hpre.deleteWhere fun row _ => row = victim

lemma evolves_of_prunes (h : Reaches (PruneStep runId observation) before events after)
    (hpre : Evolves start before.1.requests) : Evolves start after.1.requests :=
  h.invariant (P := fun scene => Evolves start scene.1.requests)
    (fun _ _ _ hscene hstep => hstep.evolves hscene) hpre

lemma SnapshotStep.evolves {known} {capped : Prop}
    (hkn : Reconciliation.KnowsTurn observation start known)
    (h : SnapshotStep encoding runId observation known capped before events after)
    (hpre : Evolves start before.1.requests) : Evolves start after.1.requests := by
  cases h with
  | closed database state step closing _ _ hcls =>
    rcases hcls with ⟨listing, hlist⟩ | habsent
    · exact hpre.advance (closes_of_listed hlist)
    · exact hpre.advance (closes_of_absent habsent)
  | crowded _ _ _ hprn => exact evolves_of_prunes hprn hpre
  | inserted _ middle _ hprn request regIndex requests _ hnew _ _ hinsert =>
    exact (evolves_of_prunes hprn hpre).insertRow hinsert (hkn request.id hnew)
      (Reconciliation.rowOk_newRow request regIndex)

lemma addMarks_requests (database) (threadId : String) (pruned skipped : ℕ) :
    (addMarks database threadId pruned skipped).requests = database.requests := by
  unfold addMarks
  split_ifs
  · rfl
  · rfl

/-- **A snapshot changes each row at most once, as it should.** -/
theorem evolves_applySnapshot
    {next} {report} (hst : RowsOk database.requests)
    (hnext : applySnapshot encoding runId observation database = some (report, next)) :
    Evolves database.requests next.requests := by
  rcases applySnapshot_cases hnext with ⟨-, rfl⟩ | happ
  · exact Evolves.refl hst
  · obtain ⟨known, closed, events, after, pruned, skipped, hids, hcl, hrun, rfl⟩ :=
      happ.run False fun h => h.elim
    rw [addMarks_requests]
    exact (hcl.trans hrun).invariant (P := fun scene => Evolves database.requests scene.1.requests)
      (fun _ _ _ hscene hstep => hstep.evolves (Reconciliation.knowsTurn_of_ids hids) hscene)
      (Evolves.refl hst)

end CodevoEditor.RuntimeRequests
