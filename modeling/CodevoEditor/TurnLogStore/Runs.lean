/-
# The turn log after every run

The rows of a turn have the numbers from `firstSeq` up to `nextSeq`, and the counters of its row
of `turn_meta` are theirs (`LogOk`).
-/

import CodevoEditor.TurnLogStore.Appends
import CodevoEditor.Runs.Labelled

namespace CodevoEditor.TurnLogStore

open Js Sql Runs List Option OrderedMap Bool

variable {ε δ μ : Type}

namespace TurnLogDatabase

variable {db middle next : TurnLogDatabase δ μ} {turnId : String} {row : TurnMetaRow δ μ}
  {ops : List EncodedOp}

/-- **The invariant of one turn.** -/
structure LogOk (db : TurnLogDatabase δ μ) (turnId : String) (row : TurnMetaRow δ μ) : Prop where
  epoch_pos : 1 ≤ row.writerEpoch
  nextSeq_pos : 1 ≤ row.nextSeq
  stored_iff : ∀ seq, (db.events.get? (turnId, seq)).isSome ↔
    0 < row.eventCount ∧ row.firstSeq ≤ seq ∧ seq < row.nextSeq
  count_eq : row.eventCount = (db.turnEvents turnId).size
  span_eq : 0 < row.eventCount → row.firstSeq + row.eventCount = row.nextSeq
  bytes_eq : row.bytes = db.storedBytes turnId
  digest_le : row.digestThroughSeq ≤ row.nextSeq - 1

/-- **The invariant of the log of a thread.** -/
structure Sound (db : TurnLogDatabase δ μ) : Prop where
  rows : ∀ key row, db.events.get? key = some row → row.bytes = row.payload.length
  logs : ∀ turnId row, db.turnMeta.get? turnId = some row → db.LogOk turnId row
  absent : ∀ turnId, db.turnMeta.get? turnId = none → ∀ seq, db.events.get? (turnId, seq) = none

lemma Sound.empty : (empty : TurnLogDatabase δ μ).Sound := by
  refine ⟨fun key row h => ?_, fun turnId row h => ?_, fun _ _ _ => rfl⟩
  · cases h
  · cases h

lemma LogOk.congr (h : db.LogOk turnId row)
    (hevs : ∀ seq, next.events.get? (turnId, seq) = db.events.get? (turnId, seq))
    (hturn : next.turnEvents turnId = db.turnEvents turnId) : next.LogOk turnId row where
  epoch_pos := h.epoch_pos
  nextSeq_pos := h.nextSeq_pos
  stored_iff := fun seq => by
    rw [hevs]
    exact h.stored_iff seq
  count_eq := by
    rw [hturn]
    exact h.count_eq
  span_eq := h.span_eq
  bytes_eq := by
    unfold storedBytes
    rw [hturn]
    exact h.bytes_eq
  digest_le := h.digest_le

lemma LogOk.of_wrote {other} (h : db.LogOk other row) (hwrote : Wrote turnId ops db next)
    (hne : other ≠ turnId) : next.LogOk other row := by
  refine h.congr (fun seq => hwrote.kept _ fun op _ heq => hne (Prod.mk.inj heq).1) ?_
  exact hwrote.others_eq other hne

lemma rows_of_wrote (h : ∀ key row, db.events.get? key = some row → row.bytes = row.payload.length)
    (hwrote : Wrote turnId ops db next) :
    ∀ key row, next.events.get? key = some row → row.bytes = row.payload.length := by
  intro key found hget
  by_cases hkey : ∃ op ∈ ops, key = (turnId, op.seq)
  · obtain ⟨op, hop, rfl⟩ := hkey
    rw [hwrote.written op hop] at hget
    cases hget
    rfl
  · rw [hwrote.kept key fun op hop heq => hkey ⟨op, hop, heq⟩] at hget
    exact h key found hget

/-- The ops that an append adds, by what is asked of their order. -/
structure OpsOk (ops : List EncodedOp) (nextSeq : ℤ) : Prop where
  pairwise : (ops.map (·.seq)).Pairwise (· < ·)
  consecutive : Consecutive nextSeq ((ops.map (·.seq)).filter (nextSeq ≤ ·))

def newOps (ops : List EncodedOp) (nextSeq : ℤ) : List EncodedOp := ops.filter fun op => nextSeq ≤ op.seq

def oldOps (ops : List EncodedOp) (nextSeq : ℤ) : List EncodedOp := ops.filter fun op => op.seq < nextSeq

variable {nextSeq : ℤ}

lemma OpsOk.new (h : OpsOk ops nextSeq) : Consecutive nextSeq ((newOps ops nextSeq).map (·.seq)) := by
  have hconsec := h.consecutive
  rw [List.filter_map] at hconsec
  exact hconsec

lemma OpsOk.old (h : OpsOk ops nextSeq) : ((oldOps ops nextSeq).map (·.seq)).Nodup := by
  have hnd : (ops.map (·.seq)).Nodup := h.pairwise.imp fun hlt => ne_of_lt hlt
  exact hnd.sublist (filter_sublist.map _)

lemma mem_old_or_new (op) : op ∈ ops ↔ op ∈ oldOps ops nextSeq ++ newOps ops nextSeq := by
  unfold oldOps newOps
  rw [mem_append, mem_filter, mem_filter, decide_eq_true_eq, decide_eq_true_eq]
  constructor
  · intro hmem
    rcases lt_or_ge op.seq nextSeq with hlt | hge
    · exact .inl ⟨hmem, hlt⟩
    · exact .inr ⟨hmem, hge⟩
  · rintro (⟨hmem, -⟩ | ⟨hmem, -⟩)
    · exact hmem
    · exact hmem

/-- **What an append writes**: the ops, and the row that counts them. -/
structure Appended (request : AppendAgentTurnLogRequest ε δ μ) (ops : List EncodedOp)
    (row : TurnMetaRow δ μ) (db next : TurnLogDatabase δ μ) (after : TurnMetaRow δ μ) : Prop where
  after_eq : ∃ bytes firstSeq, after = appended row request
    (row.nextSeq + (newOps ops row.nextSeq).length) (row.eventCount + (newOps ops row.nextSeq).length)
    bytes firstSeq
  wrote : ∃ middle, Wrote request.scope.turnId ops db middle ∧ next = middle.putTurnMeta request.scope.turnId after
  old_there : ∀ op ∈ ops, op.seq < row.nextSeq → (db.events.get? (request.scope.turnId, op.seq)).isSome
  logOk : next.LogOk request.scope.turnId after

lemma planOps_spec {plan} (h : planOps ops row = .ok plan) :
    plan.appends = newOps ops row.nextSeq ∧ plan.replacements = oldOps ops row.nextSeq ∧
      (∀ op ∈ ops, op.seq < row.nextSeq → row.eventCount ≠ 0 ∧ row.firstSeq ≤ op.seq) ∧
      plan.firstSeq = if row.eventCount = 0 then
        ((newOps ops row.nextSeq).head?.map EncodedOp.seq).getD row.firstSeq else row.firstSeq := by
  unfold planOps at h
  dsimp only at h
  split_ifs at h with hany
  all_goals
    cases h
    refine ⟨rfl, rfl, fun op hop hold => ?_, ?_⟩
    · rw [List.any_eq_true] at hany
      push Not at hany
      have hgood := hany op (mem_filter.2 ⟨hop, decide_eq_true hold⟩)
      rw [Ne, or_eq_true, decide_eq_true_eq, decide_eq_true_eq] at hgood
      push Not at hgood
      exact hgood
    · split_ifs
      rfl

lemma turnBytes_spec {bytes replaced added replacement value}
    (h : turnBytes bytes replaced added replacement = .ok value) :
    value = bytes - replaced + added + replacement := by
  unfold turnBytes at h
  split at h
  · rename_i found hget
    cases h
    obtain ⟨hget, -⟩ := filter_eq_some_iff.1 hget
    obtain ⟨second, hsnd, hthird⟩ := bind_eq_some_iff.1 hget
    obtain ⟨first, hfst, hsnd⟩ := bind_eq_some_iff.1 hsnd
    unfold checkedI64 at hfst hsnd hthird
    split_ifs at hfst hsnd hthird
    cases hfst
    cases hsnd
    cases hthird
    rfl
  · cases h

lemma isSome_of_wrote (hnew : Consecutive nextSeq ((newOps ops nextSeq).map (·.seq)))
    (hwrote : Wrote turnId ops db next)
    (hthere : ∀ op ∈ ops, op.seq < nextSeq → (db.events.get? (turnId, op.seq)).isSome)
    (seq : ℤ) :
    (next.events.get? (turnId, seq)).isSome ↔ (db.events.get? (turnId, seq)).isSome ∨
      (nextSeq ≤ seq ∧ seq < nextSeq + (newOps ops nextSeq).length) := by
  have hseqs : seq ∈ (newOps ops nextSeq).map (·.seq) ↔ _ := hnew.mem_iff
  rw [length_map] at hseqs
  rw [← hseqs]
  by_cases hop : ∃ op ∈ ops, op.seq = seq
  · obtain ⟨op, hop, rfl⟩ := hop
    rw [hwrote.written op hop, isSome_some]
    refine iff_of_true rfl ?_
    rcases lt_or_ge op.seq nextSeq with hlt | hge
    · exact .inl (hthere op hop hlt)
    · exact .inr (mem_map_of_mem (mem_filter.2 ⟨hop, decide_eq_true hge⟩))
  · rw [hwrote.kept (turnId, seq) fun op hmem heq => hop ⟨op, hmem, ((Prod.mk.inj heq).2).symm⟩]
    refine (or_iff_left ?_).symm
    intro hseq
    obtain ⟨op, hmem, rfl⟩ := mem_map.1 hseq
    exact hop ⟨op, (mem_filter.1 hmem).1, rfl⟩

/-- The first number of a turn that had no events is the number of the first that is new. -/
lemma firstSeq_of_plan {firstSeq}
    (hnew : Consecutive row.nextSeq ((newOps ops row.nextSeq).map (·.seq)))
    (h : firstSeq = if row.eventCount = 0 then
      ((newOps ops row.nextSeq).head?.map EncodedOp.seq).getD row.firstSeq else row.firstSeq) :
    (row.eventCount = 0 ∧ 0 < (newOps ops row.nextSeq).length → firstSeq = row.nextSeq) ∧
      (¬ (row.eventCount = 0 ∧ 0 < (newOps ops row.nextSeq).length) → firstSeq = row.firstSeq) := by
  cases hops : newOps ops row.nextSeq with
  | nil =>
    rw [hops, head?_nil, map_none, getD_none, ite_self] at h
    refine ⟨fun hpos => absurd hpos.2 (lt_irrefl 0), fun _ => h⟩
  | cons op rest =>
    rw [hops] at hnew h
    have hseq : op.seq = row.nextSeq := hnew.1
    rw [head?_cons, map_some, getD_some, hseq] at h
    refine ⟨fun hpos => ?_, fun hnot => ?_⟩
    · rw [h, if_pos hpos.1]
    · rw [h, if_neg fun hzero => hnot ⟨hzero, Nat.succ_pos _⟩]

variable {request : AppendAgentTurnLogRequest ε δ μ} {receipt : AppendAgentTurnLogReceipt}

lemma appendToTurn_spec
    (hrows : ∀ key row, db.events.get? key = some row → row.bytes = row.payload.length)
    (hlog : db.LogOk request.scope.turnId row) (hops : OpsOk ops row.nextSeq)
    (h : db.appendToTurn request ops row = .ok (receipt, next)) :
    ∃ after, receipt = after.receipt ∧ Appended request ops row db next after := by
  obtain ⟨plan, hplan, h⟩ := bind_eq_ok.1 h
  obtain ⟨replaced, hreplaced, h⟩ := bind_eq_ok.1 h
  obtain ⟨bytes, hby, h⟩ := bind_eq_ok.1 h
  obtain ⟨nextSeq, hnextSeq, h⟩ := bind_eq_ok.1 h
  obtain ⟨eventCount, heventCount, h⟩ := bind_eq_ok.1 h
  obtain ⟨replacedDb, hreplace, h⟩ := bind_eq_ok.1 h
  obtain ⟨middle, hinsert, h⟩ := bind_eq_ok.1 h
  cases h
  obtain ⟨happends, hreplacements, hold, hfirstSeq⟩ := planOps_spec hplan
  rw [happends] at hnextSeq heventCount hinsert
  rw [happends, hreplacements] at hby
  rw [hreplacements] at hreplaced hreplace
  obtain ⟨rfl, -, -⟩ := eq_of_checkedCounter hnextSeq
  obtain ⟨rfl, -, -⟩ := eq_of_checkedCounter heventCount
  have hby := turnBytes_spec hby
  obtain ⟨hwrote, hthere, hsize, hstore⟩ := replaceEvents_spec hops.old hrows hreplaced hreplace
  obtain ⟨hwrote', hnew, hsize', hstore'⟩ := insertEvents_spec hops.new.nodup hinsert
  have hboth : Wrote request.scope.turnId ops db middle := by
    refine (hwrote.append hwrote' fun op hop hmem => ?_).congr_mem mem_old_or_new
    have hlt := of_decide_eq_true (mem_filter.1 hop).2
    have hge := (hops.new.mem_iff.1 hmem).1
    omega
  have hthere' : ∀ op ∈ ops, op.seq < row.nextSeq →
      (db.events.get? (request.scope.turnId, op.seq)).isSome := fun op hop hlt =>
    hthere op (mem_filter.2 ⟨hop, decide_eq_true hlt⟩)
  have hiff := isSome_of_wrote hops.new hboth hthere'
  have hfst := firstSeq_of_plan hops.new hfirstSeq
  have hcnt := hlog.count_eq
  have hspan := hlog.span_eq
  have hpos := hlog.nextSeq_pos
  have hdigest := hlog.digest_le
  refine ⟨_, rfl, ⟨_, _, rfl⟩, ⟨middle, hboth, rfl⟩, hthere', ?_⟩
  unfold appended
  constructor
  · exact hlog.epoch_pos
  · dsimp only
    omega
  · intro seq
    have hseq := hiff seq
    rw [hlog.stored_iff] at hseq
    refine hseq.trans ?_
    dsimp only
    omega
  · change _ = ((middle.turnEvents request.scope.turnId).size : ℤ)
    push_cast
    omega
  · intro hposn
    dsimp only at hposn ⊢
    omega
  · change _ = (middle.storedBytes request.scope.turnId : ℤ)
    have hbytes_eq := hlog.bytes_eq
    dsimp only
    omega
  · change (if request.digest.isSome then
        row.nextSeq + (newOps ops row.nextSeq).length - 1 else row.digestThroughSeq) ≤
      row.nextSeq + (newOps ops row.nextSeq).length - 1
    split_ifs
    · omega
    · omega

lemma Sound.putTurnMeta {after} (h : db.Sound) (haft : db.LogOk turnId after) :
    (db.putTurnMeta turnId after).Sound := by
  refine ⟨h.rows, fun other row hrow => ?_, fun other hrow => ?_⟩
  · change (db.turnMeta.set turnId after).get? other = some row at hrow
    rw [get?_set] at hrow
    split_ifs at hrow with heq
    · cases hrow
      rw [heq]
      exact haft.congr (fun _ => rfl) rfl
    · exact (h.logs other row hrow).congr (fun _ => rfl) rfl
  · change (db.turnMeta.set turnId after).get? other = none at hrow
    rw [get?_set] at hrow
    split_ifs at hrow
    exact h.absent other hrow

lemma LogOk.lifecycle (h : db.LogOk turnId row) (lifecycle) : db.LogOk turnId { row with lifecycle := lifecycle } :=
  ⟨h.epoch_pos, h.nextSeq_pos, h.stored_iff, h.count_eq, h.span_eq, h.bytes_eq, h.digest_le⟩

lemma validateReceipt_receipt (h : db.LogOk turnId row) : validateReceipt row.receipt = .ok () := by
  have hpos := h.nextSeq_pos
  have hby := h.bytes_eq
  unfold validateReceipt TurnMetaRow.receipt agentTurnLogSeqBase
  dsimp only
  rw [if_neg (by omega)]

lemma LogOk.reopened (h : db.LogOk turnId row) (request) : db.LogOk turnId (row.reopened request) := by
  have hepoch := h.epoch_pos
  refine ⟨?_, h.nextSeq_pos, h.stored_iff, h.count_eq, h.span_eq, h.bytes_eq, h.digest_le⟩
  change 1 ≤ row.writerEpoch + 1
  omega

lemma LogOk.fresh (h : ∀ seq, db.events.get? (turnId, seq) = none) (loss)
    (prompt) : db.LogOk turnId (freshRow loss prompt) := by
  have hsize : (db.turnEvents turnId).size = 0 := by
    refine size_eq_zero_iff.2 fun key => ?_
    unfold turnEvents
    rw [Table.get?_restrict]
    split_ifs with hkey
    · rw [← of_decide_eq_true hkey] at h
      exact h key.2
    · rfl
  have hby : db.storedBytes turnId = 0 := by
    have hents : (db.turnEvents turnId).entries = [] := length_eq_zero_iff.1 hsize
    unfold storedBytes OrderedMap.total
    rw [hents]
    rfl
  refine ⟨le_rfl, le_rfl, fun seq => ?_, ?_, fun hpos => ?_, ?_, le_rfl⟩
  · rw [h seq]
    exact iff_of_false false_ne_true fun hpos => lt_irrefl 0 hpos.1
  · rw [hsize]
    rfl
  · exact absurd hpos (lt_irrefl 0)
  · rw [hby]
    rfl

/-- The row of a turn once it is opened. -/
def openedRow (db : TurnLogDatabase δ μ) (request : OpenAgentTurnLogRequest) : TurnMetaRow δ μ :=
  match db.turnMeta.get? request.scope.turnId with
  | some existing => existing.reopened request
  | none => freshRow request.priorLoss request.prompt

lemma openedRow_of_get? (request)
    (h : db.turnMeta.get? request.scope.turnId = some row) :
    db.openedRow request = row.reopened request := by
  unfold openedRow
  rw [h]

lemma Sound.openedRow (h : db.Sound) (request) : db.LogOk request.scope.turnId (db.openedRow request) := by
  unfold TurnLogDatabase.openedRow
  split
  · rename_i existing hexist
    exact (h.logs _ _ hexist).reopened request
  · rename_i hnone
    exact .fresh (h.absent _ hnone) _ _

/-- **What the store does with an open**: it refuses it, or the turn has another writer. -/
theorem storeOpen_spec (codec : LogCodec ε δ μ) (db : TurnLogDatabase δ μ)
    (request : OpenAgentTurnLogRequest) :
    (∃ error, db.storeOpen codec request = (.error error, db)) ∨
      ((db.storeOpen codec request).2 =
          db.putTurnMeta request.scope.turnId (db.openedRow request) ∧
        ∀ lease, (db.storeOpen codec request).1 = .ok lease → lease = (db.openedRow request).lease) := by
  unfold storeOpen
  cases validateOpenRequest codec request with
  | error error => exact .inl ⟨error, rfl⟩
  | ok valid =>
    refine .inr ⟨rfl, fun lease hlease => ?_⟩
    dsimp only at hlease
    cases hval : validateLease codec (db.openLease request).1 with
    | error error =>
      rw [hval] at hlease
      cases hlease
    | ok valid =>
      rw [hval] at hlease
      exact (Except.ok.inj hlease).symm

lemma Sound.storeOpen (h : db.Sound) (codec : LogCodec ε δ μ) (request : OpenAgentTurnLogRequest) :
    (db.storeOpen codec request).2.Sound := by
  rcases storeOpen_spec codec db request with ⟨error, heq⟩ | ⟨heq, -⟩
  · rw [heq]
    exact h
  · rw [heq]
    exact h.putTurnMeta (h.openedRow request)

variable {codec : LogCodec ε δ μ} [DecidableEq μ]

/-- **What an append does.** -/
inductive AppendStep (codec : LogCodec ε δ μ) (db : TurnLogDatabase δ μ)
    (request : AppendAgentTurnLogRequest ε δ μ) (row : TurnMetaRow δ μ) :
    AppendAgentTurnLogReceipt → TurnLogDatabase δ μ → Prop
  | repeated (sealed : row.sealed) (lifecycle_eq : row.lifecycle = request.lifecycle)
    (ops_eq : request.ops = []) (nextSeq_eq : row.nextSeq = request.expectedNextSeq) :
    AppendStep codec db request row row.receipt db
  | lifecycle (lifecycle : μ) (sealed : row.sealed) (missing : row.lifecycle = none)
    (lifecycle_eq : request.lifecycle = some lifecycle) (ops_eq : request.ops = [])
    (nextSeq_eq : row.nextSeq = request.expectedNextSeq) :
    AppendStep codec db request row row.receipt
      (db.putTurnMeta request.scope.turnId { row with lifecycle := some lifecycle })
  | appended (ops : List EncodedOp) (after : TurnMetaRow δ μ) (next : TurnLogDatabase δ μ)
    (unsealed : row.sealed = false)
    (ops_eq : ops = request.ops.map fun entry =>
      ⟨entry.seq, codec.eventKindCode entry.event, codec.encodeEvent entry.event⟩)
    (nextSeq_eq : row.nextSeq = request.expectedNextSeq) (ok : OpsOk ops row.nextSeq)
    (appended : Appended request ops row db next after) :
    AppendStep codec db request row after.receipt next

omit [DecidableEq μ] in
lemma validateOpOrder_of_validateAppendRequest (h : validateAppendRequest codec request = .ok ()) :
    validateOpOrder request.ops request.expectedNextSeq = .ok () := by
  obtain ⟨-, -, h⟩ := bind_eq_ok.1 h
  obtain ⟨-, -, h⟩ := bind_eq_ok.1 h
  obtain ⟨-, -, h⟩ := bind_eq_ok.1 h
  obtain ⟨⟨⟩, hord, -⟩ := bind_eq_ok.1 h
  exact hord

lemma append_spec (hsound : db.Sound)
    (hord : validateOpOrder request.ops request.expectedNextSeq = .ok ())
    (h : db.append codec request = .ok (receipt, next)) :
    ∃ row, db.turnMeta.get? request.scope.turnId = some row ∧
      row.writerEpoch = request.writerEpoch ∧ AppendStep codec db request row receipt next := by
  obtain ⟨ops, hops, h⟩ := bind_eq_ok.1 h
  have hencoded := encodeOps_spec hops
  split at h
  · cases h
  rename_i row hrow
  refine ⟨row, hrow, ?_⟩
  split_ifs at h with hepoch hsealed hgap
  · refine ⟨not_not.1 hepoch, ?_⟩
    unfold appendLifecycleToSealedTurn at h
    split at h
    · cases h
    rename_i lifecycle hlife
    obtain ⟨hlife, honly⟩ := filter_eq_some_iff.1 hlife
    have hemp : request.ops = [] := isEmpty_iff.1 ((and_eq_true _ _).mp honly).1
    split_ifs at h with hgap
    split at h
    · rename_i stored hstore
      split_ifs at h with hsame
      cases h
      exact .repeated hsealed (by rw [hstore, hlife, hsame]) hemp (not_not.1 hgap)
    · rename_i hmiss
      cases h
      exact .lifecycle lifecycle hsealed hmiss hlife hemp (not_not.1 hgap)
  · refine ⟨not_not.1 hepoch, ?_⟩
    have hseq := not_not.1 hgap
    obtain ⟨-, hpair, hconsec⟩ := validateOpOrder_spec hord
    rw [← hseq] at hconsec
    have hseqs : ops.map (·.seq) = request.ops.map (·.seq) := by
      rw [hencoded, List.map_map]
      rfl
    have hok : OpsOk ops row.nextSeq := by
      constructor
      · rw [hseqs]
        exact hpair
      · rw [hseqs]
        exact hconsec
    obtain ⟨after, rfl, happended⟩ := appendToTurn_spec hsound.rows (hsound.logs _ _ hrow) hok h
    rw [not_eq_true] at hsealed
    exact .appended ops after next hsealed hencoded hseq hok happended

omit [DecidableEq μ] in
lemma Sound.appendStep (h : db.Sound) (hrow : db.turnMeta.get? request.scope.turnId = some row)
    (hstep : AppendStep codec db request row receipt next) : next.Sound := by
  rcases hstep with ⟨-⟩ | ⟨lifecycle, -⟩ | ⟨ops, after, _, -, -, -, -, happended⟩
  · exact h
  · exact h.putTurnMeta ((h.logs _ _ hrow).lifecycle _)
  · obtain ⟨middle, hwrote, rfl⟩ := happended.wrote
    refine ⟨fun key found hget => rows_of_wrote h.rows hwrote key found hget,
      fun other found hget => ?_, fun other hnone => ?_⟩
    · change (middle.turnMeta.set request.scope.turnId after).get? other = some found at hget
      rw [get?_set] at hget
      split_ifs at hget with heq
      · cases hget
        rw [heq]
        exact happended.logOk
      · rw [hwrote.turnMeta_eq] at hget
        exact ((h.logs other found hget).of_wrote hwrote heq).congr (fun _ => rfl) rfl
    · change (middle.turnMeta.set request.scope.turnId after).get? other = none at hnone
      rw [get?_set] at hnone
      split_ifs at hnone with heq
      rw [hwrote.turnMeta_eq] at hnone
      intro seq
      change middle.events.get? (other, seq) = none
      rw [hwrote.kept _ fun op _ hkey => heq (Prod.mk.inj hkey).1]
      exact h.absent other hnone seq

variable (codec) in
/-- **What the store does with an append**: it refuses it and leaves the log as it was, or
it answers with a receipt. -/
theorem storeAppend_spec (hsound : db.Sound) (request) :
    (∃ error, db.storeAppend codec request = (.error error, db)) ∨
      ∃ receipt row next, db.storeAppend codec request = (.ok receipt, next) ∧
        db.turnMeta.get? request.scope.turnId = some row ∧
        row.writerEpoch = request.writerEpoch ∧ AppendStep codec db request row receipt next := by
  unfold storeAppend
  cases hval : validateAppendRequest codec request with
  | error error => exact .inl ⟨error, rfl⟩
  | ok valid =>
    cases happend : db.append codec request with
    | error error => exact .inl ⟨error, rfl⟩
    | ok answer =>
      obtain ⟨receipt, next⟩ := answer
      obtain ⟨row, hrow, hepoch, hstep⟩ :=
        append_spec hsound (validateOpOrder_of_validateAppendRequest hval) happend
      refine .inr ⟨receipt, row, next, ?_, hrow, hepoch, hstep⟩
      have hreceipt : validateReceipt receipt = .ok () := by
        rcases hstep with ⟨-⟩ | ⟨-⟩ | ⟨_, _, _, -, -, -, -, happended⟩
        · exact validateReceipt_receipt (hsound.logs _ _ hrow)
        · exact validateReceipt_receipt (hsound.logs _ _ hrow)
        · exact validateReceipt_receipt happended.logOk
      dsimp only
      rw [hreceipt]
      rfl

variable (codec) in
lemma Sound.storeAppend (h : db.Sound) (request) : (db.storeAppend codec request).2.Sound := by
  rcases storeAppend_spec codec h request with
    ⟨error, heq⟩ | ⟨receipt, row, next, heq, hrow, -, hstep⟩
  · rw [heq]
    exact h
  · rw [heq]
    exact h.appendStep hrow hstep

omit [DecidableEq μ] in
lemma get?_putTurnMeta (db : TurnLogDatabase δ μ) (turnId : String) (row : TurnMetaRow δ μ)
    (other : String) : (db.putTurnMeta turnId row).turnMeta.get? other =
      if other = turnId then some row else db.turnMeta.get? other :=
  get?_set db.turnMeta turnId other row

omit [DecidableEq μ] in
lemma AppendStep.frame (h : AppendStep codec db request row receipt next) {other}
    (hne : other ≠ request.scope.turnId) :
    next.turnMeta.get? other = db.turnMeta.get? other ∧
      ∀ seq, next.events.get? (other, seq) = db.events.get? (other, seq) := by
  rcases h with ⟨-⟩ | ⟨lifecycle, -⟩ | ⟨ops, after, _, -, -, -, -, happended⟩
  · exact ⟨rfl, fun _ => rfl⟩
  · refine ⟨?_, fun _ => rfl⟩
    rw [get?_putTurnMeta, if_neg hne]
  · obtain ⟨middle, hwrote, rfl⟩ := happended.wrote
    refine ⟨?_, fun seq => hwrote.kept _ fun op _ hkey => hne (Prod.mk.inj hkey).1⟩
    rw [get?_putTurnMeta, if_neg hne, hwrote.turnMeta_eq]

omit [DecidableEq μ] in
lemma AppendStep.epoch (h : AppendStep codec db request row receipt next)
    (hrow : db.turnMeta.get? request.scope.turnId = some row) :
    ∃ after, next.turnMeta.get? request.scope.turnId = some after ∧ after.writerEpoch = row.writerEpoch := by
  rcases h with ⟨-⟩ | ⟨lifecycle, -⟩ | ⟨ops, after, _, -, -, -, -, happended⟩
  · exact ⟨row, hrow, rfl⟩
  · refine ⟨{ row with lifecycle := some lifecycle }, ?_, rfl⟩
    rw [get?_putTurnMeta, if_pos rfl]
  · obtain ⟨middle, -, rfl⟩ := happended.wrote
    refine ⟨after, ?_, ?_⟩
    · rw [get?_putTurnMeta, if_pos rfl]
    · obtain ⟨bytes, firstSeq, rfl⟩ := happended.after_eq
      rfl

/-- An open, with the lease that it hands out, or an append. -/
inductive Serves (codec : LogCodec ε δ μ) :
    TurnLogDatabase δ μ → List (String × AgentTurnLogLease δ) → TurnLogDatabase δ μ → Prop
  | opened (db : TurnLogDatabase δ μ) (request : OpenAgentTurnLogRequest) :
    Serves codec db
      ((db.storeOpen codec request).1.toOption.toList.map fun lease => (request.scope.turnId, lease))
      (db.storeOpen codec request).2
  | appended (db : TurnLogDatabase δ μ) (request : AppendAgentTurnLogRequest ε δ μ) :
    Serves codec db [] (db.storeAppend codec request).2

variable {leases : List (String × AgentTurnLogLease δ)}

lemma Sound.serves (h : db.Sound) (hstep : Serves codec db leases next) : next.Sound := by
  rcases hstep with ⟨request⟩ | ⟨request⟩
  · exact h.storeOpen codec request
  · exact h.storeAppend codec request

lemma Serves.epoch_le (hsound : db.Sound) (h : Serves codec db leases next)
    (hrow : db.turnMeta.get? turnId = some row) :
    ∃ after, next.turnMeta.get? turnId = some after ∧ row.writerEpoch ≤ after.writerEpoch := by
  rcases h with ⟨request⟩ | ⟨request⟩
  · rcases storeOpen_spec codec db request with ⟨error, heq⟩ | ⟨heq, -⟩
    · rw [heq]
      exact ⟨row, hrow, le_rfl⟩
    · rw [heq, get?_putTurnMeta]
      split_ifs with hturn
      · refine ⟨_, rfl, ?_⟩
        rw [openedRow_of_get? request (hturn ▸ hrow)]
        change row.writerEpoch ≤ row.writerEpoch + 1
        omega
      · exact ⟨row, hrow, le_rfl⟩
  · rcases storeAppend_spec codec hsound request with
      ⟨error, heq⟩ | ⟨receipt, found, after, heq, hget, -, hstep⟩
    · rw [heq]
      exact ⟨row, hrow, le_rfl⟩
    · rw [heq]
      by_cases hturn : turnId = request.scope.turnId
      · rw [hturn] at hrow ⊢
        obtain rfl : row = found := some.inj (hrow.symm.trans hget)
        obtain ⟨after, haft, hepoch⟩ := hstep.epoch hrow
        exact ⟨after, haft, hepoch.ge⟩
      · rw [(hstep.frame hturn).1]
        exact ⟨row, hrow, le_rfl⟩

omit [DecidableEq μ] in
/-- **A lease is of a later writer than any before.** -/
theorem lease_of_storeOpen {request} {lease}
    (h : (db.storeOpen codec request).1 = .ok lease) :
    (∀ row, db.turnMeta.get? request.scope.turnId = some row → row.writerEpoch < lease.writerEpoch) ∧
      ∃ after, (db.storeOpen codec request).2.turnMeta.get? request.scope.turnId = some after ∧
        after.writerEpoch = lease.writerEpoch := by
  rcases storeOpen_spec codec db request with ⟨error, heq⟩ | ⟨heq, hlease⟩
  · rw [heq] at h
    cases h
  · obtain rfl := hlease lease h
    refine ⟨fun row hrow => ?_, _, by rw [heq, get?_putTurnMeta, if_pos rfl], rfl⟩
    rw [openedRow_of_get? request hrow]
    change row.writerEpoch < row.writerEpoch + 1
    omega

/-- The leases of a turn are of writers one later than the other, none later than the turn's. -/
def Leased (leases : List (String × AgentTurnLogLease δ)) (db : TurnLogDatabase δ μ) : Prop :=
  leases.Pairwise (fun first second => first.1 = second.1 →
      first.2.writerEpoch < second.2.writerEpoch) ∧
    ∀ entry ∈ leases, ∃ row, db.turnMeta.get? entry.1 = some row ∧ entry.2.writerEpoch ≤ row.writerEpoch

lemma Leased.serves {before} (hsound : db.Sound)
    (h : Leased before db) (hstep : Serves codec db leases next) :
    Leased (before ++ leases) next := by
  have hkept : ∀ entry ∈ before, ∃ row, next.turnMeta.get? entry.1 = some row ∧
      entry.2.writerEpoch ≤ row.writerEpoch := by
    intro entry hent
    obtain ⟨row, hrow, hle⟩ := h.2 entry hent
    obtain ⟨after, haft, hle'⟩ := hstep.epoch_le hsound hrow
    exact ⟨after, haft, hle.trans hle'⟩
  rcases hstep with ⟨request⟩ | ⟨request⟩
  · cases hlease : (db.storeOpen codec request).1 with
    | error error =>
      change Leased (before ++ []) _
      rw [append_nil]
      exact ⟨h.1, hkept⟩
    | ok lease =>
      obtain ⟨hlat, after, haft, hepoch⟩ := lease_of_storeOpen hlease
      refine ⟨pairwise_append.2 ⟨h.1, pairwise_singleton _ _, ?_⟩, ?_⟩
      · intro first hfst second hsnd hturn
        obtain rfl := mem_singleton.1 hsnd
        obtain ⟨row, hrow, hle⟩ := h.2 first hfst
        rw [hturn] at hrow
        exact hle.trans_lt (hlat row hrow)
      · intro entry hent
        rcases mem_append.1 hent with hent | hent
        · exact hkept entry hent
        · obtain rfl := mem_singleton.1 hent
          exact ⟨after, haft, hepoch.ge⟩
  · rw [append_nil]
    exact ⟨h.1, hkept⟩

/-- **What stays of a sealed turn**: all but its writer, its loss, its prompt and a lifecycle
that it does not have yet. -/
structure StaysSealed (turnId : String) (row : TurnMetaRow δ μ) (db later : TurnLogDatabase δ μ) :
    Prop where
  events_eq : ∀ seq, later.events.get? (turnId, seq) = db.events.get? (turnId, seq)
  row_eq : ∃ epoch loss prompt lifecycle, later.turnMeta.get? turnId =
      some { row with
        writerEpoch := epoch
        loss := loss
        prompt := prompt
        lifecycle := lifecycle } ∧
    ∀ stored, row.lifecycle = some stored → lifecycle = some stored

omit [DecidableEq μ] in
lemma StaysSealed.refl (hrow : db.turnMeta.get? turnId = some row) : StaysSealed turnId row db db :=
  ⟨fun _ => rfl, row.writerEpoch, row.loss, row.prompt, row.lifecycle, hrow, fun _ h => h⟩

lemma StaysSealed.serves {later} (h : StaysSealed turnId row db later)
    (hsealed : row.sealed) (hsound : later.Sound) (hstep : Serves codec later leases next) :
    StaysSealed turnId row db next := by
  obtain ⟨hevs, epoch, loss, prompt, lifecycle, hrow, hlife⟩ := h
  rcases hstep with ⟨request⟩ | ⟨request⟩
  · rcases storeOpen_spec codec later request with ⟨error, heq⟩ | ⟨heq, -⟩
    · rw [heq]
      exact ⟨hevs, epoch, loss, prompt, lifecycle, hrow, hlife⟩
    · rw [heq]
      by_cases hturn : turnId = request.scope.turnId
      · have hopen := openedRow_of_get? request (hturn ▸ hrow)
        have hnext := get?_putTurnMeta later request.scope.turnId (later.openedRow request) turnId
        rw [if_pos hturn, hopen] at hnext
        exact ⟨hevs, _, _, _, lifecycle, by rw [hopen]; exact hnext, hlife⟩
      · refine ⟨hevs, epoch, loss, prompt, lifecycle, ?_, hlife⟩
        rw [get?_putTurnMeta, if_neg hturn]
        exact hrow
  · rcases storeAppend_spec codec hsound request with
      ⟨error, heq⟩ | ⟨receipt, found, after, heq, hget, -, happend⟩
    · rw [heq]
      exact ⟨hevs, epoch, loss, prompt, lifecycle, hrow, hlife⟩
    · rw [heq]
      by_cases hturn : turnId = request.scope.turnId
      · rw [← hturn] at hget
        obtain rfl := some.inj (hrow.symm.trans hget)
        rcases happend with ⟨-⟩ | ⟨added, -, hmiss, -, -, -⟩ | ⟨_, _, _, hunseal, -, -, -, -⟩
        · exact ⟨hevs, epoch, loss, prompt, lifecycle, hrow, hlife⟩
        · refine ⟨hevs, epoch, loss, prompt, some added, ?_, fun stored hstore => ?_⟩
          · rw [get?_putTurnMeta, if_pos hturn]
          · have hnone : lifecycle = none := hmiss
            rw [hlife stored hstore] at hnone
            cases hnone
        · exact absurd (hunseal.symm.trans hsealed) false_ne_true
      · obtain ⟨hmeta, hkept⟩ := happend.frame hturn
        refine ⟨fun seq => (hkept seq).trans (hevs seq), epoch, loss, prompt, lifecycle, ?_, hlife⟩
        rw [hmeta]
        exact hrow

lemma StaysSealed.of_reaches {later} (hsound : db.Sound)
    (hrow : db.turnMeta.get? turnId = some row) (hsealed : row.sealed)
    (h : Reaches (Serves codec) db leases later) :
    StaysSealed turnId row db later := by
  have hboth := h.invariant (P := fun db' => db'.Sound ∧ StaysSealed turnId row db db')
    (fun _ _ _ hs hstep => ⟨hs.1.serves hstep, hs.2.serves hsealed hs.1 hstep⟩)
    ⟨hsound, .refl hrow⟩
  exact hboth.2

variable (codec) in
lemma storeAppend_sealed (hsound : db.Sound) (request : AppendAgentTurnLogRequest ε δ μ)
    (hrow : db.turnMeta.get? request.scope.turnId = some row) (hsealed : row.sealed) :
    ∃ lifecycle, (db.storeAppend codec request).2.turnMeta.get? request.scope.turnId =
        some { row with lifecycle := lifecycle } ∧
      (row.lifecycle ≠ none → lifecycle = row.lifecycle) := by
  rcases storeAppend_spec codec hsound request with
    ⟨error, heq⟩ | ⟨receipt, found, after, heq, hget, -, hstep⟩
  · rw [heq]
    exact ⟨row.lifecycle, hrow, fun _ => rfl⟩
  · rw [heq]
    obtain rfl : row = found := some.inj (hrow.symm.trans hget)
    rcases hstep with ⟨-⟩ | ⟨added, -, hmiss, -, -, -⟩ | ⟨_, _, _, hunseal, -, -, -, -⟩
    · exact ⟨row.lifecycle, hrow, fun _ => rfl⟩
    · refine ⟨some added, ?_, fun hthere => absurd hmiss hthere⟩
      rw [get?_putTurnMeta, if_pos rfl]
    · exact absurd (hunseal.symm.trans hsealed) false_ne_true

end TurnLogDatabase

open TurnLogDatabase

/-- **The turn log is in order after every run**: numbers without gaps, counters of what is there,
and a digest that goes no further. -/
theorem turn_log_is_sound [DecidableEq μ] {codec : LogCodec ε δ μ}
    {leases : List (String × AgentTurnLogLease δ)} {db : TurnLogDatabase δ μ}
    (h : Reaches (Serves codec) .empty leases db) :
    (∀ turnId row, db.turnMeta.get? turnId = some row →
      (∀ seq, (db.events.get? (turnId, seq)).isSome ↔
        0 < row.eventCount ∧ row.firstSeq ≤ seq ∧ seq ≤ row.nextSeq - 1) ∧
      (0 < row.eventCount → row.firstSeq + row.eventCount = row.nextSeq) ∧
      row.eventCount = (db.turnEvents turnId).size ∧ row.bytes = db.storedBytes turnId ∧
      row.digestThroughSeq ≤ row.nextSeq - 1) ∧
    (∀ turnId, db.turnMeta.get? turnId = none → ∀ seq, db.events.get? (turnId, seq) = none) ∧
    leases.Pairwise (fun first second => first.1 = second.1 →
      first.2.writerEpoch < second.2.writerEpoch) ∧
    (∀ request lease, (db.storeOpen codec request).1 = .ok lease → ∀ row,
      db.turnMeta.get? request.scope.turnId = some row → row.writerEpoch < lease.writerEpoch) ∧
    (∀ request error, (db.storeAppend codec request).1 = .error error → (db.storeAppend codec request).2 = db) ∧
    (∀ turnId row, db.turnMeta.get? turnId = some row → row.sealed →
      ∀ leases' later, Reaches (Serves codec) db leases' later → StaysSealed turnId row db later) ∧
    ∀ request row, db.turnMeta.get? request.scope.turnId = some row → row.sealed →
      ∃ lifecycle, (db.storeAppend codec request).2.turnMeta.get? request.scope.turnId =
          some { row with lifecycle := lifecycle } ∧
        (row.lifecycle ≠ none → lifecycle = row.lifecycle) := by
  have hinv := h.trace (P := fun leases db => db.Sound ∧ Leased leases db)
    (fun _ _ _ _ hs hstep => ⟨hs.1.serves hstep, hs.2.serves hs.1 hstep⟩)
    ⟨.empty, .nil, nofun⟩
  obtain ⟨hsound, hleased⟩ := hinv
  refine ⟨fun turnId row hrow => ?_, hsound.absent, hleased.1, fun request lease hlease =>
    (lease_of_storeOpen hlease).1, fun request error herror => ?_, fun turnId row hrow hsealed leases'
    later hrun => .of_reaches hsound hrow hsealed hrun, fun request row => storeAppend_sealed codec hsound
    request⟩
  · have hlog := hsound.logs turnId row hrow
    refine ⟨fun seq => (hlog.stored_iff seq).trans ?_, hlog.span_eq, hlog.count_eq, hlog.bytes_eq, hlog.digest_le⟩
    rw [Int.le_sub_one_iff]
  · rcases storeAppend_spec codec hsound request with ⟨_, heq⟩ | ⟨receipt, _, next, heq, -⟩
    · rw [heq]
    · rw [heq] at herror
      cases herror

def sampleLogCodec : LogCodec String Unit Unit where
  encodeEvent event := event.toUTF8.toList
  eventKindCode _ := 8
  validEvent _ := true
  validScope _ := true
  validDigest _ := true
  validLifecycle _ := true

def sampleScope : AgentTurnLogScope := ⟨"root", "owner", "thread-1", "turn-1"⟩

def noLoss : AgentTurnLogLoss := ⟨.none, none⟩

def openedLog : TurnLogDatabase Unit Unit :=
  (TurnLogDatabase.empty.storeOpen sampleLogCodec ⟨sampleScope, noLoss, none⟩).2

def appendedLog : TurnLogDatabase Unit Unit :=
  (openedLog.storeAppend sampleLogCodec ⟨sampleScope, 1, 1, [⟨1, "one"⟩, ⟨2, "three"⟩], none, false, noLoss, none⟩).2

lemma reaches_openedLog : Reaches (Serves sampleLogCodec) .empty [("turn-1", ⟨1, 1, none, 0⟩)] openedLog :=
  .single (.opened .empty ⟨sampleScope, noLoss, none⟩)

theorem turn_log_is_sound_appended :
    (appendedLog.turnMeta.get? "turn-1").map (fun row => (row.firstSeq, row.nextSeq, row.eventCount)) =
        some (1, 3, 2) ∧
      ∀ row, appendedLog.turnMeta.get? "turn-1" = some row →
        row.eventCount = (appendedLog.turnEvents "turn-1").size ∧
          row.bytes = appendedLog.storedBytes "turn-1" := by
  have hrun := reaches_openedLog.trans (.single (.appended openedLog
    ⟨sampleScope, 1, 1, [⟨1, "one"⟩, ⟨2, "three"⟩], none, false, noLoss, none⟩))
  have hturns := (turn_log_is_sound hrun).1
  refine ⟨by decide +kernel, fun row hrow => ?_⟩
  obtain ⟨-, -, hcount, hbytes, -⟩ := hturns "turn-1" row hrow
  exact ⟨hcount, hbytes⟩

/-- **A turn without events has none at its `firstSeq`.** -/
theorem opened_turn_has_no_first :
    ¬ ∀ (leases : List (String × AgentTurnLogLease Unit)) (db : TurnLogDatabase Unit Unit),
      Reaches (Serves sampleLogCodec) .empty leases db →
      ∀ turnId row, db.turnMeta.get? turnId = some row →
        ∀ seq, (db.events.get? (turnId, seq)).isSome ↔ row.firstSeq ≤ seq ∧ seq ≤ row.nextSeq - 1 := by
  intro hall
  have hfirst := hall _ _ reaches_openedLog "turn-1" (freshRow noLoss none) rfl 0
  exact absurd (hfirst.2 (by decide)) (by decide)

end CodevoEditor.TurnLogStore
