/-
# What an append writes

The ops of an accepted request are in the order of their sequence numbers: first the rows that
are replaced, and then, without a gap, the rows that are new (`validateOpOrder_spec`).
-/

import CodevoEditor.TurnLogStore.Model
import Mathlib.Data.List.Pairwise

namespace CodevoEditor.TurnLogStore

open Js Sql List OrderedMap

variable {ε δ μ : Type}

/-- Numbers that follow each other, from one on. -/
def Consecutive : ℤ → List ℤ → Prop
  | _, [] => True
  | next, seq :: seqs => seq = next ∧ Consecutive (next + 1) seqs

lemma Consecutive.mem_iff {next} {seqs} (h : Consecutive next seqs) {seq} :
    seq ∈ seqs ↔ next ≤ seq ∧ seq < next + seqs.length := by
  induction seqs generalizing next with
  | nil =>
    rw [length_nil]
    constructor
    · intro hmem
      cases hmem
    · omega
  | cons first seqs ih =>
    obtain ⟨rfl, hrest⟩ := h
    rw [mem_cons, ih hrest, length_cons]
    omega

lemma Consecutive.nodup {next} {seqs} (h : Consecutive next seqs) : seqs.Nodup := by
  induction seqs generalizing next with
  | nil => exact nodup_nil
  | cons first seqs ih =>
    obtain ⟨rfl, hrest⟩ := h
    refine nodup_cons.2 ⟨fun hmem => ?_, ih hrest⟩
    have := (hrest.mem_iff.1 hmem).1
    omega

variable {ops : List (AgentTurnLogEntry ε)}

lemma bounds_of_rest {op}
    {previous : Option ℤ} (hbase : ¬ op.seq < agentTurnLogSeqBase)
    (hprev : ¬ previous.any (op.seq ≤ ·))
    (hops : ∀ other ∈ ops, 1 ≤ other.seq ∧ ∀ before ∈ some op.seq, before < other.seq) :
    ∀ other ∈ op :: ops, 1 ≤ other.seq ∧ ∀ before ∈ previous, before < other.seq := by
  have hfst : ∀ before ∈ previous, before < op.seq := by
    intro before hpre
    rw [hpre, Option.any_some, decide_eq_true_eq] at hprev
    omega
  intro other hoth
  rcases mem_cons.1 hoth with rfl | hoth
  · unfold agentTurnLogSeqBase at hbase
    exact ⟨by omega, hfst⟩
  · obtain ⟨hpos, haft⟩ := hops other hoth
    refine ⟨hpos, fun before hpre => ?_⟩
    have hpre := hfst before hpre
    have haft := haft op.seq rfl
    omega

lemma validateOpOrderFrom_spec {expected}
    {previous : Option ℤ} {next : ℤ} (hnext : expected ≤ next)
    (h : validateOpOrderFrom expected ops previous next = .ok ()) :
    (∀ op ∈ ops, 1 ≤ op.seq ∧ ∀ before ∈ previous, before < op.seq) ∧
      (ops.map (·.seq)).Pairwise (· < ·) ∧
      Consecutive next ((ops.map (·.seq)).filter (expected ≤ ·)) := by
  induction ops generalizing previous next with
  | nil => exact ⟨nofun, .nil, trivial⟩
  | cons op ops ih =>
    have haft (hops : ∀ other ∈ ops, 1 ≤ other.seq ∧ ∀ before ∈ some op.seq, before < other.seq) :
        ∀ seq ∈ ops.map (·.seq), op.seq < seq := by
      intro seq hseq
      obtain ⟨other, hoth, rfl⟩ := mem_map.1 hseq
      exact (hops other hoth).2 op.seq rfl
    unfold validateOpOrderFrom at h
    split_ifs at h with hbase hprev hold hgap
    · obtain ⟨hops, hpair, hconsec⟩ := ih hnext h
      refine ⟨bounds_of_rest hbase hprev hops, pairwise_cons.2 ⟨haft hops, hpair⟩, ?_⟩
      rw [map_cons, filter_cons_of_neg (by rw [decide_eq_true_eq]; omega)]
      exact hconsec
    · obtain ⟨hops, hpair, hconsec⟩ := ih (by omega) h
      rw [not_not] at hgap
      refine ⟨bounds_of_rest hbase hprev hops, pairwise_cons.2 ⟨haft hops, hpair⟩, ?_⟩
      rw [map_cons, filter_cons_of_pos (by rw [decide_eq_true_eq]; omega)]
      exact ⟨hgap, hconsec⟩

theorem validateOpOrder_spec {expected}
    (h : validateOpOrder ops expected = .ok ()) :
    (∀ op ∈ ops, 1 ≤ op.seq) ∧ (ops.map (·.seq)).Pairwise (· < ·) ∧
      Consecutive expected ((ops.map (·.seq)).filter (expected ≤ ·)) := by
  obtain ⟨hops, hpair, hconsec⟩ := validateOpOrderFrom_spec le_rfl h
  exact ⟨fun op hop => (hops op hop).1, hpair, hconsec⟩

lemma encodeOps_spec {codec : LogCodec ε δ μ}
    {encoded} (h : encodeOps codec ops = .ok encoded) :
    encoded = ops.map fun entry =>
      ⟨entry.seq, codec.eventKindCode entry.event, codec.encodeEvent entry.event⟩ := by
  unfold encodeOps at h
  generalize 0 = total at h
  induction ops generalizing total encoded with
  | nil =>
    cases h
    rfl
  | cons entry ops ih =>
    unfold encodeOpsFrom at h
    dsimp only at h
    split_ifs at h
    obtain ⟨rest, hrest, h⟩ := bind_eq_ok.1 h
    cases h
    rw [ih _ hrest, map_cons]

lemma eq_of_checkedCounter {current added value} (h : checkedCounter current added = .ok value) :
    value = current + added ∧ 0 ≤ added ∧ value ≤ maxLogCounter := by
  unfold checkedCounter at h
  split at h
  · rename_i found hget
    cases h
    obtain ⟨hget, hbd⟩ := Option.filter_eq_some_iff.1 hget
    unfold checkedI64 at hget
    split_ifs at hget
    cases hget
    rw [Bool.and_eq_true, Bool.and_eq_true, decide_eq_true_eq, decide_eq_true_eq,
      decide_eq_true_eq] at hbd
    exact ⟨rfl, hbd.1.2, hbd.2⟩
  · cases h

namespace TurnLogDatabase

variable {db middle next : TurnLogDatabase δ μ} {turnId : String} {ops : List EncodedOp}

/-- The rows of one turn. -/
def turnEvents (db : TurnLogDatabase δ μ) (turnId : String) : Table (String × ℤ) EventRow :=
  Table.restrict db.events fun key => key.1 = turnId

/-- The bytes of the payloads of one turn. -/
def storedBytes (db : TurnLogDatabase δ μ) (turnId : String) : ℕ :=
  (db.turnEvents turnId).total fun row => row.payload.length

lemma get?_turnEvents (db : TurnLogDatabase δ μ) (turnId : String) (seq : ℤ) :
    (db.turnEvents turnId).get? (turnId, seq) = db.events.get? (turnId, seq) := by
  unfold turnEvents
  rw [Table.get?_restrict, if_pos (decide_eq_true rfl)]

/-- **The ops are written, and nothing else is.** -/
structure Wrote (turnId : String) (ops : List EncodedOp) (db next : TurnLogDatabase δ μ) : Prop where
  turnMeta_eq : next.turnMeta = db.turnMeta
  written : ∀ op ∈ ops, next.events.get? (turnId, op.seq) = some op.row
  kept : ∀ key, (∀ op ∈ ops, key ≠ (turnId, op.seq)) → next.events.get? key = db.events.get? key
  others_eq : ∀ other ≠ turnId, next.turnEvents other = db.turnEvents other

lemma Wrote.refl (turnId : String) (db : TurnLogDatabase δ μ) : Wrote turnId [] db db :=
  ⟨rfl, nofun, fun _ _ => rfl, fun _ _ => rfl⟩

lemma Wrote.cons {db next : TurnLogDatabase δ μ} {op : EncodedOp} (h : Wrote turnId ops { db with
      events := db.events.set (turnId, op.seq) op.row } next) (hnew : op.seq ∉ ops.map (·.seq)) :
    Wrote turnId (op :: ops) db next := by
  have hkept := h.kept (turnId, op.seq) fun other hoth heq =>
    hnew (mem_map.2 ⟨other, hoth, ((Prod.mk.inj heq).2).symm⟩)
  rw [get?_set, if_pos rfl] at hkept
  refine ⟨h.turnMeta_eq, fun other hoth => ?_, fun key hkey => ?_, fun other hne => ?_⟩
  · rcases mem_cons.1 hoth with rfl | hoth
    · exact hkept
    · exact h.written other hoth
  · rw [h.kept key fun other hoth => hkey other (mem_cons_of_mem _ hoth),
      get?_set, if_neg (hkey op mem_cons_self)]
  · rw [h.others_eq other hne]
    exact Table.restrict_set_of_neg db.events (decide_eq_false (Ne.symm hne)) op.row

lemma Wrote.append {more} (h : Wrote turnId ops db middle)
    (h' : Wrote turnId more middle next) (hnew : ∀ op ∈ ops, op.seq ∉ more.map (·.seq)) :
    Wrote turnId (ops ++ more) db next := by
  refine ⟨h'.turnMeta_eq.trans h.turnMeta_eq, fun op hop => ?_, fun key hkey => ?_,
    fun other hne => (h'.others_eq other hne).trans (h.others_eq other hne)⟩
  · rcases mem_append.1 hop with hop | hop
    · rw [h'.kept _ fun other hoth heq =>
        hnew op hop (mem_map.2 ⟨other, hoth, ((Prod.mk.inj heq).2).symm⟩)]
      exact h.written op hop
    · exact h'.written op hop
  · rw [h'.kept key fun op hop => hkey op (mem_append_right _ hop)]
    exact h.kept key fun op hop => hkey op (mem_append_left _ hop)

lemma Wrote.congr_mem {other} (h : Wrote turnId ops db next)
    (hmem : ∀ op, op ∈ other ↔ op ∈ ops) : Wrote turnId other db next where
  turnMeta_eq := h.turnMeta_eq
  written := fun op hop => h.written op ((hmem op).1 hop)
  kept := fun key hkey => h.kept key fun op hop => hkey op ((hmem op).2 hop)
  others_eq := h.others_eq

lemma turnEvents_set (db : TurnLogDatabase δ μ) (turnId : String) (op : EncodedOp) :
    turnEvents { db with events := db.events.set (turnId, op.seq) op.row } turnId =
      (db.turnEvents turnId).set (turnId, op.seq) op.row :=
  Table.restrict_set_of_pos db.events (decide_eq_true rfl) op.row

/-- **What inserting does**: the rows are written, and counted. -/
theorem insertEvents_spec (hnd : (ops.map (·.seq)).Nodup)
    (h : insertEvents turnId ops db = .ok next) :
    Wrote turnId ops db next ∧ (∀ op ∈ ops, db.events.get? (turnId, op.seq) = none) ∧
      (next.turnEvents turnId).size = (db.turnEvents turnId).size + ops.length ∧
      (next.storedBytes turnId : ℤ) = db.storedBytes turnId + payloadBytes ops := by
  induction ops generalizing db with
  | nil =>
    cases h
    exact ⟨.refl turnId _, nofun, rfl, (add_zero _).symm⟩
  | cons op ops ih =>
    rw [map_cons, nodup_cons] at hnd
    unfold insertEvents at h
    split at h
    · cases h
    · rename_i events hevs
      obtain ⟨habsent, -⟩ := Table.get?_insertRow hevs
      obtain rfl : db.events.set (turnId, op.seq) op.row = events := by
        unfold Table.insertRow at hevs
        split_ifs at hevs
        exact Option.some.inj hevs
      obtain ⟨hwrote, hnew, hsize, hby⟩ := ih hnd.2 h
      have hnone : (db.turnEvents turnId).get? (turnId, op.seq) = none := by
        rw [get?_turnEvents]
        exact habsent
      rw [turnEvents_set, size_set, if_neg (get?_eq_none_iff.1 hnone)] at hsize
      unfold storedBytes at hby ⊢
      rw [turnEvents_set, total_set, delete_of_get?_none hnone] at hby
      refine ⟨hwrote.cons hnd.1, fun other hoth => ?_, ?_, ?_⟩
      · rcases mem_cons.1 hoth with rfl | hoth
        · exact habsent
        · have hother' := hnew other hoth
          rw [get?_set, if_neg] at hother'
          · exact hother'
          · intro heq
            exact hnd.1 (mem_map.2 ⟨other, hoth, (Prod.mk.inj heq).2⟩)
      · rw [length_cons]
        omega
      · unfold payloadBytes at hby ⊢
        rw [map_cons, sum_cons]
        unfold EncodedOp.row at hby
        push_cast at hby ⊢
        omega

lemma existingBytesFrom_congr {other : TurnLogDatabase δ μ} (start : ℤ)
    (h : ∀ op ∈ ops, other.events.get? (turnId, op.seq) = db.events.get? (turnId, op.seq)) :
    other.existingBytesFrom turnId ops start = db.existingBytesFrom turnId ops start := by
  induction ops generalizing start with
  | nil => rfl
  | cons op ops ih =>
    unfold existingBytesFrom
    rw [h op mem_cons_self]
    cases db.events.get? (turnId, op.seq) with
    | none => rfl
    | some row =>
      dsimp only
      refine congrArg _ (funext fun total => ?_)
      exact ih total fun other hoth => h other (mem_cons_of_mem _ hoth)

/-- **What replacing does**: the rows are written in the place of the old ones. -/
theorem replaceEvents_spec {start replaced : ℤ} (hnd : (ops.map (·.seq)).Nodup)
    (hrows : ∀ key row, db.events.get? key = some row → row.bytes = row.payload.length)
    (hexist : db.existingBytesFrom turnId ops start = .ok replaced)
    (h : replaceEvents turnId ops db = .ok next) :
    Wrote turnId ops db next ∧ (∀ op ∈ ops, (db.events.get? (turnId, op.seq)).isSome) ∧
      (next.turnEvents turnId).size = (db.turnEvents turnId).size ∧
      (next.storedBytes turnId : ℤ) + (replaced - start) = db.storedBytes turnId + payloadBytes ops := by
  induction ops generalizing db start with
  | nil =>
    cases h
    cases hexist
    refine ⟨.refl turnId _, nofun, rfl, ?_⟩
    unfold payloadBytes
    rw [map_nil, sum_nil]
    omega
  | cons op ops ih =>
    rw [map_cons, nodup_cons] at hnd
    unfold existingBytesFrom at hexist
    unfold replaceEvents at h
    cases hrow : db.events.get? (turnId, op.seq) with
    | none =>
      rw [hrow] at hexist
      cases hexist
    | some row =>
      rw [hrow] at hexist h
      obtain ⟨total, htot, hexist⟩ := bind_eq_ok.1 hexist
      have htot := eq_of_checkedCounter htot
      have hpay := hrows _ _ hrow
      have hold : (db.turnEvents turnId).get? (turnId, op.seq) = some row := by
        rw [get?_turnEvents]
        exact hrow
      have hoths : ∀ other ∈ ops, (db.events.set (turnId, op.seq) op.row).get? (turnId, other.seq) =
          db.events.get? (turnId, other.seq) := by
        intro other hoth
        rw [get?_set, if_neg]
        intro heq
        exact hnd.1 (mem_map.2 ⟨other, hoth, (Prod.mk.inj heq).2⟩)
      have hrows' : ∀ key row, (db.events.set (turnId, op.seq) op.row).get? key = some row →
          row.bytes = row.payload.length := by
        intro key found hget
        rw [get?_set] at hget
        split_ifs at hget
        · cases hget
          rfl
        · exact hrows key found hget
      obtain ⟨hwrote, hthere, hsize, hby⟩ := ih hnd.2 hrows'
        ((existingBytesFrom_congr total hoths).trans hexist) h
      rw [turnEvents_set, size_set, if_pos (mem_keys_iff.2 (by rw [hold]; rfl))] at hsize
      unfold storedBytes at hby ⊢
      rw [turnEvents_set, total_set] at hby
      have htkn := total_of_get? (fun row : EventRow => row.payload.length) hold
      refine ⟨hwrote.cons hnd.1, fun other hoth => ?_, hsize, ?_⟩
      · rcases mem_cons.1 hoth with rfl | hoth
        · rw [hrow]
          rfl
        · rw [← hoths other hoth]
          exact hthere other hoth
      · unfold payloadBytes at hby ⊢
        rw [map_cons, sum_cons]
        unfold EncodedOp.row at hby
        push_cast at hby ⊢
        omega

end TurnLogDatabase

end CodevoEditor.TurnLogStore
