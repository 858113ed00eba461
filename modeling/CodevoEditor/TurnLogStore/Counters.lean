/-
# The numbers of a turn log

The numbers of the events are positive, and the next one of a turn is a counter that a
number of the client can hold: `append.rs` counts with `checked_counter`.
-/

import CodevoEditor.TurnLogStore.Runs

namespace CodevoEditor.TurnLogStore

open Js Sql Runs

variable {ε δ μ : Type}

namespace TurnLogDatabase

variable {db next : TurnLogDatabase δ μ} {turnId : String} {row : TurnMetaRow δ μ}

/-- The numbers of the events of a turn are counters. -/
def Numbered (db : TurnLogDatabase δ μ) (turnId : String) : Prop :=
  ∀ seq, (db.events.get? (turnId, seq)).isSome → agentTurnLogSeqBase ≤ seq ∧ seq ≤ maxLogCounter

/-- **What the counters of a log are bounded by.** -/
structure Countable (db : TurnLogDatabase δ μ) : Prop where
  seq_pos : ∀ turnId seq, (db.events.get? (turnId, seq)).isSome → agentTurnLogSeqBase ≤ seq
  nextSeq_le : ∀ turnId row, db.turnMeta.get? turnId = some row → row.nextSeq ≤ maxLogCounter

lemma Countable.empty : (empty : TurnLogDatabase δ μ).Countable := by
  refine ⟨fun _ _ h => ?_, fun _ _ h => ?_⟩
  · cases h
  · cases h

lemma Countable.numbered (h : db.Countable) (hsound : db.Sound) (turnId : String) : db.Numbered turnId := by
  intro seq hseq
  refine ⟨h.seq_pos turnId seq hseq, ?_⟩
  cases hrow : db.turnMeta.get? turnId with
  | none =>
    rw [hsound.absent turnId hrow seq] at hseq
    cases hseq
  | some row =>
    have hlt := ((hsound.logs turnId row hrow).stored_iff seq).1 hseq
    have hle := h.nextSeq_le turnId row hrow
    omega

lemma Countable.putTurnMeta (h : db.Countable) (hrow : row.nextSeq ≤ maxLogCounter) :
    (db.putTurnMeta turnId row).Countable := by
  refine ⟨h.seq_pos, fun other found hget => ?_⟩
  rw [get?_putTurnMeta] at hget
  split_ifs at hget
  · cases hget
    exact hrow
  · exact h.nextSeq_le other found hget

lemma Countable.openedRow (h : db.Countable) (request) : (db.openedRow request).nextSeq ≤ maxLogCounter := by
  unfold TurnLogDatabase.openedRow
  split
  · rename_i existing hexist
    exact h.nextSeq_le _ existing hexist
  · change agentTurnLogSeqBase ≤ maxLogCounter
    decide

variable [DecidableEq μ] {codec : LogCodec ε δ μ}

variable {request : AppendAgentTurnLogRequest ε δ μ} {receipt : AppendAgentTurnLogReceipt}

omit [DecidableEq μ] in
lemma nextSeq_le_of_appendToTurn {ops}
    (h : db.appendToTurn request ops row = .ok (receipt, next)) :
    receipt.nextSeq ≤ maxLogCounter := by
  obtain ⟨plan, -, h⟩ := bind_eq_ok.1 h
  obtain ⟨replaced, -, h⟩ := bind_eq_ok.1 h
  obtain ⟨bytes, -, h⟩ := bind_eq_ok.1 h
  obtain ⟨nextSeq, hseq, h⟩ := bind_eq_ok.1 h
  obtain ⟨eventCount, -, h⟩ := bind_eq_ok.1 h
  obtain ⟨replacedDb, -, h⟩ := bind_eq_ok.1 h
  obtain ⟨middle, -, h⟩ := bind_eq_ok.1 h
  cases h
  exact (eq_of_checkedCounter hseq).2.2

lemma storeAppend_counters (h : db.storeAppend codec request = (.ok receipt, next)) :
    (∀ op ∈ request.ops, agentTurnLogSeqBase ≤ op.seq) ∧
      ∀ row, db.turnMeta.get? request.scope.turnId = some row → row.sealed = false →
        receipt.nextSeq ≤ maxLogCounter := by
  unfold storeAppend at h
  cases hval : validateAppendRequest codec request with
  | error error =>
    rw [hval] at h
    cases h
  | ok valid =>
    rw [hval] at h
    refine ⟨(validateOpOrder_spec (validateOpOrder_of_validateAppendRequest hval)).1, fun row hrow hsealed => ?_⟩
    cases happend : db.append codec request with
    | error error =>
      rw [happend] at h
      cases h
    | ok answer =>
      obtain ⟨answered, written⟩ := answer
      rw [happend] at h
      obtain ⟨hreceipt, -⟩ := Prod.mk.inj h
      have heq : answered = receipt := by
        cases hcheck : validateReceipt answered with
        | error error =>
          rw [hcheck] at hreceipt
          cases hreceipt
        | ok valid =>
          rw [hcheck] at hreceipt
          exact Except.ok.inj hreceipt
      obtain ⟨ops, -, happend⟩ := bind_eq_ok.1 happend
      rw [hrow] at happend
      dsimp only at happend
      split_ifs at happend with hepoch hsealed' hgap
      · rw [hsealed] at hsealed'
        cases hsealed'
      · rw [← heq]
        exact nextSeq_le_of_appendToTurn happend

variable (codec) in
lemma Countable.storeAppend (h : db.Countable) (hsound : db.Sound)
    (request) : (db.storeAppend codec request).2.Countable := by
  rcases storeAppend_spec codec hsound request with
    ⟨error, heq⟩ | ⟨receipt, row, next, heq, hrow, -, hstep⟩
  · rw [heq]
    exact h
  · obtain ⟨hops, hnextSeq⟩ := storeAppend_counters heq
    rw [heq]
    rcases hstep with ⟨-⟩ | ⟨lifecycle, -⟩ | ⟨ops, after, _, hunseal, hencoded, -, -, happended⟩
    · exact h
    · exact h.putTurnMeta (h.nextSeq_le _ row hrow)
    · have hle := hnextSeq row hrow hunseal
      obtain ⟨middle, hwrote, rfl⟩ := happended.wrote
      refine Countable.putTurnMeta ⟨fun turnId seq hseq => ?_, fun other found hget => ?_⟩ hle
      · by_cases hop : ∃ op ∈ ops, (turnId, seq) = (request.scope.turnId, op.seq)
        · obtain ⟨op, hop, hkey⟩ := hop
          rw [hencoded, List.mem_map] at hop
          obtain ⟨entry, hent, rfl⟩ := hop
          rw [(Prod.mk.inj hkey).2]
          exact hops entry hent
        · rw [hwrote.kept _ fun op hop' hkey => hop ⟨op, hop', hkey⟩] at hseq
          exact h.seq_pos turnId seq hseq
      · rw [hwrote.turnMeta_eq] at hget
        exact h.nextSeq_le other found hget

variable {leases : List (String × AgentTurnLogLease δ)}

lemma Countable.serves (h : db.Countable) (hsound : db.Sound)
    (hstep : Serves codec db leases next) : next.Countable := by
  rcases hstep with ⟨request⟩ | ⟨request⟩
  · rcases storeOpen_spec codec db request with ⟨error, heq⟩ | ⟨heq, -⟩
    · rw [heq]
      exact h
    · rw [heq]
      exact h.putTurnMeta (h.openedRow request)
  · exact h.storeAppend codec hsound request

/-- **After every run the numbers are counters.** -/
theorem counters_of_reaches (hrun : Reaches (Serves codec) .empty leases db) : db.Sound ∧ db.Countable :=
  hrun.invariant (P := fun db => db.Sound ∧ db.Countable)
    (fun _ _ _ hs hstep => ⟨hs.1.serves hstep, hs.2.serves hs.1 hstep⟩) ⟨.empty, .empty⟩

end TurnLogDatabase

end CodevoEditor.TurnLogStore
