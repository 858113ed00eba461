/-
# Batches of dirty rows

`take` hands out the first of the dirty rows in the order of their sequence numbers
(`takeBatch_spec`): no more than `maxOps`, and as many bytes as `maxBytes` allows, but one row
at least.
-/

import CodevoEditor.TurnLog.Window

namespace CodevoEditor.TurnLog

open Js AgentEvents List OrderedMap

namespace WindowState

variable {δ : Type} (policy : AgentTurnWindowPolicy)

/-- The dirty row of a number, as an entry. -/
def dirtyRow (state : WindowState δ) (seq : ℕ) : Option AgentTurnLogEntry :=
  (state.dirty.get? seq).map (⟨seq, ·⟩)

/-- The dirty rows in the order of their numbers. -/
def dirtyRows (state : WindowState δ) : List AgentTurnLogEntry :=
  state.sortedSeqs.filterMap state.dirtyRow

variable {state : WindowState δ}

lemma mem_sortedSeqs {seq} : seq ∈ state.sortedSeqs ↔ (state.dirty.get? seq).isSome := by
  rw [sortedSeqs, mem_insertionSort, mem_keys_iff]

lemma pairwise_sortedSeqs (state : WindowState δ) : state.sortedSeqs.Pairwise (· < ·) := by
  have hle : state.sortedSeqs.Pairwise (· ≤ ·) := pairwise_insertionSort (· ≤ ·) _
  have hnd : state.sortedSeqs.Nodup := (perm_insertionSort (· ≤ ·) state.dirty.keys).nodup_iff.2 state.dirty.nodup
  refine (hle.and hnd).imp fun h => ?_
  obtain ⟨hle, hne⟩ := h
  omega

lemma length_sortedSeqs (state : WindowState δ) : state.sortedSeqs.length = state.dirty.size := by
  rw [sortedSeqs, length_insertionSort, length_keys]

lemma mem_dirtyRows {row} : row ∈ state.dirtyRows ↔ state.dirty.get? row.seq = some row.event := by
  unfold dirtyRows dirtyRow
  rw [mem_filterMap]
  constructor
  · rintro ⟨seq, -, hrow⟩
    obtain ⟨object, hobj, rfl⟩ := Option.map_eq_some_iff.1 hrow
    exact hobj
  · intro hrow
    exact ⟨row.seq, mem_sortedSeqs.2 (by rw [hrow]; rfl), by rw [hrow]; rfl⟩

lemma map_seq_dirtyRows (state : WindowState δ) : state.dirtyRows.map (·.seq) = state.sortedSeqs := by
  unfold dirtyRows
  have hmem : ∀ seq ∈ state.sortedSeqs, (state.dirty.get? seq).isSome := fun seq hseq => mem_sortedSeqs.1 hseq
  generalize state.sortedSeqs = seqs at hmem ⊢
  induction seqs with
  | nil => rfl
  | cons seq seqs ih =>
    obtain ⟨object, hobj⟩ := Option.isSome_iff_exists.1 (hmem seq mem_cons_self)
    have hrow : state.dirtyRow seq = some ⟨seq, object⟩ := by rw [dirtyRow, hobj]; rfl
    rw [filterMap_cons_some hrow, map_cons, ih fun other hoth => hmem other (mem_cons_of_mem _ hoth)]

lemma length_dirtyRows (state : WindowState δ) : state.dirtyRows.length = state.dirty.size := by
  rw [← length_sortedSeqs, ← map_seq_dirtyRows, length_map]

/-- The bytes of a batch. -/
def batchBytes (ops : List AgentTurnLogEntry) : ℤ :=
  emptyBatchBytes + (ops.map fun op => policy.opBytes op.seq op.event.event + opSeparatorBytes).sum

variable (ops : List AgentTurnLogEntry)

lemma batchBytes_concat (op) :
    batchBytes policy (ops ++ [op]) =
      batchBytes policy ops + (policy.opBytes op.seq op.event.event + opSeparatorBytes) := by
  rw [batchBytes, batchBytes, map_append, sum_append, map_singleton, sum_singleton, add_assoc]

/-- A batch within the bounds; one row may be over the bytes. -/
structure Fits (maxOps : ℕ) (maxBytes : ℤ) (ops : List AgentTurnLogEntry) : Prop where
  count : ops.length ≤ maxOps
  bytes : batchBytes policy ops ≤ maxBytes ∨ ops.length ≤ 1

variable {policy}

variable {maxOps : ℕ} {maxBytes : ℤ}

lemma takeOps_spec {seqs} {ops}
    (hfits : Fits policy maxOps maxBytes ops) :
    ∃ taken, state.takeOps policy maxOps maxBytes seqs ops (batchBytes policy ops) = ops ++ taken ∧
      taken <+: seqs.filterMap state.dirtyRow ∧ Fits policy maxOps maxBytes (ops ++ taken) := by
  induction seqs generalizing ops with
  | nil => exact ⟨[], by rw [takeOps, append_nil], prefix_refl _, by simpa using hfits⟩
  | cons seq seqs ih =>
    rw [takeOps]
    cases hobj : state.dirty.get? seq with
    | none =>
      have hrow : state.dirtyRow seq = none := by rw [dirtyRow, hobj]; rfl
      rw [filterMap_cons_none hrow]
      exact ih hfits
    | some object =>
      have hrow : state.dirtyRow seq = some ⟨seq, object⟩ := by rw [dirtyRow, hobj]; rfl
      rw [filterMap_cons_some hrow]
      have hstop : ∃ taken, ops = ops ++ taken ∧
          taken <+: (⟨seq, object⟩ :: seqs.filterMap state.dirtyRow : List AgentTurnLogEntry) ∧
            Fits policy maxOps maxBytes (ops ++ taken) :=
        ⟨[], (append_nil _).symm, nil_prefix, by rwa [append_nil]⟩
      dsimp only
      split_ifs with hfull hover
      · exact hstop
      · exact hstop
      · have hby := batchBytes_concat policy ops ⟨seq, object⟩
        dsimp only at hby
        have hlen : (ops ++ [⟨seq, object⟩] : List AgentTurnLogEntry).length = ops.length + 1 := length_append
        have hnext : Fits policy maxOps maxBytes (ops ++ [⟨seq, object⟩]) := by
          refine ⟨by omega, ?_⟩
          by_contra hboth
          exact hover (by omega)
        obtain ⟨taken, hops, hfst, htkn⟩ := ih hnext
        rw [hby] at hops
        refine ⟨⟨seq, object⟩ :: taken, ?_, cons_prefix_cons.2 ⟨rfl, hfst⟩, ?_⟩
        · rw [hops, append_assoc]
          rfl
        · rwa [append_cons]

lemma takeOps_ne_nil (hmaxOps : 0 < maxOps) (hdrt : state.dirty.size ≠ 0) :
    state.takeOps policy maxOps maxBytes state.sortedSeqs [] emptyBatchBytes ≠ [] := by
  have hmem : ∀ seq ∈ state.sortedSeqs, (state.dirty.get? seq).isSome := fun seq hseq => mem_sortedSeqs.1 hseq
  rw [← length_sortedSeqs] at hdrt
  generalize state.sortedSeqs = seqs at hmem hdrt
  match seqs with
  | [] => exact absurd rfl hdrt
  | seq :: seqs =>
    obtain ⟨object, hobj⟩ := Option.isSome_iff_exists.1 (hmem seq mem_cons_self)
    have hfits : Fits policy maxOps maxBytes [⟨seq, object⟩] := ⟨hmaxOps, .inr le_rfl⟩
    have hby := batchBytes_concat policy [] ⟨seq, object⟩
    obtain ⟨taken, hops, -, -⟩ := @takeOps_spec _ _ state _ _ seqs _ hfits
    rw [nil_append] at hby
    rw [hby] at hops
    rw [takeOps, hobj]
    dsimp only
    rw [length_nil, if_neg (Nat.not_le.2 hmaxOps), if_neg (by simp), nil_append]
    intro hnil
    have hemp := hops.symm.trans hnil
    exact cons_ne_nil _ _ hemp

/-- **What `take` hands out**: the first of the dirty rows, within the bounds but one
at least; it is complete if these are all of them. -/
theorem takeBatch_spec (state : WindowState δ) (maxOps : ℕ) (maxBytes : ℤ) :
    (state.takeBatch policy maxOps maxBytes).ops <+: state.dirtyRows ∧
      Fits policy maxOps maxBytes (state.takeBatch policy maxOps maxBytes).ops ∧
      (0 < maxOps → state.dirty.size ≠ 0 → (state.takeBatch policy maxOps maxBytes).ops ≠ []) ∧
      ((state.takeBatch policy maxOps maxBytes).complete ↔
        (state.takeBatch policy maxOps maxBytes).ops = state.dirtyRows) ∧
      (state.takeBatch policy maxOps maxBytes).digest =
        if (state.takeBatch policy maxOps maxBytes).complete then some state.digest else none := by
  have hemp : Fits policy maxOps maxBytes [] := ⟨Nat.zero_le _, .inr (Nat.zero_le _)⟩
  obtain ⟨taken, hops, hfst, hfits⟩ := @takeOps_spec _ _ state _ _ state.sortedSeqs _ hemp
  have hst : batchBytes policy [] = emptyBatchBytes := by
    rw [batchBytes, map_nil, sum_nil, add_zero]
  rw [hst, nil_append] at hops
  have htkn : (state.takeBatch policy maxOps maxBytes).ops = taken := hops
  have hcmp : (state.takeBatch policy maxOps maxBytes).complete =
      decide (taken.length = state.dirtyRows.length) := by
    rw [length_dirtyRows, ← length_sortedSeqs, ← hops]
    rfl
  refine ⟨htkn ▸ hfst, htkn ▸ hfits, fun hmaxOps hdrt => ?_, ?_, rfl⟩
  · exact takeOps_ne_nil hmaxOps hdrt
  · rw [hcmp, htkn, decide_eq_true_eq]
    constructor
    · exact fun hlen => hfst.eq_of_length hlen
    · exact fun heq => congrArg List.length heq

/-- An entry is the very object that a row holds. -/
def Holds (state : WindowState δ) (op : AgentTurnLogEntry) : Prop :=
  ∃ current, state.dirty.get? op.seq = some current ∧ current.id = op.event.id

lemma get?_commitOp (state : WindowState δ) (op) (seq : ℕ) :
    (state.commitOp policy op).dirty.get? seq = state.dirty.get? seq ∨
      (state.commitOp policy op).dirty.get? seq = none ∧ op.seq = seq ∧ state.Holds op := by
  unfold commitOp
  cases hcur : state.dirty.get? op.seq with
  | none => exact .inl rfl
  | some current =>
    dsimp only
    split_ifs with hsame
    · exact .inl rfl
    · dsimp only
      rw [get?_delete]
      split_ifs with hseq
      · exact .inr ⟨rfl, hseq.symm, current, hcur, not_not.1 hsame⟩
      · exact .inl rfl

lemma get?_foldl_commitOp (state : WindowState δ) (seq : ℕ) :
    (ops.foldl (commitOp policy) state).dirty.get? seq = state.dirty.get? seq ∨
      (ops.foldl (commitOp policy) state).dirty.get? seq = none ∧ ∃ op ∈ ops, op.seq = seq ∧ state.Holds op := by
  induction ops generalizing state with
  | nil => exact .inl rfl
  | cons op ops ih =>
    rcases ih (state.commitOp policy op) with hsame | ⟨hnone, other, hoth, hseq, hholds⟩
    · rcases get?_commitOp state op seq with hstep | ⟨hnone, hseq, hholds⟩
      · exact .inl (hsame.trans hstep)
      · exact .inr ⟨hsame.trans hnone, op, mem_cons_self, hseq, hholds⟩
    · rcases get?_commitOp state op seq with hstep | ⟨hnone', hseq', hholds'⟩
      · refine .inr ⟨hnone, other, mem_cons_of_mem _ hoth, hseq, ?_⟩
        obtain ⟨current, hcur, hid⟩ := hholds
        rw [hseq, hstep] at hcur
        exact ⟨current, by rw [hseq, hcur], hid⟩
      · exact .inr ⟨hnone, op, mem_cons_self, hseq', hholds'⟩

lemma dirty_commitBatch (state : WindowState δ) (batch) :
    (state.commitBatch policy batch).dirty = (batch.ops.foldl (commitOp policy) state).dirty := by
  unfold commitBatch
  dsimp only
  split_ifs <;> rfl

/-- **What `commit` does to a row**: nothing, unless the row holds the very object of
the batch; then it is not dirty any more. -/
theorem get?_commitBatch (state : WindowState δ) (batch) (seq : ℕ) :
    (state.commitBatch policy batch).dirty.get? seq = state.dirty.get? seq ∨
      (state.commitBatch policy batch).dirty.get? seq = none ∧ ∃ op ∈ batch.ops, op.seq = seq ∧ state.Holds op := by
  rw [dirty_commitBatch]
  exact get?_foldl_commitOp batch.ops state seq

lemma size_commitOp (state : WindowState δ) (op) : (state.commitOp policy op).dirty.size ≤ state.dirty.size := by
  unfold commitOp
  cases state.dirty.get? op.seq with
  | none => exact le_rfl
  | some current =>
    dsimp only
    split_ifs
    · exact le_rfl
    · exact size_delete_le ..

lemma size_foldl_commitOp (state : WindowState δ) :
    (ops.foldl (commitOp policy) state).dirty.size ≤ state.dirty.size := by
  induction ops generalizing state with
  | nil => exact le_rfl
  | cons op ops ih => exact (ih _).trans (size_commitOp state op)

lemma size_commitBatch_lt (maxBytes : ℤ) (hmaxOps : 0 < maxOps) (hdrt : state.dirty.size ≠ 0) :
    (state.commitBatch policy (state.takeBatch policy maxOps maxBytes)).dirty.size <
      state.dirty.size := by
  obtain ⟨hfst, -, hne, -, -⟩ := @takeBatch_spec _ policy state maxOps maxBytes
  have hops := hne hmaxOps hdrt
  rw [dirty_commitBatch]
  generalize (state.takeBatch policy maxOps maxBytes).ops = ops at hfst hops
  match ops with
  | [] => exact absurd rfl hops
  | op :: ops =>
    have hrow : state.dirty.get? op.seq = some op.event := mem_dirtyRows.1 (hfst.subset mem_cons_self)
    have hless : (state.commitOp policy op).dirty.size < state.dirty.size := by
      unfold commitOp
      rw [hrow]
      dsimp only
      rw [if_neg (not_not.2 rfl)]
      refine size_delete_lt ?_
      rw [mem_keys_iff, hrow]
      rfl
    exact (size_foldl_commitOp ops _).trans_lt hless

/-- `take` and `commit`, `times` times. -/
def drain (policy : AgentTurnWindowPolicy) (maxOps : ℕ) (maxBytes : ℤ) :
    ℕ → WindowState δ → WindowState δ
  | 0, state => state
  | times + 1, state =>
      drain policy maxOps maxBytes times (state.commitBatch policy (state.takeBatch policy maxOps maxBytes))

/-- **To take and commit in turn leaves nothing dirty**, as many times as there are
dirty rows. -/
theorem drain_dirty (maxBytes : ℤ) (hmaxOps : 0 < maxOps) (times : ℕ) (state : WindowState δ)
    (htimes : state.dirty.size ≤ times) :
    (state.drain policy maxOps maxBytes times).dirty.size = 0 := by
  induction times generalizing state with
  | zero => exact Nat.le_zero.1 htimes
  | succ times ih =>
    refine ih _ ?_
    by_cases hdrt : state.dirty.size = 0
    · rw [dirty_commitBatch]
      have hle := @size_foldl_commitOp _ policy (state.takeBatch policy maxOps maxBytes).ops state
      omega
    · have hlt := @size_commitBatch_lt _ policy state _ maxBytes hmaxOps hdrt
      omega

end WindowState

end CodevoEditor.TurnLog
