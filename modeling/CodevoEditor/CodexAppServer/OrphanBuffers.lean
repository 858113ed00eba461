/-
# Queues and orphan buffers

What one operation does to the queue of a turn, to the buffer of an orphan and to the table: a frame
that is not kept leaves a mark.
-/

import CodevoEditor.CodexAppServer.FrameRouting

namespace CodevoEditor.CodexAppServer

open Js List Option OrderedMap

variable {φ : Type}

/-- The bounds of a queue, and its count of bytes. -/
structure TurnFrameQueueState.Ok (state : TurnFrameQueueState φ) : Prop where
  count : state.frames.length ≤ maxTurnInboundFrames
  bytes : state.bytes = bytesOf state.frames
  bound : state.bytes ≤ maxTurnInboundBytes

namespace TurnFrameQueueState

variable {state : TurnFrameQueueState φ} {frame : BufferedFrame φ}

lemma ok_new : (new : TurnFrameQueueState φ).Ok := ⟨Nat.zero_le _, rfl, Nat.zero_le _⟩

/-- **A frame is kept, or the queue is marked.** -/
theorem push_cases (hopen : state.closed = none) (frame) :
    (state.push frame).closed = none ∧
      ((state.push frame).frames = state.frames ∧ (state.push frame).truncated ∨
        (state.push frame).frames = state.frames ++ [frame] ∧ (state.push frame).truncated = state.truncated) := by
  unfold push
  rw [hopen, isSome_none, if_neg Bool.false_ne_true]
  split_ifs
  · exact ⟨rfl, .inl ⟨rfl, rfl⟩⟩
  · exact ⟨rfl, .inr ⟨rfl, rfl⟩⟩

lemma Ok.push (h : state.Ok) (frame) : (state.push frame).Ok := by
  unfold TurnFrameQueueState.push
  split_ifs with hcl hfull
  · exact h
  · exact ⟨h.count, h.bytes, h.bound⟩
  · rw [not_or, not_le, not_lt] at hfull
    refine ⟨?_, ?_, hfull.2⟩
    · rw [length_append]
      exact hfull.1
    · dsimp only
      rw [h.bytes]
      unfold bytesOf
      rw [map_append, sum_append, map_singleton, sum_singleton]

lemma tryRecv_spec {queue} (h : state.tryRecv = some (frame, queue)) :
    state.frames = frame :: queue.frames ∧ queue.truncated = state.truncated ∧
      queue.closed = state.closed ∧ (state.Ok → queue.Ok) := by
  unfold tryRecv at h
  split at h
  · cases h
  · rename_i first frames hframes
    cases h
    refine ⟨hframes, rfl, rfl, fun hok => ?_⟩
    have hby := hok.bytes
    have hcnt := hok.count
    have hbd := hok.bound
    rw [hframes] at hby hcnt
    unfold bytesOf at hby
    rw [map_cons, sum_cons] at hby
    rw [length_cons] at hcnt
    refine ⟨by dsimp only; omega, ?_, by dsimp only; omega⟩
    unfold bytesOf
    dsimp only
    omega

end TurnFrameQueueState

/-- **What a buffer keeps**: the last frames within the bounds; where it does not keep all of
them, that is said. -/
theorem bufferFrame_spec (frame : BufferedFrame φ) (buffered : List (BufferedFrame φ)) :
    (bufferFrame frame buffered).1.Sublist (buffered ++ [frame]) ∧
      (bufferFrame frame buffered).1.length ≤ maxOrphanFramesPerThread ∧
      bytesOf (bufferFrame frame buffered).1 ≤ maxOrphanInboundBytes ∧
      ((bufferFrame frame buffered).2 = false → (bufferFrame frame buffered).1 = buffered ++ [frame]) := by
  induction buffered with
  | nil =>
    unfold bufferFrame
    split_ifs with h
    · exact ⟨nil_sublist _, Nat.zero_le _, Nat.zero_le _, nofun⟩
    · have hone : 1 ≤ maxOrphanFramesPerThread := by decide
      exact ⟨.refl _, hone, not_lt.1 h, fun _ => rfl⟩
  | cons first buffered ih =>
    unfold bufferFrame
    split_ifs with h
    · exact ⟨ih.1.trans (sublist_cons_self _ _), ih.2.1, ih.2.2.1, nofun⟩
    · rw [not_or, not_le, not_lt] at h
      refine ⟨.refl _, ?_, ?_, fun _ => rfl⟩
      · rw [length_append]
        exact h.1
      · unfold bytesOf at h ⊢
        rw [map_append, sum_append, map_singleton, sum_singleton]
        exact h.2

namespace RouteTable

variable {table : RouteTable φ} {threadId other : String} {frame : BufferedFrame φ}

/-- The order lists the orphans that are buffered, and the bounds hold. -/
structure OrphansOk (table : RouteTable φ) : Prop where
  nodup : table.orphanOrder.Nodup
  listed : ∀ threadId, threadId ∈ table.orphanOrder ↔ table.orphans.get? threadId ≠ none
  few : table.orphanOrder.length ≤ maxOrphanThreads
  buffers : ∀ threadId buffered, table.orphans.get? threadId = some buffered →
    buffered.length ≤ maxOrphanFramesPerThread ∧ bytesOf buffered ≤ maxOrphanInboundBytes

lemma orphansOk_new : (new : RouteTable φ).OrphansOk :=
  ⟨nodup_nil, fun _ => iff_of_false not_mem_nil fun h => h rfl, Nat.zero_le _, nofun⟩

lemma evictOrphan_spec (h : table.OrphansOk) : table.evictOrphan.OrphansOk ∧
    table.evictOrphan.orphanOrder.length < maxOrphanThreads ∧
    table.evictOrphan.routes = table.routes ∧ table.orphanLoss ⊆ table.evictOrphan.orphanLoss ∧
    ∀ other, table.evictOrphan.orphans.get? other = table.orphans.get? other ∨
      table.evictOrphan.orphans.get? other = none ∧ other ∈ table.evictOrphan.orphanLoss := by
  unfold evictOrphan
  split_ifs with hfull
  · split
    · rename_i hnil
      rw [hnil] at hfull
      exact absurd hfull (by decide)
    · rename_i evicted order hord
      have hnd := h.nodup
      have hfew := h.few
      rw [hord] at hnd hfew
      rw [length_cons] at hfew
      refine ⟨⟨(nodup_cons.1 hnd).2, fun threadId => ?_, by dsimp only; omega,
        fun threadId buffered hbuf => ?_⟩, by dsimp only; omega, rfl, Finset.subset_insert _ _,
        fun other => ?_⟩
      · dsimp only
        rw [get?_delete]
        by_cases heq : threadId = evicted
        · rw [if_pos heq, heq]
          exact iff_of_false (nodup_cons.1 hnd).1 fun hne => hne rfl
        · rw [if_neg heq, ← h.listed, hord, mem_cons, or_iff_right heq]
      · dsimp only at hbuf
        rw [get?_delete] at hbuf
        split_ifs at hbuf
        exact h.buffers threadId buffered hbuf
      · dsimp only
        rw [get?_delete]
        by_cases heq : other = evicted
        · rw [if_pos heq, heq]
          exact .inr ⟨rfl, Finset.mem_insert_self _ _⟩
        · rw [if_neg heq]
          exact .inl rfl
  · exact ⟨h, not_le.1 hfull, rfl, Finset.Subset.refl _, fun _ => .inl rfl⟩

lemma withOrphan_spec (h : table.OrphansOk) (threadId : String) : (table.withOrphan threadId).OrphansOk ∧
    (table.withOrphan threadId).routes = table.routes ∧
    table.orphanLoss ⊆ (table.withOrphan threadId).orphanLoss ∧
    (table.withOrphan threadId).orphans.get? threadId = some ((table.orphans.get? threadId).getD []) ∧
    ∀ other, other ≠ threadId →
      (table.withOrphan threadId).orphans.get? other = table.orphans.get? other ∨
        (table.withOrphan threadId).orphans.get? other = none ∧ other ∈ (table.withOrphan threadId).orphanLoss := by
  unfold withOrphan
  split_ifs with hhas
  · rw [has_eq] at hhas
    obtain ⟨buffered, hbuf⟩ := isSome_iff_exists.1 hhas
    refine ⟨h, rfl, Finset.Subset.refl _, ?_, fun _ _ => .inl rfl⟩
    rw [hbuf]
    rfl
  · have hnone : table.orphans.get? threadId = none := by simpa using hhas
    obtain ⟨hok, hroom, hrt, hloss, hoths⟩ := evictOrphan_spec h
    have hgone : table.evictOrphan.orphans.get? threadId = none := by
      rcases hoths threadId with hsame | ⟨hgone, -⟩
      · exact hsame.trans hnone
      · exact hgone
    have hnew : threadId ∉ table.evictOrphan.orphanOrder := fun hmem => (hok.listed threadId).1 hmem hgone
    refine ⟨⟨hok.nodup.append (nodup_singleton _) ?_, fun other => ?_, ?_,
      fun other buffered hbuf => ?_⟩, hrt, hloss, ?_, fun other hne => ?_⟩
    · rwa [disjoint_singleton]
    · dsimp only
      rw [mem_append, mem_singleton, hok.listed, get?_set]
      by_cases heq : other = threadId
      · rw [if_pos heq]
        exact iff_of_true (.inr heq) (some_ne_none _)
      · rw [if_neg heq, or_iff_left heq]
    · dsimp only
      rw [length_append]
      exact hroom
    · dsimp only at hbuf
      rw [get?_set] at hbuf
      split_ifs at hbuf
      · rw [← some.inj hbuf]
        exact ⟨Nat.zero_le _, Nat.zero_le _⟩
      · exact hok.buffers other buffered hbuf
    · dsimp only
      rw [get?_set, if_pos rfl, hnone]
      rfl
    · dsimp only
      rw [get?_set, if_neg hne]
      exact hoths other

/-- **What becomes of orphans when a frame is retained**: its own buffer takes it, and another
stays or is evicted and marked. -/
theorem retainOrphan_spec (h : table.OrphansOk) (threadId : String) (frame : BufferedFrame φ) :
    (table.retainOrphan threadId frame).OrphansOk ∧
    (table.retainOrphan threadId frame).routes = table.routes ∧
    table.orphanLoss ⊆ (table.retainOrphan threadId frame).orphanLoss ∧
    (∃ buffered, (table.retainOrphan threadId frame).orphans.get? threadId = some buffered ∧
      buffered.Sublist ((table.orphans.get? threadId).getD [] ++ [frame]) ∧
      (threadId ∉ (table.retainOrphan threadId frame).orphanLoss →
        buffered = (table.orphans.get? threadId).getD [] ++ [frame])) ∧
    ∀ other, other ≠ threadId →
      (table.retainOrphan threadId frame).orphans.get? other = table.orphans.get? other ∨
        (table.retainOrphan threadId frame).orphans.get? other = none ∧
          other ∈ (table.retainOrphan threadId frame).orphanLoss := by
  obtain ⟨hok, hrt, hloss, hat, hoths⟩ := withOrphan_spec h threadId
  unfold retainOrphan
  dsimp only
  rw [hat]
  dsimp only
  generalize (table.orphans.get? threadId).getD [] = before at hat ⊢
  obtain ⟨hsub, hcnt, hby, hkept⟩ := bufferFrame_spec frame before
  have hgrow : (table.withOrphan threadId).orphanLoss ⊆
      if (bufferFrame frame before).2 then insert threadId (table.withOrphan threadId).orphanLoss
      else (table.withOrphan threadId).orphanLoss := by
    split_ifs
    · exact Finset.subset_insert _ _
    · exact Finset.Subset.refl _
  refine ⟨⟨hok.nodup, fun other => ?_, hok.few, fun other buffered hbuf => ?_⟩, hrt,
    hloss.trans hgrow, ⟨(bufferFrame frame before).1, ?_, hsub, fun hno => hkept ?_⟩, fun other hne => ?_⟩
  · dsimp only
    rw [hok.listed, get?_set]
    by_cases heq : other = threadId
    · rw [if_pos heq, heq, hat]
      exact iff_of_true (some_ne_none _) (some_ne_none _)
    · rw [if_neg heq]
  · dsimp only at hbuf
    rw [get?_set] at hbuf
    split_ifs at hbuf
    · rw [← some.inj hbuf]
      exact ⟨hcnt, hby⟩
    · exact hok.buffers other buffered hbuf
  · rw [get?_set, if_pos rfl]
  · by_contra htrue
    rw [Bool.not_eq_false] at htrue
    rw [if_pos htrue] at hno
    exact hno (Finset.mem_insert_self _ _)
  · rw [get?_set, if_neg hne]
    exact (hoths other hne).imp_right fun hgone => ⟨hgone.1, hgrow hgone.2⟩

lemma takeOrphans_spec (h : table.OrphansOk) (threadId : String) :
    (table.takeOrphans threadId).2.OrphansOk ∧
      ∀ other, (table.takeOrphans threadId).2.orphans.get? other =
        if other = threadId then none else table.orphans.get? other := by
  unfold takeOrphans
  refine ⟨⟨h.nodup.filter _, fun other => ?_, (length_filter_le _ _).trans h.few,
    fun other buffered hbuf => ?_⟩, fun other => get?_delete _ _ _⟩
  · rw [mem_filter, decide_eq_true_iff, h.listed, get?_delete]
    split_ifs with heq
    · exact iff_of_false (fun hand => hand.2 heq) fun hne => hne rfl
    · exact and_iff_left heq
  · rw [get?_delete] at hbuf
    split_ifs at hbuf
    exact h.buffers other buffered hbuf

end RouteTable

end CodevoEditor.CodexAppServer
