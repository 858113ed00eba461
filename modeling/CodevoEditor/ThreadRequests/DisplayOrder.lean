/-
# The order of displayed requests, and what is dropped of them

Requests are ordered by the start of their turn, the turn, their place in it and their id.
-/

import CodevoEditor.ThreadRequests.Model

namespace CodevoEditor.ThreadRequests

open Js List

variable {β : Type}

abbrev RequestRank := ℕ ×ₗ List ℕ ×ₗ ℕ ×ₗ List ℕ

def rank (starts : OrderedMap JsString ℕ) (request : AgentRuntimeRequest β) : RequestRank :=
  toLex (startOf starts request, toLex (units request.turnId, toLex (request.order, units request.id)))

lemma compares_requests (starts) : Compares (compareRequests starts) (rank starts (β := β)) :=
  (((compares_text AgentRuntimeRequest.id).then AgentRuntimeRequest.order).thenText
    AgentRuntimeRequest.turnId).then (startOf starts)

lemma key_eq_of_rank_eq {starts : OrderedMap JsString ℕ} {a b : AgentRuntimeRequest β}
    (h : rank starts a = rank starts b) : a.key = b.key := by
  have hturn : a.turnId = b.turnId := units_injective (congrArg (fun rank => (ofLex (ofLex rank).2).1) h)
  have hid : a.id = b.id := units_injective (congrArg (fun rank => (ofLex (ofLex (ofLex rank).2).2).2) h)
  unfold AgentRuntimeRequest.key
  rw [hturn, hid]

def fenceRank (fence : AgentRuntimeRequestFence) : ℕ ×ₗ List ℕ ×ₗ List ℕ :=
  toLex (fence.createdAtEpochMs, toLex (units fence.turnId, units fence.id))

lemma compares_fences : Compares compareFences fenceRank :=
  ((compares_text AgentRuntimeRequestFence.id).thenText AgentRuntimeRequestFence.turnId).then
    AgentRuntimeRequestFence.createdAtEpochMs

lemma createdAt_le_of_fenceRank_le {a b} (h : fenceRank a ≤ fenceRank b) :
    a.createdAtEpochMs ≤ b.createdAtEpochMs := by
  rcases Prod.Lex.toLex_le_toLex.1 h with hlt | ⟨heq, -⟩
  · exact hlt.le
  · exact heq.le

/-- What one request says of the start of a turn. -/
def earliest (turnId : JsString) (known : Option ℕ) (request : AgentRuntimeRequest β) : Option ℕ :=
  if request.turnId = turnId then
    some (min (known.getD request.createdAtEpochMs) request.createdAtEpochMs)
  else known

lemma earliest_right_comm (turnId : JsString) (known : Option ℕ) (a b : AgentRuntimeRequest β) :
    earliest turnId (earliest turnId known a) b = earliest turnId (earliest turnId known b) a := by
  unfold earliest
  split_ifs with hb ha ha
  · cases known with
    | none =>
      simp only [Option.getD_none, Option.getD_some, min_self]
      rw [min_comm]
    | some start =>
      simp only [Option.getD_some]
      rw [min_right_comm]
  · rfl
  · rfl
  · rfl

lemma get?_turnStarts (requests : List (AgentRuntimeRequest β)) (turnId : JsString) :
    (turnStarts requests).get? turnId = requests.foldl (earliest turnId) none := by
  suffices ∀ starts : OrderedMap JsString ℕ, (requests.foldl (fun starts request =>
      starts.set request.turnId (min ((starts.get? request.turnId).getD request.createdAtEpochMs)
        request.createdAtEpochMs)) starts).get? turnId =
      requests.foldl (earliest turnId) (starts.get? turnId) from this .empty
  induction requests with
  | nil => exact fun _ => rfl
  | cons request requests ih =>
    intro starts
    rw [foldl_cons, foldl_cons, ih, OrderedMap.get?_set]
    congr 1
    unfold earliest
    by_cases h : request.turnId = turnId
    · rw [if_pos h.symm, if_pos h, h]
    · rw [if_neg (Ne.symm h), if_neg h]

variable {requests requests' : List (AgentRuntimeRequest β)}

lemma turnStarts_perm (h : requests.Perm requests') (turnId : JsString) :
    (turnStarts requests).get? turnId = (turnStarts requests').get? turnId := by
  rw [get?_turnStarts, get?_turnStarts]
  exact h.foldl_eq' (fun a _ b _ known => earliest_right_comm turnId known a b) none

lemma compareRequests_perm (h : requests.Perm requests') :
    compareRequests (turnStarts requests) (β := β) = compareRequests (turnStarts requests') := by
  funext left right
  unfold compareRequests startOf
  rw [turnStarts_perm h, turnStarts_perm h]

/-- Different keys. -/
def DistinctKeys (requests : List (AgentRuntimeRequest β)) : Prop :=
  (requests.map AgentRuntimeRequest.key).Nodup

lemma DistinctKeys.eq (h : DistinctKeys requests) {a b}
    (ha : a ∈ requests) (hb : b ∈ requests) (hkey : a.key = b.key) : a = b :=
  inj_on_of_nodup_map h ha hb hkey

lemma DistinctKeys.perm (h : DistinctKeys requests) (hperm : requests.Perm requests') : DistinctKeys requests' :=
  (hperm.map _).nodup_iff.1 h

lemma DistinctKeys.sublist (h : DistinctKeys requests) (hsub : requests'.Sublist requests) : DistinctKeys requests' :=
  List.Nodup.sublist (hsub.map _) h

lemma DistinctKeys.nodup (h : DistinctKeys requests) :
    requests.Nodup := h.of_map _

lemma ordered_perm (requests : List (AgentRuntimeRequest β)) : (ordered requests).Perm requests :=
  sort_perm _ _

/-- **What is displayed is determined by the requests.** -/
theorem ordered_eq_of_perm (h : DistinctKeys requests) (hperm : requests.Perm requests') :
    ordered requests = ordered requests' := by
  unfold ordered
  rw [← compareRequests_perm hperm]
  exact sort_eq_of_perm (compares_requests _) (fun a ha b hb hrank => h.eq ha hb (key_eq_of_rank_eq hrank)) hperm

lemma ordered_ordered (h : DistinctKeys requests) : ordered (ordered requests) = ordered requests :=
  (ordered_eq_of_perm h (ordered_perm requests).symm).symm

lemma partitioned_of_le (h : requests.length ≤ maxAgentThreadRequestsRetained) :
    partitioned requests = ⟨ordered requests, []⟩ := by
  exact if_pos ((ordered_perm requests).length_eq.trans_le h)

lemma partitioned_of_lt (hdist : DistinctKeys requests)
    (h : maxAgentThreadRequestsRetained < requests.length) :
    ∃ closed survivors : List (AgentRuntimeRequest β),
      (closed ++ survivors).Perm requests ∧
      (∀ request ∈ closed, isOpen request = false) ∧
      ((∃ request ∈ survivors, isOpen request = false) →
        closed.length = requests.length - maxAgentThreadRequestsRetained) ∧
      closed.length ≤ requests.length - maxAgentThreadRequestsRetained ∧
      partitioned requests =
        ⟨ordered (survivors.drop (survivors.length - maxAgentThreadRequestsRetained)),
          closed ++ survivors.take (survivors.length - maxAgentThreadRequestsRetained)⟩ := by
  have hperm := ordered_perm requests
  have hlen := hperm.length_eq
  have hsort : DistinctKeys (ordered requests) := hdist.perm hperm.symm
  let shut := (ordered requests).filter fun request => !isOpen request
  let excess := (ordered requests).length - maxAgentThreadRequestsRetained
  let closed := shut.take excess
  have hcl : ∀ request ∈ closed, request ∈ ordered requests ∧ isOpen request = false :=
    fun request hmem => by
      have hshut := mem_filter.1 (mem_of_mem_take hmem)
      exact ⟨hshut.1, by simpa using hshut.2⟩
  have hsub : closed.Sublist (ordered requests) := (take_sublist _ _).trans filter_sublist
  have htkn : ((ordered requests).filter fun request =>
      request.key ∈ closed.map AgentRuntimeRequest.key).Perm closed := by
    refine (perm_ext_iff_of_nodup (hsort.nodup.sublist filter_sublist)
      (hsort.nodup.sublist hsub)).2 fun request => ?_
    rw [mem_filter, decide_eq_true_iff, mem_map]
    constructor
    · rintro ⟨hreq, other, hoth, hkey⟩
      rwa [← hsort.eq (hcl other hoth).1 hreq hkey]
    · exact fun hmem => ⟨(hcl request hmem).1, request, hmem, rfl⟩
  refine ⟨closed, (ordered requests).filter fun request =>
    request.key ∉ closed.map AgentRuntimeRequest.key, ?_, fun request hmem => (hcl request hmem).2,
    ?_, ?_, ?_⟩
  · refine (htkn.symm.append_right _).trans (.trans ?_ hperm)
    have hspl := filter_append_perm
      (fun request => decide (request.key ∈ closed.map AgentRuntimeRequest.key)) (ordered requests)
    simpa only [decide_not] using hspl
  · rintro ⟨request, hmem, hshut⟩
    obtain ⟨hreq, hkey⟩ := mem_filter.1 hmem
    have hnot : request ∉ closed := fun hcl =>
      (decide_eq_true_iff.1 hkey) (mem_map.2 ⟨request, hcl, rfl⟩)
    have hin : request ∈ shut := mem_filter.2 ⟨hreq, by rw [hshut]; rfl⟩
    rw [← hlen, length_take, min_eq_left]
    by_contra hlt
    exact hnot (by rw [show closed = shut from take_of_length_le (not_le.1 hlt).le]; exact hin)
  · rw [← hlen]
    exact length_take_le _ _
  · unfold partitioned
    rw [if_neg (by rw [hlen]; exact not_le.2 h)]

/-- **What `partitioned` does**: as many as are retained are kept, in order, and a closed one only
where no open one is dropped. -/
structure Partitions (partition : Partition β) (requests : List (AgentRuntimeRequest β)) : Prop where
  perm : (partition.kept ++ partition.dropped).Perm requests
  retained : partition.kept.length ≤ maxAgentThreadRequestsRetained
  sorted : ordered partition.kept = partition.kept
  openLast : (∃ request ∈ partition.dropped, isOpen request) →
    ∀ request ∈ partition.kept, isOpen request

lemma partitions_partitioned (h : DistinctKeys requests) : Partitions (partitioned requests) requests := by
  rcases le_or_gt requests.length maxAgentThreadRequestsRetained with hle | hlt
  · rw [partitioned_of_le hle]
    refine ⟨?_, (ordered_perm requests).length_eq.trans_le hle, ordered_ordered h, ?_⟩
    · rw [append_nil]
      exact ordered_perm requests
    · rintro ⟨_, hmem, -⟩
      cases hmem
  · obtain ⟨closed, survivors, hperm, hcl, hfull, hfew, heq⟩ := partitioned_of_lt h hlt
    have hsum := hperm.length_eq
    rw [length_append] at hsum
    let overflow := survivors.length - maxAgentThreadRequestsRetained
    have hdist : DistinctKeys (survivors.drop overflow) :=
      (h.perm hperm.symm).sublist ((drop_sublist _ _).trans (sublist_append_right _ _))
    rw [heq]
    refine ⟨?_, ?_, ordered_ordered hdist, ?_⟩
    · refine .trans ?_ hperm
      refine ((ordered_perm _).append_right _).trans (perm_append_comm.trans ?_)
      rw [append_assoc, take_append_drop]
    · rw [(ordered_perm _).length_eq, length_drop]
      omega
    · rintro ⟨request, hmem, hopen⟩ kept hkept
      have hsurvivor := mem_of_mem_drop ((ordered_perm _).mem_iff.1 hkept)
      rcases mem_append.1 hmem with hmem | hmem
      · rw [hcl request hmem] at hopen
        cases hopen
      · by_contra hshut
        have hcnt := hfull ⟨kept, hsurvivor, Bool.not_eq_true _ ▸ hshut⟩
        have htake : overflow = 0 := by omega
        rw [show survivors.take (survivors.length - maxAgentThreadRequestsRetained) = [] by
          rw [show survivors.length - maxAgentThreadRequestsRetained = 0 from htake, take_zero]] at hmem
        cases hmem

end CodevoEditor.ThreadRequests
