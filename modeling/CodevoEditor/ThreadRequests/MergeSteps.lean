/-
# What one merge does to one key

The loop of a merge treats each key on its own (`get?_admitted`).
-/

import CodevoEditor.ThreadRequests.DisplayOrder

namespace CodevoEditor.ThreadRequests

open Js List OrderedMap

variable {β : Type} {state : AgentThreadRequestsState β} {message : AgentThreadRequestsMerge β} {k : JsString}

/-- What a candidate does to what is displayed under a key. -/
def offerAt (state : AgentThreadRequestsState β) (source : AgentThreadRequestsSource) (k : JsString)
    (held : Option (AgentRuntimeRequest β)) (candidate : AgentRuntimeRequest β) :
    Option (AgentRuntimeRequest β) :=
  if candidate.key = k ∧ isAdmissible candidate ((held.map AgentRuntimeRequest.version).or
      ((state.fences.get? k).map AgentRuntimeRequestFence.version)) source state.horizon then
    some candidate
  else held

/-- What the loop leaves under a key. -/
def newest (state : AgentThreadRequestsState β) (message : AgentThreadRequestsMerge β) (k : JsString) :
    Option (AgentRuntimeRequest β) :=
  message.requests.foldl (offerAt state message.source k) (state.displayed.get? k)

lemma get?_offer (source)
    (progress) (candidate)
    (k : JsString) : (offer state source progress candidate).1.get? k =
      offerAt state source k (progress.1.get? k) candidate := by
  unfold offer
  dsimp only
  by_cases hkey : candidate.key = k
  · subst hkey
    unfold offerAt
    split_ifs with h h' h'
    · rw [get?_set, if_pos rfl]
    · exact absurd ⟨rfl, h⟩ h'
    · exact absurd h'.2 h
    · rfl
  · have hoffer : offerAt state source k (progress.1.get? k) candidate = progress.1.get? k :=
      if_neg fun h => hkey h.1
    rw [hoffer]
    split_ifs
    · rw [get?_set, if_neg (Ne.symm hkey)]
    · rfl

theorem get?_admitted (state : AgentThreadRequestsState β) (message : AgentThreadRequestsMerge β)
    (k : JsString) : (admitted state message).1.get? k = newest state message k := by
  unfold admitted newest
  generalize state.displayed = shown
  suffices ∀ progress : OrderedMap JsString (AgentRuntimeRequest β) × Bool,
      (message.requests.foldl (offer state message.source) progress).1.get? k =
        message.requests.foldl (offerAt state message.source k) (progress.1.get? k) from this (shown, false)
  induction message.requests with
  | nil => exact fun _ => rfl
  | cons candidate candidates ih =>
    intro progress
    rw [foldl_cons, ih, get?_offer, foldl_cons]

lemma keyed_admitted (state : AgentThreadRequestsState β) (message : AgentThreadRequestsMerge β) :
    OrderedMap.Keyed AgentRuntimeRequest.key (admitted state message).1 := by
  suffices ∀ progress : OrderedMap JsString (AgentRuntimeRequest β) × Bool,
      OrderedMap.Keyed AgentRuntimeRequest.key progress.1 → OrderedMap.Keyed AgentRuntimeRequest.key
        (message.requests.foldl (offer state message.source) progress).1 from
    this _ (keyed_keyedBy _ _)
  induction message.requests with
  | nil => exact fun _ h => h
  | cons candidate candidates ih =>
    refine fun progress h => ih _ ?_
    unfold offer
    dsimp only
    split_ifs
    · exact h.set candidate
    · exact h

lemma admitted_unchanged (h : (admitted state message).2 = false) : (admitted state message).1 = state.displayed := by
  unfold admitted at h ⊢
  suffices ∀ progress : OrderedMap JsString (AgentRuntimeRequest β) × Bool,
      (message.requests.foldl (offer state message.source) progress).2 = false →
        (message.requests.foldl (offer state message.source) progress) = progress by
    rw [this _ h]
  clear h
  induction message.requests with
  | nil => exact fun _ _ => rfl
  | cons candidate candidates ih =>
    intro progress h
    have hrest := ih _ h
    rw [foldl_cons, hrest] at h
    rw [foldl_cons, hrest]
    unfold offer at h ⊢
    dsimp only at h ⊢
    split_ifs at h ⊢
    rfl

/-- **What holds of every state.** -/
structure AgentThreadRequestsState.Ok (state : AgentThreadRequestsState β) : Prop where
  distinct : DistinctKeys state.requests
  retained : state.requests.length ≤ maxAgentThreadRequestsRetained
  sorted : ordered state.requests = state.requests
  fenceKeys : (state.retention.fences.map AgentRuntimeRequestFence.key).Nodup
  fenced : state.retention.fences.length ≤ maxAgentThreadRequestFences
  apart : ∀ request ∈ state.requests, ∀ fence ∈ state.retention.fences, request.key ≠ fence.key
  forgotten : state.retention.fences ≠ [] ∨ state.horizon ≠ none → state.truncated

variable {request : AgentRuntimeRequest β} {fence : AgentRuntimeRequestFence}

namespace AgentThreadRequestsState.Ok

variable (h : state.Ok)
include h

lemma get?_displayed : state.displayed.get? k = some request ↔ request ∈ state.requests ∧ request.key = k :=
  get?_keyedBy_eq_some_iff h.distinct

lemma get?_fences : state.fences.get? k = some fence ↔ fence ∈ state.retention.fences ∧ fence.key = k :=
  get?_keyedBy_eq_some_iff h.fenceKeys

lemma fences_of_displayed (hreq : state.displayed.get? k = some request) : state.fences.get? k = none := by
  obtain ⟨hmem, hkey⟩ := h.get?_displayed.1 hreq
  exact (get?_keyedBy_eq_none_iff h.fenceKeys).2 fun fence hfence heq =>
    h.apart request hmem fence hfence (hkey.trans heq.symm)

end AgentThreadRequestsState.Ok

lemma ok_blank (message : AgentThreadRequestsMerge β) : (blank message).Ok where
  distinct := nodup_nil
  retained := Nat.zero_le _
  sorted := eq_nil_of_length_eq_zero (ordered_perm _).length_eq
  fenceKeys := nodup_nil
  fenced := Nat.zero_le _
  apart := nofun
  forgotten := fun h => by rcases h with h | h <;> exact absurd rfl h

lemma key_fenceOf (request : AgentRuntimeRequest β) : (fenceOf request).key = request.key := rfl

variable {horizon : ℕ}

lemma le_forgottenThrough {previous} (latest)
    (h : previous = some horizon) :
    ∃ later, forgottenThrough previous latest = some later ∧ horizon ≤ later := by
  cases latest with
  | none => exact ⟨horizon, h, le_rfl⟩
  | some fence =>
    refine ⟨_, rfl, ?_⟩
    rw [h]
    exact le_max_left _ _

section Refenced

variable {retention : AgentThreadRequestsRetention} {fences : OrderedMap JsString AgentRuntimeRequestFence}
  {partition : Partition β}

lemma keyed_fencesAfter (h : OrderedMap.Keyed AgentRuntimeRequestFence.key fences) :
    OrderedMap.Keyed AgentRuntimeRequestFence.key (fencesAfter fences partition) :=
  (h.deleteAll AgentRuntimeRequest.key partition.kept).setAll key_fenceOf partition.dropped

lemma fences_refenced (retention)
    (fences) (partition : Partition β) :
    ∃ overflow, (refenced retention fences partition).fences =
      (sort compareFences (fencesAfter fences partition).values).drop overflow := by
  unfold refenced
  dsimp only
  exact ⟨_, .refl _⟩

lemma mem_refenced (h : fence ∈ (refenced retention fences partition).fences) :
    fence ∈ (fencesAfter fences partition).values := by
  obtain ⟨overflow, heq⟩ := fences_refenced retention fences partition
  rw [heq] at h
  exact mem_sort.1 (mem_of_mem_drop h)

lemma nodup_refenced (retention) (partition : Partition β)
    (h : OrderedMap.Keyed AgentRuntimeRequestFence.key fences) :
    ((refenced retention fences partition).fences.map AgentRuntimeRequestFence.key).Nodup := by
  obtain ⟨overflow, heq⟩ := fences_refenced retention fences partition
  rw [heq]
  refine List.Nodup.sublist ((drop_sublist _ _).map _) ?_
  exact ((sort_perm _ _).map _).nodup_iff.2 (keyed_fencesAfter h).nodup

lemma length_refenced : (refenced retention fences partition).fences.length ≤ maxAgentThreadRequestFences := by
  unfold refenced
  rw [length_drop]
  omega

lemma horizon_refenced (h : retention.forgottenThroughEpochMs = some horizon) :
    ∃ later, (refenced retention fences partition).forgottenThroughEpochMs = some later ∧ horizon ≤ later := by
  unfold refenced
  dsimp only
  exact le_forgottenThrough _ h

lemma refenced_quiet (retention) (hfences : ∀ key, fences.get? key = none) (hdrops : partition.dropped = [])
    (hhorizon : retention.forgottenThroughEpochMs = none) :
    refenced retention fences partition = noRetention := by
  have hnone : ∀ key, (fencesAfter fences partition).get? key = none := by
    intro key
    unfold fencesAfter
    rw [hdrops]
    change (fences.deleteAll AgentRuntimeRequest.key partition.kept).get? key = none
    rw [get?_deleteAll, hfences, ite_self]
  have hvalues : (fencesAfter fences partition).values = [] := by
    refine eq_nil_of_length_eq_zero ?_
    rw [length_values]
    exact size_eq_zero_iff.2 hnone
  have hsort : sort compareFences (fencesAfter fences partition).values = [] := by
    refine eq_nil_of_length_eq_zero ?_
    rw [length_sort, hvalues, length_nil]
  unfold refenced
  rw [hsort, hhorizon]
  rfl

lemma refenced_cases (hmem : fence ∈ (fencesAfter fences partition).values) :
    fence ∈ (refenced retention fences partition).fences ∨
      ∃ horizon, (refenced retention fences partition).forgottenThroughEpochMs = some horizon ∧
        fence.createdAtEpochMs ≤ horizon := by
  unfold refenced
  dsimp only
  generalize hsort : sort compareFences (fencesAfter fences partition).values = sorted
  generalize sorted.length - maxAgentThreadRequestFences = overflow
  have hpair := pairwise_sort compares_fences (fencesAfter fences partition).values
  rw [hsort] at hpair
  have hin : fence ∈ sorted.take overflow ++ sorted.drop overflow := by
    rw [take_append_drop, ← hsort]
    exact mem_sort.2 hmem
  rcases mem_append.1 hin with htake | hdrop
  · right
    obtain ⟨front, latest, hlast⟩ := eq_nil_or_concat (sorted.take overflow) |>.resolve_left (ne_nil_of_mem htake)
    rw [concat_eq_append] at hlast
    have hlatest : fence.createdAtEpochMs ≤ latest.createdAtEpochMs := by
      have hsub := hpair.sublist (take_sublist overflow sorted)
      rw [hlast] at hsub htake
      rcases mem_append.1 htake with hfr | hfr
      · exact createdAt_le_of_fenceRank_le ((pairwise_append.1 hsub).2.2 fence hfr latest (mem_singleton_self _))
      · rw [mem_singleton.1 hfr]
    rw [hlast, getLast?_concat]
    exact ⟨_, rfl, hlatest.trans (le_max_right _ _)⟩
  · exact .inl hdrop

end Refenced

/-- **What becomes of what is held under a key.** -/
inductive Fate (next : AgentThreadRequestsState β) (k : JsString)
    (held : Option (AgentRuntimeRequest β)) (fence : Option AgentRuntimeRequestFence) : Prop
  | shown (request : AgentRuntimeRequest β) (hheld : held = some request)
      (hshown : next.displayed.get? k = some request) (hfence : next.fences.get? k = none)
  | fenced (kept : AgentRuntimeRequestFence) (hkept : (held.map fenceOf).or fence = some kept)
      (hshown : next.displayed.get? k = none) (hfence : next.fences.get? k = some kept)
  | gone (hshown : next.displayed.get? k = none) (hfence : next.fences.get? k = none)
      (hhorizon : ∀ kept, (held.map fenceOf).or fence = some kept →
        ∃ horizon, next.horizon = some horizon ∧ kept.createdAtEpochMs ≤ horizon)

/-- The requests there are to display. -/
abbrev toDisplay (state : AgentThreadRequestsState β) (message : AgentThreadRequestsMerge β) :
    List (AgentRuntimeRequest β) := (admitted state message).1.values

lemma distinct_toDisplay (state : AgentThreadRequestsState β) (message : AgentThreadRequestsMerge β) :
    DistinctKeys (toDisplay state message) := (keyed_admitted state message).nodup

lemma mem_toDisplay : request ∈ toDisplay state message ↔ newest state message request.key = some request := by
  rw [← get?_admitted, (keyed_admitted state message).get?_eq_some_iff]
  exact ⟨fun h => ⟨h, rfl⟩, And.left⟩

lemma newest_eq_some_iff :
    newest state message k = some request ↔ request ∈ toDisplay state message ∧ request.key = k := by
  rw [← get?_admitted]
  exact (keyed_admitted state message).get?_eq_some_iff

lemma applied_cases (state : AgentThreadRequestsState β) (message : AgentThreadRequestsMerge β) :
    (admitted state message).1 = state.displayed ∧
        applied state message = published state message state.requests state.retention false ∨
      applied state message = published state message (partitioned (toDisplay state message)).kept
        (refenced state.retention state.fences (partitioned (toDisplay state message)))
        (0 < (partitioned (toDisplay state message)).dropped.length) := by
  unfold applied
  dsimp only
  split_ifs with h
  · exact .inl ⟨admitted_unchanged (by simpa using h), rfl⟩
  · exact .inr rfl

variable {requests : List (AgentRuntimeRequest β)} {partition : Partition β}

/-- A fence under a key once displayed requests have lost theirs and dropped ones got one. -/
lemma get?_fencesAfter (fences)
    (h : Partitions partition requests) (hdist : DistinctKeys requests)
    (hmem : request ∈ requests) :
    (request ∈ partition.kept ∧ (fencesAfter fences partition).get? request.key = none) ∨
      request ∈ partition.dropped ∧ (∀ kept ∈ partition.kept, kept.key ≠ request.key) ∧
        (fencesAfter fences partition).get? request.key = some (fenceOf request) := by
  have hboth : DistinctKeys (partition.kept ++ partition.dropped) := hdist.perm h.perm.symm
  have hdrops : DistinctKeys partition.dropped := hboth.sublist (sublist_append_right _ _)
  have hapart : ∀ kept ∈ partition.kept, ∀ dropped ∈ partition.dropped, kept.key ≠ dropped.key := by
    intro kept hkept dropped hdrop
    unfold DistinctKeys at hboth
    rw [map_append] at hboth
    exact (nodup_append.1 hboth).2.2 _ (mem_map_of_mem hkept) _ (mem_map_of_mem hdrop)
  unfold fencesAfter
  rcases mem_append.1 (h.perm.mem_iff.2 hmem) with hkept | hdrop
  · refine .inl ⟨hkept, ?_⟩
    rw [get?_setAll_of_not_mem, get?_deleteAll, if_pos (mem_map_of_mem hkept)]
    rintro hin
    obtain ⟨dropped, hdrop, heq⟩ := mem_map.1 hin
    exact hapart request hkept dropped hdrop heq.symm
  · refine .inr ⟨hdrop, fun kept hkept => hapart kept hkept request hdrop, ?_⟩
    exact get?_setAll_of_mem fenceOf _ hdrops hdrop

lemma get?_fencesAfter_of_none (fences)
    (h : Partitions partition requests) (hnone : ∀ request ∈ requests, request.key ≠ k) :
    (fencesAfter fences partition).get? k = fences.get? k := by
  unfold fencesAfter
  rw [get?_setAll_of_not_mem, get?_deleteAll, if_neg]
  · rintro hin
    obtain ⟨kept, hkept, heq⟩ := mem_map.1 hin
    exact hnone kept (h.perm.mem_iff.1 (mem_append_left _ hkept)) heq
  · rintro hin
    obtain ⟨dropped, hdrops, heq⟩ := mem_map.1 hin
    exact hnone dropped (h.perm.mem_iff.1 (mem_append_right _ hdrops)) heq

theorem fate_applied (h : state.Ok) (message : AgentThreadRequestsMerge β) (k : JsString) :
    Fate (applied state message) k (newest state message k) (state.fences.get? k) := by
  rcases applied_cases state message with ⟨hsame, heq⟩ | heq
  · rw [heq, ← get?_admitted, hsame]
    cases hshn : state.displayed.get? k with
    | some request =>
      exact .shown request rfl hshn (h.fences_of_displayed hshn)
    | none =>
      cases hfence : state.fences.get? k with
      | some fence => exact .fenced fence rfl hshn hfence
      | none => exact .gone hshn hfence nofun
  · have hpart := partitions_partitioned (distinct_toDisplay state message)
    have hdist := distinct_toDisplay state message
    rw [heq]
    generalize partitioned (toDisplay state message) = partition at hpart ⊢
    have hkeyed : OrderedMap.Keyed AgentRuntimeRequestFence.key (fencesAfter state.fences partition) :=
      keyed_fencesAfter (keyed_keyedBy _ _)
    have hkept : DistinctKeys partition.kept :=
      (hdist.perm hpart.perm.symm).sublist (sublist_append_left _ _)
    have hfences := nodup_refenced state.retention partition
      (keyed_keyedBy AgentRuntimeRequestFence.key state.retention.fences)
    have hnofence : (fencesAfter state.fences partition).get? k = none →
        (OrderedMap.keyedBy AgentRuntimeRequestFence.key
          (refenced state.retention state.fences partition).fences).get? k = none := fun hnone => by
      refine (get?_keyedBy_eq_none_iff hfences).2 fun fence hfence hkey => ?_
      have hat := hkeyed.get?_eq_some_iff.2 ⟨mem_refenced hfence, hkey⟩
      rw [hnone] at hat
      cases hat
    have hfence {fence} (hat : (fencesAfter state.fences partition).get? k = some fence) :
        (OrderedMap.keyedBy AgentRuntimeRequestFence.key
          (refenced state.retention state.fences partition).fences).get? k = some fence ∨
        (OrderedMap.keyedBy AgentRuntimeRequestFence.key
          (refenced state.retention state.fences partition).fences).get? k = none ∧
        ∃ horizon, (refenced state.retention state.fences partition).forgottenThroughEpochMs = some horizon ∧
          fence.createdAtEpochMs ≤ horizon := by
      obtain ⟨hmem, hkey⟩ := hkeyed.get?_eq_some_iff.1 hat
      by_cases hin : fence ∈ (refenced state.retention state.fences partition).fences
      · exact .inl ((get?_keyedBy_eq_some_iff hfences).2 ⟨hin, hkey⟩)
      · refine .inr ⟨(get?_keyedBy_eq_none_iff hfences).2 fun other hoth hotherKey => ?_,
          (refenced_cases hmem).resolve_left hin⟩
        have hsame := hkeyed.get?_eq_some_iff.2 ⟨mem_refenced hoth, hotherKey⟩
        rw [hat] at hsame
        exact hin (Option.some.inj hsame ▸ hoth)
    cases hnew : newest state message k with
    | some request =>
      obtain ⟨hmem, rfl⟩ := newest_eq_some_iff.1 hnew
      rcases get?_fencesAfter state.fences hpart hdist hmem with
        ⟨hin, hnone⟩ | ⟨hdrop, hapart, hat⟩
      · exact .shown request rfl ((get?_keyedBy_eq_some_iff hkept).2 ⟨hin, rfl⟩) (hnofence hnone)
      · have hshn := (get?_keyedBy_eq_none_iff hkept).2 hapart
        rcases hfence hat with hin | ⟨hnone, hhorizon⟩
        · exact .fenced _ rfl hshn hin
        · exact .gone hshn hnone fun kept hkept => by rwa [← Option.some.inj hkept]
    | none =>
      have hno : ∀ request ∈ toDisplay state message, request.key ≠ k := fun request hmem hkey => by
        rw [newest_eq_some_iff.2 ⟨hmem, hkey⟩] at hnew
        cases hnew
      have hshn := (get?_keyedBy_eq_none_iff hkept).2 fun request hin =>
        hno request (hpart.perm.mem_iff.1 (mem_append_left _ hin))
      have hat := get?_fencesAfter_of_none state.fences hpart hno
      cases hold : state.fences.get? k with
      | none => exact .gone hshn (hnofence (hat.trans hold)) nofun
      | some fence =>
        rcases hfence (hat.trans hold) with hin | ⟨hnone, hhorizon⟩
        · exact .fenced fence rfl hshn hin
        · exact .gone hshn hnone fun kept hkept => by rwa [← Option.some.inj hkept]

lemma horizon_applied (message : AgentThreadRequestsMerge β) (h : state.horizon = some horizon) :
    ∃ later, (applied state message).horizon = some later ∧ horizon ≤ later := by
  rcases applied_cases state message with ⟨-, heq⟩ | heq <;> rw [heq]
  · exact ⟨horizon, h, le_rfl⟩
  · exact horizon_refenced h

lemma threadId_applied (state : AgentThreadRequestsState β) (message : AgentThreadRequestsMerge β) :
    (applied state message).threadId = state.threadId ∧ (applied state message).epoch = state.epoch := by
  rcases applied_cases state message with ⟨-, heq⟩ | heq <;> rw [heq] <;> exact ⟨rfl, rfl⟩

theorem AgentThreadRequestsState.Ok.applied (h : state.Ok) (message : AgentThreadRequestsMerge β) :
    (applied state message).Ok := by
  have hfate := fate_applied h message
  rcases applied_cases state message with ⟨-, heq⟩ | heq
  · rw [heq]
    refine ⟨h.distinct, h.retained, h.sorted, h.fenceKeys, h.fenced, h.apart, fun hany => ?_⟩
    change (state.truncated || message.truncated || false)
    rw [h.forgotten hany, Bool.true_or, Bool.true_or]
  · have hpart := partitions_partitioned (distinct_toDisplay state message)
    rw [heq] at hfate ⊢
    generalize partitioned (toDisplay state message) = partition at hpart hfate ⊢
    have hkept : DistinctKeys partition.kept :=
      ((distinct_toDisplay state message).perm hpart.perm.symm).sublist (sublist_append_left _ _)
    have hfences := nodup_refenced state.retention partition
      (keyed_keyedBy AgentRuntimeRequestFence.key state.retention.fences)
    refine ⟨hkept, hpart.retained, hpart.sorted, hfences, length_refenced,
      fun request hreq fence hfence hkey => ?_, fun hany => ?_⟩
    · have hshn := (get?_keyedBy_eq_some_iff hkept).2 ⟨hreq, rfl⟩
      have hat := (get?_keyedBy_eq_some_iff hfences).2 ⟨hfence, hkey.symm⟩
      rcases hfate request.key with ⟨_, _, _, hnone⟩ | ⟨_, _, hnone, _⟩ | ⟨hnone, _, _⟩
      · cases hnone.symm.trans hat
      · cases hnone.symm.trans hshn
      · cases hnone.symm.trans hshn
    · change (state.truncated || message.truncated || decide (0 < partition.dropped.length))
      by_contra htr
      rw [Bool.not_eq_true, Bool.or_eq_false_iff, Bool.or_eq_false_iff, decide_eq_false_iff_not,
        Nat.not_lt, Nat.le_zero, length_eq_zero_iff] at htr
      obtain ⟨⟨hstate, -⟩, hdrops⟩ := htr
      have hqt : ¬(state.retention.fences ≠ [] ∨ state.horizon ≠ none) := fun hany => by
        rw [h.forgotten hany] at hstate
        cases hstate
      rw [not_or, not_not, not_not] at hqt
      have hnone : ∀ key, state.fences.get? key = none := fun key => by
        unfold AgentThreadRequestsState.fences
        rw [hqt.1]
        rfl
      have hretn := refenced_quiet state.retention hnone hdrops hqt.2
      change (refenced state.retention state.fences partition).fences ≠ [] ∨
        (refenced state.retention state.fences partition).forgottenThroughEpochMs ≠ none at hany
      rw [hretn] at hany
      exact hany.elim (fun hne => hne rfl) fun hne => hne rfl

/-- The state that a merge starts from. -/
def mergeBase (state : Option (AgentThreadRequestsState β)) (message : AgentThreadRequestsMerge β) :
    AgentThreadRequestsState β :=
  match state with
  | none => blank message
  | some state => if message.reset || state.epoch ≠ message.epoch then blank message else state

lemma merge_eq (state : Option (AgentThreadRequestsState β)) (message : AgentThreadRequestsMerge β) :
    (∃ before, state = some before ∧ before.threadId ≠ message.threadId ∧
        mergeAgentThreadRequests state message = before) ∨
      (∀ before, state = some before → before.threadId = message.threadId) ∧
        mergeAgentThreadRequests state message = applied (mergeBase state message) message := by
  cases state with
  | none => exact .inr ⟨nofun, rfl⟩
  | some before =>
    by_cases hthr : before.threadId = message.threadId
    · refine .inr ⟨fun _ h => Option.some.inj h ▸ hthr, ?_⟩
      unfold mergeAgentThreadRequests mergeBase
      dsimp only
      rw [if_neg (not_not.2 hthr)]
      split_ifs <;> rfl
    · refine .inl ⟨before, rfl, hthr, ?_⟩
      exact if_pos hthr

variable {state : Option (AgentThreadRequestsState β)}

lemma mergeBase_threadId {message}
    (hthr : ∀ before, state = some before → before.threadId = message.threadId) :
    (mergeBase state message).threadId = message.threadId ∧ (mergeBase state message).epoch = message.epoch := by
  unfold mergeBase
  split
  · exact ⟨rfl, rfl⟩
  · split_ifs with hreset
    · exact ⟨rfl, rfl⟩
    · rw [Bool.or_eq_true, not_or, decide_eq_true_iff, not_not] at hreset
      exact ⟨hthr _ rfl, hreset.2⟩

lemma mem_mergeBase
    {message} (h : request ∈ (mergeBase state message).requests) :
    ∃ before, state = some before ∧ before.epoch = message.epoch ∧ request ∈ before.requests := by
  unfold mergeBase at h
  split at h
  · cases h
  · split_ifs at h with hreset
    · cases h
    · rw [Bool.or_eq_true, not_or, decide_eq_true_iff, not_not] at hreset
      exact ⟨_, rfl, hreset.2, h⟩

lemma ok_mergeBase (h : ∀ before, state = some before → before.Ok) (message) : (mergeBase state message).Ok := by
  unfold mergeBase
  split
  · exact ok_blank message
  · split_ifs
    · exact ok_blank message
    · exact h _ rfl

lemma ok_merge (h : ∀ before, state = some before → before.Ok)
    (message) : (mergeAgentThreadRequests state message).Ok := by
  rcases merge_eq state message with ⟨before, hpre, -, heq⟩ | ⟨-, heq⟩
  · rw [heq]
    exact h before hpre
  · rw [heq]
    exact (ok_mergeBase h message).applied message

end CodevoEditor.ThreadRequests
