/-
# The order of merges does not matter

Whatever is merged, what is displayed and what is fenced stay within their bounds, and nothing
is dropped without a mark.
-/

import CodevoEditor.ThreadRequests.ClosedRequests

namespace CodevoEditor.ThreadRequests

open Js List

variable {β : Type} {state : AgentThreadRequestsState β} {message : AgentThreadRequestsMerge β} {k : JsString}

/-- **The newest of the records of a key.** -/
structure Newest (records : List (AgentRuntimeRequest β)) (k : JsString)
    (held : Option (AgentRuntimeRequest β)) : Prop where
  some : ∀ request, held = some request → request ∈ records ∧ request.key = k ∧
    ∀ other ∈ records, other.key = k → other.version ≤ request.version
  none : held = none → ∀ other ∈ records, other.key ≠ k

variable {records : List (AgentRuntimeRequest β)}

lemma Newest.offerAt {held} (h : Newest records k held)
    (hretn : state.retention = noRetention) (source)
    (candidate) :
    Newest (records ++ [candidate]) k (offerAt state source k held candidate) := by
  have hfences : state.fences.get? k = Option.none := by
    unfold AgentThreadRequestsState.fences
    rw [hretn]
    rfl
  have hhorizon : state.horizon = Option.none := by
    unfold AgentThreadRequestsState.horizon
    rw [hretn]
    rfl
  unfold ThreadRequests.offerAt
  rw [hfences, hhorizon]
  split_ifs with hoffer
  · obtain ⟨hkey, hadm⟩ := hoffer
    refine ⟨fun request hreq => ?_, nofun⟩
    cases hreq
    refine ⟨mem_append_right _ (mem_singleton_self _), hkey, fun other hoth hsame => ?_⟩
    rcases mem_append.1 hoth with hold | hnew
    · cases held with
      | none => exact absurd hsame (h.none rfl other hold)
      | some request =>
        have hlt : request.version < candidate.version := of_decide_eq_true hadm
        exact ((h.some request rfl).2.2 other hold hsame).trans hlt.le
    · rw [mem_singleton.1 hnew]
  · refine ⟨fun request hreq => ?_, fun hnone other hoth hsame => ?_⟩
    · obtain ⟨hmem, hkey, hnewest⟩ := h.some request hreq
      refine ⟨mem_append_left _ hmem, hkey, fun other hoth hsame => ?_⟩
      rcases mem_append.1 hoth with hold | hnew
      · exact hnewest other hold hsame
      · rw [mem_singleton.1 hnew] at hsame ⊢
        rw [hreq] at hoffer
        by_contra hlt
        exact hoffer ⟨hsame, decide_eq_true (not_le.1 hlt)⟩
    · rcases mem_append.1 hoth with hold | hnew
      · exact h.none hnone other hold hsame
      · rw [mem_singleton.1 hnew] at hsame
        rw [hnone] at hoffer
        refine hoffer ⟨hsame, ?_⟩
        unfold isAdmissible isBeyondForgottenFences
        cases source <;> simp

lemma Newest.newest (h : Newest records k (state.displayed.get? k))
    (hretn : state.retention = noRetention) (message) :
    Newest (records ++ message.requests) k (newest state message k) := by
  unfold ThreadRequests.newest
  generalize state.displayed.get? k = held at h
  induction message.requests generalizing records held with
  | nil => rwa [append_nil]
  | cons candidate candidates ih =>
    have hrest := ih _ (h.offerAt hretn message.source candidate)
    rwa [append_assoc] at hrest

lemma newest_displayed (hok : state.Ok) : Newest state.requests k (state.displayed.get? k) := by
  refine ⟨fun request hreq => ?_, fun hnone request hmem hkey => ?_⟩
  · obtain ⟨hmem, hkey⟩ := hok.get?_displayed.1 hreq
    exact ⟨hmem, hkey, fun other hoth hsame => by rw [hok.distinct.eq hoth hmem (hsame.trans hkey.symm)]⟩
  · cases hnone.symm.trans (hok.get?_displayed.2 ⟨hmem, hkey⟩)

lemma open_dropped_last {dropped kept} (hok : state.Ok)
    (hmem : dropped ∈ toDisplay state message) (hdrop : dropped ∉ (applied state message).requests)
    (hopen : isOpen dropped) (hkept : kept ∈ (applied state message).requests) : isOpen kept := by
  have hpart := partitions_partitioned (distinct_toDisplay state message)
  rcases applied_cases state message with ⟨hsame, heq⟩ | heq
  · rw [heq] at hdrop
    rw [toDisplay, hsame, AgentThreadRequestsState.displayed, OrderedMap.values_keyedBy hok.distinct] at hmem
    exact absurd hmem hdrop
  · rw [heq] at hdrop hkept
    have hin := (mem_append.1 (hpart.perm.mem_iff.2 hmem)).resolve_left hdrop
    exact hpart.openLast ⟨dropped, hin, hopen⟩ kept hkept

lemma truncated_applied (h : state.truncated) : (applied state message).truncated := by
  rcases applied_cases state message with ⟨-, heq⟩ | heq
  all_goals
    rw [heq]
    unfold published
    rw [h, Bool.true_or, Bool.true_or]

variable {request : AgentRuntimeRequest β}

theorem truncated_of_missing (hok : state.Ok)
    (hcame : request ∈ state.requests ∨ request ∈ message.requests)
    (hmiss : ∀ kept ∈ (applied state message).requests, kept.key ≠ request.key) :
    (applied state message).truncated := by
  have hnext := hok.applied message
  have hforgot : (applied state message).retention.fences ≠ [] ∨ (applied state message).horizon ≠ none →
      (applied state message).truncated := hnext.forgotten
  rcases fate_applied hok message request.key with ⟨shown, -, hshn, -⟩ | ⟨kept, -, -, hfence⟩ | ⟨-, -, hhorizon⟩
  · obtain ⟨hmem, hkey⟩ := hnext.get?_displayed.1 hshn
    exact absurd hkey (hmiss shown hmem)
  · exact hforgot (.inl (ne_nil_of_mem (hnext.get?_fences.1 hfence).1))
  · cases hnewest : newest state message request.key with
    | some newer =>
      rw [hnewest] at hhorizon
      obtain ⟨horizon, hat, -⟩ := hhorizon _ rfl
      exact hforgot (.inr (hat ▸ Option.some_ne_none _))
    | none =>
      by_contra htr
      have hqt : ¬(state.retention.fences ≠ [] ∨ state.horizon ≠ none) := fun hany =>
        htr (truncated_applied (hok.forgotten hany))
      rw [not_or, not_not, not_not] at hqt
      have hretn : state.retention = noRetention := by
        rcases hstate : state.retention with ⟨fences, horizon⟩
        rw [AgentThreadRequestsState.horizon, hstate] at hqt
        obtain ⟨rfl, rfl⟩ := hqt
        rfl
      have hnothing := ((newest_displayed hok).newest hretn message).none hnewest
      exact hnothing request (mem_append.2 hcame) rfl

/-- Messages of a thread within an epoch. -/
def Within (threadId epoch : JsString) (messages : List (AgentThreadRequestsMerge β)) : Prop :=
  ∀ message ∈ messages, message.threadId = threadId ∧ message.epoch = epoch ∧ message.reset = false

/-- The records that come with messages. -/
abbrev recordsIn (messages : List (AgentThreadRequestsMerge β)) : List (AgentRuntimeRequest β) :=
  messages.flatMap fun message => message.requests

/-- Key and version determine a record. -/
def Determined (records : List (AgentRuntimeRequest β)) : Prop :=
  ∀ a ∈ records, ∀ b ∈ records, a.key = b.key → a.version = b.version → a = b

/-- The keys of records. -/
def keysOf (records : List (AgentRuntimeRequest β)) : Finset JsString :=
  (records.map AgentRuntimeRequest.key).toFinset

/-- A state that has dropped nothing and displays the newest records. -/
structure Latest (records : List (AgentRuntimeRequest β)) (state : AgentThreadRequestsState β) : Prop where
  ok : state.Ok
  retention : state.retention = noRetention
  newest : ∀ k, Newest records k (state.displayed.get? k)

lemma latest_blank (message : AgentThreadRequestsMerge β) : Latest [] (blank message) where
  ok := ok_blank message
  retention := rfl
  newest := fun _ => ⟨nofun, nofun⟩

/-- **Below the bounds, a merge keeps the newest.** -/
theorem Latest.applied (h : Latest records state)
    (hbd : (keysOf (records ++ message.requests)).card ≤ maxAgentThreadRequestsRetained) :
    Latest (records ++ message.requests) (ThreadRequests.applied state message) := by
  have hnewest k := (h.newest k).newest h.retention message
  have hdist := distinct_toDisplay state message
  have hlen : (toDisplay state message).length ≤ maxAgentThreadRequestsRetained := by
    rw [← length_map AgentRuntimeRequest.key, ← toFinset_card_of_nodup hdist]
    refine (Finset.card_le_card fun key hkey => ?_).trans hbd
    obtain ⟨request, hmem, rfl⟩ := mem_map.1 (mem_toFinset.1 hkey)
    obtain ⟨hrecord, -, -⟩ := (hnewest request.key).some request (mem_toDisplay.1 hmem)
    exact mem_toFinset.2 (mem_map_of_mem hrecord)
  refine ⟨h.ok.applied message, ?_, fun k => ?_⟩
  · rcases applied_cases state message with ⟨-, heq⟩ | heq
    · rw [heq]
      exact h.retention
    · rw [heq, partitioned_of_le hlen]
      refine refenced_quiet state.retention (fun key => ?_) rfl ?_
      · unfold AgentThreadRequestsState.fences
        rw [h.retention]
        rfl
      · rw [h.retention]
        rfl
  · suffices (ThreadRequests.applied state message).displayed.get? k = ThreadRequests.newest state message k by
      rw [this]
      exact hnewest k
    rcases applied_cases state message with ⟨hsame, heq⟩ | heq
    · rw [heq, ← get?_admitted, hsame]
      rfl
    · rw [heq, partitioned_of_le hlen]
      refine Option.ext fun request => ?_
      have hperm := ordered_perm (toDisplay state message)
      rw [newest_eq_some_iff, ← hperm.mem_iff]
      exact OrderedMap.get?_keyedBy_eq_some_iff (hdist.perm hperm.symm)

lemma Latest.mem_iff (h : Latest records state) (hdeterm : Determined records) :
    request ∈ state.requests ↔ request ∈ records ∧
      ∀ other ∈ records, other.key = request.key → other.version ≤ request.version := by
  constructor
  · intro hmem
    obtain ⟨hrecord, -, hnewest⟩ := (h.newest request.key).some request (h.ok.get?_displayed.2 ⟨hmem, rfl⟩)
    exact ⟨hrecord, hnewest⟩
  · rintro ⟨hrecord, hnewest⟩
    cases hshn : state.displayed.get? request.key with
    | none => exact absurd rfl ((h.newest request.key).none hshn request hrecord)
    | some shown =>
      obtain ⟨hmem, hkey⟩ := h.ok.get?_displayed.1 hshn
      obtain ⟨hshownRecord, -, hlast⟩ := (h.newest request.key).some shown hshn
      have hver := le_antisymm (hnewest shown hshownRecord hkey) (hlast request hrecord rfl)
      rwa [← hdeterm shown hshownRecord request hrecord hkey hver]

lemma keysOf_mono {records'}
    (h : ∀ request ∈ records, request ∈ records') :
    keysOf records ⊆ keysOf records' := fun key hkey => by
  obtain ⟨request, hmem, rfl⟩ := mem_map.1 (mem_toFinset.1 hkey)
  exact mem_toFinset.2 (mem_map_of_mem (h request hmem))

lemma latest_mergeAll {threadId epoch} (messages : List (AgentThreadRequestsMerge β))
    (hin : Within threadId epoch messages)
    (hbd : (keysOf (recordsIn messages)).card ≤ maxAgentThreadRequestsRetained) :
    ∀ state, mergeAll none messages = some state →
      state.threadId = threadId ∧ state.epoch = epoch ∧ Latest (recordsIn messages) state := by
  induction messages using List.reverseRecOn with
  | nil => exact nofun
  | append_singleton messages message ih =>
    intro state h
    rw [mergeAll_append] at h
    cases h
    have hfr : Within threadId epoch messages := fun other hoth =>
      hin other (mem_append_left _ hoth)
    obtain ⟨hthr, hepoch, hreset⟩ := hin message (mem_append_right _ (mem_singleton_self _))
    have hrecs : recordsIn (messages ++ [message]) = recordsIn messages ++ message.requests := by
      rw [recordsIn, flatMap_append, flatMap_singleton]
    rw [hrecs] at hbd ⊢
    have hpre := ih hfr ((Finset.card_le_card (keysOf_mono fun request hmem =>
      mem_append_left _ hmem)).trans hbd)
    rcases merge_eq (mergeAll none messages) message with ⟨before, heq, hne, -⟩ | ⟨hths, hmerge⟩
    · exact absurd ((hpre before heq).1.trans hthr.symm) hne
    · have hbase : Latest (recordsIn messages) (mergeBase (mergeAll none messages) message) := by
        cases hstate : mergeAll none messages with
        | none =>
          have hnil : messages = [] := by
            cases messages with
            | nil => rfl
            | cons first rest =>
              obtain ⟨later, hlat⟩ := mergeAll_some (mergeAgentThreadRequests none first) rest
              cases hstate.symm.trans hlat
          rw [hnil]
          exact latest_blank message
        | some before =>
          obtain ⟨-, hbeforeEpoch, hlast⟩ := hpre before hstate
          unfold mergeBase
          dsimp only
          rwa [if_neg]
          rw [hreset, hbeforeEpoch, hepoch, Bool.false_or, decide_eq_true_iff, not_not]
      obtain ⟨hbaseThread, hbaseEpoch⟩ := mergeBase_threadId hths
      obtain ⟨hnextThread, hnextEpoch⟩ := threadId_applied (mergeBase (mergeAll none messages) message) message
      rw [hmerge]
      exact ⟨hnextThread.trans (hbaseThread.trans hthr), hnextEpoch.trans (hbaseEpoch.trans hepoch),
        hbase.applied hbd⟩

/-- **Request merge is bounded and order independent** in every state that merges reach: below the
bound the newest record of each key is displayed. -/
theorem merge_is_bounded_and_order_independent :
    (∀ (messages : List (AgentThreadRequestsMerge β)) (state : AgentThreadRequestsState β),
      mergeAll none messages = some state →
      state.requests.length ≤ maxAgentThreadRequestsRetained ∧ ordered state.requests = state.requests ∧
      DistinctKeys state.requests ∧ state.retention.fences.length ≤ maxAgentThreadRequestFences ∧
      ∀ request ∈ state.requests, ∀ fence ∈ state.retention.fences, request.key ≠ fence.key) ∧
    (∀ (messages : List (AgentThreadRequestsMerge β)) (message : AgentThreadRequestsMerge β),
      (∀ before, mergeAll none messages = some before → before.threadId = message.threadId) →
      let base := mergeBase (mergeAll none messages) message
      let next := mergeAgentThreadRequests (mergeAll none messages) message
      (∀ dropped ∈ toDisplay base message, dropped ∉ next.requests → isOpen dropped →
        ∀ kept ∈ next.requests, isOpen kept) ∧
      ∀ request, request ∈ base.requests ∨ request ∈ message.requests →
        (∀ kept ∈ next.requests, kept.key ≠ request.key) → next.truncated) ∧
    ∀ (threadId epoch : JsString) (messages messages' : List (AgentThreadRequestsMerge β))
      (state state' : AgentThreadRequestsState β),
      Within threadId epoch messages → Within threadId epoch messages' →
      (∀ record, record ∈ recordsIn messages ↔ record ∈ recordsIn messages') →
      Determined (recordsIn messages) →
      (keysOf (recordsIn messages)).card ≤ maxAgentThreadRequestsRetained →
      mergeAll none messages = some state → mergeAll none messages' = some state' →
      state.requests = state'.requests ∧ ∀ request, request ∈ state.requests ↔
        request ∈ recordsIn messages ∧ ∀ other ∈ recordsIn messages, other.key = request.key →
          other.version ≤ request.version := by
  refine ⟨fun messages state h => ?_, fun messages message hthread => ?_,
    fun threadId epoch messages messages' state state' hwithin hwithin' hsame hdeterm hbound h h' => ?_⟩
  · have hok := ok_mergeAll messages state h
    exact ⟨hok.retained, hok.sorted, hok.distinct, hok.fenced, hok.apart⟩
  · have hok := ok_mergeBase (ok_mergeAll messages) message
    rcases merge_eq (mergeAll none messages) message with ⟨before, heq, hne, -⟩ | ⟨-, hmerge⟩
    · exact absurd (hthread before heq) hne
    · dsimp only
      rw [hmerge]
      exact ⟨fun dropped hmem hdrop hopen kept hkept => open_dropped_last hok hmem hdrop hopen hkept,
        fun request hcame hmiss => truncated_of_missing hok hcame hmiss⟩
  · have hkeys : keysOf (recordsIn messages') ⊆ keysOf (recordsIn messages) :=
      keysOf_mono fun record hmem => (hsame record).2 hmem
    obtain ⟨-, -, hlast⟩ := latest_mergeAll messages hwithin hbound state h
    obtain ⟨-, -, hlast'⟩ := latest_mergeAll messages' hwithin' ((Finset.card_le_card hkeys).trans hbound) state' h'
    have hdeterm' : Determined (recordsIn messages') := fun a ha b hb =>
      hdeterm a ((hsame a).2 ha) b ((hsame b).2 hb)
    have hmem request : request ∈ state.requests ↔ request ∈ state'.requests := by
      rw [hlast.mem_iff hdeterm, hlast'.mem_iff hdeterm', hsame request]
      simp only [hsame]
    refine ⟨?_, fun request => hlast.mem_iff hdeterm⟩
    have hperm : state.requests.Perm state'.requests :=
      (perm_ext_iff_of_nodup hlast.ok.distinct.nodup hlast'.ok.distinct.nodup).2 hmem
    calc state.requests = ordered state.requests := hlast.ok.sorted.symm
      _ = ordered state'.requests := ordered_eq_of_perm hlast.ok.distinct hperm
      _ = state'.requests := hlast'.ok.sorted

end CodevoEditor.ThreadRequests
