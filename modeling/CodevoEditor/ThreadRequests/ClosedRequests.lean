/-
# Closed requests stay closed

A request that was displayed as closed is displayed, or its fence carries its version, or the
horizon has come to its creation (`Settled`).
-/

import CodevoEditor.ThreadRequests.MergeSteps

namespace CodevoEditor.ThreadRequests

open Js List Option

variable {β : Type} {state : AgentThreadRequestsState β} {message : AgentThreadRequestsMerge β} {k : JsString}

variable (state message k) in
lemma newest_invariant {P : Option (AgentRuntimeRequest β) → Prop}
    (hstep : ∀ held candidate, P held → candidate ∈ message.requests → candidate.key = k →
      isAdmissible candidate ((held.map AgentRuntimeRequest.version).or
        ((state.fences.get? k).map AgentRuntimeRequestFence.version)) message.source state.horizon →
      P (some candidate))
    (h : P (state.displayed.get? k)) : P (newest state message k) := by
  unfold newest
  generalize state.displayed.get? k = held at h
  suffices ∀ candidates : List (AgentRuntimeRequest β), (∀ candidate ∈ candidates, candidate ∈ message.requests) →
      P (candidates.foldl (offerAt state message.source k) held) from this _ fun _ hmem => hmem
  intro candidates hcands
  induction candidates generalizing held with
  | nil => exact h
  | cons candidate candidates ih =>
    refine ih _ ?_ fun other hoth => hcands other (mem_cons_of_mem _ hoth)
    unfold offerAt
    split_ifs with hoffer
    · exact hstep held candidate h (hcands candidate mem_cons_self) hoffer.1 hoffer.2
    · exact h

variable {request : AgentRuntimeRequest β}

lemma newest_cases (h : newest state message k = some request) :
    state.displayed.get? k = some request ∨ request ∈ message.requests ∧ request.key = k := by
  refine newest_invariant state message k
    (P := fun held => ∀ request, held = some request →
      state.displayed.get? k = some request ∨ request ∈ message.requests ∧ request.key = k)
    (fun held candidate _ hmem hkey _ request heq => ?_) (fun request hreq => .inl hreq) request h
  rw [← some.inj heq]
  exact .inr ⟨hmem, hkey⟩

/-- The version that is known of a key. -/
def heldVersion (state : AgentThreadRequestsState β) (k : JsString) : Option ℕ :=
  ((state.displayed.get? k).map AgentRuntimeRequest.version).or
    ((state.fences.get? k).map AgentRuntimeRequestFence.version)

lemma heldVersion_of_displayed (h : state.displayed.get? k = some request) :
    heldVersion state k = some request.version := by
  unfold heldVersion
  rw [h]
  rfl

lemma heldVersion_of_none (h : state.displayed.get? k = none) :
    heldVersion state k = (state.fences.get? k).map AgentRuntimeRequestFence.version := by
  unfold heldVersion
  rw [h]
  rfl

lemma le_version_of_newest {version} (h : newest state message k = some request)
    (hheld : heldVersion state k = some version) :
    version ≤ request.version := by
  have hnewest := newest_invariant state message k
    (P := fun held => held = state.displayed.get? k ∨ ∃ newer, held = some newer ∧ version < newer.version)
    (fun held candidate hpre _ _ hadm => ?_) (.inl rfl)
  · rcases hnewest with hsame | ⟨newer, hnewer, hlt⟩
    · rw [heldVersion_of_displayed (hsame.symm.trans h)] at hheld
      exact (some.inj hheld).ge
    · rw [← some.inj (hnewer.symm.trans h)]
      exact hlt.le
  · refine .inr ⟨candidate, rfl, ?_⟩
    rcases hpre with rfl | ⟨newer, rfl, hlt⟩
    · change isAdmissible candidate (heldVersion state k) _ _ at hadm
      rw [hheld] at hadm
      exact of_decide_eq_true hadm
    · exact hlt.trans (of_decide_eq_true hadm)

/-- **A version that is held does not decrease.** -/
theorem heldVersion_applied (h : state.Ok) {version later} (hheld : heldVersion state k = some version)
    (hlat : heldVersion (applied state message) k = some later) : version ≤ later := by
  rcases fate_applied h message k with ⟨request, hnewest, hshn, -⟩ | ⟨kept, hkept, hshn, hfence⟩ |
    ⟨hshn, hfence, -⟩
  · rw [heldVersion_of_displayed hshn] at hlat
    rw [← some.inj hlat]
    exact le_version_of_newest hnewest hheld
  · rw [heldVersion_of_none hshn, hfence] at hlat
    rw [← some.inj hlat]
    cases hnewest : newest state message k with
    | some request =>
      rw [hnewest] at hkept
      rw [← some.inj hkept]
      exact le_version_of_newest hnewest hheld
    | none =>
      rw [hnewest] at hkept
      have hnone : state.displayed.get? k = none := by
        by_contra hsome
        obtain ⟨shown, hshn⟩ := ne_none_iff_exists'.1 hsome
        have hkeeps := newest_invariant state message k
          (P := fun held => held ≠ none) (fun _ _ _ _ _ _ => some_ne_none _) hsome
        exact hkeeps hnewest
      rw [heldVersion_of_none hnone, show state.fences.get? k = some kept from hkept] at hheld
      exact (some.inj hheld).ge
  · rw [heldVersion_of_none hshn, hfence] at hlat
    cases hlat

/-- **Records that agree**: those of one key were created at one time, and a closed one is the
last of its key. -/
structure Consistent (records : List (AgentRuntimeRequest β)) : Prop where
  created : ∀ a ∈ records, ∀ b ∈ records, a.key = b.key → a.createdAtEpochMs = b.createdAtEpochMs
  closedLast : ∀ a ∈ records, ∀ b ∈ records, a.key = b.key → isOpen a = false → b.version ≤ a.version

/-- What is known of a request that has been closed. -/
structure Settled (records : List (AgentRuntimeRequest β)) (k : JsString)
    (state : AgentThreadRequestsState β) : Prop where
  shown : ∀ request, state.displayed.get? k = some request → isOpen request = false ∧ request ∈ records
  fenced : ∀ fence, state.fences.get? k = some fence → ∀ record ∈ records, record.key = k →
    record.version ≤ fence.version ∧ record.createdAtEpochMs ≤ fence.createdAtEpochMs
  gone : state.displayed.get? k = none → state.fences.get? k = none →
    ∃ horizon, state.horizon = some horizon ∧ ∀ record ∈ records, record.key = k → record.createdAtEpochMs ≤ horizon

lemma lt_createdAt_of_isAdmissible {candidate : AgentRuntimeRequest β} {horizon : ℕ}
    (hopen : isOpen candidate)
    (h : isAdmissible candidate none .push (some horizon)) : horizon < candidate.createdAtEpochMs := by
  unfold isAdmissible isBeyondForgottenFences at h
  rw [if_pos hopen, all_some, decide_eq_true_iff] at h
  exact h

lemma Settled.newest {records : List (AgentRuntimeRequest β)} (h : Settled records k state)
    (hok : state.Ok) (hrecs : Consistent records) (hpush : message.source = .push)
    (hmsg : ∀ request ∈ message.requests, request ∈ records)
    (hnewest : newest state message k = some request) :
    isOpen request = false ∧ request ∈ records ∧ request.key = k := by
  refine (newest_invariant state message k
    (P := fun held => (∀ request, held = some request →
      isOpen request = false ∧ request ∈ records ∧ request.key = k) ∧ (held = none → state.displayed.get? k = none))
    (fun held candidate hheld hmem hkey hadm => ⟨fun other hoth => ?_, nofun⟩)
    ⟨fun shown hshn => ?_, id⟩).1 request hnewest
  · cases hoth
    refine ⟨?_, hmsg candidate hmem, hkey⟩
    have hcand := hmsg candidate hmem
    cases held with
    | some shown =>
      obtain ⟨hcl, hshn, hsame⟩ := hheld.1 shown rfl
      have hlt : shown.version < candidate.version := of_decide_eq_true hadm
      exact absurd (hrecs.closedLast shown hshn candidate hcand (hsame.trans hkey.symm) hcl)
        (not_le.2 hlt)
    | none =>
      cases hfence : state.fences.get? k with
      | some fence =>
        rw [hfence] at hadm
        have hlt : fence.version < candidate.version := of_decide_eq_true hadm
        exact absurd (h.fenced fence hfence candidate hcand hkey).1 (not_le.2 hlt)
      | none =>
        by_contra hopen
        obtain ⟨horizon, hhorizon, hbelow⟩ := h.gone (hheld.2 rfl) hfence
        rw [hfence, hpush, hhorizon] at hadm
        exact absurd (hbelow candidate hcand hkey)
          (not_le.2 (lt_createdAt_of_isAdmissible (Bool.not_eq_false _ ▸ hopen) hadm))
  · obtain ⟨hcl, hmem⟩ := h.shown shown hshn
    exact ⟨hcl, hmem, (hok.get?_displayed.1 hshn).2⟩

theorem Settled.applied {records} (h : Settled records k state)
    (hok : state.Ok) (hrecs : Consistent records) (hpush : message.source = .push)
    (hmsg : ∀ request ∈ message.requests, request ∈ records) : Settled records k (applied state message) := by
  have hcl {request} (hnewest : ThreadRequests.newest state message k = some request) :
      isOpen request = false ∧ request ∈ records ∧ ∀ record ∈ records, record.key = k →
        record.version ≤ (fenceOf request).version ∧
          record.createdAtEpochMs ≤ (fenceOf request).createdAtEpochMs := by
    obtain ⟨hshut, hmem, hkey⟩ := h.newest hok hrecs hpush hmsg hnewest
    refine ⟨hshut, hmem, fun record hrecord hsame => ⟨?_, ?_⟩⟩
    · exact hrecs.closedLast request hmem record hrecord (hkey.trans hsame.symm) hshut
    · exact (hrecs.created record hrecord request hmem (hsame.trans hkey.symm)).le
  have hkeeps {kept}
      (hkept : ((ThreadRequests.newest state message k).map fenceOf).or (state.fences.get? k) = some kept) :
      ∀ record ∈ records, record.key = k →
        record.version ≤ kept.version ∧ record.createdAtEpochMs ≤ kept.createdAtEpochMs := by
    cases hnewest : ThreadRequests.newest state message k with
    | some request =>
      rw [hnewest] at hkept
      rw [← some.inj hkept]
      exact (hcl hnewest).2.2
    | none =>
      rw [hnewest] at hkept
      exact h.fenced kept hkept
  rcases fate_applied hok message k with ⟨request, hnewest, hshn, hfence⟩ | ⟨kept, hkept, hshn, hfence⟩ |
    ⟨hshn, hfence, hhorizon⟩
  · refine ⟨fun other hoth => ?_, fun fence hoth => ?_, fun hnone => ?_⟩
    · rw [← some.inj (hshn.symm.trans hoth)]
      exact ⟨(hcl hnewest).1, (hcl hnewest).2.1⟩
    · cases hfence.symm.trans hoth
    · cases hnone.symm.trans hshn
  · refine ⟨fun other hoth => ?_, fun fence hoth => ?_, fun _ hnone => ?_⟩
    · cases hshn.symm.trans hoth
    · rw [← some.inj (hfence.symm.trans hoth)]
      exact hkeeps hkept
    · cases hnone.symm.trans hfence
  · refine ⟨fun other hoth => ?_, fun fence hoth => ?_, fun _ _ => ?_⟩
    · cases hshn.symm.trans hoth
    · cases hfence.symm.trans hoth
    · cases hkept : ((ThreadRequests.newest state message k).map fenceOf).or (state.fences.get? k) with
      | some kept =>
        obtain ⟨horizon, hat, hle⟩ := hhorizon kept hkept
        exact ⟨horizon, hat, fun record hrecord hkey => (hkeeps hkept record hrecord hkey).2.trans hle⟩
      | none =>
        obtain ⟨hnewest, hnone⟩ := or_eq_none_iff.1 hkept
        rw [map_eq_none_iff] at hnewest
        have hdisplayed : state.displayed.get? k = none := by
          by_contra hsome
          exact newest_invariant state message k
            (P := fun held => held ≠ none) (fun _ _ _ _ _ _ => some_ne_none _) hsome hnewest
        obtain ⟨horizon, hat, hbelow⟩ := h.gone hdisplayed hnone
        obtain ⟨later, hlat, hle⟩ := horizon_applied message hat
        exact ⟨later, hlat, fun record hrecord hkey => (hbelow record hrecord hkey).trans hle⟩

/-- The records of a thread within an epoch. -/
def recordsOf (threadId epoch : JsString) (messages : List (AgentThreadRequestsMerge β)) :
    List (AgentRuntimeRequest β) :=
  (messages.filter fun message => message.threadId = threadId ∧ message.epoch = epoch).flatMap
    fun message => message.requests

lemma mem_recordsOf {threadId epoch} {messages} :
    request ∈ recordsOf threadId epoch messages ↔
      ∃ message ∈ messages, message.threadId = threadId ∧ message.epoch = epoch ∧ request ∈ message.requests := by
  unfold recordsOf
  simp only [mem_flatMap, mem_filter, decide_eq_true_eq, and_assoc]

/-- Of the messages of a thread, only pushes within an epoch come. -/
def PushesIn (threadId epoch : JsString) (messages : List (AgentThreadRequestsMerge β)) : Prop :=
  ∀ message ∈ messages, message.threadId = threadId →
    message.epoch = epoch ∧ message.reset = false ∧ message.source = .push

lemma mem_applied (hok : state.Ok) (h : request ∈ (ThreadRequests.applied state message).requests) :
    request ∈ state.requests ∨ request ∈ message.requests := by
  have hshn := (hok.applied message).get?_displayed.2 ⟨h, rfl⟩
  rcases fate_applied hok message request.key with ⟨other, hnewest, hoth, -⟩ | ⟨_, _, hnone, -⟩ | ⟨hnone, -, -⟩
  · rw [some.inj (hshn.symm.trans hoth)] at hnewest ⊢
    rcases newest_cases hnewest with hpre | ⟨hmem, -⟩
    · exact .inl (hok.get?_displayed.1 hpre).1
    · exact .inr hmem
  · cases hnone.symm.trans hshn
  · cases hnone.symm.trans hshn

lemma mergeAll_append (state : Option (AgentThreadRequestsState β))
    (front back) :
    mergeAll state (front ++ back) = mergeAll (mergeAll state front) back := foldl_append

lemma mergeAll_some (state : AgentThreadRequestsState β) (messages : List (AgentThreadRequestsMerge β)) :
    ∃ later, mergeAll (some state) messages = some later := by
  induction messages generalizing state with
  | nil => exact ⟨state, rfl⟩
  | cons message messages ih => exact ih (mergeAgentThreadRequests (some state) message)

variable (messages : List (AgentThreadRequestsMerge β))

lemma ok_mergeAll : ∀ state, mergeAll none messages = some state → state.Ok := by
  induction messages using List.reverseRecOn with
  | nil => exact nofun
  | append_singleton messages message ih =>
    intro state h
    rw [mergeAll_append] at h
    rw [← some.inj h]
    exact ok_merge ih message

lemma displayed_of_messages :
    ∀ state, mergeAll none messages = some state →
      ∀ request ∈ state.requests, request ∈ recordsOf state.threadId state.epoch messages := by
  induction messages using List.reverseRecOn with
  | nil => exact nofun
  | append_singleton messages message ih =>
    intro state h request hreq
    have hpre := ok_mergeAll messages
    rw [mergeAll_append] at h
    cases h
    have hgrow {threadId epoch} (hmem : request ∈ recordsOf threadId epoch messages) :
        request ∈ recordsOf threadId epoch (messages ++ [message]) := by
      obtain ⟨other, hoth, hrest⟩ := mem_recordsOf.1 hmem
      exact mem_recordsOf.2 ⟨other, mem_append_left _ hoth, hrest⟩
    rcases merge_eq (mergeAll none messages) message with ⟨before, heq, -, hmerge⟩ | ⟨hthr, hmerge⟩
    · rw [hmerge] at hreq ⊢
      exact hgrow (ih before heq request hreq)
    · obtain ⟨hbaseThread, hbaseEpoch⟩ := mergeBase_threadId hthr
      obtain ⟨hnextThread, hnextEpoch⟩ := threadId_applied (mergeBase (mergeAll none messages) message) message
      rw [hmerge] at hreq ⊢
      rw [hnextThread, hnextEpoch, hbaseThread, hbaseEpoch]
      rcases mem_applied (ok_mergeBase hpre message) hreq with hold | hnew
      · obtain ⟨before, heq, hepoch, hmem⟩ := mem_mergeBase hold
        rw [← hthr before heq, ← hepoch]
        exact hgrow (ih before heq request hmem)
      · exact mem_recordsOf.2 ⟨message, mem_append_right _ (mem_singleton_self _), rfl, rfl, hnew⟩

lemma merge_within (h : message.threadId = state.threadId → message.epoch = state.epoch ∧ message.reset = false) :
    mergeAgentThreadRequests (some state) message = state ∨ message.threadId = state.threadId ∧
      mergeAgentThreadRequests (some state) message = ThreadRequests.applied state message := by
  unfold mergeAgentThreadRequests
  dsimp only
  by_cases hthr : state.threadId = message.threadId
  · obtain ⟨hepoch, hreset⟩ := h hthr.symm
    refine .inr ⟨hthr.symm, ?_⟩
    rw [if_neg (not_not.2 hthr), if_neg]
    rw [hreset, hepoch, Bool.false_or, decide_eq_true_iff, not_not]
  · exact .inl (if_pos hthr)

lemma mergeAll_within {P : AgentThreadRequestsState β → Prop} {Q : AgentThreadRequestsMerge β → Prop}
    (hstep : ∀ state message, P state → Q message → P (ThreadRequests.applied state message))
    {threadId epoch} (back)
    (hback : ∀ message ∈ back, message.threadId = threadId →
      message.epoch = epoch ∧ message.reset = false ∧ Q message)
    {later} (hlat : mergeAll (some state) back = some later)
    (hstate : P state) (hthr : state.threadId = threadId) (hepoch : state.epoch = epoch) : P later := by
  induction back generalizing state with
  | nil =>
    cases hlat
    exact hstate
  | cons message back ih =>
    have hrest := fun other hoth => hback other (mem_cons_of_mem message hoth)
    have hmsg := hback message mem_cons_self
    rw [← hthr, ← hepoch] at hmsg
    change mergeAll (some (mergeAgentThreadRequests (some state) message)) back = some later at hlat
    rcases merge_within fun h => ⟨(hmsg h).1, (hmsg h).2.1⟩ with hsame | ⟨hsame, happ⟩
    · rw [hsame] at hlat
      exact ih hrest hlat hstate hthr hepoch
    · rw [happ] at hlat
      obtain ⟨hnextThread, hnextEpoch⟩ := threadId_applied state message
      exact ih hrest hlat (hstep state message hstate (hmsg hsame).2.2) (hnextThread.trans hthr)
        (hnextEpoch.trans hepoch)

/-- **A closed question never reopens on screen**, whatever has been dropped in between, and its
displayed version does not decrease. -/
theorem closed_requests_stay_closed :
    (∀ (front back : List (AgentThreadRequestsMerge β)) (state later : AgentThreadRequestsState β),
      mergeAll none front = some state → mergeAll (some state) back = some later →
      PushesIn state.threadId state.epoch back →
      Consistent (recordsOf state.threadId state.epoch (front ++ back)) →
      ∀ request ∈ state.requests, isOpen request = false →
      ∀ request' ∈ later.requests, request'.key = request.key → isOpen request' = false) ∧
    ∀ (front back : List (AgentThreadRequestsMerge β)) (state later : AgentThreadRequestsState β) (k : JsString),
      mergeAll none front = some state → mergeAll (some state) back = some later →
      PushesIn state.threadId state.epoch back →
      (∀ mid rest between, back = mid ++ rest → mergeAll (some state) mid = some between →
        heldVersion between k ≠ none) →
      ∀ request ∈ state.requests, request.key = k →
      ∀ request' ∈ later.requests, request'.key = k → request.version ≤ request'.version := by
  constructor
  · intro front back state later hfront hback hpushes hcons request hreq hclosed request' hreq' hkey
    let records := recordsOf state.threadId state.epoch (front ++ back)
    have hok := ok_mergeAll front state hfront
    have hshown := hok.get?_displayed.2 ⟨hreq, rfl⟩
    have hrec : request ∈ records := by
      obtain ⟨message, hmsg, hrest⟩ := mem_recordsOf.1 (displayed_of_messages front state hfront request hreq)
      exact mem_recordsOf.2 ⟨message, mem_append_left _ hmsg, hrest⟩
    have hsettled : Settled records request.key state := by
      refine ⟨fun other hother => ?_, fun fence hfence => ?_, fun hnone => ?_⟩
      · rw [← some.inj (hshown.symm.trans hother)]
        exact ⟨hclosed, hrec⟩
      · cases (hok.fences_of_displayed hshown).symm.trans hfence
      · cases hnone.symm.trans hshown
    have hlater := mergeAll_within (P := fun state => state.Ok ∧ Settled records request.key state)
      (Q := fun message => message.source = .push ∧ ∀ request ∈ message.requests, request ∈ records)
      (fun state message h hmsg =>
        ⟨h.1.applied message, h.2.applied h.1 hcons hmsg.1 hmsg.2⟩)
      back (fun message hmsg hthread => ?_) hback ⟨hok, hsettled⟩ rfl rfl
    · exact (hlater.2.shown request' (hlater.1.get?_displayed.2 ⟨hreq', hkey⟩)).1
    · obtain ⟨hepoch, hreset, hpush⟩ := hpushes message hmsg hthread
      exact ⟨hepoch, hreset, hpush, fun other hother =>
        mem_recordsOf.2 ⟨message, mem_append_right _ hmsg, hthread, hepoch, hother⟩⟩
  · intro front back state later k hfront hback hpushes hheld request hreq hkey request' hreq' hkey'
    have hok := ok_mergeAll front state hfront
    have hver := heldVersion_of_displayed (hok.get?_displayed.2 ⟨hreq, hkey⟩)
    suffices ∀ mid rest between, back = mid ++ rest → mergeAll (some state) mid = some between →
        between.Ok ∧ between.threadId = state.threadId ∧ between.epoch = state.epoch ∧
          ∀ version, heldVersion between k = some version → request.version ≤ version by
      obtain ⟨hlaterOk, -, -, hle⟩ := this back [] later (append_nil back).symm hback
      exact hle _ (heldVersion_of_displayed (hlaterOk.get?_displayed.2 ⟨hreq', hkey'⟩))
    intro mid
    induction mid using List.reverseRecOn with
    | nil =>
      intro rest between _ hbetween
      cases hbetween
      exact ⟨hok, rfl, rfl, fun version h => (some.inj (hver.symm.trans h)).le⟩
    | append_singleton mid message ih =>
      intro rest after hsplit hafter
      rw [append_assoc] at hsplit
      rw [mergeAll_append] at hafter
      obtain ⟨between, hbetween⟩ := mergeAll_some state mid
      obtain ⟨hbetweenOk, hthread, hepoch, hle⟩ := ih _ between hsplit hbetween
      obtain ⟨held, hpre⟩ := ne_none_iff_exists'.1 (hheld mid _ between hsplit hbetween)
      rw [hbetween] at hafter
      cases hafter
      have hmsg := hpushes message (hsplit ▸ mem_append_right _ (mem_append_left _ (mem_singleton_self _)))
      rw [← hthread, ← hepoch] at hmsg
      rcases merge_within fun h => ⟨(hmsg h).1, (hmsg h).2.1⟩ with hsame | ⟨-, happ⟩
      · rw [hsame]
        exact ⟨hbetweenOk, hthread, hepoch, hle⟩
      · rw [happ]
        obtain ⟨hnextThread, hnextEpoch⟩ := threadId_applied between message
        refine ⟨hbetweenOk.applied message, hnextThread.trans hthread, hnextEpoch.trans hepoch,
          fun version hver => ?_⟩
        exact (hle held hpre).trans (heldVersion_applied hbetweenOk hpre hver)

end CodevoEditor.ThreadRequests
