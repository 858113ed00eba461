/-
# Counters, the cursor and the order of eviction

The window of `Retention` never rescans its slots: it keeps running counters and one cursor that
only `trimTail` moves back.
-/

import CodevoEditor.AgentEvents.Merge
import CodevoEditor.Window.Counts
import CodevoEditor.Window.Eviction

namespace CodevoEditor.AgentEvents

open Js Window List

variable {policy : AgentTurnEventRetentionPolicy}

/-- The child threads of events, one entry for each event that has one. -/
def agentThreadIds (events : List AgentTurnEvent) : List JsString :=
  events.filterMap AgentTurnEvent.agentThreadId?

/-- A limit is exceeded, by a recount of everything. -/
def overLimits (policy : AgentTurnEventRetentionPolicy) (events : List AgentTurnEvent) : Bool :=
  policy.maxEvents < events.length || (policy.maxBytes : ℤ) < (events.map policy.eventBytes).sum ||
    policy.maxSubagentThreads < (agentThreadIds events).dedup.length

variable {events : List AgentTurnEvent}

lemma overLimits_eq_false_iff :
    overLimits policy events = false ↔ events.length ≤ policy.maxEvents ∧
      (events.map policy.eventBytes).sum ≤ policy.maxBytes ∧
      (agentThreadIds events).dedup.length ≤ policy.maxSubagentThreads := by
  simp only [overLimits, Bool.or_eq_false_iff, decide_eq_false_iff_not, not_lt, and_assoc]

@[simp] lemma overLimits_nil : overLimits policy [] = false :=
  overLimits_eq_false_iff.2 ⟨Nat.zero_le _, by simp, Nat.zero_le _⟩

@[simp] lemma agentThreadIds_append (events events') :
    agentThreadIds (events ++ events') = agentThreadIds events ++ agentThreadIds events' :=
  filterMap_append

/-- What the code relies on in `coalesceText`. -/
structure KeepsTail (policy : AgentTurnEventRetentionPolicy) : Prop where
  isUserMessage : ∀ {last next fused}, policy.coalesceText last next = some fused →
    fused.isUserMessage = last.isUserMessage
  agentThreadId? : ∀ {last next fused}, policy.coalesceText last next = some fused →
    fused.agentThreadId? = last.agentThreadId?

lemma keepsTail_turnEventRetentionPolicy : KeepsTail turnEventRetentionPolicy where
  isUserMessage h := by
    obtain ⟨channel, lastText, nextText, fusedText, rfl, rfl, rfl, -⟩ := coalesceAgentTextEvents_eq_some_iff.1 h
    rw [isUserMessage_channelEvent, isUserMessage_channelEvent]
  agentThreadId? h := by
    obtain ⟨channel, lastText, nextText, fusedText, rfl, rfl, rfl, -⟩ := coalesceAgentTextEvents_eq_some_iff.1 h
    exact agentThreadId?_channelEvent channel _ _

variable {previous : AgentTurnEvent}

lemma mergeSupersededAgentTurnEvent_keeps {next merged}
    (h : mergeSupersededAgentTurnEvent previous next = some merged) :
    previous.isUserMessage = false ∧ merged.isUserMessage = false ∧
      merged.agentThreadId? = previous.agentThreadId? := by
  cases mergeSuperseded_eq_some_iff.1 h with
  | backgroundTask => exact ⟨rfl, rfl, rfl⟩
  | subagent => exact ⟨rfl, rfl, rfl⟩
  | subagentUsage hthr => exact ⟨rfl, rfl, congrArg some hthr.symm⟩
  | contextUsage => exact ⟨rfl, rfl, rfl⟩

namespace RetentionState

/-! ### The counters -/

/-- The counters of a state are those of `events`. -/
structure Tallied (policy : AgentTurnEventRetentionPolicy) (state : RetentionState)
    (events : List AgentTurnEvent) : Prop where
  liveCount : state.liveCount = events.length
  retainedBytes : state.retainedBytes = (events.map policy.eventBytes).sum
  subagentThreads : Counts state.subagentThreads (agentThreadIds events)

lemma countSubagentThread_eq (state : RetentionState) (event : AgentTurnEvent) (delta : ℤ) :
    state.countSubagentThread event delta = { state with
      subagentThreads := match event.agentThreadId? with
        | none => state.subagentThreads
        | some agentThreadId => bump state.subagentThreads agentThreadId delta } := by
  unfold countSubagentThread bump
  cases event.agentThreadId? with
  | none => rfl
  | some agentThreadId => dsimp only; split_ifs <;> rfl

@[simp] lemma slots_adoptSlot (state : RetentionState) (event : AgentTurnEvent) (slot : ℕ) :
    (state.adoptSlot policy event slot).slots = state.slots := by
  rw [adoptSlot, countSubagentThread_eq]

@[simp] lemma evictionCursor_adoptSlot (state : RetentionState) (event : AgentTurnEvent)
    (slot : ℕ) : (state.adoptSlot policy event slot).evictionCursor = state.evictionCursor := by
  rw [adoptSlot, countSubagentThread_eq]

@[simp] lemma truncated_adoptSlot (state : RetentionState) (event : AgentTurnEvent) (slot : ℕ) :
    (state.adoptSlot policy event slot).truncated = state.truncated := by
  rw [adoptSlot, countSubagentThread_eq]

@[simp] lemma snapshots_adoptSlot (state : RetentionState) (event : AgentTurnEvent) (slot : ℕ) :
    (state.adoptSlot policy event slot).snapshots = state.snapshots.adopt event slot := by
  rw [adoptSlot, countSubagentThread_eq]

variable {state : RetentionState}

lemma exceedsLimits_eq (h : state.Tallied policy events) : state.exceedsLimits policy = overLimits policy events := by
  unfold exceedsLimits overLimits
  rw [h.liveCount, h.retainedBytes, h.subagentThreads.size_eq]
  simp only [Int.ofNat_lt]

variable {before after : List AgentTurnEvent}

lemma counts_insert {counts}
    (h : Counts counts (agentThreadIds (before ++ after))) (event) :
    Counts (match event.agentThreadId? with
        | none => counts
        | some agentThreadId => bump counts agentThreadId 1)
      (agentThreadIds (before ++ event :: after)) := by
  rw [agentThreadIds_append] at h ⊢
  cases hid : event.agentThreadId? with
  | none => rw [agentThreadIds, agentThreadIds, filterMap_cons_none hid]; exact h
  | some agentThreadId =>
    rw [agentThreadIds, agentThreadIds, filterMap_cons_some hid]
    exact h.bump_insert agentThreadId

variable {event : AgentTurnEvent}

lemma counts_erase {counts}
    (h : Counts counts (agentThreadIds (before ++ event :: after))) :
    Counts (match event.agentThreadId? with
        | none => counts
        | some agentThreadId => bump counts agentThreadId (-1))
      (agentThreadIds (before ++ after)) := by
  rw [agentThreadIds_append] at h ⊢
  cases hid : event.agentThreadId? with
  | none => rw [agentThreadIds, agentThreadIds, filterMap_cons_none hid] at h; exact h
  | some agentThreadId =>
    rw [agentThreadIds, agentThreadIds, filterMap_cons_some hid] at h
    exact h.bump_erase

lemma Tallied.adoptSlot (h : state.Tallied policy events) (event : AgentTurnEvent) (slot : ℕ) :
    (state.adoptSlot policy event slot).Tallied policy (events ++ [event]) := by
  unfold RetentionState.adoptSlot
  rw [countSubagentThread_eq]
  refine ⟨?_, ?_, ?_⟩
  · show state.liveCount + 1 = _
    rw [h.liveCount, length_append]; rfl
  · show state.retainedBytes + policy.eventBytes event = _
    rw [h.retainedBytes, map_append, sum_append]; simp
  · have hcounts := h.subagentThreads
    rw [← append_nil events] at hcounts
    exact counts_insert hcounts event

lemma Tallied.replaceSlot (h : state.Tallied policy (before ++ previous :: after))
    (hid : event.agentThreadId? = previous.agentThreadId?) (slot : ℕ) :
    (state.replaceSlot policy slot previous event).Tallied policy (before ++ event :: after) := by
  refine ⟨?_, ?_, ?_⟩
  · show state.liveCount = _
    rw [h.liveCount]; simp
  · show state.retainedBytes + (policy.eventBytes event - policy.eventBytes previous) = _
    rw [h.retainedBytes]; simp only [map_append, map_cons, sum_append, sum_cons]
    omega
  · show Counts state.subagentThreads _
    convert h.subagentThreads using 1
    simp only [agentThreadIds, filterMap_append, filterMap_cons, hid]

/-- The running counters are a recount of the live slots, the slots left of the
cursor are pinned and the last slot is live. -/
structure Consistent (policy : AgentTurnEventRetentionPolicy) (state : RetentionState) : Prop where
  tallied : state.Tallied policy state.liveEvents
  lastLive : state.slots.getLast? ≠ some none
  cursor_le : state.evictionCursor ≤ state.slots.length
  pinned : ∀ slot ∈ state.slots.take state.evictionCursor, isPinned slot

lemma slotAt_eq_some_iff {slot} :
    state.slotAt slot = some event ↔
      ∃ before after, state.slots = before ++ some event :: after ∧ before.length = slot :=
  join_getElem?_eq_some_iff

variable {before after : List (Option AgentTurnEvent)}

lemma slotAt_split (h : state.slots = before ++ some event :: after) : state.slotAt before.length = some event :=
  slotAt_eq_some_iff.2 ⟨before, after, h, rfl⟩

lemma liveEvents_split (h : state.slots = before ++ some event :: after) :
    state.liveEvents = before.reduceOption ++ event :: after.reduceOption := by
  rw [liveEvents, h, reduceOption_split]

/-- Pinned slots stay pinned when the event of one is replaced by an event that
is accepted input if the old one was. -/
lemma pinned_take_replace {cursor}
    (h : ∀ slot ∈ (before ++ some previous :: after).take cursor, isPinned slot)
    (hkeeps : event.isUserMessage = previous.isUserMessage) :
    ∀ slot ∈ (before ++ some event :: after).take cursor, isPinned slot := by
  intro slot hslot
  rw [take_append, mem_append] at hslot
  rw [take_append, forall_mem_append] at h
  rcases hslot with hslot | hslot
  · exact h.1 slot hslot
  · obtain hzero | ⟨k, hk⟩ : cursor - before.length = 0 ∨ ∃ k, cursor - before.length = k + 1 := by
      cases cursor - before.length with
      | zero => exact .inl rfl
      | succ k => exact .inr ⟨k, rfl⟩
    · rw [hzero, take_zero] at hslot
      cases hslot
    · rw [hk, take_succ_cons] at hslot h
      rw [forall_mem_cons] at h
      rcases mem_cons.1 hslot with rfl | hslot
      · have := h.2.1
        simpa only [isPinned, Option.all_some, hkeeps] using this
      · exact h.2.2 slot hslot

lemma Consistent.replaceSlot (h : state.Consistent policy)
    (hsl : state.slots = before ++ some previous :: after)
    (huser : event.isUserMessage = previous.isUserMessage)
    (hid : event.agentThreadId? = previous.agentThreadId?) :
    (state.replaceSlot policy before.length previous event).Consistent policy ∧
      (state.replaceSlot policy before.length previous event).slots = before ++ some event :: after := by
  have hnew : (state.replaceSlot policy before.length previous event).slots = before ++ some event :: after := by
    show state.slots.set before.length (some event) = _
    rw [hsl, set_split]
  refine ⟨⟨?_, ?_, ?_, ?_⟩, hnew⟩
  · rw [liveEvents_split hnew]
    have ht := h.tallied
    rw [liveEvents_split hsl] at ht
    exact ht.replaceSlot hid _
  · have hl := h.lastLive
    rw [hnew]
    rw [hsl] at hl
    cases after with
    | nil => simp
    | cons slot after =>
      rw [getLast?_append_cons, getLast?_cons_cons] at hl ⊢
      exact hl
  · rw [hnew]
    show state.evictionCursor ≤ _
    have hc := h.cursor_le
    rw [hsl] at hc
    simpa only [length_append, length_cons] using hc
  · rw [hnew]
    have hp := h.pinned
    rw [hsl] at hp
    exact pinned_take_replace hp huser

lemma Consistent.append (h : state.Consistent policy) (event : AgentTurnEvent) :
    ({ state with slots := state.slots ++ [some event] }.adoptSlot policy event
      state.slots.length).Consistent policy ∧
    ({ state with slots := state.slots ++ [some event] }.adoptSlot policy event
      state.slots.length).slots = state.slots ++ [some event] := by
  have hnew : ({ state with slots := state.slots ++ [some event] }.adoptSlot policy event
      state.slots.length).slots = state.slots ++ [some event] := slots_adoptSlot ..
  have hcursor : ({ state with slots := state.slots ++ [some event] }.adoptSlot policy event
      state.slots.length).evictionCursor = state.evictionCursor := evictionCursor_adoptSlot ..
  refine ⟨⟨?_, ?_, ?_, ?_⟩, hnew⟩
  · rw [liveEvents, hnew, reduceOption_append, reduceOption_singleton]
    have ht : ({ state with slots := state.slots ++ [some event] } : RetentionState).Tallied policy
        state.slots.reduceOption := ⟨h.tallied.1, h.tallied.2, h.tallied.3⟩
    exact ht.adoptSlot event _
  · rw [hnew]; simp
  · rw [hnew, hcursor, length_append]
    exact h.cursor_le.trans (Nat.le_add_right _ _)
  · rw [hnew, hcursor, take_append_of_le_length h.cursor_le]
    exact h.pinned

/-- What `admitEvent` does: the tail grows, a live snapshot is renewed in its
slot, or the placed event takes a new slot. -/
inductive Admission (policy : AgentTurnEventRetentionPolicy) (state : RetentionState)
    (event : AgentTurnEvent) : RetentionState → Prop
  | fused {before : List (Option AgentTurnEvent)} {tail fused : AgentTurnEvent}
      (hslots : state.slots = before ++ [some tail])
      (hfused : policy.coalesceText tail event = some fused) :
      Admission policy state event (state.replaceSlot policy before.length tail fused)
  | superseded {before after : List (Option AgentTurnEvent)} {previous merged : AgentTurnEvent}
      (hcoal : state.coalesceIntoTail policy event = none)
      (hslot : (state.snapshots.place event).liveSlot = some before.length)
      (htail : state.tailIsCoalescibleText = false)
      (hslots : state.slots = before ++ some previous :: after)
      (hmerged : mergeSupersededAgentTurnEvent previous (state.snapshots.place event).event = some merged) :
      Admission policy state event (state.replaceSlot policy before.length previous merged)
  | appended (hcoal : state.coalesceIntoTail policy event = none)
      (hplace : state.supersedeInPlace policy (state.snapshots.place event) = none) :
      Admission policy state event
        ({ state with slots := state.slots ++ [some (state.snapshots.place event).event] }.adoptSlot
          policy (state.snapshots.place event).event state.slots.length)

lemma coalesceIntoTail_eq_some {coalesced}
    (h : state.coalesceIntoTail policy event = some coalesced) :
    ∃ before tail fused, state.slots = before ++ [some tail] ∧
      policy.coalesceText tail event = some fused ∧
      coalesced = state.replaceSlot policy before.length tail fused := by
  unfold coalesceIntoTail at h
  cases htail : state.slotAt (state.slots.length - 1) with
  | none => rw [htail] at h; cases h
  | some tail =>
    rw [htail] at h
    obtain ⟨fused, hfu, rfl⟩ := Option.map_eq_some_iff.1 h
    obtain ⟨before, after, hsl, hlen⟩ := slotAt_eq_some_iff.1 htail
    -- the slot is the last one
    obtain rfl : after = [] := by
      rw [hsl, length_append, length_cons] at hlen
      exact length_eq_zero_iff.1 (by omega)
    exact ⟨before, tail, fused, hsl, hfu, by rw [hlen]⟩

lemma supersedeInPlace_eq_some {superseded}
    {placement}
    (h : state.supersedeInPlace policy placement = some superseded) :
    ∃ before previous after merged, placement.liveSlot = some before.length ∧
      state.tailIsCoalescibleText = false ∧ state.slots = before ++ some previous :: after ∧
      mergeSupersededAgentTurnEvent previous placement.event = some merged ∧
      superseded = state.replaceSlot policy before.length previous merged := by
  unfold supersedeInPlace at h
  cases hlive : placement.liveSlot with
  | none => rw [hlive] at h; cases h
  | some slot =>
    rw [hlive] at h
    dsimp only at h
    split_ifs at h with htail
    cases hprev : state.slotAt slot with
    | none => rw [hprev] at h; cases h
    | some previous =>
      rw [hprev] at h
      obtain ⟨merged, hmrg, rfl⟩ := Option.map_eq_some_iff.1 h
      obtain ⟨before, after, hsl, rfl⟩ := slotAt_eq_some_iff.1 hprev
      exact ⟨before, previous, after, merged, rfl, Bool.eq_false_iff.2 htail, hsl, hmrg, rfl⟩

lemma admission_admitEvent (policy) (state) (event) :
    Admission policy state event (state.admitEvent policy event) := by
  unfold admitEvent
  cases hcoal : state.coalesceIntoTail policy event with
  | some coalesced =>
    obtain ⟨before, tail, fused, hsl, hfu, rfl⟩ := coalesceIntoTail_eq_some hcoal
    exact .fused hsl hfu
  | none =>
    unfold placeEvent
    cases hplc : state.supersedeInPlace policy (state.snapshots.place event) with
    | some superseded =>
      obtain ⟨before, previous, after, merged, hslot, htail, hsl, hmrg, rfl⟩ := supersedeInPlace_eq_some hplc
      exact .superseded hcoal hslot htail hsl hmrg
    | none => exact .appended hcoal hplc

variable {state' : RetentionState}

theorem Admission.consistent (hstep : Admission policy state event state')
    (h : state.Consistent policy) (hkeeps : KeepsTail policy) : state'.Consistent policy := by
  cases hstep with
  | fused hsl hfu =>
    exact (h.replaceSlot hsl (hkeeps.isUserMessage hfu) (hkeeps.agentThreadId? hfu)).1
  | superseded hcoal hslot htail hsl hmrg =>
    obtain ⟨hprev, hmrg, hid⟩ := mergeSupersededAgentTurnEvent_keeps hmrg
    exact (h.replaceSlot hsl (hmrg.trans hprev.symm) hid).1
  | appended hcoal hplc => exact (h.append _).1

lemma Admission.truncated (hstep : Admission policy state event state') : state'.truncated = state.truncated := by
  cases hstep with
  | fused hsl hfu => rfl
  | superseded hcoal hslot htail hsl hmrg => rfl
  | appended hcoal hplc => exact truncated_adoptSlot ..

/-- One turn of `enforceLimits`: above a limit, the event of one slot goes.
Every slot before it is pinned, and accepted input goes from the last slot
only. -/
inductive Eviction (policy : AgentTurnEventRetentionPolicy) (state : RetentionState) :
    RetentionState → Prop
  | evict {before after : List (Option AgentTurnEvent)} {event : AgentTurnEvent} {cursor : ℕ}
      (hover : state.exceedsLimits policy)
      (hslots : state.slots = before ++ some event :: after)
      (hvictim : state.nextVictimSlot = ({ state with evictionCursor := cursor }, some before.length))
      (hpre : ∀ slot ∈ before, isPinned slot)
      (huser : event.isUserMessage → after = [])
      (hcursor : ∀ slot ∈ (before ++ none :: after).take cursor, isPinned slot) :
      Eviction policy state ({ state with evictionCursor := cursor }.evictSlot policy before.length)

lemma nextVictimSlot_eq (state : RetentionState) {cursor} (h : state.skipPinned = cursor) :
    state.nextVictimSlot = ({ state with evictionCursor := cursor },
      if cursor < state.slots.length then some cursor
      else if state.slots.length = 0 then none
      else some (state.slots.length - 1)) := h ▸ rfl

lemma nextVictimSlot_cases (h : state.Consistent policy) :
    state.slots = [] ∨
      ∃ before event after cursor, state.slots = before ++ some event :: after ∧
        state.nextVictimSlot = ({ state with evictionCursor := cursor }, some before.length) ∧
        (∀ slot ∈ before, isPinned slot) ∧ (event.isUserMessage → after = []) ∧
        ∀ slot ∈ (before ++ none :: after).take cursor, isPinned slot := by
  set rest := state.slots.drop state.evictionCursor with hrest
  have hlen : (state.slots.take state.evictionCursor).length = state.evictionCursor := length_take_of_le h.cursor_le
  -- everything up to the moved cursor is pinned
  have hpinned : ∀ slot ∈ state.slots.take state.evictionCursor ++ rest.takeWhile isPinned, isPinned slot :=
    forall_mem_append.2 ⟨h.pinned, fun slot hslot => mem_takeWhile_imp hslot⟩
  have hskip : state.skipPinned = (state.slots.take state.evictionCursor ++ rest.takeWhile isPinned).length := by
    rw [length_append, hlen]; rfl
  have hsl : state.slots =
      (state.slots.take state.evictionCursor ++ rest.takeWhile isPinned) ++ rest.dropWhile isPinned := by
    rw [append_assoc, takeWhile_append_dropWhile, hrest, take_append_drop]
  set front := state.slots.take state.evictionCursor ++ rest.takeWhile isPinned
  cases hdrop : rest.dropWhile isPinned with
  | cons slot after =>
    have hslot : isPinned slot = false := by
      have := head?_dropWhile_not isPinned rest
      rw [hdrop] at this
      simpa using this
    cases slot with
    | none => simp [isPinned] at hslot
    | some event =>
      rw [hdrop] at hsl
      have huser : event.isUserMessage = false := hslot
      refine .inr ⟨front, event, after, front.length, hsl, ?_, hpinned,
        fun hc => absurd hc (by simp [huser]), by simpa using hpinned⟩
      rw [nextVictimSlot_eq state hskip, if_pos (by rw [hsl]; simp)]
  | nil =>
    rw [hdrop, append_nil] at hsl
    rcases slots_eq_nil_or_concat h.lastLive with hnil | ⟨before, event, hconcat⟩
    · exact .inl hnil
    · have hall : ∀ slot ∈ before, isPinned slot := fun slot hslot =>
        hpinned slot (hsl ▸ hconcat ▸ mem_append_left _ hslot)
      refine .inr ⟨before, event, [], front.length, hconcat, ?_, hall, fun _ => rfl, ?_⟩
      · have hlast : state.slots.length - 1 = before.length := by rw [hconcat]; simp
        rw [nextVictimSlot_eq state hskip, if_neg (by rw [← hsl]; omega), if_neg (by rw [hconcat]; simp), hlast]
      · intro slot hslot
        rcases mem_append.1 (mem_of_mem_take hslot) with hslot | hslot
        · exact hall slot hslot
        · obtain rfl := mem_singleton.1 hslot
          rfl

lemma slots_evictSlot (policy)
    (hsl : state.slots = before ++ some event :: after) :
    (state.evictSlot policy before.length).slots = (before ++ none :: after).rdropWhile Option.isNone := by
  unfold evictSlot
  rw [slotAt_split hsl]
  dsimp only
  rw [countSubagentThread_eq]
  show (state.slots.set before.length none).rdropWhile Option.isNone = _
  rw [hsl, set_split]

lemma liveEvents_evictSlot (policy)
    (hsl : state.slots = before ++ some event :: after) :
    (state.evictSlot policy before.length).liveEvents = before.reduceOption ++ after.reduceOption := by
  rw [liveEvents, slots_evictSlot policy hsl, reduceOption_rdropWhile, reduceOption_append,
    reduceOption_cons_of_none]

lemma truncated_evictSlot (policy)
    (hsl : state.slots = before ++ some event :: after) :
    (state.evictSlot policy before.length).truncated := by
  unfold evictSlot
  rw [slotAt_split hsl]
  dsimp only
  rw [countSubagentThread_eq]
  rfl

lemma snapshots_evictSlot (policy)
    (hsl : state.slots = before ++ some event :: after) :
    (state.evictSlot policy before.length).snapshots = state.snapshots.evict event before.length := by
  unfold evictSlot
  rw [slotAt_split hsl]
  dsimp only
  rw [countSubagentThread_eq]
  rfl

section

variable (hstep : Eviction policy state state')
include hstep

theorem Eviction.consistent (h : state.Consistent policy) : state'.Consistent policy := by
  obtain @⟨before, after, event, cursor, hover, hsl, -, hpre, huser, hcursor⟩ := hstep
  have hslots' : ({ state with evictionCursor := cursor } : RetentionState).slots =
      before ++ some event :: after := hsl
  have hnew := slots_evictSlot policy hslots'
  have hcur : ({ state with evictionCursor := cursor }.evictSlot policy before.length).evictionCursor =
      min cursor ((before ++ none :: after).rdropWhile Option.isNone).length := by
    unfold evictSlot
    rw [slotAt_split hslots']
    dsimp only
    rw [countSubagentThread_eq]
    show min cursor ((state.slots.set before.length none).rdropWhile Option.isNone).length = _
    rw [hsl, set_split]
  refine ⟨?_, ?_, ?_, ?_⟩
  · rw [liveEvents_evictSlot policy hslots']
    have ht := h.tallied
    rw [liveEvents_split hsl] at ht
    unfold evictSlot
    rw [slotAt_split hslots']
    dsimp only
    rw [countSubagentThread_eq]
    refine ⟨?_, ?_, ?_⟩
    · show state.liveCount - 1 = _
      rw [ht.liveCount]
      simp only [length_append, length_cons]; omega
    · show state.retainedBytes - policy.eventBytes event = _
      rw [ht.retainedBytes]
      simp only [map_append, map_cons, sum_append, sum_cons]; omega
    · exact counts_erase ht.subagentThreads
  · rw [hnew]
    intro hlast
    have hne : (before ++ none :: after).rdropWhile Option.isNone ≠ [] := by
      intro hc; rw [hc] at hlast; cases hlast
    have hnot := rdropWhile_last_not Option.isNone _ hne
    rw [getLast?_eq_some_getLast hne, Option.some.injEq] at hlast
    rw [hlast] at hnot
    exact hnot rfl
  · rw [hnew, hcur]
    exact min_le_right _ _
  · rw [hnew, hcur]
    intro slot hslot
    -- the popped slots are a prefix, so what is left of the cursor was there before
    obtain ⟨popped, hpopped⟩ := rdropWhile_prefix Option.isNone (before ++ none :: after)
    refine hcursor slot ?_
    rw [← hpopped, take_append]
    exact mem_append_left _ (take_subset_take_left _ (min_le_left _ _) hslot)

lemma Eviction.over : state.exceedsLimits policy := by
  obtain ⟨hover, -, -, -, -, -⟩ := hstep
  exact hover

lemma Eviction.truncated : state'.truncated := by
  obtain @⟨before, after, event, cursor, -, hsl, -, -, -, -⟩ := hstep
  have hslots' : ({ state with evictionCursor := cursor } : RetentionState).slots =
      before ++ some event :: after := hsl
  exact truncated_evictSlot policy hslots'

lemma Eviction.split :
    ∃ before event after, state.slots = before ++ some event :: after ∧
      (∀ slot ∈ before, isPinned slot) ∧ (event.isUserMessage → after = []) ∧
      state'.slots = (before ++ none :: after).rdropWhile Option.isNone ∧
      state'.snapshots = state.snapshots.evict event before.length := by
  obtain @⟨before, after, event, cursor, -, hsl, -, hpre, huser, -⟩ := hstep
  have hslots' : ({ state with evictionCursor := cursor } : RetentionState).slots =
      before ++ some event :: after := hsl
  exact ⟨before, event, after, hsl, hpre, huser, slots_evictSlot policy hslots',
    snapshots_evictSlot policy hslots'⟩

lemma Eviction.liveEvents : state'.liveEvents = evictOne AgentTurnEvent.isUserMessage state.liveEvents := by
  obtain @⟨before, after, event, cursor, hover, hsl, -, hpre, huser, hcursor⟩ := hstep
  have hslots' : ({ state with evictionCursor := cursor } : RetentionState).slots =
      before ++ some event :: after := hsl
  rw [liveEvents_evictSlot policy hslots', liveEvents_split hsl]
  have hpinned : ∀ a ∈ before.reduceOption, a.isUserMessage := pinned_of_mem_reduceOption hpre
  cases hev : event.isUserMessage with
  | false => rw [evictOne_of_first hpinned hev]
  | true =>
    obtain rfl := huser hev
    rw [evictOne_of_all]
    · simp
    · exact forall_mem_append.2 ⟨hpinned, by simpa using hev⟩

end

/-- **`enforceLimits` is a row of evictions that ends within the limits.** -/
theorem evictions_enforceLimits (h : state.Consistent policy) :
    Relation.ReflTransGen (Eviction policy) state (state.enforceLimits policy) ∧
      (state.enforceLimits policy).exceedsLimits policy = false := by
  suffices ∀ fuel (state : RetentionState), state.Consistent policy →
      state.liveEvents.length ≤ fuel →
      Relation.ReflTransGen (Eviction policy) state (enforceLimitsWith policy fuel state) ∧
        (enforceLimitsWith policy fuel state).exceedsLimits policy = false from
    this _ _ h (reduceOption_length_le _)
  intro fuel
  induction fuel with
  | zero =>
    intro state h hlen
    refine ⟨.refl, ?_⟩
    rw [enforceLimitsWith, exceedsLimits_eq h.tallied, length_eq_zero_iff.1 (Nat.le_zero.1 hlen), overLimits_nil]
  | succ fuel ih =>
    intro state h hlen
    rw [enforceLimitsWith]
    cases hover : state.exceedsLimits policy with
    | false => exact ⟨.refl, hover⟩
    | true =>
      rcases nextVictimSlot_cases h with hnil | ⟨before, event, after, cursor, hsl, hvictim,
        hpre, huser, hcursor⟩
      · -- without slots nothing is exceeded
        rw [exceedsLimits_eq h.tallied, liveEvents, hnil] at hover
        simp at hover
      · rw [hvictim]
        have hstep : Eviction policy state _ := .evict hover hsl hvictim hpre huser hcursor
        obtain ⟨hsteps, hend⟩ := ih _ (hstep.consistent h) (by
          rw [hstep.liveEvents, length_evictOne]; omega)
        exact ⟨.head hstep hsteps, hend⟩

end RetentionState
end CodevoEditor.AgentEvents
