/-
# Live output is a fixpoint of the persistence cap

What a turn retains is saved and read back through `capPersistedTurnEvents`.
-/

import CodevoEditor.AgentEvents.BatchIndependence
import Mathlib.Algebra.Order.BigOperators.Group.List
import Mathlib.Algebra.Order.Group.Int

namespace CodevoEditor.AgentEvents

open Js Window RetentionState List Option

/-- The batches of a turn merged one after the other. -/
def mergeBatches (batches : List (List AgentTurnEvent)) : AgentTurnEventRetentionResult :=
  batches.foldl (fun result batch =>
    { events := (mergeTurnEvents result.events batch).events
      truncated := result.truncated || (mergeTurnEvents result.events batch).truncated }) ⟨[], false⟩

variable (batches : List (List AgentTurnEvent))

/-- The second event does not join the first. -/
def Parted (last next : AgentTurnEvent) : Prop := coalesceAgentTextEvents last next = none

variable {last : AgentTurnEvent}

lemma parted_of_not_text_left (h : isAgentTurnCoalescibleTextEvent last = false)
    (next) :
    Parted last next := by
  refine eq_none_iff_forall_not_mem.2 fun fused hfu => ?_
  rw [joinsText_turnEventRetentionPolicy.last hfu] at h
  cases h

lemma parted_of_not_text_right (last) {next}
    (h : isAgentTurnCoalescibleTextEvent next = false) : Parted last next := by
  refine eq_none_iff_forall_not_mem.2 fun fused hfu => ?_
  obtain ⟨channel, -, nextText, -, -, rfl, -⟩ := coalesceAgentTextEvents_eq_some_iff.1 hfu
  rw [isAgentTurnCoalescibleTextEvent_channelEvent] at h
  cases h

lemma parted_of_isUserMessage (h : last.isUserMessage) (next) : Parted last next := by
  refine parted_of_not_text_left ?_ next
  cases last with
  | userMessage => rfl
  | _ => cases h

lemma Supersedes.not_text {previous next merged}
    (h : Supersedes previous next merged) :
    isAgentTurnCoalescibleTextEvent previous = false ∧ isAgentTurnCoalescibleTextEvent merged = false := by
  cases h <;> exact ⟨rfl, rfl⟩

variable {event : AgentTurnEvent}

lemma parted_withIds (h : Parted last event) (ids) : Parted last (withAgentTurnSubagentIds event ids) := by
  cases event with
  | subagent event => exact parted_of_not_text_right last rfl
  | _ => exact h

lemma parted_place (h : Parted last event) (index : AgentTurnSnapshotIndex) :
    Parted last (index.place event).event := by
  cases index with
  | inert => exact h
  | live state =>
    show Parted last (state.placeEvent event).event
    unfold IndexState.placeEvent
    cases agentTurnEventSupersession event with
    | barrier | content => exact h
    | snapshot target =>
      cases target with
      | identity => exact h
      | subagentIds ids =>
        dsimp only
        split_ifs
        · exact parted_withIds h _
        · exact h

lemma isChain_replace {before after} {previous}
    (h : (before ++ previous :: after).IsChain Parted)
    (hleft : ∀ last, Parted last previous → Parted last event)
    (hrt : ∀ next, Parted previous next → Parted event next) :
    (before ++ event :: after).IsChain Parted := by
  rw [isChain_append] at h ⊢
  obtain ⟨hpre, haft, hseam⟩ := h
  refine ⟨hpre, ?_, fun last hlast next hnext => ?_⟩
  · rw [isChain_cons] at haft ⊢
    exact ⟨fun next hnext => hrt next (haft.1 next hnext), haft.2⟩
  · cases hnext
    exact hleft last (hseam last hlast previous rfl)

/-- **Admitting an event keeps neighbours parted.** -/
theorem isChain_admission {state state'}
    (hstep : Admission turnEventRetentionPolicy state event state')
    (h : state.Consistent turnEventRetentionPolicy) (hchain : state.liveEvents.IsChain Parted) :
    state'.liveEvents.IsChain Parted := by
  cases hstep with
  | fused hsl hfu =>
    rw [liveEvents_replaceSlot hsl]
    rw [liveEvents_split hsl] at hchain
    rw [reduceOption_nil, isChain_append] at hchain ⊢
    refine ⟨hchain.1, isChain_singleton _, fun last hlast next hnext => ?_⟩
    cases hnext
    exact coalesceAgentTextEvents_eq_none_of_fused (hchain.2.2 last hlast _ rfl) hfu
  | superseded hcoal hslot htail hsl hmrg =>
    rw [liveEvents_replaceSlot hsl]
    rw [liveEvents_split hsl] at hchain
    obtain ⟨-, htext⟩ := (mergeSuperseded_eq_some_iff.1 hmrg).not_text
    exact isChain_replace hchain (fun last _ => parted_of_not_text_right last htext)
      fun next _ => parted_of_not_text_left htext next
  | appended hcoal hplc =>
    rw [liveEvents_append]
    rw [h.coalesceIntoTail_eq_none_iff, coalesceIntoLast] at hcoal
    refine hchain.append (isChain_singleton _) fun last hlast next hnext => ?_
    cases hnext
    rw [mem_def.1 hlast] at hcoal
    exact parted_place (map_eq_none_iff.1 hcoal) state.snapshots

/-- **Every run of the live path keeps neighbours parted.** -/
theorem isChain_acceptRows {state : RetentionState}
    (h : state.Consistent turnEventRetentionPolicy) (hchain : state.liveEvents.IsChain Parted)
    (event) :
    (state.acceptEvent turnEventRetentionPolicy event).liveEvents.IsChain Parted := by
  unfold acceptEvent
  split_ifs
  · exact hchain
  · have hadm := admission_admitEvent turnEventRetentionPolicy state event
    obtain ⟨-, hlive, -⟩ := enforceLimits_liveEvents (hadm.consistent h keepsTail_turnEventRetentionPolicy)
    rw [hlive]
    exact shrink_induct (fun rows hrows => isChain_evictOne
      (fun last next hlast => parted_of_isUserMessage hlast next) hrows)
      (isChain_admission hadm h hchain)

/-- What the cap leaves as it is: parted neighbours within the limits. -/
def Persistable (events : List AgentTurnEvent) : Prop :=
  events.IsChain Parted ∧ overLimits turnEventRetentionPolicy events = false

lemma persistable_retainState {existing : List AgentTurnEvent} (h : Persistable existing)
    (incoming) (snapshots) :
    Persistable (retainState turnEventRetentionPolicy existing incoming snapshots).liveEvents := by
  refine ⟨?_, overLimits_retainState keepsTail_turnEventRetentionPolicy h.2 incoming snapshots⟩
  induction incoming using List.reverseRecOn with
  | nil =>
    show (adopted turnEventRetentionPolicy existing snapshots).liveEvents.IsChain Parted
    rw [liveEvents_adopted]
    exact h.1
  | append_singleton incoming event ih =>
    rw [retainState_concat]
    exact isChain_acceptRows
      (consistent_retainState keepsTail_turnEventRetentionPolicy existing incoming snapshots) ih event

lemma persistable_mergeTurnEvents {existing} (h : Persistable existing)
    (incoming) : Persistable (mergeTurnEvents existing incoming).events := by
  unfold mergeTurnEvents retainAgentTurnEvents retain
  split_ifs
  · exact h
  · exact persistable_retainState h incoming _

lemma persistable_mergeBatches : Persistable (mergeBatches batches).events := by
  induction batches using List.reverseRecOn with
  | nil => exact ⟨isChain_nil, overLimits_nil⟩
  | append_singleton batches batch ih =>
    rw [mergeBatches, foldl_append]
    exact persistable_mergeTurnEvents ih batch

lemma sum_eventBytes_nonneg (events : List AgentTurnEvent) :
    0 ≤ (events.map turnEventRetentionPolicy.eventBytes).sum :=
  sum_nonneg fun bytes hmem => by
    obtain ⟨event, -, rfl⟩ := mem_map.1 hmem
    exact Int.natCast_nonneg _

variable {events : List AgentTurnEvent}

lemma overLimits_sublist {events'} (hsub : events.Sublist events')
    (h : overLimits turnEventRetentionPolicy events' = false) :
    overLimits turnEventRetentionPolicy events = false := by
  rw [overLimits_eq_false_iff] at h ⊢
  obtain ⟨hlen, hby, hths⟩ := h
  obtain ⟨others, hperm⟩ := hsub.exists_perm_append
  have hrest := sum_eventBytes_nonneg others
  rw [(hperm.map turnEventRetentionPolicy.eventBytes).sum_eq, map_append, sum_append] at hby
  refine ⟨hsub.length_le.trans hlen, by omega, le_trans (Subperm.length_le ?_) hths⟩
  refine (nodup_dedup _).subperm fun agentThreadId hmem => ?_
  rw [mem_dedup] at hmem ⊢
  exact (hsub.filterMap _).subset hmem

lemma eventBytes_le (h : overLimits turnEventRetentionPolicy (events ++ [event]) = false) :
    ¬ (turnEventRetentionPolicy.maxBytes : ℤ) < turnEventRetentionPolicy.eventBytes event := by
  have hby := (overLimits_eq_false_iff.1 h).2.1
  have hrest := sum_eventBytes_nonneg events
  rw [map_append, sum_append, map_singleton, sum_singleton] at hby
  omega

/-- **A persistable turn comes back as it was.** -/
theorem capPersistedTurnEvents_of_persistable (h : Persistable events) :
    capPersistedTurnEvents events = ⟨events, false⟩ := by
  unfold capPersistedTurnEvents
  rw [cap_eq_naiveCap keepsTail_turnEventRetentionPolicy]
  induction events using List.reverseRecOn with
  | nil => rfl
  | append_singleton events event ih =>
    obtain ⟨hchain, hlimits⟩ := h
    rw [naiveCap, foldl_append]
    show acceptRows turnEventRetentionPolicy _ (naiveCap turnEventRetentionPolicy events) event = _
    rw [ih ⟨hchain.left_of_append, overLimits_sublist (sublist_append_left _ _) hlimits⟩, acceptRows,
      if_neg (eventBytes_le hlimits)]
    -- the event joins no neighbour, so it is appended
    have happend : appendRow turnEventRetentionPolicy events event = events ++ [event] := by
      unfold appendRow coalesceIntoLast
      cases hlast : events.getLast? with
      | none => rfl
      | some last =>
        have hparted : Parted last event := (isChain_append.1 hchain).2.2 last hlast event rfl
        show ((coalesceAgentTextEvents last event).map _).getD _ = _
        rw [show coalesceAgentTextEvents last event = none from hparted]
        rfl
    rw [happend, shrink_of_not_over hlimits, hlimits]
    rfl

lemma length_coalesceIntoLast {rows fused}
    (h : coalesceIntoLast turnEventRetentionPolicy rows event = some fused) :
    fused.length ≤ rows.length := by
  unfold coalesceIntoLast at h
  cases hlast : rows.getLast? with
  | none =>
    rw [hlast] at h
    cases h
  | some last =>
    obtain ⟨front, rfl⟩ := getLast?_eq_some_iff.1 hlast
    rw [hlast] at h
    obtain ⟨text, -, rfl⟩ := map_eq_some_iff.1 h
    rw [dropLast_concat, length_append, length_append]
    exact le_rfl

lemma acceptRows_of_longer {result}
    (h : result.events.length < (acceptRows turnEventRetentionPolicy (appendRow turnEventRetentionPolicy) result
      event).events.length) :
    (acceptRows turnEventRetentionPolicy (appendRow turnEventRetentionPolicy) result event).events =
        result.events ++ [event] ∧
      overLimits turnEventRetentionPolicy (result.events ++ [event]) = false ∧
      ∀ last ∈ result.events.getLast?, Parted last event := by
  unfold acceptRows at h ⊢
  split at h
  case isTrue => exact absurd h (lt_irrefl _)
  case isFalse hsmall =>
    rw [if_neg hsmall]
    let rows := appendRow turnEventRetentionPolicy result.events event
    have hsub : (shrink AgentTurnEvent.isUserMessage (overLimits turnEventRetentionPolicy) rows).Sublist rows :=
      shrink_sublist rows
    have hin : overLimits turnEventRetentionPolicy
        (shrink AgentTurnEvent.isUserMessage (overLimits turnEventRetentionPolicy) rows) = false :=
      over_shrink overLimits_nil rows
    have hlonger := h.trans_le hsub.length_le
    unfold rows appendRow at hsub hin hlonger
    unfold appendRow at h ⊢
    cases hfu : coalesceIntoLast turnEventRetentionPolicy result.events event with
    | some fused =>
      rw [hfu, getD_some] at hlonger
      exact absurd hlonger (length_coalesceIntoLast hfu).not_gt
    | none =>
      rw [hfu, getD_none] at h hsub hin
      have hsame := hsub.eq_of_length_le (by
        rw [length_append, length_singleton]
        exact h)
      rw [hsame] at hin
      refine ⟨hsame, hin, fun last hlast => ?_⟩
      unfold coalesceIntoLast at hfu
      rw [mem_def.1 hlast] at hfu
      exact map_eq_none_iff.1 hfu

lemma naiveCap_concat (events) (event) :
    naiveCap turnEventRetentionPolicy (events ++ [event]) =
      acceptRows turnEventRetentionPolicy (appendRow turnEventRetentionPolicy)
        (naiveCap turnEventRetentionPolicy events) event := by
  rw [naiveCap, foldl_append]
  rfl

lemma length_naiveCap (events) : (naiveCap turnEventRetentionPolicy events).events.length ≤ events.length := by
  induction events using List.reverseRecOn with
  | nil => exact le_rfl
  | append_singleton events event ih =>
    rw [naiveCap_concat, length_append, length_singleton]
    by_cases hlonger : (naiveCap turnEventRetentionPolicy events).events.length <
        (acceptRows turnEventRetentionPolicy (appendRow turnEventRetentionPolicy)
          (naiveCap turnEventRetentionPolicy events) event).events.length
    · rw [(acceptRows_of_longer hlonger).1, length_append, length_singleton]
      omega
    · omega

/-- **Only a persistable turn comes back as it was.** -/
theorem persistable_of_capPersistedTurnEvents (h : (capPersistedTurnEvents events).events = events) :
    Persistable events := by
  unfold capPersistedTurnEvents at h
  rw [cap_eq_naiveCap keepsTail_turnEventRetentionPolicy] at h
  induction events using List.reverseRecOn with
  | nil => exact ⟨isChain_nil, overLimits_nil⟩
  | append_singleton events event ih =>
    rw [naiveCap_concat] at h
    have hlen := length_naiveCap events
    have hlonger : (naiveCap turnEventRetentionPolicy events).events.length <
        (acceptRows turnEventRetentionPolicy (appendRow turnEventRetentionPolicy)
          (naiveCap turnEventRetentionPolicy events) event).events.length := by
      rw [h, length_append, length_singleton]
      omega
    obtain ⟨hrows, hin, hparted⟩ := acceptRows_of_longer hlonger
    have hpre : (naiveCap turnEventRetentionPolicy events).events = events :=
      append_cancel_right (hrows.symm.trans h)
    rw [hpre] at hin hparted
    refine ⟨(ih hpre).1.append (isChain_singleton _) fun last hlast next hnext => ?_, hin⟩
    cases hnext
    exact hparted last hlast

/-- **Saving and reloading never rewrites a turn**: the persistence cap returns what batches were
merged to as it is. -/
theorem capPersistedTurnEvents_mergeBatches :
    capPersistedTurnEvents (mergeBatches batches).events = ⟨(mergeBatches batches).events, false⟩ ∧
      (mergeBatches batches).events.IsChain fun last next =>
        coalesceAgentTextEvents last next = none :=
  ⟨capPersistedTurnEvents_of_persistable (persistable_mergeBatches batches), (persistable_mergeBatches batches).1⟩

/-- **The persistence cap is a projection**, whatever events it is given: it leaves alone just what is
within the limits and has no neighbours that join, and all that it returns is so. -/
theorem capPersistedTurnEvents_projects (events : List AgentTurnEvent) :
    capPersistedTurnEvents (capPersistedTurnEvents events).events = ⟨(capPersistedTurnEvents events).events, false⟩ ∧
      ((capPersistedTurnEvents events).events = events ↔
        events.IsChain (fun last next => coalesceAgentTextEvents last next = none) ∧
          overLimits turnEventRetentionPolicy events = false) := by
  have hnil : Persistable [] := ⟨isChain_nil, overLimits_nil⟩
  have hcapped : Persistable (capPersistedTurnEvents events).events := by
    unfold capPersistedTurnEvents capAgentTurnEvents retain
    split_ifs
    · exact hnil
    · exact persistable_retainState hnil events .inert
  refine ⟨capPersistedTurnEvents_of_persistable hcapped, persistable_of_capPersistedTurnEvents, fun h => ?_⟩
  rw [capPersistedTurnEvents_of_persistable h]

end CodevoEditor.AgentEvents
