/-
# Retention over whole runs

The window over a run of events.
-/

import CodevoEditor.AgentEvents.RetentionAccounting

namespace CodevoEditor.AgentEvents

open Js Window List

variable {policy : AgentTurnEventRetentionPolicy}

/-- The list with `event` joined to its last row, when they join. -/
def coalesceIntoLast (policy : AgentTurnEventRetentionPolicy) (rows : List AgentTurnEvent)
    (event : AgentTurnEvent) : Option (List AgentTurnEvent) :=
  match rows.getLast? with
  | none => none
  | some last => (policy.coalesceText last event).map fun fused => rows.dropLast ++ [fused]

/-- Join the last row or append. -/
def appendRow (policy : AgentTurnEventRetentionPolicy) (rows : List AgentTurnEvent)
    (event : AgentTurnEvent) : List AgentTurnEvent :=
  (coalesceIntoLast policy rows event).getD (rows ++ [event])

/-- One event on a plain list: `enter` it, then evict while a recount exceeds a
limit. -/
def acceptRows (policy : AgentTurnEventRetentionPolicy)
    (enter : List AgentTurnEvent → AgentTurnEvent → List AgentTurnEvent)
    (result : AgentTurnEventRetentionResult) (event : AgentTurnEvent) :
    AgentTurnEventRetentionResult :=
  if (policy.maxBytes : ℤ) < policy.eventBytes event then { result with truncated := true }
  else
    { events := shrink AgentTurnEvent.isUserMessage (overLimits policy) (enter result.events event)
      truncated := result.truncated || overLimits policy (enter result.events event) }

/-- The persistence path on a plain list. -/
def naiveCap (policy : AgentTurnEventRetentionPolicy) (events : List AgentTurnEvent) :
    AgentTurnEventRetentionResult :=
  events.foldl (acceptRows policy (appendRow policy)) ⟨[], false⟩

variable {enter : List AgentTurnEvent → AgentTurnEvent → List AgentTurnEvent}
    {result : AgentTurnEventRetentionResult} {event : AgentTurnEvent}

lemma acceptRows_congr {enter' : List AgentTurnEvent → AgentTurnEvent → List AgentTurnEvent}
    (h : enter result.events event = enter' result.events event) :
    acceptRows policy enter result event = acceptRows policy enter' result event := by
  rw [acceptRows, acceptRows, h]

lemma coalesceIntoLast_concat (rows) (last event) :
    coalesceIntoLast policy (rows ++ [last]) event =
      (policy.coalesceText last event).map fun fused => rows ++ [fused] := by
  rw [coalesceIntoLast, getLast?_concat, dropLast_concat]

variable {state : RetentionState}

namespace RetentionState

lemma Consistent.coalesceIntoTail (h : state.Consistent policy) (event) :
    (state.coalesceIntoTail policy event).map liveEvents = coalesceIntoLast policy state.liveEvents event := by
  rcases slots_eq_nil_or_concat h.lastLive with hnil | ⟨before, tail, hsl⟩
  · simp [RetentionState.coalesceIntoTail, slotAt, liveEvents, hnil, coalesceIntoLast]
  · have hlive : state.liveEvents = before.reduceOption ++ [tail] := liveEvents_split hsl
    rw [hlive, coalesceIntoLast_concat]
    have htail : state.slotAt (state.slots.length - 1) = some tail := by
      have hlen : state.slots.length - 1 = before.length := by rw [hsl]; simp
      rw [hlen, slotAt_split hsl]
    unfold RetentionState.coalesceIntoTail
    rw [htail]
    rw [Option.map_map]
    refine congrArg (Option.map · _) (funext fun fused => ?_)
    show (state.slots.set (state.slots.length - 1) (some fused)).reduceOption = _
    rw [hsl, length_append, length_singleton, Nat.add_sub_cancel, set_split, reduceOption_split]
    rfl

lemma Consistent.coalesceIntoTail_eq_none_iff (h : state.Consistent policy) :
    state.coalesceIntoTail policy event = none ↔ coalesceIntoLast policy state.liveEvents event = none := by
  rw [← h.coalesceIntoTail event, Option.map_eq_none_iff]

variable (existing : List AgentTurnEvent)

lemma adopt_fold (k : ℕ) (state : RetentionState)
    {events} (h : state.Tallied policy events) :
    let adopted := (existing.zipIdx k).foldl (fun state slot => state.adoptSlot policy slot.1 slot.2) state
    adopted.Tallied policy (events ++ existing) ∧ adopted.slots = state.slots ∧
      adopted.evictionCursor = state.evictionCursor ∧ adopted.truncated = state.truncated ∧
      adopted.snapshots = (existing.zipIdx k).foldl (fun index slot => index.adopt slot.1 slot.2)
        state.snapshots := by
  induction existing generalizing k state events with
  | nil => exact ⟨by simpa using h, rfl, rfl, rfl, rfl⟩
  | cons event existing ih =>
    obtain ⟨htally, hsl, hcur, htr, hsnaps⟩ := ih (k + 1) _ (h.adoptSlot event k)
    rw [slots_adoptSlot] at hsl
    rw [evictionCursor_adoptSlot] at hcur
    rw [truncated_adoptSlot] at htr
    rw [snapshots_adoptSlot] at hsnaps
    rw [append_assoc, singleton_append] at htally
    exact ⟨htally, hsl, hcur, htr, hsnaps⟩

/-- **Starting over from a list of events.**  They are counted and every slot
is live. -/
theorem adopted_spec (policy) (existing)
    (snapshots) :
    (adopted policy existing snapshots).Consistent policy ∧
      (adopted policy existing snapshots).slots = existing.map some ∧
      (adopted policy existing snapshots).truncated = false ∧
      (adopted policy existing snapshots).snapshots =
        existing.zipIdx.foldl (fun index slot => index.adopt slot.1 slot.2) snapshots := by
  have hinit : (initial existing snapshots).Tallied policy [] := ⟨rfl, rfl, .empty⟩
  obtain ⟨htally, hsl, hcur, htr, hsnaps⟩ := adopt_fold existing 0 _ hinit
  have hslots' : (adopted policy existing snapshots).slots = existing.map some := hsl
  have hcur' : (adopted policy existing snapshots).evictionCursor = 0 := hcur
  refine ⟨⟨?_, ?_, ?_, ?_⟩, hslots', htr, hsnaps⟩
  · rw [liveEvents, hslots', List.reduceOption, filterMap_map, Function.id_comp,
      filterMap_some]
    exact htally
  · rw [hslots', getLast?_map]
    cases existing.getLast? <;> simp
  · rw [hcur']; exact Nat.zero_le _
  · rw [hcur', take_zero]
    exact fun slot h => absurd h not_mem_nil

lemma liveEvents_adopted (snapshots) : (adopted policy existing snapshots).liveEvents = existing := by
  rw [liveEvents, (adopted_spec policy existing snapshots).2.1, List.reduceOption, filterMap_map,
    Function.id_comp, filterMap_some]

/-- **`enforceLimits` evicts what a rescan would.** -/
theorem enforceLimits_liveEvents (h : state.Consistent policy) :
    (state.enforceLimits policy).Consistent policy ∧
      (state.enforceLimits policy).liveEvents =
        shrink AgentTurnEvent.isUserMessage (overLimits policy) state.liveEvents ∧
      (state.enforceLimits policy).truncated = (state.truncated || overLimits policy state.liveEvents) := by
  obtain ⟨hsteps, hend⟩ := evictions_enforceLimits h
  generalize state.enforceLimits policy = last at hsteps hend
  induction hsteps using Relation.ReflTransGen.head_induction_on with
  | refl =>
    rw [exceedsLimits_eq h.tallied] at hend
    rw [shrink_of_not_over hend, hend, Bool.or_false]
    exact ⟨h, rfl, rfl⟩
  | head hstep _ ih =>
    obtain ⟨hcons, hlive, htr⟩ := ih (hstep.consistent h)
    have hover := hstep.over
    rw [exceedsLimits_eq h.tallied] at hover
    rw [hstep.truncated, Bool.true_or] at htr
    rw [hstep.liveEvents] at hlive
    rw [shrink_eq overLimits_nil, hover, if_pos rfl, Bool.or_true]
    exact ⟨hcons, hlive, htr⟩

/-- An event on the window is the event on the plain list, with what the window
admits for `enter`. -/
lemma acceptEvent_spec (h : state.Consistent policy) (hkeeps : KeepsTail policy)
    (event) :
    (state.acceptEvent policy event).Consistent policy ∧
      ⟨(state.acceptEvent policy event).liveEvents, (state.acceptEvent policy event).truncated⟩ =
        acceptRows policy (fun _ event => (state.admitEvent policy event).liveEvents)
          ⟨state.liveEvents, state.truncated⟩ event := by
  unfold acceptEvent acceptRows
  by_cases hby : (policy.maxBytes : ℤ) < policy.eventBytes event
  · rw [if_pos hby, if_pos hby]
    exact ⟨⟨⟨h.tallied.1, h.tallied.2, h.tallied.3⟩, h.2, h.3, h.4⟩, rfl⟩
  · rw [if_neg hby, if_neg hby]
    have hstep := admission_admitEvent policy state event
    obtain ⟨hcons, hlive, htr⟩ := enforceLimits_liveEvents (hstep.consistent h hkeeps)
    rw [hstep.truncated] at htr
    exact ⟨hcons, by rw [hlive, htr]⟩

lemma overLimits_acceptRows (h : overLimits policy result.events = false) (event) :
    overLimits policy (acceptRows policy enter result event).events =
      false := by
  unfold acceptRows
  split_ifs
  · exact h
  · exact over_shrink overLimits_nil _

end RetentionState

open RetentionState

lemma retainState_concat (existing incoming) (event)
    (snapshots) :
    retainState policy existing (incoming ++ [event]) snapshots =
      (retainState policy existing incoming snapshots).acceptEvent policy event := by
  rw [retainState, foldl_append]
  rfl

lemma consistent_retainState (hkeeps : KeepsTail policy) (existing incoming)
    (snapshots) :
    (retainState policy existing incoming snapshots).Consistent policy := by
  induction incoming using List.reverseRecOn with
  | nil => exact (adopted_spec policy existing snapshots).1
  | append_singleton incoming event ih =>
    rw [retainState_concat]
    exact (acceptEvent_spec ih hkeeps event).1

lemma overLimits_retainState (hkeeps : KeepsTail policy) {existing}
    (hexist : overLimits policy existing = false) (incoming)
    (snapshots) :
    overLimits policy (retainState policy existing incoming snapshots).liveEvents = false := by
  induction incoming using List.reverseRecOn with
  | nil =>
    show overLimits policy (adopted policy existing snapshots).liveEvents = false
    rw [liveEvents_adopted]; exact hexist
  | append_singleton incoming event ih =>
    rw [retainState_concat]
    have hspec := (acceptEvent_spec (consistent_retainState hkeeps existing incoming snapshots) hkeeps event).2
    have hlive := congrArg AgentTurnEventRetentionResult.events hspec
    dsimp only at hlive
    rw [hlive]
    exact overLimits_acceptRows ih event

/-- **Limits, counters and the order of eviction**: the counters are what a recount gives, and
evictions come above a limit only (`Eviction`). -/
theorem retention_accounting (hkeeps : KeepsTail policy) {existing : List AgentTurnEvent}
    (hexist : overLimits policy existing = false) (incoming : List AgentTurnEvent)
    (snapshots : AgentTurnSnapshotIndex) :
    let state := retainState policy existing incoming snapshots
    (state.liveEvents.length ≤ policy.maxEvents ∧
      (state.liveEvents.map policy.eventBytes).sum ≤ policy.maxBytes ∧
      (agentThreadIds state.liveEvents).dedup.length ≤ policy.maxSubagentThreads) ∧
    (state.liveCount = state.liveEvents.length ∧
      state.retainedBytes = (state.liveEvents.map policy.eventBytes).sum ∧
      Counts state.subagentThreads (agentThreadIds state.liveEvents)) ∧
    ∀ event, ¬ (policy.maxBytes : ℤ) < policy.eventBytes event →
      Relation.ReflTransGen (Eviction policy) (state.admitEvent policy event) (state.acceptEvent policy event) := by
  intro state
  have hcons : state.Consistent policy := consistent_retainState hkeeps existing incoming snapshots
  refine ⟨overLimits_eq_false_iff.1 (overLimits_retainState hkeeps hexist incoming snapshots),
    ⟨hcons.tallied.1, hcons.tallied.2, hcons.tallied.3⟩, fun event hbytes => ?_⟩
  rw [acceptEvent, if_neg hbytes]
  have hadmitted := (admission_admitEvent policy state event).consistent hcons hkeeps
  exact (evictions_enforceLimits hadmitted).1

/-- The usage of a child thread. -/
def usageOf (agentThreadId : String) : AgentTurnEvent :=
  .subagentUsage {
    agentThreadId := js agentThreadId
    usage := { inputTokens := .int 1, outputTokens := .int 1, contextTokens := none } }

/-- A policy that joins the usage of one child thread into that of another. -/
def usageRenaming : AgentTurnEventRetentionPolicy where
  maxEvents := 8
  maxBytes := 8
  maxSubagentThreads := 1
  eventBytes _ := 0
  coalesceText
    | .subagentUsage _, .subagentUsage next => some (.subagentUsage next)
    | _, _ => none

theorem retention_accounting_turnEvents :
    (retainState turnEventRetentionPolicy [] [usageOf "a", usageOf "b"] .create).liveCount = 2 := by
  have h := retention_accounting keepsTail_turnEventRetentionPolicy overLimits_nil [usageOf "a", usageOf "b"] .create
  decide +kernel

/-- Joining text may not rename a child thread: the counter of the old thread
would stay. -/
theorem usageRenaming_miscounts :
    (∀ event, 0 ≤ usageRenaming.eventBytes event) ∧
      overLimits usageRenaming [usageOf "a"] = false ∧
      ¬ Counts (retainState usageRenaming [usageOf "a"] [usageOf "b"] .inert).subagentThreads
        (agentThreadIds (retainState usageRenaming [usageOf "a"] [usageOf "b"] .inert).liveEvents) :=
  ⟨fun _ => le_refl 0, by decide, fun h => absurd (h (js "a")) (by decide)⟩

lemma snapshots_acceptEvent_inert (h : state.Consistent policy) (hkeeps : KeepsTail policy)
    (hinert : state.snapshots = .inert) (event) :
    (state.acceptEvent policy event).snapshots = .inert := by
  unfold acceptEvent
  split_ifs
  · exact hinert
  have hstep := admission_admitEvent policy state event
  have hsteps := (evictions_enforceLimits (hstep.consistent h hkeeps)).1
  generalize state.admitEvent policy event = admitted at hstep hsteps
  generalize admitted.enforceLimits policy = last at hsteps
  induction hsteps with
  | refl =>
    cases hstep with
    | fused => exact hinert
    | superseded => exact hinert
    | appended =>
      rw [snapshots_adoptSlot]
      rw [hinert]; rfl
  | tail _ hevict ih =>
    obtain ⟨before, event, after, -, -, -, -, hsnaps⟩ := hevict.split
    rw [hsnaps, ih]; rfl

lemma admitEvent_inert (h : state.Consistent policy) (hinert : state.snapshots = .inert)
    (event) :
    (state.admitEvent policy event).liveEvents = appendRow policy state.liveEvents event := by
  have hplc : state.snapshots.place event = ⟨event, none⟩ := by rw [hinert]; rfl
  unfold appendRow
  rw [← h.coalesceIntoTail event]
  unfold admitEvent
  cases hcoal : state.coalesceIntoTail policy event with
  | some coalesced => rfl
  | none =>
    rw [hplc]
    show (({ state with slots := state.slots ++ [some event] } : RetentionState).adoptSlot policy
      event state.slots.length).slots.reduceOption = _
    rw [(h.append event).2, reduceOption_append]
    rfl

lemma retainState_inert_naive (hkeeps : KeepsTail policy) (events) :
    (retainState policy [] events .inert).Consistent policy ∧
      (retainState policy [] events .inert).snapshots = .inert ∧
      ⟨(retainState policy [] events .inert).liveEvents,
        (retainState policy [] events .inert).truncated⟩ = naiveCap policy events := by
  induction events using List.reverseRecOn with
  | nil => exact ⟨(adopted_spec policy [] .inert).1, rfl, rfl⟩
  | append_singleton events event ih =>
    obtain ⟨hcons, hinert, hres⟩ := ih
    rw [retainState_concat, naiveCap, foldl_append]
    obtain ⟨hcons', hres'⟩ := acceptEvent_spec hcons hkeeps event
    refine ⟨hcons', snapshots_acceptEvent_inert hcons hkeeps hinert event, ?_⟩
    rw [hres']
    show _ = acceptRows policy (appendRow policy) (naiveCap policy events) event
    rw [← hres]
    exact acceptRows_congr (admitEvent_inert hcons hinert event)

lemma cap_eq_naiveCap (hkeeps : KeepsTail policy) (events) :
    capAgentTurnEvents policy events = naiveCap policy events := by
  unfold capAgentTurnEvents retain
  split_ifs with hnil
  · rw [hnil]; rfl
  · exact (retainState_inert_naive hkeeps events).2.2

/-- **The persistence path is the plain list algorithm**: slots, cursor and running counters change
nothing. -/
theorem capAgentTurnEvents_eq_naive (hkeeps : KeepsTail policy) (events : List AgentTurnEvent) :
    capAgentTurnEvents policy events = naiveCap policy events :=
  cap_eq_naiveCap hkeeps events

theorem capAgentTurnEvents_eq_naive_turnEvents :
    capAgentTurnEvents turnEventRetentionPolicy [usageOf "a", usageOf "a"] =
      naiveCap turnEventRetentionPolicy [usageOf "a", usageOf "a"] :=
  capAgentTurnEvents_eq_naive keepsTail_turnEventRetentionPolicy _

/-- A renamed child thread goes unnoticed by the counter, not by a recount. -/
theorem usageRenaming_cap_ne_naive :
    (∀ event, 0 ≤ usageRenaming.eventBytes event) ∧
      capAgentTurnEvents usageRenaming [usageOf "a", usageOf "b", .error [], usageOf "a"] ≠
        naiveCap usageRenaming [usageOf "a", usageOf "b", .error [], usageOf "a"] :=
  ⟨fun _ => le_refl 0, by decide⟩

end CodevoEditor.AgentEvents
