/-
# The live path looks back over its rows

An index that knows the live rows (`Indexes`) answers `place` as a look back over the rows would, so
an event on the window is `liveRow` on the live events.
-/

import CodevoEditor.AgentEvents.IndexInvariant

namespace CodevoEditor.AgentEvents

open Js Window RetentionState List Option

variable {policy : AgentTurnEventRetentionPolicy}

variable {ids : AgentTurnSubagentIds}

lemma IndexState.sharedSubagentSlot_eq_some_iff {state : IndexState} {slot : ℕ} :
    state.sharedSubagentSlot ids = some slot ↔ slotKeys (.subagentIds ids) ≠ [] ∧
      ∀ key ∈ slotKeys (.subagentIds ids), state.slotOf key = some slot := by
  obtain ⟨toolId, taskId⟩ := ids
  cases toolId with
  | none =>
    cases taskId with
    | none => simp [sharedSubagentSlot, slotKeys]
    | some taskId =>
      simp only [sharedSubagentSlot, slotKeys, slotOf, bind_some, bind_none,
        map_some, map_none, toList_some, toList_none, nil_append,
        mem_singleton, forall_eq]
      generalize (state.liveSlots .subagentTask).get? taskId = task
      cases task <;> simp
  | some toolId =>
    cases taskId with
    | none =>
      simp only [sharedSubagentSlot, slotKeys, slotOf, bind_some, bind_none,
        map_some, map_none, toList_some, toList_none,
        append_nil, mem_singleton, forall_eq]
      generalize (state.liveSlots .subagentTool).get? toolId = tool
      cases tool <;> simp
    | some taskId =>
      simp only [sharedSubagentSlot, slotKeys, slotOf, bind_some, map_some,
        toList_some, cons_append, nil_append, forall_mem_cons]
      generalize (state.liveSlots .subagentTool).get? toolId = tool
      generalize (state.liveSlots .subagentTask).get? taskId = task
      cases tool with
      | none => simp
      | some tool =>
        cases task with
        | none => simp
        | some task =>
          by_cases h : tool = task
          · simp [h]
          · simp only [ne_eq, reduceCtorEq, not_false_eq_true, and_false, and_self, if_false,
              some_inj, h, if_true, not_mem_nil]
            refine iff_of_false (by rintro ⟨⟩) ?_
            rintro ⟨-, rfl, rfl, -⟩
            exact h rfl

variable {event : AgentTurnEvent} {target : AgentTurnSnapshotTarget}

lemma slotKeys_ne_nil (h : Snapshot event target) : slotKeys target ≠ [] := by
  cases h with
  | subagent hrun hids =>
    intro hnil
    simp only [slotKeys, subagentIds, append_eq_nil_iff, toList_eq_nil_iff, map_eq_none_iff] at hnil
    exact hids hnil
  | backgroundTask | subagentUsage | contextUsage => exact cons_ne_nil _ _

lemma snapshot_withIds (rows) (h : Snapshot event (.subagentIds ids)) :
    Snapshot (withAgentTurnSubagentIds event (resolveAmong rows ids).ids)
      (.subagentIds (resolveAmong rows ids).ids) ∧
      agentTurnSubagentAlias (withAgentTurnSubagentIds event (resolveAmong rows ids).ids) =
        match (resolveAmong rows ids).ids.toolId, (resolveAmong rows ids).ids.taskId with
        | some toolId, some taskId => some (toolId, taskId)
        | _, _ => none := by
  cases h with
  | @subagent event hrun hids =>
    obtain ⟨htool, htask⟩ := (resolves_among rows (subagentIds event)).keeps_ids
    generalize (resolveAmong rows (subagentIds event)).ids = ids at htool htask
    obtain ⟨toolId, taskId⟩ := ids
    have htool' : event.toolId.or toolId = toolId := by
      rcases htool with h | h
      · rw [show event.toolId = none from h, none_or]
      · rw [show toolId = event.toolId from h, Option.or_self]
    have htask' : event.taskId.or taskId = taskId := by
      rcases htask with h | h
      · rw [show event.taskId = none from h, none_or]
      · rw [show taskId = event.taskId from h, Option.or_self]
    simp only [withAgentTurnSubagentIds, htool', htask']
    refine ⟨.subagent hrun ?_, rfl⟩
    rintro ⟨h₁, h₂⟩
    dsimp only at h₁ h₂
    rw [h₁, or_none] at htool'
    rw [h₂, or_none] at htask'
    exact hids ⟨htool', htask'⟩

variable {rows : List AgentTurnEvent}

/-- The target that a placed event renews is its own, and its ids resolve to
themselves. -/
lemma placement_target (h : (placement rows event).2 = some target) :
    Snapshot (placement rows event).1 target ∧ slotKeys target ≠ [] ∧
      ∀ ids, target = .subagentIds ids → Resolves (linkCount rows) ids ⟨ids, true⟩ := by
  unfold placement at h ⊢
  cases hev : agentTurnEventSupersession event with
  | barrier => rw [hev] at h; cases h
  | content => rw [hev] at h; cases h
  | snapshot own =>
    rw [hev] at h
    have hsnap := supersession_eq_snapshot_iff.1 hev
    cases own with
    | identity scope id =>
      cases h
      exact ⟨hsnap, cons_ne_nil _ _, nofun⟩
    | subagentIds ids =>
      dsimp only at h ⊢
      split_ifs at h ⊢ with hc
      cases h
      have hpl := (snapshot_withIds rows hsnap).1
      refine ⟨hpl, slotKeys_ne_nil hpl, fun ids' hids => ?_⟩
      rw [← AgentTurnSnapshotTarget.subagentIds.inj hids]
      exact (resolves_among rows ids).again hc

variable {row : AgentTurnEvent}

lemma resolveAmong_own (h : Snapshot row (.subagentIds ids))
    (hids : (resolveAmong rows ids).ids = ids) : (resolveAmong (rows ++ [row]) ids).ids = ids := by
  cases h with
  | @subagent event hrun _ =>
    have hnew := resolves_among (rows ++ [.subagent event]) (subagentIds event)
    by_cases hpair : agentTurnSubagentAlias (.subagent event) = none
    · have hcnt : linkCount (rows ++ [.subagent event]) = linkCount rows := by
        funext toolId taskId
        rw [linkCount_append, linkCount_singleton, hpair, if_neg (by simp), Nat.add_zero]
      rw [hcnt] at hnew
      rw [hnew.functional (resolves_among rows _), hids]
    · obtain ⟨toolId, taskId, htool, htask⟩ :
          ∃ toolId taskId, event.toolId = some toolId ∧ event.taskId = some taskId := by
        unfold agentTurnSubagentAlias at hpair
        cases htool : event.toolId <;> cases htask : event.taskId <;> simp_all
      rw [subagentIds, htool, htask] at hnew ⊢
      exact hnew.ids_of_pair

theorem settles_placement (rows) (event) : Settles rows (placement rows event).1 := by
  intro ids hids
  have hpl := supersession_eq_snapshot_iff.1 hids
  refine resolveAmong_own hpl ?_
  cases htarg : (placement rows event).2 with
  | some target =>
    obtain ⟨hsnap, -, hself⟩ := placement_target htarg
    obtain rfl : target = .subagentIds ids := by
      rw [← supersession_eq_snapshot_iff, hids] at hsnap
      exact (AgentTurnEventSupersession.snapshot.inj hsnap).symm
    rw [(resolves_among rows ids).functional (hself ids rfl)]
  | none =>
    -- an event that renews nothing stands as it came, in conflict if it is a tick
    unfold placement at hids htarg
    cases hev : agentTurnEventSupersession event with
    | barrier => rw [hev] at hids; dsimp only at hids; rw [hev] at hids; cases hids
    | content => rw [hev] at hids; dsimp only at hids; rw [hev] at hids; cases hids
    | snapshot own =>
      rw [hev] at hids htarg
      cases own with
      | identity => cases htarg
      | subagentIds own =>
        dsimp only at hids htarg
        split_ifs at hids htarg with hc
        rw [hev] at hids
        obtain rfl := AgentTurnSnapshotTarget.subagentIds.inj (AgentTurnEventSupersession.snapshot.inj hids)
        exact (resolves_among rows own).ids_of_not_canonical (Bool.eq_false_iff.2 hc)

variable {live : List (AgentTurnEvent × ℕ)}

/-- **`place` looks back over the rows.**  It gives the event the ids that the
rows give it, and a slot that every key of the target is held for. -/
theorem placeEvent_spec {state : IndexState} (h : Indexes state live) (event) :
    (state.placeEvent event).event = (placement (live.map Prod.fst) event).1 ∧
      ∀ slot, (state.placeEvent event).liveSlot = some slot ↔
        ∃ target, (placement (live.map Prod.fst) event).2 = some target ∧
          ∀ key ∈ slotKeys target, state.slotOf key = some slot := by
  simp only [IndexState.placeEvent, placement]
  cases hev : agentTurnEventSupersession event with
  | barrier => exact ⟨rfl, fun slot => by simp⟩
  | content => exact ⟨rfl, fun slot => by simp⟩
  | snapshot own =>
    cases own with
    | identity scope id =>
      refine ⟨rfl, fun slot => ?_⟩
      simp only [some_inj, exists_eq_left', slotKeys, mem_singleton, forall_eq]
      rfl
    | subagentIds ids =>
      have hres : resolveAgentTurnSubagentIds state.aliases ids = resolveAmong (live.map Prod.fst) ids :=
        resolve_congr h.links (representsLinks_aliasesOf _) ids
      dsimp only
      rw [hres]
      by_cases hc : (resolveAmong (live.map Prod.fst) ids).canonical
      · rw [if_neg (not_not.2 hc), if_pos hc]
        refine ⟨rfl, fun slot => ?_⟩
        have hne := slotKeys_ne_nil (snapshot_withIds (live.map Prod.fst) (supersession_eq_snapshot_iff.1 hev)).1
        simp only [some_inj, exists_eq_left']
        rw [IndexState.sharedSubagentSlot_eq_some_iff]
        exact and_iff_right hne
      · rw [if_pos hc, if_neg hc]
        exact ⟨rfl, fun slot => by simp⟩

variable {state : RetentionState}

lemma tailIsCoalescibleText_eq (h : state.Consistent policy) :
    state.tailIsCoalescibleText = state.liveEvents.getLast?.any isAgentTurnCoalescibleTextEvent := by
  rw [liveEvents, getLast?_reduceOption h.lastLive]
  rfl

variable {before after : List (Option AgentTurnEvent)} {previous : AgentTurnEvent}

lemma supersedeInPlace_split {placed} {merged}
    (hslot : placed.liveSlot = some before.length) (htail : state.tailIsCoalescibleText = false)
    (hsl : state.slots = before ++ some previous :: after)
    (hmrg : mergeSupersededAgentTurnEvent previous placed.event = some merged) :
    state.supersedeInPlace policy placed = some (state.replaceSlot policy before.length previous merged) := by
  unfold supersedeInPlace
  rw [hslot]
  dsimp only
  rw [if_neg (Bool.eq_false_iff.1 htail), slotAt_split hsl]
  dsimp only
  rw [hmrg]
  rfl

lemma liveEvents_replaceSlot (hsl : state.slots = before ++ some previous :: after)
    (event) :
    (state.replaceSlot policy before.length previous event).liveEvents =
      before.reduceOption ++ event :: after.reduceOption := by
  show (state.slots.set before.length (some event)).reduceOption = _
  rw [hsl, set_split, reduceOption_split]

lemma touches_of_snapshot (h : Snapshot row target) : touches target row := by
  have hrow := supersession_eq_snapshot_iff.2 h
  obtain ⟨key, hkey⟩ := exists_mem_of_ne_nil _ (slotKeys_ne_nil h)
  refine any_eq_true.2 ⟨key, hkey, ?_⟩
  rw [touchesKey, hrow]
  exact decide_eq_true hkey

lemma claimedKeys_of_target {before after}
    (htarg : (placement rows event).2 = some target) (hrows : rows = before ++ row :: after)
    (hrow : Snapshot row target) :
    claimedKeys before row = slotKeys target := by
  have hsuper := supersession_eq_snapshot_iff.2 hrow
  have hfree : inConflict before row = false := by
    rw [inConflict, hsuper]
    cases target with
    | identity => rfl
    | subagentIds ids =>
      dsimp only
      have hself := (placement_target htarg).2.2 ids rfl
      have hmono : Resolves (linkCount (before ++ [row])) ids ⟨ids, true⟩ :=
        hself.mono fun toolId taskId hlink => by
          rw [linkCount_ne_zero_iff] at hlink ⊢
          obtain ⟨y, hy, hyalias⟩ := hlink
          refine ⟨y, ?_, hyalias⟩
          rw [hrows]
          simp only [mem_append, mem_cons, not_mem_nil, or_false] at hy ⊢
          tauto
      rw [(resolves_among _ ids).functional hmono]
      rfl
  rw [claimedKeys, hfree, if_neg Bool.false_ne_true, snapshotKeys, hsuper]

variable {index : IndexState}

/-- **The row that a snapshot renews is the one in the slot that the index holds.** -/
theorem supersedes_iff_liveSlot (hknows : Indexes index live)
    (hsort : live.Pairwise fun a b => a.2 < b.2) {rows'} :
    ((placement (live.map Prod.fst) event).2.bind fun target =>
        supersedeRow (live.map Prod.fst) target (placement (live.map Prod.fst) event).1) = some rows' ↔
      (live.map Prod.fst).getLast?.any isAgentTurnCoalescibleTextEvent = false ∧
        ∃ before previous slot after merged, live = before ++ (previous, slot) :: after ∧
          (index.placeEvent event).liveSlot = some slot ∧
          mergeSupersededAgentTurnEvent previous (index.placeEvent event).event = some merged ∧
          rows' = before.map Prod.fst ++ merged :: after.map Prod.fst := by
  obtain ⟨hpl, hslot⟩ := placeEvent_spec hknows event
  rw [hpl]
  constructor
  · intro hsome
    obtain ⟨target, htarg, hrow⟩ := bind_eq_some_iff.1 hsome
    rw [supersedeRow] at hrow
    split_ifs at hrow with htail
    refine ⟨Bool.eq_false_iff.2 htail, ?_⟩
    obtain ⟨before, previous, after, merged, hspl, -, haft, hmrg, rfl⟩ := replaceLast_eq_some_iff.1 hrow
    have hprev := ((mergeSuperseded_eq_some_iff.1 hmrg).snapshot (placement_target htarg).1).1
    have hclaim := claimedKeys_of_target htarg hspl hprev
    obtain ⟨entries, rest, hents, rfl, hrest⟩ := map_eq_append_iff.1 hspl
    obtain ⟨⟨row, slot⟩, entries', rfl, rfl, rfl⟩ := map_eq_cons_iff.1 hrest
    -- the row was never touched again, so all its keys are held for it
    have hheld : ∀ key ∈ slotKeys target, index.slotOf key = some slot := by
      rw [← hclaim]
      refine hknows.complete entries row slot entries' hents fun key hkey x hx => ?_
      rw [hclaim] at hkey
      exact touches_eq_false_iff.1 (haft x.1 (mem_map_of_mem hx)) key hkey
    exact ⟨entries, row, slot, entries', merged, hents, (hslot slot).2 ⟨target, htarg, hheld⟩, hmrg, rfl⟩
  · rintro ⟨htail, before, previous, slot, after, merged, hlive, hheld, hmrg, rfl⟩
    obtain ⟨target, htarg, hkeys⟩ := (hslot slot).1 hheld
    have hprev := ((mergeSuperseded_eq_some_iff.1 hmrg).snapshot (placement_target htarg).1).1
    -- every key of the target is untouched after the slot
    have haft : ∀ x ∈ after.map Prod.fst, touches target x = false := by
      intro x hx
      obtain ⟨entry, hent, rfl⟩ := mem_map.1 hx
      rw [touches_eq_false_iff]
      intro key hkey
      obtain ⟨before', row, after', hspl, -, huntouch⟩ := hknows.sound key slot (hkeys key hkey)
      obtain ⟨-, -, rfl⟩ := split_unique hsort hspl hlive
      exact huntouch entry hent
    have hrows : live.map Prod.fst = before.map Prod.fst ++ previous :: after.map Prod.fst := by
      rw [hlive, map_append, map_cons]
    rw [htarg, bind_some, supersedeRow, htail, if_neg Bool.false_ne_true]
    generalize (placement (live.map Prod.fst) event).1 = placed at hmrg ⊢
    rw [hrows, replaceLast_split (touches_of_snapshot hprev) haft, hmrg]
    rfl

/-- **Renewing in place is renewing the last row that touches.** -/
theorem supersedeInPlace_liveEvents (h : state.Consistent policy)
    (hidx : state.snapshots = .live index) (hknows : Indexes index (numbered state.slots))
    (event) :
    (state.supersedeInPlace policy (state.snapshots.place event)).map liveEvents =
      (placement state.liveEvents event).2.bind fun target =>
        supersedeRow state.liveEvents target (placement state.liveEvents event).1 := by
  have hrows : (numbered state.slots).map Prod.fst = state.liveEvents := map_fst_numbered _
  have hplc : state.snapshots.place event = index.placeEvent event := by rw [hidx]; rfl
  refine Option.ext fun rows' => ?_
  rw [hplc, ← hrows, supersedes_iff_liveSlot hknows (pairwise_numbered _), hrows, ← tailIsCoalescibleText_eq h]
  constructor
  · intro hsome
    obtain ⟨superseded, hsups, rfl⟩ := map_eq_some_iff.1 hsome
    obtain ⟨before, previous, after, merged, hlive, htail, hsl, hmrg, rfl⟩ :=
      supersedeInPlace_eq_some hsups
    have hnum := numbered_split before after previous
    rw [← hsl] at hnum
    refine ⟨htail, _, previous, before.length, _, merged, hnum, hlive, hmrg, ?_⟩
    rw [liveEvents_replaceSlot hsl, map_fst_numbered, map_fst_numberedFrom]
  · rintro ⟨htail, entries, previous, slot, entries', merged, hnum, hheld, hmrg, rfl⟩
    obtain ⟨front, back, hsl, rfl, hfr, hback⟩ := slots_of_numbered hnum
    rw [supersedeInPlace_split hheld htail hsl hmrg, map_some, liveEvents_replaceSlot hsl, hfr, hback]

/-- `coalesceText` joins text that may grow into text that may grow, of one
child thread. -/
structure JoinsText (policy : AgentTurnEventRetentionPolicy) : Prop where
  last : ∀ {last next fused}, policy.coalesceText last next = some fused → isAgentTurnCoalescibleTextEvent last
  fused : ∀ {last next fused}, policy.coalesceText last next = some fused → isAgentTurnCoalescibleTextEvent fused
  agentThreadId? : ∀ {last next fused}, policy.coalesceText last next = some fused →
    fused.agentThreadId? = last.agentThreadId?

lemma content_of_coalescible (h : isAgentTurnCoalescibleTextEvent event) :
    rowShape event = (.content, none) ∧ event.isUserMessage = false := by
  cases event with
  | assistantText | reasoning | subagentEvent => exact ⟨rfl, rfl⟩
  | _ => cases h

lemma JoinsText.keepsTail (h : JoinsText policy) : KeepsTail policy where
  isUserMessage hfu := by
    rw [(content_of_coalescible (h.fused hfu)).2, (content_of_coalescible (h.last hfu)).2]
  agentThreadId? hfu := h.agentThreadId? hfu

lemma joinsText_turnEventRetentionPolicy : JoinsText turnEventRetentionPolicy where
  last h := by
    obtain ⟨channel, lastText, -, -, rfl, -⟩ := coalesceAgentTextEvents_eq_some_iff.1 h
    exact isAgentTurnCoalescibleTextEvent_channelEvent channel lastText
  fused h := by
    obtain ⟨channel, -, -, fusedText, -, -, rfl, -⟩ := coalesceAgentTextEvents_eq_some_iff.1 h
    exact isAgentTurnCoalescibleTextEvent_channelEvent channel fusedText
  agentThreadId? h := keepsTail_turnEventRetentionPolicy.agentThreadId? h

/-- The index of a state knows its live rows. -/
def Indexed (state : RetentionState) : Prop :=
  ∃ index, state.snapshots = .live index ∧ Indexes index (numbered state.slots)

lemma liveEvents_append (state : RetentionState) (event : AgentTurnEvent) :
    (({ state with slots := state.slots ++ [some event] } : RetentionState).adoptSlot policy event
      state.slots.length).liveEvents = state.liveEvents ++ [event] := by
  rw [liveEvents, slots_adoptSlot, reduceOption_append]
  rfl

/-- **An event on the window is the event on the live rows.** -/
theorem admitEvent_liveEvents (h : state.Consistent policy) (hidx : Indexed state)
    (event : AgentTurnEvent) :
    (state.admitEvent policy event).liveEvents = liveRow policy state.liveEvents event := by
  obtain ⟨index, hindex, hknows⟩ := hidx
  unfold liveRow
  rw [← h.coalesceIntoTail event]
  unfold RetentionState.admitEvent
  cases hcoal : state.coalesceIntoTail policy event with
  | some coalesced => rfl
  | none =>
    rw [placeRow, ← supersedeInPlace_liveEvents h hindex hknows event, RetentionState.placeEvent]
    cases state.supersedeInPlace policy (state.snapshots.place event) with
    | some superseded => rfl
    | none =>
      have hpl := (placeEvent_spec hknows event).1
      rw [map_fst_numbered] at hpl
      have hplc : (state.snapshots.place event).event =
          (placement state.liveEvents event).1 := by rw [hindex]; exact hpl
      dsimp only [map_none, getD_none]
      rw [liveEvents_append, hplc]

variable {state' : RetentionState}

/-- **Admitting an event keeps the index right.** -/
theorem indexed_admission (hstep : Admission policy state event state') (hjoins : JoinsText policy)
    (hidx : Indexed state) : Indexed state' := by
  obtain ⟨index, hindex, hknows⟩ := hidx
  have hrows : (numbered state.slots).map Prod.fst = state.liveEvents := map_fst_numbered _
  cases hstep with
  | fused hsl hfu =>
    refine ⟨index, hindex, hknows.congr ?_⟩
    show _ = (numbered (state.slots.set _ _)).map _
    rw [hsl, set_split, numbered_split, numbered_split]
    simp [(content_of_coalescible (hjoins.last hfu)).1, (content_of_coalescible (hjoins.fused hfu)).1]
  | superseded hcoal hslot htail hsl hmrg =>
    refine ⟨index, hindex, hknows.congr ?_⟩
    show _ = (numbered (state.slots.set _ _)).map _
    obtain ⟨hpl, hheld⟩ := placeEvent_spec hknows event
    rw [hindex] at hslot hmrg
    obtain ⟨target, htarg, -⟩ := (hheld _).1 hslot
    have hsupersedes := mergeSuperseded_eq_some_iff.1 hmrg
    have hnext : Snapshot (index.placeEvent event).event target := by
      rw [hpl]; exact (placement_target htarg).1
    obtain ⟨hprev, hrow⟩ := hsupersedes.snapshot hnext
    have hshape : rowShape _ = rowShape _ := Prod.ext
      ((supersession_eq_snapshot_iff.2 hprev).trans (supersession_eq_snapshot_iff.2 hrow).symm)
      hsupersedes.alias.symm
    rw [hsl, set_split, numbered_split, numbered_split]
    simp only [map_append, map_cons, Prod.map_apply, hshape]
  | appended hcoal hplc =>
    have hpl := (placeEvent_spec hknows event).1
    have hev : (state.snapshots.place event).event =
        (placement ((numbered state.slots).map Prod.fst) event).1 := by rw [hindex]; exact hpl
    refine ⟨index.adoptEvent (state.snapshots.place event).event state.slots.length, ?_, ?_⟩
    · rw [snapshots_adoptSlot]
      rw [hindex]; rfl
    · rw [slots_adoptSlot]
      rw [numbered_split, numberedFrom, hev]
      exact hknows.adopt (settles_placement _ event) _

/-- Every row with whether it came into a conflict. -/
def markConflicts : List AgentTurnEvent → List AgentTurnEvent → List (AgentTurnEvent × Bool)
  | _, [] => []
  | before, row :: rows => (row, inConflict before row) :: markConflicts (before ++ [row]) rows

/-- The next eviction leaves no surviving row out of a conflict. -/
def EvictionKeepsConflicts (rows : List AgentTurnEvent) : Prop :=
  markConflicts [] (evictOne AgentTurnEvent.isUserMessage rows) =
    evictOne (fun row => row.1.isUserMessage) (markConflicts [] rows)

instance (rows : List AgentTurnEvent) : Decidable (EvictionKeepsConflicts rows) :=
  inferInstanceAs (Decidable (_ = _))

/-- All evictions from `rows` down to the limits keep the conflicts. -/
def EvictionsKeepConflicts (policy : AgentTurnEventRetentionPolicy) :
    ℕ → List AgentTurnEvent → Prop
  | 0, _ => True
  | fuel + 1, rows => overLimits policy rows → EvictionKeepsConflicts rows ∧
      EvictionsKeepConflicts policy fuel (evictOne AgentTurnEvent.isUserMessage rows)

instance (fuel : ℕ) (rows : List AgentTurnEvent) : Decidable (EvictionsKeepConflicts policy fuel rows) := by
  induction fuel generalizing rows with
  | zero => exact isTrue trivial
  | succ fuel ih => exact inferInstanceAs (Decidable (_ → _ ∧ _))

lemma markConflicts_append (before rows rows') :
    markConflicts before (rows ++ rows') = markConflicts before rows ++ markConflicts (before ++ rows) rows' := by
  induction rows generalizing before with
  | nil => rw [append_nil]; rfl
  | cons row rows ih =>
    rw [cons_append, markConflicts, ih, append_assoc]
    rfl

lemma map_fst_markConflicts (before rows) : (markConflicts before rows).map Prod.fst = rows := by
  induction rows generalizing before with
  | nil => rfl
  | cons row rows ih => rw [markConflicts, map_cons, ih]

lemma EvictionKeepsConflicts.kept {before after}
    (h : EvictionKeepsConflicts (before ++ event :: after))
    (hpre : ∀ row ∈ before, row.isUserMessage)
    (hev : event.isUserMessage → after = []) :
    ∀ front row back, after = front ++ row :: back →
      inConflict (before ++ front) row = inConflict (before ++ event :: front) row := by
  rintro front row back rfl
  have huser : event.isUserMessage = false := by
    by_contra hc
    exact absurd (hev (Bool.not_eq_false _ ▸ hc)) (by simp)
  unfold EvictionKeepsConflicts at h
  rw [evictOne_of_first hpre huser, markConflicts_append [] before,
    markConflicts_append [] before, nil_append, markConflicts] at h
  have hpinned : ∀ row ∈ markConflicts [] before, row.1.isUserMessage := fun row hrow =>
    hpre row.1 (map_fst_markConflicts [] before ▸ mem_map_of_mem hrow)
  rw [evictOne_of_first hpinned huser, append_cancel_left_eq, markConflicts_append, markConflicts_append] at h
  have hlen : (markConflicts before front).length = (markConflicts (before ++ [event]) front).length := by
    rw [← length_map Prod.fst, ← length_map Prod.fst, map_fst_markConflicts, map_fst_markConflicts]
  have hhead := (append_inj h hlen).2
  have hflag := (Prod.mk.inj (cons_eq_cons.1 hhead).1).2
  rwa [append_assoc, singleton_append] at hflag

/-- **An eviction that clears no conflict keeps the index right.** -/
theorem indexed_eviction (hstep : Eviction policy state state') (hidx : Indexed state)
    (hkept : EvictionKeepsConflicts state.liveEvents) :
    Indexed state' := by
  obtain ⟨index, hindex, hknows⟩ := hidx
  obtain ⟨before, event, after, hsl, hpre, huser, hslots', hsnaps⟩ := hstep.split
  rw [hindex] at hsnaps
  refine ⟨index.evictEvent event before.length, hsnaps, ?_⟩
  rw [hslots', numbered_rdropWhile, numbered_split_none]
  have hnum := numbered_split before after event
  rw [← hsl] at hnum
  rw [hnum] at hknows
  have hpinned : ∀ row ∈ before.reduceOption, row.isUserMessage := pinned_of_mem_reduceOption hpre
  refine hknows.evict (hnum ▸ pairwise_numbered _) (fun x hx => hpinned x.1 ?_)
    fun front row back hspl hconflict => ?_
  · rw [← map_fst_numbered]
    exact mem_map_of_mem hx
  · rw [liveEvents_split hsl] at hkept
    have haft : event.isUserMessage → after.reduceOption = [] := fun h => by
      rw [huser h]; rfl
    rw [map_fst_numberedFrom] at hspl
    rw [map_fst_numbered] at hconflict ⊢
    rw [hkept.kept hpinned haft front row back hspl]
    exact hconflict

lemma indexed_enforceLimits (h : state.Consistent policy) (hidx : Indexed state)
    (hkept : EvictionsKeepConflicts policy state.liveEvents.length state.liveEvents) :
    Indexed (state.enforceLimits policy) := by
  obtain ⟨hsteps, -⟩ := evictions_enforceLimits h
  generalize state.enforceLimits policy = last at hsteps
  induction hsteps using Relation.ReflTransGen.head_induction_on with
  | refl => exact hidx
  | @head state next hstep _ ih =>
    have hover := hstep.over
    rw [exceedsLimits_eq h.tallied] at hover
    have hlive := hstep.liveEvents
    cases hlen : state.liveEvents.length with
    | zero =>
      rw [length_eq_zero_iff.1 hlen, overLimits_nil] at hover
      cases hover
    | succ n =>
      rw [hlen, EvictionsKeepConflicts] at hkept
      obtain ⟨hone, hrest⟩ := hkept hover
      refine ih (hstep.consistent h) (indexed_eviction hstep hidx hone) ?_
      rw [hlive, length_evictOne, hlen]
      exact hrest

theorem indexed_adopted (hstl : Settled rows) : Indexed (adopted policy rows .create) := by
  obtain ⟨-, hsl, -, hsnaps⟩ := adopted_spec policy rows .create
  suffices ∃ index, rows.zipIdx.foldl
      (fun (index : AgentTurnSnapshotIndex) slot => index.adopt slot.1 slot.2) .create = .live index ∧
        Indexes index rows.zipIdx by
    obtain ⟨index, hidx, hknows⟩ := this
    exact ⟨index, hsnaps.trans hidx, by rw [hsl, numbered_map_some]; exact hknows⟩
  clear hsl hsnaps
  induction rows using List.reverseRecOn with
  | nil => exact ⟨.create, rfl, indexes_create⟩
  | append_singleton rows row ih =>
    obtain ⟨index, hidx, hknows⟩ := ih fun before row' after hspl =>
      hstl before row' (after ++ [row]) (by rw [hspl]; simp)
    rw [zipIdx_append, foldl_append, hidx]
    refine ⟨index.adoptEvent row (0 + rows.length), rfl, ?_⟩
    have hrows : rows.zipIdx.map Prod.fst = rows := by
      rw [← numbered_map_some, map_fst_numbered, List.reduceOption, filterMap_map, Function.id_comp, filterMap_some]
    refine hknows.adopt ?_ (0 + rows.length)
    rw [hrows]
    exact hstl rows row [] rfl

lemma settled_of_indexed (h : Indexed state) : Settled state.liveEvents := by
  obtain ⟨index, -, hknows⟩ := h
  have := hknows.settled
  rwa [map_fst_numbered] at this

end CodevoEditor.AgentEvents
