/-
# What the snapshot index knows

`Indexes state live` ties an index to the live rows and their slots. Its alias counts are the
links of the rows.
-/

import CodevoEditor.AgentEvents.Rows
import CodevoEditor.Window.Slots

namespace CodevoEditor.AgentEvents

open Js Window List Option OrderedMap

/-- What a row is a snapshot of. -/
def snapshotKeys (row : AgentTurnEvent) : List (LiveSlotKind × JsString) :=
  match agentTurnEventSupersession row with
  | .snapshot target => slotKeys target
  | _ => []

/-- The row is a running tick of a subagent whose ids are in conflict with the
links of `rows` and its own. -/
def inConflict (rows : List AgentTurnEvent) (row : AgentTurnEvent) : Bool :=
  match agentTurnEventSupersession row with
  | .snapshot (.subagentIds ids) => !(resolveAmong (rows ++ [row]) ids).canonical
  | _ => false

/-- The keys a row takes when it comes after `rows`. -/
def claimedKeys (rows : List AgentTurnEvent) (row : AgentTurnEvent) : List (LiveSlotKind × JsString) :=
  if inConflict rows row then [] else snapshotKeys row

variable {ids : AgentTurnSubagentIds} {toolId : JsString}

lemma mem_slotKeys_tool_iff :
    (LiveSlotKind.subagentTool, toolId) ∈ slotKeys (.subagentIds ids) ↔ ids.toolId = some toolId := by
  simp [slotKeys, map_eq_some_iff]

variable {taskId : JsString}

lemma mem_slotKeys_task_iff :
    (LiveSlotKind.subagentTask, taskId) ∈ slotKeys (.subagentIds ids) ↔ ids.taskId = some taskId := by
  simp [slotKeys, map_eq_some_iff]

lemma not_mem_slotKeys_keyed {scope} {id} : (LiveSlotKind.keyed scope, id) ∉ slotKeys (.subagentIds ids) := by
  simp [slotKeys]

variable {row : AgentTurnEvent}

lemma touches_eq_false_iff {target} :
    touches target row = false ↔ ∀ key ∈ slotKeys target, touchesKey key row = false := by
  simp [touches]

variable {key : LiveSlotKind × JsString}

lemma touchesKey_of_mem_snapshotKeys (h : key ∈ snapshotKeys row) : touchesKey key row := by
  unfold snapshotKeys at h
  unfold touchesKey
  cases hrow : agentTurnEventSupersession row with
  | snapshot target => rw [hrow] at h; exact decide_eq_true h
  | barrier targets => rw [hrow] at h; cases h
  | content => rw [hrow] at h; cases h

variable {rows : List AgentTurnEvent}

lemma mem_claimedKeys_iff : key ∈ claimedKeys rows row ↔ key ∈ snapshotKeys row ∧ inConflict rows row = false := by
  unfold claimedKeys
  cases inConflict rows row <;> simp

lemma touchesKey_of_link (h : agentTurnSubagentAlias row = some (toolId, taskId)) :
    touchesKey (.subagentTool, toolId) row ∧ touchesKey (.subagentTask, taskId) row := by
  cases row with
  | subagent event =>
    obtain ⟨htool, htask⟩ : event.toolId = some toolId ∧ event.taskId = some taskId := by
      unfold agentTurnSubagentAlias at h
      cases htool : event.toolId <;> cases htask : event.taskId <;> simp_all
    rw [touchesKey, touchesKey, agentTurnEventSupersession, subagentSupersession_eq]
    by_cases hs : event.status ≠ .running
    · rw [if_pos hs]
      simp [AgentTurnBarrierTarget.reaches, mem_slotKeys_tool_iff, mem_slotKeys_task_iff, subagentIds, htool, htask]
    · rw [if_neg hs, if_neg (by simp [htool])]
      simp [mem_slotKeys_tool_iff, mem_slotKeys_task_iff, subagentIds, htool, htask]
  | _ => cases h

lemma content_of_isUserMessage (h : row.isUserMessage) :
    agentTurnEventSupersession row = .content ∧ agentTurnSubagentAlias row = none := by
  cases row with
  | userMessage => exact ⟨rfl, rfl⟩
  | _ => cases h

/-! ### What an operation does to a slot of the index -/

variable {state : IndexState}

namespace IndexState

/-- The slot that is held under a key. -/
def slotOf (state : IndexState) (key : LiveSlotKind × JsString) : Option ℕ :=
  (state.liveSlots key.1).get? key.2

lemma slotOf_updateLiveSlots (state : IndexState) (kind : LiveSlotKind)
    (update : OrderedMap JsString ℕ → OrderedMap JsString ℕ) (key) :
    (state.updateLiveSlots kind update).slotOf key =
      if key.1 = kind then (update (state.liveSlots kind)).get? key.2 else state.slotOf key := by
  unfold slotOf updateLiveSlots
  by_cases h : key.1 = kind
  · subst h; simp
  · simp [h]

lemma slotOf_delete (state : IndexState) (kind : LiveSlotKind) (id : Option JsString)
    (key) :
    (state.updateId kind id fun id live => live.delete id).slotOf key =
      if id.map (Prod.mk kind) = some key then none else state.slotOf key := by
  obtain ⟨kind', id'⟩ := key
  cases id with
  | none => rfl
  | some id =>
    rw [updateId, slotOf_updateLiveSlots]
    by_cases hkind : kind' = kind
    · subst hkind
      by_cases hid : id' = id
      · subst hid; simp
      · simp [hid, Ne.symm hid, slotOf]
    · simp [hkind, Ne.symm hkind]

lemma slotOf_set (state : IndexState) (kind : LiveSlotKind) (id : Option JsString) (slot : ℕ)
    (key) :
    (state.updateId kind id fun id live => live.set id slot).slotOf key =
      if id.map (Prod.mk kind) = some key then some slot else state.slotOf key := by
  obtain ⟨kind', id'⟩ := key
  cases id with
  | none => rfl
  | some id =>
    rw [updateId, slotOf_updateLiveSlots]
    by_cases hkind : kind' = kind
    · subst hkind
      by_cases hid : id' = id
      · subst hid; simp
      · simp [hid, Ne.symm hid, slotOf]
    · simp [hkind, Ne.symm hkind]

lemma mem_slotKeys_subagentIds :
    key ∈ slotKeys (.subagentIds ids) ↔
      ids.toolId.map (Prod.mk LiveSlotKind.subagentTool) = some key ∨
        ids.taskId.map (Prod.mk LiveSlotKind.subagentTask) = some key := by
  rw [slotKeys, mem_append, mem_toList, mem_toList]

lemma ite_ite_eq_ite_or {β : Type*} {p q : Prop} [Decidable p] [Decidable q] (a b : β) :
    (if p then a else if q then a else b) = if q ∨ p then a else b := by
  by_cases hp : p
  · rw [if_pos hp, if_pos (.inr hp)]
  · exact (if_neg hp).trans (if_congr (or_iff_left hp).symm rfl rfl)

lemma slotOf_releaseSubagentIds (state : IndexState) (ids)
    (key) :
    (state.releaseSubagentIds ids).slotOf key =
      if key ∈ slotKeys (.subagentIds ids) then none else state.slotOf key := by
  rw [releaseSubagentIds, slotOf_delete, slotOf_delete, ite_ite_eq_ite_or]
  exact if_congr mem_slotKeys_subagentIds.symm rfl rfl

lemma slotOf_releaseLiveSlots (state : IndexState) (kind : LiveSlotKind)
    (key) :
    (state.releaseLiveSlots kind).slotOf key = if key.1 = kind then none else state.slotOf key := by
  rw [releaseLiveSlots, slotOf_updateLiveSlots, get?_empty]

lemma slotOf_releaseScope (state : IndexState) (scope)
    (key) :
    (state.releaseScope scope).slotOf key =
      if scope.covers key.1 then none else state.slotOf key := by
  obtain ⟨kind, id⟩ := key
  cases scope with
  | keyed scope =>
    rw [releaseScope, slotOf_releaseLiveSlots]
    cases kind <;> simp [AgentTurnSnapshotScope.covers, eq_comm]
  | subagent =>
    rw [releaseScope, slotOf_releaseLiveSlots, slotOf_releaseLiveSlots]
    cases kind <;> simp [AgentTurnSnapshotScope.covers]

/-- The keys that a barrier target empties: those it names, and what the links
add to its ids. -/
def releases (aliases : AgentTurnSubagentAliasIndex) (key : LiveSlotKind × JsString) :
    AgentTurnBarrierTarget → Bool
  | .target (.subagentIds ids) =>
      key ∈ slotKeys (.subagentIds (resolveAgentTurnSubagentIds aliases ids).ids)
  | barrier => barrier.reaches key

lemma slotOf_releaseTarget (state : IndexState) (barrier)
    (key) :
    (state.releaseTarget barrier).slotOf key =
      if releases state.aliases key barrier then none else state.slotOf key := by
  cases barrier with
  | scope scope => exact slotOf_releaseScope state scope key
  | target target =>
    cases target with
    | identity scope id =>
      rw [releaseTarget, slotOf_updateLiveSlots, get?_delete]
      obtain ⟨kind, id'⟩ := key
      by_cases hkind : kind = .keyed scope
      · subst hkind
        by_cases hid : id' = id <;>
          simp [releases, AgentTurnBarrierTarget.reaches, slotKeys, slotOf, hid]
      · simp [releases, AgentTurnBarrierTarget.reaches, slotKeys, hkind]
    | subagentIds ids =>
      rw [releaseTarget]
      split_ifs with hemp hkey hkey
      · -- nothing is held under a tool or a task
        have hnone : ∀ kind id, (kind = .subagentTool ∨ kind = .subagentTask) → state.slotOf (kind, id) = none := by
          rintro kind id (rfl | rfl)
          · exact size_eq_zero_iff.1 hemp.1 id
          · exact size_eq_zero_iff.1 hemp.2 id
        obtain ⟨kind, id⟩ := key
        refine hnone kind id ?_
        have hmem := decide_eq_true_iff.1 hkey
        cases kind with
        | keyed scope => exact absurd hmem not_mem_slotKeys_keyed
        | subagentTool => exact .inl rfl
        | subagentTask => exact .inr rfl
      · rfl
      · rw [slotOf_releaseSubagentIds, if_pos (decide_eq_true_iff.1 hkey)]
      · rw [slotOf_releaseSubagentIds, if_neg fun hc => hkey (decide_eq_true_iff.2 hc)]

lemma aliases_updateId (state : IndexState) (kind : LiveSlotKind) (id : Option JsString)
    (update : JsString → OrderedMap JsString ℕ → OrderedMap JsString ℕ) :
    (state.updateId kind id update).aliases = state.aliases := by
  cases id <;> rfl

lemma aliases_releaseSubagentIds (state : IndexState) (ids) :
    (state.releaseSubagentIds ids).aliases = state.aliases := by
  simp only [releaseSubagentIds, aliases_updateId]

lemma aliases_releaseTarget (state : IndexState) (barrier) :
    (state.releaseTarget barrier).aliases = state.aliases := by
  cases barrier with
  | scope scope => cases scope <;> rfl
  | target target =>
    cases target with
    | identity => rfl
    | subagentIds ids =>
      rw [releaseTarget]
      split_ifs
      · rfl
      · exact aliases_releaseSubagentIds _ _

lemma releaseTargets_spec (state : IndexState) (targets) :
    (state.releaseTargets targets).aliases = state.aliases ∧
      ∀ key, (state.releaseTargets targets).slotOf key =
        if targets.any (releases state.aliases key) then none else state.slotOf key := by
  induction targets generalizing state with
  | nil => exact ⟨rfl, fun _ => rfl⟩
  | cons barrier targets ih =>
    obtain ⟨haliases, hsl⟩ := ih (state.releaseTarget barrier)
    rw [aliases_releaseTarget] at haliases hsl
    refine ⟨haliases, fun key => ?_⟩
    refine (hsl key).trans ?_
    rw [slotOf_releaseTarget, any_cons]
    cases releases state.aliases key barrier <;> cases targets.any (releases state.aliases key) <;>
      rfl

lemma claimTarget_spec (state : IndexState) (target) (slot : ℕ) :
    (state.claimTarget target slot).aliases = state.aliases ∧
      ∀ key, (state.claimTarget target slot).slotOf key =
        match target with
        | .identity _ _ => if key ∈ slotKeys target then some slot else state.slotOf key
        | .subagentIds ids =>
            if key ∈ slotKeys (.subagentIds (resolveAgentTurnSubagentIds state.aliases ids).ids) then
              if (resolveAgentTurnSubagentIds state.aliases ids).canonical then some slot else none
            else state.slotOf key := by
  cases target with
  | identity scope id =>
    refine ⟨rfl, fun key => ?_⟩
    obtain ⟨kind, id'⟩ := key
    rw [claimTarget, slotOf_updateLiveSlots, get?_set]
    by_cases hkind : kind = .keyed scope
    · subst hkind
      by_cases hid : id' = id <;> simp [slotKeys, slotOf, hid]
    · simp [slotKeys, hkind]
  | subagentIds ids =>
    simp only [claimTarget]
    by_cases hc : (resolveAgentTurnSubagentIds state.aliases ids).canonical
    · rw [if_neg (not_not.2 hc)]
      refine ⟨by rw [aliases_updateId, aliases_updateId], fun key => ?_⟩
      rw [slotOf_set, slotOf_set, if_pos hc, ite_ite_eq_ite_or]
      exact if_congr mem_slotKeys_subagentIds.symm rfl rfl
    · rw [if_pos hc]
      refine ⟨aliases_releaseSubagentIds _ _, fun key => ?_⟩
      rw [slotOf_releaseSubagentIds, if_neg hc]

lemma slotOf_countAlias (state : IndexState) (event : AgentTurnEvent) (delta : ℤ)
    (key) : (state.countAlias event delta).slotOf key = state.slotOf key := by
  unfold countAlias
  cases agentTurnSubagentAlias event <;> rfl

variable {rows : List AgentTurnEvent}

lemma representsLinks_countAlias
    (h : RepresentsLinks state.aliases (linkCount rows)) (event) :
    RepresentsLinks (state.countAlias event 1).aliases (linkCount (rows ++ [event])) := by
  have hinsert := representsLinks_insert h event fun toolId taskId =>
    linkCount_append rows [event] toolId taskId
  unfold countAlias
  cases hlink : agentTurnSubagentAlias event with
  | none => rw [hlink] at hinsert; exact hinsert
  | some link => rw [hlink] at hinsert; exact hinsert

/-- The partner that a link of `rows` gives a key which `event` touches. -/
def LinkedBy (rows : List AgentTurnEvent) (event : AgentTurnEvent) (key : LiveSlotKind × JsString) : Prop :=
  ∃ toolId taskId, linkCount rows toolId taskId ≠ 0 ∧
    ((key = (.subagentTask, taskId) ∧ touchesKey (.subagentTool, toolId) event) ∨
      (key = (.subagentTool, toolId) ∧ touchesKey (.subagentTask, taskId) event))

variable {event : AgentTurnEvent}

/-- A barrier empties what it names, and beyond that only the partner of an id
that it names. -/
lemma releases_cases {aliases}
    (h : RepresentsLinks aliases (linkCount rows)) {targets}
    (hev : agentTurnEventSupersession event = .barrier targets) (key) :
    (touchesKey key event → targets.any (releases aliases key)) ∧
      (targets.any (releases aliases key) → touchesKey key event ∨ LinkedBy rows event key) := by
  have htouch : ∀ key, touchesKey key event = targets.any (·.reaches key) := fun key => by
    rw [touchesKey, hev]
  constructor
  · intro ht
    rw [htouch] at ht
    obtain ⟨barrier, hmem, hrch⟩ := any_eq_true.1 ht
    refine any_eq_true.2 ⟨barrier, hmem, ?_⟩
    cases barrier with
    | scope scope => exact hrch
    | target target =>
      cases target with
      | identity => exact hrch
      | subagentIds ids =>
        obtain ⟨htool, htask⟩ := (resolves h ids).keeps_ids
        have hkey := mem_slotKeys_subagentIds.1 (of_decide_eq_true hrch)
        refine decide_eq_true (mem_slotKeys_subagentIds.2 ?_)
        rcases hkey with hkey | hkey
        · rcases htool with hnone | htool
          · rw [hnone] at hkey; cases hkey
          · exact .inl (htool ▸ hkey)
        · rcases htask with hnone | htask
          · rw [hnone] at hkey; cases hkey
          · exact .inr (htask ▸ hkey)
  · intro hr
    obtain ⟨barrier, hmem, hrelease⟩ := any_eq_true.1 hr
    have hnamed : barrier.reaches key → touchesKey key event := fun hrch => by
      rw [htouch]; exact any_eq_true.2 ⟨barrier, hmem, hrch⟩
    cases barrier with
    | scope scope => exact .inl (hnamed hrelease)
    | target target =>
      cases target with
      | identity => exact .inl (hnamed hrelease)
      | subagentIds ids =>
        have hkey := of_decide_eq_true hrelease
        by_cases hids : (resolveAgentTurnSubagentIds aliases ids).ids = ids
        · rw [hids] at hkey
          exact .inl (hnamed (decide_eq_true hkey))
        · -- the links have added the partner
          have hrch : ∀ key, key ∈ slotKeys (.subagentIds ids) → touchesKey key event :=
            fun key hkey => by
              rw [htouch]; exact any_eq_true.2 ⟨_, hmem, decide_eq_true hkey⟩
          obtain ⟨toolId, taskId, hpair, hlink, -, rfl | rfl⟩ := (resolves h ids).link_of_ne hids
          · have hown := hrch _ (mem_slotKeys_tool_iff.2 rfl)
            rw [hpair] at hkey
            rcases mem_slotKeys_subagentIds.1 hkey with hkey | hkey
            · exact .inl (some.inj hkey ▸ hown)
            · exact .inr ⟨toolId, taskId, hlink, .inl ⟨(some.inj hkey).symm, hown⟩⟩
          · have hown := hrch _ (mem_slotKeys_task_iff.2 rfl)
            rw [hpair] at hkey
            rcases mem_slotKeys_subagentIds.1 hkey with hkey | hkey
            · exact .inr ⟨toolId, taskId, hlink, .inr ⟨(some.inj hkey).symm, hown⟩⟩
            · exact .inl (some.inj hkey ▸ hown)

/-- **What adopting an event does to a key**: one that the event touches is held for it if it claims
it; another stays, but for links. -/
theorem adoptEvent_spec
    (h : RepresentsLinks state.aliases (linkCount rows))
    (hsettles : Settles rows event) (slot : ℕ) :
    RepresentsLinks (state.adoptEvent event slot).aliases (linkCount (rows ++ [event])) ∧
      ∀ key, (touchesKey key event → (state.adoptEvent event slot).slotOf key =
          if key ∈ claimedKeys rows event then some slot else none) ∧
        (touchesKey key event = false →
          (state.adoptEvent event slot).slotOf key = state.slotOf key ∨
            LinkedBy (rows ++ [event]) event key ∧ (state.adoptEvent event slot).slotOf key = none) := by
  have hlinks := representsLinks_countAlias h event
  have hcnt := state.slotOf_countAlias event 1
  simp only [adoptEvent]
  generalize state.countAlias event 1 = counted at hlinks hcnt
  cases hev : agentTurnEventSupersession event with
  | content =>
    refine ⟨hlinks, fun key => ⟨fun ht => ?_, fun _ => .inl (hcnt key)⟩⟩
    rw [touchesKey, hev] at ht; cases ht
  | barrier targets =>
    obtain ⟨haliases, hsl⟩ := counted.releaseTargets_spec targets
    have hclaim : ∀ key, key ∉ claimedKeys rows event := fun key hk => by
      have := (mem_claimedKeys_iff.1 hk).1
      rw [snapshotKeys, hev] at this
      cases this
    refine ⟨haliases ▸ hlinks, fun key => ?_⟩
    obtain ⟨hrelease, hback⟩ := releases_cases hlinks hev key
    rw [hsl, if_neg (hclaim key), hcnt]
    refine ⟨fun ht => if_pos (hrelease ht), fun ht => ?_⟩
    by_cases hr : targets.any (releases counted.aliases key)
    · rcases hback hr with ht' | hlinked
      · rw [ht] at ht'; cases ht'
      · exact .inr ⟨hlinked, if_pos hr⟩
    · exact .inl (if_neg hr)
  | snapshot target =>
    obtain ⟨haliases, hsl⟩ := counted.claimTarget_spec target slot
    refine ⟨haliases ▸ hlinks, fun key => ?_⟩
    have htouch : touchesKey key event = decide (key ∈ slotKeys target) := by
      rw [touchesKey, hev]
    have hclaimed : key ∈ claimedKeys rows event ↔ key ∈ slotKeys target ∧ inConflict rows event = false := by
      rw [mem_claimedKeys_iff, snapshotKeys, hev]
    rw [hsl, htouch]
    rw [inConflict, hev] at hclaimed
    cases target with
    | identity scope id =>
      refine ⟨fun ht => ?_, fun ht => .inl ?_⟩
      · have hkey := of_decide_eq_true ht
        rw [if_pos (hclaimed.2 ⟨hkey, rfl⟩)]
        exact if_pos hkey
      · rw [← hcnt]
        exact if_neg (of_decide_eq_false ht)
    | subagentIds ids =>
      -- a settled row asks for its own ids
      have hres : resolveAgentTurnSubagentIds counted.aliases ids = resolveAmong (rows ++ [event]) ids :=
        resolve_congr hlinks (representsLinks_aliasesOf _) ids
      dsimp only
      rw [hres, hsettles ids hev]
      refine ⟨fun ht => ?_, fun ht => .inl ?_⟩
      · have hkey := of_decide_eq_true ht
        rw [if_pos hkey]
        refine if_congr ?_ rfl rfl
        rw [hclaimed, Bool.not_eq_false']
        exact (and_iff_right hkey).symm
      · rw [if_neg (of_decide_eq_false ht), hcnt]

lemma get?_releaseIfOwned (live) (id id' : JsString) (slot : ℕ) :
    (releaseIfOwned live id slot).get? id' =
      if id' = id ∧ live.get? id' = some slot then none else live.get? id' := by
  unfold releaseIfOwned
  by_cases hown : live.get? id = some slot
  · rw [if_pos hown, get?_delete]
    refine if_congr ⟨fun hid => ⟨hid, hid ▸ hown⟩, And.left⟩ rfl rfl
  · have hnot : ¬ (id' = id ∧ live.get? id' = some slot) := fun hc => hown (hc.1 ▸ hc.2)
    rw [if_neg hown, if_neg hnot]

lemma slotOf_releaseIfOwned (state : IndexState) (kind : LiveSlotKind) (id : Option JsString)
    (slot : ℕ) (key) :
    (state.updateId kind id fun id live => releaseIfOwned live id slot).slotOf key =
      if id.map (Prod.mk kind) = some key ∧ state.slotOf key = some slot then none
      else state.slotOf key := by
  obtain ⟨kind', id'⟩ := key
  cases id with
  | none => rfl
  | some id =>
    rw [updateId, slotOf_updateLiveSlots]
    by_cases hkind : kind' = kind
    · subst hkind
      rw [if_pos rfl, get?_releaseIfOwned]
      refine if_congr (and_congr_left' ?_) rfl rfl
      simp [eq_comm]
    · rw [if_neg hkind, if_neg fun hc => hkind (Prod.mk.inj (some.inj hc.1)).1.symm]

/-- **What an eviction does to a key.**  A key is let go when it was held for
the slot of the evicted snapshot. -/
theorem slotOf_evictEvent (state : IndexState) (event : AgentTurnEvent) (slot : ℕ)
    (key) :
    (state.evictEvent event slot).slotOf key =
      if key ∈ snapshotKeys event ∧ state.slotOf key = some slot then none
      else state.slotOf key := by
  simp only [evictEvent]
  have hkeys : snapshotKeys event = match agentTurnEventSupersession event with
    | .snapshot target => slotKeys target
    | _ => [] := rfl
  cases hev : agentTurnEventSupersession event with
  | content =>
    rw [hev] at hkeys
    rw [hkeys, if_neg fun hc => not_mem_nil hc.1]
    exact slotOf_countAlias state event (-1) key
  | barrier targets =>
    rw [hev] at hkeys
    rw [hkeys, if_neg fun hc => not_mem_nil hc.1]
    exact slotOf_countAlias state event (-1) key
  | snapshot target =>
    rw [hev] at hkeys
    rw [hkeys]
    cases target with
    | identity scope id =>
      dsimp only
      have := slotOf_releaseIfOwned (state.countAlias event (-1)) (.keyed scope) (some id) slot key
      rw [slotOf_countAlias] at this
      refine this.trans (if_congr (and_congr_left' ?_) rfl rfl)
      rw [slotKeys, mem_singleton, map_some, some_inj, eq_comm]
    | subagentIds ids =>
      rw [slotOf_releaseIfOwned, slotOf_releaseIfOwned, slotOf_countAlias]
      by_cases htool : ids.toolId.map (Prod.mk LiveSlotKind.subagentTool) = some key ∧ state.slotOf key = some slot
      · rw [if_pos htool, ite_self, if_pos ⟨mem_slotKeys_subagentIds.2 (.inl htool.1), htool.2⟩]
      · rw [if_neg htool]
        refine if_congr ?_ rfl rfl
        rw [mem_slotKeys_subagentIds]
        exact ⟨fun hc => ⟨.inr hc.1, hc.2⟩, fun hc => hc.1.elim (fun h => absurd ⟨h, hc.2⟩ htool) fun h => ⟨h, hc.2⟩⟩

lemma aliases_evictEvent (state : IndexState) (event : AgentTurnEvent) (slot : ℕ) :
    (state.evictEvent event slot).aliases = (state.countAlias event (-1)).aliases := by
  simp only [evictEvent]
  cases agentTurnEventSupersession event with
  | snapshot target =>
    cases target with
    | identity => rfl
    | subagentIds ids => rw [aliases_updateId, aliases_updateId]
  | barrier | content => rfl

lemma representsLinks_evictEvent {before after}
    (h : RepresentsLinks state.aliases (linkCount (before ++ event :: after))) (slot : ℕ) :
    RepresentsLinks (state.evictEvent event slot).aliases (linkCount (before ++ after)) := by
  have hcnt : ∀ toolId taskId, linkCount (before ++ event :: after) toolId taskId =
      linkCount (before ++ after) toolId taskId + linkCount [event] toolId taskId := by
    intro toolId taskId
    rw [linkCount_append, linkCount_append, ← singleton_append, linkCount_append]
    omega
  simp only [linkCount_singleton] at hcnt
  rw [aliases_evictEvent, countAlias]
  cases hlink : agentTurnSubagentAlias event with
  | none =>
    rw [hlink] at hcnt
    obtain hsame : linkCount (before ++ event :: after) = linkCount (before ++ after) := by
      funext toolId taskId
      rw [hcnt, if_neg (by simp), Nat.add_zero]
    exact hsame ▸ h
  | some link =>
    rw [hlink] at hcnt
    refine h.retain ?_ fun toolId taskId hne => ?_
    · rw [hcnt, if_pos rfl]; push_cast; omega
    · rw [hcnt, if_neg fun hc => hne (some.inj hc).symm, Nat.add_zero]

end IndexState

/-- What an index knows of the live rows and their slots. -/
structure Indexes (state : IndexState) (live : List (AgentTurnEvent × ℕ)) : Prop where
  links : RepresentsLinks state.aliases (linkCount (live.map Prod.fst))
  settled : Settled (live.map Prod.fst)
  sound : ∀ key slot, state.slotOf key = some slot → ∃ before row after,
    live = before ++ (row, slot) :: after ∧ key ∈ claimedKeys (before.map Prod.fst) row ∧
      ∀ x ∈ after, touchesKey key x.1 = false
  complete : ∀ before row slot after, live = before ++ (row, slot) :: after →
    (∀ key ∈ claimedKeys (before.map Prod.fst) row, ∀ x ∈ after, touchesKey key x.1 = false) →
    ∀ key ∈ claimedKeys (before.map Prod.fst) row, state.slotOf key = some slot

lemma indexes_create : Indexes .create [] where
  links := representsLinks_create
  settled before row after h := by simp at h
  sound key slot h := by cases h
  complete before row slot after h := by simp at h

lemma resolves_of_claimed (hsettles : Settles rows row)
    (hrow : agentTurnEventSupersession row = .snapshot (.subagentIds ids))
    (hfree : inConflict rows row = false) :
    Resolves (linkCount (rows ++ [row])) ids ⟨ids, true⟩ := by
  have h := resolves_among (rows ++ [row]) ids
  rw [inConflict, hrow, Bool.not_eq_false'] at hfree
  have heq : resolveAmong (rows ++ [row]) ids = ⟨ids, true⟩ :=
    AgentTurnSubagentResolution.mk.injEq .. ▸ ⟨hsettles ids hrow, hfree⟩
  rwa [heq] at h

/-- A key that a row claims as a subagent, and a link about it among the rows up
to that one: the row has both ids. -/
lemma claims_partner
    (hsettles : Settles rows row) (hlink : linkCount (rows ++ [row]) toolId taskId ≠ 0)
    (hkey : (.subagentTool, toolId) ∈ claimedKeys rows row ∨ (.subagentTask, taskId) ∈ claimedKeys rows row) :
    (.subagentTool, toolId) ∈ claimedKeys rows row ∧ (.subagentTask, taskId) ∈ claimedKeys rows row := by
  simp only [mem_claimedKeys_iff] at hkey ⊢
  have hfree : inConflict rows row = false := hkey.elim And.right And.right
  have hkey : (.subagentTool, toolId) ∈ snapshotKeys row ∨
      (.subagentTask, taskId) ∈ snapshotKeys row := hkey.imp And.left And.left
  unfold snapshotKeys at hkey ⊢
  cases hrow : agentTurnEventSupersession row with
  | content => rw [hrow] at hkey; simp at hkey
  | barrier targets => rw [hrow] at hkey; simp at hkey
  | snapshot target =>
    rw [hrow] at hkey
    cases target with
    | identity scope id => simp [slotKeys] at hkey
    | subagentIds ids =>
      rw [mem_slotKeys_tool_iff, mem_slotKeys_task_iff] at hkey ⊢
      have := (resolves_of_claimed hsettles hrow hfree).ids_of_link hlink hkey
      rw [this]
      exact ⟨⟨rfl, hfree⟩, ⟨rfl, hfree⟩⟩

theorem Indexes.adopt {live} (h : Indexes state live)
    {event} (hsettles : Settles (live.map Prod.fst) event) (slot : ℕ) :
    Indexes (state.adoptEvent event slot) (live ++ [(event, slot)]) := by
  obtain ⟨hlinks, hkeys⟩ := IndexState.adoptEvent_spec h.links hsettles slot
  have hmap : (live ++ [(event, slot)]).map Prod.fst = live.map Prod.fst ++ [event] := by simp
  refine ⟨hmap ▸ hlinks, ?_, fun key slot' hslot => ?_, fun before row slot' after hspl huntouch key hkey => ?_⟩
  · rw [hmap]
    intro before row after hspl
    rcases split_concat hspl with ⟨after', -, hspl⟩ | ⟨-, rfl, rfl⟩
    · exact h.settled before row after' hspl
    · exact hsettles
  · cases ht : touchesKey key event with
    | true =>
      rw [(hkeys key).1 ht] at hslot
      split_ifs at hslot with hclaim
      cases hslot
      exact ⟨live, event, [], rfl, hclaim, fun x hx => absurd hx not_mem_nil⟩
    | false =>
      rcases (hkeys key).2 ht with heq | ⟨-, hnone⟩
      · rw [heq] at hslot
        obtain ⟨before, row, after, rfl, hclaim, haft⟩ := h.sound key slot' hslot
        refine ⟨before, row, after ++ [(event, slot)], by simp, hclaim, ?_⟩
        exact forall_mem_append.2 ⟨haft, fun x hx => mem_singleton.1 hx ▸ ht⟩
      · rw [hnone] at hslot; cases hslot
  · rcases split_concat hspl with ⟨after', rfl, hlive⟩ | ⟨rfl, rfl, hlast⟩
    · have huntouch' : ∀ key ∈ claimedKeys (before.map Prod.fst) row,
          touchesKey key event = false ∧ ∀ x ∈ after', touchesKey key x.1 = false := fun key hkey =>
        have := forall_mem_append.1 (huntouch key hkey)
        ⟨this.2 _ (mem_singleton.2 rfl), this.1⟩
      have hold := h.complete before row slot' after' hlive (fun key hkey => (huntouch' key hkey).2) key hkey
      rcases (hkeys key).2 (huntouch' key hkey).1 with heq | ⟨⟨toolId, taskId, hlink, hpartner⟩, -⟩
      · rw [heq]; exact hold
      · -- a link that reaches the key would stand at the row or before it
        have hhere : linkCount (before.map Prod.fst ++ [row]) toolId taskId ≠ 0 := by
          rw [linkCount_ne_zero_iff] at hlink ⊢
          obtain ⟨y, hy, hyalias⟩ := hlink
          obtain ⟨hytool, hytask⟩ := touchesKey_of_link hyalias
          have hyafter : y ≠ event ∧ y ∉ after'.map Prod.fst := by
            rcases hpartner with ⟨rfl, -⟩ | ⟨rfl, -⟩
            · obtain ⟨hev, haft⟩ := huntouch' _ hkey
              refine ⟨fun hc => ?_, fun hc => ?_⟩
              · rw [hc, hev] at hytask; cases hytask
              · obtain ⟨x, hx, rfl⟩ := mem_map.1 hc
                rw [haft x hx] at hytask; cases hytask
            · obtain ⟨hev, haft⟩ := huntouch' _ hkey
              refine ⟨fun hc => ?_, fun hc => ?_⟩
              · rw [hc, hev] at hytool; cases hytool
              · obtain ⟨x, hx, rfl⟩ := mem_map.1 hc
                rw [haft x hx] at hytool; cases hytool
          refine ⟨y, ?_, hyalias⟩
          rw [hlive] at hy
          simp only [map_append, map_cons, mem_append, mem_cons, not_mem_nil, or_false] at hy ⊢
          rcases hy with (hy | rfl | hy) | rfl
          · exact .inl hy
          · exact .inr rfl
          · exact absurd hy hyafter.2
          · exact absurd rfl hyafter.1
        have hsettledRow : Settles (before.map Prod.fst) row :=
          h.settled _ row (after'.map Prod.fst) (by rw [hlive]; simp)
        rcases hpartner with ⟨rfl, htouch⟩ | ⟨rfl, htouch⟩
        · have := (huntouch' _ (claims_partner hsettledRow hhere (.inr hkey)).1).1
          rw [this] at htouch; cases htouch
        · have := (huntouch' _ (claims_partner hsettledRow hhere (.inl hkey)).2).1
          rw [this] at htouch; cases htouch
    · cases hlast
      rw [(hkeys key).1 (touchesKey_of_mem_snapshotKeys (mem_claimedKeys_iff.1 hkey).1), if_pos hkey]

section Evict

variable {before front : List AgentTurnEvent} {event row : AgentTurnEvent}

section

variable (hsettles : Settles (before ++ event :: front) row)
include hsettles

lemma resolves_of_evicted (hrow : agentTurnEventSupersession row = .snapshot (.subagentIds ids))
    (hfree : inConflict (before ++ event :: front) row = false) :
    resolveAmong (before ++ front ++ [row]) ids = ⟨ids, true⟩ := by
  refine (resolves_among _ ids).functional ((resolves_of_claimed hsettles hrow hfree).mono ?_)
  intro toolId taskId hlink
  rw [linkCount_ne_zero_iff] at hlink ⊢
  obtain ⟨y, hy, hyalias⟩ := hlink
  refine ⟨y, ?_, hyalias⟩
  simp only [mem_append, mem_cons, not_mem_nil, or_false] at hy ⊢
  tauto

lemma inConflict_evicted
    (hkept : inConflict (before ++ event :: front) row → inConflict (before ++ front) row) :
    inConflict (before ++ front) row = inConflict (before ++ event :: front) row := by
  cases hold : inConflict (before ++ event :: front) row with
  | true => exact hkept hold
  | false =>
    rw [inConflict]
    cases hrow : agentTurnEventSupersession row with
    | snapshot target =>
      cases target with
      | identity => rfl
      | subagentIds ids => dsimp only; rw [resolves_of_evicted hsettles hrow hold]; rfl
    | barrier | content => rfl

lemma settles_evicted
    (hkept : inConflict (before ++ event :: front) row → inConflict (before ++ front) row) :
    Settles (before ++ front) row := by
  intro ids hrow
  cases hold : inConflict (before ++ event :: front) row with
  | true =>
    refine (resolves_among _ ids).ids_of_not_canonical ?_
    have hnew := hkept hold
    rw [inConflict, hrow] at hnew
    rwa [Bool.not_eq_true'] at hnew
  | false => rw [resolves_of_evicted hsettles hrow hold]

end

end Evict

theorem Indexes.evict {before after} {event} {slot}
    (h : Indexes state (before ++ (event, slot) :: after))
    (hsort : (before ++ (event, slot) :: after).Pairwise fun a b => a.2 < b.2)
    (hpre : ∀ x ∈ before, x.1.isUserMessage)
    (hkept : ∀ front row back, after.map Prod.fst = front ++ row :: back →
      inConflict (before.map Prod.fst ++ event :: front) row → inConflict (before.map Prod.fst ++ front) row) :
    Indexes (state.evictEvent event slot) (before ++ after) := by
  have hmap : (before ++ (event, slot) :: after).map Prod.fst =
      before.map Prod.fst ++ event :: after.map Prod.fst := by simp
  -- the rows after the evicted one keep their claims
  have hrow : ∀ front row slot' back, after = front ++ (row, slot') :: back →
      claimedKeys ((before ++ front).map Prod.fst) row =
        claimedKeys ((before ++ (event, slot) :: front).map Prod.fst) row := by
    intro front row slot' back haft
    have hsettles : Settles (before.map Prod.fst ++ event :: front.map Prod.fst) row :=
      h.settled _ row (back.map Prod.fst) (by rw [hmap, haft]; simp)
    rw [claimedKeys, claimedKeys, map_append, map_append, map_cons,
      inConflict_evicted hsettles (hkept (front.map Prod.fst) row (back.map Prod.fst) (by rw [haft]; simp))]
  have huser : ∀ {row slot' key rows}, (row, slot') ∈ before → key ∉ claimedKeys rows row := by
    intro row slot' key rows hmem hkey
    have hsnap := (mem_claimedKeys_iff.1 hkey).1
    rw [snapshotKeys, (content_of_isUserMessage (hpre _ hmem)).1] at hsnap
    cases hsnap
  refine ⟨?_, ?_, fun key slot' hslot => ?_, fun front row slot' back hspl huntouch key hkey => ?_⟩
  · have hlinks := h.links
    rw [hmap] at hlinks
    rw [map_append]
    exact IndexState.representsLinks_evictEvent hlinks slot
  · rw [map_append]
    intro front row back hspl
    rcases split_append hspl with ⟨front, rfl, haft⟩ | hmem
    · have hsettles : Settles (before.map Prod.fst ++ event :: front) row :=
        h.settled _ row back (by rw [hmap, haft]; simp)
      exact settles_evicted hsettles (hkept front row back haft)
    · obtain ⟨x, hx, rfl⟩ := mem_map.1 hmem
      intro ids hids
      rw [(content_of_isUserMessage (hpre x hx)).1] at hids
      cases hids
  · rw [IndexState.slotOf_evictEvent] at hslot
    split_ifs at hslot with hheld
    obtain ⟨front, row, back, hspl, hclaim, hback⟩ := h.sound key slot' hslot
    rcases split_append hspl with ⟨front, rfl, haft⟩ | hmem
    · cases front with
      | nil =>
        -- the evicted event itself held the key
        obtain ⟨hent, rfl⟩ := cons_eq_cons.1 haft
        cases hent
        exact absurd ⟨(mem_claimedKeys_iff.1 hclaim).1, hslot⟩ hheld
      | cons entry front =>
        obtain ⟨rfl, htail⟩ := cons_eq_cons.1 haft
        refine ⟨before ++ front, row, back, by rw [htail]; simp, ?_, hback⟩
        rw [hrow front row slot' back htail]
        exact hclaim
    · exact absurd hclaim (huser hmem)
  · rcases split_append hspl with ⟨front, rfl, haft⟩ | hmem
    · rw [hrow front row slot' back haft] at hkey huntouch
      have hold := h.complete (before ++ (event, slot) :: front) row slot' back
        (by rw [haft]; simp) huntouch key hkey
      rw [IndexState.slotOf_evictEvent, hold, if_neg]
      rintro ⟨-, hslot⟩
      -- slot numbers increase
      rw [haft, pairwise_append] at hsort
      have hlt := (pairwise_cons.1 hsort.2.1).1 (row, slot') (by simp)
      rw [some.inj hslot] at hlt
      exact absurd hlt (lt_irrefl slot)
    · exact absurd hkey (huser hmem)

/-- What the index sees of a row. -/
def rowShape (row : AgentTurnEvent) : AgentTurnEventSupersession × Option (JsString × JsString) :=
  (agentTurnEventSupersession row, agentTurnSubagentAlias row)

section Shape

variable {rows rows' : List AgentTurnEvent} {row row' : AgentTurnEvent}

section

variable (h : rows.map rowShape = rows'.map rowShape)
include h

lemma aliasesOf_congr : aliasesOf rows = aliasesOf rows' := by
  have hfold : ∀ rows : List AgentTurnEvent, aliasesOf rows = ((rows.map rowShape).filterMap (·.2)).foldl
      (fun aliases link => retainAgentTurnSubagentAlias aliases link 1)
      createAgentTurnSubagentAliasIndex := fun rows => by
    unfold aliasesOf
    rw [filterMap_map, foldl_filterMap]
    refine foldl_ext _ _ _ fun aliases row _ => ?_
    dsimp only [Function.comp_apply, rowShape]
    cases agentTurnSubagentAlias row with
    | none => rfl
    | some link => rfl
  rw [hfold, hfold, h]

lemma linkCount_congr : linkCount rows = linkCount rows' := by
  have hcnt : ∀ (rows : List AgentTurnEvent) toolId taskId, linkCount rows toolId taskId =
      (rows.map rowShape).countP fun shape => shape.2 = some (toolId, taskId) :=
    fun rows toolId taskId => by rw [countP_map]; rfl
  funext toolId taskId
  rw [hcnt, hcnt, h]

lemma inConflict_congr (hrow : rowShape row = rowShape row') : inConflict rows row = inConflict rows' row' := by
  have haliases : aliasesOf (rows ++ [row]) = aliasesOf (rows' ++ [row']) := aliasesOf_congr (by simp [h, hrow])
  simp only [inConflict, resolveAmong, haliases, (Prod.mk.inj hrow).1]

lemma claimedKeys_congr (hrow : rowShape row = rowShape row') : claimedKeys rows row = claimedKeys rows' row' := by
  simp only [claimedKeys, snapshotKeys, inConflict_congr h hrow, (Prod.mk.inj hrow).1]

end

lemma touchesKey_congr (hrow : rowShape row = rowShape row') (key) : touchesKey key row = touchesKey key row' := by
  simp only [touchesKey, (Prod.mk.inj hrow).1]

lemma settles_congr (h : rows.map rowShape = rows'.map rowShape)
    (hrow : rowShape row = rowShape row') (hsettles : Settles rows row) : Settles rows' row' := by
  intro ids hids
  have haliases : aliasesOf (rows ++ [row]) = aliasesOf (rows' ++ [row']) := aliasesOf_congr (by simp [h, hrow])
  rw [resolveAmong, ← haliases]
  exact hsettles ids ((Prod.mk.inj hrow).1.trans hids)

lemma settled_congr (h : rows.map rowShape = rows'.map rowShape) (hstl : Settled rows) : Settled rows' := by
  rintro before row after rfl
  rw [map_append, map_cons] at h
  obtain ⟨before', rest, rfl, hpre, hrest⟩ := map_eq_append_iff.1 h
  obtain ⟨row', after', rfl, hrow, -⟩ := map_eq_cons_iff.1 hrest
  exact settles_congr hpre hrow (hstl before' row' after' rfl)

end Shape

theorem Indexes.congr {live live'} (h : Indexes state live)
    (hshape : live.map (Prod.map rowShape id) = live'.map (Prod.map rowShape id)) :
    Indexes state live' := by
  have hrows : ∀ {entries entries' : List (AgentTurnEvent × ℕ)},
      entries.map (Prod.map rowShape id) = entries'.map (Prod.map rowShape id) →
      (entries.map Prod.fst).map rowShape = (entries'.map Prod.fst).map rowShape := by
    intro entries entries' hents
    have := congrArg (List.map Prod.fst) hents
    simpa [List.map_map, Function.comp_def] using this
  have hspl : ∀ {entries entries' : List (AgentTurnEvent × ℕ)} {before row slot after},
      entries.map (Prod.map rowShape id) = entries'.map (Prod.map rowShape id) →
      entries' = before ++ (row, slot) :: after →
      ∃ before' row' after', entries = before' ++ (row', slot) :: after' ∧
        before'.map (Prod.map rowShape id) = before.map (Prod.map rowShape id) ∧
        rowShape row' = rowShape row ∧
        after'.map (Prod.map rowShape id) = after.map (Prod.map rowShape id) := by
    rintro entries entries' before row slot after hents rfl
    rw [map_append, map_cons] at hents
    obtain ⟨before', rest, rfl, hpre, hrest⟩ := map_eq_append_iff.1 hents
    obtain ⟨⟨row', slot'⟩, after', rfl, hrow, haft⟩ := map_eq_cons_iff.1 hrest
    obtain ⟨hshape, rfl⟩ := Prod.mk.inj hrow
    exact ⟨before', row', after', rfl, hpre, hshape, haft⟩
  have huntouch : ∀ {key} {entries entries' : List (AgentTurnEvent × ℕ)},
      entries.map (Prod.map rowShape id) = entries'.map (Prod.map rowShape id) →
      (∀ x ∈ entries, touchesKey key x.1 = false) → ∀ x ∈ entries', touchesKey key x.1 = false := by
    intro key entries entries' hents hall x hx
    have hmem : Prod.map rowShape id x ∈ entries.map (Prod.map rowShape id) := hents ▸ mem_map_of_mem hx
    obtain ⟨y, hy, hyx⟩ := mem_map.1 hmem
    rw [← touchesKey_congr (congrArg Prod.fst hyx) key]
    exact hall y hy
  refine ⟨linkCount_congr (hrows hshape) ▸ h.links, settled_congr (hrows hshape) h.settled,
    fun key slot hslot => ?_, fun before row slot after hlive haft key hkey => ?_⟩
  · obtain ⟨before, row, after, hlive, hclaim, haft⟩ := h.sound key slot hslot
    obtain ⟨before', row', after', hlive', hb, hr, ha⟩ := hspl hshape.symm hlive
    exact ⟨before', row', after', hlive', claimedKeys_congr (hrows hb) hr ▸ hclaim, huntouch ha.symm haft⟩
  · obtain ⟨before', row', after', hlive', hb, hr, ha⟩ := hspl hshape hlive
    rw [← claimedKeys_congr (hrows hb) hr] at hkey haft
    exact h.complete before' row' slot after' hlive' (fun key hkey => huntouch ha.symm (haft key hkey)) key hkey

end CodevoEditor.AgentEvents
