/-
# What the feed covers

Whatever the feed was asked for is handed out later, or still waits (`feed_covers`): work that
does not cover a turn leaves it waiting (`Waits.apply`).
-/

import CodevoEditor.RuntimeRequests.Feed

namespace CodevoEditor.RuntimeRequests

open Js List OrderedMap

namespace FeedState

variable {state : FeedState} {limits : FeedLimits}

variable (limit : ℕ)

lemma forgetThreads_frame (order) (state) :
    ∃ threads left, forgetThreads limit order state = { state with threads := threads, threadOrder := left } := by
  induction order generalizing state with
  | nil => exact ⟨_, _, rfl⟩
  | cons oldest order ih =>
    unfold forgetThreads
    split_ifs
    · exact ih _
    · exact ⟨_, _, rfl⟩

lemma remember_frame (state : FeedState) (key : ThreadKey) (workspaceId : String)
    (limits : FeedLimits) : ∃ threads order, state.remember key workspaceId limits =
      { state with threads := threads, threadOrder := order } := by
  unfold remember
  cases state.threads.get? key with
  | some known => exact ⟨_, state.threadOrder, rfl⟩
  | none => exact forgetThreads_frame _ _ _

lemma remember_waiting (state : FeedState) (key : ThreadKey) (workspaceId : String)
    (limits : FeedLimits) :
    (state.remember key workspaceId limits).dirty = state.dirty ∧
      (state.remember key workspaceId limits).hints = state.hints ∧
      (state.remember key workspaceId limits).resets = state.resets ∧
      (state.remember key workspaceId limits).resetAll = state.resetAll := by
  obtain ⟨threads, order, h⟩ := remember_frame state key workspaceId limits
  rw [h]
  exact ⟨rfl, rfl, rfl, rfl⟩

/-- **The known threads, oldest first**: a thread is in the order exactly when it is known. -/
def Ordered (state : FeedState) : Prop := state.threadOrder = state.threads.keys

lemma forgetThreads_ordered {order} {state}
    (hord : state.threadOrder = order) (h : state.Ordered) :
    (forgetThreads limit order state).Ordered ∧ (forgetThreads limit order state).threadOrder.length ≤ limit := by
  induction order generalizing state with
  | nil =>
    refine ⟨h, ?_⟩
    change state.threadOrder.length ≤ limit
    rw [hord]
    exact Nat.zero_le _
  | cons oldest order ih =>
    unfold forgetThreads
    split_ifs with hlimit
    · exact ih rfl (keys_delete_head (h.symm.trans hord)).symm
    · refine ⟨h, ?_⟩
      rw [hord]
      omega

lemma remember_ordered (h : state.Ordered) (hlen : state.threadOrder.length ≤ limits.threads)
    (key) (workspaceId : String) :
    (state.remember key workspaceId limits).Ordered ∧
      (state.remember key workspaceId limits).threadOrder.length ≤ limits.threads := by
  unfold remember
  cases hget : state.threads.get? key with
  | some known =>
    have hmem : key ∈ state.threads.keys := mem_keys_iff.2 (by rw [hget]; rfl)
    refine ⟨?_, hlen⟩
    exact h.trans (keys_set_of_has hmem _).symm
  | none =>
    have hnew : key ∉ state.threads.keys := get?_eq_none_iff.1 hget
    refine forgetThreads_ordered limits.threads rfl ?_
    change state.threadOrder ++ [key] = (state.threads.set key _).keys
    rw [keys_set_of_not_has hnew, h]

lemma map_key_placeReset (key) (workspaceId) (resets) :
    (placeReset key workspaceId resets).map ResetTarget.key = resets.map ResetTarget.key := by
  induction resets with
  | nil => rfl
  | cons queued resets ih =>
    unfold placeReset
    split_ifs
    · rfl
    · rw [map_cons, ih, map_cons]

lemma any_key_iff {resets : List ResetTarget} {key : ThreadKey} :
    (resets.any (·.key = key)) ↔ key ∈ resets.map ResetTarget.key := by
  rw [any_eq_true, mem_map]
  exact exists_congr fun target => and_congr_right fun _ => decide_eq_true_iff

theorem reset_cases (state : FeedState) (key : ThreadKey) (workspaceId : Option String)
    (limits : FeedLimits) :
    (∃ resets, key ∈ state.resets.map ResetTarget.key ∧
      resets.map ResetTarget.key = state.resets.map ResetTarget.key ∧
      state.reset key workspaceId limits = { state with resets := resets }) ∨
    state.reset key workspaceId limits = { state with resetAll := true } ∨
    ∃ target, target.key = key ∧ key ∉ state.resets.map ResetTarget.key ∧
      state.resets.length < limits.resets ∧
      state.reset key workspaceId limits = { state with resets := state.resets ++ [target] } := by
  unfold reset
  split_ifs with hqueued hfull
  · exact .inl ⟨_, any_key_iff.1 hqueued, map_key_placeReset _ _ _, rfl⟩
  · exact .inr (.inl rfl)
  · exact .inr (.inr ⟨_, rfl, fun hmem => hqueued (any_key_iff.2 hmem), by omega, rfl⟩)

lemma resetKnown_frame (state : FeedState) (key : ThreadKey) :
    ∃ resets, state.resetKnown key = { state with resets := resets } := by
  unfold resetKnown
  split_ifs <;> exact ⟨_, rfl⟩

lemma foldl_resetKnown_frame (keys : List ThreadKey) (state : FeedState) :
    ∃ resets, keys.foldl resetKnown state = { state with resets := resets } := by
  induction keys generalizing state with
  | nil => exact ⟨_, rfl⟩
  | cons key keys ih =>
    obtain ⟨resets, h⟩ := resetKnown_frame state key
    rw [foldl_cons, h]
    exact ih _

lemma foldl_resetKnown_resets {state : FeedState}
    (hnd : (state.resets.map ResetTarget.key).Nodup) (keys : List ThreadKey) :
    ((keys.foldl resetKnown state).resets.map ResetTarget.key).Nodup ∧
      (keys.foldl resetKnown state).resets.length ≤ state.resets.length + keys.length := by
  induction keys generalizing state with
  | nil => exact ⟨hnd, Nat.le_refl _⟩
  | cons key keys ih =>
    rw [foldl_cons, length_cons]
    by_cases hqueued : (state.resets.any (·.key = key))
    · have hkn : state.resetKnown key = state := if_pos hqueued
      obtain ⟨hrest, hlen⟩ := ih hnd
      rw [hkn]
      exact ⟨hrest, by omega⟩
    · obtain ⟨target, hkey, hkn⟩ : ∃ target : ResetTarget, target.key = key ∧
          state.resetKnown key = { state with resets := state.resets ++ [target] } :=
        ⟨⟨key, state.workspaceOf key⟩, rfl, if_neg hqueued⟩
      have hnew : (({ state with resets := state.resets ++ [target] } : FeedState).resets.map
          ResetTarget.key).Nodup := by
        rw [map_append]
        refine hnd.append (nodup_singleton _) fun other hmem hoth => ?_
        rw [map_singleton, mem_singleton, hkey] at hoth
        exact hqueued (any_key_iff.2 (hoth ▸ hmem))
      rw [hkn]
      obtain ⟨hrest, hlen⟩ := ih hnew
      refine ⟨hrest, hlen.trans ?_⟩
      rw [length_append, length_singleton]
      omega

/-- **A consistent feed.**  A turn waits exactly when there is a hint for it, and a thread is
in the order exactly when it is known. -/
structure Consistent (limits : FeedLimits) (state : FeedState) : Prop where
  dirty_eq : state.dirty = state.hints.keys
  hints_le : state.hints.size ≤ limits.turns
  ordered : state.Ordered
  threads_le : state.threadOrder.length ≤ limits.threads
  resets_nodup : (state.resets.map ResetTarget.key).Nodup

lemma Consistent.remember (h : state.Consistent limits) (key : ThreadKey) (workspaceId : String) :
    (state.remember key workspaceId limits).Consistent limits := by
  obtain ⟨hdrt, hhints, hresets, -⟩ := remember_waiting state key workspaceId limits
  obtain ⟨hord, hths⟩ := remember_ordered h.ordered h.threads_le key workspaceId
  refine ⟨?_, ?_, hord, hths, ?_⟩
  · rw [hdrt, hhints, h.dirty_eq]
  · rw [hhints]
    exact h.hints_le
  · rw [hresets]
    exact h.resets_nodup

lemma Consistent.reset (h : state.Consistent limits) (key : ThreadKey) (workspaceId : Option String) :
    (state.reset key workspaceId limits).Consistent limits := by
  rcases reset_cases state key workspaceId limits with
    ⟨resets, -, hkeys, hreset⟩ | hreset | ⟨target, htarg, hnew, -, hreset⟩
  · rw [hreset]
    exact ⟨h.dirty_eq, h.hints_le, h.ordered, h.threads_le, hkeys ▸ h.resets_nodup⟩
  · rw [hreset]
    exact ⟨h.dirty_eq, h.hints_le, h.ordered, h.threads_le, h.resets_nodup⟩
  · rw [hreset]
    refine ⟨h.dirty_eq, h.hints_le, h.ordered, h.threads_le, ?_⟩
    rw [map_append]
    refine h.resets_nodup.append (nodup_singleton _) fun other hmem hoth => ?_
    rw [map_singleton, mem_singleton, htarg] at hoth
    exact hnew (hoth ▸ hmem)

theorem queueTurn_cases (state : FeedState) (turn : TurnAuthority) (hint : Hint) (limits : FeedLimits) :
    (∃ hint', turn ∈ state.hints.keys ∧
      state.queueTurn turn hint limits = { state with hints := state.hints.set turn hint' }) ∨
    state.queueTurn turn hint limits = state.reset turn.thread hint.workspaceId limits ∨
    (turn ∉ state.hints.keys ∧ state.hints.size < limits.turns ∧ state.queueTurn turn hint limits =
      { state with hints := state.hints.set turn hint, dirty := state.dirty ++ [turn] }) := by
  unfold queueTurn
  cases hget : state.hints.get? turn with
  | some known => exact .inl ⟨_, mem_keys_iff.2 (by rw [hget]; rfl), rfl⟩
  | none =>
    split_ifs with hfull
    · exact .inr (.inl rfl)
    · exact .inr (.inr ⟨get?_eq_none_iff.1 hget, by omega, rfl⟩)

lemma Consistent.rememberNamed (h : state.Consistent limits) (key)
    (workspaceId) : (state.rememberNamed key workspaceId limits).Consistent limits := by
  cases workspaceId with
  | none => exact h
  | some workspaceId => exact h.remember key workspaceId

lemma Consistent.mark (h : state.Consistent limits) (turn : TurnAuthority) (hint : Hint) :
    (state.mark turn hint limits).Consistent limits := by
  have hst := h.rememberNamed turn.thread hint.workspaceId
  unfold FeedState.mark
  rcases queueTurn_cases (state.rememberNamed turn.thread hint.workspaceId limits) turn hint limits with
    ⟨hint', hmem, hqueue⟩ | hqueue | ⟨hnew, hroom, hqueue⟩
  · rw [hqueue]
    refine ⟨?_, ?_, hst.ordered, hst.threads_le, hst.resets_nodup⟩
    · exact hst.dirty_eq.trans (keys_set_of_has hmem hint').symm
    · exact (size_set _ _ _).trans_le ((if_pos hmem).trans_le hst.hints_le)
  · rw [hqueue]
    exact hst.reset turn.thread hint.workspaceId
  · rw [hqueue]
    refine ⟨?_, ?_, hst.ordered, hst.threads_le, hst.resets_nodup⟩
    · exact (congrArg (· ++ [turn]) hst.dirty_eq).trans (keys_set_of_not_has hnew hint).symm
    · exact (size_set _ _ _).trans_le ((if_neg hnew).trans_le hroom)

theorem next_cases (state : FeedState) :
    (∃ outcome, state.next = (outcome, state) ∧ ∀ work, outcome ≠ .work work) ∨
    state.next = (.work .invalidate, { state.resetEveryKnownThread with emitting := true }) ∨
    (∃ target resets flags, state.resets = target :: resets ∧ state.resetAll = false ∧
      state.next = (.work (.reset target flags), { state with resets := resets, emitting := true })) ∨
    ∃ turn dirty hint flags, state.dirty = turn :: dirty ∧ state.resetAll = false ∧
      state.resets = [] ∧ state.next = (.work (.turn turn hint flags),
        { state with dirty := dirty, hints := state.hints.delete turn, emitting := true }) := by
  unfold next
  by_cases hcl : state.closed
  · rw [if_pos hcl]
    exact .inl ⟨.closed, rfl, nofun⟩
  rw [if_neg hcl]
  by_cases hall : state.resetAll
  · rw [if_pos hall]
    exact .inr (.inl rfl)
  rw [if_neg hall]
  rw [Bool.not_eq_true] at hall
  cases hresets : state.resets with
  | cons target resets => exact .inr (.inr (.inl ⟨target, resets, _, rfl, hall, rfl⟩))
  | nil =>
    cases hdrt : state.dirty with
    | nil => exact .inl ⟨.idle, rfl, nofun⟩
    | cons turn dirty =>
      exact .inr (.inr (.inr ⟨turn, dirty, _, _, rfl, hall, rfl, rfl⟩))

lemma Consistent.next (h : state.Consistent limits) : state.next.2.Consistent limits := by
  rcases next_cases state with ⟨outcome, hnext, -⟩ | hnext | ⟨target, resets, flags, hresets, -, hnext⟩ |
    ⟨turn, dirty, hint, flags, hdrt, -, -, hnext⟩
  · rw [hnext]
    exact h
  · rw [hnext]
    obtain ⟨hnd, -⟩ := foldl_resetKnown_resets h.resets_nodup state.threadOrder
    obtain ⟨resets, hkn⟩ := foldl_resetKnown_frame state.threadOrder state
    unfold resetEveryKnownThread
    rw [hkn] at hnd ⊢
    exact ⟨h.dirty_eq, h.hints_le, h.ordered, h.threads_le, hnd⟩
  · rw [hnext]
    have hnd := h.resets_nodup
    rw [hresets, map_cons, nodup_cons] at hnd
    exact ⟨h.dirty_eq, h.hints_le, h.ordered, h.threads_le, hnd.2⟩
  · rw [hnext]
    have hkeys := h.dirty_eq.symm.trans hdrt
    refine ⟨(keys_delete_head hkeys).symm, ?_, h.ordered, h.threads_le, h.resets_nodup⟩
    exact (size_delete_le _ _).trans h.hints_le

lemma Consistent.keepFlags (h : state.Consistent limits) (key) (flags) :
    (state.keepFlags key flags).Consistent limits := by
  unfold FeedState.keepFlags
  cases hget : state.threads.get? key with
  | none => exact h
  | some known =>
    have hmem : key ∈ state.threads.keys := mem_keys_iff.2 (by rw [hget]; rfl)
    exact ⟨h.dirty_eq, h.hints_le, h.ordered.trans (keys_set_of_has hmem _).symm, h.threads_le, h.resets_nodup⟩

lemma Consistent.finished (h : state.Consistent limits) (key)
    (emitted) :
    (state.finished key emitted limits).Consistent limits := by
  have hidle : Consistent limits { state with emitting := false } :=
    ⟨h.dirty_eq, h.hints_le, h.ordered, h.threads_le, h.resets_nodup⟩
  cases key with
  | none => exact hidle
  | some key =>
    cases emitted with
    | none => exact hidle
    | some emitted => exact (hidle.rememberNamed key emitted.1).keepFlags key emitted.2

/-- **Every operation keeps the feed consistent.** -/
theorem Consistent.apply (h : state.Consistent limits) (operation : Feed.Operation) :
    (operation.apply limits state).1.Consistent limits := by
  cases operation with
  | turnChanged turn hint => exact h.mark turn hint
  | threadReset key workspaceId => exact (h.remember key workspaceId).reset key (some workspaceId)
  | threadReadableAgain key => exact h.reset key none
  | next =>
    have hnext := h.next
    unfold Feed.Operation.apply
    rcases houtcome : state.next with ⟨outcome, after⟩
    rw [houtcome] at hnext
    cases outcome <;> exact hnext
  | finished key emitted => exact h.finished key emitted
  | close => exact ⟨h.dirty_eq, h.hints_le, h.ordered, h.threads_le, h.resets_nodup⟩

/-! ### Waiting -/

def WaitsReset (state : FeedState) (key : ThreadKey) : Prop :=
  key ∈ state.resets.map ResetTarget.key ∨ state.resetAll

/-- **A marked turn waits** itself, or its thread waits for a reset, or everything is to be
invalidated. -/
def Waits (state : FeedState) (turn : TurnAuthority) : Prop :=
  turn ∈ state.dirty ∨ state.WaitsReset turn.thread

variable {key : ThreadKey} {turn : TurnAuthority}

/-- Nothing that waits is taken away. -/
structure Keeps (state after : FeedState) : Prop where
  dirty : state.dirty ⊆ after.dirty
  resets : state.resets.map ResetTarget.key ⊆ after.resets.map ResetTarget.key
  all : state.resetAll → after.resetAll

lemma Keeps.refl (state : FeedState) : state.Keeps state :=
  ⟨.refl _, .refl _, id⟩

lemma Keeps.trans {between after} (h : state.Keeps between) (h' : between.Keeps after) : state.Keeps after :=
  ⟨List.Subset.trans h.dirty h'.dirty, List.Subset.trans h.resets h'.resets, h'.all ∘ h.all⟩

lemma WaitsReset.keeps {after} (h : state.WaitsReset key) (hkeeps : state.Keeps after) : after.WaitsReset key :=
  h.imp (fun hmem => hkeeps.resets hmem) hkeeps.all

lemma Waits.keeps {after} (h : state.Waits turn) (hkeeps : state.Keeps after) : after.Waits turn :=
  h.imp (fun hmem => hkeeps.dirty hmem) fun hreset => hreset.keeps hkeeps

lemma remember_keeps (state : FeedState) (key : ThreadKey) (workspaceId : String)
    (limits : FeedLimits) : state.Keeps (state.remember key workspaceId limits) := by
  obtain ⟨hdrt, -, hresets, hall⟩ := remember_waiting state key workspaceId limits
  refine ⟨?_, ?_, fun h => hall.trans h⟩
  · rw [hdrt]
    exact .refl _
  · rw [hresets]
    exact .refl _

lemma rememberNamed_keeps (state : FeedState) (key : ThreadKey) (workspaceId : Option String)
    (limits : FeedLimits) : state.Keeps (state.rememberNamed key workspaceId limits) := by
  cases workspaceId with
  | none => exact .refl state
  | some workspaceId => exact remember_keeps state key workspaceId limits

lemma reset_keeps (state : FeedState) (key : ThreadKey) (workspaceId : Option String)
    (limits : FeedLimits) : state.Keeps (state.reset key workspaceId limits) := by
  rcases reset_cases state key workspaceId limits with
    ⟨resets, -, hkeys, hreset⟩ | hreset | ⟨target, -, -, -, hreset⟩
  · rw [hreset]
    exact ⟨.refl _, fun key hmem => hkeys ▸ hmem, id⟩
  · rw [hreset]
    exact ⟨.refl _, .refl _, fun _ => rfl⟩
  · rw [hreset]
    refine ⟨.refl _, ?_, id⟩
    rw [map_append]
    exact subset_append_left _ _

lemma queueTurn_keeps (state : FeedState) (turn : TurnAuthority) (hint : Hint) (limits : FeedLimits) :
    state.Keeps (state.queueTurn turn hint limits) := by
  rcases queueTurn_cases state turn hint limits with ⟨hint', -, hqueue⟩ | hqueue | ⟨-, -, hqueue⟩
  · rw [hqueue]
    exact ⟨.refl _, .refl _, id⟩
  · rw [hqueue]
    exact reset_keeps state turn.thread hint.workspaceId limits
  · rw [hqueue]
    exact ⟨subset_append_left _ _, .refl _, id⟩

lemma keepFlags_keeps (state : FeedState) (key : ThreadKey) (flags : ThreadFlags) :
    state.Keeps (state.keepFlags key flags) := by
  unfold keepFlags
  cases state.threads.get? key with
  | none => exact .refl state
  | some known => exact ⟨List.Subset.refl _, List.Subset.refl _, id⟩

lemma finished_keeps (state : FeedState) (key)
    (emitted) (limits : FeedLimits) :
    state.Keeps (state.finished key emitted limits) := by
  have hidle : state.Keeps { state with emitting := false } := ⟨.refl _, List.Subset.refl _, id⟩
  cases key with
  | none => exact hidle
  | some key =>
    cases emitted with
    | none => exact hidle
    | some emitted =>
      exact (hidle.trans (rememberNamed_keeps _ key emitted.1 limits)).trans (keepFlags_keeps _ _ _)

lemma reset_waits (state : FeedState) (key : ThreadKey) (workspaceId : Option String)
    (limits : FeedLimits) : (state.reset key workspaceId limits).WaitsReset key := by
  rcases reset_cases state key workspaceId limits with
    ⟨resets, hmem, hkeys, hreset⟩ | hreset | ⟨target, htarg, -, -, hreset⟩
  · rw [hreset]
    exact .inl (hkeys ▸ hmem)
  · rw [hreset]
    exact .inr rfl
  · rw [hreset]
    refine .inl (mem_map.2 ⟨target, ?_, htarg⟩)
    exact mem_append_right _ (mem_singleton_self _)

lemma mark_waits (h : state.Consistent limits) (turn : TurnAuthority) (hint : Hint) :
    (state.mark turn hint limits).Waits turn := by
  have hst := h.rememberNamed turn.thread hint.workspaceId
  unfold mark
  rcases queueTurn_cases (state.rememberNamed turn.thread hint.workspaceId limits) turn hint limits with
    ⟨hint', hmem, hqueue⟩ | hqueue | ⟨-, -, hqueue⟩
  · rw [hqueue]
    exact .inl (hst.dirty_eq ▸ hmem)
  · rw [hqueue]
    exact .inr (reset_waits _ _ _ _)
  · rw [hqueue]
    exact .inl (mem_append_right _ (mem_singleton_self turn))

lemma WaitsReset.next (h : state.WaitsReset key)
    (hwork : ∀ work, state.next.1 = .work work → work.coversThread key = false) :
    state.next.2.WaitsReset key := by
  rcases next_cases state with ⟨outcome, hnext, -⟩ | hnext | ⟨target, resets, flags, hresets, hall, hnext⟩ |
    ⟨turn, dirty, hint, flags, -, -, -, hnext⟩
  · rw [hnext]
    exact h
  · have := hwork .invalidate (by rw [hnext])
    cases this
  · have hne : target.key ≠ key := of_decide_eq_false (hwork (.reset target flags) (by rw [hnext]))
    rw [hnext]
    rcases h with hmem | htrue
    · rw [hresets, map_cons, mem_cons] at hmem
      exact .inl (hmem.resolve_left hne.symm)
    · rw [hall] at htrue
      cases htrue
  · rw [hnext]
    exact h

/-- **Work that does not cover a turn leaves it waiting.** -/
theorem Waits.next (h : state.Waits turn)
    (hwork : ∀ work, state.next.1 = .work work → work.covers turn = false) :
    state.next.2.Waits turn := by
  have hthr work (hnext : state.next.1 = .work work) : work.coversThread turn.thread = false := by
    have hcover := hwork work hnext
    exact ((Bool.or_eq_false_iff).1 hcover).1
  rcases h with hmem | hreset
  · rcases next_cases state with ⟨outcome, hnext, -⟩ | hnext | ⟨target, resets, flags, -, -, hnext⟩ |
      ⟨marked, dirty, hint, flags, hdrt, -, -, hnext⟩
    · rw [hnext]
      exact .inl hmem
    · have := hthr .invalidate (by rw [hnext])
      cases this
    · rw [hnext]
      exact .inl hmem
    · have hcover := hwork (.turn marked hint flags) (by rw [hnext])
      rw [hdrt, mem_cons] at hmem
      rw [hnext]
      refine .inl (hmem.resolve_left fun heq => ?_)
      rw [heq] at hcover
      simp [Work.covers] at hcover
  · exact .inr (hreset.next hthr)

lemma apply_keeps (state : FeedState) (limits : FeedLimits) {operation : Feed.Operation}
    (h : operation ≠ .next) : state.Keeps (operation.apply limits state).1 := by
  cases operation with
  | turnChanged turn hint =>
    exact (rememberNamed_keeps state _ _ limits).trans (queueTurn_keeps _ turn hint limits)
  | threadReset key workspaceId =>
    exact (remember_keeps state key workspaceId limits).trans (reset_keeps _ _ _ limits)
  | threadReadableAgain key => exact reset_keeps state key none limits
  | next => exact absurd rfl h
  | finished key emitted => exact finished_keeps state key emitted limits
  | close => exact ⟨List.Subset.refl _, List.Subset.refl _, id⟩

lemma apply_next (state) (limits) :
    (Feed.Operation.apply limits state .next).1 = state.next.2 ∧
      ∀ work, state.next.1 = .work work → (Feed.Operation.apply limits state .next).2 = some work := by
  unfold Feed.Operation.apply
  rcases state.next with ⟨outcome, after⟩
  cases outcome with
  | work work => exact ⟨rfl, fun work' h => by cases h; rfl⟩
  | idle => exact ⟨rfl, nofun⟩
  | closed => exact ⟨rfl, nofun⟩

lemma WaitsReset.apply (h : state.WaitsReset key) (operation : Feed.Operation)
    (hwork : ∀ work ∈ (operation.apply limits state).2, work.coversThread key = false) :
    (operation.apply limits state).1.WaitsReset key := by
  by_cases hnext : operation = .next
  · subst hnext
    obtain ⟨haft, hout⟩ := apply_next state limits
    rw [haft]
    exact h.next fun work hmem => hwork work (hout work hmem)
  · exact h.keeps (apply_keeps state limits hnext)

lemma Waits.apply (h : state.Waits turn) (operation : Feed.Operation)
    (hwork : ∀ work ∈ (operation.apply limits state).2, work.covers turn = false) :
    (operation.apply limits state).1.Waits turn := by
  by_cases hnext : operation = .next
  · subst hnext
    obtain ⟨haft, hout⟩ := apply_next state limits
    rw [haft]
    exact h.next fun work hmem => hwork work (hout work hmem)
  · exact h.keeps (apply_keeps state limits hnext)

lemma length_reset_le (state : FeedState) (key : ThreadKey) (workspaceId : Option String)
    (limits : FeedLimits) : (state.reset key workspaceId limits).resets.length ≤
      max state.resets.length limits.resets := by
  rcases reset_cases state key workspaceId limits with
    ⟨resets, -, hkeys, hreset⟩ | hreset | ⟨target, -, -, hroom, hreset⟩
  · have hlen := congrArg List.length hkeys
    rw [length_map, length_map] at hlen
    rw [hreset]
    change resets.length ≤ _
    omega
  · rw [hreset]
    exact le_max_left _ _
  · rw [hreset]
    rw [length_append, length_singleton]
    omega

lemma rememberNamed_resets (state : FeedState) (key : ThreadKey) (workspaceId : Option String)
    (limits : FeedLimits) : (state.rememberNamed key workspaceId limits).resets = state.resets := by
  cases workspaceId with
  | none => rfl
  | some workspaceId => exact (remember_waiting state key workspaceId limits).2.2.1

lemma length_mark_le (state : FeedState) (turn : TurnAuthority) (hint : Hint) (limits : FeedLimits) :
    (state.mark turn hint limits).resets.length ≤ max state.resets.length limits.resets := by
  have hresets := rememberNamed_resets state turn.thread hint.workspaceId limits
  unfold mark
  rcases queueTurn_cases (state.rememberNamed turn.thread hint.workspaceId limits) turn hint limits with
    ⟨hint', -, hqueue⟩ | hqueue | ⟨-, -, hqueue⟩
  · rw [hqueue]
    rw [hresets]
    exact le_max_left _ _
  · rw [hqueue, ← hresets]
    exact length_reset_le _ _ _ _
  · rw [hqueue]
    rw [hresets]
    exact le_max_left _ _

lemma length_finished_le (state : FeedState) (key)
    (emitted) (limits : FeedLimits) :
    (state.finished key emitted limits).resets.length = state.resets.length := by
  unfold finished
  cases key with
  | none => rfl
  | some key =>
    cases emitted with
    | none => rfl
    | some emitted =>
      have hresets := rememberNamed_resets { state with emitting := false } key emitted.1 limits
      dsimp only
      unfold keepFlags
      split
      · exact congrArg List.length hresets
      · exact congrArg List.length hresets

/-- An operation queues resets within the limit; an invalidation one more for each known thread. -/
lemma Consistent.length_apply_le (h : state.Consistent limits) (operation : Feed.Operation) :
    (operation.apply limits state).1.resets.length ≤ max state.resets.length limits.resets +
      limits.threads * (operation.apply limits state).2.toList.count .invalidate := by
  have hle {length} (hlen : length ≤ max state.resets.length limits.resets) extra :
      length ≤ max state.resets.length limits.resets + extra := by omega
  cases operation with
  | turnChanged turn hint => exact hle (length_mark_le state turn hint limits) _
  | threadReset key workspaceId =>
    refine hle ((length_reset_le _ key (some workspaceId) limits).trans ?_) _
    rw [(remember_waiting state key workspaceId limits).2.2.1]
  | threadReadableAgain key => exact hle (length_reset_le state key none limits) _
  | next =>
    obtain ⟨haft, hout⟩ := apply_next state limits
    rw [haft]
    rcases next_cases state with ⟨outcome, hnext, -⟩ | hnext | ⟨target, resets, flags, hresets, -, hnext⟩ |
      ⟨turn, dirty, hint, flags, -, -, -, hnext⟩
    · rw [hnext]
      exact hle (le_max_left _ _) _
    · have hall := hout .invalidate (by rw [hnext])
      have hlen := (foldl_resetKnown_resets h.resets_nodup state.threadOrder).2
      have hths := h.threads_le
      have hcnt : (Option.toList (some Work.invalidate)).count .invalidate = 1 := rfl
      rw [hnext, hall, hcnt]
      change (state.threadOrder.foldl resetKnown state).resets.length ≤ _
      omega
    · rw [hnext]
      refine hle ?_ _
      rw [hresets, length_cons]
      change resets.length ≤ _
      omega
    · rw [hnext]
      exact hle (le_max_left _ _) _
  | finished key emitted =>
    refine hle ?_ _
    exact (length_finished_le state key emitted limits).trans_le (le_max_left _ _)
  | close => exact hle (le_max_left _ _) _

end FeedState

open Runs Feed

lemma Feed.Operation.AsksReset.waits {operation : Feed.Operation} {key : ThreadKey}
    (h : operation.AsksReset key) (state : FeedState) (limits : FeedLimits) :
    (operation.apply limits state).1.WaitsReset key := by
  rcases h with rfl | ⟨workspaceId, rfl⟩
  · exact FeedState.reset_waits state key none limits
  · exact FeedState.reset_waits _ key (some workspaceId) limits

lemma start_consistent (limits) : FeedState.start.Consistent limits :=
  ⟨rfl, Nat.zero_le _, rfl, Nat.zero_le _, nodup_nil⟩

/-- **The feed covers what it was asked for, within its bounds.** -/
theorem feed_covers (limits : FeedLimits) {works : List Work} {state : FeedState}
    (h : Reaches (Feeds limits) .start works state) :
    state.dirty.Nodup ∧ (∀ turn, turn ∈ state.dirty ↔ turn ∈ state.hints.keys) ∧
    state.dirty.length ≤ limits.turns ∧ state.hints.size ≤ limits.turns ∧
    state.threadOrder.Nodup ∧ (∀ key, key ∈ state.threadOrder ↔ key ∈ state.threads.keys) ∧
    state.threadOrder.length ≤ limits.threads ∧ state.threads.size ≤ limits.threads ∧
    (state.resets.map ResetTarget.key).Nodup ∧
    state.resets.length ≤ limits.resets + limits.threads * works.count .invalidate ∧
    (∀ turn hint after later,
      Reaches (Feeds limits) (Feed.Operation.apply limits state (.turnChanged turn hint)).1 after later →
      (∃ work ∈ after, work.covers turn) ∨ later.Waits turn) ∧
    ∀ key operation after later, operation.AsksReset key →
      Reaches (Feeds limits) (Feed.Operation.apply limits state operation).1 after later →
      (∃ work ∈ after, work.coversThread key) ∨ later.WaitsReset key := by
  have hall := h.trace
    (P := fun works s => s.Consistent limits ∧
      s.resets.length ≤ limits.resets + limits.threads * works.count .invalidate)
    (fun before s _ t hs hstep => by
      obtain ⟨operation⟩ := hstep
      have hlen := hs.1.length_apply_le operation
      refine ⟨hs.1.apply operation, ?_⟩
      rw [count_append, Nat.mul_add]
      omega)
    ⟨start_consistent limits, Nat.zero_le _⟩
  obtain ⟨hcons, hresets⟩ := hall
  have hdirty : state.dirty.length = state.hints.size := by
    rw [hcons.dirty_eq, length_keys]
  have hthreads : state.threadOrder.length = state.threads.size := by
    rw [hcons.ordered, length_keys]
  refine ⟨?_, ?_, hdirty ▸ hcons.hints_le, hcons.hints_le, ?_, ?_, hcons.threads_le,
    hthreads ▸ hcons.threads_le, hcons.resets_nodup, hresets, ?_, ?_⟩
  · rw [hcons.dirty_eq]
    exact state.hints.nodup
  · intro turn
    rw [hcons.dirty_eq]
  · rw [hcons.ordered]
    exact state.threads.nodup
  · intro key
    rw [hcons.ordered]
  · intro turn hint after later hafter
    by_cases hcover : ∃ work ∈ after, work.covers turn
    · exact .inl hcover
    · refine .inr (hafter.invariant_of (P := fun s => s.Waits turn)
        (Q := fun work => work.covers turn = false) (fun _ _ _ hworks hs hstep => ?_) ?_
        (FeedState.mark_waits hcons turn hint))
      · obtain ⟨operation⟩ := hstep
        exact hs.apply operation fun work hmem => hworks work (Option.mem_toList.2 hmem)
      · exact fun work hmem => Bool.eq_false_iff.2 fun htrue => hcover ⟨work, hmem, htrue⟩
  · intro key operation after later hasks hafter
    by_cases hcover : ∃ work ∈ after, work.coversThread key
    · exact .inl hcover
    · refine .inr (hafter.invariant_of (P := fun s => s.WaitsReset key)
        (Q := fun work => work.coversThread key = false) (fun _ _ _ hworks hs hstep => ?_) ?_
        (hasks.waits state limits))
      · obtain ⟨operation⟩ := hstep
        exact hs.apply operation fun work hmem => hworks work (Option.mem_toList.2 hmem)
      · exact fun work hmem => Bool.eq_false_iff.2 fun htrue => hcover ⟨work, hmem, htrue⟩

def feedScope : HistoryScope := ⟨"/a", "agent-root:/a"⟩

/-- A turn that is marked when no turn may wait is covered by a reset of its thread. -/
theorem feed_covers_full :
    let limits : FeedLimits := ⟨0, 1, 1⟩
    let turn : TurnAuthority := ⟨feedScope, ⟨"thread-1", "turn-1"⟩, 1⟩
    let marked := (Feed.Operation.apply limits .start (.turnChanged turn ⟨some "workspace-1", none⟩)).1
    (∃ work ∈ [Work.reset ⟨turn.thread, some "workspace-1"⟩ none], work.covers turn) ∨
      (Feed.Operation.apply limits marked .next).1.Waits turn :=
  (feed_covers ⟨0, 1, 1⟩ (.refl _)).2.2.2.2.2.2.2.2.2.2.1 ⟨feedScope, ⟨"thread-1", "turn-1"⟩, 1⟩
    ⟨some "workspace-1", none⟩ _ _ (.single (.op _ .next))

/-- An invalidation queues resets beyond the limit: two threads ask for a reset where one may
wait, and the known one of them is queued all the same. -/
theorem resets_beyond_limit :
    ¬ ∀ limits works state, Reaches (Feeds limits) .start works state → state.resets.length ≤ limits.resets := by
  intro hclaim
  have hrun : Reaches (Feeds ⟨1, 1, 1⟩) .start _ _ :=
    .next (.op .start (.threadReset (feedScope, "thread-2") "workspace-2"))
      (.next (.op _ (.threadReset (feedScope, "thread-3") "workspace-3")) (.single (.op _ .next)))
  have hlen := hclaim ⟨1, 1, 1⟩ _ _ hrun
  revert hlen
  decide

end CodevoEditor.RuntimeRequests
