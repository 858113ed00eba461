/-
# What abandonment tracking keeps

A turn that was noted is pending or reconciled with at least that revision, or given up (`Kept`),
until it is settled.
-/

import CodevoEditor.RuntimeRequests.Abandonment

namespace CodevoEditor.RuntimeRequests

open Js Runs List Option OrderedMap

variable {order : List TurnAuthority} {operation : Operation}

namespace Needs

variable {needs : Needs} {turn other : TurnAuthority} {revision now : ℕ}

lemma reconcile_get? (needs : Needs) (turn) (revision : ℕ) (other) :
    (needs.reconcile turn revision).reconciled.get? other =
      if other = turn then some (max ((needs.reconciled.get? turn).getD 0) revision)
      else needs.reconciled.get? other :=
  get?_set _ _ _ _

def reconcileAll (needs : Needs) (drained : List (TurnAuthority × Need)) : Needs :=
  drained.foldl (fun needs entry => needs.reconcile entry.1 entry.2.revision) needs

lemma reconcileAll_frame (needs : Needs) (drained) :
    ∃ reconciled order, needs.reconcileAll drained =
      { needs with reconciled := reconciled, reconciledOrder := order } := by
  induction drained generalizing needs with
  | nil => exact ⟨_, _, rfl⟩
  | cons entry drained ih => exact ih _

lemma reconcileAll_mono {known} (h : needs.reconciled.get? turn = some known)
    (drained) :
    ∃ later, (needs.reconcileAll drained).reconciled.get? turn = some later ∧ known ≤ later := by
  induction drained generalizing needs known with
  | nil => exact ⟨known, h, le_rfl⟩
  | cons entry drained ih =>
    obtain ⟨entered, need⟩ := entry
    have hget := reconcile_get? needs entered need.revision turn
    by_cases heq : turn = entered
    · rw [if_pos heq, ← heq, h, getD_some] at hget
      obtain ⟨later, hlat, hle⟩ := ih hget
      subst heq
      exact ⟨later, hlat, by omega⟩
    · rw [if_neg heq, h] at hget
      exact ih hget

variable {drained : List (TurnAuthority × Need)}

lemma reconcileAll_mem {need} (h : (turn, need) ∈ drained) (needs : Needs) :
    ∃ known, (needs.reconcileAll drained).reconciled.get? turn = some known ∧ need.revision ≤ known := by
  induction drained generalizing needs with
  | nil => cases h
  | cons entry drained ih =>
    rcases mem_cons.1 h with rfl | hmem
    · have hget := reconcile_get? needs turn need.revision turn
      rw [if_pos rfl] at hget
      obtain ⟨known, hkn, hle⟩ := reconcileAll_mono hget drained
      exact ⟨known, hkn, by omega⟩
    · exact ih hmem _

lemma reconcileAll_none (h : needs.reconciled.get? turn = none)
    (hnew : turn ∉ drained.map Prod.fst) :
    (needs.reconcileAll drained).reconciled.get? turn = none := by
  induction drained generalizing needs with
  | nil => exact h
  | cons entry drained ih =>
    rw [map_cons, mem_cons, not_or] at hnew
    refine ih ?_ hnew.2
    rw [reconcile_get?, if_neg hnew.1, h]

/-! ### Kept -/

/-- The turn has been given up for good: it was reconciled, and is no longer remembered. -/
structure GivenUp (needs : Needs) (turn : TurnAuthority) : Prop where
  overflowed : needs.memoryOverflowed
  forgotten : needs.reconciled.get? turn = none
  lost : needs.Lost turn

def Pending (needs : Needs) (turn : TurnAuthority) (revision : ℕ) : Prop :=
  ∃ need, needs.turns.get? turn = some need ∧ revision ≤ need.revision

def Reconciled (needs : Needs) (turn : TurnAuthority) (revision : ℕ) : Prop :=
  ∃ known, needs.reconciled.get? turn = some known ∧ revision ≤ known

/-- **What a noted turn is until it is settled.** -/
def Kept (needs : Needs) (turn : TurnAuthority) (revision : ℕ) : Prop :=
  needs.Pending turn revision ∨ needs.Reconciled turn revision ∨ needs.GivenUp turn

/-- Once reconciled turns have been forgotten, only those that are known become pending. -/
def Recalled (needs : Needs) : Prop :=
  needs.memoryOverflowed → ∀ turn, (needs.turns.get? turn).isSome → (needs.reconciled.get? turn).isSome

/-- The note finds no room among the pending turns. -/
structure FindsFull (needs : Needs) (turn : TurnAuthority) (revision : ℕ) : Prop where
  unreconciled : ¬ needs.Reconciled turn revision
  remembered : needs.memoryOverflowed = false ∨ (needs.reconciled.get? turn).isSome
  new : needs.turns.get? turn = none
  full : maxAbandonedTurns ≤ needs.turns.size

theorem note_cases (needs : Needs) (turn) (revision now : ℕ) :
    (needs.Reconciled turn revision ∧ needs.note turn revision now = needs) ∨
    (needs.memoryOverflowed ∧ needs.reconciled.get? turn = none ∧ needs.note turn revision now = needs.giveUp turn) ∨
    ¬ needs.Reconciled turn revision ∧
      (needs.memoryOverflowed = false ∨ (needs.reconciled.get? turn).isSome) ∧
      ((∃ need, needs.turns.get? turn = some need ∧ needs.note turn revision now =
        { needs with
          turns := needs.turns.set turn { need with revision := max need.revision revision } }) ∨
      (needs.FindsFull turn revision ∧ needs.note turn revision now =
        { needs with overflowedSince := needs.overflowedSince.or (some now) }) ∨
      (needs.turns.get? turn = none ∧ needs.turns.size < maxAbandonedTurns ∧
        needs.note turn revision now = { needs with turns := needs.turns.set turn ⟨now, revision⟩ })) := by
  unfold note
  by_cases hrecon : (needs.reconciled.get? turn).any (revision ≤ ·)
  · obtain ⟨known, hget, hle⟩ := (any_eq_true _ _).1 hrecon
    rw [if_pos hrecon]
    exact .inl ⟨⟨known, hget, of_decide_eq_true hle⟩, rfl⟩
  rw [if_neg hrecon]
  have hno : ¬ needs.Reconciled turn revision := by
    rintro ⟨known, hget, hle⟩
    exact hrecon ((any_eq_true _ _).2 ⟨known, hget, decide_eq_true hle⟩)
  by_cases hforgot : (needs.memoryOverflowed && (needs.reconciled.get? turn).isNone)
  · rw [if_pos hforgot]
    obtain ⟨hmemory, hnone⟩ := (Bool.and_eq_true _ _).mp hforgot
    exact .inr (.inl ⟨hmemory, isNone_iff_eq_none.1 hnone, rfl⟩)
  rw [if_neg hforgot]
  have hremembered : needs.memoryOverflowed = false ∨ (needs.reconciled.get? turn).isSome := by
    rw [Bool.and_eq_true, not_and_or, isNone_iff_eq_none] at hforgot
    exact hforgot.imp Bool.eq_false_of_not_eq_true isSome_iff_ne_none.2
  refine .inr (.inr ⟨hno, hremembered, ?_⟩)
  cases hturn : needs.turns.get? turn with
  | some need => exact .inl ⟨need, rfl, rfl⟩
  | none =>
    split_ifs with hfull
    · exact .inr (.inl ⟨⟨hno, hremembered, hturn, hfull⟩, rfl⟩)
    · exact .inr (.inr ⟨rfl, by omega, rfl⟩)

lemma note_kept (needs : Needs) (turn) (revision now : ℕ) :
    (needs.note turn revision now).Kept turn revision ∨ needs.FindsFull turn revision := by
  rcases note_cases needs turn revision now with ⟨hkn, h⟩ | ⟨hmemory, hnone, h⟩ | ⟨-, -, hcases⟩
  · rw [h]
    exact .inl (.inr (.inl hkn))
  · rw [h]
    refine .inl (.inr (.inr ⟨?_, ?_, lost_giveUp needs turn⟩))
    · rw [giveUp_memoryOverflowed, hmemory]
    · rw [giveUp_reconciled, hnone]
  rcases hcases with ⟨need, -, h⟩ | ⟨hfull, -⟩ | ⟨-, -, h⟩
  · rw [h]
    refine .inl (.inl ⟨{ need with revision := max need.revision revision }, ?_, le_max_right _ _⟩)
    rw [get?_set, if_pos rfl]
  · exact .inr hfull
  · rw [h]
    refine .inl (.inl ⟨⟨now, revision⟩, ?_, le_rfl⟩)
    rw [get?_set, if_pos rfl]

lemma Kept.note (h : needs.Kept turn revision) (other) (revision' now : ℕ) :
    (needs.note other revision' now).Kept turn revision := by
  rcases note_cases needs other revision' now with ⟨-, hnote⟩ | ⟨hmemory, hnone, hnote⟩ | ⟨-, -, hcases⟩
  · rwa [hnote]
  · rw [hnote]
    unfold Kept Pending Reconciled
    rw [giveUp_turns, giveUp_reconciled]
    refine h.imp id (Or.imp id fun hgiv => ⟨?_, ?_, hgiv.lost.giveUp other⟩)
    · rw [giveUp_memoryOverflowed, hgiv.overflowed]
    · rw [giveUp_reconciled, hgiv.forgotten]
  -- the other three change nothing but the pending turns and the overflow
  have hrest turns overflowed
      (hpend : needs.Pending turn revision → ∃ need, turns.get? turn = some need ∧ revision ≤ need.revision) :
      ({ needs with turns := turns, overflowedSince := overflowed } : Needs).Kept turn revision :=
    h.imp hpend (Or.imp id fun hgiv => ⟨hgiv.overflowed, hgiv.forgotten, hgiv.lost⟩)
  rcases hcases with ⟨need, hoth, hnote⟩ | ⟨-, hnote⟩ | ⟨hoth, -, hnote⟩
  · rw [hnote]
    refine hrest _ needs.overflowedSince fun ⟨pending, hget, hle⟩ => ?_
    rw [get?_set]
    split_ifs with heq
    · rw [← heq, hget] at hoth
      cases hoth
      exact ⟨_, rfl, hle.trans (le_max_left _ _)⟩
    · exact ⟨pending, hget, hle⟩
  · rw [hnote]
    exact hrest needs.turns _ id
  · rw [hnote]
    refine hrest _ needs.overflowedSince fun ⟨pending, hget, hle⟩ => ⟨pending, ?_, hle⟩
    rw [get?_set, if_neg, hget]
    rintro rfl
    rw [hoth] at hget
    cases hget

lemma Kept.settle (h : needs.Kept turn revision) (hne : turn ≠ other) : (needs.settle other).Kept turn revision := by
  obtain ⟨unreconciled, count, hforget⟩ :=
    forgetUnreconciled_frame { needs with turns := needs.turns.delete other } other
  have hlost (hgiv : needs.GivenUp turn) :
      ({ needs with turns := needs.turns.delete other }.forgetUnreconciled other).Lost turn := by
    have hlost : Lost { needs with turns := needs.turns.delete other } turn := hgiv.lost
    exact hlost.forgetUnreconciled hne
  unfold Needs.settle
  rw [hforget] at hlost ⊢
  dsimp only
  have hpend : needs.Pending turn revision →
      ∃ need, (needs.turns.delete other).get? turn = some need ∧ revision ≤ need.revision := by
    rintro ⟨need, hget, hle⟩
    exact ⟨need, by rw [get?_delete, if_neg hne, hget], hle⟩
  have hget : (needs.reconciled.delete other).get? turn = needs.reconciled.get? turn := by
    rw [get?_delete, if_neg hne]
  split_ifs
  · exact h.imp hpend (Or.imp (fun hsome => hsome.imp fun known hkn => hkn.imp_left hget.trans)
      fun hgiv => ⟨hgiv.overflowed, hget.trans hgiv.forgotten, hlost hgiv⟩)
  · exact h.imp hpend (Or.imp id fun hgiv =>
      ⟨hgiv.overflowed, hgiv.forgotten, hlost hgiv⟩)

/-- What is remembered of a turn that no longer waits. -/
def Settled (needs : Needs) (turn : TurnAuthority) (revision : ℕ) : Prop :=
  needs.Reconciled turn revision ∨ needs.GivenUp turn

lemma Settled.forgetOldest (h : needs.Settled turn revision) (oldest)
    (order) : (needs.forgetOldest oldest order).Settled turn revision := by
  have hget : (needs.forgetOldest oldest order).reconciled.get? turn =
      if turn = oldest then none else needs.reconciled.get? turn := by
    unfold Needs.forgetOldest
    rw [giveUp_reconciled]
    exact get?_delete _ _ _
  have hmemory : (needs.forgetOldest oldest order).memoryOverflowed := by
    unfold Needs.forgetOldest
    rw [giveUp_memoryOverflowed]
  by_cases heq : turn = oldest
  · rw [if_pos heq] at hget
    exact .inr ⟨hmemory, hget, heq ▸ lost_giveUp _ _⟩
  · rw [if_neg heq] at hget
    refine h.imp (fun ⟨known, hkn, hle⟩ => ⟨known, hget.trans hkn, hle⟩) fun hgiv =>
      ⟨hmemory, hget.trans hgiv.forgotten, ?_⟩
    have hlost : Lost { needs with
        reconciledOrder := order
        reconciled := needs.reconciled.delete oldest
        memoryOverflowed := true } turn := hgiv.lost
    exact hlost.giveUp oldest

@[simp] lemma forgetOldest_reconciledOrder (needs : Needs) (oldest)
    (order) : (needs.forgetOldest oldest order).reconciledOrder = order := by
  unfold Needs.forgetOldest
  rw [giveUp_reconciledOrder]

lemma forgetBeyond_keeps {P : Needs → Prop}
    (hstep : ∀ oldest order needs, needs.reconciledOrder = oldest :: order → P needs →
      P (needs.forgetOldest oldest order))
    (limit : ℕ) {needs} (hord : needs.reconciledOrder = order) (h : P needs) :
    P (forgetBeyond limit order needs) := by
  induction order generalizing needs with
  | nil => exact h
  | cons oldest order ih =>
    unfold forgetBeyond
    split_ifs
    · exact ih (forgetOldest_reconciledOrder needs oldest order) (hstep oldest order needs hord h)
    · exact h

/-- What a rotation starts to forget from. -/
def drainedAt (needs : Needs) (drained : List (TurnAuthority × Need)) (now : ℕ) : Needs :=
  { ({ needs with turns := .empty } : Needs).reconcileAll drained with
    overflowedSince := none, requestedSince := none, lastRotation := some now }

/-- **What forgetting the oldest keeps, a rotation keeps.** -/
theorem rotated_keeps {P : Needs → Prop}
    (hstep : ∀ oldest order needs, needs.reconciledOrder = oldest :: order → P needs →
      P (needs.forgetOldest oldest order))
    {now} (h : P (needs.drainedAt drained now)) (policy) :
    P (needs.rotated drained now policy) :=
  forgetBeyond_keeps hstep policy.reconciled rfl h

lemma Kept.rotated (h : needs.Kept turn revision) (hrecalled : needs.Recalled)
    (hdr : drained.Perm needs.turns.entries) (now : ℕ) (policy) :
    (needs.rotated drained now policy).Kept turn revision := by
  have hstl : ({ needs with turns := .empty }.reconcileAll drained).Settled turn revision := by
    rcases h with ⟨need, hget, hle⟩ | ⟨known, hget, hle⟩ | hgiv
    · have hmem := hdr.mem_iff.2 (get?_eq_some_iff.1 hget)
      obtain ⟨known, hkn, hrev⟩ := reconcileAll_mem hmem { needs with turns := .empty }
      exact .inl ⟨known, hkn, by omega⟩
    · have hst : ({ needs with turns := .empty } : Needs).reconciled.get? turn = some known := hget
      obtain ⟨later, hlat, hkn⟩ := reconcileAll_mono hst drained
      exact .inl ⟨later, hlat, by omega⟩
    · have hnew : turn ∉ drained.map Prod.fst := fun hmem => by
        have hpend := mem_keys_iff.1 ((hdr.map Prod.fst).mem_iff.1 hmem)
        have hkn := hrecalled hgiv.overflowed turn hpend
        rw [hgiv.forgotten] at hkn
        cases hkn
      have hst : ({ needs with turns := .empty } : Needs).reconciled.get? turn = none := hgiv.forgotten
      have hnone := reconcileAll_none hst hnew
      obtain ⟨reconciled, order, hall⟩ := reconcileAll_frame { needs with turns := .empty } drained
      rw [hall] at hnone ⊢
      exact .inr ⟨hgiv.overflowed, hnone, hgiv.lost⟩
  have hdrainedAt : (needs.drainedAt drained now).Settled turn revision :=
    hstl.imp id fun hgiv => ⟨hgiv.overflowed, hgiv.forgotten, hgiv.lost⟩
  exact .inr (rotated_keeps (P := fun needs => needs.Settled turn revision)
    (fun oldest order needs _ h => h.forgetOldest oldest order) hdrainedAt policy)

lemma rotated_clears (needs : Needs) (drained) (now : ℕ)
    (policy) :
    (needs.rotated drained now policy).turns = .empty ∧
      (needs.rotated drained now policy).overflowedSince = none := by
  refine rotated_keeps (P := fun needs => needs.turns = .empty ∧ needs.overflowedSince = none)
    (fun oldest order needs _ h => ?_) ?_ policy
  · unfold forgetOldest
    rw [giveUp_turns, giveUp_overflowedSince]
    exact h
  · obtain ⟨reconciled, order, hall⟩ := reconcileAll_frame { needs with turns := .empty } drained
    unfold drainedAt
    rw [hall]
    exact ⟨rfl, rfl⟩

lemma Counted.rotated (h : needs.Counted) (drained) (now : ℕ)
    (policy) : (needs.rotated drained now policy).Counted := by
  refine rotated_keeps (P := Counted) (fun oldest order needs _ h => ?_) ?_ policy
  · have hcnt : Counted { needs with
        reconciledOrder := order
        reconciled := needs.reconciled.delete oldest
        memoryOverflowed := true } := h
    exact hcnt.giveUp oldest
  · obtain ⟨reconciled, order, hall⟩ := reconcileAll_frame { needs with turns := .empty } drained
    unfold drainedAt
    rw [hall]
    exact h

/-- **The reconciled turns are listed once each**, and of each a revision is known. -/
structure Listed (needs : Needs) : Prop where
  nodup : needs.reconciledOrder.Nodup
  mem_iff : ∀ turn, turn ∈ needs.reconciledOrder ↔ (needs.reconciled.get? turn).isSome
  positive : ∀ turn known, needs.reconciled.get? turn = some known → 0 < known

section

variable (h : needs.Listed)
include h

lemma Listed.reconcile (turn) (hrev : 0 < revision) : (needs.reconcile turn revision).Listed := by
  have hord : (needs.reconcile turn revision).reconciledOrder =
      if turn ∈ needs.reconciledOrder then needs.reconciledOrder
      else needs.reconciledOrder ++ [turn] := by
    unfold Needs.reconcile
    dsimp only
    cases hget : needs.reconciled.get? turn with
    | none =>
      have hnew : turn ∉ needs.reconciledOrder := by simp [h.mem_iff, hget]
      rw [if_neg hnew, getD_none, if_pos rfl]
    | some known =>
      have hold : turn ∈ needs.reconciledOrder := by simp [h.mem_iff, hget]
      rw [if_pos hold, getD_some, if_neg (h.positive turn known hget).ne']
  constructor
  · rw [hord]
    split_ifs with hmem
    · exact h.nodup
    · exact h.nodup.append (nodup_singleton turn) (by simpa using hmem)
  · intro other
    rw [hord, reconcile_get?]
    by_cases heq : other = turn
    · subst heq
      rw [if_pos rfl]
      split_ifs with hmem <;> simp [hmem]
    · rw [if_neg heq, ← h.mem_iff]
      split_ifs <;> simp [heq]
  · intro other known hget
    rw [reconcile_get?] at hget
    split_ifs at hget with heq
    · cases hget
      omega
    · exact h.positive other known hget

lemma Listed.reconcileAll (hpos : ∀ entry ∈ drained, 0 < entry.2.revision) :
    (needs.reconcileAll drained).Listed := by
  induction drained generalizing needs with
  | nil => exact h
  | cons entry drained ih =>
    exact ih (h.reconcile entry.1 (hpos entry mem_cons_self))
      fun entry hmem => hpos entry (mem_cons_of_mem _ hmem)

lemma Listed.delete (turn) :
    Listed { needs with
      reconciled := needs.reconciled.delete turn
      reconciledOrder := needs.reconciledOrder.filter (· ≠ turn) } := by
  constructor
  · exact h.nodup.filter _
  · intro other
    rw [mem_filter, get?_delete, h.mem_iff, decide_eq_true_iff]
    split_ifs with heq <;> simp [heq]
  · intro other known hget
    rw [get?_delete] at hget
    split_ifs at hget
    exact h.positive other known hget

lemma Listed.giveUp (turn) : (needs.giveUp turn).Listed := by
  obtain ⟨_, _, _, hgive⟩ := giveUp_frame needs turn
  rw [hgive]
  exact ⟨h.nodup, h.mem_iff, h.positive⟩

lemma Listed.forgetOldest {oldest}
    (hord : needs.reconciledOrder = oldest :: order) :
    (needs.forgetOldest oldest order).Listed := by
  have hnd := h.nodup
  rw [hord, nodup_cons] at hnd
  have hfilter : needs.reconciledOrder.filter (· ≠ oldest) = order := by
    rw [hord, filter_cons_of_neg (by simp)]
    exact filter_eq_self.2 fun turn hmem => decide_eq_true fun heq => hnd.1 (heq ▸ hmem)
  have hdelete := h.delete oldest
  rw [hfilter] at hdelete
  have hforgot : Listed { needs with
      reconciledOrder := order
      reconciled := needs.reconciled.delete oldest
      memoryOverflowed := true } := ⟨hdelete.nodup, hdelete.mem_iff, hdelete.positive⟩
  exact hforgot.giveUp oldest

lemma Listed.rotated (hpos : ∀ entry ∈ drained, 0 < entry.2.revision) (now : ℕ)
    (policy) :
    (needs.rotated drained now policy).Listed := by
  have hst : Listed { needs with turns := .empty } := ⟨h.nodup, h.mem_iff, h.positive⟩
  have hall := hst.reconcileAll hpos
  have hdrainedAt : (needs.drainedAt drained now).Listed := ⟨hall.nodup, hall.mem_iff, hall.positive⟩
  exact rotated_keeps (P := Listed) (fun oldest order needs hord h => h.forgetOldest hord) hdrainedAt policy

end

lemma Recalled.apply (h : needs.Recalled) (operation : Operation) : (operation.apply needs).Recalled := by
  cases operation with
  | note turn revision now =>
    change (needs.note turn revision now).Recalled
    rcases note_cases needs turn revision now with ⟨-, hnote⟩ | ⟨hmemory, hnone, hnote⟩ | ⟨-, hkn, hcases⟩
    · rwa [hnote]
    · rw [hnote]
      unfold Recalled
      rw [giveUp_memoryOverflowed, giveUp_turns, giveUp_reconciled]
      exact h
    have hset (need : Need) (hmemory : needs.memoryOverflowed) (other : TurnAuthority)
        (hoth : ((needs.turns.set turn need).get? other).isSome) :
        (needs.reconciled.get? other).isSome := by
      rw [get?_set] at hoth
      split_ifs at hoth with heq
      · rw [hmemory] at hkn
        rw [heq]
        exact hkn.resolve_left (by decide)
      · exact h hmemory other hoth
    rcases hcases with ⟨need, -, hnote⟩ | ⟨-, hnote⟩ | ⟨-, -, hnote⟩
    · rw [hnote]
      exact hset _
    · rw [hnote]
      exact h
    · rw [hnote]
      exact hset _
  | request now => exact h
  | settle turn =>
    obtain ⟨unreconciled, count, hforget⟩ :=
      forgetUnreconciled_frame { needs with turns := needs.turns.delete turn } turn
    change (needs.settle turn).Recalled
    unfold Needs.settle
    dsimp only
    rw [hforget]
    have hkept (hmemory : needs.memoryOverflowed) other
        (hoth : ((needs.turns.delete turn).get? other).isSome) :
        other ≠ turn ∧ (needs.reconciled.get? other).isSome := by
      by_cases heq : other = turn
      · rw [get?_delete, if_pos heq] at hoth
        cases hoth
      · rw [get?_delete, if_neg heq] at hoth
        exact ⟨heq, h hmemory other hoth⟩
    split_ifs
    · intro hmemory other hoth
      obtain ⟨hne, hget⟩ := hkept hmemory other hoth
      rw [get?_delete, if_neg hne]
      exact hget
    · exact fun hmemory other hoth => (hkept hmemory other hoth).2
  | rotated drained now policy =>
    intro _ other hoth
    rw [Operation.apply, (rotated_clears needs drained now policy).1] at hoth
    cases hoth

lemma Counted.apply (h : needs.Counted) (operation : Operation) : (operation.apply needs).Counted := by
  cases operation with
  | note turn revision now =>
    change (needs.note turn revision now).Counted
    rcases note_cases needs turn revision now with
      ⟨-, hnote⟩ | ⟨-, -, hnote⟩ | ⟨-, -, ⟨_, -, hnote⟩ | ⟨-, hnote⟩ | ⟨-, -, hnote⟩⟩ <;> rw [hnote]
    · exact h
    · exact h.giveUp turn
    · exact h
    · exact h
    · exact h
  | request now => exact h
  | settle turn =>
    have hst : Counted { needs with turns := needs.turns.delete turn } := h
    have hforget := hst.forgetUnreconciled turn
    unfold Operation.apply Needs.settle
    dsimp only
    split_ifs
    · exact hforget
    · exact hforget
  | rotated drained now policy => exact h.rotated drained now policy

/-- **Until it is settled, a turn that is kept stays so.** -/
theorem Kept.apply (h : needs.Kept turn revision) (hrecalled : needs.Recalled)
    (hallow : operation.Allowed needs) (hsettle : operation ≠ .settle turn) :
    (operation.apply needs).Kept turn revision := by
  cases operation with
  | note other revision' now => exact h.note other revision' now
  | request now => exact h.imp id (Or.imp id fun hgiv => ⟨hgiv.overflowed, hgiv.forgotten, hgiv.lost⟩)
  | settle other => exact h.settle fun heq => hsettle (heq ▸ rfl)
  | rotated drained now policy => exact h.rotated hrecalled hallow now policy

end Needs

/-- The revision that is noted is that of a request, so at least 1. -/
def Operation.Versioned : Operation → Prop
  | .note _ revision _ => 0 < revision
  | .request _ | .settle _ | .rotated .. => True

namespace Needs

variable {needs : Needs} {turn other : TurnAuthority} {revision now : ℕ}

/-- The reconciled turns are listed, and what is pending will be. -/
def Versioned (needs : Needs) : Prop :=
  needs.Listed ∧ ∀ turn need, needs.turns.get? turn = some need → 0 < need.revision

lemma Versioned.apply (h : needs.Versioned) (hallow : operation.Allowed needs)
    (hversioned : operation.Versioned) :
    (operation.apply needs).Versioned := by
  obtain ⟨hlist, hpend⟩ := h
  cases operation with
  | note turn revision now =>
    have hset need (hneed : 0 < need.revision) other found
        (hfound : (needs.turns.set turn need).get? other = some found) : 0 < found.revision := by
      rw [get?_set] at hfound
      split_ifs at hfound
      · cases hfound
        exact hneed
      · exact hpend other found hfound
    change (needs.note turn revision now).Versioned
    rcases note_cases needs turn revision now with
      ⟨-, hnote⟩ | ⟨-, -, hnote⟩ | ⟨-, -, ⟨need, -, hnote⟩ | ⟨-, hnote⟩ | ⟨-, -, hnote⟩⟩
    · rw [hnote]
      exact ⟨hlist, hpend⟩
    · rw [hnote]
      unfold Versioned
      rw [giveUp_turns]
      exact ⟨hlist.giveUp turn, hpend⟩
    · rw [hnote]
      refine ⟨⟨hlist.nodup, hlist.mem_iff, hlist.positive⟩, hset _ ?_⟩
      exact lt_of_lt_of_le hversioned (le_max_right _ _)
    · rw [hnote]
      exact ⟨⟨hlist.nodup, hlist.mem_iff, hlist.positive⟩, hpend⟩
    · rw [hnote]
      exact ⟨⟨hlist.nodup, hlist.mem_iff, hlist.positive⟩, hset _ hversioned⟩
  | request now => exact ⟨⟨hlist.nodup, hlist.mem_iff, hlist.positive⟩, hpend⟩
  | settle turn =>
    obtain ⟨unreconciled, count, hforget⟩ :=
      forgetUnreconciled_frame { needs with turns := needs.turns.delete turn } turn
    have hleft other need (hget : (needs.turns.delete turn).get? other = some need) : 0 < need.revision := by
      rw [get?_delete] at hget
      split_ifs at hget
      exact hpend other need hget
    unfold Operation.apply Needs.settle
    dsimp only
    rw [hforget]
    split_ifs
    · have hdelete := hlist.delete turn
      exact ⟨⟨hdelete.nodup, hdelete.mem_iff, hdelete.positive⟩, hleft⟩
    · exact ⟨⟨hlist.nodup, hlist.mem_iff, hlist.positive⟩, hleft⟩
  | rotated drained now policy =>
    refine ⟨hlist.rotated (fun entry hmem => ?_) now policy, fun other need hget => ?_⟩
    · exact hpend entry.1 entry.2 (get?_eq_some_iff.2 (hallow.mem_iff.1 hmem))
    · rw [Operation.apply, (rotated_clears needs drained now policy).1] at hget
      cases hget

/-- **What a rotation is needed for**: each pending turn since when, an overflow, a request. -/
def pendingNeeds (needs : Needs) : List (TurnAuthority × ℕ) × Option ℕ × Option ℕ :=
  (needs.turns.entries.map fun entry => (entry.1, entry.2.since), needs.overflowedSince, needs.requestedSince)

lemma oldest_congr {needs needs' : Needs} (h : needs.pendingNeeds = needs'.pendingNeeds) :
    needs.oldest = needs'.oldest := by
  obtain ⟨htrn, hrest⟩ := Prod.mk.inj h
  obtain ⟨hover, hrequested⟩ := Prod.mk.inj hrest
  have hsince : needs.turns.values.map Need.since = needs'.turns.values.map Need.since := by
    have hsnd := congrArg (List.map Prod.snd) htrn
    rw [List.map_map, List.map_map] at hsnd
    unfold OrderedMap.values
    rw [List.map_map, List.map_map]
    exact hsnd
  unfold oldest
  rw [hsince, hover, hrequested]

/-- **A turn that is kept asks for no rotation when it is noted again.** -/
theorem Kept.note_pendingNeeds (h : needs.Kept turn revision) {revision'}
    (hle : revision' ≤ revision) (now : ℕ) :
    (needs.note turn revision' now).pendingNeeds = needs.pendingNeeds ∧
      (needs.note turn revision' now).lastRotation = needs.lastRotation := by
  have hnew (hpend : needs.turns.get? turn = none) (hno : ¬ needs.Reconciled turn revision')
      (hkn : needs.memoryOverflowed = false ∨ (needs.reconciled.get? turn).isSome) : False := by
    rcases h with ⟨need, hget, -⟩ | ⟨known, hget, hkn⟩ | hgiv
    · rw [hget] at hpend
      cases hpend
    · exact hno ⟨known, hget, by omega⟩
    · rw [hgiv.overflowed, hgiv.forgotten] at hkn
      simp at hkn
  rcases note_cases needs turn revision' now with
    ⟨-, hnote⟩ | ⟨-, -, hnote⟩ | ⟨hno, hkn, ⟨need, hget, hnote⟩ | ⟨hfull, -⟩ | ⟨hget, -, -⟩⟩
  · rw [hnote]
    exact ⟨rfl, rfl⟩
  · rw [hnote, giveUp_lastRotation]
    unfold pendingNeeds
    rw [giveUp_turns, giveUp_overflowedSince, giveUp_requestedSince]
    exact ⟨rfl, rfl⟩
  · rw [hnote]
    have htrn : (needs.turns.set turn { need with revision := max need.revision revision' }).entries.map
        (fun entry => (entry.1, entry.2.since)) =
        needs.turns.entries.map fun entry => (entry.1, entry.2.since) :=
      map_entries_set _ hget rfl
    exact ⟨Prod.ext htrn rfl, rfl⟩
  · exact absurd hkn (hnew hfull.new hno)
  · exact absurd hkn (hnew hget hno)

lemma dueAt_congr {needs needs' : Needs} (h : needs.pendingNeeds = needs'.pendingNeeds)
    (hlast : needs.lastRotation = needs'.lastRotation) (policy) :
    needs.dueAt policy = needs'.dueAt policy := by
  unfold dueAt
  rw [oldest_congr h, hlast]

lemma overflowedSince_apply (h : needs.overflowedSince.isSome)
    (hrot : operation.isRotation = false) :
    (operation.apply needs).overflowedSince = needs.overflowedSince := by
  cases operation with
  | note turn revision now =>
    change (needs.note turn revision now).overflowedSince = _
    rcases note_cases needs turn revision now with
      ⟨-, hnote⟩ | ⟨-, -, hnote⟩ | ⟨-, -, ⟨_, -, hnote⟩ | ⟨-, hnote⟩ | ⟨-, -, hnote⟩⟩
    · rw [hnote]
    · rw [hnote, giveUp_overflowedSince]
    · rw [hnote]
    · rw [hnote]
      exact or_of_isSome h
    · rw [hnote]
  | request now => rfl
  | settle turn =>
    obtain ⟨unreconciled, count, hforget⟩ :=
      forgetUnreconciled_frame { needs with turns := needs.turns.delete turn } turn
    unfold Operation.apply Needs.settle
    dsimp only
    rw [hforget]
    split_ifs <;> rfl
  | rotated drained now policy => cases hrot

lemma FindsFull.overflowedSince_isSome (h : needs.FindsFull turn revision) (now : ℕ) :
    (needs.note turn revision now).overflowedSince.isSome := by
  rcases note_cases needs turn revision now with
    ⟨hno, -⟩ | ⟨hmemory, hnone, -⟩ | ⟨-, -, ⟨_, hget, -⟩ | ⟨-, hnote⟩ | ⟨-, hroom, -⟩⟩
  · exact absurd hno h.unreconciled
  · have := h.remembered
    simp [hmemory, hnone] at this
  · rw [h.new] at hget
    cases hget
  · rw [hnote, isSome_or]
    simp
  · have := h.full
    omega

end Needs

open Needs in
/-- **Abandonment tracking loses nothing and does not spin**: turns given up are counted, reconciled
ones listed once. -/
theorem abandonment_loses_nothing {operations : List Operation} {needs : Needs}
    (h : Reaches Tracks .start operations needs) :
    needs.unreconciledTurns = needs.unreconciled.total Finset.card ∧
    ((∀ operation ∈ operations, operation.Versioned) → needs.reconciledOrder.Nodup ∧
      ∀ turn, turn ∈ needs.reconciledOrder ↔ turn ∈ needs.reconciled.keys) ∧
    ∀ turn revision now after later, Reaches Tracks (needs.note turn revision now) after later →
      .settle turn ∉ after →
      (¬ needs.FindsFull turn revision →
        (later.Pending turn revision ∨ later.Reconciled turn revision ∨
          later.lostHistory turn.scope turn.key.threadId) ∧
        ∀ revision' ≤ revision, ∀ now',
          (later.note turn revision' now').pendingNeeds = later.pendingNeeds ∧
          ∀ policy, (later.note turn revision' now').dueAt policy = later.dueAt policy) ∧
      (needs.FindsFull turn revision → (∀ operation ∈ after, operation.isRotation = false) →
        later.overflowedSince.isSome ∧
        later.overflowedSince = (needs.note turn revision now).overflowedSince) := by
  have hcount : needs.Counted := h.invariant (fun _ _ _ hs hstep => by
    obtain ⟨operation, -⟩ := hstep
    exact hs.apply operation) (rfl : Counted .start)
  have hrecalled : needs.Recalled := h.invariant (fun _ _ _ hs hstep => by
    obtain ⟨operation, -⟩ := hstep
    exact hs.apply operation) (nofun)
  refine ⟨hcount, fun hversioned => ?_, fun turn revision now after later hafter hsettle =>
    ⟨fun hroom => ?_, fun hfull hrot => ?_⟩⟩
  · have hlist := h.invariant_of (P := Needs.Versioned) (Q := Operation.Versioned)
      (fun _ _ _ hall hs hstep => by
        obtain ⟨operation, hallow⟩ := hstep
        exact hs.apply hallow (hall operation (mem_singleton_self _)))
      hversioned ⟨⟨nodup_nil, fun _ => by simp [Needs.start], nofun⟩, nofun⟩
    exact ⟨hlist.1.nodup, fun turn => (hlist.1.mem_iff turn).trans mem_keys_iff.symm⟩
  · have hkept := (note_kept needs turn revision now).resolve_right hroom
    obtain ⟨hlater, -⟩ := hafter.invariant_of (P := fun s => s.Kept turn revision ∧ s.Recalled)
      (Q := (· ≠ .settle turn))
      (fun _ _ _ hall hs hstep => by
        obtain ⟨operation, hallow⟩ := hstep
        have hne := hall operation (mem_singleton_self _)
        exact ⟨hs.1.apply hs.2 hallow hne, hs.2.apply operation⟩)
      (fun operation hmem heq => hsettle (heq ▸ hmem))
      ⟨hkept, hrecalled.apply (.note turn revision now)⟩
    refine ⟨hlater.imp id (Or.imp id fun hgiven => hgiven.lost.lostHistory), fun revision' hle now' => ?_⟩
    obtain ⟨hneeds, hlast⟩ := hlater.note_pendingNeeds hle now'
    exact ⟨hneeds, dueAt_congr hneeds hlast⟩
  · have hfirst := hfull.overflowedSince_isSome now
    have hlater := hafter.invariant_of
      (P := fun s => s.overflowedSince = (needs.note turn revision now).overflowedSince)
      (Q := fun operation => operation.isRotation = false)
      (fun _ _ _ hall hs hstep => by
        obtain ⟨operation, -⟩ := hstep
        have hrot := hall operation (mem_singleton_self _)
        exact (overflowedSince_apply (hs ▸ hfirst) hrot).trans hs)
      hrot rfl
    exact ⟨hlater ▸ hfirst, hlater⟩

/-- The same turn in each incarnation. -/
def abandonedTurn (incarnation : ℕ) : TurnAuthority :=
  ⟨⟨"/a", "agent-root:/a"⟩, ⟨"thread-1", "turn-1"⟩, incarnation⟩

/-- The hypotheses are met by a turn that is noted and then reconciled by a rotation. -/
theorem abandonment_loses_nothing_once :
    let later := (Needs.start.note (abandonedTurn 0) 3 0).rotated [(abandonedTurn 0, ⟨0, 3⟩)] 30 default
    (later.Pending (abandonedTurn 0) 3 ∨ later.Reconciled (abandonedTurn 0) 3 ∨
      later.lostHistory (abandonedTurn 0).scope (abandonedTurn 0).key.threadId) ∧
    ∀ revision' ≤ 3, ∀ now', (later.note (abandonedTurn 0) revision' now').pendingNeeds =
        later.pendingNeeds ∧
      ∀ policy, (later.note (abandonedTurn 0) revision' now').dueAt policy = later.dueAt policy := by
  have hrun : Reaches Tracks (Needs.start.note (abandonedTurn 0) 3 0)
      [.rotated [(abandonedTurn 0, ⟨0, 3⟩)] 30 default]
      ((Needs.start.note (abandonedTurn 0) 3 0).rotated [(abandonedTurn 0, ⟨0, 3⟩)] 30 default) :=
    .single (.op _ (.rotated [(abandonedTurn 0, ⟨0, 3⟩)] 30 default) (.refl _))
  have hroom : ¬ Needs.start.FindsFull (abandonedTurn 0) 3 := fun h => by
    have := h.full
    revert this
    decide
  exact ((abandonment_loses_nothing (.refl Needs.start)).2.2 (abandonedTurn 0) 3 0 _ _ hrun (by simp)).1 hroom

/-- So many incarnations of a turn, noted one after the other. -/
def crowd (size : ℕ) : List Operation :=
  (List.range size).map fun incarnation => .note (abandonedTurn incarnation) 1 0

lemma crowd_pending {size} (h : size ≤ maxAbandonedTurns) :
    ∃ turns : OrderedMap TurnAuthority Need,
      turns.entries = ((List.range size).map fun incarnation => (abandonedTurn incarnation, ⟨0, 1⟩)) ∧
      Reaches Tracks .start (crowd size) { Needs.start with turns := turns } := by
  induction size with
  | zero => exact ⟨.empty, rfl, .refl _⟩
  | succ size ih =>
    obtain ⟨turns, hents, hrun⟩ := ih (by omega)
    have hnew : turns.get? (abandonedTurn size) = none := by
      rw [get?_eq_none_iff]
      intro hmem
      obtain ⟨entry, hent, heq⟩ := mem_map.1 hmem
      rw [hents] at hent
      obtain ⟨incarnation, hincarn, rfl⟩ := mem_map.1 hent
      have hlt := mem_range.1 hincarn
      have : incarnation = size := congrArg TurnAuthority.incarnation heq
      omega
    have hsize : turns.size = size := by
      rw [OrderedMap.size, hents, length_map, length_range]
    refine ⟨turns.set (abandonedTurn size) ⟨0, 1⟩, ?_, ?_⟩
    · rw [entries_set_of_not_has (get?_eq_none_iff.1 hnew), hents,
        range_succ, map_append]
      rfl
    · have hlast : Tracks { Needs.start with turns := turns } [.note (abandonedTurn size) 1 0]
          (Operation.apply { Needs.start with turns := turns } (.note (abandonedTurn size) 1 0)) :=
        .op _ _ trivial
      have hnote : Operation.apply { Needs.start with turns := turns } (.note (abandonedTurn size) 1 0) =
          { Needs.start with turns := turns.set (abandonedTurn size) ⟨0, 1⟩ } := by
        rcases Needs.note_cases { Needs.start with turns := turns } (abandonedTurn size) 1 0 with
          ⟨⟨_, hget, -⟩, -⟩ | ⟨hmemory, -⟩ | ⟨-, -, ⟨_, hget, -⟩ | ⟨hfull, -⟩ | ⟨-, -, hnote⟩⟩
        · cases hget
        · cases hmemory
        · rw [hnew] at hget
          cases hget
        · have : maxAbandonedTurns ≤ turns.size := hfull.full
          omega
        · exact hnote
      have hall := hrun.trans (.single hlast)
      rw [hnote] at hall
      unfold crowd at hall ⊢
      rwa [range_succ, map_append]

lemma Needs.length_reconcileAll (needs : Needs) (drained) :
    (needs.reconcileAll drained).reconciledOrder.length ≤ needs.reconciledOrder.length + drained.length := by
  induction drained generalizing needs with
  | nil => exact Nat.le_add_right _ _
  | cons entry drained ih =>
    have hrest := ih (needs.reconcile entry.1 entry.2.revision)
    have hone : (needs.reconcile entry.1 entry.2.revision).reconciledOrder.length ≤
        needs.reconciledOrder.length + 1 := by
      unfold Needs.reconcile
      dsimp only
      split_ifs
      · rw [length_append, length_singleton]
      · omega
    rw [length_cons]
    change ((needs.reconcile entry.1 entry.2.revision).reconcileAll drained).reconciledOrder.length ≤ _
    omega

lemma Needs.forgetBeyond_of_le {limit} (needs : Needs) (h : order.length ≤ limit) :
    Needs.forgetBeyond limit order needs = needs := by
  cases order with
  | nil => rfl
  | cons oldest order =>
    unfold Needs.forgetBeyond
    rw [if_neg (by omega)]

/-- A turn that finds the pending ones too many is forgotten by the next rotation. -/
theorem overflowed_turn_forgotten :
    ¬ ∀ operations needs, Reaches Tracks .start operations needs →
      ∀ turn revision now after later, Reaches Tracks (needs.note turn revision now) after later →
        .settle turn ∉ after →
        later.Pending turn revision ∨ later.Reconciled turn revision ∨
          later.lostHistory turn.scope turn.key.threadId ∨ later.overflowedSince.isSome := by
  intro hclaim
  obtain ⟨turns, hents, hrun⟩ := crowd_pending (Nat.le_refl maxAbandonedTurns)
  have hsize : turns.size = maxAbandonedTurns := by
    rw [OrderedMap.size, hents, length_map, length_range]
  have hlast : abandonedTurn maxAbandonedTurns ∉ turns.entries.map Prod.fst := by
    rw [hents, List.map_map]
    intro hmem
    obtain ⟨incarnation, hincarn, heq⟩ := List.mem_map.1 hmem
    have hlt := mem_range.1 hincarn
    have : incarnation = maxAbandonedTurns := congrArg TurnAuthority.incarnation heq
    omega
  have hnote : ({ Needs.start with turns := turns } : Needs).note (abandonedTurn maxAbandonedTurns) 1 0 =
      { Needs.start with turns := turns, overflowedSince := some 0 } := by
    rcases Needs.note_cases { Needs.start with turns := turns } (abandonedTurn maxAbandonedTurns) 1 0 with
      ⟨⟨_, hget, -⟩, -⟩ | ⟨hmemory, -⟩ | ⟨-, -, ⟨_, hget, -⟩ | ⟨-, hnote⟩ | ⟨-, hroom, -⟩⟩
    · cases hget
    · cases hmemory
    · have hnone := get?_eq_none_iff.2 hlast
      rw [hnone] at hget
      cases hget
    · exact hnote
    · change turns.size < maxAbandonedTurns at hroom
      omega
  have hrotated : Tracks { Needs.start with turns := turns, overflowedSince := some 0 }
      [.rotated turns.entries 30 default]
      (Needs.rotated { Needs.start with turns := turns, overflowedSince := some 0 } turns.entries 30 default) :=
    .op _ (.rotated turns.entries 30 default) (.refl _)
  have hleft := hclaim _ _ hrun (abandonedTurn maxAbandonedTurns) 1 0
    [.rotated turns.entries 30 default] _ (by rw [hnote]; exact .single hrotated) (by simp)
  obtain ⟨hturns, hover⟩ := Needs.rotated_clears
    { Needs.start with turns := turns, overflowedSince := some 0 } turns.entries 30 default
  -- the rotation reconciles fewer turns than are remembered, so it forgets none
  have hall : Needs.rotated { Needs.start with turns := turns, overflowedSince := some 0 } turns.entries
      30 default =
      Needs.drainedAt { Needs.start with turns := turns, overflowedSince := some 0 } turns.entries 30 := by
    refine Needs.forgetBeyond_of_le _ ?_
    have hlen := Needs.length_reconcileAll
      { Needs.start with turns := .empty, overflowedSince := some 0 } turns.entries
    have hentriesLength : turns.entries.length = 1024 := hsize
    rw [hentriesLength] at hlen
    exact hlen.trans (by decide)
  have hnone := Needs.reconcileAll_none
    (rfl : ({ Needs.start with turns := .empty, overflowedSince := some 0 } : Needs).reconciled.get?
      (abandonedTurn maxAbandonedTurns) = none) hlast
  obtain ⟨reconciled, order, hframe⟩ := Needs.reconcileAll_frame
    { Needs.start with turns := .empty, overflowedSince := some 0 } turns.entries
  rcases hleft with ⟨need, hget, -⟩ | ⟨known, hget, -⟩ | hlost | hoverflow
  · rw [hturns] at hget
    cases hget
  · rw [hall] at hget
    exact absurd (hnone.symm.trans hget) (by simp)
  · rw [hall] at hlost
    unfold Needs.drainedAt at hlost
    rw [hframe] at hlost
    cases hlost
  · rw [hover] at hoverflow
    cases hoverflow

end CodevoEditor.RuntimeRequests
