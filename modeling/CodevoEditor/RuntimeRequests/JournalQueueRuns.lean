/-
# What the queue of the journal keeps

The counters of the queue are the sums over its slots and stay within their limits
(`Queue.Balanced`), so that nothing is ever taken from a counter that is not in it.
-/

import CodevoEditor.RuntimeRequests.JournalQueue

namespace CodevoEditor.RuntimeRequests

open Js Runs List Option OrderedMap Function

variable {Raw : Type}

lemma Slot.eq_vacant {slot : Slot Raw} (h : slot.isIdle) : slot = .vacant := by
  obtain ⟨latest, answers⟩ := slot
  obtain ⟨hlast, hans⟩ := (Bool.and_eq_true _ _).mp h
  obtain rfl : latest = none := isNone_iff_eq_none.1 hlast
  obtain rfl : answers = 0 := of_decide_eq_true hans
  rfl

namespace Slot

def turns (slot : Slot Raw) : ℕ := (slot.latest.map fun queued => if queued.digest then 0 else 1).getD 0

def digests (slot : Slot Raw) : ℕ :=
  (slot.latest.map fun queued => if queued.digest then 1 else 0).getD 0

def bytes (slot : Slot Raw) : ℕ :=
  (slot.latest.map fun queued => if queued.digest then 0 else queued.bytes).getD 0

end Slot

namespace Queue

variable {queue : Queue Raw} {key other : TurnAuthority}

lemma waiting_eq (queue : Queue Raw) (key : TurnAuthority) : queue.waiting key = (queue.slotOf key).latest := by
  unfold waiting slotOf
  cases queue.slots.get? key <;> rfl

lemma slotOf_set (queue : Queue Raw) (key : TurnAuthority) (slot : Slot Raw) (other : TurnAuthority) :
    ((queue.slots.set key slot).get? other).getD .vacant =
      if other = key then slot else queue.slotOf other := by
  rw [get?_set]
  split_ifs <;> rfl

lemma total_set_slot {f : Slot Raw → ℕ} (hvacant : f .vacant = 0) (queue : Queue Raw)
    (key : TurnAuthority) (slot : Slot Raw) :
    (queue.slots.set key slot).total f + f (queue.slotOf key) = queue.slots.total f + f slot := by
  rw [total_set]
  unfold slotOf
  cases hget : queue.slots.get? key with
  | none =>
    rw [delete_of_get?_none hget, getD_none, hvacant]
    omega
  | some found =>
    rw [total_of_get? f hget, getD_some]
    omega

lemma get?_dropIdleSlots (queue : Queue Raw) (key : TurnAuthority) :
    queue.dropIdleSlots.slots.get? key = (queue.slots.get? key).filter fun slot => !slot.isIdle := by
  refine Option.ext fun slot => ?_
  rw [get?_eq_some_iff, filter_eq_some_iff, get?_eq_some_iff]
  exact mem_filter

@[simp] lemma slotOf_dropIdleSlots (queue : Queue Raw) (key : TurnAuthority) :
    queue.dropIdleSlots.slotOf key = queue.slotOf key := by
  unfold slotOf
  rw [get?_dropIdleSlots]
  cases queue.slots.get? key with
  | none => rfl
  | some slot =>
    cases hidle : slot.isIdle with
    | false => rw [filter_some_pos (by rw [hidle]; rfl)]
    | true =>
      rw [filter_some_neg (by rw [hidle]; decide), getD_none, getD_some]
      exact (Slot.eq_vacant hidle).symm

lemma total_dropIdleSlots {f : Slot Raw → ℕ} (hvacant : f .vacant = 0) (queue : Queue Raw) :
    queue.dropIdleSlots.slots.total f = queue.slots.total f := by
  unfold dropIdleSlots OrderedMap.total
  dsimp only
  induction queue.slots.entries with
  | nil => rfl
  | cons entry entries ih =>
    rw [filter_cons]
    cases hidle : entry.2.isIdle with
    | false =>
      rw [if_pos (by rfl), map_cons, sum_cons, map_cons, sum_cons, ih]
    | true =>
      rw [if_neg (by decide), map_cons, sum_cons, ih, Slot.eq_vacant hidle, hvacant]
      omega

/-- **The counters are the sums over the slots, within their limits.** -/
structure Balanced (queue : Queue Raw) : Prop where
  turns_eq : queue.queuedTurns = queue.slots.total Slot.turns
  digests_eq : queue.queuedDigests = queue.slots.total Slot.digests
  bytes_eq : queue.queuedBytes = queue.slots.total Slot.bytes
  turns_le : queue.queuedTurns ≤ queue.limits.queuedTurns
  digests_le : queue.queuedDigests ≤ queue.limits.queuedDigests
  bytes_le : queue.queuedBytes ≤ queue.limits.queuedBytes

lemma Balanced.new (limits) : (Queue.new limits : Queue Raw).Balanced :=
  ⟨rfl, rfl, rfl, Nat.zero_le _, Nat.zero_le _, Nat.zero_le _⟩

lemma Balanced.congr {other : Queue Raw} (h : queue.Balanced) (hsl : other.slots = queue.slots)
    (hlimits : other.limits = queue.limits) (htrn : other.queuedTurns = queue.queuedTurns)
    (hdigests : other.queuedDigests = queue.queuedDigests)
    (hby : other.queuedBytes = queue.queuedBytes) : other.Balanced := by
  refine ⟨?_, ?_, ?_, ?_, ?_, ?_⟩
  · rw [htrn, hsl, h.turns_eq]
  · rw [hdigests, hsl, h.digests_eq]
  · rw [hby, hsl, h.bytes_eq]
  · rw [htrn, hlimits]
    exact h.turns_le
  · rw [hdigests, hlimits]
    exact h.digests_le
  · rw [hby, hlimits]
    exact h.bytes_le

lemma Balanced.dropIdleSlots (h : queue.Balanced) : queue.dropIdleSlots.Balanced := by
  refine ⟨?_, ?_, ?_, h.turns_le, h.digests_le, h.bytes_le⟩
  · rw [total_dropIdleSlots rfl]
    exact h.turns_eq
  · rw [total_dropIdleSlots rfl]
    exact h.digests_eq
  · rw [total_dropIdleSlots rfl]
    exact h.bytes_eq

lemma Balanced.set_answers (h : queue.Balanced) (key : TurnAuthority) (answers : ℕ) :
    Balanced { queue with slots := queue.slots.set key ((queue.slotOf key).answering answers) } := by
  have htrn := total_set_slot (f := Slot.turns) rfl queue key ((queue.slotOf key).answering answers)
  have hdigests := total_set_slot (f := Slot.digests) rfl queue key ((queue.slotOf key).answering answers)
  have hby := total_set_slot (f := Slot.bytes) rfl queue key ((queue.slotOf key).answering answers)
  refine ⟨h.turns_eq.trans ?_, h.digests_eq.trans ?_, h.bytes_eq.trans ?_, h.turns_le, h.digests_le, h.bytes_le⟩
  · exact Nat.add_right_cancel htrn.symm
  · exact Nat.add_right_cancel hdigests.symm
  · exact Nat.add_right_cancel hby.symm

lemma Balanced.covers (h : queue.Balanced) {taken}
    (hwait : queue.waiting key = some taken) :
    if taken.digest then 1 ≤ queue.queuedDigests
    else 1 ≤ queue.queuedTurns ∧ taken.bytes ≤ queue.queuedBytes := by
  obtain ⟨slot, hget, hlast⟩ := bind_eq_some_iff.1 hwait
  have htrn := le_total Slot.turns hget
  have hdigests := le_total Slot.digests hget
  have hby := le_total Slot.bytes hget
  unfold Slot.turns at htrn
  unfold Slot.digests at hdigests
  unfold Slot.bytes at hby
  rw [hlast, map_some, getD_some] at htrn hdigests hby
  rw [h.digests_eq, h.turns_eq, h.bytes_eq]
  split_ifs with hdigest
  · rwa [if_pos hdigest] at hdigests
  · rw [if_neg hdigest] at htrn hby
    exact ⟨htrn, hby⟩

lemma take_none (h : queue.waiting key = none) : queue.take key = (none, queue) := by
  unfold take
  rw [h]

lemma take_some {taken} (h : queue.waiting key = some taken) :
    queue.take key = (some taken,
      { queue with slots := queue.slots.set key (queue.slotOf key).cleared }.discount taken) := by
  unfold take
  rw [h]

lemma take_fst (queue : Queue Raw) (key : TurnAuthority) : (queue.take key).1 = queue.waiting key := by
  cases h : queue.waiting key with
  | none => rw [take_none h]
  | some taken => rw [take_some h]

lemma take_limits (queue : Queue Raw) (key : TurnAuthority) : (queue.take key).2.limits = queue.limits := by
  cases h : queue.waiting key with
  | none => rw [take_none h]
  | some taken =>
    rw [take_some h]
    unfold discount
    split_ifs <;> rfl

lemma slotOf_take (queue : Queue Raw) (key other : TurnAuthority) :
    (queue.take key).2.slotOf other =
      if other = key then (queue.slotOf key).cleared else queue.slotOf other := by
  cases h : queue.waiting key with
  | none =>
    rw [take_none h]
    rw [waiting_eq] at h
    split_ifs with heq
    · unfold Slot.cleared
      rw [heq, ← h]
    · rfl
  | some taken =>
    have hsl : (queue.take key).2.slots = queue.slots.set key (queue.slotOf key).cleared := by
      rw [take_some h]
      unfold discount
      split_ifs <;> rfl
    have hset := slotOf_set queue key (queue.slotOf key).cleared other
    rw [← hsl] at hset
    exact hset

lemma Balanced.take (h : queue.Balanced) (key : TurnAuthority) : (queue.take key).2.Balanced := by
  cases hwait : queue.waiting key with
  | none =>
    rw [take_none hwait]
    exact h
  | some taken =>
    have hcover := h.covers hwait
    have hlast := hwait
    rw [waiting_eq] at hlast
    have htrn := total_set_slot (f := Slot.turns) rfl queue key (queue.slotOf key).cleared
    have hdigests := total_set_slot (f := Slot.digests) rfl queue key (queue.slotOf key).cleared
    have hby := total_set_slot (f := Slot.bytes) rfl queue key (queue.slotOf key).cleared
    have hslot : (queue.slotOf key).turns = (if taken.digest then 0 else 1) ∧
        (queue.slotOf key).digests = (if taken.digest then 1 else 0) ∧
        (queue.slotOf key).bytes = (if taken.digest then 0 else taken.bytes) := by
      unfold Slot.turns Slot.digests Slot.bytes
      rw [hlast]
      exact ⟨rfl, rfl, rfl⟩
    rw [hslot.1] at htrn
    rw [hslot.2.1] at hdigests
    rw [hslot.2.2] at hby
    change _ = _ + 0 at htrn hdigests hby
    have := h.turns_eq
    have := h.digests_eq
    have := h.bytes_eq
    have := h.turns_le
    have := h.digests_le
    have := h.bytes_le
    rw [take_some hwait]
    unfold discount
    split_ifs at hcover htrn hdigests hby ⊢
    · constructor <;> dsimp only <;> omega
    · constructor <;> dsimp only <;> omega

lemma slotOf_place (queue : Queue Raw) (key : TurnAuthority) (queued)
    (other : TurnAuthority) : (queue.place key queued).slotOf other =
      if other = key then (queue.slotOf key).filled queued else queue.slotOf other :=
  slotOf_set queue key ((queue.slotOf key).filled queued) other

variable {queued : QueuedSnapshot Raw}

lemma Balanced.place (h : queue.Balanced) (hemp : queue.waiting key = none)
    (hfits : queue.fits queued) :
    (queue.place key queued).Balanced := by
  rw [waiting_eq] at hemp
  have htrn := total_set_slot (f := Slot.turns) rfl queue key ((queue.slotOf key).filled queued)
  have hdigests := total_set_slot (f := Slot.digests) rfl queue key ((queue.slotOf key).filled queued)
  have hby := total_set_slot (f := Slot.bytes) rfl queue key ((queue.slotOf key).filled queued)
  have hslot : (queue.slotOf key).turns = 0 ∧ (queue.slotOf key).digests = 0 ∧ (queue.slotOf key).bytes = 0 := by
    unfold Slot.turns Slot.digests Slot.bytes
    rw [hemp]
    exact ⟨rfl, rfl, rfl⟩
  change _ = _ + (if queued.digest then 0 else 1) at htrn
  change _ = _ + (if queued.digest then 1 else 0) at hdigests
  change _ = _ + (if queued.digest then 0 else queued.bytes) at hby
  have := h.turns_eq
  have := h.digests_eq
  have := h.bytes_eq
  have := h.turns_le
  have := h.digests_le
  have := h.bytes_le
  unfold fits at hfits
  unfold Queue.place
  split_ifs at htrn hdigests hby hfits ⊢
  · have hroom := of_decide_eq_true hfits
    constructor <;> dsimp only <;> omega
  · obtain ⟨hroom, hsize⟩ := (Bool.and_eq_true _ _).mp hfits
    have hroom := of_decide_eq_true hroom
    have hsize := of_decide_eq_true hsize
    constructor <;> dsimp only <;> omega

lemma slotOf_hold (queue : Queue Raw) (key other : TurnAuthority) :
    (queue.hold key).slotOf other =
      if other = key then (queue.slotOf key).answering ((queue.slotOf key).answersInFlight + 1)
      else queue.slotOf other :=
  slotOf_set queue key _ other

lemma slotOf_release {slot} (h : queue.slots.get? key = some slot)
    (other : TurnAuthority) : (queue.release key).slotOf other =
      if other = key then (queue.slotOf key).answering ((queue.slotOf key).answersInFlight - 1)
      else queue.slotOf other := by
  have hslot : queue.slotOf key = slot := by rw [slotOf, h, getD_some]
  unfold release
  rw [slotOf_dropIdleSlots, h, hslot]
  exact slotOf_set queue key _ other

lemma limits_release (queue : Queue Raw) (key : TurnAuthority) : (queue.release key).limits = queue.limits := by
  unfold release
  cases queue.slots.get? key <;> rfl

lemma Balanced.release (h : queue.Balanced) (key) : (queue.release key).Balanced := by
  unfold Queue.release
  cases hget : queue.slots.get? key with
  | none => exact h.dropIdleSlots
  | some slot =>
    have hslot : queue.slotOf key = slot := by rw [slotOf, hget, getD_some]
    have hset := h.set_answers key (slot.answersInFlight - 1)
    rw [hslot] at hset
    exact hset.dropIdleSlots

/-! ### Offers -/

/-- What an offer to one turn leaves as it was. -/
structure SameBut (queue after : Queue Raw) (key : TurnAuthority) : Prop where
  limits_eq : after.limits = queue.limits
  answers_eq : ∀ other, (after.slotOf other).answersInFlight = (queue.slotOf other).answersInFlight
  waiting_eq : ∀ other ≠ key, after.waiting other = queue.waiting other

lemma SameBut.refl (queue : Queue Raw) (key : TurnAuthority) : queue.SameBut queue key :=
  ⟨rfl, fun _ => rfl, fun _ _ => rfl⟩

lemma SameBut.trans {middle after} (h : queue.SameBut middle key)
    (h' : middle.SameBut after key) : queue.SameBut after key where
  limits_eq := h'.limits_eq.trans h.limits_eq
  answers_eq := fun other => (h'.answers_eq other).trans (h.answers_eq other)
  waiting_eq := fun other hne => (h'.waiting_eq other hne).trans (h.waiting_eq other hne)

lemma sameBut_take (queue : Queue Raw) (key : TurnAuthority) : queue.SameBut (queue.take key).2 key := by
  refine ⟨take_limits queue key, fun other => ?_, fun other hne => ?_⟩
  · rw [slotOf_take]
    split_ifs with heq
    · rw [heq]
      rfl
    · rfl
  · rw [waiting_eq, slotOf_take, if_neg hne, waiting_eq]

lemma sameBut_place (queue : Queue Raw) (key : TurnAuthority) (queued) :
    queue.SameBut (queue.place key queued) key := by
  refine ⟨rfl, fun other => ?_, fun other hne => ?_⟩
  · rw [slotOf_place]
    split_ifs with heq
    · rw [heq]
      rfl
    · rfl
  · rw [waiting_eq, slotOf_place, if_neg hne, waiting_eq]

lemma waiting_dropIdleSlots (queue : Queue Raw) (key : TurnAuthority) :
    queue.dropIdleSlots.waiting key = queue.waiting key := by
  rw [waiting_eq, slotOf_dropIdleSlots, waiting_eq]

lemma sameBut_dropIdleSlots (queue : Queue Raw) (key : TurnAuthority) : queue.SameBut queue.dropIdleSlots key := by
  refine ⟨rfl, fun other => ?_, fun other _ => ?_⟩
  · rw [slotOf_dropIdleSlots]
  · exact waiting_dropIdleSlots queue other

lemma waiting_take (queue : Queue Raw) (key : TurnAuthority) : (queue.take key).2.waiting key = none := by
  rw [waiting_eq, slotOf_take, if_pos rfl]
  rfl

lemma waiting_place (queue : Queue Raw) (key : TurnAuthority) (queued) :
    (queue.place key queued).waiting key = some queued := by
  rw [waiting_eq, slotOf_place, if_pos rfl]
  rfl

/-- What waits is not as new as an offer. -/
def OlderThan (queue : Queue Raw) (key : TurnAuthority) (sequence : ℕ) : Prop :=
  ∀ waiting, queue.waiting key = some waiting → waiting.sequence < sequence

lemma offer_of_not_olderThan
    (h : ¬ queue.OlderThan key queued.sequence) : queue.offer key queued = (.superseded, queue) := by
  unfold OlderThan at h
  push Not at h
  obtain ⟨waiting, hwait, hnew⟩ := h
  unfold offer
  rw [hwait, if_pos (by rw [any_some]; exact decide_eq_true hnew)]

lemma offer_of_olderThan (h : queue.OlderThan key queued.sequence) :
    queue.offer key queued =
      if (queue.take key).2.fits (merged (queue.waiting key) queued) then
        (.queued, (queue.take key).2.place key (merged (queue.waiting key) queued))
      else (.full (merged (queue.waiting key) queued), (queue.take key).2.dropIdleSlots) := by
  have hany : ¬ (queue.waiting key).any (queued.sequence ≤ ·.sequence) := by
    intro hany
    obtain ⟨waiting, hwait, hnew⟩ := (any_eq_true _ _).mp hany
    have hold := h waiting hwait
    have hnew := of_decide_eq_true hnew
    omega
  unfold offer
  rw [if_neg hany]
  dsimp only
  rw [take_fst]

lemma merged_sequence (replaced : Option (QueuedSnapshot Raw)) (queued : QueuedSnapshot Raw) :
    (merged replaced queued).sequence = queued.sequence := by
  cases replaced <;> rfl

/-- **What becomes of an offer**: it is superseded by what waits, it waits from now on, or
the turn has nothing that waits. -/
inductive Arrival (queue : Queue Raw) (key : TurnAuthority) (queued : QueuedSnapshot Raw) :
    Enqueued → Queue Raw → Prop
  | superseded (new : ¬ queue.OlderThan key queued.sequence) :
    Arrival queue key queued .superseded queue
  | waits (outcome : Enqueued) (after : Queue Raw) (placed : QueuedSnapshot Raw)
    (accepted : outcome = .queued ∨ outcome = .digested)
    (older : queue.OlderThan key queued.sequence)
    (waiting : after.waiting key = some placed)
    (sequence_eq : placed.sequence = queued.sequence)
    (first_eq : placed.firstObservedAtEpochMs = (merged (queue.waiting key) queued).firstObservedAtEpochMs)
    (same : queue.SameBut after key) :
    Arrival queue key queued outcome after
  | dropped (after : Queue Raw) (waiting : after.waiting key = none) (same : queue.SameBut after key) :
    Arrival queue key queued .dropped after

lemma Arrival.same {outcome} {after} (h : queue.Arrival key queued outcome after) : queue.SameBut after key := by
  rcases h with ⟨-⟩ | ⟨_, _, _, _, _, _, _, _, hsame⟩ | ⟨_, _, hsame⟩
  · exact .refl queue key
  · exact hsame
  · exact hsame

lemma Arrival.monotone {queued waiting placed} {outcome}
    {after} (h : queue.Arrival key queued outcome after)
    (hwait : queue.waiting key = some waiting) (hpl : after.waiting key = some placed) :
    waiting.sequence ≤ placed.sequence := by
  rcases h with ⟨-⟩ | ⟨_, _, found, -, holder, hget, hseq, -, -⟩ | ⟨_, hnone, -⟩
  · obtain rfl : waiting = placed := some.inj (hwait.symm.trans hpl)
    exact le_rfl
  · obtain rfl : found = placed := some.inj (hget.symm.trans hpl)
    have hlt := holder waiting hwait
    omega
  · rw [hnone] at hpl
    cases hpl

lemma enqueue_arrives (observe : Raw → ObservedTurn) (queue : Queue Raw) (key : TurnAuthority)
    (queued : QueuedSnapshot Raw) :
    queue.Arrival key queued (queue.enqueue observe key queued).1 (queue.enqueue observe key queued).2 := by
  unfold enqueue
  by_cases holder : queue.OlderThan key queued.sequence
  · rw [offer_of_olderThan holder]
    set offered := merged (queue.waiting key) queued with hoffered
    have hseq : offered.sequence = queued.sequence := merged_sequence _ _
    have hcleared := sameBut_take queue key
    split_ifs with hfits
    · exact .waits _ _ offered (.inl rfl) holder (waiting_place _ _ _) hseq rfl
        (hcleared.trans (sameBut_place _ _ _))
    · -- the slot has been emptied: nothing supersedes the digest
      set cleared := (queue.take key).2.dropIdleSlots with hcleared_eq
      have hsame : queue.SameBut cleared key := hcleared.trans (sameBut_dropIdleSlots _ _)
      have hemp : cleared.waiting key = none := by
        rw [hcleared_eq, waiting_dropIdleSlots, waiting_take]
      dsimp only
      split_ifs with hdigest
      · exact .dropped _ hemp hsame
      · have holder' : cleared.OlderThan key (offered.intoDigest observe).sequence := by
          intro waiting hwait
          rw [hemp] at hwait
          cases hwait
        rw [offer_of_olderThan holder', hemp, take_none hemp]
        split_ifs with hfits'
        · exact .waits _ _ (offered.intoDigest observe) (.inr rfl) holder (waiting_place _ _ _)
            hseq rfl (hsame.trans (sameBut_place _ _ _))
        · refine .dropped _ ?_ (hsame.trans (sameBut_dropIdleSlots _ _))
          rw [waiting_dropIdleSlots]
          exact hemp
  · rw [offer_of_not_olderThan holder]
    exact .superseded holder

lemma Balanced.offer (h : queue.Balanced) (key : TurnAuthority) (queued) : (queue.offer key queued).2.Balanced := by
  by_cases holder : queue.OlderThan key queued.sequence
  · rw [offer_of_olderThan holder]
    split_ifs with hfits
    · exact (h.take key).place (waiting_take queue key) hfits
    · exact (h.take key).dropIdleSlots
  · rw [offer_of_not_olderThan holder]
    exact h

lemma Balanced.enqueue (h : queue.Balanced) (observe : Raw → ObservedTurn) (key)
    (queued) : (queue.enqueue observe key queued).2.Balanced := by
  have hoffer := h.offer key queued
  unfold Queue.enqueue
  match queue.offer key queued, hoffer with
  | (.queued, _), hoffer => exact hoffer
  | (.superseded, _), hoffer => exact hoffer
  | (.full rejected, left), hoffer =>
    have hdigest := Balanced.offer hoffer key (rejected.intoDigest observe)
    dsimp only
    split_ifs
    · exact hoffer
    · match left.offer key (rejected.intoDigest observe), hdigest with
      | (.queued, _), hdigest => exact hdigest
      | (.superseded, _), hdigest => exact hdigest
      | (.full _, _), hdigest => exact hdigest

lemma firstReady_mem {now : ℕ} {order : List (TurnAuthority × Slot Raw)} {earliest : Option ℕ}
    (h : (firstReady now order earliest).1 = some key) :
    ∃ slot, (key, slot) ∈ order ∧ slot.answersInFlight = 0 := by
  induction order generalizing earliest with
  | nil => exact absurd h (by simp [firstReady])
  | cons entry order ih =>
    obtain ⟨found, slot⟩ := entry
    unfold firstReady at h
    split at h
    · obtain ⟨slot', hmem, hans⟩ := ih h
      exact ⟨slot', mem_cons_of_mem _ hmem, hans⟩
    · rename_i latest hlast
      obtain ⟨-, hans⟩ := filter_eq_some_iff.1 hlast
      split at h
      · cases h
        exact ⟨slot, mem_cons_self, of_decide_eq_true hans⟩
      · obtain ⟨slot', hmem, hans⟩ := ih h
        exact ⟨slot', mem_cons_of_mem _ hmem, hans⟩

/-- **What taking work does**: a job is taken of a turn that has no answers on their way,
and everything else leaves the slots and the counters as they were. -/
theorem takeReady_cases (queue : Queue Raw) {order : List (TurnAuthority × Slot Raw)} (now : ℕ)
    (hord : order.Perm queue.slots.entries) :
    (∃ key taken, queue.waiting key = some taken ∧ (queue.slotOf key).answersInFlight = 0 ∧
      queue.takeReady order now = (.job key taken, { (queue.take key).2 with writing := some key })) ∨
    ((∀ key taken, (queue.takeReady order now).1 ≠ .job key taken) ∧
      ∃ sweeps sweeping, (queue.takeReady order now).2 = { queue with sweeps := sweeps, sweeping := sweeping }) := by
  unfold takeReady
  dsimp only
  split
  · rename_i key taken hready
    obtain ⟨found, hfound, hmap⟩ := bind_eq_some_iff.1 hready
    obtain ⟨_, htkn, hpair⟩ := map_eq_some_iff.1 hmap
    cases hpair
    obtain ⟨slot, hmem, hans⟩ := firstReady_mem hfound
    have hget : queue.slots.get? key = some slot := get?_eq_some_iff.2 (hord.mem_iff.1 hmem)
    refine .inl ⟨key, taken, (take_fst queue key).symm.trans htkn, ?_, rfl⟩
    rw [slotOf, hget]
    exact hans
  · refine .inr ?_
    split
    · exact ⟨fun _ _ => by simp, _, _, rfl⟩
    · refine ⟨fun key taken => ?_, queue.sweeps, queue.sweeping, rfl⟩
      cases (firstReady now order none).2 <;> simp

end Queue

namespace Heard

/-- **What is queued is the newest of what was heard, first observed at the least time.** -/
def Describes (heard : Heard) (queued : Option (QueuedSnapshot Raw)) : Prop :=
  heard.sequences.max? = queued.map QueuedSnapshot.sequence ∧
    heard.times.min? = queued.map QueuedSnapshot.firstObservedAtEpochMs

lemma describes_nothing : nothing.Describes (none : Option (QueuedSnapshot Raw)) := ⟨rfl, rfl⟩

lemma describes_of (queued : QueuedSnapshot Raw) : (of queued).Describes (some queued) :=
  ⟨max?_singleton, min?_singleton⟩

variable {heard arrived : Heard}

lemma Describes.accepted {waiting : Option (QueuedSnapshot Raw)} {queued placed : QueuedSnapshot Raw}
    (h : heard.Describes waiting) (h' : arrived.Describes (some queued))
    (holder : ∀ older, waiting = some older → older.sequence < queued.sequence)
    (hseq : placed.sequence = queued.sequence)
    (hfst : placed.firstObservedAtEpochMs = (Queue.merged waiting queued).firstObservedAtEpochMs) :
    Describes ⟨heard.sequences ++ arrived.sequences, heard.times ++ arrived.times⟩ (some placed) := by
  obtain ⟨hmax, hmin⟩ := h
  obtain ⟨hmax', hmin'⟩ := h'
  unfold Describes
  rw [map_some] at hmax' hmin'
  rw [map_some, map_some, hseq, hfst]
  cases waiting with
  | none =>
    rw [map_none, max?_eq_none_iff] at hmax
    rw [map_none, min?_eq_none_iff] at hmin
    rw [hmax, hmin]
    exact ⟨hmax', hmin'⟩
  | some older =>
    rw [map_some, max?_eq_some_iff] at hmax
    rw [map_some, min?_eq_some_iff] at hmin
    rw [max?_eq_some_iff] at hmax' ⊢
    rw [min?_eq_some_iff] at hmin' ⊢
    have hlt := holder older rfl
    refine ⟨⟨mem_append_right _ hmax'.1, fun sequence hmem => ?_⟩, ?_, fun time hmem => ?_⟩
    · rcases mem_append.1 hmem with hmem | hmem
      · exact (hmax.2 sequence hmem).trans hlt.le
      · exact hmax'.2 sequence hmem
    · rcases le_total older.firstObservedAtEpochMs queued.firstObservedAtEpochMs with hle | hle
      · rw [Queue.merged, min_eq_left hle]
        exact mem_append_left _ hmin.1
      · rw [Queue.merged, min_eq_right hle]
        exact mem_append_right _ hmin'.1
    · rcases mem_append.1 hmem with hmem | hmem
      · exact (min_le_left _ _).trans (hmin.2 time hmem)
      · exact (min_le_right _ _).trans (hmin'.2 time hmem)

lemma Describes.superseded {waiting queued : QueuedSnapshot Raw} (h : heard.Describes (some waiting))
    (h' : arrived.Describes (some queued)) (hnew : queued.sequence ≤ waiting.sequence) :
    Describes ⟨heard.sequences ++ arrived.sequences, heard.times⟩ (some waiting) := by
  obtain ⟨hmax, hmin⟩ := h
  refine ⟨?_, hmin⟩
  have hmax' := h'.1
  rw [map_some, max?_eq_some_iff] at hmax hmax' ⊢
  refine ⟨mem_append_left _ hmax.1, fun sequence hmem => ?_⟩
  rcases mem_append.1 hmem with hmem | hmem
  · exact hmax.2 sequence hmem
  · exact (hmax'.2 sequence hmem).trans hnew

/-- **What has been heard describes what waits after an offer**, whatever becomes of it. -/
theorem Describes.arrives {queue after : Queue Raw} {key : TurnAuthority}
    {queued : QueuedSnapshot Raw} {outcome : Enqueued} (h : heard.Describes (queue.waiting key))
    (h' : arrived.Describes (some queued)) (harr : queue.Arrival key queued outcome after) :
    (heard.after arrived outcome).Describes (after.waiting key) := by
  rcases harr with ⟨hnew⟩ | ⟨_, _, placed, haccd, holder, hwait, hseq, hfst, -⟩ | ⟨_, hwait, -⟩
  · unfold Queue.OlderThan at hnew
    push Not at hnew
    obtain ⟨waiting, hwait, hnew⟩ := hnew
    rw [hwait] at h ⊢
    exact h.superseded h' hnew
  · have hdescr := h.accepted h' holder hseq hfst
    rw [hwait]
    rcases haccd with rfl | rfl
    · exact hdescr
    · exact hdescr
  · rw [hwait]
    exact describes_nothing

lemma Describes.congr {queued other : QueuedSnapshot Raw} (h : heard.Describes (some queued))
    (hseq : other.sequence = queued.sequence)
    (hfst : other.firstObservedAtEpochMs = queued.firstObservedAtEpochMs) :
    heard.Describes (some other) := by
  refine ⟨h.1.trans ?_, h.2.trans ?_⟩
  · rw [map_some, map_some, hseq]
  · rw [map_some, map_some, hfst]

end Heard

lemma retryOf_same {limits : JournalLimits} {failed retry : QueuedSnapshot Raw}
    {kind} {now} (h : retryOf limits failed kind now = some retry) :
    retry.sequence = failed.sequence ∧ retry.firstObservedAtEpochMs = failed.firstObservedAtEpochMs := by
  unfold retryOf at h
  dsimp only at h
  split_ifs at h
  cases h
  exact ⟨rfl, rfl⟩

namespace JournalRun

variable {observe : Raw → ObservedTurn} {limits : JournalLimits} {run : JournalRun Raw}

/-- **The invariant**: the counters are right, the answers on their way are those that are
held, and what waits and what is being written are what has been heard. -/
structure Accounted (limits : JournalLimits) (run : JournalRun Raw) : Prop where
  balanced : run.queue.Balanced
  limits_eq : run.queue.limits = limits
  answers_eq : ∀ key, (run.queue.slotOf key).answersInFlight = run.holds.count key
  heard_waiting : ∀ key, (run.heard key).Describes (run.queue.waiting key)
  heard_job : run.jobHeard.Describes (run.job.map Prod.snd)

lemma Accounted.start (limits) : (JournalRun.start limits : JournalRun Raw).Accounted limits :=
  ⟨.new limits, rfl, fun _ => rfl, fun _ => Heard.describes_nothing, Heard.describes_nothing⟩

lemma heard_arrives {after : Queue Raw} {key : TurnAuthority} {queued : QueuedSnapshot Raw}
    {arrived : Heard} {outcome : Enqueued}
    (h : ∀ other, (run.heard other).Describes (run.queue.waiting other))
    (h' : arrived.Describes (some queued)) (harr : run.queue.Arrival key queued outcome after)
    (hsame : run.queue.SameBut after key) (other) :
    (Function.update run.heard key ((run.heard key).after arrived outcome) other).Describes
      (after.waiting other) := by
  by_cases heq : other = key
  · subst heq
    rw [update_self]
    exact (h other).arrives h' harr
  · rw [update_of_ne heq, hsame.waiting_eq other heq]
    exact h other

section

variable (h : run.Accounted limits)
include h

lemma Accounted.offer (key : TurnAuthority) (queued : QueuedSnapshot Raw) :
    (run.offer observe key queued).Accounted limits := by
  have harr := Queue.enqueue_arrives observe run.queue key queued
  have hsame := harr.same
  exact {
    balanced := h.balanced.enqueue observe key queued
    limits_eq := hsame.limits_eq.trans h.limits_eq
    answers_eq := fun other => (hsame.answers_eq other).trans (h.answers_eq other)
    heard_waiting := heard_arrives h.heard_waiting (Heard.describes_of queued) harr hsame
    heard_job := h.heard_job }

lemma Accounted.takeReady {order : List (TurnAuthority × Slot Raw)} (now : ℕ)
    (hord : order.Perm run.queue.slots.entries) :
    (run.takeReady order now).Accounted limits := by
  unfold JournalRun.takeReady
  rcases Queue.takeReady_cases run.queue now hord with
    ⟨key, taken, hwait, -, htake⟩ | ⟨hnojob, sweeps, sweeping, hqueue⟩
  · have hsame := Queue.sameBut_take run.queue key
    rw [htake]
    refine ⟨?_, hsame.limits_eq.trans h.limits_eq, fun other => ?_, fun other => ?_, ?_⟩
    · exact (h.balanced.take key).congr rfl rfl rfl rfl rfl
    · exact (hsame.answers_eq other).trans (h.answers_eq other)
    · dsimp only
      change Heard.Describes _ ((run.queue.take key).2.waiting other)
      by_cases heq : other = key
      · subst heq
        rw [update_self, Queue.waiting_take]
        exact Heard.describes_nothing
      · rw [update_of_ne heq, hsame.waiting_eq other heq]
        exact h.heard_waiting other
    · have hheard := h.heard_waiting key
      rw [hwait] at hheard
      exact hheard
  · match run.queue.takeReady order now, hnojob, hqueue with
    | (.job key taken, _), hnojob, _ => exact absurd rfl (hnojob key taken)
    | (.sweep _, _), _, hqueue | (.notBefore _, _), _, hqueue | (.idle, _), _, hqueue =>
      cases hqueue
      exact ⟨h.balanced.congr rfl rfl rfl rfl rfl, h.limits_eq, h.answers_eq, h.heard_waiting, h.heard_job⟩

lemma Accounted.written {retry : QueuedSnapshot Raw → Option (QueuedSnapshot Raw)}
    (hretry : ∀ job retried, retry job = some retried → retried.sequence = job.sequence ∧
      retried.firstObservedAtEpochMs = job.firstObservedAtEpochMs) :
    (run.written observe retry).Accounted limits := by
  unfold JournalRun.written
  cases hjob : run.job with
  | none => exact h
  | some job =>
    obtain ⟨key, queued⟩ := job
    have hheard := h.heard_job
    rw [hjob] at hheard
    unfold Queue.written
    dsimp only
    cases hretried : retry queued with
    | none =>
      have hdrop := Queue.sameBut_dropIdleSlots { run.queue with writing := none } key
      have hbal : Queue.Balanced { run.queue with writing := none } := h.balanced.congr rfl rfl rfl rfl rfl
      exact {
        balanced := hbal.dropIdleSlots
        limits_eq := h.limits_eq
        answers_eq := fun other => (hdrop.answers_eq other).trans (h.answers_eq other)
        heard_waiting := fun other => by
          rw [Queue.waiting_dropIdleSlots]
          exact h.heard_waiting other
        heard_job := Heard.describes_nothing }
    | some retried =>
      obtain ⟨hseq, hfst⟩ := hretry queued retried hretried
      have harr := Queue.enqueue_arrives observe run.queue key retried
      have hsame := harr.same
      have hdescr := heard_arrives h.heard_waiting (hheard.congr hseq hfst) harr hsame
      set after := (run.queue.enqueue observe key retried).2
      have hdrop := Queue.sameBut_dropIdleSlots { after with writing := none } key
      have hbal : Queue.Balanced { after with writing := none } :=
        (h.balanced.enqueue observe key retried).congr rfl rfl rfl rfl rfl
      exact {
        balanced := hbal.dropIdleSlots
        limits_eq := hsame.limits_eq.trans h.limits_eq
        answers_eq := fun other =>
          ((hdrop.answers_eq other).trans (hsame.answers_eq other)).trans (h.answers_eq other)
        heard_waiting := fun other => by
          rw [Queue.waiting_dropIdleSlots]
          exact hdescr other
        heard_job := Heard.describes_nothing }

lemma Accounted.hold (key : TurnAuthority) :
    Accounted limits { run with queue := run.queue.hold key, holds := key :: run.holds } := by
  have hslot := Queue.slotOf_hold run.queue key
  refine ⟨h.balanced.set_answers key _, h.limits_eq, fun other => ?_, fun other => ?_, h.heard_job⟩
  · dsimp only
    rw [hslot, count_cons, ← h.answers_eq]
    by_cases heq : other = key
    · rw [if_pos heq, if_pos (by rw [heq, beq_self_eq_true]), heq]
      rfl
    · rw [if_neg heq, if_neg (by rw [beq_iff_eq]; exact Ne.symm heq)]
      rfl
  · have hheard := h.heard_waiting other
    rw [Queue.waiting_eq] at hheard ⊢
    rw [hslot]
    split_ifs with heq
    · rw [heq] at hheard ⊢
      exact hheard
    · exact hheard

lemma Accounted.release {key} (hheld : key ∈ run.holds) :
    Accounted limits { run with queue := run.queue.release key, holds := run.holds.erase key } := by
  have hcnt : 0 < run.holds.count key := count_pos_iff.2 hheld
  have hans := h.answers_eq key
  obtain ⟨slot, hget⟩ : ∃ slot, run.queue.slots.get? key = some slot := by
    cases hget : run.queue.slots.get? key with
    | none =>
      rw [Queue.slotOf, hget] at hans
      change 0 = _ at hans
      omega
    | some slot => exact ⟨slot, rfl⟩
  have hslot := Queue.slotOf_release hget
  refine ⟨Queue.Balanced.release h.balanced key, ?_, fun other => ?_, fun other => ?_, h.heard_job⟩
  · rw [← h.limits_eq]
    exact Queue.limits_release run.queue key
  · dsimp only
    rw [hslot, count_erase, ← h.answers_eq]
    by_cases heq : other = key
    · rw [if_pos heq, if_pos (by rw [heq, beq_self_eq_true]), heq]
      rfl
    · rw [if_neg heq, if_neg (by rw [beq_iff_eq]; exact Ne.symm heq)]
      rfl
  · have hheard := h.heard_waiting other
    rw [Queue.waiting_eq] at hheard ⊢
    rw [hslot]
    split_ifs with heq
    · rw [heq] at hheard ⊢
      exact hheard
    · exact hheard

theorem Accounted.apply {operation : JournalOperation Raw} (hallow : run.Allowed operation) :
    (run.apply observe operation).Accounted limits := by
  cases operation with
  | offer key queued => exact h.offer key queued
  | takeReady order now => exact h.takeReady now hallow.1
  | completed =>
    refine h.written fun job retried hretry => ?_
    cases hretry
  | failed observed kind now =>
    refine h.written fun job retried hretry => ?_
    have hsame := retryOf_same hretry
    split_ifs at hsame
    · exact hsame
    · exact hsame
  | hold key => exact h.hold key
  | release key => exact h.release hallow
  | sweep scope =>
    rw [JournalRun.apply]
    split_ifs
    · exact h
    · exact ⟨h.balanced.congr rfl rfl rfl rfl rfl, h.limits_eq, h.answers_eq, h.heard_waiting, h.heard_job⟩
  | swept | close =>
    exact ⟨h.balanced.congr rfl rfl rfl rfl rfl, h.limits_eq, h.answers_eq, h.heard_waiting, h.heard_job⟩

end

lemma Accounted.of_reaches {operations}
    (h : Reaches (Journals observe) (JournalRun.start limits) operations run) :
    run.Accounted limits := by
  refine h.invariant (P := Accounted limits) (fun s _ t hs hstep => ?_) (.start limits)
  obtain ⟨operation, hallow⟩ := hstep
  exact hs.apply hallow

end JournalRun

def sampleLimits : JournalLimits where
  queuedTurns := 2
  queuedBytes := 64
  queuedDigests := 2
  writeAttempts := 3
  retryBackoff := 100

def queuedAt (sequence time : ℕ) : QueuedSnapshot Unit where
  content := .raw ()
  revision := sequence
  sequence := sequence
  bytes := 8
  digest := false
  firstObservedAtEpochMs := time
  observedAtEpochMs := time
  attempts := 0
  notBefore := none

def waitingTurn : TurnAuthority := ⟨⟨"root", "owner"⟩, ⟨"thread-1", "turn-1"⟩, 1⟩

def observeNothing : Unit → ObservedTurn := fun _ => ⟨0, [], [], []⟩

/-- One snapshot of a turn is being written when another one arrives. -/
def arrivesLate (first second : ℕ) : List (JournalOperation Unit) :=
  [.offer waitingTurn (queuedAt first 10),
    .takeReady [(waitingTurn, ⟨some (queuedAt first 10), 0⟩)] 0,
    .offer waitingTurn (queuedAt second 20)]

def lateRun (first second : ℕ) : JournalRun Unit :=
  (arrivesLate first second).foldl (JournalRun.apply observeNothing) (.start sampleLimits)

lemma reaches_lateRun (first second : ℕ) :
    Reaches (Journals observeNothing) (.start sampleLimits) (arrivesLate first second) (lateRun first second) := by
  have htake := @Journals.op Unit observeNothing
    (JournalRun.apply observeNothing (.start sampleLimits) (.offer waitingTurn (queuedAt first 10)))
    (.takeReady [(waitingTurn, ⟨some (queuedAt first 10), 0⟩)] 0) ⟨.refl _, rfl, rfl, rfl⟩
  exact .next (.op _ (.offer _ _) trivial) (.next htake (.single (.op _ (.offer _ _) trivial)))

end CodevoEditor.RuntimeRequests
