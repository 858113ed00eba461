/-
# Evicting the oldest item that is not pinned

A bounded window over items of any type: while a limit is exceeded, the oldest item that is not
pinned goes, and the newest item once only pinned ones are left (`evictOne`, `shrink`).
-/

import Mathlib.Data.List.Chain
import Mathlib.Data.List.DropRight
import Mathlib.Data.List.ReduceOption

namespace CodevoEditor.Window

open List

variable {α : Type*} (pinned : α → Bool)

/-- The window without its first unpinned item, or without its last item when
all are pinned. -/
def evictOne (items : List α) : List α :=
  if items.all pinned then items.dropLast else items.eraseP fun item => !pinned item

/-- Evict while `exceeds` holds, at most `fuel` times. -/
def shrinkWith (exceeds : List α → Bool) : ℕ → List α → List α
  | 0, items => items
  | fuel + 1, items => if exceeds items then shrinkWith exceeds fuel (evictOne pinned items) else items

/-- Evict while `exceeds` holds; each eviction takes one item, so the length is
fuel enough. -/
def shrink (exceeds : List α → Bool) (items : List α) : List α :=
  shrinkWith pinned exceeds items.length items

variable {pinned}

variable {item : α}

lemma evictOne_of_first {before after} (hpre : ∀ a ∈ before, pinned a)
    (hitem : pinned item = false) :
    evictOne pinned (before ++ item :: after) = before ++ after := by
  unfold evictOne
  rw [if_neg (by simp [hitem]), eraseP_append_right _ fun a ha => by simp [hpre a ha]]
  simp [hitem]

variable {items : List α}

lemma evictOne_of_all (h : ∀ a ∈ items, pinned a) : evictOne pinned items = items.dropLast := by
  rw [evictOne, if_pos (all_eq_true.2 h)]

lemma all_pinned_or_split (pinned : α → Bool) (items : List α) :
    (∀ a ∈ items, pinned a) ∨ ∃ before item after, items = before ++ item :: after ∧
      (∀ a ∈ before, pinned a) ∧ pinned item = false := by
  induction items with
  | nil => exact .inl nofun
  | cons head items ih =>
    cases hhead : pinned head with
    | false => exact .inr ⟨[], head, items, rfl, nofun, hhead⟩
    | true =>
      rcases ih with hall | ⟨before, item, after, rfl, hpre, hitem⟩
      · exact .inl (forall_mem_cons.2 ⟨hhead, hall⟩)
      · exact .inr ⟨head :: before, item, after, rfl, forall_mem_cons.2 ⟨hhead, hpre⟩, hitem⟩

lemma evictOne_sublist (items : List α) : (evictOne pinned items).Sublist items := by
  unfold evictOne
  split_ifs
  · exact dropLast_sublist items
  · exact eraseP_sublist

lemma length_evictOne (items : List α) : (evictOne pinned items).length = items.length - 1 := by
  rcases all_pinned_or_split pinned items with hall | ⟨before, item, after, rfl, hpre, hitem⟩
  · rw [evictOne_of_all hall, length_dropLast]
  · rw [evictOne_of_first hpre hitem]
    simp only [length_append, length_cons]
    omega

section Shrink

variable {exceeds : List α → Bool}

lemma shrinkWith_of_length_le (hnil : exceeds [] = false) :
    ∀ {fuel : ℕ} {items : List α}, items.length ≤ fuel →
      shrinkWith pinned exceeds fuel items = shrink pinned exceeds items := by
  suffices ∀ n fuel (items : List α), items.length = n → n ≤ fuel →
      shrinkWith pinned exceeds fuel items = shrinkWith pinned exceeds n items by
    intro fuel items h
    exact this _ _ _ rfl h
  intro n
  induction n with
  | zero =>
    intro fuel items hlen _
    obtain rfl := length_eq_zero_iff.1 hlen
    cases fuel <;> simp [shrinkWith, hnil]
  | succ n ih =>
    intro fuel items hlen hfuel
    obtain ⟨fuel, rfl⟩ : ∃ f, fuel = f + 1 := ⟨fuel - 1, by omega⟩
    have hone : (evictOne pinned items).length = n := by rw [length_evictOne, hlen]; rfl
    simp only [shrinkWith]
    rw [ih fuel _ hone (by omega)]

theorem shrink_eq (hnil : exceeds [] = false) (items : List α) :
    shrink pinned exceeds items =
      if exceeds items then shrink pinned exceeds (evictOne pinned items) else items := by
  cases hitems : items with
  | nil => simp [shrink, shrinkWith, hnil]
  | cons head rest =>
    rw [shrink, length_cons, shrinkWith, shrinkWith_of_length_le hnil]
    rw [length_evictOne]
    simp

theorem over_shrink (hnil : exceeds [] = false) (items : List α) : exceeds (shrink pinned exceeds items) = false := by
  suffices ∀ n (items : List α), items.length = n → exceeds (shrink pinned exceeds items) = false from
    this _ items rfl
  intro n
  induction n with
  | zero =>
    intro items hlen
    obtain rfl := length_eq_zero_iff.1 hlen
    exact hnil
  | succ n ih =>
    intro items hlen
    rw [shrink_eq hnil]
    split_ifs with hover
    · exact ih _ (by rw [length_evictOne, hlen]; rfl)
    · exact Bool.eq_false_iff.2 hover

lemma shrink_of_not_over (h : exceeds items = false) : shrink pinned exceeds items = items := by
  cases hitems : items with
  | nil => rfl
  | cons head rest => rw [shrink, length_cons, shrinkWith, ← hitems, h]; rfl

lemma shrink_induct {P : List α → Prop} (hone : ∀ items, P items → P (evictOne pinned items))
    (h : P items) : P (shrink pinned exceeds items) := by
  suffices ∀ fuel items, P items → P (shrinkWith pinned exceeds fuel items) from this _ _ h
  intro fuel
  induction fuel with
  | zero => exact fun _ h => h
  | succ fuel ih =>
    intro items h
    rw [shrinkWith]
    split_ifs
    · exact ih _ (hone _ h)
    · exact h

lemma shrink_sublist (items : List α) : (shrink pinned exceeds items).Sublist items :=
  shrink_induct (P := (·.Sublist items)) (fun l hl => (evictOne_sublist l).trans hl) (.refl items)

end Shrink

lemma isChain_evictOne {R : α → α → Prop} (hR : ∀ a b, pinned a → R a b)
    (h : items.IsChain R) : (evictOne pinned items).IsChain R := by
  rcases all_pinned_or_split pinned items with hall | ⟨before, item, after, rfl, hpre, hitem⟩
  · rw [evictOne_of_all hall]
    exact h.dropLast
  · rw [evictOne_of_first hpre hitem]
    refine h.left_of_append.append h.right_of_append.tail fun a ha b _ => ?_
    exact hR a b (hpre a (mem_of_getLast? ha))

variable {slots : List (Option α)}

lemma join_getElem?_eq_some_iff {k} :
    (slots[k]?).join = some item ↔ ∃ before after, slots = before ++ some item :: after ∧ before.length = k := by
  rw [Option.join_eq_some_iff]
  constructor
  · intro h
    obtain ⟨hk, hget⟩ := List.getElem?_eq_some_iff.1 h
    refine ⟨slots.take k, slots.drop (k + 1), ?_, length_take_of_le hk.le⟩
    rw [← hget, getElem_cons_drop, take_append_drop]
  · rintro ⟨before, after, rfl, rfl⟩
    rw [getElem?_append_right le_rfl, Nat.sub_self, getElem?_cons_zero]

variable (before after : List (Option α))

lemma set_split (slot new) : (before ++ slot :: after).set before.length new = before ++ new :: after := by
  rw [set_append_right _ _ le_rfl, Nat.sub_self, set_cons_zero]

lemma slots_eq_nil_or_concat (h : slots.getLast? ≠ some none) :
    slots = [] ∨ ∃ before item, slots = before ++ [some item] := by
  induction slots using List.reverseRecOn with
  | nil => exact .inl rfl
  | append_singleton before slot _ =>
    cases slot with
    | none => exact absurd (by simp) h
    | some item => exact .inr ⟨before, item, rfl⟩

lemma reduceOption_split (item : α) :
    (before ++ some item :: after).reduceOption = before.reduceOption ++ item :: after.reduceOption := by
  rw [reduceOption_append, reduceOption_cons_of_some]

lemma getLast?_reduceOption (h : slots.getLast? ≠ some none) :
    slots.reduceOption.getLast? = (slots[slots.length - 1]?).join := by
  rcases slots_eq_nil_or_concat h with rfl | ⟨before, item, rfl⟩
  · rfl
  · simp [reduceOption_append]

/-- A tombstone needs no eviction, so it counts as pinned. -/
def slotPinned (pinned : α → Bool) (slot : Option α) : Bool := slot.all pinned

lemma pinned_of_mem_reduceOption (h : ∀ slot ∈ slots, slotPinned pinned slot) :
    ∀ a ∈ slots.reduceOption, pinned a := by
  intro a ha
  simpa [slotPinned] using h _ (reduceOption_mem_iff.1 ha)

lemma reduceOption_rdropWhile (slots : List (Option α)) :
    (slots.rdropWhile Option.isNone).reduceOption = slots.reduceOption := by
  induction slots using List.reverseRecOn with
  | nil => rfl
  | append_singleton slots slot ih =>
    cases slot with
    | none => rw [rdropWhile_concat_pos _ _ _ rfl, ih]; simp [reduceOption_append]
    | some item => rw [rdropWhile_concat_neg _ _ _ (by simp)]

end CodevoEditor.Window
