/-
# The items of slots with their positions

Slots hold an item or a tombstone.
-/

import Mathlib.Data.List.DropRight
import Mathlib.Data.List.Forall2
import Mathlib.Data.List.Pairwise
import Mathlib.Data.List.ReduceOption

namespace CodevoEditor.Window

open List

variable {α : Type*}

/-- The items of slots numbered from `k` on. -/
def numberedFrom : ℕ → List (Option α) → List (α × ℕ)
  | _, [] => []
  | k, none :: slots => numberedFrom (k + 1) slots
  | k, some item :: slots => (item, k) :: numberedFrom (k + 1) slots

/-- The items of slots with their slot numbers. -/
def numbered (slots : List (Option α)) : List (α × ℕ) := numberedFrom 0 slots

lemma numberedFrom_append (k : ℕ) (slots slots' : List (Option α)) :
    numberedFrom k (slots ++ slots') = numberedFrom k slots ++ numberedFrom (k + slots.length) slots' := by
  induction slots generalizing k with
  | nil => rfl
  | cons slot slots ih =>
    have hk : k + (slot :: slots).length = k + 1 + slots.length := by
      rw [length_cons]; omega
    cases slot with
    | none => rw [cons_append, numberedFrom, ih, hk]; rfl
    | some item => rw [cons_append, numberedFrom, ih, hk]; rfl

lemma map_fst_numberedFrom (k : ℕ) (slots : List (Option α)) :
    (numberedFrom k slots).map Prod.fst = slots.reduceOption := by
  induction slots generalizing k with
  | nil => rfl
  | cons slot slots ih =>
    cases slot with
    | none => exact ih (k + 1)
    | some item => exact congrArg (item :: ·) (ih (k + 1))

variable {slots : List (Option α)} {k : ℕ}

lemma le_of_mem_numberedFrom {entry} (h : entry ∈ numberedFrom k slots) : k ≤ entry.2 := by
  induction slots generalizing k with
  | nil => cases h
  | cons slot slots ih =>
    cases slot with
    | none => exact (Nat.le_succ k).trans (ih h)
    | some item =>
      rcases mem_cons.1 h with rfl | h
      · exact le_rfl
      · exact (Nat.le_succ k).trans (ih h)

lemma pairwise_numberedFrom (k : ℕ) (slots : List (Option α)) :
    (numberedFrom k slots).Pairwise fun a b => a.2 < b.2 := by
  induction slots generalizing k with
  | nil => exact .nil
  | cons slot slots ih =>
    cases slot with
    | none => exact ih (k + 1)
    | some item => exact pairwise_cons.2 ⟨fun entry h => le_of_mem_numberedFrom h, ih (k + 1)⟩

@[simp] lemma map_fst_numbered (slots : List (Option α)) :
    (numbered slots).map Prod.fst = slots.reduceOption := map_fst_numberedFrom 0 slots

lemma pairwise_numbered (slots : List (Option α)) :
    (numbered slots).Pairwise fun a b => a.2 < b.2 := pairwise_numberedFrom 0 slots

lemma numbered_split (before after : List (Option α)) (item : α) :
    numbered (before ++ some item :: after) =
      numbered before ++ (item, before.length) :: numberedFrom (before.length + 1) after := by
  rw [numbered, numberedFrom_append, Nat.zero_add]; rfl

lemma numbered_split_none (before after : List (Option α)) :
    numbered (before ++ none :: after) = numbered before ++ numberedFrom (before.length + 1) after := by
  rw [numbered, numberedFrom_append, Nat.zero_add]; rfl

lemma numbered_rdropWhile (slots : List (Option α)) : numbered (slots.rdropWhile Option.isNone) = numbered slots := by
  induction slots using List.reverseRecOn with
  | nil => rfl
  | append_singleton slots slot ih =>
    cases slot with
    | none =>
      rw [rdropWhile_concat_pos _ _ _ rfl, ih, numbered_split_none]
      exact (append_nil _).symm
    | some item => rw [rdropWhile_concat_neg _ _ _ (by simp)]

lemma numbered_map_some (items : List α) : numbered (items.map some) = items.zipIdx := by
  suffices ∀ k, numberedFrom k (items.map some) = items.zipIdx k from this 0
  induction items with
  | nil => exact fun _ => rfl
  | cons item items ih =>
    intro k
    rw [map_cons, numberedFrom, ih, zipIdx_cons]

variable {item : α}

theorem split_unique {entries before after before' after'} {item'}
    (hsort : entries.Pairwise fun a b => a.2 < b.2) (h : entries = before ++ (item, k) :: after)
    (h' : entries = before' ++ (item', k) :: after') :
    before = before' ∧ item = item' ∧ after = after' := by
  induction before generalizing entries before' with
  | nil =>
    cases before' with
    | nil =>
      rw [h] at h'
      obtain ⟨hent, rfl⟩ := cons_eq_cons.1 h'
      exact ⟨rfl, congrArg Prod.fst hent, rfl⟩
    | cons entry before' =>
      -- the entry under `k` would come before itself
      rw [h', cons_append, pairwise_cons] at hsort
      rw [h] at h'
      obtain ⟨rfl, rfl⟩ := cons_eq_cons.1 h'
      exact absurd (hsort.1 (item', k) (by simp)) (lt_irrefl k)
  | cons entry before ih =>
    cases before' with
    | nil =>
      rw [h, cons_append, pairwise_cons] at hsort
      rw [h] at h'
      obtain ⟨rfl, rfl⟩ := cons_eq_cons.1 h'
      exact absurd (hsort.1 (item, k) (by simp)) (lt_irrefl k)
    | cons entry' before' =>
      rw [h] at h'
      obtain ⟨rfl, htail⟩ := cons_eq_cons.1 h'
      rw [h, cons_append, pairwise_cons] at hsort
      obtain ⟨rfl, hitem, haft⟩ := ih hsort.2 rfl htail
      exact ⟨rfl, hitem, haft⟩

variable {before after entries : List α}

lemma split_concat {last} (h : entries ++ [last] = before ++ item :: after) :
    (∃ after', after = after' ++ [last] ∧ entries = before ++ item :: after') ∨
      (after = [] ∧ before = entries ∧ item = last) := by
  induction after using List.reverseRecOn with
  | nil =>
    obtain ⟨hents, hlast⟩ := append_inj' h rfl
    exact .inr ⟨rfl, hents.symm, (singleton_inj.1 hlast).symm⟩
  | append_singleton after last' _ =>
    rw [← cons_append, ← append_assoc] at h
    obtain ⟨hents, hlast⟩ := append_inj' h rfl
    obtain rfl := singleton_inj.1 hlast
    exact .inl ⟨after, rfl, hents⟩

lemma split_append {entries'} (h : entries ++ entries' = before ++ item :: after) :
    (∃ front, before = entries ++ front ∧ entries' = front ++ item :: after) ∨ item ∈ entries := by
  rcases append_eq_append_iff.1 h with ⟨front, rfl, hfr⟩ | ⟨back, rfl, hback⟩
  · exact .inl ⟨front, rfl, hfr⟩
  · cases back with
    | nil => exact .inl ⟨[], by simp, hback.symm⟩
    | cons head back =>
      obtain ⟨rfl, -⟩ := cons_eq_cons.1 hback
      exact .inr (by simp)

lemma forall₂_split {β : Type*} {R : α → β → Prop} {others}
    (h : List.Forall₂ R (before ++ item :: after) others) :
    ∃ before' other after', others = before' ++ other :: after' ∧
      List.Forall₂ R before before' ∧ R item other ∧ List.Forall₂ R after after' := by
  induction before generalizing others with
  | nil =>
    obtain ⟨other, after', hitem, haft, rfl⟩ := forall₂_cons_left_iff.1 h
    exact ⟨[], other, after', rfl, .nil, hitem, haft⟩
  | cons head before ih =>
    obtain ⟨other, others, hhead, hoths, rfl⟩ := forall₂_cons_left_iff.1 h
    obtain ⟨before', other', after', rfl, hpre, hitem, haft⟩ := ih hoths
    exact ⟨other :: before', other', after', rfl, .cons hhead hpre, hitem, haft⟩

lemma slots_of_numbered {before after}
    (h : numbered slots = before ++ (item, k) :: after) :
    ∃ front back, slots = front ++ some item :: back ∧ front.length = k ∧
      front.reduceOption = before.map Prod.fst ∧ back.reduceOption = after.map Prod.fst := by
  induction slots using List.reverseRecOn generalizing after with
  | nil => simp [numbered, numberedFrom] at h
  | append_singleton slots slot ih =>
    cases slot with
    | none =>
      rw [numbered_split_none, numberedFrom, append_nil] at h
      obtain ⟨front, back, rfl, hlen, hpre, haft⟩ := ih h
      exact ⟨front, back ++ [none], by simp, hlen, hpre, by simpa [reduceOption_append]⟩
    | some last =>
      rw [numbered_split, numberedFrom] at h
      rcases split_concat h with ⟨after', rfl, hspl⟩ | ⟨rfl, rfl, hlast⟩
      · obtain ⟨front, back, rfl, hlen, hpre, haft⟩ := ih hspl
        exact ⟨front, back ++ [some last], by simp, hlen, hpre, by simpa [reduceOption_append] using haft⟩
      · cases hlast
        exact ⟨slots, [], rfl, rfl, (map_fst_numbered slots).symm, rfl⟩

end CodevoEditor.Window
