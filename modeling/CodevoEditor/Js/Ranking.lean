/-
# Ranking a few of many

The first items of a sorted list, put together one item after the other: an item goes behind
all that do not come after it, and what is pushed out never ranks again.
-/

import CodevoEditor.Js.Sorting
import Mathlib.Tactic.Order

namespace CodevoEditor.Js

open List

variable {α β : Type*} [LinearOrder β] {comparator : α → α → Ordering} {rank : α → β} {item : α}
  {front rear items : List α}

/-- The item among sorted ones, behind all that do not come after it. -/
def insertBehind (comparator : α → α → Ordering) (item : α) (items : List α) : List α :=
  items.orderedInsert (fun item other => comparator other item = .gt) item

lemma insertBehind_append (hfr : ∀ other ∈ front, comparator other item ≠ .gt)
    (hrear : ∀ other ∈ rear, comparator other item = .gt) :
    insertBehind comparator item (front ++ rear) = front ++ item :: rear := by
  unfold insertBehind
  induction front with
  | nil =>
    cases rear with
    | nil => rfl
    | cons other rear => exact if_pos (hrear other mem_cons_self)
  | cons other front ih =>
    obtain ⟨hoth, hfr⟩ := forall_mem_cons.1 hfr
    rw [cons_append, orderedInsert_cons, if_neg hoth, ih hfr, cons_append]

lemma length_insertBehind : (insertBehind comparator item items).length = items.length + 1 :=
  orderedInsert_length ..

lemma insertBehind_concat {last : α} (hlast : comparator last item = .gt) (items) :
    insertBehind comparator item (items ++ [last]) = insertBehind comparator item items ++ [last] := by
  unfold insertBehind
  induction items with
  | nil => exact if_pos hlast
  | cons other items ih =>
    rw [cons_append, orderedInsert_cons, orderedInsert_cons]
    split_ifs
    · rfl
    · rw [ih, cons_append]

lemma sort_cons (h : Compares comparator rank) (item : α) (items) :
    sort comparator (item :: items) =
      (sort comparator items).orderedInsert (fun item other => comparator item other ≠ .gt) item := by
  have htrans a b c (hab : decide (comparator a b ≠ .gt))
      (hbc : decide (comparator b c ≠ .gt)) : decide (comparator a c ≠ .gt) := by
    rw [decide_eq_true_iff, h] at hab hbc ⊢
    exact hab.trans hbc
  have htot a b : (decide (comparator a b ≠ .gt) || decide (comparator b a ≠ .gt)) := by
    rw [Bool.or_eq_true, decide_eq_true_iff, decide_eq_true_iff, h, h]
    exact le_total _ _
  obtain ⟨front, rear, hsort, hspl, hfr⟩ := mergeSort_cons htrans htot item items
  have hpair := pairwise_sort h (item :: items)
  unfold sort at hpair ⊢
  rw [hsort] at hpair ⊢
  rw [hspl]
  clear hsort hspl
  induction front with
  | nil =>
    cases rear with
    | nil => rfl
    | cons other rear =>
      exact (if_pos ((h _ _).2 ((pairwise_cons.1 hpair).1 other mem_cons_self))).symm
  | cons other front ih =>
    obtain ⟨hoth, hfr⟩ := forall_mem_cons.1 hfr
    rw [cons_append, cons_append, orderedInsert_cons, if_neg (by simpa using hoth),
      ← ih hfr (pairwise_cons.1 hpair).2]

lemma orderedInsert_insertBehind (h : Compares comparator rank) (first last : α) (items) :
    (insertBehind comparator last items).orderedInsert (fun item other => comparator item other ≠ .gt) first =
      insertBehind comparator last (items.orderedInsert (fun item other => comparator item other ≠ .gt) first) := by
  have hgt a b : comparator a b = .gt ↔ rank b < rank a := by rw [← not_le, ← h, not_not]
  unfold insertBehind
  induction items with
  | nil => simp only [orderedInsert_cons, orderedInsert_nil, hgt, ne_eq, ite_not]
  | cons other items ih =>
    simp only [orderedInsert_cons, hgt, ne_eq, ite_not] at ih ⊢
    split_ifs <;> simp only [orderedInsert_cons, ite_not, ih] <;> split_ifs <;> first | rfl | order

/-- **An item that comes last goes behind its equals** in what is sorted. -/
theorem sort_concat (h : Compares comparator rank) (items : List α) (item : α) :
    sort comparator (items ++ [item]) = insertBehind comparator item (sort comparator items) := by
  induction items with
  | nil =>
    unfold sort
    rw [nil_append, mergeSort_singleton, mergeSort_nil]
    rfl
  | cons other items ih => rw [cons_append, sort_cons h, ih, orderedInsert_insertBehind h, ← sort_cons h]

lemma take_insertBehind (comparator : α → α → Ordering) (item : α) (items count) :
    (insertBehind comparator item items).take count = (insertBehind comparator item (items.take count)).take count := by
  unfold insertBehind
  induction items generalizing count with
  | nil => rw [take_nil]
  | cons other items ih =>
    cases count with
    | zero => rfl
    | succ count =>
      rw [take_succ_cons, orderedInsert_cons, orderedInsert_cons]
      split_ifs
      · cases count <;> simp [take_take]
      · rw [take_succ_cons, take_succ_cons, ih]

lemma exists_split (h : Compares comparator rank) (item)
    (hsort : items.Pairwise fun left right => rank left ≤ rank right) :
    ∃ front rear, items = front ++ rear ∧ (∀ other ∈ front, comparator other item ≠ .gt) ∧
      ∀ other ∈ rear, comparator other item = .gt := by
  induction items with
  | nil => exact ⟨[], [], rfl, nofun, nofun⟩
  | cons other items ih =>
    obtain ⟨hoth, hsort⟩ := pairwise_cons.1 hsort
    obtain ⟨front, rear, rfl, hfr, hrear⟩ := ih hsort
    by_cases hgt : comparator other item = .gt
    · refine ⟨[], _, rfl, nofun, forall_mem_cons.2 ⟨hgt, fun later hlat => ?_⟩⟩
      have hle := hoth later hlat
      by_contra hlat
      exact absurd hgt ((h _ _).2 (hle.trans ((h _ _).1 hlat)))
    · exact ⟨other :: front, rear, rfl, forall_mem_cons.2 ⟨hgt, hfr⟩, hrear⟩

end CodevoEditor.Js
