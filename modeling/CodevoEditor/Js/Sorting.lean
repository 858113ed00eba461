/-
# Sorting with a comparator

`Array.prototype.sort` is stable, so with a comparator that agrees with a rank in a linear order
it is the merge sort of the list.
-/

import Mathlib.Data.Prod.Lex
import Mathlib.Data.List.Lex
import CodevoEditor.Js.Text

namespace CodevoEditor.Js

open List

variable {α β γ : Type*}

/-- `[...items].sort(comparator)`. -/
def sort (comparator : α → α → Ordering) (items : List α) : List α :=
  items.mergeSort fun left right => comparator left right ≠ .gt

/-- The code units of a string as numbers: strings are compared by them. -/
def units (text : JsString) : List ℕ := text.map UInt16.toNat

lemma units_injective : Function.Injective units :=
  map_injective_iff.2 fun _ _ => UInt16.toNat_inj.1

def compareText (left right : JsString) : Ordering :=
  if units left < units right then .lt
  else if units right < units left then .gt
  else .eq

lemma sort_perm (comparator : α → α → Ordering) (items : List α) :
    (sort comparator items).Perm items := mergeSort_perm items _

variable {items : List α}

lemma mem_sort {comparator : α → α → Ordering} {item} :
    item ∈ sort comparator items ↔ item ∈ items := (sort_perm comparator items).mem_iff

@[simp] lemma length_sort (comparator : α → α → Ordering) (items : List α) :
    (sort comparator items).length = items.length := (sort_perm comparator items).length_eq

section Rank

variable [LinearOrder β] [LinearOrder γ]

/-- The comparator compares the ranks. -/
def Compares (comparator : α → α → Ordering) (rank : α → β) : Prop :=
  ∀ left right, comparator left right ≠ .gt ↔ rank left ≤ rank right

lemma then_ne_gt_iff {a b : β} {rest : Ordering} : (compare a b).then rest ≠ .gt ↔ a < b ∨ a = b ∧ rest ≠ .gt := by
  rcases lt_trichotomy a b with h | rfl | h
  · rw [compare_lt_iff_lt.2 h]
    exact iff_of_true (by simp) (.inl h)
  · rw [compare_eq_iff_eq.2 rfl]
    exact ⟨fun h => .inr ⟨rfl, h⟩, fun h => h.elim (fun h => absurd h (lt_irrefl a)) And.right⟩
  · rw [compare_gt_iff_gt.2 h]
    refine iff_of_false (by simp) ?_
    rintro (h' | ⟨rfl, -⟩)
    · exact lt_asymm h h'
    · exact lt_irrefl a h

variable {rest : α → γ}

lemma Compares.then {comparator : α → α → Ordering} (rank : α → β) (h : Compares comparator rest) :
    Compares (fun left right => (compare (rank left) (rank right)).then (comparator left right))
      fun item => toLex (rank item, rest item) := by
  intro left right
  rw [then_ne_gt_iff, Prod.Lex.toLex_le_toLex, h left right]

variable (text : α → JsString)

lemma Compares.thenText {comparator : α → α → Ordering}
    (h : Compares comparator rest) :
    Compares (fun left right => (compareText (text left) (text right)).then (comparator left right))
      fun item => toLex (units (text item), rest item) := by
  intro left right
  rw [Prod.Lex.toLex_le_toLex, ← h left right]
  dsimp only
  unfold compareText
  rcases lt_trichotomy (units (text left)) (units (text right)) with hlt | heq | hgt
  · rw [if_pos hlt]
    exact iff_of_true (by simp) (.inl hlt)
  · rw [heq, if_neg (lt_irrefl _), if_neg (lt_irrefl _)]
    exact ⟨fun hrest => .inr ⟨rfl, hrest⟩, fun hor => hor.elim (fun hlt => absurd hlt (lt_irrefl _)) And.right⟩
  · rw [if_neg (lt_asymm hgt), if_pos hgt]
    refine iff_of_false (by simp) ?_
    rintro (hlt | ⟨heq, -⟩)
    · exact lt_asymm hlt hgt
    · exact hgt.ne' heq

lemma compares_text :
    Compares (fun left right => compareText (text left) (text right)) fun item => units (text item) := by
  intro left right
  dsimp only
  unfold compareText
  split_ifs with hlt hgt
  · exact iff_of_true (by simp) hlt.le
  · exact iff_of_false (by simp) (not_le.2 hgt)
  · exact iff_of_true (by simp) (not_lt.1 hgt)

variable {comparator : α → α → Ordering} {rank : α → β}

lemma pairwise_sort (h : Compares comparator rank) (items : List α) :
    (sort comparator items).Pairwise fun left right => rank left ≤ rank right := by
  have hpair : (sort comparator items).Pairwise fun left right =>
      decide (comparator left right ≠ .gt) := by
    refine pairwise_mergeSort (fun a b c hab hbc => ?_) (fun a b => ?_) items
    · rw [decide_eq_true_iff, h] at hab hbc ⊢
      exact hab.trans hbc
    · rw [Bool.or_eq_true, decide_eq_true_iff, decide_eq_true_iff, h, h]
      exact le_total _ _
  exact hpair.imp fun hle => (h _ _).1 (decide_eq_true_iff.1 hle)

/-- **What is sorted is determined by what is in the list.** -/
theorem sort_eq_of_perm (h : Compares comparator rank) {items'}
    (hinjective : ∀ a ∈ items, ∀ b ∈ items, rank a = rank b → a = b) (hperm : items.Perm items') :
    sort comparator items = sort comparator items' := by
  refine ((sort_perm _ _).trans (hperm.trans (sort_perm _ _).symm)).eq_of_pairwise
    (fun a b ha hb hab hba => ?_) (pairwise_sort h items) (pairwise_sort h items')
  exact hinjective a (mem_sort.1 ha) b (hperm.mem_iff.2 (mem_sort.1 hb)) (le_antisymm hab hba)

variable {place : α → ℕ}

/-- **Where ranks agree, items stay as they stand.** -/
theorem pairwise_sort_standing (h : Compares comparator rank)
    (hplc : items.Pairwise fun left right => place left < place right) :
    (sort comparator items).Pairwise fun left right =>
      toLex (rank left, place left) ≤ toLex (rank right, place right) := by
  have htrans a b c (hab : decide (comparator a b ≠ .gt))
      (hbc : decide (comparator b c ≠ .gt)) : decide (comparator a c ≠ .gt) := by
    rw [decide_eq_true_iff, h] at hab hbc ⊢
    exact hab.trans hbc
  have htot a b : (decide (comparator a b ≠ .gt) || decide (comparator b a ≠ .gt)) := by
    rw [Bool.or_eq_true, decide_eq_true_iff, decide_eq_true_iff, h, h]
    exact le_total _ _
  have hnum := pairwise_mergeSort (zipIdxLE_trans htrans) (zipIdxLE_total htot) items.zipIdx
  unfold sort
  rw [← mergeSort_zipIdx, pairwise_map]
  refine hnum.imp_of_mem fun {a b} ha hb hle => ?_
  have ha := mem_zipIdx_iff_getElem?.1 (mem_mergeSort.1 ha)
  have hb := mem_zipIdx_iff_getElem?.1 (mem_mergeSort.1 hb)
  unfold List.zipIdxLE at hle
  rw [Prod.Lex.toLex_le_toLex]
  split at hle
  case isFalse => cases hle
  case isTrue hab =>
  rw [decide_eq_true_iff, h] at hab
  split at hle
  case isTrue hba =>
    rw [decide_eq_true_iff, h] at hba
    refine .inr ⟨le_antisymm hab hba, ?_⟩
    rcases (of_decide_eq_true hle).eq_or_lt with heq | hlt
    · rw [heq, hb] at ha
      rw [Option.some.inj ha]
    · obtain ⟨hlta, hgeta⟩ := List.getElem?_eq_some_iff.1 ha
      obtain ⟨hltb, hgetb⟩ := List.getElem?_eq_some_iff.1 hb
      have hstands := pairwise_iff_getElem.1 hplc a.2 b.2 hlta hltb hlt
      rw [hgeta, hgetb] at hstands
      exact hstands.le
  case isFalse hba =>
    rw [decide_eq_true_iff, h, not_le] at hba
    exact .inl hba

/-- What is sorted is the one order by rank where ranks that agree stand as they stood. -/
lemma sort_eq_of_standing (h : Compares comparator rank) {result}
    (hplc : items.Pairwise fun left right => place left < place right) (hperm : result.Perm items)
    (hres : result.Pairwise fun left right => toLex (rank left, place left) ≤ toLex (rank right, place right)) :
    sort comparator items = result := by
  have hnd : (items.map place).Nodup := pairwise_map.2 (hplc.imp ne_of_lt)
  refine ((sort_perm _ _).trans hperm.symm).eq_of_pairwise (fun a b ha hb hab hba => ?_)
    (pairwise_sort_standing h hplc) hres
  have heq := toLex.injective (le_antisymm hab hba)
  exact inj_on_of_nodup_map hnd (mem_sort.1 ha) (hperm.mem_iff.1 hb) (Prod.mk.inj heq).2

lemma sort_filter (h : Compares comparator rank)
    (hplc : items.Pairwise fun left right => place left < place right) (keep : α → Bool) :
    sort comparator (items.filter keep) = (sort comparator items).filter keep :=
  sort_eq_of_standing h (hplc.filter keep) ((sort_perm comparator items).filter keep)
    ((pairwise_sort_standing h hplc).filter keep)

end Rank

end CodevoEditor.Js
