/-
# Lists in order

`before b a` says that `b` has to come before `a`.
-/

import Mathlib.Data.List.Basic
import Mathlib.Logic.Relation

namespace CodevoEditor.Runs

open List

variable {α β : Type} {before before' : α → α → Prop} {list : List α}

def Ordered (before : α → α → Prop) (list : List α) : Prop :=
  ∀ front a back, list = front ++ a :: back → ∀ b, before b a → b ∈ front

namespace Ordered

lemma nil : Ordered before ([] : List α) := by
  intro front a back h
  cases front <;> cases h

section

variable (h : Ordered before list)
include h

lemma append_singleton {a} (ha : ∀ b, before b a → b ∈ list) : Ordered before (list ++ [a]) := by
  intro front c back heq b hb
  rcases eq_nil_or_concat back with rfl | ⟨back, last, rfl⟩
  · obtain ⟨rfl, hlast⟩ := append_inj' heq rfl
    obtain rfl := singleton_inj.1 hlast
    exact ha b hb
  · rw [concat_eq_append, ← cons_append, ← append_assoc] at heq
    obtain ⟨hinit, -⟩ := append_inj' heq rfl
    exact h front c back hinit b hb

lemma append {list'}
    (h' : ∀ front a back, list' = front ++ a :: back → ∀ b, before b a → b ∈ list ++ front) :
    Ordered before (list ++ list') := by
  intro front a back heq b hb
  rcases append_eq_append_iff.1 heq with ⟨between, rfl, hlist'⟩ | ⟨between, rfl, hback⟩
  · exact h' between a back hlist' b hb
  · cases between with
    | nil => simpa using h' [] a back hback.symm b hb
    | cons first between =>
      obtain ⟨rfl, rfl⟩ := cons.inj hback
      exact h front a between rfl b hb

lemma mono (hle : ∀ b a, before' b a → before b a) : Ordered before' list :=
  fun front a back heq b hb => h front a back heq b (hle b a hb)

lemma mem_of_before {a b} (ha : a ∈ list) (hb : before b a) : b ∈ list := by
  obtain ⟨front, back, rfl⟩ := append_of_mem ha
  exact mem_append_left _ (h front a back rfl b hb)

lemma mem_of_reflTransGen {a b} (ha : a ∈ list)
    (hab : Relation.ReflTransGen (fun a b => before b a) a b) : b ∈ list := by
  induction hab with
  | refl => exact ha
  | tail _ hstep ih => exact h.mem_of_before ih hstep

lemma idxOf_lt [DecidableEq α] {a b} (ha : a ∈ list) (hb : before b a) : list.idxOf b < list.idxOf a := by
  obtain ⟨front, back, rfl, hfst⟩ := eq_append_cons_of_mem ha
  have hfr : b ∈ front := h front a back rfl b hb
  rw [idxOf_append_of_mem hfr, idxOf_append_of_notMem hfst]
  have := idxOf_lt_length_of_mem hfr
  omega

lemma not_transGen {a} (ha : a ∈ list) : ¬ Relation.TransGen (fun a b => before b a) a a := by
  classical
  have hlt : ∀ b, Relation.TransGen (fun a b => before b a) a b → list.idxOf b < list.idxOf a := by
    intro b hab
    induction hab with
    | single hstep => exact h.idxOf_lt ha hstep
    | tail hab hstep ih =>
      exact Nat.lt_trans (h.idxOf_lt (h.mem_of_reflTransGen ha hab.to_reflTransGen) hstep) ih
  exact fun hcycle => Nat.lt_irrefl _ (hlt a hcycle)

lemma exists_ready {done : α → Prop} (hleft : ∃ a ∈ list, ¬ done a) :
    ∃ a ∈ list, ¬ done a ∧ ∀ b, before b a → done b := by
  classical
  obtain ⟨a, ha, hdone⟩ := hleft
  cases hfind : list.find? fun a => ¬ done a with
  | none =>
    rw [find?_eq_none] at hfind
    exact absurd (decide_eq_true hdone) (hfind a ha)
  | some first =>
    obtain ⟨hfst, front, back, rfl, hfr⟩ := find?_eq_some_iff_append.1 hfind
    refine ⟨first, mem_append_right _ mem_cons_self, of_decide_eq_true hfst, fun b hb => ?_⟩
    have := hfr b (h front first back rfl b hb)
    rw [Bool.not_eq_true', decide_eq_false_iff_not, not_not] at this
    exact this

lemma map {before' : β → β → Prop} {f : α → β}
    (hf : ∀ a ∈ list, ∀ b', before' b' (f a) → ∃ b, f b = b' ∧ before b a) :
    Ordered before' (list.map f) := by
  intro front a back heq b' hb'
  obtain ⟨front, rest, rfl, rfl, hrest⟩ := map_eq_append_iff.1 heq
  obtain ⟨a, back, rfl, rfl, rfl⟩ := map_eq_cons_iff.1 hrest
  obtain ⟨b, rfl, hb⟩ := hf a (mem_append_right _ mem_cons_self) b' hb'
  exact mem_map_of_mem (h front a back rfl b hb)

end

lemma filter {p : α → Bool} (h : ∀ front a back, list = front ++ a :: back → p a →
    ∀ b, before b a → p b ∧ b ∈ front) : Ordered before (list.filter p) := by
  intro front a back heq b hb
  obtain ⟨front', rest, rfl, rfl, hrest⟩ := filter_eq_append_iff.1 heq
  obtain ⟨skipped, back', rfl, hskipped, hpa, rfl⟩ := filter_eq_cons_iff.1 hrest
  obtain ⟨hpb, hmem⟩ := h (front' ++ skipped) a back' (by rw [append_assoc]) hpa b hb
  rcases mem_append.1 hmem with hmem | hmem
  · exact mem_filter.2 ⟨hmem, hpb⟩
  · exact absurd hpb (hskipped b hmem)

end Ordered

end CodevoEditor.Runs
