/-
# A map of counts

How often each key occurs in a list, kept as a map that holds no zero: `bump` adds to the count
of one key and drops the key when nothing is left.
-/

import CodevoEditor.Js.OrderedMap
import Mathlib.Data.List.Count
import Mathlib.Data.List.Dedup
import Mathlib.Data.List.Perm.Basic

namespace CodevoEditor.Window

open Js List OrderedMap

variable {κ : Type*} [DecidableEq κ]

/-- Add `delta` to the count of `key`; a count that is not positive is
dropped. -/
def bump (counts : OrderedMap κ ℤ) (key : κ) (delta : ℤ) : OrderedMap κ ℤ :=
  if 0 < (counts.get? key).getD 0 + delta then
    counts.set key ((counts.get? key).getD 0 + delta)
  else counts.delete key

/-- The map holds how often each key occurs in `keys`, and nothing else. -/
def Counts (counts : OrderedMap κ ℤ) (keys : List κ) : Prop :=
  ∀ key, counts.get? key = if keys.count key = 0 then none else some (keys.count key : ℤ)

namespace Counts

variable {counts : OrderedMap κ ℤ} {keys keys' : List κ}

lemma empty : Counts (OrderedMap.empty : OrderedMap κ ℤ) [] := fun _ => rfl

lemma congr (h : Counts counts keys) (heq : ∀ key, keys'.count key = keys.count key) :
    Counts counts keys' := fun key => by rw [heq]; exact h key

lemma getD (h : Counts counts keys) (key : κ) : (counts.get? key).getD 0 = keys.count key := by
  rw [h]; split_ifs with h0 <;> simp [h0]

lemma bump (h : Counts counts keys) {key} {delta}
    (hkey : (keys'.count key : ℤ) = keys.count key + delta)
    (hoth : ∀ key', key' ≠ key → keys'.count key' = keys.count key') :
    Counts (bump counts key delta) keys' := by
  intro key'
  unfold Window.bump
  rw [h.getD key, ← hkey]
  by_cases hk : key' = key
  · subst hk
    split_ifs with hpos h0 h0
    · omega
    · simp
    · simp
    · omega
  · rw [hoth key' hk, ← h key']
    split_ifs
    · rw [get?_set, if_neg hk]
    · rw [get?_delete, if_neg hk]

lemma bump_insert {before after} (h : Counts counts (before ++ after)) (key : κ) :
    Counts (Window.bump counts key 1) (before ++ key :: after) := by
  refine h.bump ?_ fun key' hne => ?_
  · simp only [count_append, count_cons_self]; omega
  · simp only [count_append, count_cons_of_ne (.symm hne)]

lemma bump_erase {before after} {key} (h : Counts counts (before ++ key :: after)) :
    Counts (Window.bump counts key (-1)) (before ++ after) := by
  refine h.bump ?_ fun key' hne => ?_
  · simp only [count_append, count_cons_self]; omega
  · simp only [count_append, count_cons_of_ne (.symm hne)]

lemma mem_keys_iff (h : Counts counts keys) {key} : key ∈ counts.keys ↔ key ∈ keys := by
  rw [OrderedMap.mem_keys_iff, h, ← List.count_pos_iff]
  split_ifs with h0 <;> simp [h0, Nat.pos_iff_ne_zero]

/-- **The size of the map is the number of distinct keys.** -/
theorem size_eq (h : Counts counts keys) : counts.size = keys.dedup.length := by
  rw [← length_keys]
  refine Perm.length_eq ((perm_ext_iff_of_nodup counts.nodup (nodup_dedup keys)).2 ?_)
  intro key
  rw [mem_dedup]
  exact h.mem_keys_iff

end Counts
end CodevoEditor.Window
