/-
# Replacing the last item that matters

`replaceLast touches merge items` looks for the last item that `touches`; when `merge` can renew
that item it is renewed in place, and when there is no such item or it cannot be renewed there
is no replacement.
-/

import Mathlib.Data.List.Basic

namespace CodevoEditor.Window

variable {α : Type*}

def replaceLast (touches : α → Bool) (merge : α → Option α) : List α → Option (List α)
  | [] => none
  | item :: items =>
      if items.any touches then (replaceLast touches merge items).map (item :: ·)
      else if touches item then (merge item).map (· :: items)
      else none

variable {touches : α → Bool} {merge : α → Option α}

variable {items : List α}

lemma replaceLast_of_none (h : ∀ a ∈ items, touches a = false) : replaceLast touches merge items = none := by
  cases items with
  | nil => rfl
  | cons head items =>
    obtain ⟨hhead, hitems⟩ := List.forall_mem_cons.1 h
    rw [replaceLast, if_neg (by simpa using hitems), hhead, if_neg Bool.false_ne_true]

variable {before after : List α} {item : α}

lemma replaceLast_split (hitem : touches item) (haft : ∀ a ∈ after, touches a = false) :
    replaceLast touches merge (before ++ item :: after) =
      (merge item).map fun merged => before ++ merged :: after := by
  induction before with
  | nil =>
    rw [List.nil_append, replaceLast, if_neg (by simpa using haft), if_pos hitem]
    rfl
  | cons head before ih =>
    rw [List.cons_append, replaceLast, if_pos (by simp [hitem]), ih, Option.map_map]
    rfl

lemma untouched_or_split (touches : α → Bool) (items : List α) :
    (∀ a ∈ items, touches a = false) ∨ ∃ before item after, items = before ++ item :: after ∧
      touches item ∧ ∀ a ∈ after, touches a = false := by
  induction items with
  | nil => exact .inl nofun
  | cons head items ih =>
    rcases ih with hnone | ⟨before, item, after, rfl, hitem, haft⟩
    · cases hhead : touches head with
      | false => exact .inl (List.forall_mem_cons.2 ⟨hhead, hnone⟩)
      | true => exact .inr ⟨[], head, items, rfl, hhead, hnone⟩
    · exact .inr ⟨head :: before, item, after, rfl, hitem, haft⟩

/-- **What a replacement does.**  It renews the last item that touches. -/
theorem replaceLast_eq_some_iff {items'} :
    replaceLast touches merge items = some items' ↔
      ∃ before item after merged, items = before ++ item :: after ∧ touches item ∧
        (∀ a ∈ after, touches a = false) ∧ merge item = some merged ∧
        items' = before ++ merged :: after := by
  constructor
  · intro h
    rcases untouched_or_split touches items with hnone | ⟨before, item, after, rfl, hitem, haft⟩
    · rw [replaceLast_of_none hnone] at h; cases h
    · rw [replaceLast_split hitem haft] at h
      obtain ⟨merged, hmrg, rfl⟩ := Option.map_eq_some_iff.1 h
      exact ⟨before, item, after, merged, rfl, hitem, haft, hmrg, rfl⟩
  · rintro ⟨before, item, after, merged, rfl, hitem, haft, hmrg, rfl⟩
    rw [replaceLast_split hitem haft, hmrg]
    rfl

/-- The last item that touches, between the items before it and after it. -/
def lastTouched (touches : α → Bool) : List α → Option (List α × α × List α)
  | [] => none
  | item :: items =>
      match lastTouched touches items with
      | some (before, last, after) => some (item :: before, last, after)
      | none => if touches item then some ([], item, items) else none

lemma lastTouched_of_none (h : ∀ a ∈ items, touches a = false) : lastTouched touches items = none := by
  induction items with
  | nil => rfl
  | cons head items ih =>
    obtain ⟨hhead, hitems⟩ := List.forall_mem_cons.1 h
    rw [lastTouched, ih hitems, hhead]
    rfl

lemma lastTouched_split (hitem : touches item) (haft : ∀ a ∈ after, touches a = false) :
    lastTouched touches (before ++ item :: after) = some (before, item, after) := by
  induction before with
  | nil => rw [List.nil_append, lastTouched, lastTouched_of_none haft, hitem]; rfl
  | cons head before ih => rw [List.cons_append, lastTouched, ih]

lemma lastTouched_eq_some_iff :
    lastTouched touches items = some (before, item, after) ↔
      items = before ++ item :: after ∧ touches item ∧ ∀ a ∈ after, touches a = false := by
  constructor
  · intro h
    rcases untouched_or_split touches items with hnone | ⟨before', item', after', rfl, hi, ha⟩
    · rw [lastTouched_of_none hnone] at h; cases h
    · rw [lastTouched_split hi ha] at h
      cases h
      exact ⟨rfl, hi, ha⟩
  · rintro ⟨rfl, hitem, haft⟩
    exact lastTouched_split hitem haft

end CodevoEditor.Window
