/-
# Furthest-reaching paths

Scripts are paths in a grid: to the right for a deletion, down for an insertion, and along the
diagonal where both lists have the same entry.
-/

import CodevoEditor.Edits.Scripts
import Mathlib.Data.Int.Order.Basic

namespace CodevoEditor.Edits

open List Nat

variable {α : Type}

/-- `Reach left right d x y`: a path with `d` edits gets to the point `(x, y)`. -/
inductive Reach (left right : List α) : ℕ → ℕ → ℕ → Prop
  | start : Reach left right 0 0 0
  | diagonal {d x y : ℕ} {a : α} (h : Reach left right d x y) (hleft : left[x]? = some a)
      (hright : right[y]? = some a) : Reach left right d (x + 1) (y + 1)
  | right {d x y : ℕ} (h : Reach left right d x y) : Reach left right (d + 1) (x + 1) y
  | down {d x y : ℕ} (h : Reach left right d x y) : Reach left right (d + 1) x (y + 1)

/-- The diagonals that paths with `d` edits end on. -/
def OnFan (d : ℕ) (k : ℤ) : Prop := -(d : ℤ) ≤ k ∧ k ≤ d ∧ (d + k) % 2 = 0

variable {ops : List EditOp}

section Reach

variable {left right : List α} {d x y : ℕ}

namespace Reach

lemma onFan (h : Reach left right d x y) : OnFan d (x - y) := by
  unfold OnFan
  induction h with
  | start => omega
  | diagonal _ _ _ ih => omega
  | right _ ih => omega
  | down _ ih => omega

/-- **No path gains by leaving the lists.**  As far as it is inside, a path that leaves them
has edits to spare. -/
theorem clamp (h : Reach left right d x y) :
    ∃ d' ≤ d, Reach left right d' (min x left.length) (min y right.length) ∧
      (d' = d → x ≤ left.length ∧ y ≤ right.length) := by
  induction h with
  | start => exact ⟨0, le_rfl, by rw [Nat.zero_min, Nat.zero_min]; exact start, fun _ => by omega⟩
  | @diagonal d x y a _ hleft hrt ih =>
    obtain ⟨d', hle, h, hinside⟩ := ih
    obtain ⟨hx, -⟩ := List.getElem?_eq_some_iff.1 hleft
    obtain ⟨hy, -⟩ := List.getElem?_eq_some_iff.1 hrt
    rw [min_eq_left hx.le, min_eq_left hy.le] at h
    rw [min_eq_left hx, min_eq_left hy]
    exact ⟨d', hle, h.diagonal hleft hrt, fun _ => ⟨hx, hy⟩⟩
  | @right d x y _ ih =>
    obtain ⟨d', hle, h, hinside⟩ := ih
    rcases lt_or_ge x left.length with hx | hx
    · rw [min_eq_left hx.le] at h
      rw [min_eq_left hx]
      exact ⟨d' + 1, by omega, h.right, fun heq => ⟨hx, (hinside (by omega)).2⟩⟩
    · rw [min_eq_right hx] at h
      rw [min_eq_right (show left.length ≤ x + 1 by omega)]
      exact ⟨d', by omega, h, fun heq => by omega⟩
  | @down d x y _ ih =>
    obtain ⟨d', hle, h, hinside⟩ := ih
    rcases lt_or_ge y right.length with hy | hy
    · rw [min_eq_left hy.le] at h
      rw [Nat.min_eq_left hy]
      exact ⟨d' + 1, by omega, h.down, fun heq => ⟨(hinside (by omega)).1, hy⟩⟩
    · rw [min_eq_right hy] at h
      rw [min_eq_right (show right.length ≤ y + 1 by omega)]
      exact ⟨d', by omega, h, fun heq => by omega⟩

end Reach

lemma Script.reach {left right : List α} (h : Script left right ops) :
    Reach left right (cost ops) left.length right.length := by
  suffices hfrom : ∀ front front' : List α, ∀ d, Reach (front ++ left) (front' ++ right) d front.length front'.length →
      Reach (front ++ left) (front' ++ right) (d + cost ops) (front ++ left).length (front' ++ right).length by
    have := hfrom [] [] 0 .start
    rwa [nil_append, nil_append, Nat.zero_add] at this
  induction h with
  | nil =>
    intro front front' d hd
    rw [append_nil, append_nil] at hd ⊢
    exact hd
  | @equal a left right ops _ ih =>
    intro front front' d hd
    have := ih (front ++ [a]) (front' ++ [a]) d
    rw [append_assoc, append_assoc, singleton_append, singleton_append, length_append, length_append] at this
    refine this (@Reach.diagonal _ _ _ _ _ _ a hd ?_ ?_)
    · rw [getElem?_append_right le_rfl, Nat.sub_self]; rfl
    · rw [getElem?_append_right le_rfl, Nat.sub_self]; rfl
  | @delete a left right ops _ ih =>
    intro front front' d hd
    have := ih (front ++ [a]) front' (d + 1)
    rw [append_assoc, singleton_append, length_append] at this
    rw [cost, ← Nat.add_assoc, Nat.add_right_comm]
    exact this hd.right
  | @insert a left right ops _ ih =>
    intro front front' d hd
    have := ih front (front' ++ [a]) (d + 1)
    rw [append_assoc, singleton_append] at this
    rw [cost, ← Nat.add_assoc, Nat.add_right_comm]
    refine this ?_
    rw [length_append]
    exact hd.down

end Reach

section Furthest

variable [DecidableEq α]

/-- How far two lists agree. -/
def matchLength : List α → List α → ℕ
  | a :: left, b :: right => if a = b then matchLength left right + 1 else 0
  | _, _ => 0

/-- A path comes to a diagonal from the one above or from the one below. -/
def comesDown (reached : ℤ → ℕ) (d : ℕ) (k : ℤ) : Prop :=
  k = -d ∨ k ≠ d ∧ reached (k - 1) < reached (k + 1)

instance (reached : ℤ → ℕ) (d : ℕ) (k : ℤ) : Decidable (comesDown reached d k) :=
  inferInstanceAs (Decidable (_ ∨ _))

/-- Where a path that comes to a diagonal starts to follow it. -/
def entry (reached : ℤ → ℕ) (d : ℕ) (k : ℤ) : ℕ :=
  if comesDown reached d k then reached (k + 1) else reached (k - 1) + 1

/-- The column of the furthest point on the diagonal `k` with `d` edits. -/
def furthest (left right : List α) : ℕ → ℤ → ℕ
  | 0, _ => matchLength left right
  | d + 1, k =>
      let x := entry (furthest left right d) (d + 1) k
      x + matchLength (left.drop x) (right.drop (x - k).toNat)

variable {left right : List α} {d x y j : ℕ}

lemma le_matchLength_iff {left right : List α} {j : ℕ} :
    j ≤ matchLength left right ↔ ∀ i < j, ∃ a, left[i]? = some a ∧ right[i]? = some a := by
  induction left generalizing right j with
  | nil =>
    rw [matchLength]
    · constructor
      · intro hle i hi
        omega
      · intro h
        by_contra hpos
        obtain ⟨a, ha, -⟩ := h 0 (by omega)
        cases ha
    · intro a left b right heq
      cases heq
  | cons a left ih =>
    cases right with
    | nil =>
      rw [matchLength]
      · constructor
        · intro hle i hi
          omega
        · intro h
          by_contra hpos
          obtain ⟨a, -, ha⟩ := h 0 (by omega)
          cases ha
      · intro a left b right _ heq
        cases heq
    | cons b right =>
      rw [matchLength]
      by_cases hab : a = b
      · rw [if_pos hab]
        constructor
        · intro hle i hi
          cases i with
          | zero => exact ⟨a, rfl, by rw [hab]; rfl⟩
          | succ i => exact (ih.1 (show j - 1 ≤ _ by omega)) i (by omega)
        · intro h
          have := ih.2 fun i (hi : i < j - 1) => h (i + 1) (by omega)
          omega
      · rw [if_neg hab]
        constructor
        · intro hle i hi
          omega
        · intro h
          by_contra hpos
          obtain ⟨c, hleft, hrt⟩ := h 0 (by omega)
          rw [getElem?_cons_zero, Option.some.injEq] at hleft hrt
          exact hab (hleft.trans hrt.symm)

lemma matchLength_comm (left right : List α) : matchLength left right = matchLength right left := by
  refine eq_of_forall_le_iff fun j => le_matchLength_iff.trans (.trans ?_ le_matchLength_iff.symm)
  exact forall₂_congr fun _ _ => exists_congr fun _ => and_comm

lemma le_add_matchLength {e : ℕ} (hj : j ≤ matchLength (left.drop x) (right.drop y)) :
    x + j ≤ x + e + matchLength (left.drop (x + e)) (right.drop (y + e)) := by
  rcases le_total j e with hje | hej
  · omega
  · have : j - e ≤ matchLength (left.drop (x + e)) (right.drop (y + e)) := by
      refine le_matchLength_iff.2 fun i hi => ?_
      obtain ⟨a, hleft, hrt⟩ := le_matchLength_iff.1 hj (e + i) (by omega)
      rw [getElem?_drop] at hleft hrt
      refine ⟨a, ?_, ?_⟩
      · rw [getElem?_drop, ← hleft, Nat.add_assoc]
      · rw [getElem?_drop, ← hrt, Nat.add_assoc]
    omega

lemma take_eq_take_of_le_matchLength (h : j ≤ matchLength left right) :
    left.take j = right.take j ∧ j ≤ left.length ∧ j ≤ right.length := by
  refine ⟨ext_getElem? fun i => ?_, ?_⟩
  · rcases lt_or_ge i j with hi | hi
    · obtain ⟨a, hleft, hrt⟩ := le_matchLength_iff.1 h i hi
      rw [getElem?_take_of_lt hi, getElem?_take_of_lt hi, hleft, hrt]
    · rw [getElem?_take_eq_none hi, getElem?_take_eq_none hi]
  · cases j with
    | zero => exact ⟨zero_le _, zero_le _⟩
    | succ j =>
      obtain ⟨a, hleft, hrt⟩ := le_matchLength_iff.1 h j (lt_succ_self j)
      obtain ⟨hlt, -⟩ := List.getElem?_eq_some_iff.1 hleft
      obtain ⟨hlt', -⟩ := List.getElem?_eq_some_iff.1 hrt
      exact ⟨hlt, hlt'⟩

lemma Script.of_le_matchLength (h : j ≤ matchLength left right) :
    Script (left.take j) (right.take j) (List.replicate j .equal) := by
  obtain ⟨htake, hlen, -⟩ := take_eq_take_of_le_matchLength h
  have hkeep := Script.keep (left.take j)
  rw [length_take, min_eq_left hlen] at hkeep
  rwa [htake] at hkeep ⊢

namespace Reach

lemma follow (h : Reach left right d x y) (hj : j ≤ matchLength (left.drop x) (right.drop y)) :
    Reach left right d (x + j) (y + j) := by
  induction j with
  | zero => exact h
  | succ j ih =>
    obtain ⟨a, hleft, hrt⟩ := le_matchLength_iff.1 hj j (lt_succ_self j)
    rw [getElem?_drop] at hleft hrt
    exact (ih (by omega)).diagonal hleft hrt

lemma last (h : Reach left right (d + 1) x y) :
    ∃ x₀ y₀ j, (∃ x₁, x₀ = x₁ + 1 ∧ Reach left right d x₁ y₀ ∨ ∃ y₁, y₀ = y₁ + 1 ∧ Reach left right d x₀ y₁) ∧
      x = x₀ + j ∧ y = y₀ + j ∧ j ≤ matchLength (left.drop x₀) (right.drop y₀) := by
  generalize hd : d + 1 = edits at h
  induction h with
  | start => cases hd
  | @diagonal edits x y a _ hleft hrt ih =>
    obtain ⟨x₀, y₀, j, hedit, rfl, rfl, hj⟩ := ih hd
    refine ⟨x₀, y₀, j + 1, hedit, rfl, rfl, le_matchLength_iff.2 fun i hi => ?_⟩
    rcases lt_or_ge i j with hij | hij
    · exact le_matchLength_iff.1 hj i hij
    · obtain rfl : i = j := by omega
      exact ⟨a, by rwa [getElem?_drop], by rwa [getElem?_drop]⟩
  | @right edits x y h _ =>
    cases hd
    exact ⟨x + 1, y, 0, ⟨x, .inl ⟨rfl, h⟩⟩, rfl, rfl, zero_le _⟩
  | @down edits x y h _ =>
    cases hd
    exact ⟨x, y + 1, 0, ⟨0, .inr ⟨y, rfl, h⟩⟩, rfl, rfl, zero_le _⟩

end Reach

lemma Script.insert_follow (h : Script (left.take x) (right.take y) ops) (hy : y < right.length)
    (hj : j ≤ matchLength (left.drop x) (right.drop (y + 1))) :
    Script (left.take (x + j)) (right.take (y + 1 + j)) (ops ++ .insert :: List.replicate j .equal) := by
  have hmatch := Script.of_le_matchLength hj
  have hfr : right.take (y + 1 + j) = right.take y ++ right[y] :: (right.drop (y + 1)).take j := by
    rw [take_add (i := y + 1), take_succ_eq_append_getElem hy, append_assoc]
    rfl
  rw [take_add, hfr]
  exact h.append (hmatch.insert _)

lemma Script.delete_follow (h : Script (left.take x) (right.take y) ops) (hx : x < left.length)
    (hj : j ≤ matchLength (left.drop (x + 1)) (right.drop y)) :
    Script (left.take (x + 1 + j)) (right.take (y + j)) (ops ++ .delete :: List.replicate j .equal) := by
  have hmatch := Script.of_le_matchLength hj
  have hfr : left.take (x + 1 + j) = left.take x ++ left[x] :: (left.drop (x + 1)).take j := by
    rw [take_add (i := x + 1), take_succ_eq_append_getElem hx, append_assoc]
    rfl
  rw [hfr, take_add]
  exact h.append (hmatch.delete _)

variable {k : ℤ}

lemma reach_entry (hk : OnFan (d + 1) k)
    (ih : ∀ k', OnFan d k' → k' ≤ furthest left right d k' ∧ Reach left right d (furthest left right d k')
      (furthest left right d k' - k').toNat) :
    k ≤ entry (furthest left right d) (d + 1) k ∧
      Reach left right (d + 1) (entry (furthest left right d) (d + 1) k)
        (entry (furthest left right d) (d + 1) k - k).toNat := by
  obtain ⟨hge, hle, hparity⟩ := hk
  unfold entry
  by_cases hdown : comesDown (furthest left right d) (d + 1) k
  · rw [if_pos hdown]
    have hk' : OnFan d (k + 1) := by
      refine ⟨?_, ?_, by omega⟩
      · omega
      · rcases hdown with hdown | hdown
        · omega
        · have := hdown.1
          push_cast at this
          omega
    obtain ⟨hdiag, hrch⟩ := ih (k + 1) hk'
    refine ⟨by omega, ?_⟩
    have hy : (furthest left right d (k + 1) - k : ℤ).toNat
        = (furthest left right d (k + 1) - (k + 1) : ℤ).toNat + 1 := by omega
    rw [hy]
    exact hrch.down
  · rw [if_neg hdown]
    have hk' : OnFan d (k - 1) := by
      have hne : k ≠ -(d + 1 : ℕ) := fun heq => hdown (.inl heq)
      refine ⟨?_, ?_, ?_⟩
      · push_cast at hne
        omega
      · omega
      · omega
    obtain ⟨hdiag, hrch⟩ := ih (k - 1) hk'
    push_cast
    refine ⟨by omega, ?_⟩
    have hy : (furthest left right d (k - 1) + 1 - k : ℤ).toNat
        = (furthest left right d (k - 1) - (k - 1) : ℤ).toNat := by omega
    rw [hy]
    exact hrch.right

variable (left right) in
lemma reach_furthest (hk : OnFan d k) :
    k ≤ furthest left right d k ∧
      Reach left right d (furthest left right d k) (furthest left right d k - k).toNat := by
  induction d generalizing k with
  | zero =>
    obtain ⟨hge, hle, -⟩ := hk
    obtain rfl : k = 0 := by omega
    have hst : Reach left right 0 0 0 := .start
    have h := hst.follow (show matchLength left right ≤ matchLength (left.drop 0) (right.drop 0) from le_rfl)
    rw [Nat.zero_add] at h
    refine ⟨Int.natCast_nonneg _, ?_⟩
    exact h
  | succ d ih =>
    obtain ⟨hdiag, hrch⟩ := reach_entry hk fun k' hk' => ih hk'
    rw [furthest]
    generalize entry (furthest left right d) (d + 1) k = x at *
    have hy j : ((x + j : ℕ) - k : ℤ).toNat = (x - k : ℤ).toNat + j := by omega
    refine ⟨by omega, ?_⟩
    rw [hy]
    exact hrch.follow le_rfl

lemma le_furthest (h : Reach left right d x y) : x ≤ furthest left right d (x - y) := by
  induction d generalizing x y with
  | zero =>
    suffices hmatch : x = y ∧ x ≤ matchLength left right from hmatch.2
    generalize hd : 0 = edits at h
    induction h with
    | start => exact ⟨rfl, zero_le _⟩
    | @diagonal edits x y a _ hleft hrt ih =>
      obtain ⟨rfl, hle⟩ := ih hd
      refine ⟨rfl, le_matchLength_iff.2 fun i hi => ?_⟩
      rcases lt_or_ge i x with hix | hix
      · exact le_matchLength_iff.1 hle i hix
      · obtain rfl : i = x := by omega
        exact ⟨a, hleft, hrt⟩
    | right => cases hd
    | down => cases hd
  | succ d ih =>
    have hfan := h.onFan
    obtain ⟨x₀, y₀, j, hedit, rfl, rfl, hj⟩ := h.last
    have hk : ((x₀ + j : ℕ) - (y₀ + j : ℕ) : ℤ) = x₀ - y₀ := by omega
    rw [hk] at hfan ⊢
    have hent : x₀ ≤ entry (furthest left right d) (d + 1) (x₀ - y₀) := by
      unfold entry
      obtain ⟨x₁, ⟨rfl, h₁⟩ | ⟨y₁, rfl, h₁⟩⟩ := hedit
      · have hle := ih h₁
        have hbelow : ((x₁ + 1 : ℕ) - y₀ - 1 : ℤ) = x₁ - y₀ := by omega
        have hfan₁ := h₁.onFan.1
        split_ifs with hdown
        · rcases hdown with hdown | ⟨-, hlt⟩
          · omega
          · rw [hbelow] at hlt
            omega
        · rw [hbelow]
          omega
      · have hle := ih h₁
        have habove : (x₀ - (y₁ + 1 : ℕ) + 1 : ℤ) = x₀ - y₁ := by omega
        have hfan₁ := h₁.onFan.2.1
        split_ifs with hdown
        · rw [habove]
          exact hle
        · have hge : furthest left right d (x₀ - (y₁ + 1 : ℕ) + 1)
              ≤ furthest left right d (x₀ - (y₁ + 1 : ℕ) - 1) := by
            by_contra hlt
            exact hdown (.inr ⟨by omega, by omega⟩)
          rw [habove] at hge
          omega
    rw [furthest]
    generalize entry (furthest left right d) (d + 1) (x₀ - y₀) = x at *
    obtain ⟨e, rfl⟩ := Nat.exists_eq_add_of_le hent
    have hy : ((x₀ + e : ℕ) - (x₀ - y₀) : ℤ).toNat = y₀ + e := by omega
    rw [hy]
    exact le_add_matchLength hj

/-- The furthest point of a diagonal is in the corner or beyond. -/
def AtCorner (left right : List α) (d : ℕ) (k : ℤ) : Prop :=
  left.length ≤ furthest left right d k ∧ (right.length : ℤ) ≤ furthest left right d k - k

lemma atCorner_of_reach (h : Reach left right d left.length right.length) :
    AtCorner left right d (left.length - right.length) := by
  have := le_furthest h
  refine ⟨this, ?_⟩
  omega

/-- **Who gets to the corner first ends there.** -/
theorem first_atCorner (hk : OnFan d k) (h : AtCorner left right d k)
    (hfst : ∀ d' < d, ∀ k', OnFan d' k' → ¬ AtCorner left right d' k') :
    k = left.length - right.length ∧ furthest left right d k = left.length := by
  obtain ⟨hdiag, hrch⟩ := reach_furthest left right hk
  obtain ⟨d', hle, hclamped, hinside⟩ := hrch.clamp
  obtain ⟨hx, hy⟩ := h
  rw [min_eq_right hx, min_eq_right (by omega)] at hclamped
  obtain rfl : d' = d := by
    by_contra hne
    exact hfst d' (by omega) _ hclamped.onFan (atCorner_of_reach hclamped)
  obtain ⟨hx', hy'⟩ := hinside rfl
  omega

lemma atCorner_of_script (h : Script left right ops) :
    OnFan (cost ops) (left.length - right.length) ∧ AtCorner left right (cost ops) (left.length - right.length) :=
  ⟨h.reach.onFan, atCorner_of_reach h.reach⟩

end Furthest

end CodevoEditor.Edits
