/-
# The search keeps the furthest points

After the round with `d` edits the frontier has the furthest point of each diagonal that `d`
edits end on (`Scanned`), and a slice of it is kept.
-/

import CodevoEditor.DiffView.LineDiff

namespace CodevoEditor.DiffView

open Edits List Nat

variable {α : Type} [DecidableEq α] {left right : List α}

variable {offset : ℕ}

lemma readAt_set {frontier} {k k'} (x : ℕ) (hk : 0 ≤ (offset : ℤ) + k)
    (hlen : (offset + k).toNat < frontier.length) (hk' : 0 ≤ (offset : ℤ) + k') :
    readAt (frontier.set (offset + k).toNat x) (offset + k') =
      if k' = k then x else readAt frontier (offset + k') := by
  unfold readAt
  rw [getD_eq_getElem?_getD, getElem?_set, getD_eq_getElem?_getD]
  by_cases heq : k' = k
  · rw [heq, if_pos rfl, if_pos rfl, if_pos hlen, Option.getD_some]
  · rw [if_neg heq, if_neg (show (offset + k).toNat ≠ (offset + k').toNat by omega)]

lemma readAt_slice {frontier} {d} {k} (hd : d ≤ offset) (hk : -(d : ℤ) ≤ k)
    (hk' : k ≤ d) :
    readAt (slice frontier (offset - d) (offset + d + 1)) (k + d) = readAt frontier (offset + k) := by
  unfold readAt slice
  have hidx : offset - d + (k + d).toNat = (offset + k).toNat := by omega
  rw [getD_eq_getElem?_getD, getElem?_drop, hidx, getElem?_take_of_lt (by omega), getD_eq_getElem?_getD]

lemma entry_congr {reached reached' : ℤ → ℕ} {d : ℕ} {k : ℤ}
    (habove : k ≠ d → reached (k + 1) = reached' (k + 1))
    (hbelow : k ≠ -d → reached (k - 1) = reached' (k - 1)) :
    (comesDown reached d k ↔ comesDown reached' d k) ∧ (0 < d → entry reached d k = entry reached' d k) := by
  have hdown : comesDown reached d k ↔ comesDown reached' d k := by
    by_cases hlast : k = -d
    · exact ⟨fun _ => .inl hlast, fun _ => .inl hlast⟩
    · refine or_congr_right (and_congr_right fun hne => ?_)
      rw [habove hne, hbelow hlast]
  refine ⟨hdown, fun hpos => ?_⟩
  unfold entry
  by_cases h : comesDown reached d k
  · rw [if_pos h, if_pos (hdown.1 h)]
    rcases h with h | h
    · exact habove (by omega)
    · exact habove h.1
  · rw [if_neg h, if_neg fun h' => h (hdown.2 h'), hbelow fun h' => h (.inl h')]

/-- The frontier in the round with `d` edits, in front of the diagonal `k`. -/
structure Scanned (left right : List α) (limit d : ℕ) (k : ℤ) (frontier : List ℕ) : Prop where
  length : frontier.length = 2 * limit + 3
  start : d = 0 → readAt frontier ((limit + 1 : ℕ) + 1) = 0
  previous : ∀ d', d = d' + 1 → ∀ k', OnFan d' k' → readAt frontier ((limit + 1 : ℕ) + k') = furthest left right d' k'
  current : ∀ k', OnFan d k' → k' < k →
    readAt frontier ((limit + 1 : ℕ) + k') = furthest left right d k' ∧ ¬ AtCorner left right d k'

variable {limit d : ℕ} {k : ℤ} {frontier : List ℕ}

lemma advance_eq_furthest (h : Scanned left right limit d k frontier) (hk : OnFan d k) :
    advance left right frontier (limit + 1) d k = furthest left right d k := by
  obtain ⟨hge, hle, hparity⟩ := hk
  have hslide (x : ℕ) (hx : k ≤ x) :
      slide left right x (x - k) = matchLength (left.drop x) (right.drop (x - k).toNat) :=
    if_neg (by omega)
  unfold advance
  dsimp only
  cases d with
  | zero =>
    obtain rfl : k = 0 := by omega
    have hent : entry (fun k => readAt frontier ((limit + 1 : ℕ) + k)) 0 0 = 0 := by
      unfold entry
      exact h.start rfl
    rw [hent, hslide 0 le_rfl]
    rw [drop_zero, zero_add]
    rfl
  | succ d =>
    have hent : entry (fun k => readAt frontier ((limit + 1 : ℕ) + k)) (d + 1) k
        = entry (furthest left right d) (d + 1) k := by
      refine (entry_congr (fun hne => h.previous d rfl _ ?_) fun hne => h.previous d rfl _ ?_).2 (succ_pos d)
      · refine ⟨?_, ?_, ?_⟩ <;> omega
      · refine ⟨?_, ?_, ?_⟩ <;> omega
    have hdiag := (reach_entry ⟨hge, hle, hparity⟩ fun k' hk' => reach_furthest left right hk').1
    rw [hent, hslide _ hdiag]
    rfl

lemma Scanned.set (h : Scanned left right limit d k frontier) (hk : OnFan d k) (hd : d ≤ limit)
    (hcorner : ¬ AtCorner left right d k) :
    Scanned left right limit d (k + 2) (frontier.set ((limit + 1 : ℕ) + k).toNat (furthest left right d k)) := by
  obtain ⟨hge, hle, hparity⟩ := hk
  have hbd : ((limit + 1 : ℕ) + k).toNat < frontier.length := by
    rw [h.length]
    omega
  refine ⟨by rw [length_set, h.length], fun hzero => ?_, fun d' hd' k' hk' => ?_, fun k' hk' hlt => ?_⟩
  · rw [readAt_set _ (by omega) hbd (by omega), if_neg (by omega)]
    exact h.start hzero
  · obtain ⟨hge', hle', hparity'⟩ := hk'
    rw [readAt_set _ (by omega) hbd (by omega), if_neg (by omega)]
    exact h.previous d' hd' k' ⟨hge', hle', hparity'⟩
  · obtain ⟨hge', hle', hparity'⟩ := hk'
    rw [readAt_set _ (by omega) hbd (by omega)]
    by_cases heq : k' = k
    · rw [if_pos heq, heq]
      exact ⟨rfl, hcorner⟩
    · rw [if_neg heq]
      exact h.current k' ⟨hge', hle', hparity'⟩ (by omega)

lemma scanDiagonals_spec {count : ℕ} (h : Scanned left right limit d k frontier) (hd : d ≤ limit)
    (hk : k + 2 * count = d + 2) (hge : -(d : ℤ) ≤ k) :
    ((scanDiagonals left right (limit + 1) d count k frontier).2 ∧
        ∃ k', OnFan d k' ∧ AtCorner left right d k') ∨
      (scanDiagonals left right (limit + 1) d count k frontier).2 = false ∧
        Scanned left right limit d (d + 2) (scanDiagonals left right (limit + 1) d count k frontier).1 := by
  induction count generalizing k frontier with
  | zero =>
    refine .inr ⟨rfl, ?_⟩
    obtain rfl : k = d + 2 := by omega
    exact h
  | succ count ih =>
    have hfan : OnFan d k := ⟨hge, by omega, by omega⟩
    rw [scanDiagonals, advance_eq_furthest h hfan]
    by_cases hcorner : left.length ≤ furthest left right d k ∧ (right.length : ℤ) ≤ furthest left right d k - k
    · rw [if_pos hcorner]
      exact .inl ⟨rfl, k, hfan, hcorner⟩
    · rw [if_neg hcorner]
      exact ih (h.set hfan hd hcorner) (by omega) (by omega)

/-- What is kept of the rounds. -/
def Traced (left right : List α) (d : ℕ) (trace : List (List ℕ)) : Prop :=
  ∀ i < d, ∀ k, OnFan i k → readAt (trace.getD i []) (k + i) = furthest left right i k

variable {trace : List (List ℕ)}

/-- **Back along a furthest path**: what is read on the way back is a script for what the path has
passed. -/
theorem script_backtrackFrom (htrace : Traced left right d trace) (hk : OnFan d k)
    (hx : furthest left right d k ≤ left.length) (hy : furthest left right d k - k ≤ right.length) :
    Script (left.take (furthest left right d k)) (right.take (furthest left right d k - k : ℤ).toNat)
        (backtrackFrom trace d (furthest left right d k) (furthest left right d k - k)).reverse ∧
      cost (backtrackFrom trace d (furthest left right d k) (furthest left right d k - k)) = d := by
  induction d generalizing k with
  | zero =>
    obtain ⟨hge, hle, -⟩ := hk
    obtain rfl : k = 0 := by omega
    have hmin : (min (furthest left right 0 0 : ℤ) (furthest left right 0 0 - 0)).toNat
        = furthest left right 0 0 := by omega
    rw [backtrackFrom, hmin, reverse_replicate, Int.sub_zero, Int.toNat_natCast]
    exact ⟨Script.of_le_matchLength le_rfl, cost_replicate_equal _⟩
  | succ d ih =>
    obtain ⟨hge, hle, hparity⟩ := hk
    have habove : k ≠ (d + 1 : ℕ) → OnFan d (k + 1) := fun hne => by
      refine ⟨?_, ?_, ?_⟩ <;> omega
    have hbelow : k ≠ -(d + 1 : ℕ) → OnFan d (k - 1) := fun hne => by
      refine ⟨?_, ?_, ?_⟩ <;> omega
    have hrch k' hk' : readAt (trace.getD d []) (k' + d) = furthest left right d k' :=
      htrace d (lt_succ_self d) k' hk'
    have hback : Traced left right d trace := fun i hi => htrace i (by omega)
    have hdown : comesDown (fun diagonal => readAt (trace.getD d []) (diagonal + d)) (d + 1) k ↔
        comesDown (furthest left right d) (d + 1) k :=
      (entry_congr (fun hne => hrch _ (habove hne)) fun hne => hrch _ (hbelow hne)).1
    have hdiag : (furthest left right (d + 1) k - (furthest left right (d + 1) k - k) : ℤ) = k := by omega
    obtain ⟨j, hj⟩ : ∃ j, j = matchLength (left.drop (entry (furthest left right d) (d + 1) k))
      (right.drop (entry (furthest left right d) (d + 1) k - k : ℤ).toNat) := ⟨_, rfl⟩
    have hX : furthest left right (d + 1) k = entry (furthest left right d) (d + 1) k + j := by rw [hj]; rfl
    rw [backtrackFrom]
    dsimp only
    rw [hdiag]
    by_cases h : comesDown (furthest left right d) (d + 1) k
    · have hfan : OnFan d (k + 1) := by
        rcases h with h | h
        · exact habove (by omega)
        · exact habove h.1
      have hent : entry (furthest left right d) (d + 1) k = furthest left right d (k + 1) := if_pos h
      obtain ⟨hle', -⟩ := reach_furthest left right hfan
      rw [hent] at hX hj
      rw [if_pos (hdown.2 h), if_pos rfl, hrch _ hfan]
      obtain ⟨hscript, hcost⟩ := ih hback hfan (by omega) (by omega)
      generalize furthest left right (d + 1) k = X at *
      generalize furthest left right d (k + 1) = x at *
      have hrun : (min (X - x : ℤ) (X - k - (x - (k + 1)))).toNat = j := by omega
      have hy₀ : (x - k : ℤ).toNat = (x - (k + 1) : ℤ).toNat + 1 := by omega
      have hy₁ : (X - k : ℤ).toNat = (x - (k + 1) : ℤ).toNat + 1 + j := by omega
      rw [hrun, hy₁, hX]
      rw [hy₀] at hj
      constructor
      · rw [reverse_append, reverse_cons, reverse_replicate, append_assoc,
          singleton_append]
        exact hscript.insert_follow (by omega) hj.le
      · rw [cost_append, cost_replicate_equal, cost, hcost, zero_add]
    · have hfan : OnFan d (k - 1) := hbelow fun heq => h (.inl heq)
      have hent : entry (furthest left right d) (d + 1) k = furthest left right d (k - 1) + 1 := if_neg h
      obtain ⟨hle', -⟩ := reach_furthest left right hfan
      rw [hent] at hX hj
      rw [if_neg (mt hdown.1 h), if_neg (show ¬ k - 1 = k + 1 by omega), hrch _ hfan]
      obtain ⟨hscript, hcost⟩ := ih hback hfan (by omega) (by omega)
      generalize furthest left right (d + 1) k = X at *
      generalize furthest left right d (k - 1) = x at *
      have hrun : (min (X - x : ℤ) (X - k - (x - (k - 1)))).toNat = j := by omega
      have hy₀ : ((x + 1 : ℕ) - k : ℤ).toNat = (x - (k - 1) : ℤ).toNat := by omega
      have hy₁ : (X - k : ℤ).toNat = (x - (k - 1) : ℤ).toNat + j := by omega
      rw [hrun, hy₁, hX]
      rw [hy₀] at hj
      constructor
      · rw [reverse_append, reverse_cons, reverse_replicate, append_assoc,
          singleton_append]
        exact hscript.delete_follow (by omega) hj.le
      · rw [cost_append, cost_replicate_equal, cost, hcost, zero_add]

lemma Scanned.next (h : Scanned left right limit d (d + 2) frontier) :
    Scanned left right limit (d + 1) (-(d + 1 : ℕ)) frontier where
  length := h.length
  start := fun hzero => absurd hzero (succ_ne_zero d)
  previous := fun d' hd' k' hk' => by
    obtain rfl : d' = d := by omega
    exact (h.current k' hk' (by have := hk'.2.1; omega)).1
  current := fun k' hk' hlt => by
    have := hk'.1
    omega

lemma Traced.append_left (h : Traced left right d trace) (hlen : trace.length = d)
    (last : List ℕ) : Traced left right d (trace ++ [last]) := by
  intro i hi k hk
  rw [getD_eq_getElem?_getD, getElem?_append_left (by omega), ← getD_eq_getElem?_getD]
  exact h i hi k hk

lemma Traced.append (h : Traced left right d trace) (hlen : trace.length = d)
    (hscanned : Scanned left right limit d (d + 2) frontier) (hd : d ≤ limit) :
    Traced left right (d + 1) (trace ++ [slice frontier (limit + 1 - d) (limit + 1 + d + 1)]) := by
  intro i hi k hk
  rcases lt_or_ge i d with hid | hid
  · exact h.append_left hlen _ i hid k hk
  · obtain rfl : i = d := by omega
    rw [getD_eq_getElem?_getD, getElem?_append_right (by omega), hlen, Nat.sub_self, getElem?_cons_zero,
      Option.getD_some,
      readAt_slice (by omega) hk.1 hk.2.1]
    exact (hscanned.current k hk (by have := hk.2.1; omega)).1

lemma searchFrom_spec {rounds : ℕ} (hrounds : d + rounds = limit + 1)
    (hscanned : Scanned left right limit d (-d) frontier) (htrace : Traced left right d trace)
    (hlen : trace.length = d)
    (hfst : ∀ d' < d, ∀ k', OnFan d' k' → ¬ AtCorner left right d' k') :
    match searchFrom left right (limit + 1) rounds d frontier trace with
    | some ops => Shortest left right ops ∧ cost ops ≤ limit
    | none => ∀ ops, Script left right ops → limit < cost ops := by
  induction rounds generalizing d frontier trace with
  | zero =>
    intro ops hops
    obtain ⟨hfan, hcorner⟩ := atCorner_of_script hops
    by_contra hle
    exact hfst _ (by omega) _ hfan hcorner
  | succ rounds ih =>
    rw [searchFrom]
    rcases scanDiagonals_spec (show Scanned left right limit d (-d) frontier from hscanned) (by omega)
        (show (-d + 2 * (d + 1 : ℕ) : ℤ) = d + 2 by omega) le_rfl with
      ⟨hget, k, hfan, hcorner⟩ | ⟨hget, hscanned'⟩
    · rw [if_pos hget]
      obtain ⟨hk, hend⟩ := first_atCorner hfan hcorner hfst
      have hend' : (left.length - k : ℤ) = right.length := by omega
      obtain ⟨hscript, hcost⟩ := script_backtrackFrom (htrace.append_left hlen _) hfan
        (show furthest left right d k ≤ left.length by omega) (by omega)
      rw [hend, hend', Int.toNat_natCast, take_length, take_length] at hscript
      rw [hend, hend'] at hcost
      have hlast last : (trace ++ [last]).length - 1 = d := by
        rw [length_append, hlen]
        rfl
      unfold backtrack
      rw [hlast]
      refine ⟨⟨hscript, fun ops hops => ?_⟩, ?_⟩
      · obtain ⟨hfan', hcorner'⟩ := atCorner_of_script hops
        rw [cost_reverse, hcost]
        by_contra hlt
        exact hfst _ (by omega) _ hfan' hcorner'
      · rw [cost_reverse, hcost]
        omega
    · rw [if_neg (by rw [hget]; exact Bool.false_ne_true)]
      refine ih (by omega) hscanned'.next (htrace.append hlen hscanned' (by omega))
        (by rw [length_append, hlen]; rfl) fun d' hd' k' hk' => ?_
      rcases lt_or_ge d' d with hlt | hge
      · exact hfst d' hlt k' hk'
      · obtain rfl : d' = d := by omega
        exact (hscanned'.current k' hk' (by have := hk'.2.1; omega)).2

lemma searchFrom_start (left right : List α) (limit : ℕ) :
    match searchFrom left right (limit + 1) (limit + 1) 0 (List.replicate (2 * limit + 3) 0) [] with
    | some ops => Shortest left right ops ∧ cost ops ≤ limit
    | none => ∀ ops, Script left right ops → limit < cost ops := by
  have hread k : readAt (List.replicate (2 * limit + 3) 0) k = 0 := by
    unfold readAt
    rw [getD_eq_getElem?_getD, getElem?_replicate]
    split_ifs <;> rfl
  refine searchFrom_spec (zero_add _) ⟨length_replicate, fun _ => hread _, fun d' hd' => ?_,
    fun k' hk' hlt => ?_⟩ (fun i hi => ?_) rfl fun d' hd' => ?_
  · omega
  · have := hk'.1
    omega
  · omega
  · omega

variable {maxDistance : ℕ}

theorem shortestEditScript_eq_some {ops}
    (h : shortestEditScript left right maxDistance = some ops) : Shortest left right ops := by
  unfold shortestEditScript at h
  split_ifs at h with hleft hrt
  · cases h
    rw [length_eq_zero_iff] at hleft
    rw [hleft]
    exact .insertAll right
  · cases h
    rw [length_eq_zero_iff] at hrt
    rw [hrt]
    exact .deleteAll left
  · have hst := searchFrom_start left right (min maxDistance (left.length + right.length))
    rw [h] at hst
    exact hst.1

/-- **Nothing is found exactly where every script has too many edits**, of two lists that both have
entries. -/
theorem shortestEditScript_eq_none_iff :
    shortestEditScript left right maxDistance = none ↔
      left ≠ [] ∧ right ≠ [] ∧ ∀ ops, Script left right ops → maxDistance < cost ops := by
  unfold shortestEditScript
  by_cases hleft : left.length = 0
  · rw [if_pos hleft]
    rw [length_eq_zero_iff] at hleft
    exact ⟨nofun, fun h => absurd hleft h.1⟩
  by_cases hrt : right.length = 0
  · rw [if_neg hleft, if_pos hrt]
    rw [length_eq_zero_iff] at hrt
    exact ⟨nofun, fun h => absurd hrt h.2.1⟩
  have hst := searchFrom_start left right (min maxDistance (left.length + right.length))
  rw [if_neg hleft, if_neg hrt]
  rw [length_eq_zero_iff] at hleft hrt
  constructor
  · intro hnone
    rw [hnone] at hst
    refine ⟨hleft, hrt, fun ops hops => ?_⟩
    have hlimit := hst ops hops
    have hall := (Script.deleteAll left).append (Script.insertAll right)
    rw [append_nil, nil_append] at hall
    have hcost := hst _ hall
    rw [cost_append, cost_replicate (by decide), cost_replicate (by decide)] at hcost
    omega
  · rintro ⟨-, -, hmany⟩
    cases hsearch : searchFrom left right (min maxDistance (left.length + right.length) + 1)
        (min maxDistance (left.length + right.length) + 1) 0
        (List.replicate (2 * min maxDistance (left.length + right.length) + 3) 0) [] with
    | none => rfl
    | some ops =>
      rw [hsearch] at hst
      have := hmany ops hst.1.1
      omega

end CodevoEditor.DiffView
