/-
# Runs of code points

Code points are what a string can be cut between: the bytes of a run are those of its code points,
and the longest run that fits leaves three bytes at most.
-/

import CodevoEditor.Js.CodePoints

namespace CodevoEditor.Js

open List

/-- The bytes of a run. -/
def pointBytes (points : List JsString) : ℕ := (points.map utf8ByteLength).sum

/-- A run as it comes back from UTF-8. -/
def shownPoints (points : List JsString) : JsString := (points.map decodedPoint).flatten

@[simp] lemma pointBytes_nil : pointBytes [] = 0 := rfl

@[simp] lemma pointBytes_cons (point : JsString) (points) :
    pointBytes (point :: points) = utf8ByteLength point + pointBytes points := by
  rfl

@[simp] lemma pointBytes_append (front back) : pointBytes (front ++ back) = pointBytes front + pointBytes back := by
  rw [pointBytes, map_append, sum_append]
  rfl

@[simp] lemma pointBytes_reverse (points) : pointBytes points.reverse = pointBytes points := by
  rw [pointBytes, map_reverse, sum_reverse]
  rfl

lemma pointBytes_codePoints (text : JsString) : pointBytes (codePoints text) = utf8ByteLength text := by
  induction text using codePoints.induct with
  | case1 => rfl
  | case2 unit => rfl
  | case3 unit next rest hpair ih =>
    have hpoint : utf8ByteLength [unit, next] = 4 := if_pos hpair
    have hwh : utf8ByteLength (unit :: next :: rest) = 4 + utf8ByteLength rest := if_pos hpair
    rw [codePoints, if_pos hpair, pointBytes_cons, ih, hpoint, hwh]
  | case4 unit next rest hpair ih =>
    rw [codePoints, if_neg hpair, pointBytes_cons, ih, utf8ByteLength, utf8ByteLength, if_neg hpair]

variable (bytes : ℕ)

lemma takeFitting_prefix (points) : takeFitting bytes points <+: points := by
  induction points generalizing bytes with
  | nil => exact prefix_rfl
  | cons point points ih =>
    rw [takeFitting]
    split_ifs
    · exact (prefix_cons_inj point).2 (ih _)
    · exact nil_prefix

lemma pointBytes_takeFitting_le (points) :
    pointBytes (takeFitting bytes points) ≤ bytes := sum_takeFitting_le bytes points

variable {points front : List JsString}

lemma takeFitting_of_prefix (hfr : front <+: points)
    (hpos : ∀ point ∈ points, 1 ≤ utf8ByteLength point) :
    takeFitting (pointBytes front) points = front := by
  obtain ⟨back, rfl⟩ := hfr
  induction front with
  | nil =>
    cases back with
    | nil => rfl
    | cons point points =>
      have := hpos point mem_cons_self
      rw [nil_append, takeFitting, pointBytes_nil, if_neg (by omega)]
  | cons point front ih =>
    rw [cons_append, takeFitting, pointBytes_cons, if_pos (by omega), Nat.add_sub_cancel_left,
      ih fun point hmem => hpos point (mem_cons_of_mem _ hmem)]

lemma le_pointBytes_takeFitting {bytes} (hle : ∀ point ∈ points, utf8ByteLength point ≤ 4)
    (hby : bytes ≤ pointBytes points) :
    bytes ≤ pointBytes (takeFitting bytes points) + 3 := by
  induction points generalizing bytes with
  | nil =>
    rw [pointBytes_nil] at hby
    omega
  | cons point points ih =>
    obtain ⟨hpoint, hpoints⟩ := forall_mem_cons.1 hle
    rw [pointBytes_cons] at hby
    rw [takeFitting]
    split_ifs with hfits
    · have hrest : bytes - utf8ByteLength point ≤ pointBytes points := by omega
      have := ih hpoints hrest
      rw [pointBytes_cons]
      omega
    · omega

lemma exists_between {back} (hfr : front <+: points) (hback : back <:+ points)
    (hpos : ∀ point ∈ points, 1 ≤ utf8ByteLength point)
    (hby : pointBytes front + pointBytes back ≤ pointBytes points) :
    ∃ between, front ++ between ++ back = points := by
  obtain ⟨before, rfl⟩ := hback
  rcases Nat.le_total front.length before.length with hle | hle
  · obtain ⟨between, rfl⟩ := prefix_of_prefix_length_le hfr (prefix_append _ _) hle
    exact ⟨between, rfl⟩
  · obtain ⟨shared, rfl⟩ := prefix_of_prefix_length_le (prefix_append before back) hfr hle
    rw [pointBytes_append, pointBytes_append] at hby
    cases shared with
    | nil => exact ⟨[], by rw [append_nil, append_nil]⟩
    | cons point shared =>
      have hmem : point ∈ before ++ back := hfr.subset (mem_append_right _ mem_cons_self)
      have := hpos point hmem
      rw [pointBytes_cons] at hby
      omega

variable {text : JsString}

lemma endsWithHighSurrogate_decodedPoint {point} (h : point ∈ codePoints text) :
    endsWithHighSurrogate (decodedPoint point) = false := by
  rcases codePoint_cases h with ⟨unit, rfl⟩ | ⟨unit, next, rfl, hpair⟩
  · rw [decodedPoint]
    split_ifs with hlone
    · rfl
    · rw [endsWithHighSurrogate_singleton]
      rw [Bool.or_eq_true, not_or] at hlone
      exact Bool.eq_false_iff.2 hlone.1
  · rw [Bool.and_eq_true] at hpair
    rw [decodedPoint, endsWithHighSurrogate_cons_cons, endsWithHighSurrogate_singleton]
    · refine Bool.eq_false_iff.2 fun hhigh => ?_
      rw [not_isLowSurrogate_of_isHighSurrogate hhigh] at hpair
      cases hpair.2
    · intro unit heq
      cases heq

lemma utf8ByteLength_shownPoints (h : ∀ point ∈ points, point ∈ codePoints text) :
    utf8ByteLength (shownPoints points) = pointBytes points := by
  induction points with
  | nil => rfl
  | cons point points ih =>
    obtain ⟨hpoint, hpoints⟩ := forall_mem_cons.1 h
    have happend := utf8ByteLength_append (decodedPoint point) (shownPoints points)
    rw [endsWithHighSurrogate_decodedPoint hpoint, Bool.false_and, if_neg Bool.false_ne_true,
      utf8ByteLength_decodedPoint hpoint, ih hpoints] at happend
    exact happend

lemma zero_not_mem_shownPoints (hzero : (0 : UInt16) ∉ text)
    (h : ∀ point ∈ points, point ∈ codePoints text) : (0 : UInt16) ∉ shownPoints points := by
  intro hmem
  obtain ⟨shown, hshn, hmem⟩ := mem_flatten.1 hmem
  obtain ⟨point, hpoint, rfl⟩ := mem_map.1 hshn
  have hno : (0 : UInt16) ∉ point := fun hmem =>
    hzero (codePoints_flatten text ▸ mem_flatten_of_mem (h point hpoint) hmem)
  rcases codePoint_cases (h point hpoint) with ⟨unit, rfl⟩ | ⟨unit, next, rfl, -⟩
  · rw [decodedPoint] at hmem
    split_ifs at hmem
    · exact absurd hmem (by decide)
    · exact hno hmem
  · exact hno hmem

end CodevoEditor.Js
