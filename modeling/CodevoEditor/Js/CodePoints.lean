/-
# Code points, clipping and white space

`[...value]` splits a string into code points: surrogate pairs, and every other code unit by
itself.
-/

import CodevoEditor.Js.Text
import Mathlib.Algebra.Order.BigOperators.Group.List
import Mathlib.Algebra.Group.Action.Defs
import Mathlib.Algebra.Order.Group.Nat
import Mathlib.Data.List.DropRight

namespace CodevoEditor.Js

open List

/-- `[...value]`. -/
def codePoints : JsString → List JsString
  | [] => []
  | [unit] => [[unit]]
  | unit :: next :: rest =>
      if isHighSurrogate unit && isLowSurrogate next then [unit, next] :: codePoints rest
      else [unit] :: codePoints (next :: rest)

/-- The first `count` code points. -/
def takeCodePoints (count : ℕ) (text : JsString) : JsString := ((codePoints text).take count).flatten

/-- The longest run of code points in front that fits into `bytes`. -/
def takeFitting : ℕ → List JsString → List JsString
  | _, [] => []
  | bytes, point :: points =>
      if utf8ByteLength point ≤ bytes then
        point :: takeFitting (bytes - utf8ByteLength point) points
      else []

/-- A code point as it comes back from UTF-8: a lone surrogate as U+FFFD. -/
def decodedPoint : JsString → JsString
  | [unit] => if isHighSurrogate unit || isLowSurrogate unit then [0xFFFD] else [unit]
  | point => point

/-- A decoder drops a byte order mark in front. -/
def dropByteOrderMark : JsString → JsString
  | 0xFEFF :: rest => rest
  | text => text

/-- `new TextDecoder().decode(encoded.subarray(0, end))` with `end` at the last
code point boundary within `bytes`, of text that needs more. -/
def clipUtf8 (value : JsString) (bytes : ℕ) : JsString :=
  if utf8ByteLength value ≤ bytes then value
  else dropByteOrderMark ((takeFitting bytes (codePoints value)).map decodedPoint).flatten

/-- `\s`, which is what `trim` takes off. -/
def isWhiteSpace (unit : UInt16) : Bool :=
  (0x09 ≤ unit && unit ≤ 0x0D) || unit = 0x20 || unit = 0xA0 || unit = 0x1680 ||
    (0x2000 ≤ unit && unit ≤ 0x200A) || unit = 0x2028 || unit = 0x2029 || unit = 0x202F ||
    unit = 0x205F || unit = 0x3000 || unit = 0xFEFF

def trimStart (text : JsString) : JsString := text.dropWhile isWhiteSpace

def trim (text : JsString) : JsString := (trimStart text).rdropWhile isWhiteSpace

/-- `replace(/\s+/gu, " ")`; `inRun` is after white space. -/
def collapseWhiteSpace : Bool → JsString → JsString
  | _, [] => []
  | inRun, unit :: rest =>
      if isWhiteSpace unit then
        if inRun then collapseWhiteSpace true rest else 0x20 :: collapseWhiteSpace true rest
      else unit :: collapseWhiteSpace false rest

lemma utf8ByteLength_append_le (s t : JsString) : utf8ByteLength (s ++ t) ≤ utf8ByteLength s + utf8ByteLength t := by
  have := utf8ByteLength_append s t
  omega

lemma utf8ByteLength_flatten_le (points : List JsString) :
    utf8ByteLength points.flatten ≤ (points.map utf8ByteLength).sum := by
  induction points with
  | nil => exact le_rfl
  | cons point points ih =>
    exact (utf8ByteLength_append_le _ _).trans (Nat.add_le_add_left ih _)

lemma utf8ByteLength_le_cons (unit : UInt16) (rest : JsString) :
    utf8ByteLength rest ≤ utf8ByteLength (unit :: rest) := by
  have hcons := utf8ByteLength_cons unit rest
  have hpos := unitBytes_pos unit
  by_cases hpair : isHighSurrogate unit && startsWithLowSurrogate rest
  · rw [if_pos hpair] at hcons
    rw [Bool.and_eq_true] at hpair
    have := unitBytes_of_isHighSurrogate hpair.1
    omega
  · rw [if_neg hpair] at hcons
    omega

lemma unitBytes_le (unit : UInt16) : unitBytes unit ≤ 3 := by
  unfold unitBytes
  split_ifs <;> omega

lemma codePoints_flatten (text : JsString) : (codePoints text).flatten = text := by
  induction text using codePoints.induct with
  | case1 => rfl
  | case2 unit => rfl
  | case3 unit next rest hpair ih => rw [codePoints, if_pos hpair, flatten_cons, ih]; rfl
  | case4 unit next rest hpair ih => rw [codePoints, if_neg hpair, flatten_cons, ih]; rfl

variable {text point : JsString}

lemma codePoint_cases (h : point ∈ codePoints text) :
    (∃ unit, point = [unit]) ∨ ∃ unit next, point = [unit, next] ∧ (isHighSurrogate unit && isLowSurrogate next) := by
  induction text using codePoints.induct with
  | case1 => cases h
  | case2 unit => exact .inl ⟨unit, mem_singleton.1 h⟩
  | case3 unit next rest hpair ih =>
    rw [codePoints, if_pos hpair] at h
    rcases mem_cons.1 h with rfl | h
    · exact .inr ⟨unit, next, rfl, hpair⟩
    · exact ih h
  | case4 unit next rest hpair ih =>
    rw [codePoints, if_neg hpair] at h
    rcases mem_cons.1 h with rfl | h
    · exact .inl ⟨unit, rfl⟩
    · exact ih h

lemma utf8ByteLength_codePoint (h : point ∈ codePoints text) :
    1 ≤ utf8ByteLength point ∧ utf8ByteLength point ≤ 4 := by
  rcases codePoint_cases h with ⟨unit, rfl⟩ | ⟨unit, next, rfl, hpair⟩
  · have := unitBytes_pos unit
    have := unitBytes_le unit
    rw [utf8ByteLength_singleton]
    omega
  · rw [utf8ByteLength, if_pos hpair]
    exact ⟨by decide, by decide⟩

lemma utf8ByteLength_decodedPoint (h : point ∈ codePoints text) :
    utf8ByteLength (decodedPoint point) = utf8ByteLength point := by
  rcases codePoint_cases h with ⟨unit, rfl⟩ | ⟨unit, next, rfl, -⟩
  · rw [decodedPoint]
    split_ifs with hlone
    · rw [utf8ByteLength_singleton, utf8ByteLength_singleton]
      rcases Bool.or_eq_true_iff.1 hlone with hhigh | hlow
      · rw [unitBytes_of_isHighSurrogate hhigh]; rfl
      · rw [unitBytes_of_isLowSurrogate hlow]; rfl
    · rfl
  · rfl

lemma takeFitting_sublist (bytes : ℕ) (points) : (takeFitting bytes points).Sublist points := by
  induction points generalizing bytes with
  | nil => exact .refl _
  | cons point points ih =>
    rw [takeFitting]
    split_ifs
    · exact (ih _).cons_cons point
    · exact nil_sublist _

lemma sum_takeFitting_le (bytes : ℕ) (points) : ((takeFitting bytes points).map utf8ByteLength).sum ≤ bytes := by
  induction points generalizing bytes with
  | nil => exact Nat.zero_le _
  | cons point points ih =>
    rw [takeFitting]
    split_ifs with hfits
    · rw [map_cons, sum_cons]
      have := ih (bytes - utf8ByteLength point)
      omega
    · exact Nat.zero_le _

lemma utf8ByteLength_dropByteOrderMark_le (text : JsString) :
    utf8ByteLength (dropByteOrderMark text) ≤ utf8ByteLength text := by
  unfold dropByteOrderMark
  split
  · exact utf8ByteLength_le_cons _ _
  · exact le_rfl

theorem utf8ByteLength_clipUtf8_le (value : JsString) (bytes : ℕ) :
    utf8ByteLength (clipUtf8 value bytes) ≤ bytes := by
  unfold clipUtf8
  split_ifs with hfits
  · exact hfits
  · have hmap : (takeFitting bytes (codePoints value)).map (utf8ByteLength ∘ decodedPoint) =
        (takeFitting bytes (codePoints value)).map utf8ByteLength :=
      map_congr_left fun point hmem =>
        utf8ByteLength_decodedPoint ((takeFitting_sublist _ _).subset hmem)
    calc
      _ ≤ utf8ByteLength ((takeFitting bytes (codePoints value)).map decodedPoint).flatten :=
        utf8ByteLength_dropByteOrderMark_le _
      _ ≤ (((takeFitting bytes (codePoints value)).map decodedPoint).map utf8ByteLength).sum :=
        utf8ByteLength_flatten_le _
      _ = ((takeFitting bytes (codePoints value)).map utf8ByteLength).sum := by
        rw [map_map, hmap]
      _ ≤ bytes := sum_takeFitting_le _ _

lemma not_isSurrogate_of_ascii {unit} (hunit : unit < 0x80) :
    isHighSurrogate unit = false ∧ isLowSurrogate unit = false := by
  have hlt {big} (hbig : 0x80 ≤ big) : ¬ big ≤ unit := fun hle =>
    absurd (UInt16.lt_of_lt_of_le hunit (UInt16.le_trans hbig hle)) (UInt16.lt_irrefl unit)
  constructor
  · rw [isHighSurrogate, decide_eq_false (hlt (by decide)), Bool.false_and]
  · rw [isLowSurrogate, decide_eq_false (hlt (by decide)), Bool.false_and]

lemma codePoints_ascii (h : ∀ unit ∈ text, unit < 0x80) : codePoints text = text.map fun unit => [unit] := by
  induction text using codePoints.induct with
  | case1 => rfl
  | case2 unit => rfl
  | case3 unit next rest hpair _ =>
    rw [(not_isSurrogate_of_ascii (h unit mem_cons_self)).1] at hpair
    cases hpair
  | case4 unit next rest hpair ih =>
    rw [codePoints, if_neg hpair, ih fun unit hmem => h unit (mem_cons_of_mem _ hmem)]
    rfl

lemma utf8ByteLength_ascii (h : ∀ unit ∈ text, unit < 0x80) : utf8ByteLength text = text.length := by
  induction text with
  | nil => rfl
  | cons unit text ih =>
    obtain ⟨hunit, htext⟩ := forall_mem_cons.1 h
    have hcons := utf8ByteLength_cons unit text
    rw [(not_isSurrogate_of_ascii hunit).1, Bool.false_and, if_neg Bool.false_ne_true, ih htext, unitBytes,
      if_pos hunit] at hcons
    rw [length_cons]
    omega

lemma takeFitting_ascii (bytes : ℕ) (h : ∀ unit ∈ text, unit < 0x80) :
    takeFitting bytes (text.map fun unit => [unit]) = (text.take bytes).map fun unit => [unit] := by
  induction text generalizing bytes with
  | nil => rw [take_nil]; rfl
  | cons unit text ih =>
    obtain ⟨hunit, htext⟩ := forall_mem_cons.1 h
    have hone : utf8ByteLength [unit] = 1 := if_pos hunit
    rw [map_cons, takeFitting, hone]
    cases bytes with
    | zero => rw [if_neg (by omega), take_zero]; rfl
    | succ bytes => rw [if_pos (by omega), Nat.add_sub_cancel, ih bytes htext, take_succ_cons]; rfl

lemma clipUtf8_ascii {value} {bytes} (h : ∀ unit ∈ value, unit < 0x80) : clipUtf8 value bytes = value.take bytes := by
  unfold clipUtf8
  rw [utf8ByteLength_ascii h]
  split_ifs with hfits
  · rw [take_of_length_le hfits]
  · have hdecoded : ((value.take bytes).map fun unit => [unit]).map decodedPoint =
        (value.take bytes).map fun unit => [unit] := by
      rw [map_map]
      refine map_congr_left fun unit hmem => ?_
      obtain ⟨hhigh, hlow⟩ := not_isSurrogate_of_ascii (h unit (mem_of_mem_take hmem))
      rw [Function.comp_apply, decodedPoint, hhigh, hlow]
      rfl
    have hflatten : ((value.take bytes).map fun unit => [unit]).flatten = value.take bytes := by
      rw [← flatMap_def, flatMap_singleton']
    rw [codePoints_ascii h, takeFitting_ascii bytes h, hdecoded, hflatten]
    unfold dropByteOrderMark
    split
    · rename_i rest heq
      have hmark := h 0xFEFF (mem_of_mem_take (heq ▸ mem_cons_self))
      exact absurd hmark (by decide)
    · rfl

lemma utf8ByteLength_takeCodePoints_le (count : ℕ) (text : JsString) :
    utf8ByteLength (takeCodePoints count text) ≤ count * 4 := by
  have hsum : (((codePoints text).take count).map utf8ByteLength).sum ≤
      ((codePoints text).take count).length * 4 := by
    have h := sum_le_card_nsmul (((codePoints text).take count).map utf8ByteLength) 4
      fun bytes hmem => by
        obtain ⟨point, hpoint, rfl⟩ := mem_map.1 hmem
        exact (utf8ByteLength_codePoint (mem_of_mem_take hpoint)).2
    rwa [length_map, smul_eq_mul] at h
  have hlen := length_take_le count (codePoints text)
  have hflatten := utf8ByteLength_flatten_le ((codePoints text).take count)
  unfold takeCodePoints
  omega

lemma codePoints_ne_nil (h : text ≠ []) : ∃ point points, codePoints text = point :: points ∧ point ≠ [] := by
  match text with
  | [unit] => exact ⟨[unit], [], rfl, cons_ne_nil _ _⟩
  | unit :: next :: rest =>
    rw [codePoints]
    split_ifs
    · exact ⟨_, _, rfl, cons_ne_nil _ _⟩
    · exact ⟨_, _, rfl, cons_ne_nil _ _⟩

lemma takeCodePoints_ne_nil {count} (hcnt : 0 < count) (h : text ≠ []) : takeCodePoints count text ≠ [] := by
  obtain ⟨point, points, hpoints, hne⟩ := codePoints_ne_nil h
  obtain ⟨count, rfl⟩ := Nat.exists_eq_succ_of_ne_zero hcnt.ne'
  rw [takeCodePoints, hpoints, take_succ_cons, flatten_cons]
  exact append_ne_nil_of_left_ne_nil hne _

end CodevoEditor.Js
