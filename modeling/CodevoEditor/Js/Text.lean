/-
# Strings of UTF-16 code units and their UTF-8 length

A JavaScript string is a list of 16-bit code units; it may hold lone surrogates.
-/

import Mathlib.Data.UInt

namespace CodevoEditor.Js

/-- A JavaScript string: its UTF-16 code units. -/
abbrev JsString := List UInt16

instance : LawfulBEq JsString := inferInstance

/-- The code units of one character of a literal. -/
def charUnits (c : Char) : JsString :=
  if c.toNat < 0x10000 then [c.toNat.toUInt16]
  else [(0xD800 + (c.toNat - 0x10000) / 0x400).toUInt16, (0xDC00 + (c.toNat - 0x10000) % 0x400).toUInt16]

/-- A string literal of the source. -/
def js (s : String) : JsString := s.toList.flatMap charUnits

def isHighSurrogate (unit : UInt16) : Bool := 0xD800 ≤ unit && unit ≤ 0xDBFF

def isLowSurrogate (unit : UInt16) : Bool := 0xDC00 ≤ unit && unit ≤ 0xDFFF

/-- The bytes of a code unit that is not part of a surrogate pair. -/
def unitBytes (unit : UInt16) : ℕ :=
  if unit < 0x80 then 1 else if unit < 0x800 then 2 else 3

/-- `TextEncoder.encode(text).byteLength`. -/
def utf8ByteLength : JsString → ℕ
  | [] => 0
  | [unit] => unitBytes unit
  | unit :: next :: rest =>
      if isHighSurrogate unit && isLowSurrogate next then 4 + utf8ByteLength rest
      else unitBytes unit + utf8ByteLength (next :: rest)

def startsWithLowSurrogate : JsString → Bool
  | [] => false
  | unit :: _ => isLowSurrogate unit

def endsWithHighSurrogate (text : JsString) : Bool := text.getLast?.any isHighSurrogate

lemma not_isLowSurrogate_of_isHighSurrogate {unit} (h : isHighSurrogate unit) : isLowSurrogate unit = false := by
  simp only [isHighSurrogate, isLowSurrogate, Bool.and_eq_true, decide_eq_true_eq,
    Bool.and_eq_false_iff, decide_eq_false_iff_not, UInt16.le_iff_toNat_le] at h ⊢
  have h₁ : (0xDBFF : UInt16).toNat = 0xDBFF := rfl
  have h₂ : (0xDC00 : UInt16).toNat = 0xDC00 := rfl
  omega

variable (unit : UInt16)

lemma unitBytes_pos : 1 ≤ unitBytes unit := by
  unfold unitBytes; split_ifs <;> omega

lemma unitBytes_of_isHighSurrogate {unit} (h : isHighSurrogate unit) : unitBytes unit = 3 := by
  simp only [isHighSurrogate, Bool.and_eq_true, decide_eq_true_eq, UInt16.le_iff_toNat_le] at h
  have h₁ : (0xD800 : UInt16).toNat = 0xD800 := rfl
  have h₂ : (0x80 : UInt16).toNat = 0x80 := rfl
  have h₃ : (0x800 : UInt16).toNat = 0x800 := rfl
  unfold unitBytes
  simp only [UInt16.lt_iff_toNat_lt]
  split_ifs <;> omega

lemma unitBytes_of_isLowSurrogate {unit} (h : isLowSurrogate unit) : unitBytes unit = 3 := by
  simp only [isLowSurrogate, Bool.and_eq_true, decide_eq_true_eq, UInt16.le_iff_toNat_le] at h
  have h₁ : (0xDC00 : UInt16).toNat = 0xDC00 := rfl
  have h₂ : (0x80 : UInt16).toNat = 0x80 := rfl
  have h₃ : (0x800 : UInt16).toNat = 0x800 := rfl
  unfold unitBytes
  simp only [UInt16.lt_iff_toNat_lt]
  split_ifs <;> omega

@[simp] lemma utf8ByteLength_nil : utf8ByteLength [] = 0 := rfl

@[simp] lemma utf8ByteLength_singleton :
    utf8ByteLength [unit] = unitBytes unit := rfl

@[simp] lemma startsWithLowSurrogate_nil : startsWithLowSurrogate [] = false := rfl

variable (rest : JsString)

@[simp] lemma startsWithLowSurrogate_cons :
    startsWithLowSurrogate (unit :: rest) = isLowSurrogate unit := rfl

@[simp] lemma endsWithHighSurrogate_nil : endsWithHighSurrogate [] = false := rfl

@[simp] lemma endsWithHighSurrogate_singleton :
    endsWithHighSurrogate [unit] = isHighSurrogate unit := rfl

@[simp] lemma endsWithHighSurrogate_cons_cons (unit next : UInt16) (rest : JsString) :
    endsWithHighSurrogate (unit :: next :: rest) = endsWithHighSurrogate (next :: rest) := by
  simp [endsWithHighSurrogate, List.getLast?_cons_cons]

lemma utf8ByteLength_cons :
    utf8ByteLength (unit :: rest) +
        (if isHighSurrogate unit && startsWithLowSurrogate rest then 2 else 0) =
      unitBytes unit + utf8ByteLength rest := by
  cases rest with
  | nil => simp
  | cons next rest =>
    rw [startsWithLowSurrogate_cons, utf8ByteLength]
    by_cases h : isHighSurrogate unit && isLowSurrogate next
    · rw [if_pos h, if_pos h]
      rw [Bool.and_eq_true] at h
      -- the low half is not the start of another pair
      have hhigh : isHighSurrogate next = false := by
        by_contra hc
        rw [Bool.not_eq_false] at hc
        simp [not_isLowSurrogate_of_isHighSurrogate hc] at h
      have hnext : utf8ByteLength (next :: rest) = 3 + utf8ByteLength rest := by
        cases rest <;> simp [utf8ByteLength, hhigh, unitBytes_of_isLowSurrogate h.2]
      rw [unitBytes_of_isHighSurrogate h.1, hnext]
      omega
    · rw [if_neg h, if_neg h]
      rfl

variable (s t : JsString)

/-- **The length of a concatenation.**  It is the sum of the lengths, less two
where the seam joins a split surrogate pair. -/
theorem utf8ByteLength_append :
    utf8ByteLength (s ++ t) +
        (if endsWithHighSurrogate s && startsWithLowSurrogate t then 2 else 0) =
      utf8ByteLength s + utf8ByteLength t := by
  induction s with
  | nil => simp
  | cons unit s ih =>
    have hwh := utf8ByteLength_cons unit (s ++ t)
    have hs := utf8ByteLength_cons unit s
    rw [List.cons_append]
    cases s with
    | nil =>
      rw [endsWithHighSurrogate_singleton]
      rw [List.nil_append] at hwh ⊢
      rw [utf8ByteLength_singleton]
      exact hwh
    | cons next s =>
      rw [endsWithHighSurrogate_cons_cons]
      rw [List.cons_append, startsWithLowSurrogate_cons] at hwh
      rw [startsWithLowSurrogate_cons] at hs
      rw [List.cons_append] at ih ⊢
      omega

lemma three_le_of_startsWithLowSurrogate {t} (h : startsWithLowSurrogate t) : 3 ≤ utf8ByteLength t := by
  cases t with
  | nil => simp at h
  | cons unit t =>
    rw [startsWithLowSurrogate_cons] at h
    have hhigh : isHighSurrogate unit = false := by
      by_contra hc
      rw [Bool.not_eq_false] at hc
      simp [not_isLowSurrogate_of_isHighSurrogate hc] at h
    have := utf8ByteLength_cons unit t
    simp only [hhigh, Bool.false_and, Bool.false_eq_true, if_false] at this
    have := unitBytes_of_isLowSurrogate h
    omega

/-- **A prefix is never longer than the whole.** -/
theorem utf8ByteLength_le_append : utf8ByteLength s ≤ utf8ByteLength (s ++ t) := by
  have h := utf8ByteLength_append s t
  split_ifs at h with hseam
  · rw [Bool.and_eq_true] at hseam
    have := three_le_of_startsWithLowSurrogate hseam.2
    omega
  · omega

end CodevoEditor.Js
