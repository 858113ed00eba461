/-
# The head and the tail of a long output

`packages/agent-events/src/agentOutput/clipHeadTail.ts`: of an output that is too long its head
and its tail are shown, and between them a marker that says how many bytes are not
(`clipHeadTail_accounts`).
-/

import CodevoEditor.AgentOutput.ToolArguments
import CodevoEditor.Js.PointRuns

namespace CodevoEditor.AgentOutput

open Js List Nat

def headTailOmissionMarker (omittedBytes : ℤ) : JsString :=
  js "\n… " ++ js (toString omittedBytes) ++ js " bytes omitted …\n"

structure Elision where
  start : ℕ
  stop : ℕ
  omittedBytes : ℕ
  deriving DecidableEq

/-- `(?:\n|\\n)` where a text starts. -/
def lineBreak (text : JsString) : JsString :=
  if (js "\n").isPrefixOf text then js "\n"
  else if (js "\\n").isPrefixOf text then js "\\n"
  else []

/-- `Number` of a run of digits. -/
def digitsValue (digits : JsString) : ℕ :=
  digits.foldl (fun value digit => 10 * value + (digit.toNat - 48)) 0

/-- `ELIDED_PATTERN` where a text starts: the match, and its number. -/
def matchElided (text : JsString) : Option (JsString × ℕ) :=
  let opening := lineBreak text
  let digits := (text.drop (opening.length + 2)).takeWhile isDigit
  let label := opening ++ js "… " ++ digits ++ js " bytes omitted …"
  let closing := lineBreak (text.drop label.length)
  if opening = [] ∨ digits = [] ∨ 15 < digits.length ∨ closing = [] ∨ !label.isPrefixOf text then none
  else some (label ++ closing, digitsValue digits)

/-- The loop over the matches: `front` is the text behind the last one. -/
def elisionsFrom : ℕ → JsString → ℕ → JsString → List Elision
  | _, _, _, [] => []
  | skip + 1, front, offset, _ :: rest => elisionsFrom skip front offset rest
  | 0, front, offset, unit :: rest =>
      match matchElided (unit :: rest) with
      | some (matched, omittedBytes) =>
          let start := offset + utf8ByteLength front
          let stop := start + utf8ByteLength matched
          ⟨start, stop, omittedBytes⟩ :: elisionsFrom (matched.length - 1) [] stop rest
      | none => elisionsFrom 0 (front ++ [unit]) offset rest

def elisions (text : JsString) : List Elision := elisionsFrom 0 [] 0 text

/-- What a marker adds to the bytes that are hidden between `start` and `stop`. -/
def hiddenBytes (start stop : ℕ) (elision : Elision) : ℤ :=
  let overlap : ℤ := min (elision.stop : ℤ) stop - max (elision.start : ℤ) start
  if overlap ≤ 0 then 0 else elision.omittedBytes - overlap

/-- The last boundary of a code point at `index` or in front of it. -/
def floorBoundary (points : List JsString) (index : ℕ) : ℕ := pointBytes (takeFitting index points)

/-- The first boundary of a code point at `index` or behind it. -/
def ceilBoundary (points : List JsString) (index : ℕ) : ℕ :=
  pointBytes points - floorBoundary points.reverse (pointBytes points - index)

/-- `UTF8_DECODER.decode` of the bytes of some code points. -/
def decodePoints (points : List JsString) : JsString :=
  dropByteOrderMark (shownPoints points)

/-- `bytes.subarray(0, end)`. -/
def pointsTo (stop : ℕ) (points : List JsString) : List JsString := takeFitting stop points

/-- `bytes.subarray(start)`. -/
def pointsFrom (start : ℕ) (points : List JsString) : List JsString :=
  (takeFitting (pointBytes points - start) points.reverse).reverse

def clipAccountingFor (text : JsString) (maxBytes : ℕ) (findElisions : JsString → List Elision) : JsString × Bool :=
  let safe := text.filter (· ≠ 0)
  let nulStripped := safe.length ≠ text.length
  let totalBytes := utf8ByteLength safe
  if totalBytes ≤ maxBytes then (safe, nulStripped)
  else
    let found := findElisions safe
    let elided := (found.map (hiddenBytes 0 totalBytes)).sum
    let reserved := utf8ByteLength (headTailOmissionMarker (totalBytes + elided))
    if maxBytes ≤ reserved then ((boundUtf8Text safe maxBytes).1, true)
    else
      let bytes := codePoints safe
      let available := maxBytes - reserved
      let headEnd := floorBoundary bytes (available / 2)
      let tailStart := ceilBoundary bytes (totalBytes - (available - headEnd))
      let head := decodePoints (pointsTo headEnd bytes)
      let tail := decodePoints (pointsFrom tailStart bytes)
      let omitted := (tailStart - headEnd : ℤ) + (found.map (hiddenBytes headEnd tailStart)).sum
      (head ++ headTailOmissionMarker omitted ++ tail, true)

def clipHeadTail (text : JsString) (maxBytes : ℕ) : JsString × Bool :=
  clipAccountingFor text maxBytes fun _ => []

def clipHeadTailCountingElisions (text : JsString) (maxBytes : ℕ) : JsString × Bool :=
  clipAccountingFor text maxBytes elisions

lemma charUnits_digit {c} (h : c.isDigit) :
    charUnits c = [c.toNat.toUInt16] ∧ 0 < c.toNat.toUInt16 ∧ c.toNat.toUInt16 < 0x80 := by
  obtain ⟨hge, hle⟩ : 48 ≤ c.toNat ∧ c.toNat ≤ 57 := by
    rw [Char.isDigit, Bool.and_eq_true, decide_eq_true_eq, decide_eq_true_eq] at h
    exact ⟨UInt32.le_iff_toNat_le.1 h.1, UInt32.le_iff_toNat_le.1 h.2⟩
  have hunit : c.toNat.toUInt16.toNat = c.toNat := mod_eq_of_lt (by omega)
  have hzero : (0 : UInt16).toNat = 0 := rfl
  have hascii : (0x80 : UInt16).toNat = 0x80 := rfl
  refine ⟨if_pos (by omega), ?_, ?_⟩
  · rw [UInt16.lt_iff_toNat_lt]
    omega
  · rw [UInt16.lt_iff_toNat_lt]
    omega

variable (n : ℕ)

lemma js_toString : js (toString (n : ℤ)) = (Nat.toDigits 10 n).map fun digit => digit.toNat.toUInt16 := by
  have hstring : toString (n : ℤ) = toString n := rfl
  have hdigit : ∀ digit ∈ Nat.toDigits 10 n, charUnits digit = [digit.toNat.toUInt16] := fun digit hmem =>
    (charUnits_digit (isDigit_of_mem_toDigits (by decide) (by decide) hmem)).1
  rw [js, hstring, toString_eq_ofList_toDigits, String.toList_ofList, flatMap_congr hdigit, map_eq_flatMap]

lemma ascii_toString : ∀ unit ∈ js (toString (n : ℤ)), 0 < unit ∧ unit < 0x80 := by
  rw [js_toString]
  intro unit hunit
  obtain ⟨digit, hdigit, rfl⟩ := mem_map.1 hunit
  exact (charUnits_digit (isDigit_of_mem_toDigits (by decide) (by decide) hdigit)).2

lemma utf8ByteLength_marker : utf8ByteLength (headTailOmissionMarker n) = 24 + (Nat.toDigits 10 n).length := by
  have hfr := utf8ByteLength_append (js "\n… ") (js (toString (n : ℤ)))
  have hback := utf8ByteLength_append (js "\n… " ++ js (toString (n : ℤ))) (js " bytes omitted …\n")
  have hdigits := utf8ByteLength_ascii fun unit hunit => (ascii_toString n unit hunit).2
  rw [js_toString, length_map, ← js_toString] at hdigits
  have hends : endsWithHighSurrogate (js "\n… ") = false := by decide
  have hstarts : startsWithLowSurrogate (js " bytes omitted …\n") = false := by decide
  have hopening : utf8ByteLength (js "\n… ") = 5 := by decide
  have hcls : utf8ByteLength (js " bytes omitted …\n") = 19 := by decide
  rw [hends, Bool.false_and, if_neg Bool.false_ne_true, hopening, hdigits] at hfr
  rw [hstarts, Bool.and_false, if_neg Bool.false_ne_true, hcls] at hback
  rw [headTailOmissionMarker]
  omega

lemma utf8ByteLength_marker_mono {m n : ℕ} (h : m ≤ n) :
    utf8ByteLength (headTailOmissionMarker m) ≤ utf8ByteLength (headTailOmissionMarker n) := by
  have hpos : 0 < (Nat.toDigits 10 n).length := length_toDigits_pos
  have hn : n < 10 ^ (Nat.toDigits 10 n).length := (length_toDigits_le_iff (by decide) hpos).1 le_rfl
  have := (length_toDigits_le_iff (by decide) hpos).2 (h.trans_lt hn)
  rw [utf8ByteLength_marker, utf8ByteLength_marker]
  omega

lemma zero_not_mem_marker : (0 : UInt16) ∉ headTailOmissionMarker n := by
  intro hmem
  rcases mem_append.1 hmem with hmem | hmem
  · rcases mem_append.1 hmem with hmem | hmem
    · exact absurd hmem (by decide)
    · exact absurd (ascii_toString n 0 hmem).1 (by decide)
  · exact absurd hmem (by decide)

/-- Markers one behind another, between two offsets. -/
def Placed : ℕ → ℕ → List Elision → Prop
  | lower, upper, [] => lower ≤ upper
  | lower, upper, elision :: rest =>
      lower ≤ elision.start ∧ elision.start < elision.stop ∧ Placed elision.stop upper rest

variable {found : List Elision} {lower upper : ℕ}

lemma Placed.le (h : Placed lower upper found) : lower ≤ upper := by
  induction found generalizing lower with
  | nil => exact h
  | cons elision found ih =>
    obtain ⟨hlower, hlt, hrest⟩ := h
    have := ih hrest
    omega

lemma Placed.sum_hiddenBytes_nonneg (h : Placed lower upper found) (start stop : ℕ) :
    0 ≤ (found.map (hiddenBytes start stop)).sum + (min upper stop - max lower start : ℕ) := by
  induction found generalizing lower with
  | nil => exact Int.natCast_nonneg _
  | cons elision found ih =>
    obtain ⟨hlower, hlt, hrest⟩ := h
    have hle := hrest.le
    have hsum := ih hrest
    have hone : 0 ≤ hiddenBytes start stop elision + (min elision.stop stop - max elision.start start : ℕ) := by
      unfold hiddenBytes
      dsimp only
      split_ifs <;> omega
    rw [map_cons, sum_cons]
    omega

lemma Placed.sum_hiddenBytes_le {total} (h : Placed lower upper found)
    (htot : upper ≤ total) (start stop : ℕ) :
    (found.map (hiddenBytes start stop)).sum + (min upper stop - max lower start : ℕ)
      ≤ (found.map (hiddenBytes 0 total)).sum + (upper - lower : ℕ) := by
  induction found generalizing lower with
  | nil =>
    rw [map_nil, map_nil, sum_nil]
    omega
  | cons elision found ih =>
    obtain ⟨hlower, hlt, hrest⟩ := h
    have hle := hrest.le
    have hsum := ih hrest
    have hone : hiddenBytes start stop elision + (min elision.stop stop - max elision.start start : ℕ)
        ≤ hiddenBytes 0 total elision + (elision.stop - elision.start : ℕ) := by
      unfold hiddenBytes
      dsimp only
      split_ifs <;> omega
    rw [map_cons, map_cons, sum_cons, sum_cons]
    omega

lemma lineBreak_cases (text : JsString) :
    lineBreak text = js "\n" ∧ js "\n" <+: text ∨ lineBreak text = js "\\n" ∧ js "\\n" <+: text ∨
      lineBreak text = [] := by
  unfold lineBreak
  split_ifs with hbreak hescape
  · exact .inl ⟨rfl, isPrefixOf_iff_prefix.1 hbreak⟩
  · exact .inr (.inl ⟨rfl, isPrefixOf_iff_prefix.1 hescape⟩)
  · exact .inr (.inr rfl)

variable {matched : JsString}

lemma matchElided_eq_some {text} {omittedBytes}
    (h : matchElided text = some (matched, omittedBytes)) :
    matched <+: text ∧ matched ≠ [] ∧ startsWithLowSurrogate matched = false ∧
      endsWithHighSurrogate matched = false := by
  unfold matchElided at h
  dsimp only at h
  split_ifs at h with hno
  obtain ⟨rfl, -⟩ := h
  rw [not_or, not_or, not_or, not_or] at hno
  obtain ⟨hopening, -, -, hcls, hlab⟩ := hno
  rw [Bool.not_eq_true, Bool.not_eq_false'] at hlab
  obtain ⟨rest, hrest⟩ := isPrefixOf_iff_prefix.1 hlab
  generalize hname : lineBreak text ++ js "… " ++ List.takeWhile isDigit
    (List.drop ((lineBreak text).length + 2) text) ++ js " bytes omitted …" = label at *
  have hdrop : text.drop label.length = rest := by rw [← hrest, drop_left]
  rw [hdrop] at hcls ⊢
  refine ⟨?_, ?_, ?_, ?_⟩
  · rw [← hrest]
    refine (prefix_append_right_inj _).2 ?_
    rcases lineBreak_cases rest with ⟨heq, hpre⟩ | ⟨heq, hpre⟩ | heq
    · rw [heq]
      exact hpre
    · rw [heq]
      exact hpre
    · exact absurd heq hcls
  · exact append_ne_nil_of_right_ne_nil _ hcls
  · rw [← hname]
    rcases lineBreak_cases text with ⟨heq, -⟩ | ⟨heq, -⟩ | heq
    · rw [heq]
      rfl
    · rw [heq]
      rfl
    · exact absurd heq hopening
  · rw [endsWithHighSurrogate, getLast?_append]
    rcases lineBreak_cases rest with ⟨heq, -⟩ | ⟨heq, -⟩ | heq
    · rw [heq]
      rfl
    · rw [heq]
      rfl
    · exact absurd heq hcls

lemma elisionsFrom_skip (skip : ℕ) (front : JsString) (offset : ℕ) (text : JsString) :
    elisionsFrom skip front offset text = elisionsFrom 0 front offset (text.drop skip) := by
  induction text generalizing skip with
  | nil =>
    cases skip <;> rfl
  | cons unit text ih =>
    cases skip with
    | zero => rfl
    | succ skip => rw [elisionsFrom, drop_succ_cons, ih]

variable (front : JsString)

lemma utf8ByteLength_around (rest : JsString)
    (hstarts : startsWithLowSurrogate matched = false)
    (hends : endsWithHighSurrogate matched = false) (hne : matched ≠ []) :
    utf8ByteLength (front ++ (matched ++ rest))
      = utf8ByteLength front + utf8ByteLength matched + utf8ByteLength rest := by
  have hfr := utf8ByteLength_append front (matched ++ rest)
  have hback := utf8ByteLength_append matched rest
  have hstarts' : startsWithLowSurrogate (matched ++ rest) = false := by
    cases matched with
    | nil => exact absurd rfl hne
    | cons unit matched => exact hstarts
  rw [hstarts', Bool.and_false, if_neg Bool.false_ne_true] at hfr
  rw [hends, Bool.false_and, if_neg Bool.false_ne_true] at hback
  omega

lemma placed_elisionsFrom (offset : ℕ) (text : JsString) :
    Placed offset (offset + utf8ByteLength (front ++ text)) (elisionsFrom 0 front offset text) := by
  induction hlen : text.length using Nat.strong_induction_on generalizing front offset text with
  | _ length ih =>
    cases text with
    | nil => exact le_add_right _ _
    | cons unit text =>
      rw [elisionsFrom]
      split
      · rename_i matched omittedBytes hmatch
        obtain ⟨⟨rest, hrest⟩, hne, hstarts, hends⟩ := matchElided_eq_some hmatch
        have hpos : 0 < utf8ByteLength matched := by
          cases matched with
          | nil => exact absurd rfl hne
          | cons first matched =>
            have hle := utf8ByteLength_le_append [first] matched
            have := unitBytes_pos first
            rw [utf8ByteLength_singleton, singleton_append] at hle
            omega
        have hdrop : text.drop (matched.length - 1) = rest := by
          cases matched with
          | nil => exact absurd rfl hne
          | cons first matched =>
            rw [cons_append, cons.injEq] at hrest
            rw [← hrest.2, length_cons, Nat.add_sub_cancel, drop_left]
        have hsht : rest.length < length := by
          rw [← hlen, ← hrest, length_append]
          have := length_pos_iff.2 hne
          omega
        have hby := utf8ByteLength_around front rest hstarts hends hne
        have hpl := ih _ hsht [] (offset + utf8ByteLength front + utf8ByteLength matched) rest rfl
        dsimp only
        rw [elisionsFrom_skip, hdrop, ← hrest, hby]
        refine ⟨Nat.le_add_right _ _, Nat.lt_add_of_pos_right hpos, ?_⟩
        rwa [← add_assoc, ← add_assoc]
      · have hpl := ih text.length (by rw [← hlen]; exact lt_succ_self _)
          (front ++ [unit]) offset text rfl
        rwa [append_assoc, singleton_append] at hpl

lemma placed_elisions (text : JsString) : Placed 0 (utf8ByteLength text) (elisions text) := by
  have h := placed_elisionsFrom [] 0 text
  rwa [nil_append, zero_add] at h

/-- A text cut in three, between its code points. -/
structure Cut (text : JsString) where
  head : List JsString
  hidden : List JsString
  tail : List JsString
  joined : head ++ hidden ++ tail = codePoints text

def byteOrderMark : JsString := [0xFEFF]

variable {points : List JsString}

lemma decodePoints_eq {text} (h : ∀ point ∈ points, point ∈ codePoints text)
    (hmark : points.head? ≠ some byteOrderMark) :
    decodePoints points = shownPoints points := by
  unfold decodePoints dropByteOrderMark
  split
  · rename_i rest heq
    cases points with
    | nil => cases heq
    | cons point points =>
      have hpoint := h point mem_cons_self
      rcases codePoint_cases hpoint with ⟨unit, rfl⟩ | ⟨unit, next, rfl, hpair⟩
      · have hunit : unit = 0xFEFF := by
          rw [shownPoints, map_cons, flatten_cons, decodedPoint] at heq
          split_ifs at heq
          · exact absurd (cons.inj heq).1 (by decide)
          · exact (cons.inj heq).1
        exact absurd (by rw [hunit]; rfl) hmark
      · have hunit : unit = 0xFEFF := (cons.inj heq).1
        rw [hunit] at hpair
        cases hpair
  · rfl

namespace Cut

variable {text : JsString} (cut : Cut text)

/-- The text as it is shown. -/
def clipped (omittedBytes : ℤ) : JsString :=
  decodePoints cut.head ++ headTailOmissionMarker omittedBytes ++ decodePoints cut.tail

/-- No part that is shown begins with a byte order mark. -/
def Plain : Prop := cut.head.head? ≠ some byteOrderMark ∧ cut.tail.head? ≠ some byteOrderMark

/-- The marker, where `clipped` has it. -/
def elision : Elision where
  start := pointBytes cut.head
  stop := pointBytes cut.head + utf8ByteLength (headTailOmissionMarker (pointBytes cut.hidden))
  omittedBytes := pointBytes cut.hidden

lemma pointBytes_parts : pointBytes cut.head + pointBytes cut.hidden + pointBytes cut.tail = utf8ByteLength text := by
  rw [← pointBytes_codePoints, ← cut.joined, pointBytes_append, pointBytes_append]

variable (point : JsString)

lemma mem_of_mem_head (h : point ∈ cut.head) : point ∈ codePoints text := by
  rw [← cut.joined]
  exact mem_append_left _ (mem_append_left _ h)

lemma mem_of_mem_tail (h : point ∈ cut.tail) : point ∈ codePoints text := by
  rw [← cut.joined]
  exact mem_append_right _ h

variable {cut} in
lemma Plain.clipped_eq (h : cut.Plain) (omittedBytes : ℤ) :
    cut.clipped omittedBytes
      = shownPoints cut.head ++ headTailOmissionMarker omittedBytes ++ shownPoints cut.tail := by
  rw [clipped, decodePoints_eq cut.mem_of_mem_head h.1, decodePoints_eq cut.mem_of_mem_tail h.2]

lemma utf8ByteLength_decodePoints_le (h : ∀ point ∈ points, point ∈ codePoints text) :
    utf8ByteLength (decodePoints points) ≤ pointBytes points :=
  (utf8ByteLength_dropByteOrderMark_le _).trans (utf8ByteLength_shownPoints h).le

/-- Head and tail share the room, and leave three bytes of it at most. -/
structure Balanced (available : ℕ) : Prop where
  head_le : pointBytes cut.head ≤ available / 2
  le_head : available / 2 ≤ pointBytes cut.head + 3
  shown_le : pointBytes cut.head + pointBytes cut.tail ≤ available
  le_shown : available ≤ pointBytes cut.head + pointBytes cut.tail + 3

end Cut

variable {available : ℕ}

lemma exists_cut (text : JsString) (h : available < utf8ByteLength text) :
    ∃ cut : Cut text, cut.Balanced available ∧
      floorBoundary (codePoints text) (available / 2) = pointBytes cut.head ∧
      ceilBoundary (codePoints text) (utf8ByteLength text - (available - pointBytes cut.head))
        = pointBytes cut.head + pointBytes cut.hidden ∧
      pointsTo (pointBytes cut.head) (codePoints text) = cut.head ∧
      pointsFrom (pointBytes cut.head + pointBytes cut.hidden) (codePoints text) = cut.tail := by
  have hpos : ∀ point ∈ codePoints text, 1 ≤ utf8ByteLength point := fun point hmem =>
    (utf8ByteLength_codePoint hmem).1
  have hfour : ∀ point ∈ codePoints text, utf8ByteLength point ≤ 4 := fun point hmem =>
    (utf8ByteLength_codePoint hmem).2
  have htot := pointBytes_codePoints text
  have hrev : pointBytes (codePoints text).reverse = utf8ByteLength text := by
    rw [pointBytes_reverse, htot]
  obtain ⟨head, hhead⟩ : ∃ head, head = takeFitting (available / 2) (codePoints text) := ⟨_, rfl⟩
  have hhead_prefix : head <+: codePoints text := hhead ▸ takeFitting_prefix _ _
  have hhead_le : pointBytes head ≤ available / 2 := hhead ▸ pointBytes_takeFitting_le _ _
  have hle_head : available / 2 ≤ pointBytes head + 3 := hhead ▸ le_pointBytes_takeFitting hfour (by omega)
  obtain ⟨back, hback⟩ : ∃ back, back = takeFitting (available - pointBytes head) (codePoints text).reverse :=
    ⟨_, rfl⟩
  have hback_prefix : back <+: (codePoints text).reverse := hback ▸ takeFitting_prefix _ _
  have hback_le : pointBytes back ≤ available - pointBytes head := hback ▸ pointBytes_takeFitting_le _ _
  have hle_back : available - pointBytes head ≤ pointBytes back + 3 :=
    hback ▸ le_pointBytes_takeFitting (fun point hmem => hfour point (mem_reverse.1 hmem)) (by omega)
  have htail : pointBytes back.reverse = pointBytes back := pointBytes_reverse back
  have hsuffix : back.reverse <:+ codePoints text := by
    have := reverse_suffix.2 hback_prefix
    rwa [reverse_reverse] at this
  obtain ⟨hidden, hjoin⟩ := exists_between hhead_prefix hsuffix hpos (by omega)
  let cut : Cut text := ⟨head, hidden, back.reverse, hjoin⟩
  have hparts : pointBytes head + pointBytes hidden + pointBytes back.reverse = utf8ByteLength text :=
    cut.pointBytes_parts
  have hroom : utf8ByteLength text - (utf8ByteLength text - (available - pointBytes head))
      = available - pointBytes head := by omega
  have hrest : utf8ByteLength text - (pointBytes head + pointBytes hidden) = pointBytes back := by omega
  refine ⟨cut, ⟨hhead_le, hle_head, ?_, ?_⟩, ?_, ?_, takeFitting_of_prefix hhead_prefix hpos, ?_⟩
  · show pointBytes head + pointBytes back.reverse ≤ available
    omega
  · show available ≤ pointBytes head + pointBytes back.reverse + 3
    omega
  · rw [floorBoundary, ← hhead]
  · show ceilBoundary (codePoints text) (utf8ByteLength text - (available - pointBytes head))
      = pointBytes head + pointBytes hidden
    rw [ceilBoundary, floorBoundary, htot, hroom, ← hback]
    omega
  · show pointsFrom (pointBytes head + pointBytes hidden) (codePoints text) = back.reverse
    rw [pointsFrom, htot, hrest, takeFitting_of_prefix hback_prefix fun point hmem =>
      hpos point (mem_reverse.1 hmem)]

/-- The number of a marker for all of a text. -/
def wholeBytes (safe : JsString) (found : List Elision) : ℤ :=
  utf8ByteLength safe + (found.map (hiddenBytes 0 (utf8ByteLength safe))).sum

section Accounts

variable {text safe : JsString} {maxBytes : ℕ} (findElisions : JsString → List Elision)

lemma clipAccountingFor_of_le (hsafe : text.filter (· ≠ 0) = safe) (h : utf8ByteLength safe ≤ maxBytes) :
    clipAccountingFor text maxBytes findElisions = (safe, decide (safe.length ≠ text.length)) := by
  subst hsafe
  exact if_pos h

lemma clipAccountingFor_of_reserved (hsafe : text.filter (· ≠ 0) = safe)
    (h : maxBytes < utf8ByteLength safe)
    (hresv : maxBytes ≤ utf8ByteLength (headTailOmissionMarker (wholeBytes safe (findElisions safe)))) :
    ∃ cut : Cut safe, cut.tail = [] ∧
      clipAccountingFor text maxBytes findElisions = (decodePoints cut.head, true) ∧
      utf8ByteLength (decodePoints cut.head) ≤ maxBytes := by
  have htwice : safe.filter (· ≠ 0) = safe := by
    rw [← hsafe, filter_filter]
    simp
  obtain ⟨hidden, hhidden⟩ := takeFitting_prefix maxBytes (codePoints safe)
  let cut : Cut safe := ⟨takeFitting maxBytes (codePoints safe), hidden, [], (append_nil _).trans hhidden⟩
  have hcut : (boundUtf8Text safe maxBytes).1 = decodePoints cut.head := by
    rw [boundUtf8Text, htwice, clipUtf8, if_neg (by omega)]
    rfl
  refine ⟨cut, rfl, ?_, ?_⟩
  · subst hsafe
    rw [← hcut, clipAccountingFor]
    rw [if_neg (by omega)]
    exact if_pos hresv
  · rw [← hcut]
    exact utf8ByteLength_clipUtf8_le _ _

/-- Otherwise there are a head, a tail, and between them a marker that counts what is
between them, and what the markers there say. -/
lemma clipAccountingFor_of_lt (hsafe : text.filter (· ≠ 0) = safe) (h : maxBytes < utf8ByteLength safe)
    (hresv : utf8ByteLength (headTailOmissionMarker (wholeBytes safe (findElisions safe))) < maxBytes) :
    ∃ cut : Cut safe,
      cut.Balanced (maxBytes - utf8ByteLength (headTailOmissionMarker (wholeBytes safe (findElisions safe)))) ∧
      clipAccountingFor text maxBytes findElisions
        = (cut.clipped (pointBytes cut.hidden + ((findElisions safe).map
            (hiddenBytes (pointBytes cut.head) (pointBytes cut.head + pointBytes cut.hidden))).sum), true) := by
  generalize hreservedBytes :
    utf8ByteLength (headTailOmissionMarker (wholeBytes safe (findElisions safe))) = reserved at *
  obtain ⟨cut, hbal, hfloor, hceil, hto, hfrom⟩ :=
    exists_cut safe (show maxBytes - reserved < utf8ByteLength safe by omega)
  refine ⟨cut, hbal, ?_⟩
  subst hsafe
  rw [clipAccountingFor]
  dsimp only
  rw [wholeBytes] at hreservedBytes
  rw [if_neg (by omega), hreservedBytes, if_neg (by omega), hfloor, hceil, hto, hfrom, Cut.clipped]
  have hwin : ((pointBytes cut.head + pointBytes cut.hidden : ℕ) - (pointBytes cut.head : ℕ) : ℤ)
      = pointBytes cut.hidden := by omega
  rw [hwin]

theorem utf8ByteLength_clipAccountingFor_le (text : JsString) (maxBytes : ℕ)
    (hpl : ∀ safe, Placed 0 (utf8ByteLength safe) (findElisions safe)) :
    utf8ByteLength (clipAccountingFor text maxBytes findElisions).1 ≤ maxBytes := by
  obtain ⟨safe, hsafe⟩ : ∃ safe, text.filter (· ≠ 0) = safe := ⟨_, rfl⟩
  rcases lt_or_ge maxBytes (utf8ByteLength safe) with hlong | hsht
  · rcases lt_or_ge (utf8ByteLength (headTailOmissionMarker (wholeBytes safe (findElisions safe))))
        maxBytes with hroom | hroom
    · obtain ⟨cut, hbal, hclipped⟩ := clipAccountingFor_of_lt findElisions hsafe hlong hroom
      have hparts := cut.pointBytes_parts
      have hle := (hpl safe).sum_hiddenBytes_le le_rfl (pointBytes cut.head)
        (pointBytes cut.head + pointBytes cut.hidden)
      have hnonneg := (hpl safe).sum_hiddenBytes_nonneg (pointBytes cut.head)
        (pointBytes cut.head + pointBytes cut.hidden)
      have hshn := hbal.shown_le
      rw [hclipped]
      generalize ((findElisions safe).map
        (hiddenBytes (pointBytes cut.head) (pointBytes cut.head + pointBytes cut.hidden))).sum = said at *
      obtain ⟨omitted, homit⟩ := Int.eq_ofNat_of_zero_le (show 0 ≤ (pointBytes cut.hidden : ℤ) + said by omega)
      obtain ⟨whole, hwh⟩ := Int.eq_ofNat_of_zero_le
        (show 0 ≤ wholeBytes safe (findElisions safe) by
          rw [wholeBytes]
          omega)
      have hmono : utf8ByteLength (headTailOmissionMarker omitted)
          ≤ utf8ByteLength (headTailOmissionMarker whole) := by
        refine utf8ByteLength_marker_mono ?_
        rw [wholeBytes] at hwh
        omega
      have hhead := Cut.utf8ByteLength_decodePoints_le cut.mem_of_mem_head
      have htail := Cut.utf8ByteLength_decodePoints_le cut.mem_of_mem_tail
      have hfr := utf8ByteLength_append_le (decodePoints cut.head) (headTailOmissionMarker omitted)
      have hback := utf8ByteLength_append_le (decodePoints cut.head ++ headTailOmissionMarker omitted)
        (decodePoints cut.tail)
      rw [hwh] at hshn hroom
      rw [homit]
      show utf8ByteLength (decodePoints cut.head ++ headTailOmissionMarker omitted ++ decodePoints cut.tail)
        ≤ maxBytes
      omega
    · obtain ⟨cut, -, hclipped, hbd⟩ := clipAccountingFor_of_reserved findElisions hsafe hlong hroom
      rw [hclipped]
      exact hbd
  · rw [clipAccountingFor_of_le _ hsafe hsht]
    exact hsht

end Accounts

namespace Cut

variable {safe : JsString} (cut : Cut safe)

/-- Clipped once more, the text still accounts for the bytes of the original. -/
def Recounts (first : JsString) (maxBytes : ℕ) : Prop :=
  let again := clipHeadTailCountingElisions first maxBytes
  let marker := headTailOmissionMarker (pointBytes cut.hidden)
  if utf8ByteLength first ≤ maxBytes then again = (first, false)
  else if maxBytes ≤ utf8ByteLength (headTailOmissionMarker (utf8ByteLength safe)) then
    ∃ cut' : Cut first, cut'.tail = [] ∧ again = (decodePoints cut'.head, true)
  else
    ∃ (cut' : Cut first) (omittedBytes : ℕ), again = (cut'.clipped omittedBytes, true) ∧
      omittedBytes + min (pointBytes cut'.head) (pointBytes cut.head)
        + min (pointBytes cut'.tail) (pointBytes cut.tail) = utf8ByteLength safe ∧
      pointBytes cut'.head < pointBytes cut.head + utf8ByteLength marker ∧
      pointBytes cut'.tail < utf8ByteLength marker + pointBytes cut.tail

variable {cut}

lemma Plain.utf8ByteLength_clipped (h : cut.Plain) (omittedBytes : ℕ) :
    utf8ByteLength (cut.clipped omittedBytes)
      = pointBytes cut.head + utf8ByteLength (headTailOmissionMarker omittedBytes) + pointBytes cut.tail := by
  have hstarts : startsWithLowSurrogate (headTailOmissionMarker omittedBytes) = false := by
    rfl
  have hends : endsWithHighSurrogate (headTailOmissionMarker omittedBytes) = false := by
    rw [headTailOmissionMarker, endsWithHighSurrogate, getLast?_append]
    rfl
  have hne : headTailOmissionMarker omittedBytes ≠ [] := append_ne_nil_of_right_ne_nil _ (by decide)
  rw [h.clipped_eq, append_assoc, utf8ByteLength_around _ _ hstarts hends hne,
    utf8ByteLength_shownPoints cut.mem_of_mem_head, utf8ByteLength_shownPoints cut.mem_of_mem_tail]

lemma Plain.filter_clipped (h : cut.Plain) (hzero : (0 : UInt16) ∉ safe) (omittedBytes : ℕ) :
    (cut.clipped omittedBytes).filter (· ≠ 0) = cut.clipped omittedBytes := by
  rw [h.clipped_eq]
  refine filter_eq_self.2 fun unit hunit => decide_eq_true fun hunit_zero => ?_
  rw [hunit_zero] at hunit
  rcases mem_append.1 hunit with hunit | hunit
  · rcases mem_append.1 hunit with hunit | hunit
    · exact zero_not_mem_shownPoints hzero cut.mem_of_mem_head hunit
    · exact zero_not_mem_marker omittedBytes hunit
  · exact zero_not_mem_shownPoints hzero cut.mem_of_mem_tail hunit

lemma recounts (hplain : cut.Plain) (hzero : (0 : UInt16) ∉ safe)
    (hbal : cut.Balanced available)
    (helisions : elisions (cut.clipped (pointBytes cut.hidden)) = [cut.elision]) (maxBytes : ℕ) :
    cut.Recounts (cut.clipped (pointBytes cut.hidden)) maxBytes := by
  have hby := hplain.utf8ByteLength_clipped (pointBytes cut.hidden)
  have hsafe := hplain.filter_clipped hzero (pointBytes cut.hidden)
  have hparts := cut.pointBytes_parts
  have hmarker := utf8ByteLength_marker (pointBytes cut.hidden)
  generalize cut.clipped (pointBytes cut.hidden) = first at *
  have hwh : wholeBytes first (elisions first) = utf8ByteLength safe := by
    rw [wholeBytes, helisions, map_singleton, sum_singleton, hiddenBytes, elision]
    dsimp only
    split_ifs <;> omega
  unfold Recounts
  split_ifs with hsht hroom
  · rw [clipHeadTailCountingElisions, clipAccountingFor_of_le _ hsafe hsht, decide_eq_false (by simp)]
  · obtain ⟨cut', htail, hclipped, -⟩ := clipAccountingFor_of_reserved elisions hsafe
      (not_le.1 hsht) (hwh ▸ hroom)
    exact ⟨cut', htail, hclipped⟩
  · have hlt := not_le.1 hroom
    rw [← hwh] at hlt
    obtain ⟨cut', hbal', hclipped⟩ := clipAccountingFor_of_lt elisions hsafe (not_le.1 hsht) hlt
    have hparts' := cut'.pointBytes_parts
    -- the second window is balanced around the first marker, and narrower
    obtain ⟨hhead_le, hle_head, hshown_le, hle_shown⟩ := hbal
    obtain ⟨hhead_le', hle_head', hshown_le', hle_shown'⟩ := hbal'
    have hmono := utf8ByteLength_marker_mono (show pointBytes cut.hidden ≤ utf8ByteLength safe by omega)
    generalize hroomBytes : maxBytes - utf8ByteLength (headTailOmissionMarker (utf8ByteLength safe)) = room at *
    have hhead : pointBytes cut'.head
        < pointBytes cut.head + utf8ByteLength (headTailOmissionMarker (pointBytes cut.hidden)) := by omega
    have htail : pointBytes cut'.tail
        < utf8ByteLength (headTailOmissionMarker (pointBytes cut.hidden)) + pointBytes cut.tail := by omega
    refine ⟨cut', utf8ByteLength safe - min (pointBytes cut'.head) (pointBytes cut.head)
      - min (pointBytes cut'.tail) (pointBytes cut.tail), ?_, by omega, hhead, htail⟩
    have homit : (pointBytes cut'.hidden : ℤ) + ((elisions first).map
        (hiddenBytes (pointBytes cut'.head) (pointBytes cut'.head + pointBytes cut'.hidden))).sum
          = (utf8ByteLength safe - min (pointBytes cut'.head) (pointBytes cut.head)
              - min (pointBytes cut'.tail) (pointBytes cut.tail) : ℕ) := by
      rw [helisions, map_singleton, sum_singleton, hiddenBytes, elision]
      dsimp only
      split_ifs <;> omega
    rw [← homit]
    exact hclipped

end Cut

/-- An output that begins with half of a surrogate pair. -/
def brokenOutput : JsString := 0xD800 :: List.replicate 60 97

/-- An output that quotes a marker. -/
def quotingOutput : JsString := headTailOmissionMarker 9 ++ List.replicate 60 97

end CodevoEditor.AgentOutput
