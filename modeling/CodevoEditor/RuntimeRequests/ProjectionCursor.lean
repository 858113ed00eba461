/-
# Where the next page goes on

`src-tauri/src/agent_runtime_requests/projection_cursor.rs`.
-/

import CodevoEditor.RuntimeRequests.ProjectionOverlay
import Mathlib.Algebra.BigOperators.Group.List.Basic

namespace CodevoEditor.RuntimeRequests

open List Nat

def maxPullPages : ℕ := 128
def maxPullTurns : ℕ := 32
def maxCursorBytes : ℕ := 256
def cursorVersion : String := "c2"

/-- `Open` and `Closed`. -/
inductive Phase
  | opened
  | closed
  deriving DecidableEq

namespace Phase

def token : Phase → String
  | opened => "o"
  | closed => "c"

def parse (token : String) : Option Phase :=
  if token = "o" then some opened else if token = "c" then some closed else none

end Phase

structure Position where
  page : ℕ
  phase : Phase
  turn : ℕ
  after : Option (ℕ × String)

def Position.start : Position := ⟨0, .opened, 0, none⟩

structure Continuation where
  generation : String
  position : Position

/-- `Hasher`. -/
def hasherStart : UInt64 := 0xcbf29ce484222325

def hashField (hash : UInt64) (field : String) : UInt64 :=
  (field.toList.flatMap String.utf8EncodeChar ++ [0]).foldl
    (fun hash (byte : UInt8) => (hash ^^^ byte.toUInt64) * 0x100000001b3) hash

/-- `{:016x}`. -/
def hashText (hash : UInt64) : String :=
  String.ofList ((List.range 16).map fun place => (hash.toNat / 16 ^ (15 - place) % 16).digitChar)

def bindingOf (epoch : String) (scope : HistoryScope) (threadId : String) (turnIds : List String) : String :=
  hashText (([epoch, scope.rootKey, scope.ownerId, threadId] ++ turnIds).foldl hashField hasherStart)

/-- What a digest takes in of a candidate. -/
structure ListedSlot where
  id : String
  order : ℕ
  isOpen : Bool

def Candidate.slot (candidate : Candidate) : ListedSlot := ⟨candidate.id, candidate.order, candidate.isOpen⟩

def ListedSlot.hash (hash : UInt64) (slot : ListedSlot) : UInt64 :=
  hashField (hashField (hashField hash slot.id) (toString slot.order)) (if slot.isOpen then "o" else "c")

/-- `generation`. -/
def generationOf (turns : List (List ListedSlot)) : String :=
  hashText (turns.zipIdx.foldl (fun hash turn =>
    turn.1.foldl ListedSlot.hash (hashField hash (toString turn.2))) hasherStart)

/-- Fields with a point after each of them, and the last one. -/
def joined (fields : List String) (last : String) : String :=
  fields.foldr (fun field rest => field ++ "." ++ rest) last

def splitN (separator : Char) : ℕ → List Char → List (List Char)
  | 0, _ => []
  | 1, text => [text]
  | parts + 2, text =>
      if separator ∈ text then
        text.takeWhile (· ≠ separator) ::
          splitN separator (parts + 1) (text.dropWhile (· ≠ separator)).tail
      else [text]

/-- `str::parse` of a number of 64 bits. -/
def parseNumber (text : String) : Option ℕ :=
  let digits := match text.toList with
    | '+' :: digits => digits
    | digits => digits
  if digits.isEmpty || !digits.all Char.isDigit then none
  else
    let value := Nat.ofDigitChars 10 digits 0
    if value < 2 ^ 64 then some value else none

namespace Continuation

/-- The order and the id of what a position is after. -/
def afterFields : Option (ℕ × String) → String × String
  | some (order, id) => (toString order, id)
  | none => ("-", "")

def encoded (continuation : Continuation) (binding : String) : String :=
  let position := continuation.position
  let (order, id) := afterFields position.after
  joined [cursorVersion, binding, continuation.generation, toString position.page,
    position.phase.token, toString position.turn, order] id

/-- What a position is after, as it is read. -/
def parseAfter (order id : String) : Option (Option (ℕ × String)) :=
  if order = "-" ∧ id = "" then some none
  else if isIdentifier id then (parseNumber order).map fun order => some (order, id)
  else none

def decoded (cursor binding : String) (turns : ℕ) : Option Continuation :=
  if maxCursorBytes < cursor.utf8ByteSize then none
  else
    match (splitN '.' 8 cursor.toList).map String.ofList with
    | [version, bound, generation, page, phase, turn, order, id] =>
        if version ≠ cursorVersion ∨ bound ≠ binding then none
        else do
          let page ← parseNumber page
          let phase ← Phase.parse phase
          let turn ← parseNumber turn
          if page = 0 ∨ maxPullPages ≤ page ∨ turns ≤ turn ∨ generation.utf8ByteSize ≠ 16 then none
          else
            let after ← parseAfter order id
            some ⟨generation, ⟨page, phase, turn, after⟩⟩
    | _ => none

end Continuation

/-- A text with no point in it, of some bytes at most. -/
structure IsField (bytes : ℕ) (field : String) : Prop where
  noPoint : '.' ∉ field.toList
  bytes_le : field.utf8ByteSize ≤ bytes

lemma utf8ByteSize_ofList (text) (h : ∀ letter ∈ text, letter.utf8Size = 1) :
    (String.ofList text).utf8ByteSize = text.length := by
  induction text with
  | nil => rfl
  | cons letter text ih =>
    obtain ⟨hletter, htext⟩ := forall_mem_cons.1 h
    rw [String.ofList_cons, String.utf8ByteSize_append, String.utf8ByteSize_singleton, hletter, ih htext,
      length_cons, add_comm]

lemma isField_toString {n digits} (hdigits : 0 < digits) (hn : n < 10 ^ digits) : IsField digits (toString n) := by
  have hdigit : ∀ letter ∈ Nat.toDigits 10 n, letter.isDigit := fun letter hletter =>
    isDigit_of_mem_toDigits (by decide) (by decide) hletter
  rw [toString_eq_ofList_toDigits]
  refine ⟨fun hpoint => ?_, ?_⟩
  · rw [String.toList_ofList] at hpoint
    exact absurd (hdigit _ hpoint) (by decide)
  · rw [utf8ByteSize_ofList _ fun letter hletter => ?_]
    · exact (length_toDigits_le_iff (by decide) hdigits).2 hn
    · have hrng := hdigit letter hletter
      rw [Char.utf8Size_eq_one_iff]
      rw [Char.isDigit, Bool.and_eq_true, decide_eq_true_iff, decide_eq_true_iff] at hrng
      exact UInt32.le_trans hrng.2 (by decide)

lemma parseNumber_toString {n} (hn : n < 2 ^ 64) : parseNumber (toString n) = some n := by
  have hdigit : ∀ letter ∈ Nat.toDigits 10 n, letter.isDigit := fun letter hletter =>
    isDigit_of_mem_toDigits (by decide) (by decide) hletter
  have hplain : (match Nat.toDigits 10 n with
      | '+' :: digits => digits
      | digits => digits) = Nat.toDigits 10 n := by
    split
    · rename_i digits heq
      have hplus := hdigit '+' (heq ▸ mem_cons_self)
      exact absurd hplus (by decide)
    · rfl
  unfold parseNumber
  dsimp only
  rw [toString_eq_ofList_toDigits, String.toList_ofList, hplain, ofDigitChars_ten_toDigits,
    all_eq_true.2 hdigit, if_pos hn, if_neg]
  rw [Bool.not_true, Bool.or_false, List.isEmpty_iff]
  exact toDigits_ne_nil

lemma isField_hashText (hash : UInt64) : IsField 16 (hashText hash) ∧ (hashText hash).utf8ByteSize = 16 := by
  have hdigit : ∀ digit < 16, Nat.digitChar digit ≠ '.' ∧ (Nat.digitChar digit).utf8Size = 1 := by
    decide
  have hletters : ∀ letter ∈ (List.range 16).map fun place =>
      (hash.toNat / 16 ^ (15 - place) % 16).digitChar, letter ≠ '.' ∧ letter.utf8Size = 1 := by
    intro letter hletter
    obtain ⟨place, -, rfl⟩ := mem_map.1 hletter
    exact hdigit _ (mod_lt _ (by decide))
  have hby : (hashText hash).utf8ByteSize = 16 := by
    unfold hashText
    rw [utf8ByteSize_ofList _ fun letter hletter => (hletters letter hletter).2, length_map, length_range]
  refine ⟨⟨fun hpoint => ?_, hby.le⟩, hby⟩
  unfold hashText at hpoint
  rw [String.toList_ofList] at hpoint
  exact (hletters _ hpoint).1 rfl

lemma toList_joined_cons (field : String) (fields) (last : String) :
    (joined (field :: fields) last).toList = field.toList ++ '.' :: (joined fields last).toList := by
  change (field ++ "." ++ joined fields last).toList = _
  rw [String.toList_append, String.toList_append, append_assoc]
  rfl

variable (fields : List String) (last : String)

theorem splitN_joined
    (hfld : ∀ field ∈ fields, '.' ∉ field.toList) :
    splitN '.' (fields.length + 1) (joined fields last).toList = (fields ++ [last]).map String.toList := by
  induction fields with
  | nil => rfl
  | cons field fields ih =>
    obtain ⟨hfield, hrest⟩ := forall_mem_cons.1 hfld
    have hplain : ∀ letter ∈ field.toList, decide (letter ≠ '.') := fun letter hletter =>
      decide_eq_true fun heq => hfield (heq ▸ hletter)
    rw [toList_joined_cons, length_cons]
    change (if _ then _ else _) = _
    rw [if_pos (mem_append_right _ mem_cons_self), takeWhile_append_of_pos hplain, dropWhile_append_of_pos hplain]
    rw [takeWhile_cons_of_neg (by decide), dropWhile_cons_of_neg (by decide), tail_cons, append_nil, ih hrest]
    rfl

lemma utf8ByteSize_joined :
    (joined fields last).utf8ByteSize = (fields.map fun field => field.utf8ByteSize + 1).sum + last.utf8ByteSize := by
  induction fields with
  | nil => exact (zero_add _).symm
  | cons field fields ih =>
    change (field ++ "." ++ joined fields last).utf8ByteSize = _
    rw [String.utf8ByteSize_append, String.utf8ByteSize_append, ih, map_cons, sum_cons]
    have hpoint : ".".utf8ByteSize = 1 := rfl
    omega

lemma utf8ByteSize_of_isIdentifier {value} (h : isIdentifier value) : value.utf8ByteSize ≤ maxRequestIdBytes := by
  unfold isIdentifier at h
  split at h
  · cases h
  · rw [Bool.and_eq_true, Bool.and_eq_true] at h
    exact of_decide_eq_true h.1.1

/-- What a position must be after for a cursor to carry it. -/
def CarriesAfter (after : Option (ℕ × String)) : Prop :=
  ∀ order id, after = some (order, id) → order < 2 ^ 64 ∧ isIdentifier id

lemma parseAfter_afterFields {after} (h : CarriesAfter after) :
    Continuation.parseAfter (Continuation.afterFields after).1 (Continuation.afterFields after).2 = some after := by
  cases after with
  | none => rfl
  | some after =>
    obtain ⟨order, id⟩ := after
    obtain ⟨hord, hid⟩ := h order id rfl
    have hnamed : id ≠ "" := by
      rintro rfl
      exact absurd hid (by decide)
    unfold Continuation.parseAfter Continuation.afterFields
    rw [if_neg fun heq => hnamed heq.2, if_pos hid, parseNumber_toString hord]
    rfl

lemma isField_afterFields {after} (h : CarriesAfter after) :
    IsField 20 (Continuation.afterFields after).1 ∧
      (Continuation.afterFields after).2.utf8ByteSize ≤ maxRequestIdBytes := by
  cases after with
  | none => exact ⟨⟨by decide, by decide⟩, by decide⟩
  | some after =>
    obtain ⟨order, id⟩ := after
    obtain ⟨hord, hid⟩ := h order id rfl
    exact ⟨isField_toString (by decide) (hord.trans (by decide)), utf8ByteSize_of_isIdentifier hid⟩

lemma isField_token (phase : Phase) : IsField 1 phase.token ∧ Phase.parse phase.token = some phase := by
  cases phase with
  | opened => exact ⟨⟨by decide, by decide⟩, rfl⟩
  | closed => exact ⟨⟨by decide, by decide⟩, rfl⟩

/-- **A cursor that is written is read back.**  It is short enough, and its fields are those
that were written, though the id of a request may have points in it. -/
theorem decoded_encoded {hash bound} {position} {turns}
    (hpage : 0 < position.page) (hpages : position.page < maxPullPages)
    (hturn : position.turn < turns) (htrn : turns ≤ maxPullTurns)
    (haft : CarriesAfter position.after) :
    Continuation.decoded (Continuation.encoded ⟨hashText hash, position⟩ (hashText bound))
      (hashText bound) turns = some ⟨hashText hash, position⟩ := by
  unfold maxPullPages at hpages
  unfold maxPullTurns at htrn
  obtain ⟨hgen, hsize⟩ := isField_hashText hash
  obtain ⟨hbinding, -⟩ := isField_hashText bound
  have hpageField : IsField 3 (toString position.page) := isField_toString (by decide) (by omega)
  have hturnField : IsField 2 (toString position.turn) := isField_toString (by decide) (by omega)
  obtain ⟨htoken, hphase⟩ := isField_token position.phase
  obtain ⟨hord, hid⟩ := isField_afterFields haft
  set fields : List String := [cursorVersion, hashText bound, hashText hash, toString position.page,
    position.phase.token, toString position.turn, (Continuation.afterFields position.after).1]
    with hfld
  set last := (Continuation.afterFields position.after).2
  have hencoded : Continuation.encoded ⟨hashText hash, position⟩ (hashText bound) = joined fields last := rfl
  have hnoPoint : ∀ field ∈ fields, '.' ∉ field.toList := by
    rw [hfld]
    simp only [forall_mem_cons, not_mem_nil, false_implies, implies_true, and_true]
    exact ⟨by decide, hbinding.noPoint, hgen.noPoint, hpageField.noPoint, htoken.noPoint,
      hturnField.noPoint, hord.noPoint⟩
  have hsht : (joined fields last).utf8ByteSize ≤ maxCursorBytes := by
    rw [utf8ByteSize_joined, hfld]
    simp only [map_cons, map_nil, sum_cons, sum_nil]
    have hver : cursorVersion.utf8ByteSize = 2 := rfl
    have := hbinding.bytes_le
    have := hgen.bytes_le
    have := hpageField.bytes_le
    have := htoken.bytes_le
    have := hturnField.bytes_le
    have := hord.bytes_le
    unfold maxRequestIdBytes at hid
    unfold maxCursorBytes
    omega
  have hspl : (splitN '.' 8 (joined fields last).toList).map String.ofList = fields ++ [last] := by
    have hparts : splitN '.' 8 (joined fields last).toList = (fields ++ [last]).map String.toList :=
      splitN_joined fields last hnoPoint
    rw [hparts, map_map]
    exact (map_congr_left fun field _ => String.ofList_toList).trans (map_id _)
  unfold Continuation.decoded
  rw [hencoded, if_neg (not_lt.2 hsht), hspl]
  change (if cursorVersion ≠ cursorVersion ∨ hashText bound ≠ hashText bound then none else _) = _
  rw [if_neg (by simp), parseNumber_toString (by omega), hphase, parseNumber_toString (by omega)]
  change (if position.page = 0 ∨ maxPullPages ≤ position.page ∨ turns ≤ position.turn ∨
    (hashText hash).utf8ByteSize ≠ 16 then none else _) = _
  unfold maxPullPages
  rw [if_neg (by omega), parseAfter_afterFields haft]
  rfl

end CodevoEditor.RuntimeRequests
