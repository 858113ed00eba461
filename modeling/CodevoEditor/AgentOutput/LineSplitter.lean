/-
# Lines out of chunks

`packages/agent-events/src/agentOutput/lineSplitter.ts`: output arrives in chunks, and
`splitLines` hands out the lines that end in a chunk and keeps the rest.
-/

import CodevoEditor.Js.Text

namespace CodevoEditor.AgentOutput

open Js List

def maxAgentOutputLineBytes : ℕ := 256 * 1024

structure AgentOutputPendingLine where
  pending : JsString
  pendingBytes : ℕ
  deriving DecidableEq

structure AgentOutputSplitResult where
  state : AgentOutputPendingLine
  lines : List JsString
  overflow : ℕ

def emptyPendingLine : AgentOutputPendingLine := ⟨[], 0⟩

def discardingBytes : ℕ := maxAgentOutputLineBytes + 1

def newline : UInt16 := 10

/-- The text up to each newline, and what is behind the last one. -/
def splitNewlines : JsString → List JsString × JsString
  | [] => ([], [])
  | unit :: rest =>
      let split := splitNewlines rest
      if unit = newline then ([] :: split.1, split.2)
      else
        match split.1 with
        | [] => ([], unit :: split.2)
        | segment :: segments => ((unit :: segment) :: segments, split.2)

def withoutCarriageReturn (line : JsString) : JsString :=
  if line.getLast? = some 13 then line.dropLast else line

/-- The segment in front of a newline ends a line. -/
def endLine (split : AgentOutputSplitResult) (segment : JsString) : AgentOutputSplitResult :=
  if maxAgentOutputLineBytes < split.state.pendingBytes then
    { split with state := emptyPendingLine }
  else if maxAgentOutputLineBytes < split.state.pendingBytes + utf8ByteLength segment then
    { split with state := emptyPendingLine, overflow := split.overflow + 1 }
  else
    { split with
      state := emptyPendingLine
      lines := split.lines ++ [withoutCarriageReturn (split.state.pending ++ segment)] }

/-- The tail behind the last newline is held back. -/
def holdTail (split : AgentOutputSplitResult) (tail : JsString) : AgentOutputSplitResult :=
  if maxAgentOutputLineBytes < split.state.pendingBytes then
    { split with state := ⟨[], discardingBytes⟩ }
  else if maxAgentOutputLineBytes < split.state.pendingBytes + utf8ByteLength tail then
    { split with state := ⟨[], discardingBytes⟩, overflow := split.overflow + 1 }
  else
    { split with
      state := ⟨split.state.pending ++ tail, split.state.pendingBytes + utf8ByteLength tail⟩ }

def splitLines (state : AgentOutputPendingLine) (chunk : JsString) : AgentOutputSplitResult :=
  if chunk = [] then ⟨state, [], 0⟩
  else holdTail ((splitNewlines chunk).1.foldl endLine ⟨state, [], 0⟩) (splitNewlines chunk).2

/-- A cut here would take a surrogate pair apart. -/
def splitsPair (front back : JsString) : Bool :=
  endsWithHighSurrogate front && startsWithLowSurrogate back

lemma utf8ByteLength_append_of_not_splitsPair {front back}
    (h : splitsPair front back = false) :
    utf8ByteLength (front ++ back) = utf8ByteLength front + utf8ByteLength back := by
  have happend := utf8ByteLength_append front back
  rw [splitsPair] at h
  rw [h, if_neg (by decide)] at happend
  omega

lemma splitNewlines_append (front back : JsString) :
    splitNewlines (front ++ back) =
      match (splitNewlines back).1 with
      | [] => ((splitNewlines front).1, (splitNewlines front).2 ++ (splitNewlines back).2)
      | segment :: segments =>
          ((splitNewlines front).1 ++ ((splitNewlines front).2 ++ segment) :: segments, (splitNewlines back).2) := by
  induction front with
  | nil =>
    cases hback : (splitNewlines back).1 with
    | nil => exact Prod.ext hback rfl
    | cons segment segments => exact Prod.ext hback rfl
  | cons unit front ih =>
    rw [cons_append, splitNewlines, ih, splitNewlines]
    cases (splitNewlines back).1 with
    | nil =>
      by_cases hunit : unit = newline
      · rw [if_pos hunit, if_pos hunit]
      · rw [if_neg hunit, if_neg hunit]
        cases (splitNewlines front).1 with
        | nil => rfl
        | cons first rest => rfl
    | cons segment segments =>
      dsimp only
      by_cases hunit : unit = newline
      · rw [if_pos hunit, if_pos hunit, cons_append]
      · rw [if_neg hunit, if_neg hunit]
        cases (splitNewlines front).1 with
        | nil => rfl
        | cons first rest => rfl

lemma endsWithHighSurrogate_tail {text}
    (h : endsWithHighSurrogate (splitNewlines text).2) : endsWithHighSurrogate text := by
  induction text with
  | nil => exact h
  | cons unit rest ih =>
    have hrest : endsWithHighSurrogate rest → endsWithHighSurrogate (unit :: rest) := by
      intro hhigh
      cases rest with
      | nil => cases hhigh
      | cons next rest => rwa [endsWithHighSurrogate_cons_cons]
    rw [splitNewlines] at h
    by_cases hunit : unit = newline
    · rw [if_pos hunit] at h
      exact hrest (ih h)
    · rw [if_neg hunit] at h
      cases hsegs : (splitNewlines rest).1 with
      | cons segment segments =>
        rw [hsegs] at h
        exact hrest (ih h)
      | nil =>
        rw [hsegs] at h
        cases htail : (splitNewlines rest).2 with
        | cons next tail =>
          rw [htail] at ih h
          exact hrest (ih h)
        | nil =>
          have hnil : rest = [] := by
            cases rest with
            | nil => rfl
            | cons next rest =>
              rw [splitNewlines] at hsegs htail
              split_ifs at hsegs htail
              cases hinner : (splitNewlines rest).1 <;> rw [hinner] at hsegs htail
              · cases htail
              · cases hsegs
          rw [htail] at h
          rw [hnil]
          exact h

lemma startsWithLowSurrogate_head {text} :
    (∀ segment ∈ (splitNewlines text).1.head?,
        startsWithLowSurrogate segment → startsWithLowSurrogate text) ∧
      ((splitNewlines text).1 = [] →
        startsWithLowSurrogate (splitNewlines text).2 → startsWithLowSurrogate text) := by
  cases text with
  | nil => exact ⟨by rintro segment ⟨⟩, fun _ h => h⟩
  | cons unit rest =>
    rw [splitNewlines]
    by_cases hunit : unit = newline
    · rw [if_pos hunit]
      exact ⟨by rintro segment ⟨⟩ ⟨⟩, by rintro ⟨⟩⟩
    · rw [if_neg hunit]
      cases (splitNewlines rest).1 with
      | nil => exact ⟨by rintro segment ⟨⟩, fun _ h => h⟩
      | cons first segments =>
        refine ⟨?_, by rintro ⟨⟩⟩
        rintro segment ⟨⟩ h
        exact h

/-- What was handed out before stays in front. -/
def AgentOutputSplitResult.after (split : AgentOutputSplitResult) (lines : List JsString)
    (overflow : ℕ) : AgentOutputSplitResult :=
  ⟨split.state, lines ++ split.lines, overflow + split.overflow⟩

variable (split : AgentOutputSplitResult) (lines : List JsString)

variable (overflow : ℕ)

lemma endLine_after
    (segment : JsString) :
    endLine (split.after lines overflow) segment = (endLine split segment).after lines overflow := by
  unfold endLine AgentOutputSplitResult.after
  split_ifs
  · rfl
  · rfl
  · rw [append_assoc]

lemma holdTail_after
    (tail : JsString) :
    holdTail (split.after lines overflow) tail = (holdTail split tail).after lines overflow := by
  unfold holdTail AgentOutputSplitResult.after
  split_ifs <;> rfl

lemma foldl_endLine_after
    (segments : List JsString) :
    segments.foldl endLine (split.after lines overflow) = (segments.foldl endLine split).after lines overflow := by
  induction segments generalizing split with
  | nil => rfl
  | cons segment segments ih => rw [foldl_cons, foldl_cons, endLine_after, ih]

/-- **A line ends as it would have without the cut.** -/
theorem endLine_holdTail {tail segment}
    (hseam : splitsPair tail segment = false) :
    endLine (holdTail split tail) segment = endLine split (tail ++ segment) := by
  have hby := utf8ByteLength_append_of_not_splitsPair hseam
  have hdisc : maxAgentOutputLineBytes < discardingBytes := Nat.lt_succ_self _
  unfold endLine holdTail
  by_cases hpend : maxAgentOutputLineBytes < split.state.pendingBytes
  · rw [if_pos hpend, if_pos hpend, if_pos hdisc]
  rw [if_neg hpend, if_neg hpend]
  by_cases htail : maxAgentOutputLineBytes < split.state.pendingBytes + utf8ByteLength tail
  · rw [if_pos htail, if_pos hdisc, if_pos (by omega)]
  rw [hby, ← Nat.add_assoc]
  split_ifs
  · rfl
  · rw [append_assoc]

lemma holdTail_holdTail {tail tail'}
    (hseam : splitsPair tail tail' = false) :
    holdTail (holdTail split tail) tail' = holdTail split (tail ++ tail') := by
  have hby := utf8ByteLength_append_of_not_splitsPair hseam
  have hdisc : maxAgentOutputLineBytes < discardingBytes := Nat.lt_succ_self _
  unfold holdTail
  by_cases hpend : maxAgentOutputLineBytes < split.state.pendingBytes
  · rw [if_pos hpend, if_pos hpend, if_pos hdisc]
  rw [if_neg hpend, if_neg hpend]
  by_cases htail : maxAgentOutputLineBytes < split.state.pendingBytes + utf8ByteLength tail
  · rw [if_pos htail, if_pos hdisc, if_pos (by omega)]
  rw [hby, ← Nat.add_assoc]
  split_ifs
  · rfl
  · rw [append_assoc]

/-- **Two chunks are split as their concatenation is**: the same state, and the
lines and overflows of both in order. -/
theorem splitLines_append (state) {front back}
    (hfr : front ≠ []) (hback : back ≠ []) (hseam : splitsPair front back = false) :
    splitLines state (front ++ back) =
      (splitLines (splitLines state front).state back).after (splitLines state front).lines
        (splitLines state front).overflow := by
  have hwh : front ++ back ≠ [] := append_ne_nil_of_left_ne_nil hfr back
  have hpart {segment} (hseg : startsWithLowSurrogate segment →
      startsWithLowSurrogate back) : splitsPair (splitNewlines front).2 segment = false := by
    rw [splitsPair, Bool.and_eq_false_iff] at hseam ⊢
    rcases hseam with hhigh | hlow
    · exact .inl (Bool.eq_false_iff.2 fun h => Bool.eq_false_iff.1 hhigh (endsWithHighSurrogate_tail h))
    · exact .inr (Bool.eq_false_iff.2 fun h => Bool.eq_false_iff.1 hlow (hseg h))
  have hrestart split : (⟨split.state, [], 0⟩ : AgentOutputSplitResult).after split.lines split.overflow = split := by
    unfold AgentOutputSplitResult.after
    rw [append_nil, Nat.add_zero]
  rw [splitLines, if_neg hwh, splitLines, if_neg hback, ← holdTail_after, ← foldl_endLine_after,
    hrestart, splitLines, if_neg hfr, splitNewlines_append]
  obtain ⟨hhead, htail⟩ := @startsWithLowSurrogate_head back
  cases hsegs : (splitNewlines back).1 with
  | nil =>
    rw [hsegs] at htail
    rw [foldl_nil, holdTail_holdTail _ (hpart (htail rfl))]
  | cons segment segments =>
    rw [hsegs] at hhead
    rw [foldl_append, foldl_cons, foldl_cons, endLine_holdTail _ (hpart (hhead segment rfl))]

end CodevoEditor.AgentOutput
