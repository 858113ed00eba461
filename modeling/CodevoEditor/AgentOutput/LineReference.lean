/-
# The reference line splitter

What `packages/agent-events/src/agentOutput/lineSplitter.ts` is for: a text is divided at every
newline, a line over the limit is dropped and counted, and what is behind the last newline is
held back (`referenceSplit`).
-/

import CodevoEditor.AgentOutput.ChunkIndependence

namespace CodevoEditor.AgentOutput

open Js List Nat

/-- A text is lines, each with its newline, and a rest that has none. -/
structure Divides (text : JsString) (segments : List JsString) (rest : JsString) : Prop where
  whole : text = (segments.map fun segment => segment ++ [newline]).flatten ++ rest
  segment : ∀ segment ∈ segments, newline ∉ segment
  rest : newline ∉ rest

/-- A line has more bytes than it may. -/
def isOversize (line : JsString) : Bool := decide (maxAgentOutputLineBytes < utf8ByteLength line)

/-- The lines and the rest of a divided text. -/
def referenceSplit (segments : List JsString) (rest : JsString) : AgentOutputSplitResult where
  lines := (segments.filter fun segment => !isOversize segment).map withoutCarriageReturn
  overflow := (segments.filter isOversize).length + if isOversize rest then 1 else 0
  state := if isOversize rest then ⟨[], discardingBytes⟩ else ⟨rest, utf8ByteLength rest⟩

/-- `splitLines` of chunk after chunk: all the lines, and all the overflows. -/
def splitChunks (state : AgentOutputPendingLine) (chunks : List JsString) : AgentOutputSplitResult :=
  chunks.foldl (fun split chunk => (splitLines split.state chunk).after split.lines split.overflow) ⟨state, [], 0⟩

variable (text : JsString)

lemma divides_splitNewlines : Divides text (splitNewlines text).1 (splitNewlines text).2 := by
  induction text with
  | nil => exact ⟨rfl, forall_mem_nil _, not_mem_nil⟩
  | cons unit text ih =>
    rw [splitNewlines]
    by_cases hunit : unit = newline
    · rw [if_pos hunit]
      refine ⟨?_, forall_mem_cons.2 ⟨not_mem_nil, ih.segment⟩, ih.rest⟩
      rw [map_cons, flatten_cons, append_assoc, ← ih.whole, hunit]
      rfl
    · rw [if_neg hunit]
      have hwh := ih.whole
      have hseg := ih.segment
      generalize (splitNewlines text).1 = segments at hwh hseg
      have hoth : ∀ {line : JsString}, newline ∉ line → newline ∉ unit :: line := fun hline =>
        not_mem_cons_of_ne_of_not_mem (.symm hunit) hline
      cases segments with
      | nil => exact ⟨congrArg (unit :: ·) hwh, forall_mem_nil _, hoth ih.rest⟩
      | cons first segments =>
        obtain ⟨hfst, hsegs⟩ := forall_mem_cons.1 hseg
        exact ⟨congrArg (unit :: ·) hwh, forall_mem_cons.2 ⟨hoth hfst, hsegs⟩, ih.rest⟩

lemma foldl_endLine (segments lines : List JsString) (overflow : ℕ) :
    segments.foldl endLine ⟨emptyPendingLine, lines, overflow⟩ =
      ⟨emptyPendingLine, lines ++ (segments.filter fun segment => !isOversize segment).map
        withoutCarriageReturn, overflow + (segments.filter isOversize).length⟩ := by
  induction segments generalizing lines overflow with
  | nil =>
    rw [filter_nil, filter_nil, map_nil, append_nil, length_nil, add_zero]
    rfl
  | cons segment segments ih =>
    have hpend : ¬ maxAgentOutputLineBytes < emptyPendingLine.pendingBytes := not_lt_zero _
    rw [foldl_cons, endLine, if_neg hpend, emptyPendingLine, zero_add]
    by_cases hlong : isOversize segment
    · rw [if_pos (of_decide_eq_true hlong), filter_cons_of_neg (by rw [hlong]; decide),
        filter_cons_of_pos hlong, length_cons]
      dsimp only
      rw [← emptyPendingLine, ih]
      congr 1
      omega
    · rw [if_neg (of_decide_eq_false (Bool.eq_false_iff.2 hlong)),
        filter_cons_of_pos (by rw [Bool.eq_false_iff.2 hlong]; rfl), filter_cons_of_neg hlong]
      dsimp only
      rw [← emptyPendingLine, ih, nil_append, map_cons, append_assoc]
      rfl

lemma splitLines_eq_reference :
    splitLines emptyPendingLine text = referenceSplit (splitNewlines text).1 (splitNewlines text).2 := by
  unfold splitLines
  by_cases htext : text = []
  · rw [if_pos htext, htext]
    rfl
  · have hpend : ¬ maxAgentOutputLineBytes < emptyPendingLine.pendingBytes := not_lt_zero _
    rw [if_neg htext, foldl_endLine, holdTail, if_neg hpend, emptyPendingLine, zero_add, nil_append, zero_add]
    unfold referenceSplit
    by_cases hlong : isOversize (splitNewlines text).2
    · rw [if_pos (of_decide_eq_true hlong), if_pos hlong, if_pos hlong]
    · rw [if_neg (of_decide_eq_false (Bool.eq_false_iff.2 hlong)), if_neg hlong, if_neg hlong, add_zero]
      rfl

variable (split : AgentOutputSplitResult)

lemma after_nil : split.after [] 0 = split := by
  unfold AgentOutputSplitResult.after
  rw [nil_append, zero_add]

lemma after_restart : (⟨split.state, [], 0⟩ : AgentOutputSplitResult).after split.lines split.overflow = split := by
  unfold AgentOutputSplitResult.after
  rw [append_nil, add_zero]

lemma after_after (lines lines') (overflow overflow' : ℕ) :
    (split.after lines overflow).after lines' overflow' =
      split.after (lines' ++ lines) (overflow' + overflow) := by
  unfold AgentOutputSplitResult.after
  rw [append_assoc, add_assoc]

variable (state : AgentOutputPendingLine)

lemma splitChunks_cons (chunk : JsString) (chunks) :
    splitChunks state (chunk :: chunks) =
      (splitChunks (splitLines state chunk).state chunks).after (splitLines state chunk).lines
        (splitLines state chunk).overflow := by
  -- what was handed out before stays in front
  have hfold chunks split :
      chunks.foldl (fun split chunk => (splitLines split.state chunk).after split.lines split.overflow) split =
        (splitChunks split.state chunks).after split.lines split.overflow := by
    induction chunks generalizing split with
    | nil => exact (after_restart split).symm
    | cons chunk chunks ih =>
      have hst : splitChunks split.state (chunk :: chunks) =
          chunks.foldl (fun split chunk => (splitLines split.state chunk).after split.lines split.overflow)
            (splitLines split.state chunk) := by
        rw [splitChunks, foldl_cons, after_nil]
      rw [foldl_cons, ih, hst, ih, after_after]
      rfl
  rw [splitChunks, foldl_cons, hfold, after_nil]

/-- **Any chunks are split as the whole text is**, from any state. -/
theorem splitChunks_flatten {chunks}
    (hcuts : IntactCuts chunks) : splitChunks state chunks = splitLines state chunks.flatten := by
  induction chunks generalizing state with
  | nil => rfl
  | cons chunk chunks ih =>
    obtain ⟨hcut, hcuts⟩ := hcuts
    rw [splitChunks_cons, ih _ hcuts, flatten_cons]
    by_cases hchunk : chunk = []
    · rw [hchunk]
      exact after_nil _
    · by_cases hrest : chunks.flatten = []
      · rw [hrest, append_nil]
        unfold AgentOutputSplitResult.after
        rw [show splitLines (splitLines state chunk).state [] = ⟨(splitLines state chunk).state, [], 0⟩ from rfl,
          append_nil, add_zero]
      · exact (splitLines_append state hchunk hrest hcut).symm

/-- **Any chunks come to what the text comes to**: the division at the newlines, which there is. -/
theorem splitChunks_eq {chunks : List JsString} (hcuts : IntactCuts chunks) :
    (∀ state, splitChunks state chunks = splitLines state chunks.flatten) ∧
      ∃ segments rest, Divides chunks.flatten segments rest ∧
        splitChunks emptyPendingLine chunks = referenceSplit segments rest := by
  refine ⟨fun state => splitChunks_flatten state hcuts, _, _, divides_splitNewlines chunks.flatten, ?_⟩
  rw [splitChunks_flatten emptyPendingLine hcuts, splitLines_eq_reference]

/-- A line, a carriage return in another chunk than its newline, and a rest. -/
theorem splitChunks_eq_sample :
    IntactCuts [[104, 13], [10, 105]] ∧
      (∀ state, splitChunks state [[104, 13], [10, 105]] = splitLines state [104, 13, 10, 105]) ∧
        ∃ segments rest, Divides [104, 13, 10, 105] segments rest ∧
          splitChunks emptyPendingLine [[104, 13], [10, 105]] = referenceSplit segments rest :=
  ⟨by decide, splitChunks_eq (by decide)⟩

end CodevoEditor.AgentOutput
