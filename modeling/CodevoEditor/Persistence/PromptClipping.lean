/-
# Clipped prompts and the log

`src/domain/agentPromptClipping.ts` and `restorablePrompts` of
`application/useAgentTurnLogHydration.ts`.
-/

import CodevoEditor.Persistence.TailCap
import CodevoEditor.Js.PointRuns

namespace CodevoEditor.Persistence

open Js

def restoreAgentPromptFromLog (jsonPrompt logPrompt : JsString) : Option JsString :=
  if !agentPromptLooksClipped jsonPrompt then none
  else
    let body := jsonPrompt.take (jsonPrompt.length - clippedAgentPromptMarker.length)
    if !body.isPrefixOf logPrompt then none
    else if utf8ByteLength logPrompt ≤ utf8ByteLength jsonPrompt then none
    else some logPrompt

/-- What `restorablePrompts` puts in the place of the prompt of a settled turn that was not
restored before. -/
def restorablePrompt (prompt logPrompt : JsString) : Option JsString :=
  if !agentPromptLooksClipped prompt then none
  else
    match restoreAgentPromptFromLog prompt logPrompt with
    | some full => some full
    | none => if logPrompt ≠ prompt then none else some prompt

variable (text : JsString) (limitBytes : ℕ)

lemma clipUtf8Text_prefix : clipUtf8Text text limitBytes <+: text := by
  obtain ⟨rest, hrest⟩ := takeFitting_prefix limitBytes (codePoints text)
  refine ⟨rest.flatten, ?_⟩
  rw [clipUtf8Text, ← List.flatten_append, hrest, codePoints_flatten]

lemma utf8ByteLength_clipUtf8Text_le : utf8ByteLength (clipUtf8Text text limitBytes) ≤ limitBytes :=
  (utf8ByteLength_flatten_le _).trans (sum_takeFitting_le _ _)

lemma exists_body {prompt} (h : agentPromptLooksClipped prompt) :
    ∃ body, prompt = body ++ clippedAgentPromptMarker := by
  obtain ⟨body, hbody⟩ := List.isSuffixOf_iff_suffix.mp h
  exact ⟨body, hbody.symm⟩

/-- Restoring over a body: what is logged comes back if it starts with the body and is
longer than what is stored. -/
lemma restore_body (body logPrompt : JsString) :
    restoreAgentPromptFromLog (body ++ clippedAgentPromptMarker) logPrompt =
      if body <+: logPrompt ∧
          utf8ByteLength (body ++ clippedAgentPromptMarker) < utf8ByteLength logPrompt then
        some logPrompt
      else none := by
  have hclip : agentPromptLooksClipped (body ++ clippedAgentPromptMarker) :=
    List.isSuffixOf_iff_suffix.mpr (List.suffix_append _ _)
  have hstarts : body.isPrefixOf logPrompt ↔ body <+: logPrompt := List.isPrefixOf_iff_prefix
  simp only [restoreAgentPromptFromLog, hclip, List.length_append, Nat.add_sub_cancel,
    List.take_left', Bool.not_true, Bool.false_eq_true, if_false]
  by_cases hfr : body <+: logPrompt
  · simp only [hstarts.mpr hfr, hfr, Bool.not_true, Bool.false_eq_true, if_false, true_and,
      ← Nat.not_lt, ite_not]
  · simp [hfr]

/-- **A clipped prompt comes back from its log**, and is a front of it of at most 512 bytes with the
marker. -/
theorem restoreAgentPromptFromLog_spec :
    (∀ prompt clipped, clipAgentPromptForPersistence prompt = some clipped →
      (∃ body, clipped = body ++ clippedAgentPromptMarker ∧ body <+: prompt ∧
        utf8ByteLength body ≤ clippedAgentPromptPrefixBytes) ∧
      restoreAgentPromptFromLog clipped prompt = some prompt) ∧
    ∀ jsonPrompt logPrompt,
      (restoreAgentPromptFromLog jsonPrompt logPrompt = none ∧
        (restorablePrompt jsonPrompt logPrompt).getD jsonPrompt = jsonPrompt) ∨
      ∃ body, jsonPrompt = body ++ clippedAgentPromptMarker ∧ body <+: logPrompt ∧
        utf8ByteLength jsonPrompt < utf8ByteLength logPrompt ∧
        restoreAgentPromptFromLog jsonPrompt logPrompt = some logPrompt ∧
        restorablePrompt jsonPrompt logPrompt = some logPrompt := by
  constructor
  · intro prompt clipped h
    rw [clipAgentPromptForPersistence] at h
    split_ifs at h with hlong
    cases h
    have hfront := clipUtf8Text_prefix prompt clippedAgentPromptPrefixBytes
    have hbytes := utf8ByteLength_clipUtf8Text_le prompt clippedAgentPromptPrefixBytes
    have hsum := utf8ByteLength_append_le (clipUtf8Text prompt clippedAgentPromptPrefixBytes) clippedAgentPromptMarker
    refine ⟨⟨_, rfl, hfront, hbytes⟩, ?_⟩
    rw [restore_body, if_pos ⟨hfront, by omega⟩]
  · intro jsonPrompt logPrompt
    by_cases hclip : agentPromptLooksClipped jsonPrompt
    · obtain ⟨body, rfl⟩ := exists_body hclip
      by_cases hlogged : body <+: logPrompt ∧
          utf8ByteLength (body ++ clippedAgentPromptMarker) < utf8ByteLength logPrompt
      · right
        have hsome := (restore_body body logPrompt).trans (if_pos hlogged)
        exact ⟨body, rfl, hlogged.1, hlogged.2, hsome, by simp [restorablePrompt, hclip, hsome]⟩
      · left
        have hnone := (restore_body body logPrompt).trans (if_neg hlogged)
        refine ⟨hnone, ?_⟩
        simp only [restorablePrompt, hclip, hnone, Bool.not_true, Bool.false_eq_true, if_false]
        split_ifs <;> rfl
    · left
      simp [restoreAgentPromptFromLog, restorablePrompt, hclip]

/-- No code point is cut: two bytes of the bound stay free behind 170 letters of three. -/
example : (clipAgentPromptForPersistence (List.replicate 300 0x5B57)).map List.length =
    some (170 + clippedAgentPromptMarker.length) := by
  decide +kernel

end CodevoEditor.Persistence
