/-
# Output in any chunks

A stream may be cut into chunks anywhere but inside a surrogate pair.
-/

import CodevoEditor.AgentOutput.Parser

namespace CodevoEditor.AgentOutput

open Js AgentEvents List Option

variable {Observation : Type} (parsers : AgentLineParsers Observation)

/-- Chunk after chunk. -/
def AgentLineParsers.feedChunks (state : AgentOutputParserState) (stream : AgentTaskOutputStream)
    (chunks : List JsString) : AgentOutputParserState × AgentFeedOutput Observation :=
  chunks.foldl (fun fed chunk =>
    let step := parsers.feedAgentOutput fed.1 stream chunk
    (step.1, fed.2.append step.2)) (state, {})

/-- Chunk after chunk, and the end of the output. -/
def AgentLineParsers.feedAndFinish (state : AgentOutputParserState) (stream : AgentTaskOutputStream)
    (chunks : List JsString) : AgentOutputParserState × AgentFeedOutput Observation :=
  let fed := parsers.feedChunks state stream chunks
  let finished := finishAgentOutput fed.1
  (finished.1, fed.2.append finished.2)

/-- No cut is inside a surrogate pair. -/
def IntactCuts : List JsString → Prop
  | [] => True
  | chunk :: chunks => splitsPair chunk chunks.flatten = false ∧ IntactCuts chunks

instance : ∀ chunks, Decidable (IntactCuts chunks)
  | [] => .isTrue trivial
  | _ :: chunks =>
      have := instDecidableIntactCuts chunks
      inferInstanceAs (Decidable (_ ∧ _))

lemma AgentFeedOutput.append_assoc (first second third : AgentFeedOutput Observation) :
    (first.append second).append third = first.append (second.append third) := by
  unfold AgentFeedOutput.append
  rw [List.append_assoc, List.append_assoc, Option.or_assoc, Option.or_assoc]

variable (output : AgentFeedOutput Observation)

@[simp] lemma AgentFeedOutput.empty_append : AgentFeedOutput.append {} output = output := by
  unfold AgentFeedOutput.append
  rw [nil_append, nil_append, or_none, or_none]

@[simp] lemma AgentFeedOutput.append_empty : output.append {} = output := by
  unfold AgentFeedOutput.append
  rw [append_nil, append_nil, none_or, none_or]

variable (stream : AgentTaskOutputStream)

lemma parseLines_cons (state)
    (line : JsString) (lines : List JsString) :
    parsers.parseLines stream state (line :: lines) =
      ((parsers.parseLines stream (parsers.parseLine stream state line).1 lines).1,
        (parsers.parseLine stream state line).2.append
          (parsers.parseLines stream (parsers.parseLine stream state line).1 lines).2) := by
  -- what was given out before stays in front
  have hfold (lines : List JsString) (state : AgentOutputParserState)
      (output : AgentFeedOutput Observation) :
      lines.foldl (fun parsed line =>
          let step := parsers.parseLine stream parsed.1 line
          (step.1, parsed.2.append step.2)) (state, output) =
        ((parsers.parseLines stream state lines).1, output.append (parsers.parseLines stream state lines).2) := by
    induction lines generalizing state output with
    | nil =>
      rw [AgentLineParsers.parseLines, foldl_nil, foldl_nil, AgentFeedOutput.append_empty]
    | cons line lines ih =>
      rw [AgentLineParsers.parseLines, foldl_cons, foldl_cons, ih, ih,
        AgentFeedOutput.empty_append, AgentFeedOutput.append_assoc]
  rw [AgentLineParsers.parseLines, foldl_cons, hfold, AgentFeedOutput.empty_append]

theorem parseLines_append (state)
    (front back : List JsString) :
    parsers.parseLines stream state (front ++ back) =
      ((parsers.parseLines stream (parsers.parseLines stream state front).1 back).1,
        (parsers.parseLines stream state front).2.append
          (parsers.parseLines stream (parsers.parseLines stream state front).1 back).2) := by
  induction front generalizing state with
  | nil =>
    exact Prod.ext rfl (AgentFeedOutput.empty_append _).symm
  | cons line front ih =>
    rw [cons_append, parseLines_cons, ih, parseLines_cons, AgentFeedOutput.append_assoc]

lemma interpret_withPendingLine (state)
    (pending) (line : JsString) (events) :
    parsers.interpret (state.withPendingLine stream pending) line events =
      ((parsers.interpret state line events).1.withPendingLine stream pending,
        (parsers.interpret state line events).2) := by
  obtain ⟨kind⟩ := state
  cases stream <;> cases kind <;> rfl

variable (stream stream' : AgentTaskOutputStream)

lemma take_withPendingLine
    (state) (pending) (line : JsString)
    (parsed) :
    parsers.take stream (state.withPendingLine stream' pending) line parsed =
      ((parsers.take stream state line parsed).1.withPendingLine stream' pending,
        (parsers.take stream state line parsed).2) := by
  cases parsed with
  | unknown raw => rfl
  | ignored => rfl
  | accountUsage observation => rfl
  | events events sessionId sessionFallback =>
    have hsess : (state.withPendingLine stream' pending).sessionId = state.sessionId := by
      cases stream' <;> rfl
    unfold AgentLineParsers.take
    dsimp only
    rw [hsess, interpret_withPendingLine]
    split_ifs
    · rfl
    · rfl
    · cases stream' <;> rfl

/-- **Pending text is no business of the line parser.** -/
theorem parseLine_withPendingLine
    (state) (pending) (line : JsString) :
    parsers.parseLine stream (state.withPendingLine stream' pending) line =
      ((parsers.parseLine stream state line).1.withPendingLine stream' pending,
        (parsers.parseLine stream state line).2) := by
  unfold AgentLineParsers.parseLine
  split_ifs
  · rfl
  · rfl
  · have htake := take_withPendingLine parsers stream stream' { state with
      emittedToolIds :=
        (parsers.parse state.kind state.transport line state.emittedToolIds).2 } pending line
      (parsers.parse state.kind state.transport line state.emittedToolIds).1
    cases stream' <;> exact htake

lemma parseLines_withPendingLine
    (state) (pending) (lines) :
    parsers.parseLines stream (state.withPendingLine stream' pending) lines =
      ((parsers.parseLines stream state lines).1.withPendingLine stream' pending,
        (parsers.parseLines stream state lines).2) := by
  induction lines generalizing state with
  | nil => rfl
  | cons line lines ih => rw [parseLines_cons, parseLines_cons, parseLine_withPendingLine, ih]

/-- A call: the state after it, how many lines it found too long, and what it
gives out without the notices about them. -/
def feedParts (state : AgentOutputParserState) (stream : AgentTaskOutputStream) (chunk : JsString) :
    AgentOutputParserState × ℕ × AgentFeedOutput Observation :=
  let split := splitLines (state.pendingLine stream) chunk
  let parsed := parsers.parseLines stream state split.lines
  (parsed.1.withPendingLine stream split.state, split.overflow, parsed.2)

variable (state : AgentOutputParserState) (stream : AgentTaskOutputStream)

variable (chunk : JsString)

lemma feedAgentOutput_eq :
    parsers.feedAgentOutput state stream chunk =
      ((feedParts parsers state stream chunk).1,
        { (feedParts parsers state stream chunk).2.2 with
          events := oversizeLineEvents stream (feedParts parsers state stream chunk).2.1 ++
            (feedParts parsers state stream chunk).2.2.events }) := by
  unfold AgentLineParsers.feedAgentOutput feedParts
  by_cases hemp : chunk = []
  · subst hemp
    cases stream <;> rfl
  · rw [if_neg hemp]

/-- **Two calls one after the other are one call.** -/
theorem feedParts_append {front back} (hseam : splitsPair front back = false) :
    feedParts parsers state stream (front ++ back) =
      ((feedParts parsers (feedParts parsers state stream front).1 stream back).1,
        (feedParts parsers state stream front).2.1 +
          (feedParts parsers (feedParts parsers state stream front).1 stream back).2.1,
        (feedParts parsers state stream front).2.2.append
          (feedParts parsers (feedParts parsers state stream front).1 stream back).2.2) := by
  have hnone (state : AgentOutputParserState) : feedParts parsers state stream [] = (state, 0, {}) := by
    cases stream <;> rfl
  by_cases hfr : front = []
  · subst hfr
    rw [hnone, nil_append, Nat.zero_add, AgentFeedOutput.empty_append]
  by_cases hback : back = []
  · subst hback
    rw [hnone, append_nil, Nat.add_zero, AgentFeedOutput.append_empty]
  have hpend (state : AgentOutputParserState) (pending : AgentOutputPendingLine) :
      (state.withPendingLine stream pending).pendingLine stream = pending := by
    cases stream <;> rfl
  have htwice (state : AgentOutputParserState) (pending pending' : AgentOutputPendingLine) :
      (state.withPendingLine stream pending).withPendingLine stream pending' =
        state.withPendingLine stream pending' := by
    cases stream <;> rfl
  unfold feedParts
  dsimp only
  rw [splitLines_append _ hfr hback hseam, AgentOutputSplitResult.after, parseLines_append, hpend,
    parseLines_withPendingLine, htwice]

/-- Call by call: how many lines it found too long, and its events without the
notices about them. -/
def feedCalls (stream : AgentTaskOutputStream) :
    AgentOutputParserState → List JsString → List (ℕ × List AgentTurnEvent)
  | _, [] => []
  | state, chunk :: chunks =>
      let parts := feedParts parsers state stream chunk
      (parts.2.1, parts.2.2.events) :: feedCalls stream parts.1 chunks

lemma feedChunks_cons (chunks : List JsString) :
    parsers.feedChunks state stream (chunk :: chunks) =
      ((parsers.feedChunks (parsers.feedAgentOutput state stream chunk).1 stream chunks).1,
        (parsers.feedAgentOutput state stream chunk).2.append
          (parsers.feedChunks (parsers.feedAgentOutput state stream chunk).1 stream chunks).2) := by
  have hfold (chunks : List JsString) (state : AgentOutputParserState)
      (output : AgentFeedOutput Observation) :
      chunks.foldl (fun fed chunk =>
          let step := parsers.feedAgentOutput fed.1 stream chunk
          (step.1, fed.2.append step.2)) (state, output) =
        ((parsers.feedChunks state stream chunks).1, output.append (parsers.feedChunks state stream chunks).2) := by
    induction chunks generalizing state output with
    | nil =>
      rw [AgentLineParsers.feedChunks, foldl_nil, foldl_nil, AgentFeedOutput.append_empty]
    | cons chunk chunks ih =>
      rw [AgentLineParsers.feedChunks, foldl_cons, foldl_cons, ih, ih,
        AgentFeedOutput.empty_append, AgentFeedOutput.append_assoc]
  rw [AgentLineParsers.feedChunks, foldl_cons, hfold, AgentFeedOutput.empty_append]

/-- **Many calls are one call**, but for the places of the notices. -/
theorem feedChunks_eq {chunks} (hcuts : IntactCuts chunks) :
    parsers.feedChunks state stream chunks =
        ((feedParts parsers state stream chunks.flatten).1,
          { (feedParts parsers state stream chunks.flatten).2.2 with
            events := (feedCalls parsers stream state chunks).flatMap fun call =>
              oversizeLineEvents stream call.1 ++ call.2 }) ∧
      (feedParts parsers state stream chunks.flatten).2.1 = ((feedCalls parsers stream state chunks).map (·.1)).sum ∧
      (feedParts parsers state stream chunks.flatten).2.2.events =
        (feedCalls parsers stream state chunks).flatMap (·.2) := by
  induction chunks generalizing state with
  | nil => cases stream <;> exact ⟨rfl, rfl, rfl⟩
  | cons chunk chunks ih =>
    obtain ⟨hrun, hcnt, hevs⟩ := ih (feedParts parsers state stream chunk).1 hcuts.2
    rw [flatten_cons, feedParts_append parsers state stream hcuts.1]
    refine ⟨?_, ?_, ?_⟩
    · rw [feedChunks_cons, feedAgentOutput_eq]
      rw [hrun]
      rfl
    · dsimp only
      rw [hcnt, feedCalls, map_cons, sum_cons]
    · rw [feedCalls, flatMap_cons, ← hevs]
      rfl

/-- **The output of a stream does not depend on its chunks**, but for the places of the notices
about oversize lines, which are in front of the other events of their call. -/
theorem feedAndFinish_chunks (chunks : List JsString) (hcuts : IntactCuts chunks) :
    (parsers.feedAndFinish state stream chunks).1 =
        (parsers.feedAndFinish state stream [chunks.flatten]).1 ∧
      (parsers.feedAndFinish state stream chunks).2.sessionId =
        (parsers.feedAndFinish state stream [chunks.flatten]).2.sessionId ∧
      (parsers.feedAndFinish state stream chunks).2.accountUsage =
        (parsers.feedAndFinish state stream [chunks.flatten]).2.accountUsage ∧
      (parsers.feedAndFinish state stream chunks).2.sessionFallback =
        (parsers.feedAndFinish state stream [chunks.flatten]).2.sessionFallback ∧
      (∃ trailing : List AgentTurnEvent,
        (parsers.feedAndFinish state stream chunks).2.events =
            ((feedCalls parsers stream state chunks).flatMap fun call =>
              oversizeLineEvents stream call.1 ++ call.2) ++ trailing ∧
          (parsers.feedAndFinish state stream [chunks.flatten]).2.events =
            oversizeLineEvents stream ((feedCalls parsers stream state chunks).map (·.1)).sum ++
              (feedCalls parsers stream state chunks).flatMap (·.2) ++ trailing) ∧
      ((splitLines (state.pendingLine stream) chunks.flatten).overflow = 0 →
        (parsers.feedAndFinish state stream chunks).2 = (parsers.feedAndFinish state stream [chunks.flatten]).2) := by
  obtain ⟨hrun, hcount, hevs⟩ := feedChunks_eq parsers state stream hcuts
  have hwhole : parsers.feedChunks state stream [chunks.flatten] =
      parsers.feedAgentOutput state stream chunks.flatten := by
    rw [feedChunks_cons]
    exact Prod.ext rfl (AgentFeedOutput.append_empty _)
  unfold AgentLineParsers.feedAndFinish
  rw [hwhole, feedAgentOutput_eq, hrun]
  refine ⟨rfl, rfl, rfl, rfl, ⟨(@finishAgentOutput Observation
    (feedParts parsers state stream chunks.flatten).1).2.events, rfl, ?_⟩, ?_⟩
  · rw [← hcount, ← hevs]
    rfl
  · intro hnone
    have hzero : ∀ call ∈ feedCalls parsers stream state chunks, call.1 = 0 := by
      have hsum : ((feedCalls parsers stream state chunks).map (·.1)).sum = 0 := hcount.symm.trans hnone
      exact fun call hcall => sum_eq_zero_iff.1 hsum call.1 (mem_map.2 ⟨call, hcall, rfl⟩)
    have hflat : ((feedCalls parsers stream state chunks).flatMap fun call =>
        oversizeLineEvents stream call.1 ++ call.2) =
          oversizeLineEvents stream (feedParts parsers state stream chunks.flatten).2.1 ++
            (feedParts parsers state stream chunks.flatten).2.2.events := by
      have hcall : ∀ call ∈ feedCalls parsers stream state chunks,
          oversizeLineEvents stream call.1 ++ call.2 = call.2 := fun call hcall => by
        rw [hzero call hcall]
        rfl
      rw [flatMap_congr hcall, ← hevs]
      have hcountZero : (feedParts parsers state stream chunks.flatten).2.1 = 0 := hnone
      rw [hcountZero]
      rfl
    rw [hflat]

/-- A protocol of which no line is understood. -/
def unknownLines : AgentLineParsers Unit where
  parseClaudeStreamJsonLine line := .unknown line
  parseCodexJsonlLine line emittedToolIds := (.unknown line, emittedToolIds)
  parseCodexAppServerLine line := .unknown line
  jsonParse _ := none

/-- A cut in a line and one in front of a newline. -/
theorem feedAndFinish_chunks_of_two_lines :
    (unknownLines.feedAndFinish (createAgentOutputParserState .codex .exec) .stdout
        [js "a\nb", js "c", js "\nd"]).1 =
      (unknownLines.feedAndFinish (createAgentOutputParserState .codex .exec) .stdout [js "a\nbc\nd"]).1 :=
  (feedAndFinish_chunks unknownLines (createAgentOutputParserState .codex .exec) .stdout
    [js "a\nb", js "c", js "\nd"] (by decide)).1

/-- One byte more than a line may have. -/
def oversizeLine : JsString := List.replicate discardingBytes 120

variable (count : ℕ)

lemma utf8ByteLength_replicate : utf8ByteLength (List.replicate count 120) = count := by
  induction count with
  | zero => rfl
  | succ count ih =>
    have hcons := utf8ByteLength_cons 120 (List.replicate count 120)
    have hunit : unitBytes 120 = 1 := by decide
    have hhigh : isHighSurrogate 120 = false := by decide
    rw [hhigh, Bool.false_and, if_neg (by decide), hunit, ih] at hcons
    rw [replicate_succ]
    omega

lemma splitNewlines_replicate :
    splitNewlines (List.replicate count 120 ++ [newline]) = ([List.replicate count 120], []) := by
  induction count with
  | zero => rfl
  | succ count ih =>
    rw [replicate_succ, cons_append, splitNewlines, ih, if_neg (by decide)]

lemma splitLines_oversize {count} (hcnt : maxAgentOutputLineBytes < count) :
    splitLines emptyPendingLine (List.replicate count 120 ++ [newline]) = ⟨emptyPendingLine, [], 1⟩ := by
  have hne : List.replicate count 120 ++ [newline] ≠ [] := by simp
  have hemp : ¬ maxAgentOutputLineBytes < emptyPendingLine.pendingBytes := Nat.not_lt_zero _
  have hlong : maxAgentOutputLineBytes <
      emptyPendingLine.pendingBytes + utf8ByteLength (List.replicate count 120) := by
    rw [utf8ByteLength_replicate]
    exact hcnt.trans_le (Nat.le_add_left _ _)
  rw [splitLines, if_neg hne, splitNewlines_replicate, foldl_cons, foldl_nil, endLine, if_neg hemp, if_pos hlong]
  rfl

lemma feedAndFinish_of_overflow {line}
    (hline : splitLines emptyPendingLine line = ⟨emptyPendingLine, [], 1⟩) :
    (unknownLines.feedAndFinish (createAgentOutputParserState .codex .exec) .stderr
          [js "a\n", line]).2.events =
        [unknownLineEvent .stderr (js "a"),
          .unknownLine { stream := .stderr, raw := oversizeAgentOutputLineRaw, clipped := true }] ∧
      (unknownLines.feedAndFinish (createAgentOutputParserState .codex .exec) .stderr
          [js "a\n" ++ line]).2.events =
        [.unknownLine { stream := .stderr, raw := oversizeAgentOutputLineRaw, clipped := true },
          unknownLineEvent .stderr (js "a")] := by
  have hsht : feedParts unknownLines (createAgentOutputParserState .codex .exec) .stderr
      (js "a\n") = (createAgentOutputParserState .codex .exec, 0,
        { events := [unknownLineEvent .stderr (js "a")] }) := by decide +kernel
  have hlong : feedParts unknownLines (createAgentOutputParserState .codex .exec) .stderr line =
      (createAgentOutputParserState .codex .exec, 1, {}) := by
    have hpend : (createAgentOutputParserState .codex .exec).pendingLine .stderr =
        emptyPendingLine := rfl
    unfold feedParts
    rw [hpend, hline]
    rfl
  have hseam : splitsPair (js "a\n") line = false := by
    have hend : endsWithHighSurrogate (js "a\n") = false := by decide
    rw [splitsPair, hend, Bool.false_and]
  have hwh := feedParts_append unknownLines (createAgentOutputParserState .codex .exec) .stderr hseam
  rw [hsht] at hwh
  rw [hlong] at hwh
  unfold AgentLineParsers.feedAndFinish
  constructor
  · rw [feedChunks_cons, feedAgentOutput_eq, hsht, feedChunks_cons, feedAgentOutput_eq, hlong]
    rfl
  · rw [feedChunks_cons, feedAgentOutput_eq, hwh]
    rfl

/-- **The order shows the chunks**: a line and a line that is too long, cut
between the two. -/
theorem feedAndFinish_chunks_ne :
    IntactCuts [js "a\n", oversizeLine ++ [newline]] ∧
      (unknownLines.feedAndFinish (createAgentOutputParserState .codex .exec) .stderr
          [js "a\n", oversizeLine ++ [newline]]).2.events ≠
        (unknownLines.feedAndFinish (createAgentOutputParserState .codex .exec) .stderr
          [js "a\n" ++ (oversizeLine ++ [newline])]).2.events := by
  have hend : endsWithHighSurrogate (js "a\n") = false := by decide
  obtain ⟨hcut, hwhole⟩ := feedAndFinish_of_overflow
    (splitLines_oversize (show maxAgentOutputLineBytes < discardingBytes from Nat.lt_succ_self _))
  refine ⟨⟨?_, ?_, trivial⟩, ?_⟩
  · rw [splitsPair, hend, Bool.false_and]
  · rw [flatten_nil, splitsPair, startsWithLowSurrogate_nil, Bool.and_false]
  · intro hsame
    have hnotice := hcut.symm.trans (hsame.trans hwhole)
    exact absurd hnotice (by decide +kernel)

end CodevoEditor.AgentOutput
