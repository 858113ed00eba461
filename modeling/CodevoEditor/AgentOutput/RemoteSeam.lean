/-
# The seam of two segments

Where nothing is clipped a page gives out what its events say, one after the other (`emitPage`,
`parsedSegment_events`), and its limits leave no trace.
-/

import CodevoEditor.AgentOutput.ChunkIndependence
import CodevoEditor.AgentOutput.RemoteSegment

namespace CodevoEditor.AgentOutput

open Js AgentEvents List

variable {Observation : Type} (parsers : AgentLineParsers Observation)

def emitPieces (event : RemoteRunnerEvent) :
    SegmentCursor → List JsString → SegmentCursor × List AgentTurnEvent
  | cursor, [] => (cursor, [])
  | cursor, piece :: pieces =>
      let step := feedOutput parsers cursor event (some piece)
      let rest := emitPieces event step.1 pieces
      (rest.1, step.2 ++ rest.2)

/-- The events of a page, and the cursor behind it. -/
def emitPage : SegmentCursor → List RemoteRunnerEvent → SegmentCursor × List AgentTurnEvent
  | cursor, [] => (cursor, [])
  | cursor, event :: events =>
      let fed := emitPieces parsers event cursor (linePieces (outputText event))
      let rest := emitPage fed.1 events
      (rest.1, fed.2 ++ (inputEvents event ++ errorEvents event) ++ rest.2)

lemma emitPage_append (cursor) (first second) :
    emitPage parsers cursor (first ++ second) =
      ((emitPage parsers (emitPage parsers cursor first).1 second).1,
        (emitPage parsers cursor first).2 ++ (emitPage parsers (emitPage parsers cursor first).1 second).2) := by
  induction first generalizing cursor with
  | nil => rfl
  | cons event first ih =>
    rw [cons_append, emitPage, ih, emitPage]
    simp only [append_assoc]

variable {limits : RemoteAgentTranscriptSegmentLimits}

lemma retain_events {retained} {events}
    (h : (retain limits retained events).full = false) :
    (retain limits retained events).events = retained.events ++ events := by
  induction events generalizing retained with
  | nil => rw [retain, append_nil]
  | cons event events ih =>
    rw [retain] at h ⊢
    split_ifs at h ⊢ with hfull
    rw [ih h, append_assoc, singleton_append]

variable {event : RemoteRunnerEvent}

variable {pieces : List JsString} {loop : PageLoop}

lemma feedPieces_events (h : (feedPieces parsers limits event loop pieces).2 = false) :
    (feedPieces parsers limits event loop pieces).1.cursor =
        (emitPieces parsers event loop.cursor pieces).1 ∧
      (feedPieces parsers limits event loop pieces).1.retained.events =
        loop.retained.events ++ (emitPieces parsers event loop.cursor pieces).2 := by
  induction pieces generalizing loop with
  | nil => exact ⟨rfl, (append_nil _).symm⟩
  | cons piece pieces ih =>
    rw [feedPieces] at h ⊢
    by_cases hcut : loop.bytes < utf8ByteLength piece ∨ (piece.getLast? = some newline ∧ loop.lines = 0)
    · rw [if_pos hcut] at h
      cases h
    rw [if_neg hcut] at h ⊢
    by_cases hfull : (retain limits loop.retained (feedOutput parsers loop.cursor event (some piece)).2).full
    · rw [if_pos hfull] at h
      cases h
    rw [if_neg hfull] at h ⊢
    rw [Bool.not_eq_true] at hfull
    obtain ⟨hcur, hevs⟩ := ih h
    refine ⟨hcur, hevs.trans ?_⟩
    rw [retain_events hfull, append_assoc]
    rfl

variable {events : List RemoteRunnerEvent}

lemma feedPage_events (h : (feedPage parsers limits loop events).2 = false) :
    (feedPage parsers limits loop events).1.cursor = (emitPage parsers loop.cursor events).1 ∧
      (feedPage parsers limits loop events).1.retained.events =
        loop.retained.events ++ (emitPage parsers loop.cursor events).2 := by
  induction events generalizing loop with
  | nil => exact ⟨rfl, (append_nil _).symm⟩
  | cons event events ih =>
    rw [feedPage] at h ⊢
    by_cases hcut : (feedPieces parsers limits event loop (linePieces (outputText event))).2
    · rw [if_pos hcut, hcut] at h
      cases h
    rw [if_neg hcut] at h ⊢
    rw [Bool.not_eq_true] at hcut
    obtain ⟨hcur, hpieces⟩ := feedPieces_events parsers hcut
    by_cases hfull : (retain limits
        (feedPieces parsers limits event loop (linePieces (outputText event))).1.retained
        (inputEvents event ++ errorEvents event)).full
    · rw [if_pos hfull] at h
      cases h
    rw [if_neg hfull] at h ⊢
    rw [Bool.not_eq_true] at hfull
    obtain ⟨hrest, hevs⟩ := ih h
    constructor
    · rw [hrest]
      rw [hcur]
      rfl
    · rw [hevs, retain_events hfull, hpieces, emitPage]
      rw [hcur]
      simp only [append_assoc]

/-- The events that the end of a task adds. -/
def finishEvents (finish : Bool) (cursor : SegmentCursor) : List AgentTurnEvent :=
  if finish then (@finishAgentOutput Observation cursor.parser).2.events else []

variable {input : RemoteAgentTranscriptSegmentInput}

/-- **A page that is not clipped shows all of its events.** -/
theorem parsedSegment_events {start} {clipped}
    (h : (parsedSegment parsers start input clipped).clipped = false) :
    (parsedSegment parsers start input clipped).events =
        (emitPage parsers start input.events).2 ++
          @finishEvents Observation input.finish (emitPage parsers start input.events).1 ∧
      clipped = false := by
  unfold parsedSegment at h ⊢
  by_cases hcut : (feedPage parsers input.limits
      ⟨start, input.limits.maxLines, input.limits.maxPageBytes, ⟨[], 0, false⟩⟩ input.events).2
  · rw [if_pos hcut] at h
    cases h
  rw [if_neg hcut] at h ⊢
  rw [Bool.not_eq_true] at hcut
  obtain ⟨hcur, hevs⟩ := feedPage_events parsers hcut
  unfold finishEvents
  cases hfinish : input.finish with
  | false =>
    rw [hfinish, if_pos (by decide)] at h
    refine ⟨?_, h⟩
    rw [if_pos (by decide), if_neg (by decide), hevs, append_nil, nil_append]
  | true =>
    rw [hfinish, if_neg (by decide)] at h
    rw [Bool.or_eq_false_iff] at h
    refine ⟨?_, h.1⟩
    rw [if_neg (by decide), if_pos rfl]
    dsimp only
    rw [retain_events h.2, hevs, hcur, nil_append]

/-! ### Pieces and events -/

lemma flatten_linePieces (text : JsString) : (linePieces text).flatten = text := by
  have htail (tail : JsString) : (if tail = [] then [] else [tail]).flatten = tail := by
    split_ifs with hnil
    · exact hnil.symm
    · exact flatten_singleton
  unfold linePieces
  rw [flatten_append, htail]
  induction text with
  | nil => rfl
  | cons unit rest ih =>
    rw [splitNewlines]
    split_ifs with hunit
    · rw [map_cons, flatten_cons, append_assoc, ih, hunit]
      rfl
    · cases hsegs : (splitNewlines rest).1 with
      | nil =>
        rw [hsegs] at ih
        exact congrArg (unit :: ·) ih
      | cons segment segments =>
        rw [hsegs] at ih
        exact congrArg (unit :: ·) ih

lemma intactCuts_linePieces (text : JsString) : IntactCuts (linePieces text) := by
  have hcuts (segments : List JsString) (rest : List JsString) (hrest : IntactCuts rest) :
      IntactCuts (segments.map (· ++ [newline]) ++ rest) := by
    induction segments with
    | nil => exact hrest
    | cons segment segments ih =>
      refine ⟨?_, ih⟩
      have hend : endsWithHighSurrogate (segment ++ [newline]) = false := by
        rw [endsWithHighSurrogate, getLast?_concat]
        decide
      rw [splitsPair, hend, Bool.false_and]
  refine hcuts _ _ ?_
  split_ifs
  · trivial
  · refine ⟨?_, trivial⟩
    rw [flatten_nil, splitsPair, startsWithLowSurrogate_nil, Bool.and_false]

variable {front back : JsString} (state : AgentOutputParserState)

lemma feedAgentOutput_append_state
    (stream) (hseam : splitsPair front back = false) :
    (parsers.feedAgentOutput state stream (front ++ back)).1 =
      (parsers.feedAgentOutput (parsers.feedAgentOutput state stream front).1 stream back).1 := by
  rw [feedAgentOutput_eq, feedAgentOutput_eq, feedAgentOutput_eq, feedParts_append parsers state stream hseam]

/-- The framing of a stream that goes on within its line. -/
def ChannelFraming.carry (bytes : ℕ) : ChannelFraming → ChannelFraming
  | .unknown carriedBytes cut => .unknown (carriedBytes + bytes) cut
  | framing => framing

variable {framing : ChannelFraming}

lemma ChannelFraming.carry_ne_framed (h : framing ≠ .framed) (bytes : ℕ) : framing.carry bytes ≠ .framed := by
  cases framing with
  | framed => exact absurd rfl h
  | midLine => exact h
  | unknown carriedBytes cut => rintro ⟨⟩

lemma indexOfNewline_zero (text : JsString) : indexOfNewline text 0 = text.findIdx? (· = newline) := by
  rw [indexOfNewline, drop_zero]
  cases text.findIdx? (· = newline) <;> rfl

lemma framedText_framed (text : JsString) : framedText .framed text = (text, .framed) := by
  unfold framedText
  rw [if_pos rfl]

variable {text : JsString}

variable {index : ℕ}

lemma framedText_of_newline (hfrm : framing ≠ .framed)
    (h : text.findIdx? (· = newline) = some index) :
    framedText framing text = (text.drop (index + 1), .framed) := by
  unfold framedText
  rw [if_neg hfrm, indexOfNewline_zero, h]

lemma framedText_of_no_newline (hfrm : framing ≠ .framed)
    (h : text.findIdx? (· = newline) = none) :
    framedText framing text = ([], framing.carry (utf8ByteLength text)) := by
  unfold framedText
  rw [if_neg hfrm, indexOfNewline_zero, h]
  cases framing <;> rfl

lemma splitsPair_drop (hseam : splitsPair front back = false) (count : ℕ) :
    splitsPair (front.drop count) back = false := by
  rw [splitsPair, Bool.and_eq_false_iff] at hseam ⊢
  refine hseam.imp_left fun hend => ?_
  rw [endsWithHighSurrogate, getLast?_drop]
  split_ifs
  · rfl
  · exact hend

theorem framedText_append (framing) (hseam : splitsPair front back = false) :
    framedText framing (front ++ back) =
        ((framedText framing front).1 ++ (framedText (framedText framing front).2 back).1,
          (framedText (framedText framing front).2 back).2) ∧
      splitsPair (framedText framing front).1 (framedText (framedText framing front).2 back).1 =
        false := by
  by_cases hfrm : framing = .framed
  · subst hfrm
    exact ⟨rfl, hseam⟩
  cases hfr : front.findIdx? (· = newline) with
  | some index =>
    have hwh : (front ++ back).findIdx? (· = newline) = some index := by
      rw [findIdx?_append, hfr, Option.some_or]
    have hlen : index + 1 ≤ front.length := (findIdx?_eq_some_iff_getElem.1 hfr).1
    rw [framedText_of_newline hfrm hwh, framedText_of_newline hfrm hfr,
      framedText_framed, drop_append_of_le_length hlen]
    exact ⟨rfl, splitsPair_drop hseam _⟩
  | none =>
    rw [framedText_of_no_newline hfrm hfr]
    have hcarry := ChannelFraming.carry_ne_framed hfrm (utf8ByteLength front)
    refine ⟨?_, by rw [splitsPair]; rfl⟩
    cases hback : back.findIdx? (· = newline) with
    | some index =>
      have hwh : (front ++ back).findIdx? (· = newline) = some (index + front.length) := by
        rw [findIdx?_append, hfr, hback]
        rfl
      have hdrop : (front ++ back).drop (index + front.length + 1) = back.drop (index + 1) := by
        rw [Nat.add_right_comm, Nat.add_comm _ front.length, drop_length_add_append]
      rw [framedText_of_newline hfrm hwh, framedText_of_newline hcarry hback, hdrop, nil_append]
    | none =>
      have hwh : (front ++ back).findIdx? (· = newline) = none := by
        rw [findIdx?_append, hfr, hback]
        rfl
      rw [framedText_of_no_newline hfrm hwh, framedText_of_no_newline hcarry hback,
        utf8ByteLength_append_of_not_splitsPair hseam]
      cases framing with
      | framed => exact absurd rfl hfrm
      | midLine => rfl
      | unknown carriedBytes cut =>
        dsimp only [ChannelFraming.carry]
        rw [Nat.add_assoc, nil_append]

lemma feedOutput_of_none (hchan : outputChannel event = none) (cursor)
    (text : JsString) :
    (feedOutput parsers cursor event (some text)).1 = cursor := by
  unfold feedOutput
  rw [hchan]

lemma feedOutput_of_stdout (hchan : outputChannel event = some .stdout)
    (cursor) (text : JsString) :
    (feedOutput parsers cursor event (some text)).1 =
      { cursor with
        parser := (parsers.feedAgentOutput cursor.parser .stdout (framedText cursor.stdout text).1).1
        stdout := (framedText cursor.stdout text).2 } := by
  unfold feedOutput
  rw [hchan]

lemma feedOutput_of_stderr (hchan : outputChannel event = some .stderr)
    (cursor) (text : JsString) :
    (feedOutput parsers cursor event (some text)).1 =
      { cursor with
        parser := (parsers.feedAgentOutput cursor.parser .stderr (framedText cursor.stderr text).1).1
        stderr := (framedText cursor.stderr text).2 } := by
  unfold feedOutput
  rw [hchan]

lemma feedOutput_nil (cursor) (event) : (feedOutput parsers cursor event (some [])).1 = cursor := by
  have hframed framing : framedText framing [] = ([], framing) := by
    by_cases hfrm : framing = .framed
    · rw [hfrm, framedText_framed]
    · rw [framedText_of_no_newline hfrm rfl]
      cases framing <;> rfl
  rcases hchan : outputChannel event with _ | _ | _
  · rw [feedOutput_of_none parsers hchan]
  · rw [feedOutput_of_stdout parsers hchan, hframed]
    rfl
  · rw [feedOutput_of_stderr parsers hchan, hframed]
    rfl

/-- **Two texts one after the other lead to the same cursor as one text.** -/
theorem feedOutput_append (cursor) (event)
    (hseam : splitsPair front back = false) :
    (feedOutput parsers cursor event (some (front ++ back))).1 =
      (feedOutput parsers (feedOutput parsers cursor event (some front)).1 event (some back)).1 := by
  rcases hchan : outputChannel event with _ | _ | _
  · rw [feedOutput_of_none parsers hchan, feedOutput_of_none parsers hchan, feedOutput_of_none parsers hchan]
  · obtain ⟨hframed, hpair⟩ := framedText_append cursor.stdout hseam
    rw [feedOutput_of_stdout parsers hchan, feedOutput_of_stdout parsers hchan,
      feedOutput_of_stdout parsers hchan, hframed,
      feedAgentOutput_append_state parsers _ _ hpair]
  · obtain ⟨hframed, hpair⟩ := framedText_append cursor.stderr hseam
    rw [feedOutput_of_stderr parsers hchan, feedOutput_of_stderr parsers hchan,
      feedOutput_of_stderr parsers hchan, hframed,
      feedAgentOutput_append_state parsers _ _ hpair]

lemma emitPieces_cursor (event) (cursor)
    (hcuts : IntactCuts pieces) :
    (emitPieces parsers event cursor pieces).1 = (feedOutput parsers cursor event (some pieces.flatten)).1 := by
  induction pieces generalizing cursor with
  | nil => exact (feedOutput_nil parsers cursor event).symm
  | cons piece pieces ih =>
    rw [flatten_cons, feedOutput_append parsers cursor event hcuts.1, ← ih _ hcuts.2]
    rfl

/-- The cursor behind the whole output of some events. -/
def feedEvents (cursor : SegmentCursor) (events : List RemoteRunnerEvent) : SegmentCursor :=
  events.foldl (fun cursor event => (feedOutput parsers cursor event (some (event.text.getD []))).1) cursor

lemma emitPage_cursor (cursor) (events) : (emitPage parsers cursor events).1 = feedEvents parsers cursor events := by
  induction events generalizing cursor with
  | nil => rfl
  | cons event events ih =>
    rw [emitPage, feedEvents, foldl_cons]
    rw [ih, emitPieces_cursor parsers event cursor (intactCuts_linePieces _), flatten_linePieces, feedEvents]
    by_cases htype : event.type = .output
    · rw [outputText, if_pos htype]
    · have hchan : outputChannel event = none := by rw [outputChannel, if_neg htype]
      rw [feedOutput_of_none parsers hchan, feedOutput_of_none parsers hchan]

lemma boundedLeadText_whole {budget}
    (h : (boundedLeadText budget text).1.start = .whole) :
    budget.start = .whole ∧ (boundedLeadText budget text).2 = some text := by
  unfold boundedLeadText at h ⊢
  by_cases hst : budget.start = .whole
  · rw [if_neg (not_not_intro hst)] at h ⊢
    dsimp only at h ⊢
    refine ⟨hst, ?_⟩
    split_ifs at h ⊢ with hfits
    · rfl
    · cases hresume : resumeOffset text budget <;> rw [hresume] at h <;> cases h
  · rw [if_pos hst] at h
    exact absurd h hst

/-- **A lead that is kept whole is fed as it is.** -/
theorem feedLead_whole {lead} (cursor)
    (hstdout : (boundedRemoteAgentTranscriptLead lead limits).stdout = .whole)
    (hstderr : (boundedRemoteAgentTranscriptLead lead limits).stderr = .whole) :
    feedLead parsers cursor (boundedRemoteAgentTranscriptLead lead limits).events =
      feedEvents parsers cursor lead := by
  have hloop budget lead cursor
      (hstdout : (lead.foldr LeadLoop.step ⟨budget, budget, []⟩).stdout.start = .whole)
      (hstderr : (lead.foldr LeadLoop.step ⟨budget, budget, []⟩).stderr.start = .whole) :
      feedLead parsers cursor (lead.foldr LeadLoop.step ⟨budget, budget, []⟩).kept =
        feedEvents parsers cursor lead := by
    induction lead generalizing cursor with
    | nil => rfl
    | cons event lead ih =>
      rw [foldr_cons] at hstdout hstderr ⊢
      rw [feedEvents, foldl_cons, ← feedEvents]
      cases hchan : outputChannel event with
      | none =>
        rw [LeadLoop.step, hchan] at hstdout hstderr ⊢
        rw [feedOutput_of_none parsers hchan]
        exact ih cursor hstdout hstderr
      | some channel =>
        cases channel with
        | stdout =>
          rw [LeadLoop.step, hchan] at hstdout hstderr ⊢
          obtain ⟨hrest, htext⟩ := boundedLeadText_whole hstdout
          dsimp only
          rw [htext]
          exact ih _ hrest hstderr
        | stderr =>
          rw [LeadLoop.step, hchan] at hstdout hstderr ⊢
          obtain ⟨hrest, htext⟩ := boundedLeadText_whole hstderr
          dsimp only
          rw [htext]
          exact ih _ hstdout hrest
  exact hloop _ lead cursor hstdout hstderr

theorem parseLines_stderr (lines) : (parsers.parseLines .stderr state lines).1 = state := by
  induction lines generalizing state with
  | nil => rfl
  | cons line lines ih =>
    have hline : (parsers.parseLine .stderr state line).1 = state := by
      unfold AgentLineParsers.parseLine
      split_ifs
      · rfl
      · rfl
      · exact absurd rfl ‹_›
    rw [parseLines_cons, ih, hline]

lemma feedAgentOutput_stderr (chunk : JsString) :
    (parsers.feedAgentOutput state .stderr chunk).1 =
      { state with stderr := (splitLines state.stderr chunk).state } := by
  rw [feedAgentOutput_eq]
  unfold feedParts
  dsimp only
  rw [parseLines_stderr]
  rfl

lemma splitNewlines_of_no_newline (h : newline ∉ text) :
    splitNewlines text = ([], text) := by
  induction text with
  | nil => rfl
  | cons unit text ih =>
    rw [mem_cons, not_or] at h
    rw [splitNewlines, ih h.2, if_neg (Ne.symm h.1)]

lemma splitLines_state_of_newline (pending) {segment}
    (hseg : newline ∉ segment) (rest : JsString) :
    (splitLines pending (segment ++ newline :: rest)).state = (splitLines emptyPendingLine rest).state := by
  have hne : segment ++ newline :: rest ≠ [] := by simp
  have hline : splitNewlines (newline :: rest) = ([] :: (splitNewlines rest).1, (splitNewlines rest).2) := by
    rw [splitNewlines, if_pos rfl]
  have hend : ∃ lines overflow, endLine ⟨pending, [], 0⟩ segment =
      (⟨emptyPendingLine, [], 0⟩ : AgentOutputSplitResult).after lines overflow := by
    unfold endLine
    split_ifs
    · exact ⟨[], 0, rfl⟩
    · exact ⟨[], 1, rfl⟩
    · exact ⟨[_], 0, rfl⟩
  obtain ⟨lines, overflow, hend⟩ := hend
  rw [splitLines, if_neg hne, splitNewlines_append, hline,
    splitNewlines_of_no_newline hseg]
  dsimp only
  rw [nil_append, append_nil, foldl_cons, hend, foldl_endLine_after, holdTail_after, splitLines]
  split_ifs with hrest
  · rw [hrest]
    rfl
  · rfl

lemma split_at_newline (h : text.findIdx? (· = newline) = some index) :
    text = text.take index ++ newline :: text.drop (index + 1) ∧ newline ∉ text.take index := by
  obtain ⟨hlt, hat, hfr⟩ := findIdx?_eq_some_iff_getElem.1 h
  have hunit : text[index] = newline := of_decide_eq_true hat
  constructor
  · rw [← hunit, ← drop_eq_getElem_cons hlt, take_append_drop]
  · intro hmem
    obtain ⟨place, hplc, hunit⟩ := getElem_of_mem hmem
    rw [length_take] at hplc
    rw [getElem_take] at hunit
    exact hfr place (by omega) (decide_eq_true hunit)

/-- The text of a channel. -/
def channelText (channel : AgentTaskOutputStream) (events : List RemoteRunnerEvent) : JsString :=
  events.flatMap fun event =>
    if outputChannel event = some channel then event.text.getD [] else []

/-- The cursor of a page and that of a lead that start at once, where the lead skips the first line of each stream. -/
structure Skipped (text : JsString) (page lead : SegmentCursor) : Prop where
  stdout : page.stdout = .framed ∧ lead.stdout = .unknown 0 false
  stderr : page.stderr = .framed
  parser : (lead.stderr = .framed ∧ page.parser = lead.parser) ∨
    (∃ bytes, lead.stderr = .unknown bytes false ∧ newline ∉ text ∧
      lead.parser.stderr = emptyPendingLine ∧
      page.parser = { lead.parser with stderr := page.parser.stderr } ∧
      (text = [] → bytes = 0 ∧ page.parser = lead.parser))

variable {page lead : SegmentCursor}

lemma Skipped.step (h : Skipped text page lead) (event)
    (hstdout : channelText .stdout [event] = []) :
    Skipped (text ++ channelText .stderr [event])
      (feedOutput parsers page event (some (event.text.getD []))).1
      (feedOutput parsers lead event (some (event.text.getD []))).1 := by
  unfold channelText at hstdout ⊢
  rw [flatMap_singleton] at hstdout ⊢
  rcases hchan : outputChannel event with _ | _ | _
  · rw [if_neg (by rintro ⟨⟩), append_nil, feedOutput_of_none parsers hchan,
      feedOutput_of_none parsers hchan]
    exact h
  · rw [hchan, if_pos rfl] at hstdout
    rw [if_neg (by rintro ⟨⟩), append_nil, hstdout, feedOutput_nil, feedOutput_nil]
    exact h
  · rw [if_pos rfl, feedOutput_of_stderr parsers hchan, feedOutput_of_stderr parsers hchan]
    generalize event.text.getD [] = added
    rw [h.stderr, framedText_framed, feedAgentOutput_stderr, feedAgentOutput_stderr]
    rcases h.parser with ⟨hframed, hparser⟩ | ⟨bytes, hunknown, hline, hpend, hparser, hemp⟩
    · rw [hframed, framedText_framed, hparser]
      exact ⟨h.stdout, rfl, .inl ⟨rfl, rfl⟩⟩
    have hunframed : lead.stderr ≠ .framed := by
      rw [hunknown]
      rintro ⟨⟩
    cases hadded : added.findIdx? (· = newline) with
    | some index =>
      -- the first line ends
      rw [framedText_of_newline hunframed hadded]
      refine ⟨h.stdout, rfl, .inl ⟨rfl, ?_⟩⟩
      obtain ⟨hspl, hseg⟩ := split_at_newline hadded
      have hsame := splitLines_state_of_newline page.parser.stderr hseg (added.drop (index + 1))
      rw [← hspl] at hsame
      rw [hsame, hparser, hpend]
    | none =>
      rw [framedText_of_no_newline hunframed hadded]
      have hsilent : newline ∉ added := fun hmem =>
        absurd (findIdx?_eq_none_iff.1 hadded newline hmem) (by decide)
      refine ⟨h.stdout, rfl, .inr ⟨bytes + utf8ByteLength added, ?_, ?_, ?_, ?_, ?_⟩⟩
      · rw [hunknown]
        rfl
      · rw [mem_append]
        exact fun hmem => hmem.elim hline hsilent
      · exact hpend
      · rw [hparser]
      · intro hnone
        obtain ⟨htext, hnil⟩ := append_eq_nil_iff.1 hnone
        obtain ⟨hby, hsame⟩ := hemp htext
        subst hnil
        rw [hby, hsame]
        constructor <;> rfl

lemma Skipped.feedEvents (h : Skipped text page lead) (hstdout : channelText .stdout events = []) :
    Skipped (text ++ channelText .stderr events) (feedEvents parsers page events)
      (AgentOutput.feedEvents parsers lead events) := by
  induction events generalizing text page lead with
  | nil => exact (append_nil text).symm ▸ h
  | cons event events ih =>
    have hspl channel :
        channelText channel (event :: events) = channelText channel [event] ++ channelText channel events := by
      unfold channelText
      rw [flatMap_cons, flatMap_singleton]
    rw [hspl] at hstdout ⊢
    obtain ⟨hev, hrest⟩ := append_eq_nil_iff.1 hstdout
    rw [← append_assoc]
    exact ih (h.step parsers event hev) hrest

/-- No channel is in the middle of a line. -/
def AtLineBoundary (events : List RemoteRunnerEvent) : Prop :=
  ∀ channel, ∀ unit ∈ (channelText channel events).getLast?, unit = newline

lemma atLineBoundary_of_getLast?
    (h : ∀ channel, (channelText channel events).getLast? = some newline) : AtLineBoundary events :=
  fun channel _ hunit => (Option.some.inj ((h channel).symm.trans hunit)).symm

lemma AtLineBoundary.eq_nil (h : AtLineBoundary events) {channel}
    (hsilent : newline ∉ channelText channel events) :
    channelText channel events = [] := by
  by_contra hne
  have hlast := getLast?_eq_some_getLast hne
  exact hsilent (h channel _ hlast ▸ getLast_mem hne)

/-- The cursor a page starts with. -/
def settledCursor (input : RemoteAgentTranscriptSegmentInput) (cursor : SegmentCursor) : SegmentCursor :=
  { cursor with
    stdout := (settledFraming cursor.stdout (endsLine input .stdout) true).1
    stderr := (settledFraming cursor.stderr (endsLine input .stderr) false).1 }

variable {cursor : SegmentCursor}

lemma remoteAgentTranscriptSegment_events
    (hcur : feedLead parsers (initialCursor input.provider (boundedRemoteAgentTranscriptLead input.lead
      input.limits) input.outputStart) (boundedRemoteAgentTranscriptLead input.lead input.limits).events = cursor)
    (h : (remoteAgentTranscriptSegment parsers input).clipped = false) :
    (remoteAgentTranscriptSegment parsers input).events =
        (emitPage parsers (settledCursor input cursor) input.events).2 ++
          @finishEvents Observation input.finish (emitPage parsers (settledCursor input cursor) input.events).1 ∧
      (settledFraming cursor.stdout (endsLine input .stdout) true).2 = false := by
  unfold remoteAgentTranscriptSegment at h ⊢
  dsimp only at h ⊢
  rw [hcur] at h ⊢
  obtain ⟨hevs, hclip⟩ := parsedSegment_events parsers h
  rw [Bool.or_eq_false_iff] at hclip
  exact ⟨hevs, hclip.1⟩

/-- It is known where a line starts. -/
def ChannelFraming.Known (framing : ChannelFraming) : Prop :=
  framing = .framed ∨ framing = .midLine

lemma ChannelFraming.Known.settled (h : framing.Known) (ends : LineEnds)
    (silenceIsUncertain : Bool) :
    (settledFraming framing ends silenceIsUncertain).1 = framing := by
  rcases h with h | h <;> rw [h] <;> rfl

lemma ChannelFraming.Known.framedText (h : framing.Known) (text : JsString) : (framedText framing text).2.Known := by
  by_cases hframed : framing = .framed
  · rw [hframed, framedText_framed]
    exact .inl rfl
  have hmidLine := h.resolve_left hframed
  cases htext : text.findIdx? (· = newline) with
  | some index =>
    rw [framedText_of_newline hframed htext]
    exact .inl rfl
  | none =>
    rw [framedText_of_no_newline hframed htext, hmidLine]
    exact .inr rfl

lemma known_feedEvents (events) (hstdout : cursor.stdout.Known)
    (hstderr : cursor.stderr.Known) :
    (feedEvents parsers cursor events).stdout.Known ∧ (feedEvents parsers cursor events).stderr.Known := by
  induction events generalizing cursor with
  | nil => exact ⟨hstdout, hstderr⟩
  | cons event events ih =>
    rw [feedEvents, foldl_cons, ← feedEvents]
    rcases hchan : outputChannel event with _ | _ | _
    · rw [feedOutput_of_none parsers hchan]
      exact ih hstdout hstderr
    · rw [feedOutput_of_stdout parsers hchan]
      exact ih (hstdout.framedText _) hstderr
    · rw [feedOutput_of_stderr parsers hchan]
      exact ih hstdout (hstderr.framedText _)

/-- A cursor at the start of the output. -/
def startCursor (provider : RemoteRunnerProvider)
    (outputStart : Option RemoteAgentTranscriptOutputStart) : SegmentCursor :=
  initialCursor provider ⟨[], .whole, .whole⟩ outputStart

/-- **Behind the lead a page goes on as the page in front of it ended.** -/
theorem settledCursor_feedEvents (provider)
    (outputStart)
    {first} (hbd : AtLineBoundary first)
    (hsilent : outputStart = none → newline ∉ channelText .stdout first)
    (input input') :
    settledCursor input (feedEvents parsers (startCursor provider outputStart) first) =
      feedEvents parsers (settledCursor input' (startCursor provider outputStart)) first := by
  cases outputStart with
  | some start =>
    have hkn atLineBoundary : (initialFraming .whole (some atLineBoundary)).Known := by
      cases atLineBoundary
      · exact .inr rfl
      · exact .inl rfl
    have hstl {input} {cursor}
        (hstdout : cursor.stdout.Known) (hstderr : cursor.stderr.Known) :
        settledCursor input cursor = cursor := by
      rw [settledCursor, hstdout.settled, hstderr.settled]
    have hstartStdout : (startCursor provider (some start)).stdout.Known := hkn _
    have hstartStderr : (startCursor provider (some start)).stderr.Known := hkn _
    obtain ⟨hstdout, hstderr⟩ := known_feedEvents parsers first hstartStdout hstartStderr
    rw [hstl hstdout hstderr, hstl hstartStdout hstartStderr]
  | none =>
    have hst : Skipped [] (settledCursor input' (startCursor provider none)) (startCursor provider none) :=
      ⟨⟨rfl, rfl⟩, rfl, .inr ⟨0, rfl, not_mem_nil, rfl, rfl, fun _ => ⟨rfl, rfl⟩⟩⟩
    have hend := hst.feedEvents parsers (hbd.eq_nil (hsilent rfl))
    generalize feedEvents parsers (settledCursor input' (startCursor provider none)) first = page at hend ⊢
    obtain ⟨⟨hpage, hlead⟩, hstderr, hparser⟩ := hend
    obtain ⟨pageParser, pageStdout, pageStderr⟩ := page
    dsimp only at hpage hstderr hparser
    rw [hpage, hstderr, settledCursor, hlead]
    rcases hparser with ⟨hframed, hsame⟩ | ⟨bytes, hunknown, hline, -, -, hemp⟩
    · rw [hframed, hsame]
      rfl
    · obtain ⟨hby, hsame⟩ := hemp (hbd.eq_nil hline)
      rw [hunknown, hby, hsame]
      rfl

/-- **Two segments show what one segment shows**, where the first ends at the end of a line and
nothing is clipped. -/
theorem remoteAgentTranscriptSegment_seam (provider : RemoteRunnerProvider)
    (outputStart : Option RemoteAgentTranscriptOutputStart)
    (limits : RemoteAgentTranscriptSegmentLimits) (first second : List RemoteRunnerEvent)
    (finish : Bool) (hbound : AtLineBoundary first)
    (hstdout : (boundedRemoteAgentTranscriptLead first limits).stdout = .whole)
    (hstderr : (boundedRemoteAgentTranscriptLead first limits).stderr = .whole)
    (hwhole : (remoteAgentTranscriptSegment parsers
      ⟨provider, [], outputStart, first ++ second, finish, limits⟩).clipped = false)
    (hfirst : (remoteAgentTranscriptSegment parsers
      ⟨provider, [], outputStart, first, false, limits⟩).clipped = false)
    (hsnd : (remoteAgentTranscriptSegment parsers
      ⟨provider, first, outputStart, second, finish, limits⟩).clipped = false) :
    (remoteAgentTranscriptSegment parsers
        ⟨provider, [], outputStart, first ++ second, finish, limits⟩).events =
      (remoteAgentTranscriptSegment parsers
          ⟨provider, [], outputStart, first, false, limits⟩).events ++
        (remoteAgentTranscriptSegment parsers ⟨provider, first, outputStart, second, finish, limits⟩).events := by
  have hbare : feedLead parsers (initialCursor provider
        (boundedRemoteAgentTranscriptLead [] limits) outputStart)
      (boundedRemoteAgentTranscriptLead [] limits).events = startCursor provider outputStart := rfl
  have hlead : feedLead parsers (initialCursor provider
        (boundedRemoteAgentTranscriptLead first limits) outputStart)
      (boundedRemoteAgentTranscriptLead first limits).events =
        feedEvents parsers (startCursor provider outputStart) first := by
    rw [feedLead_whole parsers _ hstdout hstderr]
    unfold startCursor initialCursor
    rw [hstdout, hstderr]
  obtain ⟨hwholeEvents, hsilence⟩ := remoteAgentTranscriptSegment_events parsers hbare hwhole
  obtain ⟨hfirstEvents, -⟩ := remoteAgentTranscriptSegment_events parsers hbare hfirst
  obtain ⟨hsecondEvents, -⟩ := remoteAgentTranscriptSegment_events parsers hlead hsnd
  have hsilent : outputStart = none → newline ∉ channelText .stdout first := by
    rintro rfl hmem
    obtain ⟨event, hevent, hunit⟩ := mem_flatMap.1 hmem
    have hends : remoteRunnerEventsEndLine (first ++ second) .stdout := by
      by_cases hchan : outputChannel event = some .stdout
      · rw [if_pos hchan] at hunit
        refine any_eq_true.2 ⟨event, mem_append_left _ hevent, ?_⟩
        rw [Bool.and_eq_true]
        exact ⟨decide_eq_true hchan, decide_eq_true hunit⟩
      · rw [if_neg hchan] at hunit
        cases hunit
    have hquiet : (true && (remoteRunnerEventsEndLine (first ++ second) .stdout ||
        (finish && remoteRunnerEventsCarryOutput (first ++ second) .stdout))) = false := hsilence
    rw [hends] at hquiet
    cases hquiet
  have hstart input input' :
      settledCursor input (startCursor provider outputStart) =
        settledCursor input' (startCursor provider outputStart) := by
    rcases outputStart with _ | ⟨_ | _, _ | _⟩ <;> rfl
  have hgoesOn := settledCursor_feedEvents parsers provider outputStart hbound hsilent
    ⟨provider, first, outputStart, second, finish, limits⟩
    ⟨provider, [], outputStart, first, false, limits⟩
  rw [hwholeEvents, hfirstEvents, hsecondEvents, hgoesOn, ← emitPage_cursor,
    hstart _ ⟨provider, [], outputStart, first, false, limits⟩]
  have hunfinished cursor : @finishEvents Observation false cursor = [] := rfl
  rw [emitPage_append, hunfinished, append_nil, append_assoc]

/-- Two lines on stdout and a notice on stderr, and what came after them. -/
def twoLines : List RemoteRunnerEvent :=
  [{ type := .output, text := some (js "a\nb\n") },
    { type := .output, channel := some .stderr, text := some (js "c\n") }]

def laterLine : List RemoteRunnerEvent :=
  [{ type := .output, channel := some .stdout, text := some (js "d") },
    { type := .failed, error := some (js "e") }]

theorem remoteAgentTranscriptSegment_seam_of_two_lines :
    (remoteAgentTranscriptSegment unknownLines ⟨.claude, [], some ⟨true, false⟩,
        twoLines ++ laterLine, true, ⟨8, 512, 8, 64, 4, 32⟩⟩).events =
      (remoteAgentTranscriptSegment unknownLines ⟨.claude, [], some ⟨true, false⟩,
          twoLines, false, ⟨8, 512, 8, 64, 4, 32⟩⟩).events ++
        (remoteAgentTranscriptSegment unknownLines ⟨.claude, twoLines, some ⟨true, false⟩,
          laterLine, true, ⟨8, 512, 8, 64, 4, 32⟩⟩).events :=
  remoteAgentTranscriptSegment_seam unknownLines .claude (some ⟨true, false⟩)
    ⟨8, 512, 8, 64, 4, 32⟩ twoLines laterLine true
    (atLineBoundary_of_getLast? fun channel => by cases channel <;> decide +kernel) (by decide +kernel)
    (by decide +kernel)
    (by decide +kernel) (by decide +kernel) (by decide +kernel)

end CodevoEditor.AgentOutput
