/-
# The lines of a page are lines of the output

A page is parsed from the middle of an output. Where that could hide output, the segment is
clipped.
-/

import CodevoEditor.AgentOutput.BoundedLead
import CodevoEditor.AgentOutput.LineReference

namespace CodevoEditor.AgentOutput

open Js AgentEvents List

/-- Behind a text a line starts. -/
def EndsLine (text : JsString) : Prop := ∀ unit ∈ text.getLast?, unit = newline

/-- A line of a text as the parser is given it, without its carriage return. -/
def IsLine (text line : JsString) : Prop :=
  ∃ front segment rest, text = front ++ segment ++ newline :: rest ∧ EndsLine front ∧
    newline ∉ segment ∧ line = withoutCarriageReturn segment

lemma endsLine_nil : EndsLine [] := nofun

lemma endsLine_of_getLast? {text} (h : text.getLast? = some newline) : EndsLine text :=
  fun _ hunit => (Option.some.inj (h.symm.trans hunit)).symm

lemma endsLine_append_newline (text : JsString) : EndsLine (text ++ [newline]) := by
  intro unit hunit
  rw [getLast?_concat, Option.mem_some_iff] at hunit
  exact hunit.symm

lemma IsLine.append {text line} (h : IsLine text line) (more : JsString) : IsLine (text ++ more) line := by
  obtain ⟨front, segment, rest, htext, hfr, hseg, hline⟩ := h
  refine ⟨front, segment, rest ++ more, ?_, hfr, hseg, hline⟩
  rw [htext, append_assoc, cons_append]

/-- What is held back of a text that starts at a line: what is behind the last
newline, unless that is too long. -/
structure Holds (seen : JsString) (pending : AgentOutputPendingLine) : Prop where
  tail : ∃ front tail, seen = front ++ tail ∧ EndsLine front ∧ newline ∉ tail ∧
    (pending.pendingBytes ≤ maxAgentOutputLineBytes → pending.pending = tail)
  discarding : maxAgentOutputLineBytes < pending.pendingBytes → pending.pending = []

lemma holds_of_endsLine {seen} (h : EndsLine seen) : Holds seen emptyPendingLine where
  tail := ⟨seen, [], (append_nil seen).symm, h, not_mem_nil, fun _ => rfl⟩
  discarding _ := rfl

section Split

variable {seen text segment : JsString} {split : AgentOutputSplitResult}

lemma endLine_isLine (h : Holds seen split.state) (hseg : newline ∉ segment)
    (hlines : ∀ line ∈ split.lines, IsLine seen line) :
    (∀ line ∈ (endLine split segment).lines, IsLine (seen ++ (segment ++ [newline])) line) ∧
      (endLine split segment).state = emptyPendingLine := by
  unfold endLine
  split_ifs with hdisc hlong
  · exact ⟨fun line hline => (hlines line hline).append _, rfl⟩
  · exact ⟨fun line hline => (hlines line hline).append _, rfl⟩
  · refine ⟨fun line hline => ?_, rfl⟩
    rcases mem_append.1 hline with hline | hline
    · exact (hlines line hline).append _
    · obtain ⟨front, tail, hseen, hfr, htail, hpend⟩ := h.tail
      rw [mem_singleton] at hline
      refine ⟨front, tail ++ segment, [], ?_, hfr, ?_, ?_⟩
      · rw [hseen]
        simp only [append_assoc]
      · rw [mem_append]
        exact fun hc => hc.elim htail hseg
      · rw [hline, hpend (Nat.le_of_not_lt hdisc)]

lemma foldl_endLine_isLine {segments : List JsString} (h : Holds seen split.state)
    (hsegs : ∀ segment ∈ segments, newline ∉ segment)
    (hlines : ∀ line ∈ split.lines, IsLine seen line) :
    (∀ line ∈ (segments.foldl endLine split).lines,
        IsLine (seen ++ (segments.map fun segment => segment ++ [newline]).flatten) line) ∧
      Holds (seen ++ (segments.map fun segment => segment ++ [newline]).flatten)
        (segments.foldl endLine split).state := by
  induction segments generalizing seen split with
  | nil =>
    rw [map_nil, flatten_nil, append_nil]
    exact ⟨hlines, h⟩
  | cons segment segments ih =>
    obtain ⟨hseg, hrest⟩ := forall_mem_cons.1 hsegs
    obtain ⟨hend, hstate⟩ := endLine_isLine h hseg hlines
    have hholds : Holds (seen ++ (segment ++ [newline])) (endLine split segment).state := by
      rw [hstate, ← append_assoc]
      exact holds_of_endsLine (endsLine_append_newline _)
    rw [foldl_cons, map_cons, flatten_cons, ← append_assoc]
    exact ih hholds hrest hend

lemma holdTail_holds (h : Holds seen split.state) (htext : newline ∉ text) :
    (holdTail split text).lines = split.lines ∧ Holds (seen ++ text) (holdTail split text).state := by
  obtain ⟨front, tail, hseen, hfr, htail, hpend⟩ := h.tail
  have hboth : newline ∉ tail ++ text := by
    rw [mem_append]
    exact fun hc => hc.elim htail htext
  have hwh : seen ++ text = front ++ (tail ++ text) := by rw [hseen, append_assoc]
  have hdisc : Holds (seen ++ text) ⟨[], discardingBytes⟩ := by
    refine ⟨⟨front, tail ++ text, hwh, hfr, hboth, fun hle => ?_⟩, fun _ => rfl⟩
    exact absurd hle (Nat.not_le_of_lt (Nat.lt_succ_self _))
  unfold holdTail
  split_ifs with hlong htoo
  · exact ⟨rfl, hdisc⟩
  · exact ⟨rfl, hdisc⟩
  · refine ⟨rfl, ⟨front, tail ++ text, hwh, hfr, hboth, fun _ => ?_⟩, fun hc => absurd hc htoo⟩
    exact congrArg (· ++ text) (hpend (Nat.le_of_not_lt hlong))

/-- **A chunk is split into lines of the text**, whatever was held back of it. -/
theorem splitLines_isLine {pending : AgentOutputPendingLine} (h : Holds seen pending) (chunk : JsString) :
    (∀ line ∈ (splitLines pending chunk).lines, IsLine (seen ++ chunk) line) ∧
      Holds (seen ++ chunk) (splitLines pending chunk).state := by
  unfold splitLines
  split_ifs with hchunk
  · rw [hchunk, append_nil]
    exact ⟨nofun, h⟩
  · have hdivides := divides_splitNewlines chunk
    have hst : Holds seen (⟨pending, [], 0⟩ : AgentOutputSplitResult).state := h
    obtain ⟨hlines, hholds⟩ := foldl_endLine_isLine hst hdivides.segment nofun
    obtain ⟨hkept, htail⟩ := holdTail_holds hholds hdivides.rest
    rw [append_assoc, ← hdivides.whole] at htail
    refine ⟨fun line hline => ?_, htail⟩
    rw [hkept] at hline
    have hwh := (hlines line hline).append (splitNewlines chunk).2
    rw [append_assoc, ← hdivides.whole] at hwh
    exact hwh

end Split

section Cursor

variable {Observation : Type} (parsers : AgentLineParsers Observation)

/-- The lines of stdout that `feedOutput` hands to the line parsers. -/
def outputLines (cursor : SegmentCursor) (event : RemoteRunnerEvent) (text : JsString) : List JsString :=
  if outputChannel event = some .stdout then
    (splitLines cursor.parser.stdout (framedText cursor.stdout text).1).lines
  else []

/-- Those of the pieces of an event. -/
def pieceLines (event : RemoteRunnerEvent) : SegmentCursor → List JsString → List JsString
  | _, [] => []
  | cursor, piece :: pieces =>
      outputLines cursor event piece ++ pieceLines event (feedOutput parsers cursor event (some piece)).1 pieces

/-- Those of a page. -/
def pageLines : SegmentCursor → List RemoteRunnerEvent → List JsString
  | _, [] => []
  | cursor, event :: events =>
      pieceLines parsers event cursor (linePieces (outputText event)) ++
        pageLines (emitPieces parsers event cursor (linePieces (outputText event))).1 events

/-- The cursor behind the lead, from which the page is parsed. -/
def pageStart (input : RemoteAgentTranscriptSegmentInput) : SegmentCursor :=
  settledCursor input (feedLead parsers (initialCursor input.provider
    (boundedRemoteAgentTranscriptLead input.lead input.limits) input.outputStart)
      (boundedRemoteAgentTranscriptLead input.lead input.limits).events)

/-- The lines of stdout that the parser is given from the page of a segment. -/
def segmentLines (input : RemoteAgentTranscriptSegmentInput) : List JsString :=
  pageLines parsers (pageStart parsers input) input.events

/-- What is left on stdout at the end of the page, and shown as it is when the
task has ended. -/
def segmentTail (input : RemoteAgentTranscriptSegmentInput) : JsString :=
  (emitPage parsers (pageStart parsers input) input.events).1.parser.stdout.pending

/-- The cursor after some text of stdout: it holds back what is behind the last
newline, or nothing while it is skipped. -/
def Aligned (seen : JsString) (cursor : SegmentCursor) : Prop :=
  if cursor.stdout = .framed then Holds seen cursor.parser.stdout
  else cursor.parser.stdout = emptyPendingLine

variable {seen : JsString} {cursor : SegmentCursor}

lemma feedAgentOutput_stdout (state) (chunk : JsString) :
    (parsers.feedAgentOutput state .stdout chunk).1.stdout = (splitLines state.stdout chunk).state := by
  unfold AgentLineParsers.feedAgentOutput
  by_cases hchunk : chunk = []
  · rw [if_pos hchunk, splitLines, if_pos hchunk]
  · rw [if_neg hchunk]
    rfl

/-- The text of an event for stdout. -/
def stdoutOf (event : RemoteRunnerEvent) (text : JsString) : JsString :=
  if outputChannel event = some .stdout then text else []

/-- **A text leaves the cursor aligned**, and its lines are lines of the output. -/
theorem Aligned.feedOutput (h : Aligned seen cursor) (event) (text : JsString) :
    (∀ line ∈ outputLines cursor event text, IsLine (seen ++ stdoutOf event text) line) ∧
      Aligned (seen ++ stdoutOf event text) (feedOutput parsers cursor event (some text)).1 := by
  unfold outputLines stdoutOf
  rcases hchan : outputChannel event with _ | _ | _
  · rw [feedOutput_of_none parsers hchan, if_neg nofun, if_neg nofun, append_nil]
    exact ⟨nofun, h⟩
  · rw [feedOutput_of_stdout parsers hchan, if_pos rfl, if_pos rfl]
    unfold Aligned at h ⊢
    by_cases hfrm : cursor.stdout = .framed
    · rw [if_pos hfrm] at h
      rw [hfrm, framedText_framed, if_pos rfl, feedAgentOutput_stdout parsers]
      exact splitLines_isLine h text
    · rw [if_neg hfrm] at h
      cases hfind : text.findIdx? (· = newline) with
      | none =>
        have hcarry := ChannelFraming.carry_ne_framed hfrm (utf8ByteLength text)
        rw [framedText_of_no_newline hfrm hfind, if_neg hcarry, feedAgentOutput_stdout, h]
        exact ⟨nofun, rfl⟩
      | some index =>
        obtain ⟨hspl, -⟩ := split_at_newline hfind
        rw [framedText_of_newline hfrm hfind, if_pos rfl, feedAgentOutput_stdout, h]
        have hst : Holds (seen ++ text.take index ++ [newline]) emptyPendingLine :=
          holds_of_endsLine (endsLine_append_newline _)
        have hparts : seen ++ text = seen ++ text.take index ++ [newline] ++ text.drop (index + 1) := by
          rw [append_assoc, append_assoc, singleton_append, ← hspl]
        rw [hparts]
        exact splitLines_isLine hst _
  · rw [feedOutput_of_stderr parsers hchan, if_neg nofun, if_neg nofun, append_nil]
    refine ⟨nofun, ?_⟩
    rw [feedAgentOutput_stderr]
    exact h

variable (event : RemoteRunnerEvent)

lemma stdoutOf_append (front back : JsString) :
    stdoutOf event (front ++ back) = stdoutOf event front ++ stdoutOf event back := by
  unfold stdoutOf
  split_ifs <;> rfl

lemma Aligned.pieces (h : Aligned seen cursor) (event) (pieces) :
    (∀ line ∈ pieceLines parsers event cursor pieces,
        IsLine (seen ++ stdoutOf event pieces.flatten) line) ∧
      Aligned (seen ++ stdoutOf event pieces.flatten) (emitPieces parsers event cursor pieces).1 := by
  induction pieces generalizing seen cursor with
  | nil =>
    have hnil : stdoutOf event ([] : List JsString).flatten = [] := by
      unfold stdoutOf
      split_ifs <;> rfl
    rw [hnil, append_nil]
    exact ⟨nofun, h⟩
  | cons piece pieces ih =>
    obtain ⟨hlines, hnext⟩ := h.feedOutput parsers event piece
    obtain ⟨hrest, halign⟩ := ih hnext
    rw [flatten_cons, stdoutOf_append, ← append_assoc]
    refine ⟨fun line hline => ?_, halign⟩
    rcases mem_append.1 hline with hline | hline
    · exact (hlines line hline).append _
    · exact hrest line hline

lemma channelText_cons_stdout (events) :
    channelText .stdout (event :: events) = stdoutOf event (outputText event) ++ channelText .stdout events := by
  unfold stdoutOf
  by_cases hchan : outputChannel event = some .stdout
  · have htype : event.type = .output := by
      by_contra htype
      rw [outputChannel, if_neg htype] at hchan
      cases hchan
    rw [channelText_cons_of_eq hchan, if_pos hchan, outputText, if_pos htype]
  · rw [channelText_cons_of_ne hchan, if_neg hchan, nil_append]

/-- **A page leaves the cursor aligned**, and its lines are lines of the output. -/
theorem Aligned.page (h : Aligned seen cursor) (events) :
    (∀ line ∈ pageLines parsers cursor events, IsLine (seen ++ channelText .stdout events) line) ∧
      Aligned (seen ++ channelText .stdout events) (emitPage parsers cursor events).1 := by
  induction events generalizing seen cursor with
  | nil =>
    rw [channelText, flatMap_nil, append_nil]
    exact ⟨forall_mem_nil _, h⟩
  | cons event events ih =>
    obtain ⟨hlines, hnext⟩ := h.pieces parsers event (linePieces (outputText event))
    rw [flatten_linePieces] at hlines hnext
    obtain ⟨hrest, halign⟩ := ih hnext
    rw [channelText_cons_stdout, ← append_assoc]
    refine ⟨fun line hline => ?_, halign⟩
    rcases mem_append.1 hline with hline | hline
    · exact (hlines line hline).append _
    · exact hrest line hline

lemma Aligned.lead (h : Aligned seen cursor) (lead) :
    Aligned (seen ++ channelText .stdout lead) (feedLead parsers cursor lead) := by
  induction lead generalizing seen cursor with
  | nil =>
    rw [channelText, flatMap_nil, append_nil]
    exact h
  | cons event lead ih =>
    rw [feedLead, foldl_cons, channelText_cons_stdout, ← append_assoc]
    cases htext : event.text with
    | none =>
      have hnil : stdoutOf event (outputText event) = [] := by
        unfold stdoutOf outputText
        rw [htext, Option.getD_none, ite_self, ite_self]
      have hsame : (AgentOutput.feedOutput parsers cursor event none).1 = cursor := by
        unfold AgentOutput.feedOutput
        split
        · contradiction
        · contradiction
        · rfl
      rw [hnil, append_nil, hsame]
      exact ih h
    | some text =>
      have hown : stdoutOf event (outputText event) = stdoutOf event text := by
        unfold stdoutOf
        by_cases hchan : outputChannel event = some .stdout
        · have htype : event.type = .output := by
            by_contra htype
            rw [outputChannel, if_neg htype] at hchan
            cases hchan
          rw [if_pos hchan, if_pos hchan, outputText, if_pos htype, htext, Option.getD_some]
        · rw [if_neg hchan, if_neg hchan]
      rw [hown]
      exact ih (h.feedOutput parsers event text).2

lemma aligned_initialCursor {earlier : JsString} {input : RemoteAgentTranscriptSegmentInput}
    (htruthful : ∀ start ∈ input.outputStart, start.stdoutAtLineBoundary → EndsLine earlier) :
    ∃ seen, earlier ++ channelText .stdout input.lead =
        seen ++ channelText .stdout (boundedRemoteAgentTranscriptLead input.lead input.limits).events ∧
      Aligned seen (initialCursor input.provider
        (boundedRemoteAgentTranscriptLead input.lead input.limits) input.outputStart) := by
  obtain ⟨loop, hled, hkept, hst⟩ := boundedLead_led input.lead input.limits .stdout
  rw [← hkept]
  change (loop.budget .stdout).start = (boundedRemoteAgentTranscriptLead input.lead input.limits).stdout at hst
  unfold Aligned initialCursor initialFraming
  rw [← hst]
  cases hlead : (loop.budget .stdout).start with
  | resumed =>
    obtain ⟨front, hfr⟩ := hled.resumed hlead
    refine ⟨earlier ++ (front ++ [newline]), ?_, ?_⟩
    · rw [hfr, append_assoc, append_assoc, singleton_append]
    · rw [if_pos rfl, ← append_assoc]
      exact holds_of_endsLine (endsLine_append_newline _)
  | cut =>
    obtain ⟨front, hfr⟩ := hled.isSuffix
    refine ⟨earlier ++ front, ?_, ?_⟩
    · rw [append_assoc, hfr]
    · rw [if_neg nofun]
      rfl
  | whole =>
    have htext : channelText .stdout loop.kept = channelText .stdout input.lead := by
      rw [← channelText_channelEvents, (hled.whole hlead).2.2, channelText_channelEvents]
    refine ⟨earlier, by rw [htext], ?_⟩
    rcases hkn : input.outputStart with _ | ⟨_ | _, stderr⟩
    · exact rfl
    · exact rfl
    · exact holds_of_endsLine (htruthful _ hkn rfl)

/-- **The parser is given whole lines**: of a segment that is not clipped, each line is a line of
the output, and what is left starts at a line and ends with the page. -/
theorem segmentLines_isLine (earlier later : List RemoteRunnerEvent)
    (input : RemoteAgentTranscriptSegmentInput)
    (htruthful : ∀ start ∈ input.outputStart, start.stdoutAtLineBoundary → EndsLine (channelText .stdout earlier))
    (hclip : (remoteAgentTranscriptSegment parsers input).clipped = false) :
    (∀ line ∈ segmentLines parsers input,
        IsLine (channelText .stdout (earlier ++ input.lead ++ input.events ++ later)) line) ∧
      (input.finish → segmentTail parsers input ≠ [] →
        ∃ front, channelText .stdout (earlier ++ input.lead ++ input.events) =
            front ++ segmentTail parsers input ∧
          EndsLine front ∧ newline ∉ segmentTail parsers input) := by
  have happend (first second : List RemoteRunnerEvent) :
      channelText .stdout (first ++ second) = channelText .stdout first ++ channelText .stdout second :=
    flatMap_append
  obtain ⟨seen, hseen, hinitial⟩ := aligned_initialCursor htruthful
  have hlead := hinitial.lead parsers (boundedRemoteAgentTranscriptLead input.lead input.limits).events
  rw [← hseen] at hlead
  obtain ⟨-, hquiet⟩ := remoteAgentTranscriptSegment_events parsers rfl hclip
  unfold segmentLines segmentTail pageStart
  generalize feedLead parsers _ _ = cursor at hlead hquiet
  -- from an aligned start
  have hgood (start : SegmentCursor)
      (hstart : Aligned (channelText .stdout earlier ++ channelText .stdout input.lead) start) :
      (∀ line ∈ pageLines parsers start input.events,
          IsLine (channelText .stdout (earlier ++ input.lead ++ input.events ++ later)) line) ∧
        (input.finish → (emitPage parsers start input.events).1.parser.stdout.pending ≠ [] →
          ∃ front, channelText .stdout (earlier ++ input.lead ++ input.events) =
              front ++ (emitPage parsers start input.events).1.parser.stdout.pending ∧
            EndsLine front ∧ newline ∉ (emitPage parsers start input.events).1.parser.stdout.pending) := by
    obtain ⟨hlines, hend⟩ := hstart.page parsers input.events
    rw [happend, happend, happend]
    refine ⟨fun line hline => (hlines line hline).append _, fun _ htail => ?_⟩
    unfold Aligned at hend
    split_ifs at hend
    · obtain ⟨front, tail, htext, hfront, htailLine, hpend⟩ := hend.tail
      have hshort := Nat.le_of_not_lt fun hlong => htail (hend.discarding hlong)
      rw [hpend hshort]
      exact ⟨front, htext, hfront, htailLine⟩
    · rw [hend] at htail
      exact absurd rfl htail
  unfold Aligned at hlead
  unfold settledCursor
  cases hframe : cursor.stdout with
  | framed =>
    rw [if_pos hframe] at hlead
    exact hgood _ hlead
  | midLine =>
    rw [hframe, if_neg nofun] at hlead
    exact hgood _ hlead
  | unknown carriedBytes cut =>
    rw [hframe, if_neg nofun] at hlead
    rw [hframe, settledFraming] at hquiet
    rw [settledFraming]
    by_cases hlong : maxAgentOutputLineBytes < carriedBytes
    · rw [if_pos hlong]
      exact hgood _ hlead
    rw [if_neg hlong] at hquiet ⊢
    by_cases hcarried : 0 < carriedBytes ∨ cut
    · rw [if_pos hcarried]
      exact hgood _ hlead
    rw [if_neg hcarried] at hquiet ⊢
    obtain ⟨hends, hcarries⟩ := Bool.or_eq_false_iff.1 hquiet
    -- nothing ends in the page: whatever was in front of it, it is parsed as from the start
    have hstart (stderr : ChannelFraming) : Aligned [] { cursor with stdout := .framed, stderr := stderr } := by
      unfold Aligned
      exact hlead.symm ▸ holds_of_endsLine endsLine_nil
    obtain ⟨hlines, hend⟩ := (hstart (settledFraming cursor.stderr (endsLine input .stderr) false).1).page
      parsers input.events
    refine ⟨fun line hline => ?_, fun hfinish htail => ?_⟩
    · obtain ⟨front, segment, rest, htext, -⟩ := hlines line hline
      have hmem : newline ∈ channelText .stdout input.events := by
        rw [← nil_append (channelText .stdout input.events), htext]
        exact mem_append_right _ mem_cons_self
      obtain ⟨event, hevent, hunit⟩ := mem_flatMap.1 hmem
      have hsilent := any_eq_false.1 hends event hevent
      by_cases hchan : outputChannel event = some .stdout
      · rw [if_pos hchan] at hunit
        rw [decide_eq_true hchan, decide_eq_true hunit] at hsilent
        exact absurd rfl hsilent
      · rw [if_neg hchan] at hunit
        cases hunit
    · rw [hfinish, Bool.true_and] at hcarries
      have hempty : channelText .stdout input.events = [] := by
        refine flatMap_eq_nil_iff.2 fun event hevent => ?_
        have hsilent := any_eq_false.1 hcarries event hevent
        by_cases hchan : outputChannel event = some .stdout
        · rw [if_pos hchan]
          rw [decide_eq_true hchan, Bool.true_and, decide_eq_true_iff, not_not] at hsilent
          exact hsilent
        · rw [if_neg hchan]
      rw [hempty, append_nil] at hend
      refine absurd ?_ htail
      unfold Aligned at hend
      split_ifs at hend
      · obtain ⟨front, tail, htext, -, -, hpend⟩ := hend.tail
        obtain ⟨-, htailNil⟩ := append_eq_nil_iff.1 htext.symm
        by_cases hshort : (emitPage parsers { cursor with
            stdout := .framed
            stderr := (settledFraming cursor.stderr (endsLine input .stderr) false).1 }
          input.events).1.parser.stdout.pendingBytes ≤ maxAgentOutputLineBytes
        · rw [hpend hshort, htailNil]
        · exact hend.discarding (Nat.lt_of_not_le hshort)
      · rw [hend]
        rfl

end Cursor

/-- A page behind a lead of half a line. -/
def halfLineInput : RemoteAgentTranscriptSegmentInput where
  provider := .claude
  lead := [{ type := .output, text := some (js "a") }]
  outputStart := some ⟨true, true⟩
  events := [{ type := .output, text := some (js "b\nc\n") }]
  finish := true
  limits := ⟨8, 512, 8, 64, 4, 32⟩

def lineBefore : List RemoteRunnerEvent := [{ type := .output, text := some (js "z\n") }]

theorem segmentLines_isLine_sample :
    (∀ line ∈ segmentLines unknownLines halfLineInput,
        IsLine (channelText .stdout (lineBefore ++ halfLineInput.lead ++ halfLineInput.events ++ [])) line) ∧
      (halfLineInput.finish → segmentTail unknownLines halfLineInput ≠ [] →
        ∃ front, channelText .stdout (lineBefore ++ halfLineInput.lead ++ halfLineInput.events) =
            front ++ segmentTail unknownLines halfLineInput ∧
          EndsLine front ∧ newline ∉ segmentTail unknownLines halfLineInput) :=
  segmentLines_isLine unknownLines lineBefore [] halfLineInput
    (fun _ _ _ => endsLine_of_getLast? (by decide +kernel)) (by decide +kernel)

end CodevoEditor.AgentOutput
