/-
# A segment of a remote transcript

`packages/agent-events/src/remoteAgentTranscriptSegment.ts`: a page of a task's events is parsed
with a lead in front of it, older output that is fed to the parser and shows nothing.
-/

import CodevoEditor.AgentEvents.Merge
import CodevoEditor.AgentOutput.Parser

namespace CodevoEditor.AgentOutput

open Js AgentEvents

inductive RemoteRunnerProvider
  | claude
  | codex

inductive RemoteRunnerPart
  | text (text : JsString)
  | attachment (attachmentId : JsString)

inductive RemoteRunnerEventType
  | created
  | queued
  | running
  | succeeded
  | failed
  | interrupted
  | cancelled
  | output
  | input
  deriving DecidableEq

structure RemoteRunnerEvent where
  type : RemoteRunnerEventType
  channel : Option AgentTaskOutputStream := none
  text : Option JsString := none
  messageId : Option JsString := none
  parts : Option (List RemoteRunnerPart) := none
  error : Option JsString := none

structure RemoteAgentTranscriptOutputStart where
  stdoutAtLineBoundary : Bool
  stderrAtLineBoundary : Bool

structure RemoteAgentTranscriptSegmentLimits where
  maxEvents : ℕ
  maxBytes : ℕ
  maxLines : ℕ
  maxPageBytes : ℕ
  maxLeadLines : ℕ
  maxLeadBytes : ℕ

structure RemoteAgentTranscriptSegmentInput where
  provider : RemoteRunnerProvider
  lead : List RemoteRunnerEvent
  outputStart : Option RemoteAgentTranscriptOutputStart
  events : List RemoteRunnerEvent
  finish : Bool
  limits : RemoteAgentTranscriptSegmentLimits

structure RemoteAgentTranscriptSegment where
  events : List AgentTurnEvent
  clipped : Bool

inductive ChannelFraming
  | framed
  | midLine
  | unknown (carriedBytes : ℕ) (cut : Bool)
  deriving DecidableEq

structure SegmentCursor where
  parser : AgentOutputParserState
  stdout : ChannelFraming
  stderr : ChannelFraming

inductive RemoteAgentTranscriptLeadStart
  | whole
  | resumed
  | cut
  deriving DecidableEq

structure RemoteAgentTranscriptBoundedLead where
  events : List RemoteRunnerEvent
  stdout : RemoteAgentTranscriptLeadStart
  stderr : RemoteAgentTranscriptLeadStart

variable (event : RemoteRunnerEvent)

/-- Where output goes; other events have no channel. -/
def outputChannel : Option AgentTaskOutputStream :=
  if event.type = .output then some (event.channel.getD .stdout) else none

def outputText : JsString :=
  if event.type = .output then event.text.getD [] else []

def inputEvents : List AgentTurnEvent :=
  if event.type ≠ .input then []
  else
    match event.messageId, event.parts with
    | some messageId, some parts =>
        let texts := parts.filterMap fun part =>
          match part with
          | .text text => some text
          | .attachment _ => none
        [.userMessage { remoteMessageId := some messageId, text := (js "\n\n").intercalate texts }]
    | _, _ => []

def errorEvents : List AgentTurnEvent :=
  match event.error with
  | none => []
  | some message => if message = [] then [] else [.error message]

def remoteRunnerEventsEndLine (events : List RemoteRunnerEvent) (channel : AgentTaskOutputStream) : Bool :=
  events.any fun event => outputChannel event = some channel && newline ∈ event.text.getD []

def remoteRunnerEventsCarryOutput (events : List RemoteRunnerEvent) (channel : AgentTaskOutputStream) : Bool :=
  events.any fun event => outputChannel event = some channel && event.text.getD [] ≠ []

structure LeadBudget where
  lines : ℕ
  bytes : ℕ
  start : RemoteAgentTranscriptLeadStart

variable (text : JsString)

def newlineCount (limit : ℕ) : ℕ := min (text.count newline) limit

/-- `text.indexOf("\n", start)`. -/
def indexOfNewline (start : ℕ) : Option ℕ :=
  ((text.drop start).findIdx? (· = newline)).map (· + start)

/-- How many units in front fit into `bytes`, surrogates with three bytes each. -/
def unitsWithin : ℕ → JsString → ℕ
  | _, [] => 0
  | bytes, unit :: rest =>
      if unitBytes unit ≤ bytes then unitsWithin (bytes - unitBytes unit) rest + 1 else 0

def suffixStartWithin (maxBytes : ℕ) : ℕ :=
  text.length - unitsWithin maxBytes text.reverse

/-- How far the first `lines` lines go. -/
def throughNewline (text : JsString) : ℕ → ℕ
  | 0 => 0
  | lines + 1 => ((indexOfNewline text (throughNewline text lines)).map (· + 1)).getD 0

def resumeOffset (budget : LeadBudget) : Option ℕ :=
  (indexOfNewline text (suffixStartWithin text budget.bytes - 1)).map fun newlineAt =>
    let suffix := text.drop (newlineAt + 1)
    newlineAt + 1 + throughNewline suffix (suffix.count newline - budget.lines)

def boundedLeadText (budget : LeadBudget) (text : JsString) : LeadBudget × Option JsString :=
  if budget.start ≠ .whole then (budget, none)
  else
    let lines := newlineCount text (budget.lines + 1)
    let bytes := utf8ByteLength text
    if lines ≤ budget.lines ∧ bytes ≤ budget.bytes then
      ({ budget with lines := budget.lines - lines, bytes := budget.bytes - bytes }, some text)
    else
      match resumeOffset text budget with
      | none => ({ budget with start := .cut }, none)
      | some resume => ({ budget with start := .resumed }, some (text.drop resume))

/-- The budgets of the two channels, and what is kept. -/
structure LeadLoop where
  stdout : LeadBudget
  stderr : LeadBudget
  kept : List RemoteRunnerEvent

/-- One event of the lead, from its end. -/
def LeadLoop.step (loop : LeadLoop) : LeadLoop :=
  match outputChannel event with
  | none => loop
  | some .stdout =>
      let bounded := boundedLeadText loop.stdout (event.text.getD [])
      { loop with
        stdout := bounded.1
        kept := (bounded.2.map fun text => { event with text := some text }).toList ++ loop.kept }
  | some .stderr =>
      let bounded := boundedLeadText loop.stderr (event.text.getD [])
      { loop with
        stderr := bounded.1
        kept := (bounded.2.map fun text => { event with text := some text }).toList ++ loop.kept }

def boundedRemoteAgentTranscriptLead (lead : List RemoteRunnerEvent)
    (limits : RemoteAgentTranscriptSegmentLimits) : RemoteAgentTranscriptBoundedLead :=
  let budget : LeadBudget := ⟨limits.maxLeadLines, limits.maxLeadBytes, .whole⟩
  let loop := lead.foldr LeadLoop.step ⟨budget, budget, []⟩
  ⟨loop.kept, loop.stdout.start, loop.stderr.start⟩

def initialFraming (lead : RemoteAgentTranscriptLeadStart) (atLineBoundary : Option Bool) : ChannelFraming :=
  match lead, atLineBoundary with
  | .resumed, _ => .framed
  | .cut, _ => .unknown 0 true
  | .whole, none => .unknown 0 false
  | .whole, some true => .framed
  | .whole, some false => .midLine

def initialCursor (provider : RemoteRunnerProvider) (lead : RemoteAgentTranscriptBoundedLead)
    (start : Option RemoteAgentTranscriptOutputStart) : SegmentCursor where
  parser := createAgentOutputParserState
    (match provider with
      | .claude => .claudeCode
      | .codex => .codex) .exec
  stdout := initialFraming lead.stdout (start.map (·.stdoutAtLineBoundary))
  stderr := initialFraming lead.stderr (start.map (·.stderrAtLineBoundary))

structure LineEnds where
  inPage : Bool
  atFinish : Bool

def endsLine (input : RemoteAgentTranscriptSegmentInput) (channel : AgentTaskOutputStream) :
    LineEnds where
  inPage := remoteRunnerEventsEndLine input.events channel ||
    (input.finish && remoteRunnerEventsCarryOutput input.events channel)
  atFinish := input.finish

/-- The framing a page starts with, and whether a line may be lost. -/
def settledFraming (framing : ChannelFraming) (ends : LineEnds) (silenceIsUncertain : Bool) : ChannelFraming × Bool :=
  match framing with
  | .unknown carriedBytes cut =>
      if maxAgentOutputLineBytes < carriedBytes then (framing, false)
      else if 0 < carriedBytes ∨ cut then (framing, ends.inPage || ends.atFinish)
      else (.framed, silenceIsUncertain && ends.inPage)
  | framing => (framing, false)

/-- The text that goes to the parser: nothing up to the end of a line that did
not start here. -/
def framedText (framing : ChannelFraming) (text : JsString) : JsString × ChannelFraming :=
  if framing = .framed then (text, framing)
  else
    match indexOfNewline text 0 with
    | some newlineAt => (text.drop (newlineAt + 1), .framed)
    | none =>
        match framing with
        | .unknown carriedBytes cut => ([], .unknown (carriedBytes + utf8ByteLength text) cut)
        | framing => ([], framing)

variable {Observation : Type} (parsers : AgentLineParsers Observation)

/-- Text of an event, fed to the parser. -/
def feedOutput (cursor : SegmentCursor) (event : RemoteRunnerEvent) (text : Option JsString) :
    SegmentCursor × List AgentTurnEvent :=
  match outputChannel event, text with
  | some .stdout, some text =>
      let framed := framedText cursor.stdout text
      let fed := parsers.feedAgentOutput cursor.parser .stdout framed.1
      ({ cursor with parser := fed.1, stdout := framed.2 }, fed.2.events)
  | some .stderr, some text =>
      let framed := framedText cursor.stderr text
      let fed := parsers.feedAgentOutput cursor.parser .stderr framed.1
      ({ cursor with parser := fed.1, stderr := framed.2 }, fed.2.events)
  | _, _ => (cursor, [])

structure RetainedEvents where
  events : List AgentTurnEvent
  bytes : ℕ
  full : Bool

def retain (limits : RemoteAgentTranscriptSegmentLimits) :
    RetainedEvents → List AgentTurnEvent → RetainedEvents
  | retained, [] => retained
  | retained, event :: events =>
      let bytes := agentTurnEventUtf8Bytes event
      if limits.maxEvents ≤ retained.events.length ∨ limits.maxBytes < retained.bytes + bytes then
        { retained with full := true }
      else
        retain limits { retained with events := retained.events ++ [event], bytes := retained.bytes + bytes } events

/-- The loop over a page: the cursor, what is left of the limits, and the events. -/
structure PageLoop where
  cursor : SegmentCursor
  lines : ℕ
  bytes : ℕ
  retained : RetainedEvents

/-- The lines of a text with their newlines, and what is behind the last one. -/
def linePieces : List JsString :=
  (splitNewlines text).1.map (· ++ [newline]) ++
    if (splitNewlines text).2 = [] then [] else [(splitNewlines text).2]

/-- `feedBounded`, piece by piece; the flag says that the page was cut. -/
def feedPieces (limits : RemoteAgentTranscriptSegmentLimits) (event : RemoteRunnerEvent) :
    PageLoop → List JsString → PageLoop × Bool
  | loop, [] => (loop, false)
  | loop, piece :: pieces =>
      let terminated := piece.getLast? = some newline
      if loop.bytes < utf8ByteLength piece ∨ (terminated ∧ loop.lines = 0) then (loop, true)
      else
        let step := feedOutput parsers loop.cursor event (some piece)
        let loop : PageLoop :=
          { cursor := step.1
            lines := if terminated then loop.lines - 1 else loop.lines
            bytes := loop.bytes - utf8ByteLength piece
            retained := retain limits loop.retained step.2 }
        if loop.retained.full then (loop, true) else feedPieces limits event loop pieces

def feedPage (limits : RemoteAgentTranscriptSegmentLimits) :
    PageLoop → List RemoteRunnerEvent → PageLoop × Bool
  | loop, [] => (loop, false)
  | loop, event :: events =>
      let fed := feedPieces parsers limits event loop (linePieces (outputText event))
      if fed.2 then fed
      else
        let loop : PageLoop :=
          { fed.1 with
            retained := retain limits fed.1.retained (inputEvents event ++ errorEvents event) }
        if loop.retained.full then (loop, true) else feedPage limits loop events

def parsedSegment (start : SegmentCursor) (input : RemoteAgentTranscriptSegmentInput)
    (clipped : Bool) : RemoteAgentTranscriptSegment :=
  let page := feedPage parsers input.limits
    ⟨start, input.limits.maxLines, input.limits.maxPageBytes, ⟨[], 0, false⟩⟩ input.events
  if page.2 then ⟨page.1.retained.events, true⟩
  else if !input.finish then ⟨page.1.retained.events, clipped⟩
  else
    let retained := retain input.limits page.1.retained (@finishAgentOutput Observation page.1.cursor.parser).2.events
    ⟨retained.events, clipped || retained.full⟩

/-- The lead, fed to the parser. -/
def feedLead (cursor : SegmentCursor) (lead : List RemoteRunnerEvent) : SegmentCursor :=
  lead.foldl (fun cursor event => (feedOutput parsers cursor event event.text).1) cursor

def remoteAgentTranscriptSegment (input : RemoteAgentTranscriptSegmentInput) : RemoteAgentTranscriptSegment :=
  let lead := boundedRemoteAgentTranscriptLead input.lead input.limits
  let cursor := feedLead parsers (initialCursor input.provider lead input.outputStart) lead.events
  let stdout := settledFraming cursor.stdout (endsLine input .stdout) true
  let stderr := settledFraming cursor.stderr (endsLine input .stderr) false
  parsedSegment parsers { cursor with stdout := stdout.1, stderr := stderr.1 } input (stdout.2 || stderr.2)

end CodevoEditor.AgentOutput
