/-
# The parser of an agent's output

`packages/agent-events/src/agentOutput/agentOutputParser.ts`: chunks of the two streams become
lines (`splitLines`), and lines become events.
-/

import CodevoEditor.AgentOutput.ClaudeNotices
import CodevoEditor.AgentOutput.ClaudeTasks
import CodevoEditor.AgentOutput.LineSplitter

namespace CodevoEditor.AgentOutput

open Js AgentEvents

/-- `MAX_AGENT_EVENT_TEXT_BYTES`. -/
def maxUnknownLineBytes : ℕ := 16 * 1024

def oversizeAgentOutputLineRaw : JsString := js "<line exceeded 256 KiB>"

structure AgentSessionFallback where
  previousThreadId : JsString
  threadId : JsString
  deriving DecidableEq

/-- What a line is; `Observation` is an account usage observation. -/
inductive ParsedAgentLine (Observation : Type)
  | events (events : List AgentTurnEvent) (sessionId : Option JsString)
      (sessionFallback : Option AgentSessionFallback)
  | accountUsage (observation : Observation)
  | ignored
  | unknown (raw : JsString)

inductive CodexTransport
  | exec
  | appServer
  deriving DecidableEq

/-- The parsers of a line, and `JSON.parse` where it does not throw. -/
structure AgentLineParsers (Observation : Type) where
  parseClaudeStreamJsonLine : JsString → ParsedAgentLine Observation
  parseCodexJsonlLine : JsString → OrderedMap JsString Unit → ParsedAgentLine Observation × OrderedMap JsString Unit
  parseCodexAppServerLine : JsString → ParsedAgentLine Observation
  jsonParse : JsString → Option JsValue

structure AgentOutputParserState where
  kind : AgentCliKind
  transport : CodexTransport
  stdout : AgentOutputPendingLine := emptyPendingLine
  stderr : AgentOutputPendingLine := emptyPendingLine
  emittedToolIds : OrderedMap JsString Unit := .empty
  claudeSubagentClassification : Option ClaudeSubagentClassification := none
  claudeMonitorTasks : Option ClaudeMonitorTasks := none
  claudeNoticeThrottle : Option ClaudeNoticeThrottle := none
  sessionId : Option JsString := none
  deriving DecidableEq

/-- What a call gives out, next to the state. -/
structure AgentFeedOutput (Observation : Type) where
  events : List AgentTurnEvent := []
  sessionId : Option JsString := none
  accountUsage : List Observation := []
  sessionFallback : Option AgentSessionFallback := none
  deriving DecidableEq

variable {Observation : Type}

def createAgentOutputParserState (kind : AgentCliKind) (transport : CodexTransport) :
    AgentOutputParserState := { kind, transport }

variable (state : AgentOutputParserState)

def AgentOutputParserState.pendingLine :
    AgentTaskOutputStream → AgentOutputPendingLine
  | .stderr => state.stderr
  | .stdout => state.stdout

def AgentOutputParserState.withPendingLine
    (stream : AgentTaskOutputStream) (pending : AgentOutputPendingLine) : AgentOutputParserState :=
  match stream with
  | .stderr => { state with stderr := pending }
  | .stdout => { state with stdout := pending }

variable (stream : AgentTaskOutputStream)

def unknownLineEvent (raw : JsString) : AgentTurnEvent :=
  .unknownLine { stream
                 raw := (boundUtf8Text raw maxUnknownLineBytes).1
                 clipped := (boundUtf8Text raw maxUnknownLineBytes).2 }

def oversizeLineEvents (overflow : ℕ) : List AgentTurnEvent :=
  List.replicate overflow (.unknownLine { stream, raw := oversizeAgentOutputLineRaw, clipped := true })

def trailingLineEvents (pending : AgentOutputPendingLine) : List AgentTurnEvent :=
  if trim pending.pending = [] then [] else [unknownLineEvent stream pending.pending]

variable (parsers : AgentLineParsers Observation)

/-- The strategy for a provider and its transport. -/
def AgentLineParsers.parse (kind : AgentCliKind)
    (transport : CodexTransport) (line : JsString) (emittedToolIds : OrderedMap JsString Unit) :
    ParsedAgentLine Observation × OrderedMap JsString Unit :=
  match kind, transport with
  | .codex, .appServer => (parsers.parseCodexAppServerLine line, emittedToolIds)
  | .codex, .exec => parsers.parseCodexJsonlLine line emittedToolIds
  | .claudeCode, _ => (parsers.parseClaudeStreamJsonLine line, emittedToolIds)

/-- The events of a line, as the state makes them. -/
def AgentLineParsers.interpret
    (state : AgentOutputParserState) (line : JsString) (events : List AgentTurnEvent) :
    AgentOutputParserState × List AgentTurnEvent :=
  match state.kind with
  | .claudeCode =>
      let monitored := classifyClaudeMonitorTasks state.claudeMonitorTasks (parsers.jsonParse line) events
      let classified := classifyClaudeSubagentTelemetry state.claudeSubagentClassification monitored.2
      let throttled := throttleClaudeNotices state.claudeNoticeThrottle classified.2
      ({ state with
          claudeMonitorTasks := monitored.1
          claudeSubagentClassification := some classified.1
          claudeNoticeThrottle := some throttled.1 }, throttled.2)
  | .codex => (state, events)

/-- What the parser makes of a line that has been read. -/
def AgentLineParsers.take (stream : AgentTaskOutputStream)
    (state : AgentOutputParserState) (line : JsString) :
    ParsedAgentLine Observation → AgentOutputParserState × AgentFeedOutput Observation
  | .unknown raw => (state, { events := [unknownLineEvent stream raw] })
  | .ignored => (state, {})
  | .accountUsage observation => (state, { accountUsage := [observation] })
  | .events events sessionId sessionFallback =>
      -- a later declaration must not replace an established session
      if sessionFallback ≠ none ∧ state.sessionId ≠ none then (state, {})
      else
        let interpreted := parsers.interpret state line events
        if sessionId = none ∨ sessionId = state.sessionId then
          (interpreted.1, { events := interpreted.2, sessionFallback })
        else
          ({ interpreted.1 with sessionId := state.sessionId.or sessionId },
            { events := interpreted.2, sessionId, sessionFallback })

/-- One line. -/
def AgentLineParsers.parseLine
    (stream : AgentTaskOutputStream) (state : AgentOutputParserState) (line : JsString) :
    AgentOutputParserState × AgentFeedOutput Observation :=
  if trim line = [] then (state, {})
  else if stream = .stderr then (state, { events := [unknownLineEvent stream line] })
  else
    let parsed := parsers.parse state.kind state.transport line state.emittedToolIds
    parsers.take stream { state with emittedToolIds := parsed.2 } line parsed.1

/-- One output after another: the events and observations of both, and the later
session id and fallback where there is one. -/
def AgentFeedOutput.append (first second : AgentFeedOutput Observation) :
    AgentFeedOutput Observation where
  events := first.events ++ second.events
  sessionId := second.sessionId.or first.sessionId
  accountUsage := first.accountUsage ++ second.accountUsage
  sessionFallback := second.sessionFallback.or first.sessionFallback

def AgentLineParsers.parseLines
    (stream : AgentTaskOutputStream) (state : AgentOutputParserState) (lines : List JsString) :
    AgentOutputParserState × AgentFeedOutput Observation :=
  lines.foldl (fun parsed line =>
    let step := parsers.parseLine stream parsed.1 line
    (step.1, parsed.2.append step.2)) (state, {})

def AgentLineParsers.feedAgentOutput
    (state : AgentOutputParserState) (stream : AgentTaskOutputStream) (chunk : JsString) :
    AgentOutputParserState × AgentFeedOutput Observation :=
  if chunk = [] then (state, {})
  else
    let split := splitLines (state.pendingLine stream) chunk
    let parsed := parsers.parseLines stream state split.lines
    (parsed.1.withPendingLine stream split.state,
      { parsed.2 with events := oversizeLineEvents stream split.overflow ++ parsed.2.events })

def finishAgentOutput : AgentOutputParserState × AgentFeedOutput Observation :=
  let notices := flushClaudeNotices state.claudeNoticeThrottle
  ({ state with
      stdout := emptyPendingLine
      stderr := emptyPendingLine
      claudeNoticeThrottle := state.claudeNoticeThrottle.map fun _ => notices.1 },
    { events := notices.2 ++ trailingLineEvents .stdout state.stdout ++ trailingLineEvents .stderr state.stderr })

end CodevoEditor.AgentOutput
