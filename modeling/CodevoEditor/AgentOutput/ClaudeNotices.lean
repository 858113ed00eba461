/-
# Notices of the Claude stream

`packages/agent-events/src/agentOutput/claudeStreamNotices.ts` as far as the
classes of its notices go, and `claudeNoticeThrottle.ts`: a turn shows a few
kinds of unsupported frames, and a run of retries shows once, when another event
follows or the turn ends.
-/

import CodevoEditor.AgentEvents.Event
import CodevoEditor.Js.CodePoints
import CodevoEditor.Js.OrderedMap

namespace CodevoEditor.AgentOutput

open Js AgentEvents

/-- `boundUtf8Text`: NULs go, and what does not fit into `maxBytes` is clipped. -/
def boundUtf8Text (text : JsString) (maxBytes : ℕ) : JsString × Bool :=
  (clipUtf8 (text.filter (· ≠ 0)) maxBytes, maxBytes < utf8ByteLength (text.filter (· ≠ 0)))

def maxNoticeBytes : ℕ := 1024
def retryNoticePrefix : JsString := js "Claude API request failed; retry"
def unknownFrameNoticePrefix : JsString := js "Unsupported Claude stream frame: "
def malformedFrameNoticePrefix : JsString := js "Malformed Claude stream frame: "
def unknownFrameOverflowNotice : JsString :=
  js "Further unsupported Claude stream frame types omitted for this turn"
def malformedFrameOverflowNotice : JsString :=
  js "Further malformed Claude stream frame types omitted for this turn"

inductive ClaudeNoticeClass
  | apiRetry
  | unknownFrame (frameType : JsString)
  | malformedFrame (frameType : JsString)
  deriving DecidableEq

def claudeNoticeClass : AgentTurnEvent → Option ClaudeNoticeClass
  | .unknownLine event =>
      if event.stream ≠ .stdout then none
      else if retryNoticePrefix.isPrefixOf event.raw then some .apiRetry
      else if malformedFrameNoticePrefix.isPrefixOf event.raw then
        some (.malformedFrame (event.raw.drop malformedFrameNoticePrefix.length))
      else if unknownFrameNoticePrefix.isPrefixOf event.raw then
        some (.unknownFrame (event.raw.drop unknownFrameNoticePrefix.length))
      else none
  | _ => none

/-- `notice`; a notice is shorter than an event may be. -/
def claudeNoticeLine (text : JsString) : AgentTurnEvent :=
  .unknownLine { stream := .stdout
                 raw := (boundUtf8Text text maxNoticeBytes).1
                 clipped := (boundUtf8Text text maxNoticeBytes).2 }

def maxClaudeUnknownFrameTypes : ℕ := 16
def maxClaudeMalformedFrameTypes : ℕ := 8
def maxClaudeRetryNotices : ℕ := 8

structure ClaudeFrameNoticeBudget where
  types : OrderedMap JsString Unit := .empty
  overflowReported : Bool := false
  deriving DecidableEq

/-- The fields of `INITIAL_CLAUDE_NOTICE_THROTTLE` are the defaults. -/
structure ClaudeNoticeThrottle where
  unknownFrames : ClaudeFrameNoticeBudget := {}
  malformedFrames : ClaudeFrameNoticeBudget := {}
  retryNotices : ℕ := 0
  retryOverflowReported : Bool := false
  heldRetry : Option AgentTurnEvent := none
  heldRetryCount : ℕ := 0
  deriving DecidableEq

def heldRetryNotice (event : AgentTurnEvent) (count : ℕ) : AgentTurnEvent :=
  match event with
  | .unknownLine line =>
      if count ≤ 1 then event
      else
        claudeNoticeLine (line.raw ++ js " (" ++ js (toString (count - 1)) ++
          js " earlier retries coalesced)")
  | event => event

def flushClaudeNotices (previous : Option ClaudeNoticeThrottle) : ClaudeNoticeThrottle × List AgentTurnEvent :=
  let state := previous.getD {}
  match state.heldRetry with
  | none => (state, [])
  | some heldRetry =>
      ({ state with heldRetry := none, heldRetryCount := 0, retryNotices := state.retryNotices + 1 },
        [heldRetryNotice heldRetry state.heldRetryCount])

def retryOverflow (state : ClaudeNoticeThrottle) : ClaudeNoticeThrottle × List AgentTurnEvent :=
  if state.retryOverflowReported then (state, [])
  else
    ({ state with retryOverflowReported := true },
      [claudeNoticeLine (js "Further Claude API retry notices omitted for this turn")])

def throttleRetry (state : ClaudeNoticeThrottle) (event : AgentTurnEvent) :
    ClaudeNoticeThrottle × List AgentTurnEvent :=
  if state.retryNotices = 0 ∧ state.heldRetry = none then
    ({ state with retryNotices := 1 }, [event])
  else if state.heldRetry = none ∧ maxClaudeRetryNotices ≤ state.retryNotices then
    retryOverflow state
  else ({ state with heldRetry := some event, heldRetryCount := state.heldRetryCount + 1 }, [])

inductive FrameEmission
  | notice
  | overflow
  | none

def budgetFrame (budget : ClaudeFrameNoticeBudget) (frameType : JsString) (limit : ℕ) :
    ClaudeFrameNoticeBudget × FrameEmission :=
  if budget.types.has frameType then (budget, .none)
  else if budget.types.size < limit then
    ({ budget with types := budget.types.set frameType () }, .notice)
  else if budget.overflowReported then (budget, .none)
  else ({ budget with overflowReported := true }, .overflow)

def frameEvents (emit : FrameEmission) (event : AgentTurnEvent) (overflowNotice : JsString) : List AgentTurnEvent :=
  match emit with
  | .notice => [event]
  | .overflow => [claudeNoticeLine overflowNotice]
  | .none => []

def throttleEvent (state : ClaudeNoticeThrottle) (event : AgentTurnEvent) :
    ClaudeNoticeThrottle × List AgentTurnEvent :=
  match claudeNoticeClass event with
  | some .apiRetry => throttleRetry state event
  | none =>
      let flushed := flushClaudeNotices (some state)
      (flushed.1, flushed.2 ++ [event])
  | some (.unknownFrame frameType) =>
      let flushed := flushClaudeNotices (some state)
      let step := budgetFrame flushed.1.unknownFrames frameType maxClaudeUnknownFrameTypes
      ({ flushed.1 with unknownFrames := step.1 }, flushed.2 ++ frameEvents step.2 event unknownFrameOverflowNotice)
  | some (.malformedFrame frameType) =>
      let flushed := flushClaudeNotices (some state)
      let step := budgetFrame flushed.1.malformedFrames frameType maxClaudeMalformedFrameTypes
      ({ flushed.1 with malformedFrames := step.1 },
        flushed.2 ++ frameEvents step.2 event malformedFrameOverflowNotice)

def throttleClaudeNotices (previous : Option ClaudeNoticeThrottle) (events : List AgentTurnEvent) :
    ClaudeNoticeThrottle × List AgentTurnEvent :=
  events.foldl (fun throttled event =>
    let step := throttleEvent throttled.1 event
    (step.1, throttled.2 ++ step.2)) (previous.getD {}, [])

end CodevoEditor.AgentOutput
