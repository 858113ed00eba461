/-
# The persistence cap of a thread

`src/domain/agentThreadTailCap.ts` and `agentPromptClipping.ts`: the turns of a thread are cut
down to a budget, each of them by `capTurnTail` first.

What `JSON.stringify` writes is a parameter (`Json`), on which nothing here depends. Budgets are
integers. A slot is changed in place; the copy that is made before a text in it is changed
(`draft`) is left out.
-/

import CodevoEditor.Persistence.TailSelection
import CodevoEditor.Threads.StoredLifecycle
import CodevoEditor.Threads.Thread

namespace CodevoEditor.Persistence

open Js AgentEvents Threads

def maxPersistedAgentEventsPerTurn : ℕ := 512
def maxPersistedAgentThreadFileBytes : ℤ := 1024 * 1024
def persistedAgentThreadFileMarginBytes : ℤ := 64 * 1024
def persistedAgentThreadFitSlackBytes : ℤ := 32 * 1024

/-- The default of `eventBudgetBytes`. -/
def maxPersistedThreadEventBytes : ℤ :=
  maxPersistedAgentThreadFileBytes - persistedAgentThreadFileMarginBytes - persistedAgentThreadFitSlackBytes

def persistedEventSeparatorBytes : ℕ := 1

def clippedEventTextSteps : List ℕ := [4096, 1024, 256, 0]

def clipUtf8Text (text : JsString) (limitBytes : ℕ) : JsString :=
  (takeFitting limitBytes (codePoints text)).flatten

def clippedAgentPromptPrefixBytes : ℕ := 512

def clippedAgentPromptMarker : JsString :=
  js "…[prompt clipped; the full prompt is in this turn's log]"

def clipAgentPromptForPersistence (prompt : JsString) : Option JsString :=
  if utf8ByteLength prompt ≤ clippedAgentPromptPrefixBytes + utf8ByteLength clippedAgentPromptMarker then none
  else some (clipUtf8Text prompt clippedAgentPromptPrefixBytes ++ clippedAgentPromptMarker)

def agentPromptLooksClipped (prompt : JsString) : Bool := clippedAgentPromptMarker.isSuffixOf prompt

/-- A text that gets shorter. -/
def clipText (text : JsString) (limitBytes : ℕ) : Option JsString :=
  let clipped := clipUtf8Text text limitBytes
  if clipped = text then none else some clipped

/-- `clipEventText` of what a child agent's event holds. -/
def clipContentText (limitBytes : ℕ) : AgentSubagentContentEvent → Option AgentSubagentContentEvent
  | .assistantText event =>
      (clipText event.text limitBytes).map fun text => .assistantText { event with text := text }
  | .reasoning event =>
      (clipText event.text limitBytes).map fun text => .reasoning { event with text := text }
  | .toolCall event =>
      (clipText event.inputSummary limitBytes).map fun text =>
        .toolCall { event with inputSummary := text }
  | .toolResult event =>
      (clipText event.outputSummary limitBytes).map fun text =>
        .toolResult { event with outputSummary := text }

def clipEventText (limitBytes : ℕ) : AgentTurnEvent → Option AgentTurnEvent
  | .assistantText event =>
      (clipText event.text limitBytes).map fun text => .assistantText { event with text := text }
  | .reasoning event =>
      (clipText event.text limitBytes).map fun text => .reasoning { event with text := text }
  | .userMessage event =>
      (clipText event.text limitBytes).map fun text => .userMessage { event with text := text }
  | .result event =>
      (clipText event.text limitBytes).map fun text => .result { event with text := text }
  | .error message => (clipText message limitBytes).map .error
  | .contextCompactionStatus event =>
      event.message.bind fun message =>
        (clipText message limitBytes).map fun text =>
          .contextCompactionStatus { event with message := some text }
  | .unknownLine event =>
      (clipText event.raw limitBytes).map fun text =>
        .unknownLine { event with raw := text, clipped := true }
  | .toolCall event =>
      (clipText event.inputSummary limitBytes).map fun text =>
        .toolCall { event with inputSummary := text }
  | .toolResult event =>
      (clipText event.outputSummary limitBytes).map fun text =>
        .toolResult { event with outputSummary := text }
  | .subagentEvent agentThreadId event =>
      (clipContentText limitBytes event).map (.subagentEvent agentThreadId)
  | .backgroundTask _ | .subagent _ | .subagentActivity _ | .subagentSpawn _ | .subagentUsage _
  | .subagentTurnDone _ | .queued _ | .contextUsage _ | .contextCompaction _ => none

/-- What `JSON.stringify` writes. -/
structure Json where
  event : AgentTurnEvent → JsString
  thread : AgentThread → JsString
  lifecycle : AgentSubagentLifecycle → JsString
  text : JsString → JsString

section

variable (json : Json)

def persistedAgentEventBytes (event : AgentTurnEvent) : ℕ :=
  utf8ByteLength (json.event event) + persistedEventSeparatorBytes

def persistedAgentEventsBytes (events : List AgentTurnEvent) : ℕ :=
  (events.map (persistedAgentEventBytes json)).sum

variable (thread : AgentThread)

def persistedAgentThreadScaffoldBytes : ℕ :=
  utf8ByteLength (json.thread { thread with turns := thread.turns.map fun turn => { turn with events := [] } })

def jsonTextBytes (text : JsString) : ℕ := utf8ByteLength (json.text text)

/-- The body of the loop of `compactLoggedLifecycles`: the turn, and what it gets rid of. -/
def compactLoggedLifecycle (loggedLifecycles : OrderedMap JsString AgentSubagentLifecycle)
    (turn : AgentTurn) : Option (AgentTurn × ℤ) :=
  if !isTerminalAgentTurnStatus turn.status then none
  else
    match turn.subagentLifecycle, loggedLifecycles.get? turn.turnId with
    | some lifecycle, some logged =>
        if json.lifecycle lifecycle ≠ json.lifecycle logged then none
        else
          match compactPersistedAgentSubagentLifecycle lifecycle with
          | none => none
          | some compact =>
              let released : ℤ := utf8ByteLength (json.lifecycle lifecycle) - utf8ByteLength (json.lifecycle compact)
              if released ≤ 0 then none
              else some ({ turn with subagentLifecycle := some compact }, released)
    | _, _ => none

/-- A loop over turns that stops when the scaffold fits, with the scaffold in the end. -/
def releaseTurns (budgetBytes : ℤ) (release : AgentTurn → Option (AgentTurn × ℤ)) :
    ℤ → List AgentTurn → List AgentTurn × ℤ
  | scaffold, [] => ([], scaffold)
  | scaffold, turn :: turns =>
      if scaffold ≤ budgetBytes then (turn :: turns, scaffold)
      else
        match release turn with
        | none =>
            let (rest, left) := releaseTurns budgetBytes release scaffold turns
            (turn :: rest, left)
        | some (smaller, released) =>
            let (rest, left) := releaseTurns budgetBytes release (scaffold - released) turns
            (smaller :: rest, left)

def compactLoggedLifecycles (budgetBytes : ℤ)
    (loggedLifecycles : OrderedMap JsString AgentSubagentLifecycle) : AgentThread :=
  if loggedLifecycles.entries.isEmpty then thread
  else
    { thread with
      turns := (releaseTurns budgetBytes (compactLoggedLifecycle json loggedLifecycles)
        (persistedAgentThreadScaffoldBytes json thread) thread.turns).1 }

def isClippablePromptTurn (turn : AgentTurn) (loggedPromptTurnIds : List JsString) : Bool :=
  isTerminalAgentTurnStatus turn.status && turn.turnId ∈ loggedPromptTurnIds && !agentPromptLooksClipped turn.prompt

/-- The body of the loop of `clipLoggedPrompts`. -/
def clipLoggedPrompt (loggedPromptTurnIds : List JsString) (turn : AgentTurn) : Option (AgentTurn × ℤ) :=
  if !isClippablePromptTurn turn loggedPromptTurnIds then none
  else
    (clipAgentPromptForPersistence turn.prompt).map fun prompt =>
      ({ turn with prompt := prompt }, (jsonTextBytes json turn.prompt : ℤ) - jsonTextBytes json prompt)

structure PromptProjection where
  thread : AgentThread
  scaffoldBytes : ℤ

/-- All turns but the newest. -/
def clipLoggedPrompts (budgetBytes : ℤ) (loggedPromptTurnIds : List JsString) : PromptProjection :=
  let scaffold : ℤ := persistedAgentThreadScaffoldBytes json thread
  if loggedPromptTurnIds.isEmpty then ⟨thread, scaffold⟩
  else
    let (turns, left) := releaseTurns budgetBytes (clipLoggedPrompt json loggedPromptTurnIds) scaffold
      thread.turns.dropLast
    ⟨{ thread with turns := turns ++ thread.turns.getLast?.toList }, left⟩

structure TailSlot where
  source : AgentTurn
  settled : Bool
  events : List AgentTurnEvent
  bytes : ℤ
  clipped : Bool

def turnTailBudget : AgentTurnTailBudget :=
  ⟨maxPersistedAgentEventsPerTurn, none, persistedAgentEventBytes json⟩

def openSlot (turn : AgentTurn) : TailSlot :=
  let events := capTurnTail turn.events (turnTailBudget json)
  { source := turn
    settled := isTerminalAgentTurnStatus turn.status
    events := events
    bytes := persistedAgentEventsBytes json events
    clipped := false }

def closeSlot (slot : TailSlot) : AgentTurn :=
  let truncated := slot.source.eventsTruncated || slot.clipped || slot.events.length < slot.source.events.length
  let intact := !slot.clipped && slot.events.length = slot.source.events.length &&
    truncated = slot.source.eventsTruncated
  if intact then slot.source
  else { slot.source with events := slot.events, eventsTruncated := truncated }

def replaceEvents (slot : TailSlot) (events : List AgentTurnEvent) : TailSlot :=
  { slot with events := events, bytes := persistedAgentEventsBytes json events }

def isResult : AgentTurnEvent → Bool
  | .result _ => true
  | _ => false

def isAssistantText : AgentTurnEvent → Bool
  | .assistantText _ => true
  | _ => false

def agentTurnSkeletonEvents (events : List AgentTurnEvent) : List AgentTurnEvent :=
  let closing := lastIndexWhere events isResult
  let answer := lastIndexWhere events isAssistantText
  filterIndex (fun index => events[index]?.any (·.isUserMessage) || closing = some index ||
    answer = some index) events

def finalAnswerIndices (events : List AgentTurnEvent) (index : ℕ) : Bool :=
  lastIndexWhere events isAssistantText = some index || lastIndexWhere events isResult = some index

/-- The first loop of `fitThreadBudget`. -/
def shrinkSettled (budgetBytes : ℤ) : ℤ → List TailSlot → ℤ × List TailSlot
  | total, [] => (total, [])
  | total, slot :: slots =>
      if total ≤ budgetBytes then (total, slot :: slots)
      else if !slot.settled then
        let (left, rest) := shrinkSettled budgetBytes total slots
        (left, slot :: rest)
      else
        let skeleton := replaceEvents json slot (agentTurnSkeletonEvents slot.events)
        let (left, rest) := shrinkSettled budgetBytes (total - (slot.bytes - skeleton.bytes)) slots
        (left, skeleton :: rest)

/-- The inner loop of `dropOldestEvents`: what is retained from an index on. -/
def retainEvents (budgetBytes : ℤ) (guarded : ℕ → Bool) (sacrificePinned : Bool) :
    ℤ → ℕ → List AgentTurnEvent → ℤ × List AgentTurnEvent
  | total, _, [] => (total, [])
  | total, index, event :: events =>
      let droppable := budgetBytes < total && !events.isEmpty && !guarded index &&
        (sacrificePinned || !event.isUserMessage)
      if droppable then
        retainEvents budgetBytes guarded sacrificePinned (total - persistedAgentEventBytes json event)
          (index + 1) events
      else
        let (left, retained) := retainEvents budgetBytes guarded sacrificePinned total (index + 1) events
        (left, event :: retained)

def dropOldestEvents (budgetBytes : ℤ) (sacrificePinned : Bool) :
    ℤ → List TailSlot → ℤ × List TailSlot
  | total, [] => (total, [])
  | total, slot :: slots =>
      if total ≤ budgetBytes then (total, slot :: slots)
      else
        let guarded := if slots.isEmpty then finalAnswerIndices slot.events else fun _ => false
        let (total, retained) := retainEvents json budgetBytes guarded sacrificePinned total 0 slot.events
        let slot :=
          if retained.length = slot.events.length then slot else replaceEvents json slot retained
        let (left, rest) := dropOldestEvents budgetBytes sacrificePinned total slots
        (left, slot :: rest)

inductive SacrificeTier
  | settledOutput
  | settledSteer
  | liveOutput
  | liveSteer
  | finalAnswer
  deriving DecidableEq

namespace SacrificeTier

def number : SacrificeTier → ℕ
  | settledOutput => 0
  | settledSteer => 1
  | liveOutput => 2
  | liveSteer => 3
  | finalAnswer => 4

/-- `SACRIFICE_TIERS`. -/
def all : List SacrificeTier := [settledOutput, settledSteer, liveOutput, liveSteer, finalAnswer]

end SacrificeTier

/-- `slot` is `position`. -/
structure SacrificeCandidate where
  position : ℕ
  index : ℕ
  tier : SacrificeTier
  bytes : ℕ

def sacrificeTier (slot : TailSlot) (event : AgentTurnEvent) (guarded : Bool) : SacrificeTier :=
  if guarded then .finalAnswer
  else if slot.settled && !event.isUserMessage then .settledOutput
  else if slot.settled then .settledSteer
  else if !event.isUserMessage then .liveOutput
  else .liveSteer

def compareSacrifice (left right : SacrificeCandidate) : Ordering :=
  (compare left.tier.number right.tier.number).then <|
    (compare left.position right.position).then <|
      (compare right.bytes left.bytes).then (compare left.index right.index)

def rankSacrifice (slots : List TailSlot) : List SacrificeCandidate :=
  let candidates := slots.zipIdx.flatMap fun (slot, position) =>
    let guarded :=
      if position + 1 = slots.length then finalAnswerIndices slot.events else fun _ => false
    slot.events.zipIdx.map fun (event, index) =>
      ⟨position, index, sacrificeTier slot event (guarded index), persistedAgentEventBytes json event⟩
  candidates.mergeSort fun left right => compareSacrifice left right ≠ .gt

def eventAt (slots : List TailSlot) (candidate : SacrificeCandidate) : Option AgentTurnEvent :=
  slots[candidate.position]?.bind (·.events[candidate.index]?)

/-- `clipCandidate`, with what it releases taken off the total. -/
def clipCandidate (limitBytes : ℕ) (progress : ℤ × List TailSlot) (candidate : SacrificeCandidate) :
    ℤ × List TailSlot :=
  match progress.2[candidate.position]? with
  | none => progress
  | some slot =>
      match slot.events[candidate.index]? with
      | none => progress
      | some event =>
          let before := persistedAgentEventBytes json event
          if before ≤ limitBytes then progress
          else
            match clipEventText limitBytes event with
            | none => progress
            | some clipped =>
                let after := persistedAgentEventBytes json clipped
                if before ≤ after then progress
                else
                  let released : ℤ := before - after
                  (progress.1 - released, progress.2.set candidate.position
                    { slot with
                      events := slot.events.set candidate.index clipped
                      bytes := slot.bytes - released
                      clipped := true })

def clipRetainedText (budgetBytes : ℤ) (candidates : List SacrificeCandidate)
    (start : ℤ × List TailSlot) : ℤ × List TailSlot :=
  SacrificeTier.all.foldl
    (fun progress tier =>
      let ranked := candidates.filter (·.tier = tier)
      clippedEventTextSteps.foldl
        (fun progress limitBytes =>
          ranked.foldl
            (fun progress candidate =>
              if progress.1 ≤ budgetBytes then progress
              else clipCandidate json limitBytes progress candidate)
            progress)
        progress)
    start

/-- The first loop of `dropSacrificedEvents`: the candidates that go. -/
def sacrificed (budgetBytes : ℤ) (slots : List TailSlot) :
    ℤ → List SacrificeCandidate → List SacrificeCandidate
  | _, [] => []
  | total, candidate :: candidates =>
      if total ≤ budgetBytes then []
      else
        match eventAt slots candidate with
        | none => sacrificed budgetBytes slots total candidates
        | some event =>
            candidate :: sacrificed budgetBytes slots (total - persistedAgentEventBytes json event) candidates

def dropSacrificedEvents (budgetBytes : ℤ) (candidates : List SacrificeCandidate)
    (start : ℤ × List TailSlot) : List TailSlot :=
  let gone := (sacrificed json budgetBytes start.2 start.1 candidates).map fun candidate =>
    (candidate.position, candidate.index)
  start.2.zipIdx.map fun (slot, position) =>
    if gone.any (·.1 = position) then
      replaceEvents json slot (filterIndex (fun index => (position, index) ∉ gone) slot.events)
    else slot

/-- `fitThreadBudget`.  Where it returns early the budget is kept, and nothing that comes
later changes a slot then. -/
def fitThreadBudget (slots : List TailSlot) (budgetBytes : ℤ) : List TailSlot :=
  let total := (slots.map (·.bytes)).sum
  if total ≤ budgetBytes then slots
  else
    let (total, slots) := shrinkSettled json budgetBytes total slots
    let (total, slots) := dropOldestEvents json budgetBytes false total slots
    let (total, slots) := dropOldestEvents json budgetBytes true total slots
    if total ≤ budgetBytes then slots
    else
      let candidates := rankSacrifice json slots
      let (total, slots) := clipRetainedText json budgetBytes candidates (total, slots)
      if total ≤ budgetBytes then slots
      else dropSacrificedEvents json budgetBytes candidates (total, slots)

/-- What is in a log is cut down. -/
def projectLogged (eventBudgetBytes : ℤ)
    (loggedPromptTurnIds : List JsString)
    (loggedLifecycles : OrderedMap JsString AgentSubagentLifecycle) : PromptProjection :=
  clipLoggedPrompts json (compactLoggedLifecycles json thread eventBudgetBytes loggedLifecycles)
    eventBudgetBytes loggedPromptTurnIds

def capAgentThreadForPersistence (eventBudgetBytes : ℤ)
    (loggedPromptTurnIds : List JsString)
    (loggedLifecycles : OrderedMap JsString AgentSubagentLifecycle) : AgentThread :=
  let projection := projectLogged json thread eventBudgetBytes loggedPromptTurnIds loggedLifecycles
  let slots := projection.thread.turns.map (openSlot json)
  let fitted := fitThreadBudget json slots (max (eventBudgetBytes - projection.scaffoldBytes) 0)
  { projection.thread with turns := fitted.map closeSlot }

end

end CodevoEditor.Persistence
