/-
# The retention policy of a turn

`packages/agent-events/src/agentTurnEventMerge.ts` and `agentTurnEventLimits.ts`: the limits of
a turn, the UTF-8 size of an event and the joining of adjacent text (`coalesceAgentTextEvents`).

A cached size is the size computed anew (`utf8ByteLength_coalesced`), so there is no cache here.
-/

import CodevoEditor.AgentEvents.Retention

namespace CodevoEditor.AgentEvents

open Js

def maxAgentEventTextBytes : ℕ := 16 * 1024

def maxAgentEventsPerTurn : ℕ := 1024

def maxSubagentThreadsPerTurn : ℕ := 32

def maxAgentEventBytesPerTurn : ℕ := 2 * 1024 * 1024

/-! ### The size of an event -/

def SubagentActivity.text : SubagentActivity → JsString
  | .started => js "started"
  | .interacted => js "interacted"
  | .interrupted => js "interrupted"
  | .completed => js "completed"

def AgentSubagentSpawnStatus.text : AgentSubagentSpawnStatus → JsString
  | .inProgress => js "inProgress"
  | .completed => js "completed"
  | .failed => js "failed"
  | .interrupted => js "interrupted"

def AgentSubagentSpawnEffort.text : AgentSubagentSpawnEffort → JsString
  | .none => js "none"
  | .minimal => js "minimal"
  | .low => js "low"
  | .medium => js "medium"
  | .high => js "high"
  | .xhigh => js "xhigh"

def BackgroundTaskType.text : BackgroundTaskType → JsString
  | .monitor => js "monitor"
  | .shell => js "shell"
  | .agent => js "agent"
  | .other => js "other"

def definedStrings (values : List (Option JsString)) : List JsString := values.reduceOption

def AgentAttachmentSource.storedPath? : AgentAttachmentSource → Option JsString
  | .storedPath path => some path
  | .remote _ => none

def agentAttachmentStrings : AgentAttachment → List JsString
  | .image _ name _ _ _ _ source => definedStrings [some name, source.storedPath?]
  | .file _ name _ source => definedStrings [some name, source.storedPath?]
  | .reference name path _ => definedStrings [some name, some path]

def agentTextStrings (event : AgentTextEvent) : List JsString :=
  definedStrings [some event.text, event.parentToolId]

def toolCallStrings (event : ToolCallEvent) : List JsString :=
  definedStrings [some event.toolId, some event.name, some event.inputSummary, event.description, event.parentToolId]

def toolResultStrings (event : ToolResultEvent) : List JsString :=
  definedStrings [some event.toolId, some event.outputSummary, event.parentToolId]

/-- `agentTurnEventStrings` on what a child agent's event holds. -/
def agentSubagentContentEventStrings : AgentSubagentContentEvent → List JsString
  | .assistantText event => agentTextStrings event
  | .reasoning event => agentTextStrings event
  | .toolCall event => toolCallStrings event
  | .toolResult event => toolResultStrings event

def agentTurnEventStrings : AgentTurnEvent → List JsString
  | .subagentActivity event => [event.agentThreadId, event.agentPath, event.activity.text]
  | .subagentEvent agentThreadId event => agentThreadId :: agentSubagentContentEventStrings event
  | .subagentUsage event => [event.agentThreadId]
  | .subagentTurnDone event => [event.agentThreadId]
  | .subagentSpawn event =>
      [event.callId, event.status.text, event.taskTitle.getD [], event.model.getD [],
        (event.reasoningEffort.map AgentSubagentSpawnEffort.text).getD []] ++ event.agentThreadIds
  | .queued event => [event.threadId, event.clientUserMessageId.getD []]
  | .toolCall event => toolCallStrings event
  | .toolResult event => toolResultStrings event
  | .backgroundTask event =>
      definedStrings [some event.taskId, some event.taskType.text, event.description]
  | .subagent event =>
      definedStrings [event.toolId, event.taskId, event.subagentType, event.description, event.lastToolName]
  | .error message => [message]
  | .unknownLine event => [event.raw]
  | .userMessage event =>
      event.text :: (event.attachments.getD []).flatMap agentAttachmentStrings
  | .contextUsage event => [event.model]
  | .contextCompactionStatus event => event.message.toList
  | .contextCompaction _ => []
  | .assistantText event => agentTextStrings event
  | .reasoning event => agentTextStrings event
  | .result event => [event.text]

/-- `AgentTextByteState` of a text. -/
structure AgentTextByteState where
  byteLength : ℕ
  trailingHighSurrogate : Bool

/-- `agentTextEventByteState`. -/
def agentTextByteState (text : JsString) : AgentTextByteState :=
  ⟨utf8ByteLength text, endsWithHighSurrogate text⟩

def agentTurnEventUtf8Bytes : AgentTurnEvent → ℕ
  | .assistantText event =>
      (agentTextByteState event.text).byteLength + (event.parentToolId.map utf8ByteLength).getD 0
  | .reasoning event =>
      (agentTextByteState event.text).byteLength + (event.parentToolId.map utf8ByteLength).getD 0
  | .result event => (agentTextByteState event.text).byteLength
  | event => ((agentTurnEventStrings event).map utf8ByteLength).sum

/-- The size of two texts put together: a surrogate pair that the seam joins
was counted as two lone surrogates. -/
def coalescedByteLength (last next : JsString) : ℕ :=
  let lastState := agentTextByteState last
  let nextState := agentTextByteState next
  let repairsSplitScalar := lastState.trailingHighSurrogate && startsWithLowSurrogate next
  lastState.byteLength + nextState.byteLength - (if repairsSplitScalar then 2 else 0)

/-- Two texts of one kind. -/
def coalesceTextEvents (last next : AgentTextEvent) : Option AgentTextEvent :=
  if last.parentToolId ≠ next.parentToolId then none
  else if maxAgentEventTextBytes < coalescedByteLength last.text next.text then none
  else some { next with text := last.text ++ next.text }

/-- `coalesceAgentTextEvents` on what two events of one child agent hold. -/
def coalesceAgentContentEvents :
    AgentSubagentContentEvent → AgentSubagentContentEvent → Option AgentSubagentContentEvent
  | .assistantText last, .assistantText next => (coalesceTextEvents last next).map .assistantText
  | .reasoning last, .reasoning next => (coalesceTextEvents last next).map .reasoning
  | _, _ => none

def coalesceAgentTextEvents : AgentTurnEvent → AgentTurnEvent → Option AgentTurnEvent
  | .subagentEvent lastThreadId last, .subagentEvent agentThreadId next =>
      if lastThreadId ≠ agentThreadId then none
      else (coalesceAgentContentEvents last next).map (.subagentEvent agentThreadId)
  | .assistantText last, .assistantText next => (coalesceTextEvents last next).map .assistantText
  | .reasoning last, .reasoning next => (coalesceTextEvents last next).map .reasoning
  | _, _ => none

def turnEventRetentionPolicy : AgentTurnEventRetentionPolicy where
  maxEvents := maxAgentEventsPerTurn
  maxBytes := maxAgentEventBytesPerTurn
  maxSubagentThreads := maxSubagentThreadsPerTurn
  eventBytes event := agentTurnEventUtf8Bytes event
  coalesceText := coalesceAgentTextEvents

def mergeTurnEvents (existing incoming : List AgentTurnEvent) : AgentTurnEventRetentionResult :=
  retainAgentTurnEvents turnEventRetentionPolicy existing incoming

def capPersistedTurnEvents (events : List AgentTurnEvent) : AgentTurnEventRetentionResult :=
  capAgentTurnEvents turnEventRetentionPolicy events

/-- **The size of joined text is the size of the text.** -/
theorem utf8ByteLength_coalesced (last next : JsString) :
    coalescedByteLength last next = utf8ByteLength (last ++ next) := by
  have h := utf8ByteLength_append last next
  show utf8ByteLength last + utf8ByteLength next -
    (if endsWithHighSurrogate last && startsWithLowSurrogate next then 2 else 0) = _
  omega

lemma coalesceTextEvents_eq_some_iff {last next fused} :
    coalesceTextEvents last next = some fused ↔ last.parentToolId = next.parentToolId ∧
      utf8ByteLength (last.text ++ next.text) ≤ maxAgentEventTextBytes ∧
      fused = ⟨last.text ++ next.text, next.parentToolId⟩ := by
  unfold coalesceTextEvents
  rw [utf8ByteLength_coalesced]
  constructor
  · intro h
    split_ifs at h with hp hb
    exact ⟨not_not.1 hp, not_lt.1 hb, (Option.some.inj h).symm⟩
  · rintro ⟨hp, hb, rfl⟩
    rw [if_neg (not_not.2 hp), if_neg (not_lt.2 hb)]

lemma coalesceTextEvents_eq_none_of_fused {before last next fused}
    (hnone : coalesceTextEvents before last = none)
    (hfu : coalesceTextEvents last next = some fused) :
    coalesceTextEvents before fused = none := by
  obtain ⟨hp, -, rfl⟩ := coalesceTextEvents_eq_some_iff.1 hfu
  rw [Option.eq_none_iff_forall_not_mem] at hnone ⊢
  rintro joined hjoin
  obtain ⟨hp', hb', rfl⟩ := coalesceTextEvents_eq_some_iff.1 hjoin
  refine hnone ⟨before.text ++ last.text, last.parentToolId⟩
    (coalesceTextEvents_eq_some_iff.2 ⟨hp'.trans hp.symm, le_trans ?_ hb', rfl⟩)
  rw [← List.append_assoc]
  exact utf8ByteLength_le_append _ _

/-- The stream of text that an event belongs to. -/
inductive TextChannel
  | assistantText
  | reasoning
  | childText (agentThreadId : JsString)
  | childReasoning (agentThreadId : JsString)
  deriving DecidableEq

/-- The event of a text on a channel. -/
def TextChannel.event (text : AgentTextEvent) : TextChannel → AgentTurnEvent
  | assistantText => .assistantText text
  | reasoning => .reasoning text
  | childText agentThreadId => .subagentEvent agentThreadId (.assistantText text)
  | childReasoning agentThreadId => .subagentEvent agentThreadId (.reasoning text)

lemma TextChannel.event_inj {channel channel' : TextChannel} {text text' : AgentTextEvent}
    (h : channel.event text = channel'.event text') : channel = channel' ∧ text = text' := by
  cases channel <;> cases channel' <;> simp_all [TextChannel.event]

/-- **What joins.**  Two events join when they are texts on one channel that
join, and the joined text is on that channel. -/
theorem coalesceAgentTextEvents_eq_some_iff {last next fused} :
    coalesceAgentTextEvents last next = some fused ↔
      ∃ (channel : TextChannel) (lastText nextText fusedText : AgentTextEvent),
        last = channel.event lastText ∧ next = channel.event nextText ∧
          fused = channel.event fusedText ∧
          coalesceTextEvents lastText nextText = some fusedText := by
  constructor
  · intro h
    unfold coalesceAgentTextEvents at h
    split at h
    · rename_i lastThreadId last agentThreadId next
      split_ifs at h with hid
      obtain rfl := not_not.1 hid
      obtain ⟨content, hc, rfl⟩ := Option.map_eq_some_iff.1 h
      unfold coalesceAgentContentEvents at hc
      split at hc
      · obtain ⟨text, ht, rfl⟩ := Option.map_eq_some_iff.1 hc
        exact ⟨.childText lastThreadId, _, _, text, rfl, rfl, rfl, ht⟩
      · obtain ⟨text, ht, rfl⟩ := Option.map_eq_some_iff.1 hc
        exact ⟨.childReasoning lastThreadId, _, _, text, rfl, rfl, rfl, ht⟩
      · cases hc
    · obtain ⟨text, ht, rfl⟩ := Option.map_eq_some_iff.1 h
      exact ⟨.assistantText, _, _, text, rfl, rfl, rfl, ht⟩
    · obtain ⟨text, ht, rfl⟩ := Option.map_eq_some_iff.1 h
      exact ⟨.reasoning, _, _, text, rfl, rfl, rfl, ht⟩
    · cases h
  · rintro ⟨channel, lastText, nextText, fusedText, rfl, rfl, rfl, ht⟩
    cases channel <;>
      simp [TextChannel.event, coalesceAgentTextEvents, coalesceAgentContentEvents, ht]

variable (channel : TextChannel)

variable (text : AgentTextEvent)

lemma isUserMessage_channelEvent : (channel.event text).isUserMessage = false := by
  cases channel <;> rfl

lemma agentThreadId?_channelEvent (text') :
    (channel.event text).agentThreadId? = (channel.event text').agentThreadId? := by
  cases channel <;> rfl

lemma isAgentTurnCoalescibleTextEvent_channelEvent : isAgentTurnCoalescibleTextEvent (channel.event text) := by
  cases channel <;> rfl

/-- **An event that did not join its neighbour does not join it once grown.** -/
theorem coalesceAgentTextEvents_eq_none_of_fused {before last next fused : AgentTurnEvent}
    (hnone : coalesceAgentTextEvents before last = none)
    (hfu : coalesceAgentTextEvents last next = some fused) :
    coalesceAgentTextEvents before fused = none := by
  obtain ⟨channel, lastText, nextText, fusedText, rfl, rfl, rfl, ht⟩ := coalesceAgentTextEvents_eq_some_iff.1 hfu
  rw [Option.eq_none_iff_forall_not_mem] at hnone ⊢
  intro joined hjoin
  obtain ⟨channel', beforeText, lastText', joinedText, rfl, hl, rfl, hj⟩ :=
    coalesceAgentTextEvents_eq_some_iff.1 hjoin
  obtain ⟨rfl, rfl⟩ := TextChannel.event_inj hl
  cases hpre : coalesceTextEvents beforeText lastText with
  | none => rw [coalesceTextEvents_eq_none_of_fused hpre ht] at hj; cases hj
  | some text =>
    exact hnone _ (coalesceAgentTextEvents_eq_some_iff.2
      ⟨channel, beforeText, lastText, text, rfl, rfl, rfl, hpre⟩)

end CodevoEditor.AgentEvents
