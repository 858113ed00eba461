/-
# Which events supersede which

`packages/agent-events/src/agentTurnEventSupersession.ts`: an event is a *snapshot* of a target,
a *barrier* for some targets, or plain content.
-/

import CodevoEditor.AgentEvents.Event

namespace CodevoEditor.AgentEvents

open Js

inductive AgentTurnKeyedSnapshotScope
  | backgroundTask
  | subagentUsage
  | contextUsage
  deriving DecidableEq

/-- `AgentTurnKeyedSnapshotScope | "subagent"`. -/
inductive AgentTurnSnapshotScope
  | keyed (scope : AgentTurnKeyedSnapshotScope)
  | subagent
  deriving DecidableEq

structure AgentTurnSubagentIds where
  toolId : Option JsString := none
  taskId : Option JsString := none
  deriving DecidableEq

inductive AgentTurnSnapshotTarget
  | identity (scope : AgentTurnKeyedSnapshotScope) (identity : JsString)
  | subagentIds (ids : AgentTurnSubagentIds)

/-- `AgentTurnSnapshotTarget | { reach: "scope" }`. -/
inductive AgentTurnBarrierTarget
  | target (target : AgentTurnSnapshotTarget)
  | scope (scope : AgentTurnSnapshotScope)

inductive AgentTurnEventSupersession
  | snapshot (target : AgentTurnSnapshotTarget)
  | barrier (targets : List AgentTurnBarrierTarget)
  | content

def subagentScope : AgentTurnBarrierTarget := .scope .subagent

def contextBarrier : AgentTurnEventSupersession := .barrier [.scope (.keyed .contextUsage)]

def backgroundTaskSupersession (event : BackgroundTaskEvent) : AgentTurnEventSupersession :=
  let task : AgentTurnSnapshotTarget := .identity .backgroundTask event.taskId
  if event.status = .running then .snapshot task
  else .barrier [.target task, .target (.subagentIds { taskId := some event.taskId })]

def subagentIds (event : SubagentEvent) : AgentTurnSubagentIds := ⟨event.toolId, event.taskId⟩

def subagentSupersession (event : SubagentEvent) : AgentTurnEventSupersession :=
  let target : AgentTurnSnapshotTarget := .subagentIds (subagentIds event)
  if event.status ≠ .running then .barrier [.target target]
  else if event.toolId = none ∧ event.taskId = none then .content
  else .snapshot target

def subagentUsageTarget (agentThreadId : JsString) : AgentTurnSnapshotTarget :=
  .identity .subagentUsage agentThreadId

def subagentActivitySupersession (event : SubagentActivityEvent) : AgentTurnEventSupersession :=
  if event.activity = .interacted then .barrier [subagentScope]
  else .barrier [subagentScope, .target (subagentUsageTarget event.agentThreadId)]

/-- `toolSupersession`, of a `toolCall` or a `toolResult`. -/
def toolSupersession (toolId : JsString) (parentToolId : Option JsString) : AgentTurnEventSupersession :=
  if parentToolId ≠ none then .content
  else .barrier [.target (.subagentIds { toolId := some toolId })]

def validCount (value : Option JsNumber) (minimum : ℤ) : Bool :=
  value.any (JsNumber.safeAtLeast minimum)

/-- A reading is of the occupancy, of the capacity of one model, or of neither. -/
def contextUsageIdentity (event : ContextUsageEvent) : Option JsString :=
  if event.contextWindow = none ∧ validCount event.inputTokens 0 then some (js "occupancy")
  else if event.inputTokens = none ∧ validCount event.contextWindow 1 then
    some (js "capacity:" ++ event.model)
  else none

def contextUsageSupersession (event : ContextUsageEvent) : AgentTurnEventSupersession :=
  match contextUsageIdentity event with
  | none => contextBarrier
  | some identity => .snapshot (.identity .contextUsage identity)

def agentTurnEventSupersession : AgentTurnEvent → AgentTurnEventSupersession
  | .backgroundTask event => backgroundTaskSupersession event
  | .subagent event => subagentSupersession event
  | .subagentUsage event => .snapshot (subagentUsageTarget event.agentThreadId)
  | .contextUsage event => contextUsageSupersession event
  | .contextCompaction _ => contextBarrier
  | .error _ => contextBarrier
  | .result event => if event.isError then contextBarrier else .content
  | .contextCompactionStatus event => if event.status = .idle then .content else contextBarrier
  | .subagentActivity event => subagentActivitySupersession event
  | .subagentSpawn _ => .barrier [subagentScope]
  | .subagentTurnDone event =>
      .barrier [subagentScope, .target (subagentUsageTarget event.agentThreadId)]
  | .toolCall event => toolSupersession event.toolId event.parentToolId
  | .toolResult event => toolSupersession event.toolId event.parentToolId
  | .subagentEvent _ _ => .content
  | .queued _ => .content
  | .assistantText _ => .content
  | .reasoning _ => .content
  | .userMessage _ => .content
  | .unknownLine _ => .content

def isAgentTurnSnapshotEvent (event : AgentTurnEvent) : Bool :=
  match agentTurnEventSupersession event with
  | .snapshot _ => true
  | _ => false

def isAgentTurnCoalescibleTextEvent : AgentTurnEvent → Bool
  | .assistantText _ => true
  | .reasoning _ => true
  | .subagentEvent _ _ => true
  | _ => false

/-- `agentTurnSubagentAlias`: the tool id and the task id of an event that has
both. -/
def agentTurnSubagentAlias : AgentTurnEvent → Option (JsString × JsString)
  | .subagent event =>
      match event.toolId, event.taskId with
      | some toolId, some taskId => some (toolId, taskId)
      | _, _ => none
  | _ => none

def withAgentTurnSubagentIds (event : AgentTurnEvent) (ids : AgentTurnSubagentIds) : AgentTurnEvent :=
  match event with
  | .subagent event =>
      .subagent { event with
        toolId := event.toolId.or ids.toolId
        taskId := event.taskId.or ids.taskId }
  | event => event

def mergeBackgroundTask (previous next : BackgroundTaskEvent) : Option BackgroundTaskEvent :=
  if previous.status ≠ .running ∨ next.status ≠ .running then none
  else if previous.taskId ≠ next.taskId then none
  else some {
    taskId := next.taskId
    status := .running
    taskType := if next.taskType = .other then previous.taskType else next.taskType
    description := next.description.or previous.description }

/-- `subagentIdentity`: the JSON text of `[toolId ?? null, taskId ?? null]` is one for each pair. -/
def subagentIdentity (event : SubagentEvent) : Option JsString × Option JsString :=
  (event.toolId, event.taskId)

def conflicting (previous next : Option JsString) : Bool :=
  previous ≠ none && next ≠ none && previous ≠ next

def mergeSubagent (previous next : SubagentEvent) : Option SubagentEvent :=
  if previous.status ≠ .running ∨ next.status ≠ .running then none
  else if subagentIdentity previous ≠ subagentIdentity next then none
  else if conflicting previous.description next.description then none
  else some {
    status := .running
    toolId := next.toolId
    taskId := next.taskId
    subagentType := next.subagentType.or previous.subagentType
    description := previous.description.or next.description
    durationMs := next.durationMs.or previous.durationMs
    totalTokens := next.totalTokens.or previous.totalTokens
    toolUses := next.toolUses.or previous.toolUses
    lastToolName := next.lastToolName.or previous.lastToolName }

def mergeSupersededAgentTurnEvent : AgentTurnEvent → AgentTurnEvent → Option AgentTurnEvent
  | .backgroundTask previous, .backgroundTask next =>
      (mergeBackgroundTask previous next).map .backgroundTask
  | .subagent previous, .subagent next => (mergeSubagent previous next).map .subagent
  | .subagentUsage previous, .subagentUsage next =>
      if previous.agentThreadId = next.agentThreadId then some (.subagentUsage next) else none
  | .contextUsage previous, .contextUsage next =>
      if contextUsageIdentity previous = contextUsageIdentity next then some (.contextUsage next)
      else none
  | _, _ => none

lemma backgroundTaskSupersession_eq (event) :
    backgroundTaskSupersession event =
      if event.status = .running then .snapshot (.identity .backgroundTask event.taskId)
      else .barrier [.target (.identity .backgroundTask event.taskId),
        .target (.subagentIds { taskId := some event.taskId })] := rfl

lemma subagentSupersession_eq (event) :
    subagentSupersession event =
      if event.status ≠ .running then .barrier [.target (.subagentIds (subagentIds event))]
      else if event.toolId = none ∧ event.taskId = none then .content
      else .snapshot (.subagentIds (subagentIds event)) := rfl

/-- **The snapshots**, of the four kinds of event that can be one. -/
inductive Snapshot : AgentTurnEvent → AgentTurnSnapshotTarget → Prop
  | backgroundTask {event : BackgroundTaskEvent} (hrun : event.status = .running) :
      Snapshot (.backgroundTask event) (.identity .backgroundTask event.taskId)
  | subagent {event : SubagentEvent} (hrun : event.status = .running)
      (hids : ¬ (event.toolId = none ∧ event.taskId = none)) :
      Snapshot (.subagent event) (.subagentIds (subagentIds event))
  | subagentUsage {event : SubagentUsageEvent} :
      Snapshot (.subagentUsage event) (.identity .subagentUsage event.agentThreadId)
  | contextUsage {event : ContextUsageEvent} {identity : JsString}
      (hident : contextUsageIdentity event = some identity) :
      Snapshot (.contextUsage event) (.identity .contextUsage identity)

variable {target : AgentTurnSnapshotTarget}

lemma supersession_eq_snapshot_iff {event} :
    agentTurnEventSupersession event = .snapshot target ↔ Snapshot event target := by
  constructor
  · intro h
    cases event with
    | backgroundTask event =>
      rw [agentTurnEventSupersession, backgroundTaskSupersession_eq] at h
      split_ifs at h with hrun
      obtain rfl := AgentTurnEventSupersession.snapshot.inj h
      exact .backgroundTask hrun
    | subagent event =>
      rw [agentTurnEventSupersession, subagentSupersession_eq] at h
      split_ifs at h with hrun hids
      obtain rfl := AgentTurnEventSupersession.snapshot.inj h
      exact .subagent (not_not.1 hrun) hids
    | subagentUsage event =>
      obtain rfl := AgentTurnEventSupersession.snapshot.inj h
      exact .subagentUsage
    | contextUsage event =>
      rw [agentTurnEventSupersession, contextUsageSupersession] at h
      cases hident : contextUsageIdentity event with
      | none => rw [hident] at h; cases h
      | some identity =>
        rw [hident] at h
        obtain rfl := AgentTurnEventSupersession.snapshot.inj h
        exact .contextUsage hident
    | subagentActivity event =>
      rw [agentTurnEventSupersession, subagentActivitySupersession] at h
      split_ifs at h
    | toolCall event =>
      rw [agentTurnEventSupersession, toolSupersession] at h
      split_ifs at h
    | toolResult event =>
      rw [agentTurnEventSupersession, toolSupersession] at h
      split_ifs at h
    | result event => rw [agentTurnEventSupersession, contextBarrier] at h; split_ifs at h
    | contextCompactionStatus event =>
      rw [agentTurnEventSupersession, contextBarrier] at h; split_ifs at h
    | _ => cases h
  · rintro (hrun | ⟨hrun, hids⟩ | _ | hident)
    · rw [agentTurnEventSupersession, backgroundTaskSupersession_eq, if_pos hrun]
    · rw [agentTurnEventSupersession, subagentSupersession_eq, if_neg (not_not.2 hrun), if_neg hids]
    · rfl
    · rw [agentTurnEventSupersession, contextUsageSupersession, hident]

lemma mergeBackgroundTask_eq_some {previous next merged}
    (h : mergeBackgroundTask previous next = some merged) :
    previous.status = .running ∧ next.status = .running ∧ previous.taskId = next.taskId ∧
      merged = {
        taskId := next.taskId
        status := .running
        taskType := if next.taskType = .other then previous.taskType else next.taskType
        description := next.description.or previous.description } := by
  unfold mergeBackgroundTask at h
  by_cases hs : previous.status ≠ .running ∨ next.status ≠ .running
  · rw [if_pos hs] at h; cases h
  by_cases hid : previous.taskId ≠ next.taskId
  · rw [if_neg hs, if_pos hid] at h; cases h
  rw [if_neg hs, if_neg hid] at h
  rw [not_or, not_not, not_not] at hs
  exact ⟨hs.1, hs.2, not_not.1 hid, (Option.some.inj h).symm⟩

/-- What a running tick of a subagent merges into: both ticks name the same
ids and do not disagree on the description. -/
lemma mergeSubagent_eq_some {previous next merged}
    (h : mergeSubagent previous next = some merged) :
    previous.status = .running ∧ next.status = .running ∧
      subagentIds previous = subagentIds next ∧
      conflicting previous.description next.description = false ∧
      merged = {
        status := .running
        toolId := next.toolId
        taskId := next.taskId
        subagentType := next.subagentType.or previous.subagentType
        description := previous.description.or next.description
        durationMs := next.durationMs.or previous.durationMs
        totalTokens := next.totalTokens.or previous.totalTokens
        toolUses := next.toolUses.or previous.toolUses
        lastToolName := next.lastToolName.or previous.lastToolName } := by
  unfold mergeSubagent at h
  split_ifs at h with hs hid hc
  rw [not_or, not_not, not_not] at hs
  rw [not_not, subagentIdentity, subagentIdentity, Prod.mk.injEq] at hid
  refine ⟨hs.1, hs.2, ?_, Bool.eq_false_iff.2 hc, (Option.some.inj h).symm⟩
  rw [subagentIds, subagentIds, hid.1, hid.2]

/-- What replaces what: two running ticks of one task or of one subagent, the
usage of one child thread, readings of one identity. -/
inductive Supersedes : AgentTurnEvent → AgentTurnEvent → AgentTurnEvent → Prop
  | backgroundTask {previous next merged : BackgroundTaskEvent}
      (hmerged : mergeBackgroundTask previous next = some merged) :
      Supersedes (.backgroundTask previous) (.backgroundTask next) (.backgroundTask merged)
  | subagent {previous next merged : SubagentEvent}
      (hmerged : mergeSubagent previous next = some merged) :
      Supersedes (.subagent previous) (.subagent next) (.subagent merged)
  | subagentUsage {previous next : SubagentUsageEvent}
      (hthread : previous.agentThreadId = next.agentThreadId) :
      Supersedes (.subagentUsage previous) (.subagentUsage next) (.subagentUsage next)
  | contextUsage {previous next : ContextUsageEvent}
      (hident : contextUsageIdentity previous = contextUsageIdentity next) :
      Supersedes (.contextUsage previous) (.contextUsage next) (.contextUsage next)

variable {previous merged next : AgentTurnEvent}

lemma mergeSuperseded_eq_some_iff :
    mergeSupersededAgentTurnEvent previous next = some merged ↔ Supersedes previous next merged := by
  constructor
  · intro h
    unfold mergeSupersededAgentTurnEvent at h
    split at h
    · obtain ⟨merged, hmrg, rfl⟩ := Option.map_eq_some_iff.1 h
      exact .backgroundTask hmrg
    · obtain ⟨merged, hmrg, rfl⟩ := Option.map_eq_some_iff.1 h
      exact .subagent hmrg
    · split_ifs at h with hthr
      exact Option.some.inj h ▸ .subagentUsage hthr
    · split_ifs at h with hident
      exact Option.some.inj h ▸ .contextUsage hident
    · cases h
  · rintro (hmrg | hmrg | hthr | hident)
    · rw [mergeSupersededAgentTurnEvent, hmrg]; rfl
    · rw [mergeSupersededAgentTurnEvent, hmrg]; rfl
    · rw [mergeSupersededAgentTurnEvent, if_pos hthr]
    · rw [mergeSupersededAgentTurnEvent, if_pos hident]

/-- **A merge stays a snapshot of the same target.**  Two snapshots that merge
have one target, and so has the row they leave. -/
theorem Supersedes.snapshot (h : Supersedes previous next merged) (hnext : Snapshot next target) :
    Snapshot previous target ∧ Snapshot merged target := by
  cases h with
  | backgroundTask hmrg =>
    obtain ⟨hp, -, hid, rfl⟩ := mergeBackgroundTask_eq_some hmrg
    cases hnext with
    | backgroundTask => exact ⟨hid ▸ .backgroundTask hp, .backgroundTask rfl⟩
  | subagent hmrg =>
    obtain ⟨hp, -, hid, -, rfl⟩ := mergeSubagent_eq_some hmrg
    cases hnext with
    | subagent hn hids =>
      obtain ⟨htool, htask⟩ := AgentTurnSubagentIds.mk.inj hid
      rw [← hid]
      refine ⟨.subagent hp (by rw [htool, htask]; exact hids), ?_⟩
      rw [hid]
      exact .subagent rfl hids
  | subagentUsage hthr =>
    cases hnext with
    | subagentUsage => exact ⟨hthr ▸ .subagentUsage, .subagentUsage⟩
  | contextUsage hident =>
    cases hnext with
    | contextUsage hn => exact ⟨.contextUsage (hident.trans hn), .contextUsage hn⟩

lemma Supersedes.snapshot_of_previous (h : Supersedes previous next merged)
    (hprev : Snapshot previous target) : Snapshot next target ∧ Snapshot merged target := by
  suffices Snapshot next target from ⟨this, (h.snapshot this).2⟩
  cases h with
  | backgroundTask hmrg =>
    obtain ⟨-, hn, hid, -⟩ := mergeBackgroundTask_eq_some hmrg
    cases hprev with
    | backgroundTask => exact hid ▸ .backgroundTask hn
  | subagent hmrg =>
    obtain ⟨-, hn, hid, -, -⟩ := mergeSubagent_eq_some hmrg
    cases hprev with
    | subagent hp hids =>
      obtain ⟨htool, htask⟩ := AgentTurnSubagentIds.mk.inj hid
      rw [hid]
      exact .subagent hn (by rw [← htool, ← htask]; exact hids)
  | subagentUsage hthr =>
    cases hprev with
    | subagentUsage => exact hthr ▸ .subagentUsage
  | contextUsage hident =>
    cases hprev with
    | contextUsage hp => exact .contextUsage (hident.symm.trans hp)

lemma Snapshot.supersedes_self {event} (h : Snapshot event target) : Supersedes event event event := by
  cases h with
  | @backgroundTask event hrun =>
    obtain ⟨taskId, status, taskType, description⟩ := event
    obtain rfl : status = .running := hrun
    exact .backgroundTask (by simp [mergeBackgroundTask])
  | @subagent event hrun _ =>
    obtain ⟨status, toolId, taskId, _, description, _, _, _, _⟩ := event
    obtain rfl : status = .running := hrun
    exact .subagent (by simp [mergeSubagent, conflicting])
  | subagentUsage => exact .subagentUsage rfl
  | contextUsage => exact .contextUsage rfl

theorem Supersedes.again (h : Supersedes previous next merged) : Supersedes merged next merged := by
  cases h with
  | @backgroundTask previous next _ hmrg =>
    obtain ⟨-, hn, -, rfl⟩ := mergeBackgroundTask_eq_some hmrg
    refine .backgroundTask ?_
    rw [mergeBackgroundTask, if_neg (by simp [hn]), if_neg (by simp)]
    by_cases hoth : next.taskType = .other <;> simp [hoth, ← Option.or_assoc]
  | @subagent previous next _ hmrg =>
    obtain ⟨-, hn, hid, hc, rfl⟩ := mergeSubagent_eq_some hmrg
    refine .subagent ?_
    have hc' : conflicting (previous.description.or next.description) next.description = false := by
      cases hp : previous.description with
      | none => simp [conflicting]
      | some description => rw [Option.some_or, ← hp, hc]
    rw [mergeSubagent, if_neg (by simp [hn]), if_neg (by simp [subagentIdentity]), if_neg (by simp [hc'])]
    have hagain {β : Type} (value value' : Option β) : value.or (value.or value') = value.or value' := by
      rw [← Option.or_assoc, Option.or_self]
    simp only [hagain, Option.or_assoc, Option.or_self]
  | subagentUsage => exact .subagentUsage rfl
  | contextUsage => exact .contextUsage rfl

lemma Supersedes.alias (h : Supersedes previous next merged) :
    agentTurnSubagentAlias merged = agentTurnSubagentAlias previous := by
  cases h with
  | subagent hmrg =>
    obtain ⟨-, -, hid, -, rfl⟩ := mergeSubagent_eq_some hmrg
    obtain ⟨htool, htask⟩ := AgentTurnSubagentIds.mk.inj hid
    simp only [agentTurnSubagentAlias, htool, htask]
  | backgroundTask | subagentUsage | contextUsage => rfl

end CodevoEditor.AgentEvents
