/-
# Background activity

`src/domain/agentBackgroundActivity.ts`: which background tasks of a turn are still live, and
whether the agent in the foreground is done.
-/

import CodevoEditor.AgentEvents.UntruncatedRun

namespace CodevoEditor.Domain

open Js AgentEvents Window List Option OrderedMap

def maxAgentBackgroundTasks : ℤ := 256

def maxAgentBackgroundObservedTasks : ℕ := 4096

def maxAgentBackgroundOpenRootTools : ℕ := 1024

structure AgentBackgroundTask where
  taskId : JsString
  taskType : BackgroundTaskType
  description : Option JsString := none
  deriving DecidableEq

inductive AgentBackgroundPhase
  | inactive
  | working
  | monitoring
  deriving DecidableEq

structure AgentBackgroundActivity where
  phase : AgentBackgroundPhase
  foregroundSettled : Bool
  tasks : List AgentBackgroundTask
  truncated : Bool
  deriving DecidableEq

inductive AgentForeground
  | running
  | settled
  | inferredIdle (anchor : JsString)

structure AgentBackgroundState where
  foreground : AgentForeground
  tasks : List AgentBackgroundTask
  truncated : Bool

inductive AgentInferredIdleResolution
  | settled
  | pending
  deriving DecidableEq

/-- `{ run?: string; task: AgentBackgroundTask }`. -/
structure FinishedRun where
  run : Option JsString
  task : AgentBackgroundTask

structure AgentTaskRuns where
  current : OrderedMap JsString JsString := .empty
  finished : OrderedMap JsString FinishedRun := .empty

/-- How the tasks are seen: `none` is never, `some none` finished. -/
abbrev ObservedTasks := OrderedMap JsString (Option AgentBackgroundTask)

namespace AgentTaskRuns

/-- `full` says whether a map of some size takes no key more. -/
def remember (full : ℕ → Bool) (runs : AgentTaskRuns) (taskId toolId : JsString) : AgentTaskRuns :=
  if !runs.current.has taskId && full runs.current.size then runs
  else { runs with current := runs.current.set taskId toolId }

/-- The finished task that an event runs under another tool than before. -/
def revivedBy (runs : AgentTaskRuns) (event : SubagentEvent) (observed : ObservedTasks)
    (taskId toolId : JsString) : Option AgentBackgroundTask :=
  if event.status ≠ .running ∨ observed.get? taskId ≠ some none then none
  else (runs.finished.get? taskId).bind fun finished =>
    if finished.run = none ∨ finished.run = some toolId then none
    else if finished.task.taskType ≠ .agent then none
    else some finished.task

def resumed (full : ℕ → Bool) (runs : AgentTaskRuns) (event : SubagentEvent)
    (observed : ObservedTasks) : AgentTaskRuns × Option AgentBackgroundTask :=
  match event.taskId, event.toolId with
  | some taskId, some toolId =>
      if event.status ≠ .starting ∧ event.status ≠ .running then (runs, none)
      else
        let runs := runs.remember full taskId toolId
        match runs.revivedBy event observed taskId toolId with
        | none => (runs, none)
        | some task => ({ runs with finished := runs.finished.delete taskId }, some task)
  | _, _ => (runs, none)

def finish (full : ℕ → Bool) (runs : AgentTaskRuns) (task : AgentBackgroundTask) : AgentTaskRuns :=
  if full runs.finished.size then runs
  else { runs with
    finished := runs.finished.set task.taskId ⟨runs.current.get? task.taskId, task⟩ }

end AgentTaskRuns

inductive RootForegroundEvent
  | assistantText
  | other
  deriving DecidableEq

/-- `openTools` is a set: a map to `Unit`. -/
structure RootForegroundTracker where
  openTools : OrderedMap JsString Unit := .empty
  overflow : Bool := false
  last : Option RootForegroundEvent := none
  index : ℤ := -1
  lastRootIndex : ℤ := -1
  lastTextLength : ℕ := 0

namespace RootForegroundTracker

variable (tracker : RootForegroundTracker)

def markRoot (kind : RootForegroundEvent) (textLength : ℕ) : RootForegroundTracker :=
  { tracker with last := some kind, lastRootIndex := tracker.index, lastTextLength := textLength }

def openTool (toolId : JsString) : RootForegroundTracker :=
  if tracker.openTools.has toolId then tracker
  else if maxAgentBackgroundOpenRootTools ≤ tracker.openTools.size then
    { tracker with overflow := true }
  else { tracker with openTools := tracker.openTools.set toolId () }

def observe (event : AgentTurnEvent) : RootForegroundTracker :=
  let tracker := { tracker with index := tracker.index + 1 }
  match event with
  | .assistantText event =>
      if event.parentToolId ≠ none then tracker
      else tracker.markRoot .assistantText event.text.length
  | .reasoning event => if event.parentToolId ≠ none then tracker else tracker.markRoot .other 0
  | .toolCall event =>
      if event.parentToolId ≠ none then tracker
      else (tracker.markRoot .other 0).openTool event.toolId
  | .toolResult event =>
      if event.parentToolId ≠ none then tracker
      else
        let tracker := tracker.markRoot .other 0
        { tracker with openTools := tracker.openTools.delete event.toolId }
  | .userMessage _ => tracker.markRoot .other 0
  | .error _ => tracker.markRoot .other 0
  | _ => tracker

def idleAnchor : Option JsString :=
  if tracker.last ≠ some .assistantText ∨ 0 < tracker.openTools.size ∨ tracker.overflow then
    none
  else some (js (toString tracker.lastRootIndex) ++ js ":" ++ js (toString tracker.lastTextLength))

end RootForegroundTracker

def startsRootForeground : AgentTurnEvent → Bool
  | .assistantText event => event.parentToolId = none
  | .reasoning event => event.parentToolId = none
  | .toolCall event => event.parentToolId = none
  | .userMessage _ => true
  | _ => false

/-! ### The loop over the events -/

/-- The variables of the loop, without the tracker of the foreground. -/
structure TaskTable where
  observed : ObservedTasks := .empty
  runs : AgentTaskRuns := {}
  foregroundSettled : Bool := false
  truncated : Bool := false
  liveCount : ℤ := 0

namespace TaskTable

def observeForeground (table : TaskTable) (event : AgentTurnEvent) : TaskTable :=
  match event with
  | .result _ => { table with foregroundSettled := true }
  | event => if startsRootForeground event then { table with foregroundSettled := false } else table

def observeSubagent (full : ℕ → Bool) (table : TaskTable) (event : SubagentEvent) : TaskTable :=
  let resumed := table.runs.resumed full event table.observed
  let table := { table with runs := resumed.1 }
  match resumed.2 with
  | none => table
  | some revived =>
      if maxAgentBackgroundTasks ≤ table.liveCount then { table with truncated := true }
      else { table with
        liveCount := table.liveCount + 1
        observed := table.observed.set revived.taskId (some revived) }

/-- A task after an event about it. -/
def taskAfter (previous : Option AgentBackgroundTask) (event : BackgroundTaskEvent) :
    AgentBackgroundTask where
  taskId := event.taskId
  taskType :=
    match previous with
    | some previous => if event.taskType = .other then previous.taskType else event.taskType
    | none => event.taskType
  description := event.description.or (previous.bind (·.description))

def endsTask (status : BackgroundTaskStatus) : Bool :=
  status = .completed || status = .failed || status = .stopped

def observeTask (full : ℕ → Bool) (table : TaskTable) (event : BackgroundTaskEvent) : TaskTable :=
  let previous := table.observed.get? event.taskId
  if previous = some none ∧ event.status ≠ .starting then table
  else if previous = none ∧ full table.observed.size then { table with truncated := true }
  else if endsTask event.status then
    { table with
      liveCount := if previous ≠ none then table.liveCount - 1 else table.liveCount
      runs :=
        match previous.join with
        | some task => table.runs.finish full task
        | none => table.runs
      observed := table.observed.set event.taskId none }
  else if event.status = .starting ∨ previous ≠ none then
    if previous.join = none ∧ maxAgentBackgroundTasks ≤ table.liveCount then
      { table with truncated := true }
    else
      { table with
        liveCount := if previous.join = none then table.liveCount + 1 else table.liveCount
        observed := table.observed.set event.taskId (some (taskAfter previous.join event)) }
  else table

def step (full : ℕ → Bool) (processAlive : Bool) (table : TaskTable) (event : AgentTurnEvent) : TaskTable :=
  let table := table.observeForeground event
  match event with
  | .subagent event => if processAlive then table.observeSubagent full event else table
  | .backgroundTask event => if processAlive then table.observeTask full event else table
  | _ => table

/-- The maps hold 4096 tasks. -/
def fullAt (size : ℕ) : Bool := maxAgentBackgroundObservedTasks ≤ size

def tasks (table : TaskTable) : List AgentBackgroundTask := table.observed.values.reduceOption

end TaskTable

def projectAgentBackgroundState (events : List AgentTurnEvent) (processAlive eventsTruncated : Bool) :
    AgentBackgroundState :=
  let start : TaskTable := { truncated := processAlive && eventsTruncated }
  let table := events.foldl (TaskTable.step TaskTable.fullAt processAlive) start
  let root := events.foldl RootForegroundTracker.observe {}
  let foreground : AgentForeground :=
    if table.foregroundSettled then .settled
    else if !processAlive || table.truncated || table.tasks.isEmpty then .running
    else
      match root.idleAnchor with
      | none => .running
      | some anchor => .inferredIdle anchor
  ⟨foreground, table.tasks, table.truncated⟩

def foregroundSettledBy (foreground : AgentForeground) (inferredIdle : AgentInferredIdleResolution) : Bool :=
  match foreground with
  | .running => false
  | .settled => true
  | .inferredIdle _ => inferredIdle = .settled

def resolveAgentBackgroundActivity (state : AgentBackgroundState)
    (inferredIdle : AgentInferredIdleResolution) : AgentBackgroundActivity :=
  let foregroundSettled := foregroundSettledBy state.foreground inferredIdle
  let phase : AgentBackgroundPhase :=
    if state.truncated then .working
    else if state.tasks.isEmpty then .inactive
    else if !foregroundSettled ||
        state.tasks.any fun task => task.taskType = .agent || task.taskType = .other then .working
    else .monitoring
  ⟨phase, foregroundSettled, state.tasks, state.truncated⟩

def projectAgentBackgroundActivity (events : List AgentTurnEvent)
    (processAlive eventsTruncated : Bool) : AgentBackgroundActivity :=
  resolveAgentBackgroundActivity (projectAgentBackgroundState events processAlive eventsTruncated) .pending

/-! ### Maps with room

A turn retains 1024 events, so the maps of the loop over its rows never hold
4096 tasks, and `full` never matters. -/

variable {rows : List AgentTurnEvent} {event : AgentTurnEvent}

namespace TaskTable

/-- The step of maps with room for every task. -/
def freeStep (table : TaskTable) (event : AgentTurnEvent) : TaskTable :=
  table.step (fun _ => false) true event

/-- No map holds more than `n` tasks. -/
structure Fits (n : ℕ) (table : TaskTable) : Prop where
  observed : table.observed.size ≤ n
  current : table.runs.current.size ≤ n
  finished : table.runs.finished.size ≤ n

variable {n : ℕ}

lemma size_set_le {κ ν : Type} [DecidableEq κ] (m : OrderedMap κ ν) (key : κ) (value : ν)
    (h : m.size ≤ n) : (m.set key value).size ≤ n + 1 := by
  rw [size_set]
  split_ifs <;> omega

variable {table : TaskTable}

lemma Fits.succ (h : table.Fits n) : table.Fits (n + 1) :=
  ⟨h.observed.trans n.le_succ, h.current.trans n.le_succ, h.finished.trans n.le_succ⟩

lemma Fits.observeForeground (h : table.Fits n) (event) : (table.observeForeground event).Fits n := by
  unfold TaskTable.observeForeground
  split
  · exact ⟨h.observed, h.current, h.finished⟩
  · split_ifs
    · exact ⟨h.observed, h.current, h.finished⟩
    · exact h

lemma fullAt_eq_false {size} (hn : n < 4096) (h : size ≤ n) : fullAt size = false :=
  decide_eq_false (by rw [maxAgentBackgroundObservedTasks]; omega)

variable {runs : AgentTaskRuns}

lemma remember_full (hn : n < 4096) (h : runs.current.size ≤ n) (taskId toolId : JsString) :
    runs.remember fullAt taskId toolId = runs.remember (fun _ => false) taskId toolId := by
  rw [AgentTaskRuns.remember, AgentTaskRuns.remember, fullAt_eq_false hn h]

lemma observeSubagent_full (hn : n < 4096) (h : table.Fits n) (event) :
    table.observeSubagent fullAt event = table.observeSubagent (fun _ => false) event := by
  have hresumed : table.runs.resumed fullAt event table.observed =
      table.runs.resumed (fun _ => false) event table.observed := by
    unfold AgentTaskRuns.resumed
    split
    · rw [remember_full hn h.current]
    · rfl
  rw [observeSubagent, observeSubagent, hresumed]

lemma observeTask_full (hn : n < 4096) (h : table.Fits n) (event) :
    table.observeTask fullAt event = table.observeTask (fun _ => false) event := by
  have hfinish task : table.runs.finish fullAt task = table.runs.finish (fun _ => false) task := by
    rw [AgentTaskRuns.finish, AgentTaskRuns.finish, fullAt_eq_false hn h.finished]
  simp only [observeTask, hfinish, fullAt_eq_false hn h.observed]

lemma step_full (hn : n < 4096) (h : table.Fits n) (event) : table.step fullAt true event = table.freeStep event := by
  have hforeground := h.observeForeground event
  cases event with
  | subagent event => exact observeSubagent_full hn hforeground event
  | backgroundTask event => exact observeTask_full hn hforeground event
  | _ => rfl

/-- The runs when `toolId` runs `taskId`. -/
def ranBy (runs : AgentTaskRuns) (taskId toolId : JsString) : AgentTaskRuns :=
  { runs with current := runs.current.set taskId toolId }

/-- A subagent event does nothing to the runs, runs its task, or revives it. -/
inductive Resumes (runs : AgentTaskRuns) (event : SubagentEvent) (observed : ObservedTasks) :
    AgentTaskRuns × Option AgentBackgroundTask → Prop
  | idle (hidle : ∀ taskId toolId, event.taskId = some taskId → event.toolId = some toolId →
      event.status ≠ .starting ∧ event.status ≠ .running) : Resumes runs event observed (runs, none)
  | ran {taskId toolId : JsString} (htask : event.taskId = some taskId)
      (htool : event.toolId = some toolId) (hstat : event.status = .starting ∨ event.status = .running)
      (hnone : (ranBy runs taskId toolId).revivedBy event observed taskId toolId = none) :
      Resumes runs event observed (ranBy runs taskId toolId, none)
  | revived {taskId toolId : JsString} {finished : FinishedRun} (htask : event.taskId = some taskId)
      (htool : event.toolId = some toolId) (hstat : event.status = .starting ∨ event.status = .running)
      (hobserved : observed.get? taskId = some none)
      (hfin : runs.finished.get? taskId = some finished) :
      Resumes runs event observed
        ({ ranBy runs taskId toolId with finished := runs.finished.delete taskId }, some finished.task)

lemma remember_free (runs) (taskId toolId : JsString) :
    runs.remember (fun _ => false) taskId toolId = ranBy runs taskId toolId := by
  rw [AgentTaskRuns.remember, Bool.and_false, if_neg Bool.false_ne_true, ranBy]

lemma resumes (runs) (event) (observed) :
    Resumes runs event observed (runs.resumed (fun _ => false) event observed) := by
  unfold AgentTaskRuns.resumed
  cases htask : event.taskId with
  | none => exact .idle fun taskId toolId h => by rw [htask] at h; cases h
  | some taskId =>
    cases htool : event.toolId with
    | none => exact .idle fun taskId toolId _ h => by rw [htool] at h; cases h
    | some toolId =>
      dsimp only
      split_ifs with hstat
      · exact .idle fun _ _ _ _ => hstat
      · have hran : event.status = .starting ∨ event.status = .running := by
          by_contra hc
          exact hstat (not_or.1 hc)
        rw [remember_free]
        cases hrev : (ranBy runs taskId toolId).revivedBy event observed taskId toolId with
        | none => exact .ran htask htool hran hrev
        | some task =>
          unfold AgentTaskRuns.revivedBy at hrev
          split_ifs at hrev with hobserved
          obtain ⟨finished, hfin, hcond⟩ := bind_eq_some_iff.1 hrev
          split_ifs at hcond
          cases hcond
          exact .revived htask htool hran (not_not.1 (not_or.1 hobserved).2) hfin

/-- What is put back when a task is revived. -/
def revive (table : TaskTable) : Option AgentBackgroundTask → TaskTable
  | none => table
  | some revived =>
      if maxAgentBackgroundTasks ≤ table.liveCount then { table with truncated := true }
      else { table with
        liveCount := table.liveCount + 1
        observed := table.observed.set revived.taskId (some revived) }

lemma observeSubagent_eq (table : TaskTable) (event : SubagentEvent) :
    table.observeSubagent (fun _ => false) event =
      revive { table with runs := (table.runs.resumed (fun _ => false) event table.observed).1 }
        (table.runs.resumed (fun _ => false) event table.observed).2 := by
  rfl

@[simp] lemma runs_revive (table : TaskTable) (revived) : (table.revive revived).runs = table.runs := by
  unfold revive
  split
  · rfl
  · split_ifs <;> rfl

lemma observed_revive (table : TaskTable) (revived) :
    (table.revive revived).observed = table.observed ∨ ∃ task, revived = some task ∧
      (table.revive revived).observed = table.observed.set task.taskId (some task) := by
  unfold revive
  split
  · exact .inl rfl
  · split_ifs
    · exact .inl rfl
    · exact .inr ⟨_, rfl, rfl⟩

/-- A background event is of no account, puts `taskId` in or finishes it. -/
inductive Observes (table : TaskTable) (event : BackgroundTaskEvent) : TaskTable → Prop
  | idle (hidle : table.observed.get? event.taskId = some none → event.status ≠ .starting)
      (hidle' : ∀ task, table.observed.get? event.taskId ≠ some (some task)) :
      Observes table event table
  | truncated (hprev : ∀ task, table.observed.get? event.taskId ≠ some (some task)) :
      Observes table event { table with truncated := true }
  | ended {runs : AgentTaskRuns} {liveCount : ℤ} (hended : endsTask event.status)
      (hruns : runs = table.runs ∨ ∃ task, table.observed.get? event.taskId = some (some task) ∧
        runs = table.runs.finish (fun _ => false) task) :
      Observes table event { table with
        liveCount, runs
        observed := table.observed.set event.taskId none }
  | live {liveCount : ℤ} (hended : endsTask event.status = false) :
      Observes table event { table with
        liveCount
        observed := table.observed.set event.taskId (some (taskAfter (table.observed.get? event.taskId).join event)) }

lemma observes (table) (event) : Observes table event (table.observeTask (fun _ => false) event) := by
  unfold observeTask
  by_cases hfin : table.observed.get? event.taskId = some none ∧ event.status ≠ .starting
  · rw [if_pos hfin]
    exact .idle (fun _ => hfin.2) fun task hc => by rw [hfin.1] at hc; cases hc
  rw [if_neg hfin, if_neg fun hc => absurd hc.2 Bool.false_ne_true]
  by_cases hend : endsTask event.status
  · rw [if_pos hend]
    refine .ended hend ?_
    cases hprev : table.observed.get? event.taskId with
    | none => exact .inl rfl
    | some previous =>
      cases previous with
      | none => exact .inl rfl
      | some task => exact .inr ⟨task, rfl, rfl⟩
  rw [if_neg hend]
  by_cases hlive : event.status = .starting ∨ table.observed.get? event.taskId ≠ none
  · rw [if_pos hlive]
    by_cases hroom : (table.observed.get? event.taskId).join = none ∧ maxAgentBackgroundTasks ≤ table.liveCount
    · rw [if_pos hroom]
      refine .truncated fun task hc => ?_
      rw [hc] at hroom
      cases hroom.1
    · rw [if_neg hroom]
      exact .live (Bool.eq_false_iff.2 hend)
  · rw [if_neg hlive]
    rw [not_or, not_not] at hlive
    exact .idle (fun hc => by rw [hlive.2] at hc; cases hc) fun task hc => by rw [hlive.2] at hc; cases hc

def isTaskEvent : AgentTurnEvent → Bool
  | .subagent _ => true
  | .backgroundTask _ => true
  | _ => false

lemma freeStep_cases (table : TaskTable) (event : AgentTurnEvent) :
    (∃ subagent, event = .subagent subagent ∧
        table.freeStep event = table.observeSubagent (fun _ => false) subagent) ∨
      (∃ task, event = .backgroundTask task ∧ table.freeStep event = table.observeTask (fun _ => false) task) ∨
      (isTaskEvent event = false ∧ ∃ foregroundSettled, table.freeStep event = { table with foregroundSettled }) := by
  cases event with
  | subagent event => exact .inl ⟨event, rfl, rfl⟩
  | backgroundTask event => exact .inr (.inl ⟨event, rfl, rfl⟩)
  | _ =>
    refine .inr (.inr ⟨rfl, ?_⟩)
    simp only [freeStep, step, observeForeground]
    first
      | exact ⟨_, rfl⟩
      | split_ifs
        · exact ⟨_, rfl⟩
        · exact ⟨table.foregroundSettled, rfl⟩

/-! ### The rows behind the maps -/

/-- The tool and the task of an event that runs a task: a starting or running
subagent with both ids. -/
def runOf : AgentTurnEvent → Option (JsString × JsString)
  | .subagent event =>
      if event.status = .starting ∨ event.status = .running then
        agentTurnSubagentAlias (.subagent event)
      else none
  | _ => none

variable {taskId toolId : JsString}

lemma runOf_subagent {event} :
    runOf (.subagent event) = some (toolId, taskId) ↔ event.taskId = some taskId ∧
      event.toolId = some toolId ∧ (event.status = .starting ∨ event.status = .running) := by
  rw [runOf]
  split_ifs with hstat
  · cases htool : event.toolId <;> cases htask : event.taskId <;>
      simp [agentTurnSubagentAlias, htool, htask, hstat, and_comm]
  · simp [hstat]

lemma alias_of_runOf {run} (h : runOf event = some run) : agentTurnSubagentAlias event = some run := by
  cases event with
  | subagent event =>
    rw [runOf] at h
    split_ifs at h
    exact h
  | _ => cases h

/-- What the maps say about the rows: tasks stand under their ids, and each run was an event with
both ids. -/
structure Traced (rows : List AgentTurnEvent) (table : TaskTable) : Prop where
  keyed : ∀ taskId finished, table.runs.finished.get? taskId = some finished → finished.task.taskId = taskId
  observedKeyed : ∀ taskId task, table.observed.get? taskId = some (some task) → task.taskId = taskId
  current : ∀ taskId toolId, table.runs.current.get? taskId = some toolId → linkCount rows toolId taskId ≠ 0
  finished : ∀ taskId finished toolId, table.runs.finished.get? taskId = some finished →
    finished.run = some toolId → linkCount rows toolId taskId ≠ 0
  ran : ∀ event ∈ rows, ∀ toolId taskId, runOf event = some (toolId, taskId) → table.runs.current.get? taskId ≠ none

lemma traced_nil : Traced [] {} := by
  refine ⟨?_, ?_, ?_, ?_, ?_⟩
  · rintro taskId finished ⟨⟩
  · rintro taskId task ⟨⟩
  · rintro taskId toolId ⟨⟩
  · rintro taskId finished toolId ⟨⟩
  · rintro event ⟨⟩

lemma linkCount_concat_ne_zero (event) (h : linkCount rows toolId taskId ≠ 0) :
    linkCount (rows ++ [event]) toolId taskId ≠ 0 := by
  rw [linkCount_append]
  omega

lemma Traced.concat {table'} (h : Traced rows table)
    (hobserved : ∀ taskId task, table'.observed.get? taskId = some (some task) →
      table.observed.get? taskId = some (some task) ∨ task.taskId = taskId)
    (hcur : ∀ taskId toolId, table'.runs.current.get? taskId = some toolId →
      table.runs.current.get? taskId = some toolId ∨ runOf event = some (toolId, taskId))
    (hfin : ∀ taskId finished, table'.runs.finished.get? taskId = some finished →
      table.runs.finished.get? taskId = some finished ∨ finished.task.taskId = taskId ∧
      finished.run = table.runs.current.get? taskId)
    (hran : ∀ taskId, table.runs.current.get? taskId ≠ none ∨ (∃ toolId, runOf event = some (toolId, taskId)) →
      table'.runs.current.get? taskId ≠ none) :
    Traced (rows ++ [event]) table' := by
  refine ⟨fun taskId finished hget => ?_, fun taskId task hget => ?_,
    fun taskId toolId hget => ?_, fun taskId finished toolId hget hrun => ?_,
    fun other hmem toolId taskId hruns => ?_⟩
  · rcases hfin taskId finished hget with hold | ⟨hkey, -⟩
    · exact h.keyed taskId finished hold
    · exact hkey
  · rcases hobserved taskId task hget with hold | hkey
    · exact h.observedKeyed taskId task hold
    · exact hkey
  · rcases hcur taskId toolId hget with hold | hruns
    · exact linkCount_concat_ne_zero event (h.current taskId toolId hold)
    · exact linkCount_ne_zero_iff.2 ⟨event, by simp, alias_of_runOf hruns⟩
  · rcases hfin taskId finished hget with hold | ⟨-, hnew⟩
    · exact linkCount_concat_ne_zero event (h.finished taskId finished toolId hold hrun)
    · exact linkCount_concat_ne_zero event (h.current taskId toolId (hnew.symm.trans hrun))
  · rcases mem_append.1 hmem with hmem | hmem
    · exact hran taskId (.inl (h.ran other hmem toolId taskId hruns))
    · obtain rfl := mem_singleton.1 hmem
      exact hran taskId (.inr ⟨toolId, hruns⟩)

lemma current_ranBy (runs) (hruns : runOf event = some (toolId, taskId)) :
    (∀ taskId' toolId', (ranBy runs taskId toolId).current.get? taskId' = some toolId' →
      runs.current.get? taskId' = some toolId' ∨ runOf event = some (toolId', taskId')) ∧
    ∀ taskId', runs.current.get? taskId' ≠ none ∨ (∃ toolId', runOf event = some (toolId', taskId')) →
      (ranBy runs taskId toolId).current.get? taskId' ≠ none := by
  refine ⟨fun taskId' toolId' hget => ?_, fun taskId' hran => ?_⟩
  · rw [ranBy, get?_set] at hget
    split_ifs at hget with heq
    · rw [← some.inj hget, heq]
      exact .inr hruns
    · exact .inl hget
  · rw [ranBy, get?_set]
    split_ifs with heq
    · exact some_ne_none _
    · refine hran.resolve_right ?_
      rintro ⟨toolId', hruns'⟩
      rw [hruns, some_inj, Prod.mk.injEq] at hruns'
      exact heq hruns'.2.symm

lemma Traced.step (h : Traced rows table) (event : AgentTurnEvent) :
    Traced (rows ++ [event]) (table.freeStep event) := by
  rcases freeStep_cases table event with ⟨subagent, rfl, hstep⟩ | ⟨task, rfl, hstep⟩ |
    ⟨hkind, foregroundSettled, hstep⟩
  · rw [hstep, observeSubagent_eq]
    have hresume := resumes table.runs subagent table.observed
    generalize table.runs.resumed (fun _ => false) subagent table.observed = result at hresume
    rcases hresume with hidle | ⟨htask, htool, hstat, -⟩ | ⟨htask, htool, hstat, hobserved, hfin⟩
    · refine h.concat (fun _ _ hget => .inl hget) (fun _ _ hget => .inl hget)
        (fun _ _ hget => .inl hget) fun taskId hran => hran.resolve_right ?_
      rintro ⟨toolId, hrun⟩
      obtain ⟨htask, htool, hstat⟩ := runOf_subagent.1 hrun
      obtain ⟨hstarting, hrunning⟩ := hidle taskId toolId htask htool
      rcases hstat with hstat | hstat
      · exact hstarting hstat
      · exact hrunning hstat
    · obtain ⟨hcur, hran⟩ := current_ranBy table.runs
        (runOf_subagent.2 ⟨htask, htool, hstat⟩)
      exact h.concat (fun _ _ hget => .inl hget) hcur (fun _ _ hget => .inl hget) hran
    · rename_i taskId toolId finished
      obtain ⟨hcur, hran⟩ := current_ranBy table.runs (runOf_subagent.2 ⟨htask, htool, hstat⟩)
      refine h.concat (fun taskId' task' hget => ?_) (by rwa [runs_revive])
        (fun taskId' finished' hget => .inl ?_) (by rwa [runs_revive])
      · rcases observed_revive _ (some finished.task) with hsame | ⟨revived, hrev, hset⟩
        · rw [hsame] at hget
          exact .inl hget
        · cases hrev
          rw [hset, get?_set] at hget
          split_ifs at hget with heq
          · rw [← some.inj (some.inj hget)]
            exact .inr heq.symm
          · exact .inl hget
      · rw [runs_revive, get?_delete] at hget
        split_ifs at hget
        exact hget
  · rw [hstep]
    have hobs := observes table task
    generalize table.observeTask (fun _ => false) task = table' at hobs
    have hnoRun : ∀ taskId, ¬ ∃ toolId, runOf (.backgroundTask task) = some (toolId, taskId) := by
      rintro taskId ⟨toolId, ⟨⟩⟩
    rcases hobs with - | - | ⟨hend, hruns⟩ | hend
    · exact h.concat (fun _ _ hget => .inl hget) (fun _ _ hget => .inl hget)
        (fun _ _ hget => .inl hget) fun taskId hran => hran.resolve_right (hnoRun taskId)
    · exact h.concat (fun _ _ hget => .inl hget) (fun _ _ hget => .inl hget)
        (fun _ _ hget => .inl hget) fun taskId hran => hran.resolve_right (hnoRun taskId)
    · refine h.concat (fun taskId' task' hget => .inl ?_) (fun taskId' toolId hget => .inl ?_)
        (fun taskId' finished hget => ?_) fun taskId' hran => ?_
      · rw [get?_set] at hget
        split_ifs at hget
        · cases hget
        · exact hget
      · rcases hruns with rfl | ⟨ended, -, rfl⟩ <;> exact hget
      · rcases hruns with rfl | ⟨ended, hprev, rfl⟩
        · exact .inl hget
        · rw [AgentTaskRuns.finish, if_neg Bool.false_ne_true, get?_set] at hget
          split_ifs at hget with heq
          · rw [← some.inj hget, heq]
            exact .inr ⟨rfl, rfl⟩
          · exact .inl hget
      · have hold := hran.resolve_right (hnoRun taskId')
        rcases hruns with rfl | ⟨ended, -, rfl⟩ <;> exact hold
    · refine h.concat (fun taskId' task' hget => ?_) (fun _ _ hget => .inl hget)
        (fun _ _ hget => .inl hget) fun taskId' hran => hran.resolve_right (hnoRun taskId')
      rw [get?_set] at hget
      split_ifs at hget with heq
      · rw [← some.inj (some.inj hget)]
        exact .inr heq.symm
      · exact .inl hget
  · rw [hstep]
    refine h.concat (fun _ _ hget => .inl hget) (fun _ _ hget => .inl hget)
      (fun _ _ hget => .inl hget) fun taskId hran => hran.resolve_right ?_
    rintro ⟨toolId, hrun⟩
    cases event with
    | subagent => cases hkind
    | _ => cases hrun

def setTask (table : TaskTable) (taskId : JsString) (task : AgentBackgroundTask) : TaskTable :=
  { table with observed := table.observed.set taskId (some task) }

lemma taskId_ne_of_untouched {event}
    (h : touches (.identity .backgroundTask taskId) (.backgroundTask event) = false) :
    event.taskId ≠ taskId := by
  rintro rfl
  rw [touches, slotKeys, any_cons, any_nil, Bool.or_false, touchesKey,
    agentTurnEventSupersession, backgroundTaskSupersession_eq] at h
  by_cases hrunning : event.status = .running
  · rw [if_pos hrunning] at h
    simp [slotKeys] at h
  · rw [if_neg hrunning] at h
    simp [AgentTurnBarrierTarget.reaches, slotKeys] at h

variable {task : AgentBackgroundTask}

variable {task' : AgentBackgroundTask} {observed : ObservedTasks}

lemma resumed_setTask (runs : AgentTaskRuns) (event : SubagentEvent)
    (h : observed.get? taskId = some (some task)) :
    runs.resumed (fun _ => false) event (observed.set taskId (some task')) =
      runs.resumed (fun _ => false) event observed := by
  have hfin other : ((observed.set taskId (some task')).get? other = some none) =
      (observed.get? other = some none) := by
    rw [get?_set]
    by_cases heq : other = taskId
    · rw [if_pos heq, heq, h]
      simp
    · rw [if_neg heq]
  unfold AgentTaskRuns.resumed AgentTaskRuns.revivedBy
  simp only [ne_eq, hfin]

lemma setTask_revive (table : TaskTable) (h : table.observed.get? taskId = some (some task))
    {revived}
    (hne : ∀ other, revived = some other → other.taskId ≠ taskId) :
    (table.setTask taskId task').revive revived = (table.revive revived).setTask taskId task' := by
  cases revived with
  | none => rfl
  | some revived =>
    have hcomm := set_comm_of_mem
      (mem_keys_iff.2 (by rw [h]; rfl : (table.observed.get? taskId).isSome))
      (hne revived rfl).symm (some task') (some revived)
    unfold revive setTask
    split_ifs
    · rfl
    · dsimp only
      rw [hcomm]

lemma revived_ne (h : Traced rows table) (event)
    (htask : table.observed.get? taskId ≠ some none)
    (hrev : (table.runs.resumed (fun _ => false) event table.observed).2 = some task) :
    task.taskId ≠ taskId := by
  have hresume := resumes table.runs event table.observed
  generalize table.runs.resumed (fun _ => false) event table.observed = result at hresume hrev
  rcases hresume with - | - | ⟨-, -, -, hobserved, hfin⟩
  · cases hrev
  · cases hrev
  · cases hrev
    rintro rfl
    rw [h.keyed _ _ hfin] at htask
    exact htask hobserved

variable {row : AgentTurnEvent}

/-- **A live task may change before or after** a row that does not touch it. -/
theorem freeStep_setTask (h : Traced rows table) (task')
    (htask : table.observed.get? taskId = some (some task))
    (hrow : touches (.identity .backgroundTask taskId) row = false) :
    (table.setTask taskId task').freeStep row = (table.freeStep row).setTask taskId task' ∧
      (table.freeStep row).observed.get? taskId = some (some task) := by
  cases row with
  | subagent event =>
    have hne : ∀ other, (table.runs.resumed (fun _ => false) event table.observed).2 = some other →
        other.taskId ≠ taskId := fun _ => revived_ne h event (by rw [htask]; simp)
    have hstep (table : TaskTable) : table.freeStep (.subagent event) = _ := observeSubagent_eq table event
    constructor
    · rw [hstep, hstep, setTask, resumed_setTask table.runs event htask]
      exact setTask_revive { table with
        runs := (table.runs.resumed (fun _ => false) event table.observed).1 } htask hne
    · rw [hstep]
      rcases observed_revive { table with runs := _ } _ with hsame | ⟨revived, hrev, hset⟩
      · rw [hsame, htask]
      · rw [hset, get?_set, if_neg (hne revived hrev).symm, htask]
  | backgroundTask event =>
    have hne := taskId_ne_of_untouched hrow
    have hget value : (table.observed.set taskId value).get? event.taskId = table.observed.get? event.taskId := by
      rw [get?_set, if_neg hne]
    have hcomm := set_comm_of_mem
      (mem_keys_iff.2 (by rw [htask]; rfl : (table.observed.get? taskId).isSome))
      hne.symm (some task')
    constructor
    · show (table.setTask taskId task').observeTask (fun _ => false) event =
        (table.observeTask (fun _ => false) event).setTask taskId task'
      unfold observeTask setTask
      simp only [hget, Bool.false_eq_true, and_false, if_false]
      by_cases hfin : table.observed.get? event.taskId = some none ∧ event.status ≠ .starting
      · rw [if_pos hfin, if_pos hfin]
      rw [if_neg hfin, if_neg hfin]
      by_cases hend : endsTask event.status
      · rw [if_pos hend, if_pos hend]
        rw [hcomm]
      rw [if_neg hend, if_neg hend]
      by_cases hlive : event.status = .starting ∨ table.observed.get? event.taskId ≠ none
      · rw [if_pos hlive, if_pos hlive]
        split_ifs
        · rfl
        · dsimp only
          rw [hcomm]
        · dsimp only
          rw [hcomm]
      · rw [if_neg hlive, if_neg hlive]
    · show (table.observeTask (fun _ => false) event).observed.get? taskId = some (some task)
      have hobs := observes table event
      generalize table.observeTask (fun _ => false) event = table' at hobs
      rcases hobs with - | - | - | -
      · exact htask
      · exact htask
      · rw [get?_set, if_neg hne.symm, htask]
      · rw [get?_set, if_neg hne.symm, htask]
  | _ =>
    simp only [freeStep, step, observeForeground, setTask]
    first
      | exact ⟨trivial, htask⟩
      | split_ifs
        · exact ⟨rfl, htask⟩
        · exact ⟨rfl, htask⟩

lemma observed_freeStep_of_none (h : Traced rows table)
    (hnone : table.observed.get? taskId = none)
    (hrow : touches (.identity .backgroundTask taskId) row = false) :
    (table.freeStep row).observed.get? taskId = none := by
  rcases freeStep_cases table row with ⟨event, rfl, hstep⟩ | ⟨event, rfl, hstep⟩ | ⟨-, foregroundSettled, hstep⟩
  · rw [hstep, observeSubagent_eq]
    rcases observed_revive { table with runs := _ } _ with hsame | ⟨revived, hrev, hset⟩
    · rw [hsame, hnone]
    · have hne : revived.taskId ≠ taskId := revived_ne h event (by rw [hnone]; simp) hrev
      rw [hset, get?_set, if_neg hne.symm, hnone]
  · have hne := taskId_ne_of_untouched hrow
    have hobs := observes table event
    rw [hstep]
    generalize table.observeTask (fun _ => false) event = table' at hobs
    rcases hobs with - | - | - | -
    · exact hnone
    · exact hnone
    · rw [get?_set, if_neg hne.symm, hnone]
    · rw [get?_set, if_neg hne.symm, hnone]
  · rw [hstep]
    exact hnone

/-- The run of `taskId` under `toolId` is on record: another tick of it changes
nothing. -/
structure RunRecorded (toolId taskId : JsString) (table : TaskTable) : Prop where
  current : table.runs.current.get? taskId = some toolId
  finished : table.observed.get? taskId = some none →
    ∀ finished, table.runs.finished.get? taskId = some finished →
      finished.run = none ∨ finished.run = some toolId ∨ finished.task.taskType ≠ .agent

lemma revivedBy_eq_none (event)
    (h : observed.get? taskId = some none → ∀ finished, runs.finished.get? taskId = some finished →
      finished.run = none ∨ finished.run = some toolId ∨ finished.task.taskType ≠ .agent) :
    runs.revivedBy event observed taskId toolId = none := by
  unfold AgentTaskRuns.revivedBy
  by_cases hc : event.status ≠ .running ∨ observed.get? taskId ≠ some none
  · rw [if_pos hc]
  · rw [if_neg hc]
    rw [not_or, not_not, not_not] at hc
    refine bind_eq_none_iff.2 fun finished hfin => ?_
    rcases h hc.2 finished hfin with hrun | hrun | htype
    · rw [if_pos (.inl hrun)]
    · rw [if_pos (.inr hrun)]
    · rw [if_pos htype, ite_self]

lemma runRecorded_freeStep (table : TaskTable) {event}
    (htask : event.taskId = some taskId) (htool : event.toolId = some toolId)
    (hrunning : event.status = .running) :
    RunRecorded toolId taskId (table.freeStep (.subagent event)) := by
  have hstep : table.freeStep (.subagent event) = _ := observeSubagent_eq table event
  rw [hstep]
  have hresume := resumes table.runs event table.observed
  generalize table.runs.resumed (fun _ => false) event table.observed = result at hresume
  rcases hresume with hidle | ⟨htask', htool', -, hnone⟩ | ⟨htask', htool', -, hobserved, hfin⟩
  · exact absurd hrunning (hidle taskId toolId htask htool).2
  · obtain rfl := some.inj (htask'.symm.trans htask)
    obtain rfl := some.inj (htool'.symm.trans htool)
    refine ⟨by simp [revive, ranBy], fun hobserved finished hfin => ?_⟩
    by_contra hc
    rw [not_or, not_or, not_not] at hc
    unfold AgentTaskRuns.revivedBy at hnone
    rw [if_neg (by rw [not_or, not_not, not_not]; exact ⟨hrunning, hobserved⟩),
      show (ranBy table.runs _ _).finished.get? _ = some finished from hfin, bind_some,
      if_neg (by rw [not_or]; exact ⟨hc.1, hc.2.1⟩), if_neg (not_not.2 hc.2.2)] at hnone
    cases hnone
  · obtain rfl := some.inj (htask'.symm.trans htask)
    obtain rfl := some.inj (htool'.symm.trans htool)
    refine ⟨by simp [ranBy], fun _ finished hget => ?_⟩
    rw [runs_revive, get?_delete, if_pos rfl] at hget
    cases hget

variable {ids : AgentTurnSubagentIds}

/-- A row that touches neither id is about another task, or a tick of the task
that does not finish it. -/
lemma other_task_of_untouched (hids : ids.taskId = some taskId)
    (hrow : touches (.subagentIds ids) row = false) :
    (∀ event, row = .subagent event → event.taskId ≠ some taskId) ∧
      ∀ event, row = .backgroundTask event → event.taskId ≠ taskId ∨ event.status = .running := by
  have hkey : touchesKey (.subagentTask, taskId) row = false := by
    rw [touches, List.any_eq_false] at hrow
    exact Bool.eq_false_iff.2 (hrow (.subagentTask, taskId) (by simp [slotKeys, hids]))
  constructor
  · rintro event rfl htask
    rw [touchesKey, agentTurnEventSupersession, subagentSupersession_eq] at hkey
    by_cases hrunning : event.status = .running
    · rw [if_neg (not_not.2 hrunning), if_neg (by rw [htask]; simp)] at hkey
      simp [slotKeys, subagentIds, htask] at hkey
    · rw [if_pos hrunning] at hkey
      simp [AgentTurnBarrierTarget.reaches, slotKeys, subagentIds, htask] at hkey
  · rintro event rfl
    by_cases hrunning : event.status = .running
    · exact .inr hrunning
    · refine .inl fun heq => ?_
      rw [touchesKey, agentTurnEventSupersession, backgroundTaskSupersession_eq, if_neg hrunning] at hkey
      simp [AgentTurnBarrierTarget.reaches, slotKeys, heq] at hkey

lemma RunRecorded.step (h : Traced rows table) (hrec : RunRecorded toolId taskId table)
    (hids : ids.taskId = some taskId) (hrow : touches (.subagentIds ids) row = false) :
    RunRecorded toolId taskId (table.freeStep row) := by
  obtain ⟨hsubagent, hback⟩ := other_task_of_untouched hids hrow
  rcases freeStep_cases table row with ⟨event, rfl, hstep⟩ | ⟨event, rfl, hstep⟩ |
    ⟨-, foregroundSettled, hstep⟩
  · have hoth := hsubagent event rfl
    rw [hstep, observeSubagent_eq]
    have hresume := resumes table.runs event table.observed
    generalize table.runs.resumed (fun _ => false) event table.observed = result at hresume
    rcases hresume with - | ⟨htask, -, -, -⟩ | ⟨htask, -, -, hobserved, hfin⟩
    · exact hrec
    · have hne : taskId ≠ _ := fun hc => hoth (hc ▸ htask)
      refine ⟨?_, hrec.finished⟩
      rw [runs_revive, ranBy, get?_set, if_neg hne]
      exact hrec.current
    · rename_i taskId' toolId' finished'
      have hne : taskId ≠ taskId' := fun hc => hoth (hc ▸ htask)
      refine ⟨?_, fun hget finished hget' => hrec.finished ?_ finished ?_⟩
      · rw [runs_revive]
        dsimp only [ranBy]
        rw [get?_set, if_neg hne]
        exact hrec.current
      · rcases observed_revive { table with runs := _ } (some finished'.task) with
          hsame | ⟨revived, hrev, hset⟩
        · rwa [hsame] at hget
        · cases hrev
          rw [hset, get?_set] at hget
          split_ifs at hget
          · cases hget
          · exact hget
      · rw [runs_revive] at hget'
        rwa [get?_delete, if_neg hne] at hget'
  · have hoth := hback event rfl
    have hobs := observes table event
    rw [hstep]
    generalize table.observeTask (fun _ => false) event = table' at hobs
    rcases hobs with - | - | ⟨hend, hruns⟩ | hend
    · exact hrec
    · exact ⟨hrec.current, hrec.finished⟩
    · have hne : taskId ≠ event.taskId := by
        rcases hoth with hoth | hrunning
        · exact hoth.symm
        · rw [hrunning] at hend
          cases hend
      refine ⟨?_, fun hget finished hget' => hrec.finished ?_ finished ?_⟩
      · rcases hruns with rfl | ⟨task, -, rfl⟩ <;> exact hrec.current
      · rwa [get?_set, if_neg hne] at hget
      · rcases hruns with rfl | ⟨task, hprev, rfl⟩
        · exact hget'
        · rw [AgentTaskRuns.finish, if_neg Bool.false_ne_true, get?_set,
            h.observedKeyed _ _ hprev, if_neg hne] at hget'
          exact hget'
    · refine ⟨hrec.current, fun hget => hrec.finished ?_⟩
      rw [get?_set] at hget
      split_ifs at hget
      · cases hget
      · exact hget
  · rw [hstep]
    exact ⟨hrec.current, hrec.finished⟩

lemma RunRecorded.freeStep_eq (h : RunRecorded toolId taskId table) {event}
    (htask : event.taskId = some taskId) (htool : event.toolId = some toolId) :
    table.freeStep (.subagent event) = table := by
  have hran : ranBy table.runs taskId toolId = table.runs := by
    rw [ranBy, set_of_get? h.current]
  have hresumed : table.runs.resumed (fun _ => false) event table.observed = (table.runs, none) := by
    unfold AgentTaskRuns.resumed
    rw [htask, htool]
    dsimp only
    split_ifs
    · rfl
    · rw [remember_free, hran, revivedBy_eq_none event h.finished]
  have hstep : table.freeStep (.subagent event) = _ := observeSubagent_eq table event
  rw [hstep, hresumed]
  rfl

lemma freeStep_of_missing_id (table : TaskTable) {event}
    (h : event.taskId = none ∨ event.toolId = none) : table.freeStep (.subagent event) = table := by
  have hresumed : table.runs.resumed (fun _ => false) event table.observed = (table.runs, none) := by
    unfold AgentTaskRuns.resumed
    rcases h with h | h
    · rw [h]
    · rw [h]
      cases event.taskId <;> rfl
  have hstep : table.freeStep (.subagent event) = _ := observeSubagent_eq table event
  rw [hstep, hresumed]
  rfl

lemma Fits.step (h : table.Fits n) (event : AgentTurnEvent) : (table.freeStep event).Fits (n + 1) := by
  have hset {taskId toolId} : (ranBy table.runs taskId toolId).current.size ≤ n + 1 := size_set_le _ _ _ h.current
  rcases freeStep_cases table event with ⟨subagent, rfl, hstep⟩ | ⟨task, rfl, hstep⟩ | ⟨-, foregroundSettled, hstep⟩
  · rw [hstep, observeSubagent_eq]
    have hresume := resumes table.runs subagent table.observed
    generalize table.runs.resumed (fun _ => false) subagent table.observed = result at hresume
    have hobserved runs revived : ({ table with runs }.revive revived).observed.size ≤ n + 1 := by
      rcases observed_revive { table with runs } revived with hsame | ⟨task, -, hset⟩
      · rw [hsame]; exact h.succ.observed
      · rw [hset]; exact size_set_le _ _ _ h.observed
    rcases hresume with - | - | -
    · exact h.succ
    · exact ⟨hobserved _ _, by rw [runs_revive]; exact hset, by rw [runs_revive]; exact h.succ.finished⟩
    · refine ⟨hobserved _ _, by rw [runs_revive]; exact hset, ?_⟩
      rw [runs_revive]
      exact (size_delete_le _ _).trans h.succ.finished
  · rw [hstep]
    have hobs := observes table task
    generalize table.observeTask (fun _ => false) task = table' at hobs
    rcases hobs with - | - | ⟨-, hruns⟩ | -
    · exact h.succ
    · exact ⟨h.succ.observed, h.succ.current, h.succ.finished⟩
    · refine ⟨size_set_le _ _ _ h.observed, ?_, ?_⟩
      · rcases hruns with rfl | ⟨ended, -, rfl⟩
        · exact h.succ.current
        · exact h.succ.current
      · rcases hruns with rfl | ⟨ended, -, rfl⟩
        · exact h.succ.finished
        · rw [AgentTaskRuns.finish, if_neg Bool.false_ne_true]
          exact size_set_le _ _ _ h.finished
    · exact ⟨size_set_le _ _ _ h.observed, h.succ.current, h.succ.finished⟩
  · rw [hstep]
    exact ⟨h.succ.observed, h.succ.current, h.succ.finished⟩

lemma foldl_step_full (rows : List AgentTurnEvent) (h : rows.length ≤ 4096) :
    rows.foldl (step fullAt true) {} = rows.foldl freeStep {} := by
  suffices rows.foldl (step fullAt true) {} = rows.foldl freeStep {} ∧
      (rows.foldl freeStep {}).Fits rows.length from this.1
  induction rows using List.reverseRecOn with
  | nil => exact ⟨rfl, le_rfl, le_rfl, le_rfl⟩
  | append_singleton rows row ih =>
    rw [length_append, length_singleton] at h ⊢
    obtain ⟨hsame, hfits⟩ := ih (by omega)
    rw [foldl_append, foldl_append, hsame]
    exact ⟨step_full (by omega) hfits row, hfits.step row⟩

lemma traced_foldl (rows) : Traced rows (rows.foldl freeStep {}) := by
  induction rows using List.reverseRecOn with
  | nil => exact traced_nil
  | append_singleton rows row ih =>
    rw [foldl_append]
    exact ih.step row

variable {after : List AgentTurnEvent}

/-- **Induction over the rows behind** a row, none of which touches `target`. -/
theorem foldl_freeStep_induct {target} {P : TaskTable → Prop}
    (hstep : ∀ rows table row, Traced rows table → P table → touches target row = false → P (table.freeStep row))
    (htraced : Traced rows table) (hP : P table)
    (haft : ∀ row ∈ after, touches target row = false) : P (after.foldl freeStep table) := by
  induction after generalizing rows table with
  | nil => exact hP
  | cons row after ih =>
    obtain ⟨hrow, haft⟩ := forall_mem_cons.1 haft
    exact ih (htraced.step row) (hstep rows table row htraced hP hrow) haft

lemma foldl_setTask (htraced : Traced rows table) (task')
    (htask : table.observed.get? taskId = some (some task))
    (haft : ∀ row ∈ after, touches (.identity .backgroundTask taskId) row = false) :
    after.foldl freeStep (table.setTask taskId task') =
        (after.foldl freeStep table).setTask taskId task' ∧
      (after.foldl freeStep table).observed.get? taskId = some (some task) := by
  induction after generalizing rows table with
  | nil => exact ⟨rfl, htask⟩
  | cons row after ih =>
    obtain ⟨hrow, haft⟩ := forall_mem_cons.1 haft
    obtain ⟨hstep, htask'⟩ := freeStep_setTask htraced task' htask hrow
    rw [foldl_cons, foldl_cons, hstep]
    exact ih (htraced.step row) htask' haft

lemma freeStep_tick_idle {event} (hrunning : event.status = .running)
    (htask : table.observed.get? event.taskId = none ∨ table.observed.get? event.taskId = some none) :
    table.freeStep (.backgroundTask event) = table := by
  show table.observeTask (fun _ => false) event = table
  unfold observeTask
  rcases htask with htask | htask
  · simp [htask, hrunning, endsTask]
  · simp [htask, hrunning]

lemma freeStep_tick_live {event} (hrunning : event.status = .running)
    (htask : table.observed.get? event.taskId = some (some task)) :
    table.freeStep (.backgroundTask event) = table.setTask event.taskId (taskAfter (some task) event) := by
  show table.observeTask (fun _ => false) event = _
  unfold observeTask
  simp [htask, hrunning, endsTask, setTask]

variable {previous merged next : BackgroundTaskEvent}

lemma taskAfter_merged (h : mergeBackgroundTask previous next = some merged)
    (task) :
    taskAfter (some (taskAfter (some task) previous)) next = taskAfter (some task) merged := by
  obtain ⟨-, -, -, rfl⟩ := mergeBackgroundTask_eq_some h
  unfold taskAfter
  by_cases hoth : next.taskType = .other
  · simp [hoth, Option.or_assoc]
  · simp [hoth, Option.or_assoc]

/-- **A tick of a background task moves back** to the tick it renews, unless the
task was finished there and is not any more. -/
theorem foldl_backgroundTask_renewed (htraced : Traced rows table)
    (hmrg : mergeBackgroundTask previous next = some merged)
    (haft : ∀ row ∈ after, touches (.identity .backgroundTask next.taskId) row = false)
    (hrevival : table.observed.get? next.taskId = some none → (after.foldl freeStep (table.freeStep
      (.backgroundTask previous))).observed.get? next.taskId = some none) :
    after.foldl freeStep (table.freeStep (.backgroundTask merged)) =
      (after.foldl freeStep (table.freeStep (.backgroundTask previous))).freeStep (.backgroundTask next) := by
  obtain ⟨hp, hn, hid, hm⟩ := mergeBackgroundTask_eq_some hmrg
  have hmrunning : merged.status = .running := by rw [hm]
  have hmid : merged.taskId = next.taskId := by rw [hm]
  cases htask : table.observed.get? next.taskId with
  | none =>
    have hidle := freeStep_tick_idle hp (.inl (hid ▸ htask))
    have hidle' := freeStep_tick_idle hmrunning (.inl (hmid ▸ htask))
    rw [hidle, hidle', freeStep_tick_idle hn (.inl ?_)]
    exact foldl_freeStep_induct (P := fun table => table.observed.get? next.taskId = none)
      (fun rows table row htraced hnone hrow => observed_freeStep_of_none htraced hnone hrow)
      htraced htask haft
  | some observed =>
    cases observed with
    | none =>
      have hidle := freeStep_tick_idle hp (.inr (hid ▸ htask))
      have hidle' := freeStep_tick_idle hmrunning (.inr (hmid ▸ htask))
      have hfin := hrevival htask
      rw [hidle] at hfin ⊢
      rw [hidle', freeStep_tick_idle hn (.inr hfin)]
    | some task =>
      have hlive := freeStep_tick_live hp (hid ▸ htask)
      have hlive' := freeStep_tick_live hmrunning (hmid ▸ htask)
      have htraced' := htraced.step (.backgroundTask previous)
      rw [hlive, hid] at htraced'
      have hfst : (table.setTask next.taskId (taskAfter (some task) previous)).observed.get?
          next.taskId = some (some (taskAfter (some task) previous)) := by simp [setTask]
      obtain ⟨hmov, hstill⟩ := foldl_setTask htraced' (taskAfter (some task) merged) hfst haft
      rw [hlive, hlive', hid, hmid, freeStep_tick_live hn hstill, taskAfter_merged hmrg, ← hmov]
      simp only [setTask, OrderedMap.set_set]

/-- **A tick of a subagent moves back** to the tick it renews. -/
theorem foldl_subagent_renewed (htraced : Traced rows table) {previous next merged}
    (hmrg : mergeSubagent previous next = some merged)
    (haft : ∀ row ∈ after, touches (.subagentIds (subagentIds next)) row = false)
    (hev : event = .subagent next ∨ ∃ tick : SubagentEvent, event = .subagent tick ∧ (tick.taskId = none ∨
      tick.toolId = none)) :
    after.foldl freeStep (table.freeStep (.subagent merged)) =
      (after.foldl freeStep (table.freeStep (.subagent previous))).freeStep event := by
  obtain ⟨hp, hn, hids, -, hm⟩ := mergeSubagent_eq_some hmrg
  obtain ⟨htool, htask⟩ := AgentTurnSubagentIds.mk.inj hids
  have hsame : table.freeStep (.subagent merged) = table.freeStep (.subagent previous) := by
    have hresumed : table.runs.resumed (fun _ => false) merged table.observed =
        table.runs.resumed (fun _ => false) previous table.observed := by
      have hstat : merged.status = previous.status := by rw [hm, hp]
      have hmtool : merged.toolId = previous.toolId := by rw [hm, htool]
      have hmtask : merged.taskId = previous.taskId := by rw [hm, htask]
      simp only [AgentTaskRuns.resumed, AgentTaskRuns.revivedBy, hstat, hmtool, hmtask]
    have hstep event : table.freeStep (.subagent event) = _ := observeSubagent_eq table event
    rw [hstep, hstep, hresumed]
  rw [hsame]
  suffices ∀ tick : SubagentEvent, event = .subagent tick →
      tick.taskId = none ∨ tick.toolId = none ∨ tick = next →
      (after.foldl freeStep (table.freeStep (.subagent previous))).freeStep (.subagent tick) =
        after.foldl freeStep (table.freeStep (.subagent previous)) by
    rcases hev with rfl | ⟨tick, rfl, hmiss⟩
    · exact (this next rfl (.inr (.inr rfl))).symm
    · exact (this tick rfl (hmiss.elim .inl fun h => .inr (.inl h))).symm
  rintro tick - hcases
  rcases hcases with hmiss | hmiss | rfl
  · exact freeStep_of_missing_id _ (.inl hmiss)
  · exact freeStep_of_missing_id _ (.inr hmiss)
  · cases htaskId : tick.taskId with
    | none => exact freeStep_of_missing_id _ (.inl htaskId)
    | some taskId =>
      cases htoolId : tick.toolId with
      | none => exact freeStep_of_missing_id _ (.inr htoolId)
      | some toolId =>
        have hrec := foldl_freeStep_induct (P := RunRecorded toolId taskId)
          (fun rows table row htraced hrec hrow => hrec.step htraced htaskId hrow)
          (htraced.step (.subagent previous))
          (runRecorded_freeStep table (htask.trans htaskId) (htool.trans htoolId) hp) haft
        exact hrec.freeStep_eq htaskId htoolId

end TaskTable

/-- The task was finished by the rows, and not revived. -/
def isFinished (rows : List AgentTurnEvent) (taskId : JsString) : Bool :=
  (rows.foldl (TaskTable.step TaskTable.fullAt true) {}).observed.get? taskId = some none

/-- The task of a background event. -/
def backgroundTaskId : AgentTurnEvent → Option JsString
  | .backgroundTask event => some event.taskId
  | _ => none

open TaskTable

/-- A tick that is appended with an id filled in names a run of the rows. -/
def FilledTickRan (rows : List AgentTurnEvent) (event : AgentTurnEvent) : Prop :=
  renewal rows event = none → (placement rows event).1 ≠ event →
    ∃ row ∈ rows, runOf row = runOf (placement rows event).1

/-- A tick of a background task renews no row where the task was finished, if it
has been revived since. -/
def TickKeepsRevival (rows : List AgentTurnEvent) (event : AgentTurnEvent) : Prop :=
  ∀ taskId ∈ backgroundTaskId event, ∀ place ∈ renewal rows event, isFinished place.1 taskId → isFinished rows taskId

/-- What a step has to keep for the activity to stay. -/
def KeepsActivity (rows : List AgentTurnEvent) (event : AgentTurnEvent) : Prop :=
  FilledTickRan rows event ∧ TickKeepsRevival rows event

instance (rows : List AgentTurnEvent) (event : AgentTurnEvent) : Decidable (FilledTickRan rows event) :=
  inferInstanceAs (Decidable (_ → _ → ∃ row ∈ rows, _))

instance (rows : List AgentTurnEvent) (event : AgentTurnEvent) : Decidable (TickKeepsRevival rows event) :=
  inferInstanceAs (Decidable (∀ taskId ∈ backgroundTaskId event, ∀ place ∈ renewal rows event, _))

instance (rows : List AgentTurnEvent) (event : AgentTurnEvent) : Decidable (KeepsActivity rows event) :=
  inferInstanceAs (Decidable (_ ∧ _))

lemma freeStep_placement (hran : FilledTickRan rows event) (hplc : renewal rows event = none) :
    (rows.foldl freeStep {}).freeStep (placement rows event).1 = (rows.foldl freeStep {}).freeStep event := by
  by_cases hsame : (placement rows event).1 = event
  · rw [hsame]
  obtain ⟨row, hmem, hrun⟩ := hran hplc hsame
  rcases placement_cases rows event with hsame' | ⟨toolId, taskId, hpl, -, hmatched, tick, hrunning, rfl, hid⟩
  · exact absurd hsame' hsame
  have hmiss : tick.taskId = none ∨ tick.toolId = none := by
    rcases hid with hid | hid
    · exact .inl (AgentTurnSubagentIds.mk.inj hid).2
    · exact .inr (AgentTurnSubagentIds.mk.inj hid).1
  have hids : tick.toolId.or (some toolId) = some toolId ∧ tick.taskId.or (some taskId) = some taskId := by
    rcases hid with hid | hid
    · obtain ⟨htool, htask⟩ := AgentTurnSubagentIds.mk.inj hid
      rw [htool, htask]
      exact ⟨rfl, rfl⟩
    · obtain ⟨htool, htask⟩ := AgentTurnSubagentIds.mk.inj hid
      rw [htool, htask]
      exact ⟨rfl, rfl⟩
  rw [hpl, freeStep_of_missing_id _ hmiss]
  -- the filled tick is of the run that all links of the task name
  have htraced := traced_foldl rows
  have hrun' : runOf row = some (toolId, taskId) := by
    rw [hrun, hpl]
    exact runOf_subagent.2 ⟨hids.2, hids.1, .inr hrunning⟩
  have hcur : (rows.foldl freeStep {}).runs.current.get? taskId = some toolId := by
    cases hget : (rows.foldl freeStep {}).runs.current.get? taskId with
    | none => exact absurd hget (htraced.ran row hmem toolId taskId hrun')
    | some other => rw [hmatched.2 other (htraced.current taskId other hget)]
  have hrec : RunRecorded toolId taskId (rows.foldl freeStep {}) := by
    refine ⟨hcur, fun _ finished hfin => ?_⟩
    cases hoth : finished.run with
    | none => exact .inl rfl
    | some other =>
      exact .inr (.inl (by rw [hmatched.2 other (htraced.finished taskId finished other hfin hoth)]))
  exact hrec.freeStep_eq hids.2 hids.1

lemma foldl_step_mergeBatches {batches}
    (h : (mergeBatches batches).truncated = false)
    (hkeeps : Along KeepsActivity batches.flatten) :
    (mergeBatches batches).events.foldl (step fullAt true) {} = batches.flatten.foldl (step fullAt true) {} := by
  have hlen := along_length batches.flatten
  have hholds : Along (fun rows event => KeepsActivity rows event ∧
      rows.length ≤ maxAgentEventsPerTurn) batches.flatten :=
    fun k hk => ⟨hkeeps k hk, hlen k hk⟩
  refine foldl_mergeBatches (fun table last event fused hfu => ?_)
    (fun rows event hholds hplc => ?_)
    (fun before previous after event merged target hholds hplc htarg haft hmrg => ?_)
    h hholds
  · obtain ⟨channel, lastText, nextText, fusedText, rfl, rfl, rfl, ht⟩ :=
      coalesceAgentTextEvents_eq_some_iff.1 hfu
    obtain ⟨hparent, -, rfl⟩ := coalesceTextEvents_eq_some_iff.1 ht
    cases channel with
    | childText | childReasoning => rfl
    | assistantText | reasoning =>
      simp only [step, observeForeground, TextChannel.event, startsRootForeground, hparent]
      by_cases hroot : nextText.parentToolId = none
      · simp only [hroot, decide_true, if_true]
      · simp only [hroot, decide_false, Bool.false_eq_true, if_false]
  · obtain ⟨⟨hran, -⟩, hle⟩ := hholds
    rw [maxAgentEventsPerTurn] at hle
    have hpush event :
        step fullAt true (rows.foldl (step fullAt true) {}) event = (rows.foldl freeStep {}).freeStep event := by
      have hconcat := foldl_step_full (rows ++ [event]) (by simp; omega)
      rwa [foldl_append, foldl_append] at hconcat
    rw [hpush, hpush]
    exact freeStep_placement hran hplc
  · obtain ⟨⟨-, hrevival⟩, hle⟩ := hholds
    rw [maxAgentEventsPerTurn, length_append, length_cons] at hle
    have hfree row :
        after.foldl (step fullAt true) (step fullAt true (before.foldl (step fullAt true) {}) row) =
          after.foldl freeStep ((before.foldl freeStep {}).freeStep row) := by
      have hspl := foldl_step_full (before ++ row :: after) (by simp; omega)
      rwa [foldl_append, foldl_append] at hspl
    have hpush : step fullAt true (after.foldl (step fullAt true)
          (step fullAt true (before.foldl (step fullAt true) {}) previous)) event =
        (after.foldl freeStep ((before.foldl freeStep {}).freeStep previous)).freeStep event := by
      have hspl := foldl_step_full (before ++ previous :: after ++ [event]) (by simp; omega)
      rwa [foldl_append, foldl_append, foldl_append, foldl_append] at hspl
    have hfin taskId : isFinished before taskId ↔
        (before.foldl freeStep {}).observed.get? taskId = some none := by
      rw [isFinished, foldl_step_full _ (by omega), decide_eq_true_iff]
    have hfin' taskId : isFinished (before ++ previous :: after) taskId ↔
        (after.foldl freeStep ((before.foldl freeStep {}).freeStep previous)).observed.get? taskId = some none := by
      rw [isFinished, foldl_step_full _ (by simp; omega), decide_eq_true_iff, foldl_append]
      rfl
    rw [hfree, hpush]
    have htraced := traced_foldl before
    obtain ⟨hsnap, -, -⟩ := placement_target htarg
    have hcases := placement_cases (before ++ previous :: after) event
    generalize (placement (before ++ previous :: after) event).1 = placed at hmrg hsnap hcases
    have hev : event = placed ∨ ∃ tick : SubagentEvent, event = .subagent tick ∧
        (tick.taskId = none ∨ tick.toolId = none) := by
      rcases hcases with hsame | ⟨_, _, -, -, -, tick, -, rfl, hid | hid⟩
      · exact .inl hsame.symm
      · exact .inr ⟨tick, rfl, .inl (AgentTurnSubagentIds.mk.inj hid).2⟩
      · exact .inr ⟨tick, rfl, .inr (AgentTurnSubagentIds.mk.inj hid).1⟩
    cases hmrg with
    | @backgroundTask previous next _ hmrg =>
      rcases hcases with rfl | ⟨_, _, hpl, -, -, tick, -, rfl, -⟩
      · cases hsnap with
        | backgroundTask =>
          refine foldl_backgroundTask_renewed htraced hmrg haft fun hpre => ?_
          exact (hfin' _).1 (hrevival _ rfl _ hplc ((hfin _).2 hpre))
      · cases hpl
    | subagent hmrg =>
      cases hsnap with
      | subagent => exact foldl_subagent_renewed htraced hmrg haft hev
    | subagentUsage | contextUsage =>
      rcases hev with rfl | ⟨tick, rfl, hmiss⟩
      · rfl
      · exact (freeStep_of_missing_id _ hmiss).symm

lemma projectAgentBackgroundActivity_congr {events events'}
    {processAlive eventsTruncated}
    (h : events.foldl (step fullAt processAlive) { truncated := processAlive && eventsTruncated } =
      events'.foldl (step fullAt processAlive) { truncated := processAlive && eventsTruncated }) :
    projectAgentBackgroundActivity events processAlive eventsTruncated =
      projectAgentBackgroundActivity events' processAlive eventsTruncated := by
  have hstl events : foregroundSettledBy
      (projectAgentBackgroundState events processAlive eventsTruncated).foreground .pending =
      (events.foldl (step fullAt processAlive)
        { truncated := processAlive && eventsTruncated }).foregroundSettled := by
    unfold projectAgentBackgroundState
    dsimp only
    by_cases hfst : (events.foldl (step fullAt processAlive)
        { truncated := processAlive && eventsTruncated }).foregroundSettled
    · rw [if_pos hfst, hfst]
      rfl
    · rw [if_neg hfst, Bool.eq_false_iff.2 hfst]
      split_ifs
      · rfl
      · split <;> rfl
  have htasks events :
      (projectAgentBackgroundState events processAlive eventsTruncated).tasks =
        (events.foldl (step fullAt processAlive) { truncated := processAlive && eventsTruncated }).tasks := rfl
  have htr events :
      (projectAgentBackgroundState events processAlive eventsTruncated).truncated =
        (events.foldl (step fullAt processAlive) { truncated := processAlive && eventsTruncated }).truncated := rfl
  unfold projectAgentBackgroundActivity resolveAgentBackgroundActivity
  simp only [hstl, htasks, htr, h]

/-- **The activity reads the rows as the stream**, where nothing was truncated and no tick was moved
before the revival of its task. -/
theorem projectAgentBackgroundActivity_mergeBatches {batches : List (List AgentTurnEvent)}
    (h : (mergeBatches batches).truncated = false)
    (hkeeps : Along KeepsActivity batches.flatten) :
    projectAgentBackgroundActivity (mergeBatches batches).events true false =
      projectAgentBackgroundActivity batches.flatten true false :=
  projectAgentBackgroundActivity_congr (foldl_step_mergeBatches h hkeeps)

def agentTask (status : BackgroundTaskStatus) (description : String) : AgentTurnEvent :=
  .backgroundTask
    { taskId := js "k1"
      status
      taskType := .agent
      description := some (js description) }

/-- A tick that names its task only. -/
def taskTick (taskId : String) : AgentTurnEvent :=
  .subagent { status := .running, taskId := some (js taskId) }

/-- The tool that is filled in ended the task without ever running it. -/
def filledTick : List (List AgentTurnEvent) :=
  [[agentTask .starting "a", subagentOf .completed "t1" "k1"],
    [taskTick "k1", agentTask .completed "a", subagentOf .running "t2" "k1"]]

/-- **A filled tick revives a task** that the stream leaves finished. -/
theorem filledTick_activity_ne :
    (mergeBatches filledTick).truncated = false ∧
      projectAgentBackgroundActivity (mergeBatches filledTick).events true false ≠
        projectAgentBackgroundActivity filledTick.flatten true false := by
  decide +kernel

/-- Ticks of a live task and of its subagent, one with its tool filled in. -/
theorem projectAgentBackgroundActivity_mergeBatches_of_ticks :
    let batches := [[agentTask .starting "a", subagentOf .running "t1" "k1", agentTask .running "b"],
      [taskTick "k1", toolCallOf "t2", agentTask .running "c", subagentOf .running "t1" "k1"]]
    projectAgentBackgroundActivity (mergeBatches batches).events true false =
      projectAgentBackgroundActivity batches.flatten true false :=
  projectAgentBackgroundActivity_mergeBatches (by decide +kernel) (by decide +kernel)

end CodevoEditor.Domain
