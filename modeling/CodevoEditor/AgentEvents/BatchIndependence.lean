/-
# Live retention in one batch or in many

A batch rebuilds the index from the rows that are left; one call over the whole stream keeps the
index it has.
-/

import CodevoEditor.AgentEvents.LiveRetention

namespace CodevoEditor.AgentEvents

open Js Window RetentionState List

variable {policy : AgentTurnEventRetentionPolicy}

/-- The batches of a stream one after the other, from nothing. -/
def retainBatches (policy : AgentTurnEventRetentionPolicy) (batches : List (List AgentTurnEvent)) :
    AgentTurnEventRetentionResult :=
  batches.foldl (fun result batch =>
    { events := (retainAgentTurnEvents policy result.events batch).events
      truncated := result.truncated || (retainAgentTurnEvents policy result.events batch).truncated }) ⟨[], false⟩

/-- Events on the plain list of rows. -/
def rowsFrom (policy : AgentTurnEventRetentionPolicy) (result : AgentTurnEventRetentionResult)
    (events : List AgentTurnEvent) : AgentTurnEventRetentionResult :=
  events.foldl (acceptRows policy (liveRow policy)) result

/-- Accepting `event` after `rows` evicts no row whose going clears a conflict
of one that stays. -/
def StepKeepsConflicts (policy : AgentTurnEventRetentionPolicy) (rows : List AgentTurnEvent)
    (event : AgentTurnEvent) : Prop :=
  ¬ (policy.maxBytes : ℤ) < policy.eventBytes event →
    EvictionsKeepConflicts policy (liveRow policy rows event).length (liveRow policy rows event)

instance (rows : List AgentTurnEvent) (event : AgentTurnEvent) : Decidable (StepKeepsConflicts policy rows event) :=
  inferInstanceAs (Decidable (_ → _))

/-- No event of the stream clears a conflict, when it comes to what is retained
of the events before it. -/
def KeepsConflicts (policy : AgentTurnEventRetentionPolicy) (stream : List AgentTurnEvent) : Prop :=
  ∀ k (h : k < stream.length), StepKeepsConflicts policy
    (retainAgentTurnEvents policy [] (stream.take k)).events stream[k]

instance (stream : List AgentTurnEvent) : Decidable (KeepsConflicts policy stream) :=
  inferInstanceAs (Decidable (∀ k (_ : k < stream.length), _))

/-- The condition along a run on rows. -/
def RowsKeepConflicts (policy : AgentTurnEventRetentionPolicy) (rows stream : List AgentTurnEvent) : Prop :=
  ∀ front event back, stream = front ++ event :: back →
    StepKeepsConflicts policy (rowsFrom policy ⟨rows, false⟩ front).events event

lemma rowsFrom_append (result)
    (events events') :
    rowsFrom policy result (events ++ events') =
      rowsFrom policy (rowsFrom policy result events) events' := foldl_append ..

lemma rowsFrom_truncated (rows) (truncated : Bool)
    (events) :
    rowsFrom policy ⟨rows, truncated⟩ events =
      { events := (rowsFrom policy ⟨rows, false⟩ events).events
        truncated := truncated || (rowsFrom policy ⟨rows, false⟩ events).truncated } := by
  induction events using List.reverseRecOn with
  | nil => simp [rowsFrom]
  | append_singleton events event ih =>
    rw [rowsFrom_append, rowsFrom_append, ih]
    show acceptRows policy (liveRow policy) _ event = _
    show _ = AgentTurnEventRetentionResult.mk
      (acceptRows policy (liveRow policy) _ event).events
      (truncated || (acceptRows policy (liveRow policy) _ event).truncated)
    unfold acceptRows
    split_ifs
    · rw [Bool.or_true]
    · rw [Bool.or_assoc]

variable {rows events' events : List AgentTurnEvent}

lemma RowsKeepConflicts.left (h : RowsKeepConflicts policy rows (events ++ events')) :
    RowsKeepConflicts policy rows events := fun front event back hspl =>
  h front event (back ++ events') (by rw [hspl]; simp)

lemma RowsKeepConflicts.right (h : RowsKeepConflicts policy rows (events ++ events')) :
    RowsKeepConflicts policy (rowsFrom policy ⟨rows, false⟩ events).events events' := by
  intro front event back hspl
  have := h (events ++ front) event back (by rw [hspl]; simp)
  rw [rowsFrom_append, rowsFrom_truncated (rowsFrom policy ⟨rows, false⟩ events).events] at this
  exact this

lemma liveRow_of_not_snapshot {event}
    (h : isAgentTurnSnapshotEvent event = false) (rows) :
    liveRow policy rows event = appendRow policy rows event := by
  have hplacement : placement rows event = (event, none) := by
    unfold placement
    unfold isAgentTurnSnapshotEvent at h
    cases hev : agentTurnEventSupersession event with
    | snapshot => rw [hev] at h; cases h
    | barrier | content => rfl
  rw [liveRow, appendRow, placeRow, hplacement]
  rfl

variable {batch : List AgentTurnEvent}

/-- **With an index.**  From settled rows the window follows the rows, and its
index knows them, while no conflict is cleared. -/
theorem retainState_create (hjoins : JoinsText policy) (hstl : Settled rows)
    (hkeeps : RowsKeepConflicts policy rows batch) :
    (retainState policy rows batch .create).Consistent policy ∧
      Indexed (retainState policy rows batch .create) ∧
      ⟨(retainState policy rows batch .create).liveEvents,
        (retainState policy rows batch .create).truncated⟩ = rowsFrom policy ⟨rows, false⟩ batch := by
  induction batch using List.reverseRecOn with
  | nil =>
    obtain ⟨hcons, -, htr, -⟩ := adopted_spec policy rows .create
    refine ⟨hcons, indexed_adopted hstl, ?_⟩
    show AgentTurnEventRetentionResult.mk (adopted policy rows .create).liveEvents
      (adopted policy rows .create).truncated = _
    rw [liveEvents_adopted, htr]
    rfl
  | append_singleton batch event ih =>
    obtain ⟨hcons, hidx, hres⟩ := ih hkeeps.left
    have hstep := hkeeps batch event [] (by simp)
    rw [← hres] at hstep
    rw [retainState_concat, rowsFrom_append, ← hres]
    generalize retainState policy rows batch .create = state at hcons hidx hstep
    obtain ⟨hcons', hres'⟩ := acceptEvent_spec hcons hjoins.keepsTail event
    have hlive := admitEvent_liveEvents hcons hidx event
    refine ⟨hcons', ?_, hres'.trans (acceptRows_congr hlive)⟩
    unfold acceptEvent
    split_ifs with hby
    · exact hidx
    · have hadm := admission_admitEvent policy state event
      refine indexed_enforceLimits (hadm.consistent hcons hjoins.keepsTail)
        (indexed_admission hadm hjoins hidx) ?_
      rw [hlive]
      exact hstep hby

/-- **Without an index.**  A batch without snapshots needs none. -/
theorem retainState_inert (hjoins : JoinsText policy) (rows)
    (hbatch : ∀ event ∈ batch, isAgentTurnSnapshotEvent event = false) :
    (retainState policy rows batch .inert).Consistent policy ∧
      (retainState policy rows batch .inert).snapshots = .inert ∧
      ⟨(retainState policy rows batch .inert).liveEvents,
        (retainState policy rows batch .inert).truncated⟩ = rowsFrom policy ⟨rows, false⟩ batch := by
  induction batch using List.reverseRecOn with
  | nil =>
    obtain ⟨hcons, -, htr, hsnaps⟩ := adopted_spec policy rows .inert
    refine ⟨hcons, hsnaps.trans ?_, ?_⟩
    · generalize rows.zipIdx = slots
      induction slots with
      | nil => rfl
      | cons slot slots ih => exact ih
    · show AgentTurnEventRetentionResult.mk (adopted policy rows .inert).liveEvents
        (adopted policy rows .inert).truncated = _
      rw [liveEvents_adopted, htr]
      rfl
  | append_singleton batch event ih =>
    obtain ⟨hcons, hinert, hres⟩ := ih fun event hev => hbatch event (mem_append_left _ hev)
    rw [retainState_concat, rowsFrom_append, ← hres]
    obtain ⟨hcons', hres'⟩ := acceptEvent_spec hcons hjoins.keepsTail event
    refine ⟨hcons',
      snapshots_acceptEvent_inert hcons hjoins.keepsTail hinert event,
      hres'.trans (acceptRows_congr ?_)⟩
    rw [liveRow_of_not_snapshot (hbatch event (by simp))]
    exact admitEvent_inert hcons hinert event

/-- **One batch is a run on the rows**, and leaves settled rows. -/
theorem retainAgentTurnEvents_eq_rowsFrom (hjoins : JoinsText policy) (hstl : Settled rows)
    (hkeeps : RowsKeepConflicts policy rows batch) :
    retainAgentTurnEvents policy rows batch = rowsFrom policy ⟨rows, false⟩ batch ∧
      Settled (rowsFrom policy ⟨rows, false⟩ batch).events := by
  obtain ⟨-, hidx, hres⟩ := retainState_create hjoins hstl hkeeps
  refine ⟨?_, ?_⟩
  · unfold retainAgentTurnEvents retain snapshotIndexFor
    by_cases hnil : batch = []
    · rw [if_pos hnil, hnil]; rfl
    split_ifs with hsnap
    · exact hres
    · refine (retainState_inert hjoins rows fun event hev => ?_).2.2
      by_contra hc
      exact hsnap (any_eq_true.2 ⟨event, hev, Bool.not_eq_false _ ▸ hc⟩)
  · rw [← hres]
    exact settled_of_indexed hidx

lemma settled_nil : Settled [] := fun before row after h => by simp at h

lemma rowsKeepConflicts_of_keepsConflicts (hjoins : JoinsText policy)
    {stream} (h : KeepsConflicts policy stream) :
    RowsKeepConflicts policy [] stream := by
  induction stream using List.reverseRecOn with
  | nil => exact fun front event back hspl => by simp at hspl
  | append_singleton stream event ih =>
    have hfr : KeepsConflicts policy stream := fun k hk => by
      have := h k (by rw [length_append]; exact Nat.lt_add_right _ hk)
      rwa [take_append_of_le_length hk.le, getElem_append_left hk] at this
    have hrows := ih hfr
    rintro front event' back hspl
    rcases split_concat hspl with ⟨back', -, hsplit'⟩ | ⟨-, rfl, rfl⟩
    · exact hrows front event' back' hsplit'
    · have := h front.length (by simp)
      rw [take_left, getElem_concat_length rfl,
        (retainAgentTurnEvents_eq_rowsFrom hjoins settled_nil hrows).1] at this
      exact this

/-- **Batch independence.**  When no event of the stream clears a conflict, the
stream cut into any batches leaves the events and the flag that it leaves in
one call. -/
theorem retainBatches_eq (hjoins : JoinsText policy) {batches : List (List AgentTurnEvent)}
    (hkeeps : KeepsConflicts policy batches.flatten) :
    retainBatches policy batches = retainAgentTurnEvents policy [] batches.flatten := by
  have hrows := rowsKeepConflicts_of_keepsConflicts hjoins hkeeps
  rw [(retainAgentTurnEvents_eq_rowsFrom hjoins settled_nil hrows).1]
  clear hkeeps
  induction batches using List.reverseRecOn with
  | nil => rfl
  | append_singleton batches batch ih =>
    rw [flatten_append, flatten_singleton] at hrows ⊢
    have hfront := ih hrows.left
    have hsettled := (retainAgentTurnEvents_eq_rowsFrom hjoins settled_nil hrows.left).2
    rw [retainBatches, foldl_append, foldl_cons, foldl_nil]
    rw [retainBatches] at hfront
    rw [hfront, (retainAgentTurnEvents_eq_rowsFrom hjoins hsettled hrows.right).1, rowsFrom_append]
    exact (rowsFrom_truncated _ _ batch).symm

/-- The policy of a turn with room for two events. -/
def twoEventPolicy : AgentTurnEventRetentionPolicy :=
  { turnEventRetentionPolicy with maxEvents := 2 }

lemma joinsText_twoEventPolicy : JoinsText twoEventPolicy :=
  ⟨joinsText_turnEventRetentionPolicy.1, joinsText_turnEventRetentionPolicy.2, joinsText_turnEventRetentionPolicy.3⟩

/-- An event of the subagent that tool call `toolId` started as `taskId`. -/
def subagentOf (status : AgentSubagentEventStatus) (toolId taskId : String) : AgentTurnEvent :=
  .subagent { status, toolId := some (js toolId), taskId := some (js taskId) }

/-- A call of a tool by the agent itself. -/
def toolCallOf (toolId : String) : AgentTurnEvent :=
  .toolCall { toolId := js toolId, name := js "Read", inputSummary := [] }

/-- The start of a task under tool `t1` makes the tick of another task under `t1` a conflict. -/
def clearedConflict : List (List AgentTurnEvent) :=
  [[subagentOf .starting "t1" "k1", subagentOf .running "t1" "k2", toolCallOf "t2"],
    [subagentOf .running "t1" "k2"]]

/-- **Batches part.**  One call forgets the first tick, two batches renew it. -/
theorem retainBatches_ne :
    retainBatches twoEventPolicy clearedConflict ≠
      retainAgentTurnEvents twoEventPolicy [] clearedConflict.flatten := by
  decide +kernel

theorem retainBatches_eq_of_one_task :
    retainBatches twoEventPolicy [[subagentOf .starting "t1" "k1", subagentOf .running "t1" "k1"],
        [toolCallOf "t2", toolCallOf "t3"]] =
      retainAgentTurnEvents twoEventPolicy [] [subagentOf .starting "t1" "k1",
        subagentOf .running "t1" "k1", toolCallOf "t2", toolCallOf "t3"] :=
  retainBatches_eq joinsText_twoEventPolicy (by decide +kernel)

end CodevoEditor.AgentEvents
