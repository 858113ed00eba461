/-
# Runs that report nothing truncated

When no batch reports `truncated`, the turn is `liveRow` event by event whatever the batches.
-/

import CodevoEditor.AgentEvents.PersistenceFixpoint

namespace CodevoEditor.AgentEvents

open Js Window RetentionState List Option

variable {policy : AgentTurnEventRetentionPolicy}

lemma acceptRows_of_not_truncated
    {enter : List AgentTurnEvent → AgentTurnEvent → List AgentTurnEvent}
    {result} {event}
    (h : (acceptRows policy enter result event).truncated = false) :
    result.truncated = false ∧ ¬ (policy.maxBytes : ℤ) < policy.eventBytes event ∧
      overLimits policy (enter result.events event) = false ∧
      (acceptRows policy enter result event).events = enter result.events event := by
  unfold acceptRows at h ⊢
  split_ifs at h ⊢ with hby
  obtain ⟨htr, hover⟩ := Bool.or_eq_false_iff.1 h
  exact ⟨htr, hby, hover, shrink_of_not_over hover⟩

variable {rows : List AgentTurnEvent}

lemma evictionsKeepConflicts_of_not_over (h : overLimits policy rows = false) (fuel : ℕ) :
    EvictionsKeepConflicts policy fuel rows := by
  cases fuel with
  | zero => exact trivial
  | succ fuel => exact fun hover => absurd hover (by simp [h])

lemma rowsFrom_of_not_truncated {stream}
    (h : (rowsFrom policy ⟨rows, false⟩ stream).truncated = false) :
    (rowsFrom policy ⟨rows, false⟩ stream).events = stream.foldl (liveRow policy) rows ∧
      RowsKeepConflicts policy rows stream := by
  induction stream using List.reverseRecOn with
  | nil => exact ⟨rfl, fun front event back hspl => by simp at hspl⟩
  | append_singleton stream event ih =>
    rw [rowsFrom_append] at h ⊢
    obtain ⟨htr, hby, hover, hevs⟩ := acceptRows_of_not_truncated h
    obtain ⟨hrows, hkeeps⟩ := ih htr
    refine ⟨?_, fun front event' back hspl => ?_⟩
    · rw [foldl_append, ← hrows]
      exact hevs
    · rcases split_concat hspl with ⟨back', -, hsplit'⟩ | ⟨-, rfl, rfl⟩
      · exact hkeeps front event' back' hsplit'
      · exact fun _ => evictionsKeepConflicts_of_not_over hover _

lemma retain_of_not_truncated (hjoins : JoinsText policy) {batch}
    (hstl : Settled rows) (h : (retainAgentTurnEvents policy rows batch).truncated = false) :
    (rowsFrom policy ⟨rows, false⟩ batch).truncated = false ∧
      (retainAgentTurnEvents policy rows batch).events = batch.foldl (liveRow policy) rows ∧
      Settled (batch.foldl (liveRow policy) rows) := by
  suffices hrun : (rowsFrom policy ⟨rows, false⟩ batch).truncated = false by
    obtain ⟨hrows, hkeeps⟩ := rowsFrom_of_not_truncated hrun
    obtain ⟨heq, hsettled'⟩ := retainAgentTurnEvents_eq_rowsFrom hjoins hstl hkeeps
    rw [hrows] at hsettled'
    exact ⟨hrun, by rw [heq, hrows], hsettled'⟩
  unfold retainAgentTurnEvents retain snapshotIndexFor at h
  by_cases hnil : batch = []
  · rw [hnil]; rfl
  split_ifs at h with hsnap
  · clear hnil hsnap
    -- with an index, each event in turn
    suffices (rowsFrom policy ⟨rows, false⟩ batch).truncated = false from this
    induction batch using List.reverseRecOn with
    | nil => rfl
    | append_singleton batch event ih =>
      rw [retainState_concat] at h
      have hcons := consistent_retainState hjoins.keepsTail rows batch .create
      have hspec := (acceptEvent_spec hcons hjoins.keepsTail event).2
      have hflag := congrArg AgentTurnEventRetentionResult.truncated hspec
      rw [h] at hflag
      obtain ⟨htr, hby, hover, -⟩ := acceptRows_of_not_truncated hflag.symm
      have hrun := ih htr
      obtain ⟨-, hkeeps⟩ := rowsFrom_of_not_truncated hrun
      obtain ⟨-, hidx, hres⟩ := retainState_create hjoins hstl hkeeps
      rw [rowsFrom_append, ← hres]
      show (acceptRows policy (liveRow policy) _ event).truncated = false
      rw [acceptRows, if_neg hby]
      rw [htr, ← admitEvent_liveEvents hcons hidx, hover]
      rfl
  · refine (congrArg AgentTurnEventRetentionResult.truncated
      (retainState_inert hjoins rows fun event hev => ?_).2.2).symm.trans h
    by_contra hc
    exact hsnap (any_eq_true.2 ⟨event, hev, Bool.not_eq_false _ ▸ hc⟩)

variable {batches : List (List AgentTurnEvent)}

/-- **A turn that reports nothing.**  It is the run on rows, event by event, and
so is what one call retains of the events so far. -/
theorem mergeBatches_of_not_truncated (h : (mergeBatches batches).truncated = false) :
    (mergeBatches batches).events =
        batches.flatten.foldl (liveRow turnEventRetentionPolicy) [] ∧
      ∀ front, front <+: batches.flatten → (mergeTurnEvents [] front).events =
        front.foldl (liveRow turnEventRetentionPolicy) [] := by
  suffices hrun : (rowsFrom turnEventRetentionPolicy ⟨[], false⟩ batches.flatten).truncated =
      false ∧ (mergeBatches batches).events = batches.flatten.foldl (liveRow turnEventRetentionPolicy) [] ∧
      Settled (mergeBatches batches).events by
    refine ⟨hrun.2.1, ?_⟩
    rintro front ⟨back, hspl⟩
    have hfr : (rowsFrom turnEventRetentionPolicy ⟨[], false⟩ front).truncated = false := by
      rw [← hspl, rowsFrom_append, rowsFrom_truncated] at hrun
      exact (Bool.or_eq_false_iff.1 hrun.1).1
    obtain ⟨hrows, hkeeps⟩ := rowsFrom_of_not_truncated hfr
    exact hrows ▸ congrArg AgentTurnEventRetentionResult.events
      (retainAgentTurnEvents_eq_rowsFrom joinsText_turnEventRetentionPolicy settled_nil hkeeps).1
  induction batches using List.reverseRecOn with
  | nil => exact ⟨rfl, rfl, settled_nil⟩
  | append_singleton batches batch ih =>
    rw [mergeBatches, foldl_append] at h ⊢
    obtain ⟨hfr, hbatch⟩ := Bool.or_eq_false_iff.1 h
    obtain ⟨hrun, hrows, hstl⟩ := ih hfr
    obtain ⟨hbatchRun, hevs, hsettled'⟩ :=
      retain_of_not_truncated joinsText_turnEventRetentionPolicy hstl hbatch
    rw [flatten_append, flatten_singleton, foldl_append, ← hrows, rowsFrom_append]
    refine ⟨?_, hevs, hevs ▸ hsettled'⟩
    have hst : rowsFrom turnEventRetentionPolicy ⟨[], false⟩ batches.flatten =
        ⟨(mergeBatches batches).events, false⟩ := by
      rw [hrows, ← (rowsFrom_of_not_truncated hrun).1]
      generalize rowsFrom turnEventRetentionPolicy ⟨[], false⟩ batches.flatten = result at hrun ⊢
      exact congrArg (AgentTurnEventRetentionResult.mk result.events) hrun
    rw [hst]
    exact hbatchRun

/-- The place of the row that `event` renews: the rows before it, the row and
the rows after it. -/
def renewal (rows : List AgentTurnEvent) (event : AgentTurnEvent) :
    Option (List AgentTurnEvent × AgentTurnEvent × List AgentTurnEvent) :=
  (placement rows event).2.bind fun target =>
    if rows.getLast?.any isAgentTurnCoalescibleTextEvent then none
    else (lastTouched (touches target) rows).filter fun place =>
      (mergeSupersededAgentTurnEvent place.2.1 (placement rows event).1).isSome

/-- What one event does to the rows. -/
inductive RowStep (rows : List AgentTurnEvent) (event : AgentTurnEvent) :
    List AgentTurnEvent → Prop
  | joined {before : List AgentTurnEvent} {last fused : AgentTurnEvent}
      (hrows : rows = before ++ [last]) (hfused : coalesceAgentTextEvents last event = some fused) :
      RowStep rows event (before ++ [fused])
  | renewed {before after : List AgentTurnEvent} {previous merged : AgentTurnEvent}
      {target : AgentTurnSnapshotTarget} (hplace : renewal rows event = some (before, previous, after))
      (htail : ∀ last, rows.getLast? = some last → isAgentTurnCoalescibleTextEvent last = false)
      (htarg : (placement rows event).2 = some target)
      (hrows : rows = before ++ previous :: after)
      (hafter : ∀ row ∈ after, touches target row = false)
      (hmerged : Supersedes previous (placement rows event).1 merged) :
      RowStep rows event (before ++ merged :: after)
  | appended (hplace : renewal rows event = none)
      (hparted : ∀ last, rows.getLast? = some last → Parted last event) :
      RowStep rows event (rows ++ [(placement rows event).1])

lemma rowStep_liveRow (rows) (event) : RowStep rows event (liveRow turnEventRetentionPolicy rows event) := by
  unfold liveRow
  cases hcoal : coalesceIntoLast turnEventRetentionPolicy rows event with
  | some fused =>
    unfold coalesceIntoLast at hcoal
    cases hlast : rows.getLast? with
    | none => rw [hlast] at hcoal; cases hcoal
    | some last =>
      rw [hlast] at hcoal
      obtain ⟨fused, hfu, rfl⟩ := map_eq_some_iff.1 hcoal
      exact .joined (dropLast_append_getLast? last hlast).symm hfu
  | none =>
    have hparted : ∀ last, rows.getLast? = some last → Parted last event := by
      intro last hlast
      rw [coalesceIntoLast, hlast] at hcoal
      exact map_eq_none_iff.1 hcoal
    unfold placeRow
    cases hrow : (placement rows event).2.bind fun target =>
        supersedeRow rows target (placement rows event).1 with
    | none =>
      refine .appended (eq_none_iff_forall_not_mem.2 fun place hplc => ?_) hparted
      obtain ⟨target, htarg, hspl⟩ := bind_eq_some_iff.1 hplc
      split_ifs at hspl with htail
      obtain ⟨htouched, hmerges⟩ := filter_eq_some_iff.1 hspl
      obtain ⟨before, previous, after⟩ := place
      obtain ⟨hrows, hprev, haft⟩ := lastTouched_eq_some_iff.1 htouched
      obtain ⟨merged, hmrg⟩ := isSome_iff_exists.1 hmerges
      rw [htarg, bind_some, supersedeRow, if_neg htail,
        replaceLast_eq_some_iff.2 ⟨before, previous, after, merged, hrows, hprev, haft, hmrg, rfl⟩] at hrow
      cases hrow
    | some renewed =>
      obtain ⟨target, htarg, hsupersede⟩ := bind_eq_some_iff.1 hrow
      unfold supersedeRow at hsupersede
      split_ifs at hsupersede with htail
      obtain ⟨before, previous, after, merged, hrows, hprev, haft, hmrg, rfl⟩ :=
        replaceLast_eq_some_iff.1 hsupersede
      refine .renewed ?_ (fun last hlast => ?_) htarg hrows haft (mergeSuperseded_eq_some_iff.1 hmrg)
      · rw [renewal, htarg, bind_some, if_neg htail]
        refine filter_eq_some_iff.2 ⟨lastTouched_eq_some_iff.2 ⟨hrows, hprev, haft⟩, ?_⟩
        rw [hmrg]
        rfl
      · rw [hlast] at htail
        exact Bool.eq_false_iff.2 htail

/-- `holds` of every event of the stream, when it comes to the rows retained of
the events before it. -/
def Along (holds : List AgentTurnEvent → AgentTurnEvent → Prop) (stream : List AgentTurnEvent) : Prop :=
  ∀ k (h : k < stream.length), holds (mergeTurnEvents [] (stream.take k)).events stream[k]

instance {holds : List AgentTurnEvent → AgentTurnEvent → Prop}
    [∀ rows event, Decidable (holds rows event)] (stream : List AgentTurnEvent) :
    Decidable (Along holds stream) :=
  inferInstanceAs (Decidable (∀ k (_ : k < stream.length), _))

lemma along_length (stream) :
    Along (fun rows _ => rows.length ≤ maxAgentEventsPerTurn) stream := fun k _ =>
  (overLimits_eq_false_iff.1 (persistable_mergeTurnEvents ⟨isChain_nil, overLimits_nil⟩ (stream.take k)).2).1

variable {P : List AgentTurnEvent → List AgentTurnEvent → Prop}
    {holds : List AgentTurnEvent → AgentTurnEvent → Prop}

/-- **Induction over a run that reports nothing**, along which `holds`. -/
theorem untruncated_induct_along (hnil : P [] [])
    (hstep : ∀ stream rows event rows', P stream rows → holds rows event → RowStep rows event rows' →
      P (stream ++ [event]) rows')
    (h : (mergeBatches batches).truncated = false) (hholds : Along holds batches.flatten) :
    P batches.flatten (mergeBatches batches).events := by
  obtain ⟨hevs, hfronts⟩ := mergeBatches_of_not_truncated h
  rw [hevs]
  suffices ∀ front, front <+: batches.flatten →
      P front (front.foldl (liveRow turnEventRetentionPolicy) []) from this _ prefix_rfl
  intro front hfr
  induction front using List.reverseRecOn with
  | nil => exact hnil
  | append_singleton front event ih =>
    have hpre := (prefix_append front [event]).trans hfr
    rw [foldl_append]
    refine hstep _ _ _ _ (ih hpre) ?_ (rowStep_liveRow _ event)
    rw [← hfronts front hpre]
    obtain ⟨back, hback⟩ := hfr
    have hlt : front.length < batches.flatten.length := by
      rw [← hback]; simp
    have := hholds front.length hlt
    simp only [← hback, append_assoc, take_left, singleton_append,
      getElem_append_right le_rfl, Nat.sub_self, getElem_cons_zero] at this
    exact this

lemma untruncated_induct (hnil : P [] [])
    (hstep : ∀ stream rows event rows', P stream rows → RowStep rows event rows' → P (stream ++ [event]) rows')
    (h : (mergeBatches batches).truncated = false) :
    P batches.flatten (mergeBatches batches).events := by
  have hholds : Along (fun _ _ => True) batches.flatten := fun _ _ => trivial
  exact untruncated_induct_along hnil
    (fun stream rows event rows' ih _ hrow => hstep stream rows event rows' ih hrow) h hholds

/-- A placed event is the event, or a running tick with one id that gets the
other from a link of the rows. -/
lemma placement_cases (rows) (event) :
    (placement rows event).1 = event ∨ ∃ toolId taskId,
      (placement rows event).1 = withAgentTurnSubagentIds event ⟨some toolId, some taskId⟩ ∧
        linkCount rows toolId taskId ≠ 0 ∧ Matched (linkCount rows) toolId taskId ∧
        ∃ tick : SubagentEvent, tick.status = .running ∧ event = .subagent tick ∧
          (subagentIds tick = ⟨some toolId, none⟩ ∨ subagentIds tick = ⟨none, some taskId⟩) := by
  unfold placement
  cases hev : agentTurnEventSupersession event with
  | barrier | content => exact .inl rfl
  | snapshot target =>
    cases target with
    | identity => exact .inl rfl
    | subagentIds ids =>
      dsimp only
      split_ifs with hc
      · have hsnap := supersession_eq_snapshot_iff.1 hev
        cases hsnap with
        | @subagent tick hruns _ =>
          by_cases hids : (resolveAmong rows (subagentIds tick)).ids = subagentIds tick
          · refine .inl ?_
            rw [hids]
            simp [withAgentTurnSubagentIds, subagentIds]
          · obtain ⟨toolId, taskId, hpair, hlink, hmatched, hid⟩ :=
              (resolves_among rows (subagentIds tick)).link_of_ne hids
            refine .inr ⟨toolId, taskId, ?_, hlink, hmatched, tick, hruns, rfl, hid⟩
            rw [hpair]
      · exact .inl rfl

/-- **Reading the rows as the stream**: a reader comes to the same from both when joined text reads
as its parts and a renewed row as the row it was. -/
theorem foldl_mergeBatches {σ : Type*} {step : σ → AgentTurnEvent → σ} {start}
    (hjoin : ∀ state last event fused, coalesceAgentTextEvents last event = some fused →
      step state fused = step (step state last) event)
    (happended : ∀ rows event, holds rows event → renewal rows event = none →
      step (rows.foldl step start) (placement rows event).1 = step (rows.foldl step start) event)
    (hrenew : ∀ before previous after event merged target, holds (before ++ previous :: after) event →
      renewal (before ++ previous :: after) event = some (before, previous, after) →
      (placement (before ++ previous :: after) event).2 = some target →
      (∀ row ∈ after, touches target row = false) → Supersedes previous (placement (before ++ previous :: after)
      event).1 merged → after.foldl step (step (before.foldl step start) merged) = step (after.foldl step (step
      (before.foldl step start) previous)) event)
    (h : (mergeBatches batches).truncated = false) (hholds : Along holds batches.flatten) :
    (mergeBatches batches).events.foldl step start = batches.flatten.foldl step start := by
  refine untruncated_induct_along
    (P := fun stream rows => rows.foldl step start = stream.foldl step start) rfl
    (fun stream rows event rows' ih hev hstep => ?_) h hholds
  rw [foldl_append, ← ih]
  rcases hstep with ⟨rfl, hfu⟩ | ⟨hplc, -, htarg, rfl, haft, hmrg⟩ | ⟨hplc, -⟩
  · rw [foldl_append, foldl_append]
    exact hjoin _ _ _ _ hfu
  · rw [foldl_append, foldl_append]
    exact hrenew _ _ _ _ _ _ hev hplc htarg haft hmrg
  · rw [foldl_append]
    exact happended rows event hev hplc

end CodevoEditor.AgentEvents
