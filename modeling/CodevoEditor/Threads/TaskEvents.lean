/-
# Events of tasks are applied once, in order

The status and the output of a task come in two streams of numbered events, each of which may be
repeated and out of order.
-/

import CodevoEditor.Threads.Runs

namespace CodevoEditor.Threads

open Js AgentEvents AgentOutput List Option OrderedMap

variable {localeCompare : JsString → JsString → Ordering} {state : AgentThreadsState}

inductive TaskStream
  | status
  | output

/-- What an event of a task says of itself. -/
structure TaskEvent where
  stream : TaskStream
  threadId : JsString
  turnId : JsString
  sequence : ℤ

def AgentThreadsAction.taskEvent? : AgentThreadsAction → Option TaskEvent
  | .taskStatusEvent threadId event _ => some ⟨.status, threadId, event.taskId, event.sequence⟩
  | .turnEventsAppended action =>
      some ⟨.output, action.threadId, action.turnId, action.outputSequence⟩
  | _ => none

def AgentTurn.lastSequence (turn : AgentTurn) : TaskStream → ℤ
  | .status => turn.lastStatusSequence
  | .output => turn.lastOutputSequence

/-- The turn to which the events of a task go. -/
def turnOf (state : AgentThreadsState) (threadId turnId : JsString) : Option AgentTurn :=
  (findTurnInThread state threadId turnId).map (·.turn)

/-- Whether the store takes an event of a task. -/
def acceptsTaskEvent (state : AgentThreadsState) : AgentThreadsAction → Bool
  | .taskStatusEvent threadId event _ => (acceptedTaskStatusLocation state threadId event).isSome
  | .turnEventsAppended action => (acceptedOutputLocation state action).isSome
  | _ => true

/-- The actions that the store takes, each when it comes. -/
def acceptedTaskEvents (localeCompare : JsString → JsString → Ordering)
    (state : AgentThreadsState) : List AgentThreadsAction → List AgentThreadsAction
  | [] => []
  | action :: actions =>
      if acceptsTaskEvent state action then
        action :: acceptedTaskEvents localeCompare (agentThreadsReducer localeCompare state action) actions
      else acceptedTaskEvents localeCompare state actions

lemma SameTurn.trans {first second third} (h : SameTurn first second)
    (h' : SameTurn second third) : SameTurn first third := by
  refine ⟨h'.turnId.trans h.turnId, fun hstl => ?_,
    h.statusSequence.trans h'.statusSequence, h.outputSequence.trans h'.outputSequence⟩
  have hsame := h.status hstl
  rw [← hsame] at hstl ⊢
  exact h'.status hstl

variable {old new : AgentTurn}

lemma SameTurn.lastSequence (h : SameTurn old new) (stream) : old.lastSequence stream ≤ new.lastSequence stream := by
  cases stream with
  | status => exact h.statusSequence
  | output => exact h.outputSequence

variable {α : Type*}

lemma getElem?_findIdx (test : α → Bool) (items : List α) : items[items.findIdx test]? = items.find? test := by
  induction items with
  | nil => rfl
  | cons item items ih =>
    rw [findIdx_cons, find?_cons]
    cases test item with
    | true => rfl
    | false => exact ih

lemma AgentThread.locate_turn (thread : AgentThread) (turnId : JsString) :
    (thread.locate turnId).map (·.turn) = thread.turns.find? fun turn => turn.turnId = turnId := by
  unfold AgentThread.locate
  rw [Option.map_map, getElem?_findIdx]
  exact congrFun map_id _

lemma turnOf_eq (state) (threadId turnId : JsString) :
    turnOf state threadId turnId = (state.threads.get? threadId).bind fun thread =>
      thread.turns.find? fun turn => turn.turnId = turnId := by
  unfold turnOf findTurnInThread
  rw [map_bind]
  congr 1
  funext thread
  exact thread.locate_turn turnId

lemma find?_sameTurn {olds news} (h : List.Forall₂ SameTurn olds news)
    (turnId : JsString) :
    Option.Rel SameTurn (olds.find? fun turn => turn.turnId = turnId)
      (news.find? fun turn => turn.turnId = turnId) := by
  induction h with
  | nil => exact .none
  | @cons old new olds news hturn _ ih =>
    rw [find?_cons, find?_cons, hturn.turnId]
    cases decide (old.turnId = turnId) with
    | true => exact .some hturn
    | false => exact ih

variable {turn : AgentTurn} {threadId turnId : JsString}

lemma turnOf_spec (h : turnOf state threadId turnId = some turn) :
    turn.turnId = turnId ∧ ∃ thread, state.threads.get? threadId = some thread ∧ turn ∈ thread.turns := by
  rw [turnOf_eq] at h
  obtain ⟨thread, hthr, hfind⟩ := bind_eq_some_iff.1 h
  have hid : turn.turnId = turnId := by simpa using find?_some hfind
  exact ⟨hid, thread, hthr, mem_of_find?_eq_some hfind⟩

variable {next : AgentThreadsState}

/-- **A turn that is brought up to date** keeps its end and does not go back. -/
theorem turnOf_update
    (h : ∀ threadId, Option.Rel SameThread (state.threads.get? threadId) (next.threads.get? threadId))
    (threadId turnId : JsString) :
    Option.Rel SameTurn (turnOf state threadId turnId) (turnOf next threadId turnId) := by
  rw [turnOf_eq, turnOf_eq]
  have hrel := h threadId
  generalize state.threads.get? threadId = old at hrel ⊢
  generalize next.threads.get? threadId = new at hrel ⊢
  cases hrel with
  | none => exact .none
  | some hsame => exact find?_sameTurn hsame.turns turnId

/-- In a thread no two turns share an id. -/
def TurnIdsNodup (state : AgentThreadsState) : Prop :=
  ∀ threadId thread, state.threads.get? threadId = some thread → (thread.turns.map (·.turnId)).Nodup

variable {supplied : List AgentThread}

lemma StoreStep.turnIdsNodup (h : StoreStep supplied state next) (hstate : TurnIdsNodup state)
    (hsupp : ∀ thread ∈ supplied, (thread.turns.map (·.turnId)).Nodup) :
    TurnIdsNodup next := by
  intro threadId thread hthr
  cases h with
  | update h =>
    have hrel := h threadId
    rw [hthr] at hrel
    generalize hold : state.threads.get? threadId = before at hrel
    cases hrel with
    | some hsame =>
      rw [hsame.taken.map_turnId]
      exact hstate threadId _ hold
  | remove h => exact hstate threadId thread ((h threadId).of_some hthr)
  | @place old placed turn front back hold hfresh hpl hnext =>
    rw [hnext, replaceThread, get?_set] at hthr
    split_ifs at hthr with hid
    · cases hthr
      exact hpl.turnIds (hstate _ _ hold) (hfresh _ _ hold)
    · exact hstate threadId thread hthr
  | @insert source inserted hsource htkn hnew hoths hself hfresh =>
    by_cases hid : threadId = inserted.threadId
    · rw [hid] at hthr
      rcases hself with hself | ⟨hself, -⟩
      · rw [hself] at hthr
        cases hthr
        rw [htkn.map_turnId]
        exact hsupp source hsource
      · rw [hself] at hthr
        cases hthr
    · exact hstate threadId thread ((hoths threadId hid).of_some hthr)

lemma run_turnIdsNodup (actions)
    (hsupp : ∀ action ∈ actions, ∀ thread ∈ action.supplied,
      (thread.turns.map (·.turnId)).Nodup) : TurnIdsNodup (run localeCompare actions) := by
  induction actions using List.reverseRecOn with
  | nil => rintro threadId thread ⟨⟩
  | append_singleton actions action ih =>
    have hstate : TurnIdsNodup (run localeCompare actions) :=
      ih fun other hoth => hsupp other (mem_append_left _ hoth)
    have hths : ∀ thread ∈ action.supplied, (thread.turns.map (·.turnId)).Nodup :=
      hsupp action (mem_append_right _ mem_cons_self)
    have hkey : Keyed (run localeCompare actions).threads := run_keyed actions
    rw [run_concat]
    by_cases hload : action.isLoaded
    · cases action with
      | loaded owner loaded retainedThreadIds =>
        intro threadId thread hthr
        rcases (loadThreads_get? hkey owner loaded retainedThreadIds threadId thread).2 hthr
          with hold | ⟨source, hsource, -, rfl⟩
        · exact hstate threadId thread hold
        · rw [(storedThread_taken source).map_turnId]
          exact hths source hsource
      | _ => cases hload
    · rw [Bool.not_eq_true] at hload
      exact (agentThreadsReducer_step localeCompare hkey action hload).turnIdsNodup hstate hths

/-- **A step keeps how a turn that stays has ended**, and its sequences do not go down. -/
theorem StoreStep.sameTurn (h : StoreStep supplied state next) (hnd : TurnIdsNodup state)
    (hold : turnOf state threadId turnId = some old) (hnew : turnOf next threadId turnId = some new) :
    SameTurn old new := by
  obtain ⟨hid, thread, hthr, hmem⟩ := turnOf_spec hold
  obtain ⟨hid', thread', hthread', hmem'⟩ := turnOf_spec hnew
  -- A turn that is in the thread before and after is the same one.
  have hsame (hmem' : new ∈ thread.turns) : SameTurn old new := by
    have heq : old = new := inj_on_of_nodup_map (hnd threadId thread hthr) hmem hmem' (hid.trans hid'.symm)
    exact heq ▸ .refl old
  cases h with
  | update h =>
    have hrel := turnOf_update h threadId turnId
    rw [hold, hnew] at hrel
    cases hrel with
    | some hturn => exact hturn
  | remove h =>
    have heq := (h threadId).of_some hthread'
    rw [hthr] at heq
    cases heq
    exact hsame hmem'
  | @place before placed turn front back hpre hfresh hpl hnext =>
    rw [hnext, replaceThread, get?_set, hpl.threadId] at hthread'
    split_ifs at hthread' with hself
    · cases hthread'
      rw [hself, hpre] at hthr
      cases hthr
      rw [hpl.turns] at hmem'
      have hne : new ≠ turn := by
        rintro rfl
        exact hfresh _ _ hpre old hmem (hid.trans hid'.symm)
      refine hsame (hpl.kept.subset ?_)
      rw [mem_append, mem_cons] at hmem'
      rw [mem_append]
      exact hmem'.imp_right fun h => h.resolve_left hne
    · rw [hthr] at hthread'
      cases hthread'
      exact hsame hmem'
  | @insert source inserted hsource htkn hfree hoths hself hfresh =>
    have hne : threadId ≠ inserted.threadId := by
      rintro rfl
      rw [hfree] at hthr
      cases hthr
    have heq := (hoths threadId hne).of_some hthread'
    rw [hthr] at heq
    cases heq
    exact hsame hmem'

/-- **A turn that stays through a run without loads** keeps how it has ended, and its
sequences do not go down. -/
theorem run_append_sameTurn (actions later)
    (hsupp : ∀ action ∈ actions ++ later, ∀ thread ∈ action.supplied, (thread.turns.map (·.turnId)).Nodup)
    (hlat : ∀ action ∈ later, action.isLoaded = false)
    (hstays : ∀ front, front <+: later → (turnOf (run localeCompare (actions ++ front)) threadId turnId).isSome) :
    Option.Rel SameTurn (turnOf (run localeCompare actions) threadId turnId)
      (turnOf (run localeCompare (actions ++ later)) threadId turnId) := by
  induction later using List.reverseRecOn with
  | nil =>
    rw [append_nil]
    cases turnOf (run localeCompare actions) threadId turnId with
    | none => exact .none
    | some turn => exact .some (.refl turn)
  | append_singleton later action ih =>
    rw [← append_assoc] at hsupp
    have hpre := ih
      (fun other hoth => hsupp other (mem_append_left _ hoth))
      (fun other hoth => hlat other (mem_append_left _ hoth))
      (fun front hfr => hstays front (hfr.trans (prefix_append ..)))
    have hold := hstays later (prefix_append ..)
    have hnew := hstays (later ++ [action]) (prefix_refl _)
    obtain ⟨old, hold⟩ := isSome_iff_exists.1 hold
    obtain ⟨new, hnew⟩ := isSome_iff_exists.1 hnew
    rw [hold] at hpre
    rw [hnew]
    rw [← append_assoc, run_concat] at hnew
    have hnd : TurnIdsNodup (run localeCompare (actions ++ later)) :=
      run_turnIdsNodup _ fun other hoth => hsupp other (mem_append_left _ hoth)
    have hkey : Keyed (run localeCompare (actions ++ later)).threads := run_keyed _
    have hstep := agentThreadsReducer_step localeCompare hkey action
      (hlat action (mem_append_right _ mem_cons_self))
    have hsame := hstep.sameTurn hnd hold hnew
    generalize turnOf (run localeCompare actions) threadId turnId = first at hpre ⊢
    cases hpre with
    | some hfst => exact .some (hfst.trans hsame)

lemma find?_set_findIdx {test : α → Bool} {items : List α} {item : α}
    (hlt : items.findIdx test < items.length) (hitem : test item) :
    (items.set (items.findIdx test) item).find? test = some item := by
  induction items with
  | nil => simp at hlt
  | cons first items ih =>
    rw [findIdx_cons] at hlt ⊢
    cases hfst : test first with
    | true =>
      rw [cond_true, set_cons_zero, find?_cons, hitem]
    | false =>
      rw [hfst, cond_false, length_cons] at hlt
      rw [cond_false, set_cons_succ, find?_cons, hfst]
      exact ih (by omega)

variable {location : TurnLocation}

lemma turnOf_replaceThread (hkey : Keyed state.threads)
    (h : findTurnInThread state threadId turnId = some location) (hid : turn.turnId = turnId)
    {next : AgentThread} (hthr : next.threadId = location.thread.threadId)
    (htrn : next.turns = (location.replaced turn).turns) :
    turnOf (replaceThread state next) threadId turnId = some turn := by
  obtain ⟨thread, hget, hlocate⟩ := bind_eq_some_iff.1 h
  obtain ⟨found, hfound, rfl⟩ := map_eq_some_iff.1 hlocate
  rw [turnOf_eq, replaceThread, get?_set, hthr, hkey _ _ hget, if_pos rfl, bind_some, htrn]
  exact find?_set_findIdx (List.getElem?_eq_some_iff.1 hfound).1 (decide_eq_true hid)

/-- What an event does that is taken. -/
structure Applied (state next : AgentThreadsState) (event : TaskEvent) : Prop where
  fresh : ∀ turn ∈ turnOf state event.threadId event.turnId,
    isTerminalAgentTurnStatus turn.status = false ∧ turn.lastSequence event.stream < event.sequence
  update : ∀ threadId, Option.Rel SameThread (state.threads.get? threadId) (next.threads.get? threadId)
  recorded : ∃ turn, turnOf next event.threadId event.turnId = some turn ∧
    turn.lastSequence event.stream = event.sequence

lemma Applied.of_replaceThread (hkey : Keyed state.threads) (event)
    (h : findTurnInThread state event.threadId event.turnId = some location)
    (hrun : isTerminalAgentTurnStatus location.turn.status = false)
    (hnew : location.turn.lastSequence event.stream < event.sequence)
    (hturn : SameTurn location.turn turn)
    (hrec : turn.lastSequence event.stream = event.sequence) {next}
    (hthr : next.threadId = location.thread.threadId)
    (htrn : next.turns = (location.replaced turn).turns)
    (harchd : next.archived = location.thread.archived) :
    Applied state (replaceThread state next) event := by
  obtain ⟨hat, -, hid⟩ := findTurnInThread_at hkey h
  have hsame : SameThread location.thread next :=
    ⟨hthr, htrn ▸ (hat.sameThread hturn).turns, fun harch => .inl (harchd ▸ harch)⟩
  refine ⟨?_, hsame.replaceThread hat.thread rfl, turn, ?_, hrec⟩
  · intro found hget
    rw [turnOf, h] at hget
    cases hget
    exact ⟨hrun, hnew⟩
  · exact turnOf_replaceThread hkey h (hturn.turnId.trans hid) hthr htrn

variable {action : AgentThreadsAction} {event : TaskEvent}

/-- **An event that is taken is applied** to the turn of its task. -/
theorem applied_of_accepts (localeCompare : JsString → JsString → Ordering)
    (hkey : Keyed state.threads) (hev : action.taskEvent? = some event)
    (h : acceptsTaskEvent state action) :
    Applied state (agentThreadsReducer localeCompare state action) event := by
  cases action with
  | taskStatusEvent threadId status nowEpochMs =>
    cases hev
    obtain ⟨location, hloc⟩ := isSome_iff_exists.1 h
    obtain ⟨hget, hrun, hseq⟩ := acceptedTaskStatusLocation_eq_some hloc
    rw [agentThreadsReducer, applyTurnStatusEvent, hloc]
    have hopen (hstl : isTerminalAgentTurnStatus location.turn.status) :
        AgentTurnStatus.task status.status = location.turn.status := by
      rw [hrun] at hstl
      cases hstl
    have hturn : SameTurn location.turn
        { location.turn with
          status := .task status.status
          lastStatusSequence := status.sequence
          endedAtEpochMs := if isTerminalAgentTaskStatus status.status then some nowEpochMs
            else location.turn.endedAtEpochMs } := ⟨rfl, hopen, hseq.le, le_rfl⟩
    exact .of_replaceThread hkey ⟨.status, threadId, status.taskId, status.sequence⟩ hget
      hrun hseq hturn rfl rfl rfl rfl
  | turnEventsAppended append =>
    cases hev
    obtain ⟨location, hloc⟩ := isSome_iff_exists.1 h
    obtain ⟨hget, hrun, hseq⟩ := acceptedOutputLocation_eq_some hloc
    rw [agentThreadsReducer, appendTurnEvents, hloc]
    have hturn : SameTurn location.turn (append.updatedTurn location.turn) :=
      ⟨rfl, fun _ => rfl, le_rfl, hseq.le⟩
    exact .of_replaceThread hkey
      ⟨.output, append.threadId, append.turnId, append.outputSequence⟩ hget hrun hseq
      hturn rfl rfl rfl rfl
  | _ => cases hev

/-- **An event that is not taken changes nothing.** -/
theorem agentThreadsReducer_of_not_accepts (localeCompare : JsString → JsString → Ordering)
    (h : acceptsTaskEvent state action = false) :
    agentThreadsReducer localeCompare state action = state := by
  cases action with
  | taskStatusEvent threadId event nowEpochMs =>
    have hnone := isNone_iff_eq_none.1 (isSome_eq_false_iff.1 h)
    rw [agentThreadsReducer, applyTurnStatusEvent, hnone]
  | turnEventsAppended action =>
    have hnone := isNone_iff_eq_none.1 (isSome_eq_false_iff.1 h)
    rw [agentThreadsReducer, appendTurnEvents, hnone]
  | _ => cases h

/-- **An event with a number that is not above the recorded one changes nothing.** -/
theorem stale_taskEvent (localeCompare : JsString → JsString → Ordering)
    (hkey : Keyed state.threads) (hev : action.taskEvent? = some event)
    (hturn : turnOf state event.threadId event.turnId = some turn)
    (hstale : event.sequence ≤ turn.lastSequence event.stream) :
    agentThreadsReducer localeCompare state action = state := by
  cases hacc : acceptsTaskEvent state action with
  | false => exact agentThreadsReducer_of_not_accepts localeCompare hacc
  | true =>
    have hnew := ((applied_of_accepts localeCompare hkey hev hacc).fresh turn hturn).2
    omega

lemma acceptedTaskEvents_sublist (localeCompare : JsString → JsString → Ordering)
    (state) (actions) :
    (acceptedTaskEvents localeCompare state actions).Sublist actions := by
  induction actions generalizing state with
  | nil => exact .refl _
  | cons action actions ih =>
    rw [acceptedTaskEvents]
    split_ifs
    · exact (ih _).cons_cons action
    · exact (ih _).cons action

/-- **To deliver events is to deliver those that are taken.** -/
theorem foldl_acceptedTaskEvents (localeCompare : JsString → JsString → Ordering)
    (state) (actions) :
    (acceptedTaskEvents localeCompare state actions).foldl (agentThreadsReducer localeCompare) state =
      actions.foldl (agentThreadsReducer localeCompare) state := by
  induction actions generalizing state with
  | nil => rfl
  | cons action actions ih =>
    rw [acceptedTaskEvents, foldl_cons]
    cases hacc : acceptsTaskEvent state action with
    | true =>
      exact ih _
    | false =>
      rw [if_neg Bool.false_ne_true, agentThreadsReducer_of_not_accepts localeCompare hacc]
      exact ih state

variable {actions : List AgentThreadsAction}

lemma acceptedTaskEvents_above (localeCompare : JsString → JsString → Ordering)
    (hkey : Keyed state.threads) (hacts : ∀ action ∈ actions, action.taskEvent?.isSome)
    (haction : action ∈ acceptedTaskEvents localeCompare state actions)
    (hev : action.taskEvent? = some event)
    (hturn : turnOf state event.threadId event.turnId = some turn) :
    turn.lastSequence event.stream < event.sequence := by
  induction actions generalizing state turn with
  | nil => cases haction
  | cons first actions ih =>
    have hrest : ∀ other ∈ actions, other.taskEvent?.isSome :=
      fun other hoth => hacts other (mem_cons_of_mem _ hoth)
    rw [acceptedTaskEvents] at haction
    split_ifs at haction with hacc
    · rcases mem_cons.1 haction with heq | haction
      · subst heq
        exact ((applied_of_accepts localeCompare hkey hev hacc).fresh turn hturn).2
      · obtain ⟨firstEvent, hfst⟩ := isSome_iff_exists.1
          (hacts first mem_cons_self)
        have happ := applied_of_accepts localeCompare hkey hfst hacc
        have hrel := turnOf_update happ.update event.threadId event.turnId
        rw [hturn] at hrel
        generalize hnext : turnOf (agentThreadsReducer localeCompare state first) event.threadId
          event.turnId = next at hrel
        cases hrel with
        | some hsame =>
          have habove := ih (agentThreadsReducer_keyed localeCompare hkey first) hrest haction hnext
          exact (hsame.lastSequence event.stream).trans_lt habove
    · exact ih hkey hrest haction hturn

/-- Of two events of one stream of a turn the later one has the higher number. -/
def Ascending (earlier later : AgentThreadsAction) : Prop :=
  ∀ event ∈ earlier.taskEvent?, ∀ event' ∈ later.taskEvent?, event.stream = event'.stream →
    event.threadId = event'.threadId → event.turnId = event'.turnId → event.sequence < event'.sequence

/-- **The events that are taken have numbers that go up.** -/
theorem acceptedTaskEvents_ascending (localeCompare : JsString → JsString → Ordering)
    (hkey : Keyed state.threads) (hacts : ∀ action ∈ actions, action.taskEvent?.isSome) :
    (acceptedTaskEvents localeCompare state actions).Pairwise Ascending := by
  induction actions generalizing state with
  | nil => exact .nil
  | cons first actions ih =>
    have hrest : ∀ other ∈ actions, other.taskEvent?.isSome :=
      fun other hoth => hacts other (mem_cons_of_mem _ hoth)
    rw [acceptedTaskEvents]
    split_ifs with hacc
    · have hnext := agentThreadsReducer_keyed localeCompare hkey first
      refine pairwise_cons.2 ⟨fun later hlat => ?_, ih hnext hrest⟩
      intro event hev event' hevent' hstr hthr hturn
      obtain ⟨turn, hrec, hseq⟩ := (applied_of_accepts localeCompare hkey hev hacc).recorded
      rw [hthr, hturn] at hrec
      rw [← hseq, hstr]
      exact acceptedTaskEvents_above localeCompare hnext hrest hlat hevent' hrec
    · exact ih hkey hrest

/-- In the threads that an action brings, turns have ids of their own. -/
def AgentThreadsAction.DistinctTurnIds (action : AgentThreadsAction) : Prop :=
  ∀ thread ∈ action.supplied, (thread.turns.map (·.turnId)).Nodup

instance (action : AgentThreadsAction) : Decidable action.DistinctTurnIds :=
  inferInstanceAs (Decidable (∀ thread ∈ action.supplied, (thread.turns.map (·.turnId)).Nodup))

/-- **Task events are applied at most once and in order**, in every run, and events delivered in any
order do what those of them do that are taken. -/
theorem run_taskEvents (localeCompare : JsString → JsString → Ordering)
    (actions : List AgentThreadsAction)
    (hsupp : ∀ action ∈ actions, action.DistinctTurnIds) :
    (∀ action event turn, action.taskEvent? = some event →
      turnOf (run localeCompare actions) event.threadId event.turnId = some turn →
        event.sequence ≤ turn.lastSequence event.stream →
          run localeCompare (actions ++ [action]) = run localeCompare actions) ∧
    (∀ later threadId turnId old new, (∀ action ∈ later, action.DistinctTurnIds) →
      (∀ action ∈ later, action.isLoaded = false) →
        (∀ front, front <+: later →
          (turnOf (run localeCompare (actions ++ front)) threadId turnId).isSome) →
            turnOf (run localeCompare actions) threadId turnId = some old →
              turnOf (run localeCompare (actions ++ later)) threadId turnId = some new →
                (∀ stream, old.lastSequence stream ≤ new.lastSequence stream) ∧
                  (isTerminalAgentTurnStatus old.status → new.status = old.status)) ∧
    ∀ events : List AgentThreadsAction, (∀ action ∈ events, action.taskEvent?.isSome) →
      let accepted := acceptedTaskEvents localeCompare (run localeCompare actions) events
      accepted.Sublist events ∧
        run localeCompare (actions ++ events) = run localeCompare (actions ++ accepted) ∧
        accepted.Pairwise Ascending ∧
        ∀ action ∈ accepted, ∀ event ∈ action.taskEvent?,
          ∀ turn ∈ turnOf (run localeCompare actions) event.threadId event.turnId,
            turn.lastSequence event.stream < event.sequence := by
  have hkeyed : Keyed (run localeCompare actions).threads := run_keyed actions
  refine ⟨?_, ?_, ?_⟩
  · intro action event turn hevent hturn hstale
    rw [run_concat]
    exact stale_taskEvent localeCompare hkeyed hevent hturn hstale
  · intro later threadId turnId old new hlater hloads hstays hold hnew
    have hrel := run_append_sameTurn actions later
      (fun action haction => (mem_append.1 haction).elim (hsupp action) (hlater action))
      hloads hstays
    rw [hold, hnew] at hrel
    cases hrel with
    | some hsame => exact ⟨hsame.lastSequence, hsame.status⟩
  · intro events hevs
    refine ⟨acceptedTaskEvents_sublist .., ?_, acceptedTaskEvents_ascending localeCompare hkeyed hevs, ?_⟩
    · rw [run, run, foldl_append, foldl_append]
      exact (foldl_acceptedTaskEvents localeCompare _ events).symm
    · intro action haction event hevent turn hturn
      exact acceptedTaskEvents_above localeCompare hkeyed hevs haction hevent hturn

/-- A status event of the turn of `sampleThread`. -/
def sampleStatus (sequence : ℤ) (status : AgentTaskStatus) : AgentThreadsAction :=
  .taskStatusEvent (js "thread-1")
    { taskId := js "turn-1"
      workspaceId := js "workspace-1"
      repositoryRoot := js "/project"
      isolation := .inPlace
      worktreePath := none
      sequence := sequence
      status := status }
    200

/-- The end of a turn with sequence 5 is reported twice, and a pending with sequence 4
after it. -/
theorem run_taskEvents_of_repeated :
    run (fun _ _ => .eq)
        [.threadCreated (sampleThread (js "thread-1") (js "turn-1") (.task .running)),
          sampleStatus 5 (.exited 0), sampleStatus 5 (.exited 0), sampleStatus 4 .pending] =
      run (fun _ _ => .eq)
        [.threadCreated (sampleThread (js "thread-1") (js "turn-1") (.task .running)),
          sampleStatus 5 (.exited 0)] := by
  have hdeliv := (run_taskEvents (fun _ _ => .eq)
    [.threadCreated (sampleThread (js "thread-1") (js "turn-1") (.task .running))]
    (by decide +kernel)).2.2
      [sampleStatus 5 (.exited 0), sampleStatus 5 (.exited 0), sampleStatus 4 .pending] (by decide)
  have haccd : acceptedTaskEvents (fun _ _ => .eq) (run (fun _ _ => .eq)
      [.threadCreated (sampleThread (js "thread-1") (js "turn-1") (.task .running))])
        [sampleStatus 5 (.exited 0), sampleStatus 5 (.exited 0), sampleStatus 4 .pending] =
          [sampleStatus 5 (.exited 0)] := by
    rw [run_threadCreated]
    rfl
  rw [haccd] at hdeliv
  exact hdeliv.2.1

/-- **A load lowers the sequence of a turn**: the stored thread takes the place of one
in which nothing runs. -/
theorem loaded_lowers_sequence :
    ¬ ∀ (localeCompare : JsString → JsString → Ordering) (actions : List AgentThreadsAction)
        (action : AgentThreadsAction) (threadId turnId : JsString) (old new : AgentTurn)
        (stream : TaskStream), (∀ other ∈ actions ++ [action], other.DistinctTurnIds) →
      turnOf (run localeCompare actions) threadId turnId = some old →
        turnOf (run localeCompare (actions ++ [action])) threadId turnId = some new →
          old.lastSequence stream ≤ new.lastSequence stream := by
  intro h
  have hevicted : ∀ threads : OrderedMap JsString AgentThread, threads.size = 1 →
      evictThreadsForRoot threads (js "/project") = threads := by
    intro threads hsize
    refine evictThreadsForRoot_of_le ((length_filter_le ..).trans ?_)
    rw [length_values, hsize]
    decide
  have hcreated : run (fun _ _ => .eq)
      [.threadCreated (sampleThread (js "thread-1") (js "turn-1") (.task .running))] = _ :=
    run_threadCreated _
  have hsettled := @run_concat (fun _ _ => .eq)
    [.threadCreated (sampleThread (js "thread-1") (js "turn-1") (.task .running))]
    (sampleStatus 5 (.exited 0))
  rw [hcreated] at hsettled
  have hload := @run_concat (fun _ _ => .eq)
    ([.threadCreated (sampleThread (js "thread-1") (js "turn-1") (.task .running))] ++
      [sampleStatus 5 (.exited 0)])
    (.loaded ⟨js "/project", js "workspace-1"⟩
      [sampleThread (js "thread-1") (js "turn-1") (.task (.exited 0))] [])
  rw [hsettled, agentThreadsReducer, loadThreads, hevicted _ rfl] at hload
  have hlower := h (fun _ _ => .eq) _ _ (js "thread-1") (js "turn-1") _ _ .status
    (by decide +kernel) (congrArg (turnOf · _ _) hsettled) (congrArg (turnOf · _ _) hload)
  revert hlower
  decide +kernel

end CodevoEditor.Threads
