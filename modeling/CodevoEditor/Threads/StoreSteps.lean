/-
# Steps of the store

What can happen to a store of threads at once (`StoreStep`): threads are brought up to date in
place, threads without a running turn are removed, a turn is placed in a thread, or a thread is
inserted, for which others may have to go.
-/

import CodevoEditor.Threads.Reducer

namespace CodevoEditor.Threads

open Js AgentEvents AgentOutput List Option

/-- A turn before and after an action. -/
structure SameTurn (old new : AgentTurn) : Prop where
  turnId : new.turnId = old.turnId
  status : isTerminalAgentTurnStatus old.status → new.status = old.status
  statusSequence : old.lastStatusSequence ≤ new.lastStatusSequence
  outputSequence : old.lastOutputSequence ≤ new.lastOutputSequence

lemma SameTurn.refl (turn) : SameTurn turn turn :=
  ⟨rfl, fun _ => rfl, le_refl _, le_refl _⟩

/-- A thread before and after an action. -/
structure SameThread (old new : AgentThread) : Prop where
  threadId : new.threadId = old.threadId
  turns : List.Forall₂ SameTurn old.turns new.turns
  archived : new.archived → old.archived ∨ runningTurn old = none

lemma SameThread.of_turns {old new} (hid : new.threadId = old.threadId)
    (htrn : new.turns = old.turns)
    (harchd : new.archived → old.archived ∨ runningTurn old = none) :
    SameThread old new :=
  ⟨hid, htrn ▸ forall₂_same.2 fun turn _ => SameTurn.refl turn, harchd⟩

lemma SameThread.refl (thread) : SameThread thread thread :=
  .of_turns rfl rfl .inl

/-- A turn that is taken over: what is over stays over. -/
structure TakenTurn (old new : AgentTurn) : Prop where
  turnId : new.turnId = old.turnId
  settled : isTerminalAgentTurnStatus old.status → isTerminalAgentTurnStatus new.status

/-- A thread that is taken over from the one that was given. -/
structure TakenThread (old new : AgentThread) : Prop where
  threadId : new.threadId = old.threadId
  turns : List.Forall₂ TakenTurn old.turns new.turns
  archived : new.archived → old.archived ∨ runningTurn old = none

lemma SameThread.taken {old new} (h : SameThread old new) : TakenThread old new :=
  ⟨h.threadId, h.turns.imp fun _ _ hturn =>
    ⟨hturn.turnId, fun hstl => (hturn.status hstl).symm ▸ hstl⟩, h.archived⟩

/-- A map whose keys are the ids of its threads. -/
def Keyed (threads : OrderedMap JsString AgentThread) : Prop :=
  ∀ threadId thread, threads.get? threadId = some thread → thread.threadId = threadId

/-- Under an id nothing has changed, or a thread without a running turn is gone. -/
def Kept (threads next : OrderedMap JsString AgentThread) (threadId : JsString) : Prop :=
  next.get? threadId = threads.get? threadId ∨
    next.get? threadId = none ∧ ∀ thread ∈ threads.get? threadId, runningTurn thread = none

variable {threadId : JsString}

lemma Kept.trans {first second third}
    (h : Kept first second threadId) (h' : Kept second third threadId) :
    Kept first third threadId := by
  rcases h with h | ⟨hnone, hstl⟩
  · rcases h' with h' | ⟨hnone, hstl⟩
    · exact .inl (h'.trans h)
    · exact .inr ⟨hnone, h ▸ hstl⟩
  · rcases h' with h' | ⟨hnone', -⟩
    · exact .inr ⟨h'.trans hnone, hstl⟩
    · exact .inr ⟨hnone', hstl⟩

/-- A turn in a thread: in front of the running one, or at the end. -/
structure PlacedTurn (thread next : AgentThread) (turn : AgentTurn) (front back : List AgentTurn) :
    Prop where
  threadId : next.threadId = thread.threadId
  archived : next.archived = false
  kept : (front ++ back).Sublist thread.turns
  room : thread.turns.length ≤ maxAgentTurnsPerThread → (front ++ back).length < maxAgentTurnsPerThread
  turns : next.turns = front ++ turn :: back
  running : back.getLast? = runningTurn thread
  settled : back ≠ [] → isTerminalAgentTurnStatus turn.status
  single : (thread.turns.map (·.turnId)).Nodup → back.length ≤ 1

/-- No thread but the one under `threadId` has a turn of `turnId`. -/
def FreshTurn (threads : OrderedMap JsString AgentThread) (turnId : JsString) : Prop :=
  ∀ threadId thread, threads.get? threadId = some thread → ∀ turn ∈ thread.turns, turn.turnId ≠ turnId

/-- What an action but a load does; `supplied` are the threads it brings. -/
inductive StoreStep (supplied : List AgentThread) (state next : AgentThreadsState) : Prop
  | update (h : ∀ threadId, Option.Rel SameThread (state.threads.get? threadId) (next.threads.get? threadId))
  | remove (h : ∀ threadId, Kept state.threads next.threads threadId)
  | place {thread placed : AgentThread} {turn : AgentTurn} {front back : List AgentTurn}
      (hthread : state.threads.get? thread.threadId = some thread)
      (hfresh : FreshTurn state.threads turn.turnId)
      (hplaced : PlacedTurn thread placed turn front back)
      (hnext : next = replaceThread state placed)
  | insert {source thread : AgentThread} (hsource : source ∈ supplied)
      (htaken : TakenThread source thread)
      (hnew : state.threads.get? thread.threadId = none)
      (hothers : ∀ threadId, threadId ≠ thread.threadId → Kept state.threads next.threads threadId)
      (hself : next.threads.get? thread.threadId = some thread ∨
        next.threads.get? thread.threadId = none ∧ runningTurn thread = none)
      (hfresh : ∀ turn ∈ thread.turns, ∀ threadId other, threadId ≠ thread.threadId →
        next.threads.get? threadId = some other → ∀ turn' ∈ other.turns, turn'.turnId ≠ turn.turnId)

/-- The threads that an action brings. -/
def AgentThreadsAction.supplied : AgentThreadsAction → List AgentThread
  | .loaded _ threads _ => threads
  | .threadCreated thread => [thread]
  | .historyThreadOpened thread _ => [thread]
  | _ => []

def AgentThreadsAction.isLoaded : AgentThreadsAction → Bool
  | .loaded .. => true
  | _ => false

variable {supplied : List AgentThread} {state : AgentThreadsState}

lemma StoreStep.refl (supplied) (state) : StoreStep supplied state state :=
  .update fun threadId => by
    cases state.threads.get? threadId with
    | none => exact .none
    | some thread => exact .some (.refl thread)

variable {thread next : AgentThread}

lemma SameThread.replaceThread (hsame : SameThread thread next)
    (hthr : state.threads.get? threadId = some thread) (hid : thread.threadId = threadId)
    (other : JsString) :
    Option.Rel SameThread (state.threads.get? other) ((Threads.replaceThread state next).threads.get? other) := by
  rw [Threads.replaceThread, OrderedMap.get?_set, hsame.threadId, hid]
  split_ifs with hoth
  · rw [hoth, hthr]
    exact .some hsame
  · cases state.threads.get? other with
    | none => exact .none
    | some thread => exact .some (SameThread.refl thread)

lemma StoreStep.replace (hthr : state.threads.get? threadId = some thread)
    (hid : thread.threadId = threadId) (hsame : SameThread thread next) :
    StoreStep supplied state (replaceThread state next) :=
  .update (hsame.replaceThread hthr hid)

lemma StoreStep.changeThread (hkey : Keyed state.threads) (threadId : JsString)
    {change : AgentThread → Option AgentThread}
    (hchange : ∀ thread next, change thread = some next → SameThread thread next) :
    StoreStep supplied state (changeThread state threadId change) := by
  unfold Threads.changeThread
  cases hthr : state.threads.get? threadId with
  | none => exact .refl _ _
  | some thread =>
    cases hnext : change thread with
    | none =>
      rw [bind_some, hnext]
      exact .refl _ _
    | some next =>
      rw [bind_some, hnext]
      exact .replace hthr (hkey _ _ hthr) (hchange thread next hnext)

variable {location : TurnLocation} {turnId : JsString}

lemma AgentThread.locate_spec (h : thread.locate turnId = some location) :
    location.thread = thread ∧ thread.turns[location.index]? = some location.turn ∧
      location.turn.turnId = turnId := by
  obtain ⟨turn, hturn, rfl⟩ := map_eq_some_iff.1 h
  refine ⟨rfl, hturn, ?_⟩
  obtain ⟨hlt, hget⟩ := List.getElem?_eq_some_iff.1 hturn
  have hfound := findIdx_getElem (w := hlt)
  rw [hget] at hfound
  exact of_decide_eq_true hfound

/-- A place with the thread under its id. -/
structure At (threads : OrderedMap JsString AgentThread) (location : TurnLocation) : Prop where
  thread : threads.get? location.thread.threadId = some location.thread
  turn : location.thread.turns[location.index]? = some location.turn

lemma findTurnInThread_at (hkeyed : Keyed state.threads)
    (h : findTurnInThread state threadId turnId = some location) :
    At state.threads location ∧ location.thread.threadId = threadId ∧ location.turn.turnId = turnId := by
  obtain ⟨thread, hthr, hlocate⟩ := bind_eq_some_iff.1 h
  obtain ⟨hsame, hturn, hid⟩ := AgentThread.locate_spec hlocate
  have hkey := hkeyed _ _ hthr
  subst hsame
  exact ⟨⟨by rw [hkey, hthr], hturn⟩, hkey, hid⟩

lemma findTurn_at (hkey : Keyed state.threads) (h : findTurn state turnId = some location) :
    At state.threads location ∧ location.turn.turnId = turnId := by
  obtain ⟨thread, hmem, hlocate⟩ := exists_of_findSome?_eq_some h
  obtain ⟨key, hthr⟩ := OrderedMap.mem_values_iff.1 hmem
  obtain ⟨hsame, hturn, hid⟩ := AgentThread.locate_spec hlocate
  subst hsame
  exact ⟨⟨by rw [hkey _ _ hthr, hthr], hturn⟩, hid⟩

/-- **A turn that is not found is in no thread.** -/
theorem freshTurn_of_findTurn (h : (findTurn state turnId).isSome = false) : FreshTurn state.threads turnId := by
  intro threadId thread hthr turn hturn hid
  have hnone : thread.locate turnId = none := by
    have hval := OrderedMap.mem_values_iff.2 ⟨threadId, hthr⟩
    rw [isSome_eq_false_iff, isNone_iff_eq_none] at h
    exact findSome?_eq_none_iff.1 h thread hval
  unfold AgentThread.locate at hnone
  rw [map_eq_none_iff, getElem?_eq_none_iff] at hnone
  have hlt := findIdx_lt_length_of_exists (p := fun turn : AgentTurn => turn.turnId = turnId)
    ⟨turn, hturn, decide_eq_true hid⟩
  omega

variable {turn : AgentTurn}

lemma At.sameThread (h : At state.threads location) (hturn : SameTurn location.turn turn) :
    SameThread location.thread (location.replaced turn) := by
  refine ⟨rfl, ?_, .inl⟩
  obtain ⟨hlt, hget⟩ := List.getElem?_eq_some_iff.1 h.turn
  refine forall₂_iff_get.2 ⟨(length_set ..).symm, fun index hidx hindex' => ?_⟩
  rw [get_eq_getElem, get_eq_getElem]
  unfold TurnLocation.replaced
  rw [getElem_set]
  split_ifs with hsame
  · subst hsame
    rw [hget]
    exact hturn
  · exact SameTurn.refl _

lemma At.replaceThread (h : At state.threads location) (hturn : SameTurn location.turn turn)
    (hid : next.threadId = location.thread.threadId)
    (htrn : next.turns = (location.replaced turn).turns)
    (harchd : next.archived = location.thread.archived) :
    StoreStep supplied state (replaceThread state next) :=
  .replace h.thread rfl ⟨hid, htrn ▸ (h.sameThread hturn).turns, fun harch =>
    .inl (harchd ▸ harch)⟩

lemma At.replaced (h : At state.threads location) (hturn : SameTurn location.turn turn) :
    StoreStep supplied state (Threads.replaceThread state (location.replaced turn)) :=
  h.replaceThread hturn rfl rfl rfl

end CodevoEditor.Threads
