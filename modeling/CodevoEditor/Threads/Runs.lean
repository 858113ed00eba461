/-
# Runs of the store

A run takes the actions one by one, from the empty store.
-/

import CodevoEditor.Threads.WellFormed

namespace CodevoEditor.Threads

open Js AgentEvents AgentOutput List Option OrderedMap

variable {localeCompare : JsString → JsString → Ordering} {state : AgentThreadsState}

/-- The store after `actions`. -/
def run (localeCompare : JsString → JsString → Ordering) (actions : List AgentThreadsAction) : AgentThreadsState :=
  actions.foldl (agentThreadsReducer localeCompare) emptyAgentThreadsState

variable (actions : List AgentThreadsAction)

lemma run_concat (action) :
    run localeCompare (actions ++ [action]) =
      agentThreadsReducer localeCompare (run localeCompare actions) action := by
  rw [run, foldl_concat]
  rfl

lemma run_keyed : Keyed (run localeCompare actions).threads := by
  induction actions using List.reverseRecOn with
  | nil => rintro threadId thread ⟨⟩
  | append_singleton actions action ih =>
    rw [run_concat]
    exact agentThreadsReducer_keyed localeCompare ih action

/-- A thread with one turn. -/
def sampleThread (threadId turnId : JsString) (status : AgentTurnStatus) : AgentThread where
  threadId := threadId
  owner := ⟨js "/project", js "workspace-1", js "/project"⟩
  target := ⟨.inPlace, none⟩
  provider := ⟨.claudeCode, none⟩
  title := js "Fix the build"
  pinned := false
  archived := false
  createdAtEpochMs := 100
  updatedAtEpochMs := 100
  turns := [
    { turnId := turnId
      prompt := js "Fix the build"
      status := status
      startedAtEpochMs := 100
      endedAtEpochMs := none
      events := []
      eventsTruncated := false
      lastStatusSequence := 0
      lastOutputSequence := 0
      launch := none
      cliVersion := none }]
  turnsTruncated := false
  integration := none
  viewedAtEpochMs := none
  externalOrigin := none

variable {threads : OrderedMap JsString AgentThread}

lemma evictThreadsForRoot_of_le {rootKey}
    (h : (threads.values.filter fun thread => thread.owner.rootKey = rootKey).length ≤ maxAgentThreadsPerRoot) :
    evictThreadsForRoot threads rootKey = threads := by
  unfold evictThreadsForRoot
  dsimp only
  cases (List.mergeSort _ _) with
  | nil => rfl
  | cons thread evictable => rw [evictThreads, if_pos h]

lemma run_threadCreated (thread) :
    run localeCompare [.threadCreated thread] =
      ⟨OrderedMap.empty.set thread.threadId (boundAgentThreadEvents thread)⟩ := by
  have hnone : (thread.turns.any fun turn =>
      (findTurn emptyAgentThreadsState turn.turnId).isSome) = false := by
    rw [List.any_eq_false]
    rintro turn - ⟨⟩
  unfold run
  rw [foldl_cons, foldl_nil]
  unfold agentThreadsReducer
  dsimp only
  unfold createThread
  rw [if_neg (by simp [emptyAgentThreadsState]), hnone, if_neg Bool.false_ne_true]
  congr 1
  refine evictThreadsForRoot_of_le ?_
  refine (length_filter_le ..).trans ?_
  change 1 ≤ maxAgentThreadsPerRoot
  decide

lemma SameThread.running {old new} (h : SameThread old new) {running}
    (hrun : runningTurn old = some running) :
    ∃ turn, new.turns.getLast? = some turn ∧ SameTurn running turn := by
  have hlast := (filter_eq_some_iff.1 hrun).1
  have hrev := rel_reverse h.turns
  rw [← head?_reverse] at hlast ⊢
  generalize old.turns.reverse = olds at hrev hlast
  generalize new.turns.reverse = news at hrev ⊢
  cases hrev with
  | nil => cases hlast
  | cons hturn _ =>
    cases hlast
    exact ⟨_, rfl, hturn⟩

variable {thread : AgentThread} {threadId : JsString}

lemma Kept.running {next} (h : Kept threads next threadId)
    (hthr : threads.get? threadId = some thread) (hrun : runningTurn thread ≠ none) :
    next.get? threadId = some thread := by
  rcases h with hsame | ⟨-, hstl⟩
  · rw [hsame, hthr]
  · exact absurd (hstl thread hthr) hrun

/-- **A step keeps the turn that runs** as the last one of its thread. -/
theorem StoreStep.running {supplied} {next}
    (h : StoreStep supplied state next) (hthr : state.threads.get? threadId = some thread)
    {running} (hrun : runningTurn thread = some running) :
    ∃ thread' turn, next.threads.get? threadId = some thread' ∧
      thread'.turns.getLast? = some turn ∧ SameTurn running turn := by
  have hlast := (filter_eq_some_iff.1 hrun).1
  have hruns : runningTurn thread ≠ none := by
    rw [hrun]
    exact some_ne_none running
  cases h with
  | update h =>
    have hrel := h threadId
    rw [hthr] at hrel
    generalize next.threads.get? threadId = after at hrel ⊢
    cases hrel with
    | some hsame =>
      obtain ⟨turn, hturn, hsameTurn⟩ := hsame.running hrun
      exact ⟨_, turn, rfl, hturn, hsameTurn⟩
  | remove h => exact ⟨thread, running, (h threadId).running hthr hruns, hlast, .refl running⟩
  | @place old placed turn front back hold hfresh hpl hnext =>
    rw [hnext, replaceThread, get?_set, hpl.threadId]
    by_cases hid : threadId = old.threadId
    · rw [if_pos hid]
      rw [hid, hold] at hthr
      cases hthr
      have hback := hpl.running
      rw [hrun] at hback
      refine ⟨placed, running, rfl, ?_, .refl running⟩
      rw [hpl.turns, getLast?_append, getLast?_cons, hback]
      rfl
    · rw [if_neg hid]
      exact ⟨thread, running, hthr, hlast, .refl running⟩
  | @insert source inserted hsource htkn hnew hoths hself hfresh =>
    have hid : threadId ≠ inserted.threadId := by
      rintro rfl
      rw [hnew] at hthr
      cases hthr
    exact ⟨thread, running, (hoths threadId hid).running hthr hruns, hlast, .refl running⟩

/-- **No action loses a turn that runs**, in any run: its thread stays, with the turn
as its last one, under its id and with sequences that are no lower. -/
theorem runningTurn_kept (localeCompare : JsString → JsString → Ordering)
    (actions : List AgentThreadsAction) (action : AgentThreadsAction) (threadId : JsString)
    (thread : AgentThread) (running : AgentTurn)
    (hthread : (run localeCompare actions).threads.get? threadId = some thread)
    (hrun : runningTurn thread = some running) :
    ∃ next turn,
      (agentThreadsReducer localeCompare (run localeCompare actions) action).threads.get? threadId = some next ∧
      next.turns.getLast? = some turn ∧ turn.turnId = running.turnId ∧
      running.lastStatusSequence ≤ turn.lastStatusSequence ∧
      running.lastOutputSequence ≤ turn.lastOutputSequence := by
  have hkeyed : Keyed (run localeCompare actions).threads := run_keyed actions
  have hkept : ∃ next turn,
      (agentThreadsReducer localeCompare (run localeCompare actions) action).threads.get? threadId =
        some next ∧ next.turns.getLast? = some turn ∧ SameTurn running turn := by
    by_cases hload : action.isLoaded
    · cases action with
      | loaded owner loaded retainedThreadIds =>
        have hruns : runningTurn thread ≠ none := by
          rw [hrun]
          exact some_ne_none running
        have hstays := (loadThreads_get? hkeyed owner loaded retainedThreadIds threadId thread).1 hthread hruns
        exact ⟨thread, running, hstays, (filter_eq_some_iff.1 hrun).1, .refl running⟩
      | _ => cases hload
    · rw [Bool.not_eq_true] at hload
      exact (agentThreadsReducer_step localeCompare hkeyed action hload).running hthread hrun
  obtain ⟨next, turn, hnext, hturn, hsame⟩ := hkept
  exact ⟨next, turn, hnext, hturn, hsame.turnId, hsame.statusSequence, hsame.outputSequence⟩

/-- The turn of a created thread is not lost when the thread is to be deleted. -/
theorem runningTurn_kept_of_created :
    ∃ next turn,
      (agentThreadsReducer (fun _ _ => .eq) (run (fun _ _ => .eq)
        [.threadCreated (sampleThread (js "thread-1") (js "turn-1") (.task .running))])
          (.deleted (js "thread-1"))).threads.get? (js "thread-1") = some next ∧
      next.turns.getLast? = some turn ∧ turn.turnId = js "turn-1" ∧
      0 ≤ turn.lastStatusSequence ∧ 0 ≤ turn.lastOutputSequence := by
  have hthread : run (fun _ _ => .eq)
      [.threadCreated (sampleThread (js "thread-1") (js "turn-1") (.task .running))] = _ :=
    run_threadCreated _
  exact runningTurn_kept (fun _ _ => .eq) _ _ (js "thread-1") _
    (boundAgentTurnEvents _) (by rw [hthread]; rfl) rfl

instance : Std.Symm DisjointTurns := ⟨fun _ _ h => h.symm⟩

/-- Whether a load takes a thread over. -/
def takesThread (owner : AgentThreadLoadOwner) (threads : OrderedMap JsString AgentThread)
    (thread : AgentThread) : Bool :=
  thread.owner.rootKey = owner.rootKey && thread.owner.ownerId = owner.ownerId && !threads.has thread.threadId

/-- The threads that a load takes over, the first one of each id. -/
def takenThreads (owner : AgentThreadLoadOwner) (threads : OrderedMap JsString AgentThread) :
    List AgentThread → List AgentThread
  | [] => []
  | thread :: loaded =>
      let taken := takenThreads owner threads loaded
      if takesThread owner threads thread then
        thread :: taken.filter fun other => other.threadId ≠ thread.threadId
      else taken

/-- The threads of a load have turn ids of their own. -/
def FreshLoad (state : AgentThreadsState) (owner : AgentThreadLoadOwner)
    (loaded : List AgentThread) (retainedThreadIds : List JsString) : Prop :=
  let kept := keptThreads state.threads owner.rootKey retainedThreadIds
  let taken := takenThreads owner kept loaded
  (∀ thread ∈ taken, ∀ other ∈ kept.values, DisjointTurns thread other) ∧ taken.Pairwise DisjointTurns

instance (state : AgentThreadsState) (owner : AgentThreadLoadOwner) (loaded : List AgentThread)
    (retainedThreadIds : List JsString) :
    Decidable (FreshLoad state owner loaded retainedThreadIds) := by
  unfold FreshLoad
  infer_instance

/-- A load has turn ids of its own. -/
def LoadsFresh (state : AgentThreadsState) : AgentThreadsAction → Prop
  | .loaded owner loaded retainedThreadIds => FreshLoad state owner loaded retainedThreadIds
  | _ => True

variable (owner : AgentThreadLoadOwner)

lemma takeLoadedThread_eq (threads) (thread) :
    takeLoadedThread owner threads thread =
      if takesThread owner threads thread then threads.set thread.threadId (storedThread thread)
      else threads := by
  unfold takeLoadedThread takesThread
  by_cases hroot : thread.owner.rootKey = owner.rootKey
  · by_cases howner : thread.owner.ownerId = owner.ownerId
    · cases hpres : threads.has thread.threadId <;> simp [hroot, howner, storedThread]
    · simp [hroot, howner]
  · simp [hroot]

lemma takesThread_set (threads)
    (threadId : JsString) (value thread) :
    takesThread owner (threads.set threadId value) thread =
      (takesThread owner threads thread && thread.threadId ≠ threadId) := by
  unfold takesThread
  by_cases hid : thread.threadId = threadId <;> simp [hid]

lemma takenThreads_set (threads)
    (threadId : JsString) (value) (loaded) :
    takenThreads owner (threads.set threadId value) loaded =
      (takenThreads owner threads loaded).filter fun other => other.threadId ≠ threadId := by
  induction loaded with
  | nil => rfl
  | cons thread loaded ih =>
    rw [takenThreads, takenThreads, takesThread_set, ih]
    cases htakes : takesThread owner threads thread with
    | false => rfl
    | true =>
      by_cases hid : thread.threadId = threadId
      · rw [if_pos rfl, if_neg (by simp [hid]), filter_cons_of_neg (by simp [hid]), hid,
          List.filter_filter]
        simp
      · rw [if_pos rfl, if_pos (by simp [hid]), filter_cons_of_pos (by simp [hid]),
          List.filter_filter, List.filter_filter]
        congr 1
        exact filter_congr fun other _ => Bool.and_comm ..

lemma get?_foldl_takeLoadedThread (loaded)
    (h : (loaded.foldl (takeLoadedThread owner) threads).get? threadId = some thread) :
    threads.get? threadId = some thread ∨
      ∃ source ∈ takenThreads owner threads loaded, source.threadId = threadId ∧ thread = storedThread source := by
  induction loaded generalizing threads with
  | nil => exact .inl h
  | cons source loaded ih =>
    rw [foldl_cons, takeLoadedThread_eq] at h
    rw [takenThreads]
    by_cases htakes : takesThread owner threads source
    · rw [if_pos htakes] at h ⊢
      rcases ih h with hset | ⟨other, hoth, hrest⟩
      · rw [get?_set] at hset
        split_ifs at hset with hid
        · exact .inr ⟨source, mem_cons_self, hid.symm, (some.inj hset).symm⟩
        · exact .inl hset
      · rw [takenThreads_set] at hoth
        exact .inr ⟨other, mem_cons_of_mem _ hoth, hrest⟩
    · rw [if_neg htakes] at h ⊢
      exact ih h

lemma mem_of_mem_takenThreads {owner} {loaded}
    (h : thread ∈ takenThreads owner threads loaded) : thread ∈ loaded := by
  induction loaded with
  | nil => exact h
  | cons first loaded ih =>
    rw [takenThreads] at h
    split_ifs at h
    · rcases mem_cons.1 h with hfst | hrest
      · exact hfst ▸ mem_cons_self
      · exact mem_cons_of_mem _ (ih (mem_of_mem_filter hrest))
    · exact mem_cons_of_mem _ (ih h)

/-- **A load with turn ids of its own keeps the store well formed.** -/
theorem loadThreads_wellFormed (hstate : StoreWellFormed state) (owner)
    (loaded) (retainedThreadIds)
    (hload : ∀ thread ∈ loaded, ThreadWellFormed thread)
    (hnew : FreshLoad state owner loaded retainedThreadIds) :
    StoreWellFormed (loadThreads state owner loaded retainedThreadIds) := by
  obtain ⟨hdisj, hpair⟩ := hnew
  have hkept := keptThreads_kept state.threads owner.rootKey retainedThreadIds
  have hkeyedKept : Keyed (keptThreads state.threads owner.rootKey retainedThreadIds) :=
    fun threadId thread hthr => hstate.keyed _ _ ((hkept threadId).of_some hthr)
  have hevicted := evictThreadsForRoot_kept (keyed_foldl_takeLoadedThread owner loaded hkeyedKept) owner.rootKey
  generalize hkeptEq : keptThreads state.threads owner.rootKey retainedThreadIds = kept
    at hkept hkeyedKept hevicted hdisj hpair
  have hfrom {threadId} {thread}
      (h : (loadThreads state owner loaded retainedThreadIds).threads.get? threadId = some thread) :
      kept.get? threadId = some thread ∨
        ∃ source ∈ takenThreads owner kept loaded, source.threadId = threadId ∧ thread = storedThread source := by
    unfold loadThreads at h
    rw [hkeptEq] at h
    exact get?_foldl_takeLoadedThread owner loaded ((hevicted threadId).of_some h)
  refine ⟨?_, fun threadId thread hthr => ?_, ?_⟩
  · intro threadId thread hthr
    rcases hfrom hthr with hold | ⟨source, -, hid, rfl⟩
    · exact hkeyedKept _ _ hold
    · exact hid
  · rcases hfrom hthr with hold | ⟨source, hsource, -, rfl⟩
    · exact hstate.threads threadId thread ((hkept threadId).of_some hold)
    · exact (storedThread_taken source).wellFormed (hload source (mem_of_mem_takenThreads hsource))
  · intro threadId threadId' thread thread' hne hthr hthread'
    rcases hfrom hthr with hold | ⟨source, hsource, hid, rfl⟩ <;>
      rcases hfrom hthread' with hold' | ⟨source', hsource', hid', rfl⟩
    · exact hstate.turnIds threadId threadId' thread thread' hne ((hkept threadId).of_some hold)
        ((hkept threadId').of_some hold')
    · refine .symm ?_
      exact (hdisj source' hsource' thread (mem_values_iff.2 ⟨threadId, hold⟩)).of_turnIds
        (storedThread_taken source').map_turnId rfl
    · exact (hdisj source hsource thread' (mem_values_iff.2 ⟨threadId', hold'⟩)).of_turnIds
        (storedThread_taken source).map_turnId rfl
    · have hsources : DisjointTurns source source' := by
        refine hpair.forall hsource hsource' ?_
        rintro rfl
        exact hne (hid.symm.trans hid')
      exact hsources.of_turnIds (storedThread_taken source).map_turnId (storedThread_taken source').map_turnId

/-- **The store is well formed in every run whose loads bring turn ids of their own.** -/
theorem run_wellFormed (localeCompare : JsString → JsString → Ordering)
    (actions : List AgentThreadsAction)
    (hsupp : ∀ action ∈ actions, ∀ thread ∈ action.supplied, ThreadWellFormed thread)
    (hfresh : ∀ front action back, actions = front ++ action :: back → LoadsFresh (run localeCompare front) action) :
    StoreWellFormed (run localeCompare actions) := by
  induction actions using List.reverseRecOn with
  | nil =>
    refine ⟨?_, ?_, ?_⟩
    · rintro threadId thread ⟨⟩
    · rintro threadId thread ⟨⟩
    · rintro threadId threadId' thread thread' - ⟨⟩
  | append_singleton actions action ih =>
    have hstate : StoreWellFormed (run localeCompare actions) := by
      refine ih (fun other hother => hsupp other (mem_append_left _ hother)) ?_
      intro front other back heq
      exact hfresh front other (back ++ [action]) (by rw [heq, append_assoc]; rfl)
    have hthreads : ∀ thread ∈ action.supplied, ThreadWellFormed thread :=
      hsupp action (mem_append_right _ mem_cons_self)
    rw [run_concat]
    by_cases hload : action.isLoaded
    · cases action with
      | loaded owner loaded retainedThreadIds =>
        exact loadThreads_wellFormed hstate owner loaded retainedThreadIds hthreads (hfresh actions _ [] rfl)
      | _ => cases hload
    · rw [Bool.not_eq_true] at hload
      exact (agentThreadsReducer_step localeCompare hstate.keyed action hload).wellFormed
        (agentThreadsReducer_keyed localeCompare hstate.keyed action) hstate hthreads

/-- A store into which a thread is loaded. -/
theorem run_wellFormed_of_loaded :
    StoreWellFormed (run (fun _ _ => .eq)
      [.threadCreated (sampleThread (js "thread-1") (js "turn-1") (.task .running)),
        .loaded ⟨js "/project", js "workspace-1"⟩
          [sampleThread (js "thread-2") (js "turn-2") (.task (.exited 0))] []]) := by
  refine run_wellFormed (fun _ _ => .eq) _ ?_ ?_
  · decide +kernel
  · intro front action back heq
    match front, heq with
    | [], heq =>
      cases heq
      trivial
    | [_], heq =>
      cases heq
      change FreshLoad _ _ _ _
      decide +kernel
    | _ :: _ :: _ :: _, heq => simp at heq

/-- **Not in every run**: a load takes over two threads with the same turn id, each
of which is well formed. -/
theorem run_not_wellFormed :
    ¬ ∀ (localeCompare : JsString → JsString → Ordering) (actions : List AgentThreadsAction),
      (∀ action ∈ actions, ∀ thread ∈ action.supplied, ThreadWellFormed thread) →
        StoreWellFormed (run localeCompare actions) := by
  intro h
  have hformed := h (fun _ _ => .eq)
    [.loaded ⟨js "/project", js "workspace-1"⟩
      [sampleThread (js "thread-1") (js "turn-1") (.task (.exited 0)),
        sampleThread (js "thread-2") (js "turn-1") (.task (.exited 0))] []] (by decide +kernel)
  have hthreads : ∀ threads : OrderedMap JsString AgentThread, threads =
      (OrderedMap.empty.set (js "thread-1") (storedThread
        (sampleThread (js "thread-1") (js "turn-1") (.task (.exited 0))))).set (js "thread-2")
          (storedThread (sampleThread (js "thread-2") (js "turn-1") (.task (.exited 0)))) →
      evictThreadsForRoot threads (js "/project") = threads := by
    rintro threads rfl
    exact evictThreadsForRoot_of_le ((length_filter_le ..).trans (by decide +kernel))
  have hget := hthreads _ rfl
  refine hformed.turnIds (js "thread-1") (js "thread-2") _ _ (by decide)
    (congrArg (·.get? (js "thread-1")) hget) (congrArg (·.get? (js "thread-2")) hget)
    _ mem_cons_self _ mem_cons_self rfl

end CodevoEditor.Threads
