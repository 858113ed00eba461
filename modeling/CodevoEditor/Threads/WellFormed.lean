/-
# The store stays well formed

A thread is well formed when its turns have ids of their own, only the last one can run, there
are not too many, and none runs in an archived thread; the store is when its threads are and
share no turn id, by which events are routed.
-/

import CodevoEditor.Threads.ReducerSteps

namespace CodevoEditor.Threads

open Js AgentEvents AgentOutput List

variable {supplied : List AgentThread} {state next : AgentThreadsState}

structure ThreadWellFormed (thread : AgentThread) : Prop where
  turnIds : (thread.turns.map (·.turnId)).Nodup
  settled : ∀ turn ∈ thread.turns.dropLast, isTerminalAgentTurnStatus turn.status
  bounded : thread.turns.length ≤ maxAgentTurnsPerThread
  archived : thread.archived → runningTurn thread = none

instance (thread : AgentThread) : Decidable (ThreadWellFormed thread) :=
  decidable_of_iff
    ((thread.turns.map (·.turnId)).Nodup ∧
      (∀ turn ∈ thread.turns.dropLast, isTerminalAgentTurnStatus turn.status) ∧
      thread.turns.length ≤ maxAgentTurnsPerThread ∧
      (thread.archived → runningTurn thread = none))
    ⟨fun h => ⟨h.1, h.2.1, h.2.2.1, h.2.2.2⟩, fun h => ⟨h.turnIds, h.settled, h.bounded, h.archived⟩⟩

/-- Two threads share no turn id. -/
def DisjointTurns (thread other : AgentThread) : Prop :=
  ∀ turn ∈ thread.turns, ∀ turn' ∈ other.turns, turn.turnId ≠ turn'.turnId

instance (thread other : AgentThread) : Decidable (DisjointTurns thread other) :=
  inferInstanceAs (Decidable (∀ turn ∈ thread.turns, ∀ turn' ∈ other.turns, turn.turnId ≠ turn'.turnId))

/-- No turn id is in two threads. -/
def UniqueTurns (threads : OrderedMap JsString AgentThread) : Prop :=
  ∀ threadId threadId' thread thread', threadId ≠ threadId' →
    threads.get? threadId = some thread → threads.get? threadId' = some thread' → DisjointTurns thread thread'

structure StoreWellFormed (state : AgentThreadsState) : Prop where
  keyed : Keyed state.threads
  threads : ∀ threadId thread, state.threads.get? threadId = some thread → ThreadWellFormed thread
  turnIds : UniqueTurns state.threads

variable {thread : AgentThread}

lemma runningTurn_eq_none_iff :
    runningTurn thread = none ↔ ∀ turn ∈ thread.turns.getLast?, isTerminalAgentTurnStatus turn.status := by
  simp [runningTurn, Option.filter_eq_none_iff]

lemma ThreadWellFormed.all_settled (h : ThreadWellFormed thread)
    (hrun : runningTurn thread = none) :
    ∀ turn ∈ thread.turns, isTerminalAgentTurnStatus turn.status := by
  intro turn hturn
  obtain ⟨front, last, htrn⟩ : ∃ front last, thread.turns = front ++ [last] := by
    have hne : thread.turns ≠ [] := ne_nil_of_mem hturn
    exact ⟨_, _, (dropLast_append_getLast hne).symm⟩
  have hstl := h.settled
  rw [runningTurn_eq_none_iff] at hrun
  rw [htrn, dropLast_concat] at hstl
  rw [htrn, getLast?_concat] at hrun
  rw [htrn] at hturn
  rcases mem_append.1 hturn with hfr | hlast
  · exact hstl turn hfr
  · rw [mem_singleton.1 hlast]
    exact hrun last rfl

variable {old new : AgentThread}

lemma TakenThread.map_turnId (h : TakenThread old new) : new.turns.map (·.turnId) = old.turns.map (·.turnId) := by
  have htrn := h.turns
  generalize old.turns = olds at htrn ⊢
  generalize new.turns = news at htrn ⊢
  induction htrn with
  | nil => rfl
  | cons hturn _ ih => rw [map_cons, map_cons, hturn.turnId, ih]

lemma TakenThread.running (h : TakenThread old new) (hrun : runningTurn old = none) : runningTurn new = none := by
  have hrev := rel_reverse h.turns
  rw [runningTurn_eq_none_iff] at hrun ⊢
  rw [← head?_reverse] at hrun ⊢
  generalize old.turns.reverse = olds at hrev hrun
  generalize new.turns.reverse = news at hrev ⊢
  cases hrev with
  | nil => rintro turn ⟨⟩
  | cons hturn _ =>
    rintro turn ⟨⟩
    exact hturn.settled (hrun _ rfl)

/-- **A thread that is taken over stays well formed.** -/
theorem TakenThread.wellFormed (h : TakenThread old new) (hold : ThreadWellFormed old) : ThreadWellFormed new := by
  refine ⟨?_, ?_, ?_, fun harch => h.running ?_⟩
  · rw [h.map_turnId]
    exact hold.turnIds
  · have hstl := hold.settled
    have htrn := h.turns
    rw [dropLast_eq_take] at hstl ⊢
    rw [← htrn.length_eq]
    have htake := forall₂_take (old.turns.length - 1) htrn
    intro turn hturn
    obtain ⟨index, hlt, rfl⟩ := getElem_of_mem hturn
    obtain ⟨hlen, hget⟩ := forall₂_iff_get.1 htake
    exact (hget index (hlen ▸ hlt) hlt).settled (hstl _ (getElem_mem _))
  · rw [← h.turns.length_eq]
    exact hold.bounded
  · exact (h.archived harch).elim hold.archived id

variable {front back : List AgentTurn} {placed : AgentThread} {turn : AgentTurn}

section

variable (h : PlacedTurn thread placed turn front back)
include h

lemma PlacedTurn.back_eq (hthr : ThreadWellFormed thread) : back = (runningTurn thread).toList := by
  have hsingle := h.single hthr.turnIds
  have hrun := h.running
  match back with
  | [] => rw [← hrun]; rfl
  | [last] => rw [← hrun]; rfl
  | first :: second :: rest => exact absurd hsingle (by simp)

lemma PlacedTurn.turnIds (hthr : (thread.turns.map (·.turnId)).Nodup)
    (hnew : ∀ other ∈ thread.turns, other.turnId ≠ turn.turnId) :
    (placed.turns.map (·.turnId)).Nodup := by
  have hids := hthr.sublist (h.kept.map (·.turnId))
  rw [h.turns, map_append, map_cons]
  rw [map_append] at hids
  refine nodup_middle.2 (nodup_cons.2 ⟨fun hmem => ?_, hids⟩)
  rw [← map_append] at hmem
  obtain ⟨other, hoth, hid⟩ := mem_map.1 hmem
  exact hnew other (h.kept.subset hoth) hid

/-- **A thread stays well formed with a new turn.** -/
theorem PlacedTurn.wellFormed (hthr : ThreadWellFormed thread)
    (hnew : ∀ other ∈ thread.turns, other.turnId ≠ turn.turnId) : ThreadWellFormed placed := by
  have hback := h.back_eq hthr
  have hkept := h.kept
  refine ⟨h.turnIds hthr.turnIds hnew, ?_, ?_, fun harch => ?_⟩
  · rw [h.turns]
    cases hrun : runningTurn thread with
    | none =>
      rw [hrun] at hback
      rw [hback, Option.toList_none, dropLast_concat]
      intro other hoth
      exact hthr.all_settled hrun other (hkept.subset (mem_append_left _ hoth))
    | some running =>
      rw [hrun, Option.toList_some] at hback
      have hstl := h.settled (by rw [hback]; exact cons_ne_nil _ _)
      have hdrop : (front ++ turn :: back).dropLast = front ++ [turn] := by
        rw [hback, dropLast_append_of_ne_nil (cons_ne_nil _ _)]
        rfl
      obtain ⟨init, htrn⟩ := getLast?_eq_some_iff.1 (Option.filter_eq_some_iff.1 hrun).1
      have hearlier := hthr.settled
      rw [htrn, dropLast_concat] at hearlier
      rw [hback, htrn, append_sublist_append_right] at hkept
      rw [hdrop]
      intro other hoth
      rcases mem_append.1 hoth with hoth | hoth
      · exact hearlier other (hkept.subset hoth)
      · rw [mem_singleton.1 hoth]
        exact hstl
  · have hroom := h.room hthr.bounded
    rw [h.turns, length_append, length_cons]
    rw [length_append] at hroom
    omega
  · rw [h.archived] at harch
    cases harch

end

lemma DisjointTurns.symm {other} (h : DisjointTurns thread other) :
    DisjointTurns other thread := fun turn hturn turn' hturn' hid => h turn' hturn' turn hturn hid.symm

lemma DisjointTurns.of_turnIds {other thread' other'}
    (h : DisjointTurns thread other)
    (hthr : (thread'.turns.map (·.turnId)) = thread.turns.map (·.turnId))
    (hoth : (other'.turns.map (·.turnId)) = other.turns.map (·.turnId)) :
    DisjointTurns thread' other' := by
  intro turn hturn turn' hturn' hid
  have hmem : turn.turnId ∈ thread.turns.map (·.turnId) := hthr ▸ mem_map_of_mem hturn
  have hmem' : turn'.turnId ∈ other.turns.map (·.turnId) := hoth ▸ mem_map_of_mem hturn'
  obtain ⟨source, hsource, hsame⟩ := mem_map.1 hmem
  obtain ⟨source', hsource', hsame'⟩ := mem_map.1 hmem'
  exact h source hsource source' hsource' (hsame.trans (hid.trans hsame'.symm))

lemma UniqueTurns.of_forall {threads} (threadId : JsString)
    (hoths : ∀ first second thread thread', first ≠ second → first ≠ threadId →
      second ≠ threadId → threads.get? first = some thread → threads.get? second = some thread' →
        DisjointTurns thread thread')
    (hself : ∀ other thread thread', other ≠ threadId → threads.get? threadId = some thread →
      threads.get? other = some thread' → DisjointTurns thread thread') : UniqueTurns threads := by
  intro first second thread thread' hne hfst hsnd
  by_cases hfirstId : first = threadId
  · subst hfirstId
    exact hself second thread thread' hne.symm hfst hsnd
  by_cases hsecondId : second = threadId
  · subst hsecondId
    exact (hself first thread' thread hne hsnd hfst).symm
  · exact hoths first second thread thread' hne hfirstId hsecondId hfst hsnd

/-- **A step keeps the store well formed**, if the threads it brings are. -/
theorem StoreStep.wellFormed (h : StoreStep supplied state next) (hkey : Keyed next.threads)
    (hstate : StoreWellFormed state) (hsupp : ∀ thread ∈ supplied, ThreadWellFormed thread) :
    StoreWellFormed next := by
  cases h with
  | update h =>
    have hold {threadId} {thread}
        (hthr : next.threads.get? threadId = some thread) :
        ∃ old, state.threads.get? threadId = some old ∧ SameThread old thread := by
      have hrel := h threadId
      rw [hthr] at hrel
      generalize state.threads.get? threadId = before at hrel
      cases hrel with
      | some hsame => exact ⟨_, rfl, hsame⟩
    refine ⟨hkey, fun threadId thread hthr => ?_, ?_⟩
    · obtain ⟨old, hget, hsame⟩ := hold hthr
      exact hsame.taken.wellFormed (hstate.threads threadId old hget)
    · intro threadId threadId' thread thread' hne hthr hthread'
      obtain ⟨old, hget, hsame⟩ := hold hthr
      obtain ⟨old', hget', hsame'⟩ := hold hthread'
      exact (hstate.turnIds threadId threadId' old old' hne hget hget').of_turnIds
        hsame.taken.map_turnId hsame'.taken.map_turnId
  | remove h =>
    refine ⟨hkey, fun threadId thread hthr => ?_, ?_⟩
    · exact hstate.threads threadId thread ((h threadId).of_some hthr)
    · intro threadId threadId' thread thread' hne hthr hthread'
      exact hstate.turnIds threadId threadId' thread thread' hne ((h threadId).of_some hthr)
        ((h threadId').of_some hthread')
  | @place thread placed turn front back hthr hfresh hpl hnext =>
    have hget threadId : next.threads.get? threadId =
        if threadId = thread.threadId then some placed else state.threads.get? threadId := by
      rw [hnext, replaceThread, OrderedMap.get?_set, hpl.threadId]
    refine ⟨hkey, fun threadId other hoth => ?_, .of_forall thread.threadId ?_ ?_⟩
    · rw [hget] at hoth
      split_ifs at hoth
      · cases hoth
        exact hpl.wellFormed (hstate.threads _ _ hthr) (hfresh _ _ hthr)
      · exact hstate.threads threadId other hoth
    · intro first second other other' hne hfirstId hsecondId hfst hsnd
      rw [hget, if_neg hfirstId] at hfst
      rw [hget, if_neg hsecondId] at hsnd
      exact hstate.turnIds first second other other' hne hfst hsnd
    · intro otherId self other hne hself hoth
      rw [hget, if_pos rfl] at hself
      rw [hget, if_neg hne] at hoth
      cases hself
      intro turn' hturn' turn'' hturn''
      rw [hpl.turns] at hturn'
      have htrn := hstate.turnIds thread.threadId otherId thread other hne.symm hthr hoth
      rcases mem_append.1 hturn' with hmem | hmem
      · exact htrn turn' (hpl.kept.subset (mem_append_left _ hmem)) turn'' hturn''
      rcases mem_cons.1 hmem with hmem | hmem
      · rw [hmem]
        exact fun hid => hfresh otherId other hoth turn'' hturn'' hid.symm
      · exact htrn turn' (hpl.kept.subset (mem_append_right _ hmem)) turn'' hturn''
  | @insert source inserted hsource htkn hnew hoths hself hfresh =>
    have hformed := htkn.wellFormed (hsupp source hsource)
    have hins {thread} (hthr : next.threads.get? inserted.threadId = some thread) : thread = inserted := by
      rcases hself with hself | ⟨hself, -⟩
      · rw [hself] at hthr
        exact (Option.some.inj hthr).symm
      · rw [hself] at hthr
        cases hthr
    refine ⟨hkey, fun threadId thread hthr => ?_, .of_forall inserted.threadId ?_ ?_⟩
    · by_cases hid : threadId = inserted.threadId
      · rw [hid] at hthr
        have hsame : thread = inserted := hins hthr
        rw [hsame]
        exact hformed
      · exact hstate.threads threadId thread ((hoths threadId hid).of_some hthr)
    · intro first second thread thread' hne hfirstId hsecondId hfst hsnd
      exact hstate.turnIds first second thread thread' hne
        ((hoths first hfirstId).of_some hfst) ((hoths second hsecondId).of_some hsnd)
    · intro otherId thread other hne hthr hoth turn hturn turn' hturn' hid
      rw [hins hthr] at hturn
      exact hfresh turn hturn otherId other hne hoth turn' hturn' hid.symm

end CodevoEditor.Threads
