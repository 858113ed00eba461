/-
# The final answer of a turn

The tail of a turn takes the last main reply for its answer (`isAgentMainReply`), the skeleton
and the guard of the newest turn the last text of any agent (`isAssistantText`).
-/

import CodevoEditor.Persistence.TailBudget

namespace CodevoEditor.Persistence

open Js AgentEvents Threads

variable {events : List AgentTurnEvent} {answer : ℕ}

variable {event : AgentTurnEvent}

lemma isAssistantText_of_isAgentMainReply (h : isAgentMainReply event) : isAssistantText event := by
  cases event with
  | assistantText => rfl
  | _ => cases h

/-- No text, of whatever agent, follows the answer. -/
def Unfollowed (events : List AgentTurnEvent) (answer : ℕ) : Prop :=
  ∀ later event, answer < later → events[later]? = some event → isAssistantText event = false

lemma lastIndexWhere_isAssistantText_iff (h : lastIndexWhere events isAgentMainReply = some answer) :
    lastIndexWhere events isAssistantText = some answer ↔ Unfollowed events answer := by
  obtain ⟨⟨event, hget, hreply⟩, -⟩ := lastIndexWhere_eq_some_iff.1 h
  rw [lastIndexWhere_eq_some_iff]
  exact and_iff_right ⟨event, hget, isAssistantText_of_isAgentMainReply hreply⟩

variable {index : ℕ}

lemma eq_of_lastIndexWhere (h : lastIndexWhere events isAgentMainReply = some answer)
    (hget : events[index]? = some event) (hreply : isAgentMainReply event)
    (hlast : lastIndexWhere events isAssistantText = some index) : index = answer := by
  obtain ⟨⟨own, hown, howned⟩, hlat⟩ := lastIndexWhere_eq_some_iff.1 h
  obtain ⟨-, hlaterText⟩ := lastIndexWhere_eq_some_iff.1 hlast
  rcases lt_trichotomy index answer with hlt | heq | hgt
  · have hnone := hlaterText answer own hlt hown
    rw [isAssistantText_of_isAgentMainReply howned] at hnone
    cases hnone
  · exact heq
  · have hnone := hlat index event hgt hget
    rw [hreply] at hnone
    cases hnone

lemma any_filterIndex (keep : ℕ → Bool) (test : AgentTurnEvent → Bool) :
    (filterIndex keep events).any test ↔ ∃ index event, keep index ∧ events[index]? = some event ∧ test event := by
  rw [filterIndex_eq, List.any_eq_true]
  constructor
  · rintro ⟨event, hmem, htest⟩
    obtain ⟨index, hidx, hget⟩ := List.mem_filterMap.1 hmem
    exact ⟨index, event, (List.mem_filter.1 hidx).2, hget, htest⟩
  · rintro ⟨index, event, hkeep, hget, htest⟩
    obtain ⟨hlt, -⟩ := List.getElem?_eq_some_iff.1 hget
    exact ⟨event, List.mem_filterMap.2 ⟨index, List.mem_filter.2 ⟨List.mem_range.2 hlt, hkeep⟩, hget⟩, htest⟩

/-- The indices that a skeleton keeps. -/
def skeletonKeeps (events : List AgentTurnEvent) (index : ℕ) : Bool :=
  events[index]?.any (·.isUserMessage) || lastIndexWhere events isResult = some index ||
    lastIndexWhere events isAssistantText = some index

lemma agentTurnSkeletonEvents_eq (events) :
    agentTurnSkeletonEvents events = filterIndex (skeletonKeeps events) events := rfl

lemma lastIndexWhere_result_ne (hget : events[index]? = some event)
    (hreply : isAgentMainReply event) : lastIndexWhere events isResult ≠ some index := by
  intro h
  obtain ⟨⟨other, hoth, hres⟩, -⟩ := lastIndexWhere_eq_some_iff.1 h
  obtain rfl := Option.some.inj (hget.symm.trans hoth)
  cases event with
  | result => cases hreply
  | _ => cases hres

lemma skeletonKeeps_iff (hget : events[index]? = some event)
    (hreply : isAgentMainReply event) :
    skeletonKeeps events index ↔ lastIndexWhere events isAssistantText = some index := by
  have hwrit : event.isUserMessage = false := by
    cases event with
    | userMessage => cases hreply
    | _ => rfl
  unfold skeletonKeeps
  rw [hget, Option.any_some, hwrit, Bool.false_or, decide_eq_false (lastIndexWhere_result_ne hget hreply),
    Bool.false_or, decide_eq_true_iff]

/-- **The answer of a skeleton, and what is guarded.**  Both are the last main reply if and only if no text
follows it. -/
theorem mainReply_kept_iff (h : lastIndexWhere events isAgentMainReply = some answer) :
    ((agentTurnSkeletonEvents events).any isAgentMainReply ↔ Unfollowed events answer) ∧
      (finalAnswerIndices events answer ↔ Unfollowed events answer) := by
  obtain ⟨⟨event, hget, hreply⟩, -⟩ := lastIndexWhere_eq_some_iff.1 h
  have hlast := lastIndexWhere_isAssistantText_iff h
  refine ⟨?_, ?_⟩
  · rw [agentTurnSkeletonEvents_eq, any_filterIndex, ← hlast]
    constructor
    · rintro ⟨index, other, hkeep, hother, htest⟩
      have htext := (skeletonKeeps_iff hother htest).1 hkeep
      rwa [eq_of_lastIndexWhere h hother htest htext] at htext
    · intro htext
      exact ⟨answer, event, (skeletonKeeps_iff hget hreply).2 htext, hget, hreply⟩
  · unfold finalAnswerIndices
    rw [decide_eq_false (lastIndexWhere_result_ne hget hreply), Bool.or_false, decide_eq_true_iff, hlast]

/-- A main reply and a text of a child agent. -/
def followedTurn : List AgentTurnEvent :=
  [.assistantText ⟨js "the answer", none⟩, .assistantText ⟨js "of a child", some (js "task")⟩]

theorem mainReply_kept_iff_sample :
    lastIndexWhere (followedTurn.take 1) isAgentMainReply = some 0 ∧
      (agentTurnSkeletonEvents (followedTurn.take 1)).any isAgentMainReply := by
  have hlast : lastIndexWhere (followedTurn.take 1) isAgentMainReply = some 0 := by decide
  refine ⟨hlast, (mainReply_kept_iff hlast).1.2 fun later event hlate hget => ?_⟩
  obtain ⟨hlt, -⟩ := List.getElem?_eq_some_iff.1 hget
  have hlen : (followedTurn.take 1).length = 1 := rfl
  omega

/-- What every event writes is one byte. -/
def briefJson : Json := ⟨fun _ => js "e", fun _ => js "t", fun _ => js "l", id⟩

def settledTurn (events : List AgentTurnEvent) : AgentTurn :=
  { turnId := js "turn", prompt := js "ask", status := .task (.exited 0), startedAtEpochMs := 0
    endedAtEpochMs := some 1, events := events, eventsTruncated := false, lastStatusSequence := 1
    lastOutputSequence := 1, launch := none, cliVersion := none }

/-- Four bytes are enough for the reply of the older turn and the event of the newer one, but the text of
the child agent is kept, and guarded. -/
theorem mainReply_lost :
    lastIndexWhere followedTurn isAgentMainReply = some 0 ∧
      ((fitThreadBudget briefJson ([followedTurn, [.error (js "end")]].map fun events =>
          openSlot briefJson (settledTurn events)) 4).map (·.events) =
        [[.assistantText ⟨js "of a child", some (js "task")⟩], [.error (js "end")]]) ∧
      agentTurnSkeletonEvents followedTurn = [.assistantText ⟨js "of a child", some (js "task")⟩] ∧
      finalAnswerIndices followedTurn 0 = false := by
  decide +kernel

end CodevoEditor.Persistence
