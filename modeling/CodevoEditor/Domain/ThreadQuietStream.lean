/-
# Quietly streamed turns

`agentTurnQuietlyStreamed` in `src/domain/agentThreadQuietStream.ts`: by identity alone, that a
newer version of a turn only had text appended.
-/

import CodevoEditor.Domain.BackgroundActivity

namespace CodevoEditor.Domain

open Js AgentEvents List

variable {ν : Type*}

/-- A turn: the list that its `events` are, and its other own fields.  A value is what `Object.is`
tells apart, `none` being `undefined`. -/
structure AgentTurnObject (ν : Type*) where
  events : ℕ
  fields : List (JsString × Option ν)

/-- The turns, lists of events and events that there are, by their identity. -/
structure AgentTurnHeap (ν : Type*) where
  turn : ℕ → AgentTurnObject ν
  list : ℕ → List ℕ
  event : ℕ → AgentTurnEvent

def streamedTurnFields : List JsString := [js "events", js "lastOutputSequence", js "streamMetrics"]

def isQuietEventKind : AgentTurnEvent → Bool
  | .assistantText _ | .reasoning _ | .contextUsage _ => true
  | _ => false

def rootForegroundStart : AgentTurnEvent → Bool
  | .assistantText event | .reasoning event => event.parentToolId = none
  | _ => false

def coalescedText : AgentTurnEvent → AgentTurnEvent → Bool
  | .assistantText previous, .assistantText replacement | .reasoning previous, .reasoning replacement =>
      replacement.parentToolId = previous.parentToolId && previous.text.isPrefixOf replacement.text
  | _, _ => false

/-- `rootForegroundAlreadyRunning`, of the events from the last one on. -/
def runningBackwards : List AgentTurnEvent → Bool
  | [] => true
  | .result _ :: _ => false
  | .userMessage _ :: _ => true
  | event :: events => rootForegroundStart event ||
      (match event with
        | .toolCall call => decide (call.parentToolId = none)
        | _ => false) ||
      runningBackwards events

def rootForegroundAlreadyRunning (events : List AgentTurnEvent) : Bool := runningBackwards events.reverse

def AgentTurnObject.fieldOf (turn : AgentTurnObject ν) (key : JsString) : Option ν :=
  ((turn.fields.find? (·.1 = key)).map Prod.snd).join

def sameTurnFacts [DecidableEq ν] (shown next : AgentTurnObject ν) : Bool :=
  ((shown.fields ++ next.fields).map Prod.fst).all fun key =>
    streamedTurnFields.contains key || shown.fieldOf key = next.fieldOf key

namespace AgentTurnHeap

variable (heap : AgentTurnHeap ν)

/-- The index of the first event that is not as it was. -/
def firstChanged (shown next : List ℕ) : Option ℕ :=
  match shown.getLast?, next[shown.length - 1]? with
  | none, _ => some shown.length
  | some _, none => none
  | some last, some replacement =>
      if last = replacement then some shown.length
      else if coalescedText (heap.event last) (heap.event replacement) then some (shown.length - 1)
      else none

def quietEventsAppended (shown next : ℕ) : Bool :=
  if shown = next then true
  else
    let before := heap.list shown
    let after := heap.list next
    if after.length < before.length then false
    else if before.take (before.length - 1) ≠ after.take (before.length - 1) then false
    else match heap.firstChanged before after with
      | none => false
      | some firstChanged =>
        let changed := (after.drop firstChanged).map heap.event
        if firstChanged = after.length then true
        else if !changed.all isQuietEventKind then false
        else if !changed.any rootForegroundStart then true
        else rootForegroundAlreadyRunning (before.map heap.event)

def agentTurnQuietlyStreamed [DecidableEq ν] (shown next : ℕ) : Bool :=
  if shown = next then true
  else if !sameTurnFacts (heap.turn shown) (heap.turn next) then false
  else heap.quietEventsAppended (heap.turn shown).events (heap.turn next).events

def turnEvents (turn : ℕ) : List AgentTurnEvent := (heap.list (heap.turn turn).events).map heap.event

end AgentTurnHeap

namespace TaskTable

variable {full : ℕ → Bool} {processAlive : Bool} {table : TaskTable}

lemma step_foregroundSettled (event) :
    (table.step full processAlive event).foregroundSettled = (table.observeForeground event).foregroundSettled := by
  unfold step
  split
  · split
    · unfold observeSubagent
      dsimp only
      split
      · rfl
      · split_ifs <;> rfl
    · rfl
  · split
    · unfold observeTask
      dsimp only
      split_ifs <;> rfl
    · rfl
  · rfl

lemma foregroundSettled_of_running (hst : table.foregroundSettled = false) {events}
    (h : rootForegroundAlreadyRunning events) :
    (events.foldl (step full processAlive) table).foregroundSettled = false := by
  induction events using reverseRecOn with
  | nil => exact hst
  | append_singleton events event ih =>
    rw [rootForegroundAlreadyRunning, reverse_append, reverse_singleton, singleton_append] at h
    rw [foldl_append, foldl_cons, foldl_nil, step_foregroundSettled]
    have hearlier (h : runningBackwards events.reverse = true) := ih h
    cases event <;>
      simp_all [runningBackwards, rootForegroundStart, observeForeground, startsRootForeground] <;> grind

lemma step_quiet {event} (hqt : isQuietEventKind event)
    (hrun : rootForegroundStart event → table.foregroundSettled = false) :
    table.step full processAlive event = table := by
  have hroot {parentToolId : Option JsString}
      (h : decide (parentToolId = none) = true → table.foregroundSettled = false) :
      (if decide (parentToolId = none) then { table with foregroundSettled := false } else table) = table := by
    split_ifs with hnone
    · rw [← h hnone]
    · rfl
  cases event with
  | assistantText event | reasoning event => exact hroot hrun
  | contextUsage => rfl
  | _ => cases hqt

lemma foldl_quiet {changed : List AgentTurnEvent} (hqt : changed.all isQuietEventKind)
    (hrun : changed.any rootForegroundStart → table.foregroundSettled = false) :
    changed.foldl (step full processAlive) table = table := by
  induction changed with
  | nil => rfl
  | cons event changed ih =>
    obtain ⟨hev, hqt⟩ := (Bool.and_eq_true ..).mp hqt
    rw [foldl_cons, step_quiet hev fun h => hrun (Bool.or_eq_true_iff.2 (.inl h))]
    exact ih hqt fun h => hrun (Bool.or_eq_true_iff.2 (.inr h))

lemma step_coalescedText {previous replacement} (h : coalescedText previous replacement) :
    table.step full processAlive replacement = table.step full processAlive previous := by
  unfold coalescedText at h
  split at h <;> simp_all [step, observeForeground, startsRootForeground]

lemma foldl_quietEventsAppended {heap : AgentTurnHeap ν} {shown next} (hstl : table.foregroundSettled = false)
    (h : heap.quietEventsAppended shown next) :
    ((heap.list next).map heap.event).foldl (step full processAlive) table =
      ((heap.list shown).map heap.event).foldl (step full processAlive) table := by
  unfold AgentTurnHeap.quietEventsAppended at h
  dsimp only at h
  split_ifs at h with hsame hsht hpre
  · rw [hsame]
  generalize heap.list shown = before at *
  generalize heap.list next = after at *
  rw [not_ne_iff] at hpre
  split at h
  · cases h
  case h_2 changed hchg =>
  obtain ⟨hqt, hrun⟩ : ((after.drop changed).map heap.event).all isQuietEventKind ∧
      (((after.drop changed).map heap.event).any rootForegroundStart →
        ((before.map heap.event).foldl (step full processAlive) table).foregroundSettled = false) := by
    split_ifs at h with hidx hqt hstarts
    · rw [hidx, drop_length]
      exact ⟨rfl, nofun⟩
    · exact ⟨by simpa using hqt, fun hany => absurd hany (by simpa using hstarts)⟩
    · exact ⟨by simpa using hqt, fun _ => foregroundSettled_of_running hstl h⟩
  rcases eq_nil_or_concat' before with rfl | ⟨front, last, rfl⟩
  · obtain rfl : 0 = changed := Option.some.inj hchg
    rw [drop_zero] at hqt hrun
    exact foldl_quiet hqt hrun
  obtain ⟨replacement, rest, rfl⟩ : ∃ replacement rest, after = front ++ replacement :: rest := by
    rw [length_append, length_singleton, Nat.add_sub_cancel, take_left] at hpre
    rw [length_append, length_singleton, not_lt] at hsht
    have hcut := take_append_drop front.length after
    rw [← hpre, drop_eq_getElem_cons (by omega)] at hcut
    exact ⟨_, _, hcut.symm⟩
  have hfold (hstep : ∀ table : TaskTable, table.step full processAlive (heap.event replacement) =
        table.step full processAlive (heap.event last)) (hqt : (rest.map heap.event).all isQuietEventKind)
      (hrun : (rest.map heap.event).any rootForegroundStart →
        (((front ++ [last]).map heap.event).foldl (step full processAlive) table).foregroundSettled = false) :
      ((front ++ replacement :: rest).map heap.event).foldl (step full processAlive) table =
        ((front ++ [last]).map heap.event).foldl (step full processAlive) table := by
    calc
      _ = (rest.map heap.event).foldl (step full processAlive)
          (((front ++ [last]).map heap.event).foldl (step full processAlive) table) := by
        simp only [map_append, map_cons, map_nil, foldl_append, foldl_cons,
          foldl_nil, hstep]
      _ = _ := foldl_quiet hqt hrun
  rw [AgentTurnHeap.firstChanged, getLast?_concat, length_append, length_singleton,
    Nat.add_sub_cancel, getElem?_append_right le_rfl, Nat.sub_self] at hchg
  dsimp only [getElem?_cons_zero] at hchg
  split_ifs at hchg with hlast hcoal
  · obtain rfl := Option.some.inj hchg
    rw [append_cons, drop_left' (by simp)] at hqt hrun
    exact hfold (fun _ => by rw [hlast]) hqt hrun
  · obtain rfl := Option.some.inj hchg
    rw [drop_left] at hqt hrun
    obtain ⟨-, hqt⟩ := (Bool.and_eq_true ..).mp hqt
    exact hfold (fun _ => step_coalescedText hcoal) hqt fun h => hrun (Bool.or_eq_true_iff.2 (.inr h))

end TaskTable

/-- **A quiet stream changes no activity** of the turn that it streams to. -/
theorem quietlyStreamed_activity [DecidableEq ν] (heap : AgentTurnHeap ν) {shown next}
    (h : heap.agentTurnQuietlyStreamed shown next)
    (processAlive eventsTruncated) :
    projectAgentBackgroundActivity (heap.turnEvents next) processAlive eventsTruncated =
      projectAgentBackgroundActivity (heap.turnEvents shown) processAlive eventsTruncated := by
  unfold AgentTurnHeap.agentTurnQuietlyStreamed at h
  split_ifs at h with hsame hfacts
  · rw [hsame]
  · exact projectAgentBackgroundActivity_congr (TaskTable.foldl_quietEventsAppended rfl h)

/-- Text goes on after a message of the user. -/
theorem quietlyStreamed_activity_sample :
    let heap : AgentTurnHeap Unit :=
      { turn := fun turn => ⟨turn, [(js "lastOutputSequence", if turn = 0 then none else some ())]⟩
        list := fun list => [0, list + 1]
        event := fun event => if event = 0 then .userMessage { text := js "a" } else
          .assistantText { text := js (if event = 1 then "b" else "bc") } }
    projectAgentBackgroundActivity (heap.turnEvents 1) true false =
      projectAgentBackgroundActivity (heap.turnEvents 0) true false :=
  quietlyStreamed_activity _ (by decide +kernel) true false

end CodevoEditor.Domain
