/-
# The tail of a turn

`src/domain/agentTurnTailSelection.ts` and `capTurnTail`: of a turn that is too long the result
and the last reply are taken first, then what the user wrote, then the other replies, then
everything else, the newest first.
-/

import CodevoEditor.AgentEvents.Merge
import Mathlib.Data.List.Range

namespace CodevoEditor.Persistence

open Js AgentEvents

/-- `maxBytes` is `none` for `Number.POSITIVE_INFINITY`. -/
structure AgentTurnTailBudget where
  maxEvents : ℕ
  maxBytes : Option ℕ
  eventBytes : AgentTurnEvent → ℕ

/-- `bytes <= maxBytes`. -/
def AgentTurnTailBudget.holds (budget : AgentTurnTailBudget) (bytes : ℕ) : Bool :=
  budget.maxBytes.all (bytes ≤ ·)

def isAgentMainReply : AgentTurnEvent → Bool
  | .assistantText event => event.parentToolId = none
  | _ => false

variable (events : List AgentTurnEvent)

def lastIndexWhere (test : AgentTurnEvent → Bool) : Option ℕ :=
  (List.range events.length).reverse.find? fun index => events[index]?.any test

def distinctSubagentThreads : ℕ :=
  (events.filterMap (·.agentThreadId?)).dedup.length

def agentTurnTailFits (budget : AgentTurnTailBudget) : Bool :=
  events.length ≤ budget.maxEvents && distinctSubagentThreads events ≤ maxSubagentThreadsPerTurn &&
    budget.holds (events.map budget.eventBytes).sum

def wouldFuse (previous next : ℕ) : Bool :=
  if next ≤ previous + 1 then false
  else
    match events[previous]?, events[next]? with
    | some last, some event => (coalesceAgentTextEvents last event).isSome
    | _, _ => false

/-- `TailSelection`; `kept` is in the order of taking. -/
structure TailSelection where
  kept : List ℕ := []
  threads : OrderedMap JsString ℕ := ⟨[], List.nodup_nil⟩
  bytes : ℕ := 0

namespace TailSelection

variable (events : List AgentTurnEvent) (budget : AgentTurnTailBudget)

/-- `subagentThreadOf(events[index])`. -/
def threadAt (index : ℕ) : Option JsString := events[index]?.bind (·.agentThreadId?)

def bytesAt (index : ℕ) : ℕ := (events[index]?.map budget.eventBytes).getD 0

variable (selection : TailSelection)

def full : Bool := budget.maxEvents ≤ selection.kept.length

def threadsFit (added : List ℕ) : Bool :=
  let fresh := (added.filterMap (threadAt events)).filter fun thread =>
    (selection.threads.get? thread).isNone
  selection.threads.entries.length + fresh.dedup.length ≤ maxSubagentThreadsPerTurn

def adopt (index : ℕ) : TailSelection :=
  let kept := selection.kept ++ [index]
  match threadAt events index with
  | none => { selection with kept := kept }
  | some thread =>
      { selection with
        kept := kept
        threads := selection.threads.set thread ((selection.threads.get? thread).getD 0 + 1) }

def take (indices : List ℕ) : TailSelection × Bool :=
  let added := indices.dedup.filter (· ∉ selection.kept)
  if budget.maxEvents < selection.kept.length + added.length then (selection, false)
  else
    let size := (added.map (bytesAt events budget)).sum
    if !budget.holds (selection.bytes + size) then (selection, false)
    else if !selection.threadsFit events added then (selection, false)
    else
      let adopted := added.foldl (adopt events) selection
      ({ adopted with bytes := adopted.bytes + size }, true)

def release (index : ℕ) : TailSelection :=
  if index ∉ selection.kept then selection
  else
    let released := { selection with
      kept := selection.kept.filter (· ≠ index)
      bytes := selection.bytes - bytesAt events budget index }
    match threadAt events index with
    | none => released
    | some thread =>
        let remaining := (selection.threads.get? thread).getD 0 - 1
        if 0 < remaining then { released with threads := selection.threads.set thread remaining }
        else { released with threads := selection.threads.delete thread }

end TailSelection

section

variable (events : List AgentTurnEvent) (budget : AgentTurnTailBudget)

/-- The loop of `takeNewestFirst` from `count - 1` down. -/
def takeNewestFirst (selected : AgentTurnEvent → Bool) : ℕ → TailSelection → TailSelection
  | 0, selection => selection
  | index + 1, selection =>
      if selection.full budget then selection
      else if events[index]?.any selected then
        takeNewestFirst selected index (selection.take events budget [index]).1
      else takeNewestFirst selected index selection

/-- The loop of `takeRepliesNewestFirst` from `count - 1` down. -/
def takeRepliesNewestFirst : ℕ → Option ℕ → TailSelection → TailSelection
  | 0, _, selection => selection
  | index + 1, nearest, selection =>
      if index ∈ selection.kept then takeRepliesNewestFirst index (some index) selection
      else if !events[index]?.any isAgentMainReply then takeRepliesNewestFirst index nearest selection
      else
        let taking := match nearest with
          | some next => if wouldFuse events index next then [index, next - 1] else [index]
          | none => [index]
        match selection.take events budget taking with
        | (selection, false) => selection
        | (selection, true) => takeRepliesNewestFirst index (some index) selection

/-- The inner loop of `keepTextBoundaries`, down the indices `retained` so far. -/
def keepBoundary (index : ℕ) : TailSelection → List ℕ → TailSelection × List ℕ
  | selection, [] => (selection, [])
  | selection, previous :: retained =>
      if !wouldFuse events previous index then (selection, previous :: retained)
      else
        match wouldFuse events previous (index - 1), selection.take events budget [index - 1] with
        | false, (selection, true) => (selection, (index - 1) :: previous :: retained)
        | _, _ => keepBoundary index (selection.release events budget previous) retained

def keepTextBoundaries (selection : TailSelection) : TailSelection :=
  ((selection.kept.mergeSort (· ≤ ·)).foldl
    (fun progress index =>
      let (selection, retained) := keepBoundary events budget index progress.1 progress.2
      (selection, index :: retained)) (selection, [])).1

/-- `selectAgentTurnTail`; the indices that are kept. -/
def selectAgentTurnTail : List ℕ :=
  let closing := lastIndexWhere events fun event =>
    match event with
    | .result _ => true
    | _ => false
  let started : TailSelection := closing.elim {} fun index =>
    (({} : TailSelection).take events budget [index]).1
  let answered := (lastIndexWhere events isAgentMainReply).elim started fun index =>
    (started.take events budget [index]).1
  let asked := takeNewestFirst events budget (·.isUserMessage) events.length answered
  let replied := takeRepliesNewestFirst events budget events.length none asked
  let filled := takeNewestFirst events budget (fun _ => true) events.length replied
  (keepTextBoundaries events budget filled).kept

end

/-- `values.filter((_value, index) => keep(index))`, from an index on. -/
def keepFrom {α : Type} (keep : ℕ → Bool) : ℕ → List α → List α
  | _, [] => []
  | index, value :: values =>
      if keep index then value :: keepFrom keep (index + 1) values else keepFrom keep (index + 1) values

def filterIndex {α : Type} (keep : ℕ → Bool) (values : List α) : List α := keepFrom keep 0 values

/-- The indices that `capTurnTail` keeps. -/
def keepsTail (budget : AgentTurnTailBudget) (index : ℕ) : Bool :=
  agentTurnTailFits events budget || index ∈ selectAgentTurnTail events budget

def capTurnTail (budget : AgentTurnTailBudget) : List AgentTurnEvent :=
  if agentTurnTailFits events budget then events
  else
    let kept := selectAgentTurnTail events budget
    filterIndex (· ∈ kept) events

end CodevoEditor.Persistence
