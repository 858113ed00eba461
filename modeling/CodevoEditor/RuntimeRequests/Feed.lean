/-
# The feed of changes

`src-tauri/src/agent_runtime_requests/feed.rs`: what still has to be sent to the views. Marked
turns wait in `dirty`, each with one hint.

What the emitter sends for a piece of work is not modelled; what it says at the end of it is any
`Operation.finished`.
-/

import CodevoEditor.RuntimeRequests.Model
import CodevoEditor.Js.OrderedMap
import CodevoEditor.Runs.Labelled
import Mathlib.Order.Nat

namespace CodevoEditor.RuntimeRequests

open Js

structure ThreadFlags where
  journal : JournalState
  truncated : Bool
  unreadable : ℕ
  deriving DecidableEq

abbrev ThreadKey := HistoryScope × String

structure ThreadMemory where
  workspaceId : String
  flags : Option ThreadFlags

structure FeedLimits where
  turns : ℕ
  threads : ℕ
  resets : ℕ

structure Hint where
  workspaceId : Option String
  pushedThrough : Option ℕ
  deriving DecidableEq

structure ResetTarget where
  key : ThreadKey
  workspaceId : Option String
  deriving DecidableEq

structure FeedState where
  dirty : List TurnAuthority
  hints : OrderedMap TurnAuthority Hint
  threads : OrderedMap ThreadKey ThreadMemory
  threadOrder : List ThreadKey
  resets : List ResetTarget
  resetAll : Bool
  emitting : Bool
  closed : Bool

inductive Work
  | invalidate
  | reset (target : ResetTarget) (flags : Option ThreadFlags)
  | turn (turn : TurnAuthority) (hint : Hint) (flags : Option ThreadFlags)
  deriving DecidableEq

inductive Next
  | work (work : Work)
  | idle
  | closed

namespace FeedState

def start : FeedState where
  dirty := []
  hints := .empty
  threads := .empty
  threadOrder := []
  resets := []
  resetAll := false
  emitting := false
  closed := false

variable (state : FeedState) (key : ThreadKey)

def workspaceOf : Option String :=
  (state.threads.get? key).map ThreadMemory.workspaceId

def flagsOf : Option ThreadFlags :=
  (state.threads.get? key).bind ThreadMemory.flags

/-- The threads that are known in the order `order`; the oldest go until `limit` are left. -/
def forgetThreads (limit : ℕ) : List ThreadKey → FeedState → FeedState
  | [], state => state
  | oldest :: order, state =>
    if limit < (oldest :: order).length then
      forgetThreads limit order { state with threadOrder := order, threads := state.threads.delete oldest }
    else state

def remember (workspaceId : String) (limits : FeedLimits) : FeedState :=
  match state.threads.get? key with
  | some known =>
    { state with threads := state.threads.set key { known with workspaceId := workspaceId } }
  | none =>
    forgetThreads limits.threads (state.threadOrder ++ [key])
      { state with
        threads := state.threads.set key ⟨workspaceId, none⟩
        threadOrder := state.threadOrder ++ [key] }

/-- The first reset of a thread that waits gets a workspace, where it has none. -/
def placeReset (key : ThreadKey) (workspaceId : Option String) : List ResetTarget → List ResetTarget
  | [] => []
  | queued :: resets =>
    if queued.key = key then
      { queued with workspaceId := queued.workspaceId.or workspaceId } :: resets
    else queued :: placeReset key workspaceId resets

def reset (workspaceId : Option String) (limits : FeedLimits) : FeedState :=
  let workspaceId := workspaceId.or (state.workspaceOf key)
  if state.resets.any (·.key = key) then
    { state with resets := placeReset key workspaceId state.resets }
  else if limits.resets ≤ state.resets.length then { state with resetAll := true }
  else { state with resets := state.resets ++ [⟨key, workspaceId⟩] }

def rememberNamed (workspaceId : Option String) (limits : FeedLimits) : FeedState :=
  match workspaceId with
  | some workspaceId => state.remember key workspaceId limits
  | none => state

def queueTurn (turn : TurnAuthority) (hint : Hint) (limits : FeedLimits) : FeedState :=
  match state.hints.get? turn with
  | some known =>
    { state with
      hints := state.hints.set turn
        ⟨hint.workspaceId.or known.workspaceId, known.pushedThrough.or hint.pushedThrough⟩ }
  | none =>
    if limits.turns ≤ state.hints.size then state.reset turn.thread hint.workspaceId limits
    else { state with hints := state.hints.set turn hint, dirty := state.dirty ++ [turn] }

def mark (turn : TurnAuthority) (hint : Hint) (limits : FeedLimits) : FeedState :=
  (state.rememberNamed turn.thread hint.workspaceId limits).queueTurn turn hint limits

def resetKnown : FeedState :=
  if state.resets.any (·.key = key) then state
  else { state with resets := state.resets ++ [⟨key, state.workspaceOf key⟩] }

def resetEveryKnownThread : FeedState :=
  { state.threadOrder.foldl resetKnown state with resetAll := false }

/-- What is handed out once the lock is held, and nothing has to be waited for. -/
def next : Next × FeedState :=
  if state.closed then (.closed, state)
  else if state.resetAll then
    (.work .invalidate, { state.resetEveryKnownThread with emitting := true })
  else match state.resets with
    | target :: resets =>
      (.work (.reset target (state.flagsOf target.key)), { state with resets := resets, emitting := true })
    | [] => match state.dirty with
      | [] => (.idle, state)
      | turn :: dirty =>
        let hint := (state.hints.get? turn).getD ⟨none, none⟩
        (.work (.turn turn
            { hint with workspaceId := hint.workspaceId.or (state.workspaceOf turn.thread) }
            (state.flagsOf turn.thread)),
          { state with dirty := dirty, hints := state.hints.delete turn, emitting := true })

def keepFlags (flags : ThreadFlags) : FeedState :=
  match state.threads.get? key with
  | some known => { state with threads := state.threads.set key { known with flags := some flags } }
  | none => state

def finished (key : Option ThreadKey)
    (emitted : Option (Option String × ThreadFlags)) (limits : FeedLimits) : FeedState :=
  let state := { state with emitting := false }
  match key, emitted with
  | some key, some (workspaceId, flags) =>
    (state.rememberNamed key workspaceId limits).keepFlags key flags
  | _, _ => state

end FeedState

namespace Feed

inductive Operation
  | turnChanged (turn : TurnAuthority) (hint : Hint)
  | threadReset (key : ThreadKey) (workspaceId : String)
  | threadReadableAgain (key : ThreadKey)
  | next
  | finished (key : Option ThreadKey) (emitted : Option (Option String × ThreadFlags))
  | close
  deriving DecidableEq

/-- What an operation does, and the work that it hands out. -/
def Operation.apply (limits : FeedLimits) (state : FeedState) : Operation → FeedState × Option Work
  | turnChanged turn hint => (state.mark turn hint limits, none)
  | threadReset key workspaceId =>
    ((state.remember key workspaceId limits).reset key (some workspaceId) limits, none)
  | threadReadableAgain key => (state.reset key none limits, none)
  | next => match state.next with
    | (.work work, state) => (state, some work)
    | (.idle, state) | (.closed, state) => (state, none)
  | finished key emitted => (state.finished key emitted limits, none)
  | close => ({ state with closed := true }, none)

/-- The operation asks for a reset of a thread. -/
def Operation.AsksReset (operation : Operation) (key : ThreadKey) : Prop :=
  operation = .threadReadableAgain key ∨ ∃ workspaceId, operation = .threadReset key workspaceId

/-- A step leaves the work that it hands out. -/
inductive Feeds (limits : FeedLimits) : FeedState → List Work → FeedState → Prop
  | op (state : FeedState) (operation : Operation) :
      Feeds limits state (operation.apply limits state).2.toList (operation.apply limits state).1

end Feed

/-- What a piece of work is about for a thread. -/
def Work.coversThread (work : Work) (key : ThreadKey) : Bool :=
  match work with
  | .invalidate => true
  | .reset target _ => target.key = key
  | .turn .. => false

def Work.covers (work : Work) (turn : TurnAuthority) : Bool :=
  work.coversThread turn.thread || match work with
    | .turn marked .. => marked = turn
    | .invalidate | .reset .. => false

end CodevoEditor.RuntimeRequests
