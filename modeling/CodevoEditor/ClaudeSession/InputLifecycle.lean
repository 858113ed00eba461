/-
# The ledger of accepted commands

`agent_claude_input_lifecycle.rs`: what a turn has written to the input of its session, by the id
of the command.
-/

import CodevoEditor.ClaudeSession.Message
import CodevoEditor.Js.OrderedMap

namespace CodevoEditor.ClaudeSession

open Js

def followUpNotCompleted : String := "Claude did not complete an accepted follow-up message."

structure Pending where
  startedAfter : Option ℕ
  completed : Bool

/-- What `discharge_finished` does not retain. -/
def Pending.finished (pending : Pending) (results : ℕ) : Bool :=
  pending.completed && pending.startedAfter.any (· < results)

structure ClaudeInputLifecycle where
  initialId : String
  supported : Bool
  closed : Bool
  results : ℕ
  pending : OrderedMap String Pending
  interrupted : List String
  withdrawable : OrderedMap String Pending

namespace ClaudeInputLifecycle

variable {ν : Type}

/-- `new`, with the id that it draws. -/
def new (initialId : String) : ClaudeInputLifecycle :=
  ⟨initialId, false, false, 0, .empty, [], .empty⟩

variable (lifecycle : ClaudeInputLifecycle)

def namesCommand (id : String) : Bool :=
  if id = "" then false
  else if id = lifecycle.initialId then true
  else lifecycle.pending.has id || lifecycle.interrupted.contains id

/-- `advance`; `none` where it fails. -/
def advance (pending : Pending) (phase : String) (results : ℕ) : Option Pending :=
  if phase = "started" then
    some { pending with startedAfter := some (pending.startedAfter.getD results) }
  else if phase = "completed" then some { pending with completed := true }
  else if phase = "cancelled" ∨ phase = "discarded" ∨ phase = "refused" then none
  else some pending

def dischargeFinished : ClaudeInputLifecycle :=
  { lifecycle with
    pending := {
      entries := lifecycle.pending.entries.filter fun entry =>
        !entry.2.finished lifecycle.results
      nodup := lifecycle.pending.nodup.sublist (List.filter_sublist.map _) } }

/-- The branch of `observe` for a `command_lifecycle`. -/
def observeCommand (message : Json ν) : ClaudeInputLifecycle × Except String Unit :=
  let id := (message.strOf "command_uuid").getD ""
  let phase := (message.strOf "state").getD ""
  let lifecycle :=
    if id = lifecycle.initialId ∧ (phase = "queued" ∨ phase = "started") then
      { lifecycle with supported := true }
    else lifecycle
  let advanced : Option (OrderedMap String Pending) :=
    match lifecycle.pending.get? id with
    | none => some lifecycle.pending
    | some pending =>
      (advance pending phase lifecycle.results).map fun next => lifecycle.pending.set id next
  match advanced with
  | none => (lifecycle, .error followUpNotCompleted)
  | some pending =>
    let withdrawable := match lifecycle.withdrawable.get? id with
      | none => lifecycle.withdrawable
      | some progress =>
        match advance progress phase lifecycle.results with
        | none => lifecycle.withdrawable.delete id
        | some next => lifecycle.withdrawable.set id next
    ({ lifecycle with pending := pending, withdrawable := withdrawable }.dischargeFinished, .ok ())

def observe (message : Json ν) : ClaudeInputLifecycle × Except String Unit :=
  let lifecycle :=
    if message.strOf "type" = some "result" then
      { lifecycle with results := min (lifecycle.results + 1) (2 ^ 64 - 1) }
    else lifecycle
  if message.strOf "type" = some "command_lifecycle" then lifecycle.observeCommand message
  else (lifecycle.dischargeFinished, .ok ())

def closeIfSettled : ClaudeInputLifecycle × Bool :=
  if lifecycle.pending.size ≠ 0 then (lifecycle, false) else ({ lifecycle with closed := true }, true)

end ClaudeInputLifecycle

end CodevoEditor.ClaudeSession
