/-
# Requests to a host that can fail

`src-tauri/src/codex_app_server_transport.rs`: requests, the responses that the reader settles
them with, the failure of the host, and the receivers that subscribe meanwhile.

What the reader has read and what was sent to a call are kept for the reader of the model.
-/

import CodevoEditor.CodexAppServer.FrameRouting

namespace CodevoEditor.CodexAppServer

open Js

def maxAppServerLineBytes : ℕ := 1024 * 1024

def appServerWriteQueueCapacity : ℕ := 64

def maxPendingRequests : ℕ := 64

def appServerOutboundLimitError : String :=
  "The request exceeds the Codex app-server message limit and was not sent."

def appServerWriteQueueError : String := "Codex app-server write queue overflowed."

def appServerClosedError : String := "Codex app-server session is closed."

structure JsonRpcError (ρ : Type) where
  code : ℤ
  message : String
  data : Option ρ

inductive RequestId
  | number (id : ℕ)
  | string (id : String)
  | other (id : String)

def RequestId.correlated : RequestId → Option ℕ
  | .number id => some id
  | _ => none

inductive CodexRpcFailure (ρ : Type)
  | rpc (error : JsonRpcError ρ)
  | timeout
  | hostFailed (reason : String)

abbrev PendingOutcome (ρ : Type) := Except (CodexRpcFailure ρ) ρ

/-- Where a request is: what it has done last, or what it is about to do.  A request that is `refused`
or `forgotten` reads the failure, for what it returns. -/
inductive RequestStage (ρ : Type)
  | identified
  | registered
  | foundFailure (reason : String)
  | checked
  | composed
  | sending
  | refused
  | overflowed
  | failing
  | waiting
  | disconnected
  | forgetting (result : PendingOutcome ρ)
  | forgotten
  | returned (result : PendingOutcome ρ)

/-- A request: its identifier, 0 if it was given none, and the outcome that is in its channel. -/
structure RequestCall (ρ : Type) where
  id : ℕ
  stage : RequestStage ρ
  received : Option (PendingOutcome ρ)

/-- Where the failure is that was recorded: what it has still to send to, or to close. -/
inductive Draining
  | idle
  | recorded
  | writerTaken
  | sending (senders : List ℕ)
  | closing (queues : List ℕ)
  | returned
  deriving DecidableEq

def Draining.senders : Draining → List ℕ
  | .sending senders => senders
  | _ => []

inductive SubscriptionStage
  | registered
  | foundFailure (reason : String)
  | returned
  deriving DecidableEq

/-- A call of `subscribe`, and the receiver that it returns. -/
structure Subscription where
  stage : SubscriptionStage
  threadId : String
  closed : Option String
  threads : List String
  attaching : Option String
  dropped : Bool

def Subscription.close (subscription : Subscription) (reason : String) : Subscription :=
  { subscription with closed := subscription.closed.or (some reason) }

/-- `settling` is what the reader has taken out and is about to send, `responses` what it has read,
`sent` what a call was sent. -/
structure Requests (ρ : Type) where
  nextId : ℕ
  pending : OrderedMap ℕ ℕ
  lateResponses : ℕ
  calls : ℕ → Option (RequestCall ρ)
  settling : Option (ℕ × PendingOutcome ρ)
  responses : List (RequestId × PendingOutcome ρ)
  sent : ℕ → List (PendingOutcome ρ)

/-- The routes, and the subscriptions whose queues they lead to. -/
structure Queues where
  routes : OrderedMap String ℕ
  subscriptions : ℕ → Option Subscription

/-- `writer` is whether the sender to the writer thread is there, `lines` what its queue holds, and
`receiving` whether the thread takes from it. -/
structure TransportShared (ρ : Type) where
  requests : Requests ρ
  queues : Queues
  failure : Option String
  writer : Bool
  lines : ℕ
  receiving : Bool
  draining : Draining
  failsReturned : ℕ

/-- What is up to others than the request: the length of its line if it can be written, and whether the
deadline has passed. -/
inductive RequestInput
  | run
  | serialized (line : Option ℕ)
  | deadline

inductive TransportEvent (ρ : Type)
  | request (call : ℕ)
  | requestStep (call : ℕ) (input : RequestInput)
  | respond (id : RequestId) (outcome : PendingOutcome ρ)
  | deliver
  | fail (reason : String)
  | drain
  | sendFailure (call : ℕ)
  | closeQueue (queue : ℕ)
  | subscribe (queue : ℕ) (threadId : String)
  | subscribeStep (queue : ℕ)
  | attachThread (queue : ℕ) (threadId : String)
  | dropReceiver (queue : ℕ)
  | enqueue
  | consume
  | stopReceiving

namespace Requests

variable {ρ : Type} (requests : Requests ρ) (number : ℕ)

def setStage (call : RequestCall ρ) (stage : RequestStage ρ) : Requests ρ :=
  { requests with calls := Function.update requests.calls number (some { call with stage := stage }) }

/-- A call of `request` takes an identifier. -/
def identify : Requests ρ :=
  if requests.nextId + 1 < 2 ^ 64 then
    { requests with
      nextId := requests.nextId + 1
      calls := Function.update requests.calls number (some ⟨requests.nextId, .identified, none⟩) }
  else
    { requests with
      calls := Function.update requests.calls number
        (some ⟨0, .returned (.error (.hostFailed "Codex app-server request identifier limit reached.")), none⟩) }

def register (call : RequestCall ρ) : Requests ρ :=
  if maxPendingRequests ≤ requests.pending.size then
    requests.setStage number call (.returned (.error (.hostFailed "Codex app-server pending request limit reached.")))
  else { requests.setStage number call .registered with pending := requests.pending.set call.id number }

/-- `forget`, and then `stage`. -/
def forget (call : RequestCall ρ) (stage : RequestStage ρ) : Requests ρ :=
  { requests.setStage number call stage with pending := requests.pending.delete call.id }

/-- `settle`, as far as the lock on the pending requests goes. -/
def settle (id : RequestId) (outcome : PendingOutcome ρ) : Requests ρ :=
  let requests := { requests with responses := requests.responses ++ [(id, outcome)] }
  match id.correlated.bind fun id => (requests.pending.get? id).map fun number => (id, number) with
  | none => { requests with lateResponses := requests.lateResponses + 1 }
  | some (id, number) =>
      { requests with
        pending := requests.pending.delete id
        settling := some (number, outcome) }

/-- `try_send` to the channel of a call: it is given up if the call has returned, or if there is no room. -/
def send (outcome : PendingOutcome ρ) : Requests ρ :=
  let requests := { requests with
    sent := Function.update requests.sent number (requests.sent number ++ [outcome]) }
  match requests.calls number with
  | none => requests
  | some call =>
      match call.stage, call.received with
      | .returned _, _ => requests
      | _, some _ => requests
      | _, none =>
          { requests with
            calls := Function.update requests.calls number (some { call with received := some outcome }) }

/-- The senders that have not been used. -/
def senders (draining : Draining) : List ℕ :=
  requests.pending.values ++ requests.settling.toList.map Prod.fst ++ draining.senders

end Requests

namespace Queues

variable (queues : Queues) (number : ℕ) (subscription : Subscription)

def setSubscription : Queues :=
  { queues with subscriptions := Function.update queues.subscriptions number (some subscription) }

variable (threadId : String)

def isTaken : Bool :=
  queues.routes.has threadId || decide (maxTransportRoutes ≤ queues.routes.size)

/-- `subscribe`, as far as the lock on the routes goes. -/
def subscribe : Queues :=
  let threads := if threadId.utf8ByteSize ≤ maxAppServerThreadIdBytes then [threadId] else []
  let subscription : Subscription := ⟨.registered, threadId, none, threads, none, false⟩
  if World.isUnusable threadId || queues.isTaken threadId then
    queues.setSubscription number (subscription.close routeUnavailable)
  else
    { queues.setSubscription number subscription with routes := queues.routes.set threadId number }

/-- `attach_thread`, up to the look at the queue. -/
def attachThread : Queues :=
  if World.isUnusable threadId then queues
  else if threadId ∈ subscription.threads then queues
  else if maxSubagentThreadsPerTurn < subscription.threads.length then queues
  else if subscription.closed.isSome then queues
  else queues.setSubscription number { subscription with attaching := some threadId }

/-- `attach_thread`, under the lock on the routes. -/
def attachRoute : Queues :=
  if queues.isTaken threadId then queues.setSubscription number { subscription with attaching := none }
  else
    { queues.setSubscription number
        { subscription with attaching := none, threads := subscription.threads ++ [threadId] } with
      routes := queues.routes.set threadId number }

/-- The drop of a receiver: it gives back the routes that are its own. -/
def dropReceiver : Queues :=
  { queues.setSubscription number { subscription with dropped := true, threads := [] } with
    routes := (subscription.threads.filter fun threadId => queues.routes.get? threadId = some number).foldl
      OrderedMap.delete queues.routes }

/-- A call of `subscribe` looks for the failure, closes its queue and returns. -/
def step (failure : Option String) (number : ℕ) (subscription : Subscription) : Option Queues :=
  match subscription.stage with
  | .registered =>
      match failure with
      | some reason => some (queues.setSubscription number { subscription with stage := .foundFailure reason })
      | none => some (queues.setSubscription number { subscription with stage := .returned })
  | .foundFailure reason =>
      some (queues.setSubscription number { subscription.close reason with stage := .returned })
  | .returned => subscription.attaching.map fun threadId => queues.attachRoute number subscription threadId

end Queues

namespace TransportShared

variable {ρ : Type} (shared : TransportShared ρ)

def connected : TransportShared ρ where
  requests := ⟨1, .empty, 0, fun _ => none, none, [], fun _ => []⟩
  queues := ⟨.empty, fun _ => none⟩
  failure := none
  writer := true
  lines := 0
  receiving := true
  draining := .idle
  failsReturned := 0

def setStage (number : ℕ) (call : RequestCall ρ) (stage : RequestStage ρ) : TransportShared ρ :=
  { shared with requests := shared.requests.setStage number call stage }

/-- The failure as a request reads it, for what it returns. -/
def closedOutcome : PendingOutcome ρ := .error (.hostFailed (shared.failure.getD appServerClosedError))

/-- `fail`, as far as the lock on the failure goes. -/
def recordFailure (reason : String) : TransportShared ρ :=
  if shared.failure.isSome then { shared with failsReturned := shared.failsReturned + 1 }
  else { shared with failure := some reason, draining := .recorded }

variable (number : ℕ)

/-- What a request does next. -/
def requestStep (call : RequestCall ρ) (input : RequestInput) : Option (TransportShared ρ) :=
  match call.stage, input with
  | .identified, .run => some { shared with requests := shared.requests.register number call }
  | .registered, .run =>
      match shared.failure with
      | some reason => some (shared.setStage number call (.foundFailure reason))
      | none => some (shared.setStage number call .checked)
  | .foundFailure reason, .run =>
      some { shared with
        requests := shared.requests.forget number call (.returned (.error (.hostFailed reason))) }
  | .checked, .serialized none =>
      some (shared.setStage number call (.forgetting (.error (.hostFailed appServerClosedError))))
  | .checked, .serialized (some line) =>
      if maxAppServerLineBytes < line then
        some (shared.setStage number call (.forgetting (.error (.hostFailed appServerOutboundLimitError))))
      else some (shared.setStage number call .composed)
  | .composed, .run => some (shared.setStage number call (if shared.writer then .sending else .refused))
  | .sending, .run =>
      if !shared.receiving then some (shared.setStage number call .refused)
      else if appServerWriteQueueCapacity ≤ shared.lines then some (shared.setStage number call .overflowed)
      else some { shared.setStage number call .waiting with lines := shared.lines + 1 }
  | .refused, .run => some (shared.setStage number call (.forgetting shared.closedOutcome))
  | .overflowed, .run =>
      some ((shared.recordFailure appServerWriteQueueError).setStage number call
        (if shared.failure.isSome then .forgetting (.error (.hostFailed appServerWriteQueueError))
          else .failing))
  | .failing, .run =>
      if shared.draining = .returned then
        some (shared.setStage number call (.forgetting (.error (.hostFailed appServerWriteQueueError))))
      else none
  | .waiting, .run =>
      match call.received with
      | some outcome => some (shared.setStage number call (.returned outcome))
      | none =>
          if number ∈ shared.requests.senders shared.draining then none
          else some (shared.setStage number call .disconnected)
  | .waiting, .deadline =>
      if call.received.isSome then none
      else some (shared.setStage number call (.forgetting (.error .timeout)))
  | .disconnected, .run => some { shared with requests := shared.requests.forget number call .forgotten }
  | .forgetting result, .run =>
      some { shared with requests := shared.requests.forget number call (.returned result) }
  | .forgotten, .run => some (shared.setStage number call (.returned shared.closedOutcome))
  | _, _ => none

/-- What the failure that was recorded does next. -/
def drain : Option (TransportShared ρ) :=
  match shared.draining with
  | .recorded => some { shared with writer := false, draining := .writerTaken }
  | .writerTaken =>
      some { shared with
        requests := { shared.requests with pending := .empty }
        draining := .sending shared.requests.pending.values }
  | .sending [] => some { shared with draining := .closing shared.queues.routes.values }
  | .closing [] => some { shared with draining := .returned, failsReturned := shared.failsReturned + 1 }
  | _ => none

/-- The failure is sent to one of the calls; there is one sender for a call. -/
def sendFailure : Option (TransportShared ρ) :=
  match shared.draining with
  | .sending senders =>
      if number ∈ senders then
        some { shared with
          requests := shared.requests.send number (.error (.hostFailed (shared.failure.getD "")))
          draining := .sending (senders.filter (· ≠ number)) }
      else none
  | _ => none

/-- One of the queues is closed. -/
def closeQueue : Option (TransportShared ρ) :=
  match shared.draining with
  | .closing queues =>
      if number ∈ queues then
        (shared.queues.subscriptions number).map fun subscription =>
          { shared with
            queues := shared.queues.setSubscription number (subscription.close (shared.failure.getD ""))
            draining := .closing (queues.filter (· ≠ number)) }
      else none
  | _ => none

/-- A step; `none` where the event cannot happen. -/
def step : TransportEvent ρ → Option (TransportShared ρ)
  | .request number =>
      if (shared.requests.calls number).isSome then none
      else some { shared with requests := shared.requests.identify number }
  | .requestStep number input =>
      (shared.requests.calls number).bind fun call => shared.requestStep number call input
  | .respond id outcome =>
      if shared.requests.settling.isSome then none
      else some { shared with requests := shared.requests.settle id outcome }
  | .deliver =>
      shared.requests.settling.map fun (number, outcome) =>
        { shared with requests := { shared.requests.send number outcome with settling := none } }
  | .fail reason => some (shared.recordFailure reason)
  | .drain => shared.drain
  | .sendFailure number => shared.sendFailure number
  | .closeQueue number => shared.closeQueue number
  | .subscribe number threadId =>
      if (shared.queues.subscriptions number).isSome then none
      else some { shared with queues := shared.queues.subscribe number threadId }
  | .subscribeStep number =>
      (shared.queues.subscriptions number).bind fun subscription =>
        (shared.queues.step shared.failure number subscription).map fun queues => { shared with queues := queues }
  | .attachThread number threadId =>
      (shared.queues.subscriptions number).bind fun subscription =>
        if subscription.stage = .returned ∧ subscription.attaching = none ∧ !subscription.dropped then
          some { shared with queues := shared.queues.attachThread number subscription threadId }
        else none
  | .dropReceiver number =>
      (shared.queues.subscriptions number).bind fun subscription =>
        if subscription.stage = .returned ∧ subscription.attaching = none ∧ !subscription.dropped then
          some { shared with queues := shared.queues.dropReceiver number subscription }
        else none
  | .enqueue =>
      if shared.receiving ∧ shared.lines < appServerWriteQueueCapacity then
        some { shared with lines := shared.lines + 1 }
      else none
  | .consume => if 0 < shared.lines then some { shared with lines := shared.lines - 1 } else none
  | .stopReceiving => some { shared with receiving := false }

/-- The events one after the other; an event that cannot happen is passed over. -/
def after (events : List (TransportEvent ρ)) : TransportShared ρ :=
  events.foldl (fun shared event => (shared.step event).getD shared) shared

end TransportShared

end CodevoEditor.CodexAppServer
