/-
# The routes of turn frames

`src-tauri/src/codex_app_server_transport.rs`: a frame that the reader takes off the wire goes
to the queue of the receiver that has its thread.

What has come over the wire, what a receiver was given and how much had come when a thread lost
its route are kept for the reader of the model.
-/

import CodevoEditor.Js.OrderedMap
import Mathlib.Data.Finset.Card

namespace CodevoEditor.CodexAppServer

open Js

def maxTurnInboundFrames : ℕ := 4096

def maxTurnInboundBytes : ℕ := 8 * 1024 * 1024

def maxOrphanInboundBytes : ℕ := 1024 * 1024

def maxTransportRoutes : ℕ := 64 * 33

def maxSubagentThreadsPerTurn : ℕ := 32

def maxAppServerThreadIdBytes : ℕ := 128

def maxOrphanThreads : ℕ := 8

def maxOrphanFramesPerThread : ℕ := 256

def routeUnavailable : String := "Codex app-server thread route is unavailable."

def orphanLossError : String := "Codex app-server orphan loss tracking limit reached."

structure BufferedFrame (φ : Type) where
  frame : φ
  bytes : ℕ
  thread : String
  number : ℕ
  deriving DecidableEq

variable {φ : Type}

/-- The bytes of buffered frames. -/
def bytesOf (frames : List (BufferedFrame φ)) : ℕ := (frames.map BufferedFrame.bytes).sum

structure TurnFrameQueueState (φ : Type) where
  frames : List (BufferedFrame φ)
  bytes : ℕ
  truncated : Bool
  closed : Option String

namespace TurnFrameQueueState

def new : TurnFrameQueueState φ := ⟨[], 0, false, none⟩

variable (state : TurnFrameQueueState φ)

def push (frame : BufferedFrame φ) : TurnFrameQueueState φ :=
  if state.closed.isSome then state
  else if maxTurnInboundFrames ≤ state.frames.length ∨ maxTurnInboundBytes < state.bytes + frame.bytes then
    { state with truncated := true }
  else { state with bytes := state.bytes + frame.bytes, frames := state.frames ++ [frame] }

def close (reason : String) : TurnFrameQueueState φ :=
  if state.closed.isNone then { state with closed := some reason } else state

def tryRecv : Option (BufferedFrame φ × TurnFrameQueueState φ) :=
  match state.frames with
  | [] => none
  | frame :: frames => some (frame, { state with frames := frames, bytes := state.bytes - frame.bytes })

end TurnFrameQueueState

/-- A route leads to the queue of a receiver, by its number. -/
structure RouteTable (φ : Type) where
  routes : OrderedMap String ℕ
  orphans : OrderedMap String (List (BufferedFrame φ))
  orphanLoss : Finset String
  orphanOrder : List String

/-- The loop of `retain_orphan`: frames at the front make room for a frame; the flag says whether
one was lost. -/
def bufferFrame (frame : BufferedFrame φ) : List (BufferedFrame φ) → List (BufferedFrame φ) × Bool
  | [] => if maxOrphanInboundBytes < frame.bytes then ([], true) else ([frame], false)
  | first :: buffered =>
      if maxOrphanFramesPerThread ≤ (first :: buffered).length ∨
          maxOrphanInboundBytes < bytesOf (first :: buffered) + frame.bytes then
        ((bufferFrame frame buffered).1, true)
      else (first :: buffered ++ [frame], false)

namespace RouteTable

def new : RouteTable φ := ⟨.empty, .empty, ∅, []⟩

variable (table : RouteTable φ)

/-- The orphan that came first makes room for another. -/
def evictOrphan : RouteTable φ :=
  if maxOrphanThreads ≤ table.orphanOrder.length then
    match table.orphanOrder with
    | [] => table
    | evicted :: order =>
        { table with
          orphanOrder := order
          orphans := table.orphans.delete evicted
          orphanLoss := insert evicted table.orphanLoss }
  else table

/-- The table with a buffer for an orphan. -/
def withOrphan (threadId : String) : RouteTable φ :=
  if table.orphans.has threadId then table
  else
    { table.evictOrphan with
      orphanOrder := table.evictOrphan.orphanOrder ++ [threadId]
      orphans := table.evictOrphan.orphans.set threadId [] }

def retainOrphan (threadId : String) (frame : BufferedFrame φ) : RouteTable φ :=
  let table := table.withOrphan threadId
  match table.orphans.get? threadId with
  | none => table
  | some buffered =>
      { table with
        orphans := table.orphans.set threadId (bufferFrame frame buffered).1
        orphanLoss := if (bufferFrame frame buffered).2 then insert threadId table.orphanLoss
          else table.orphanLoss }

def takeOrphans (threadId : String) : List (BufferedFrame φ) × RouteTable φ :=
  ((table.orphans.get? threadId).getD [],
    { table with
      orphanOrder := table.orphanOrder.filter fun entry => entry ≠ threadId
      orphans := table.orphans.delete threadId })

end RouteTable

/-- `given` is what the receiver has received. -/
structure TurnFrameReceiver (φ : Type) where
  queue : TurnFrameQueueState φ
  threads : List String
  dropped : Bool
  given : List (BufferedFrame φ)

/-- The transport: the table, why it has failed, the receivers, and the frames in flight to a queue.
`wire` is what has come for threads, `since` how much of it before a thread last lost its route. -/
structure World (φ : Type) where
  table : RouteTable φ
  failure : Option String
  receivers : ℕ → Option (TurnFrameReceiver φ)
  inFlight : Option (ℕ × BufferedFrame φ)
  movingTo : ℕ
  moving : List (BufferedFrame φ)
  wire : List (BufferedFrame φ)
  since : String → ℕ

inductive Event (φ : Type)
  | route (threadId : String) (frame : φ) (bytes : ℕ)
  | push
  | subscribe (receiver : ℕ) (threadId : String)
  | attachThread (receiver : ℕ) (threadId : String)
  | move
  | receive (receiver : ℕ)
  | drop (receiver : ℕ)

namespace World

def new : World φ := ⟨.new, none, fun _ => none, none, 0, [], [], fun _ => 0⟩

variable (world : World φ) (number : ℕ) (receiver : TurnFrameReceiver φ)

def setReceiver : World φ :=
  { world with receivers := Function.update world.receivers number (some receiver) }

/-- A frame is pushed to the queue of a receiver. -/
def pushTo (frame : BufferedFrame φ) : World φ :=
  match world.receivers number with
  | none => world
  | some receiver => world.setReceiver number { receiver with queue := receiver.queue.push frame }

variable (threadId : String)

/-- `route`, as far as the lock on the table goes. -/
def route (frame : φ) (bytes : ℕ) : World φ :=
  let buffered : BufferedFrame φ := ⟨frame, bytes, threadId, world.wire.length⟩
  let world := { world with wire := world.wire ++ [buffered] }
  match world.table.routes.get? threadId with
  | some number => { world with inFlight := some (number, buffered) }
  | none =>
      let table := world.table.retainOrphan threadId buffered
      if maxOrphanFramesPerThread < table.orphanLoss.card then
        { world with table := table, failure := some orphanLossError }
      else { world with table := table }

def isUnusable : Bool :=
  threadId.isEmpty || decide (maxAppServerThreadIdBytes < threadId.utf8ByteSize)

/-- Whether no route can be made for a thread. -/
def isTaken : Bool :=
  world.table.routes.has threadId || decide (maxTransportRoutes ≤ world.table.routes.size)

/-- A route is made for a thread, and what is buffered for it is to be pushed. -/
def takeOver : World φ :=
  let table := { world.table with routes := world.table.routes.set threadId number }
  let (buffered, table) := table.takeOrphans threadId
  let queue := { receiver.queue with
    truncated := receiver.queue.truncated || decide (threadId ∈ table.orphanLoss) }
  { world.setReceiver number { receiver with queue := queue } with
    table := { table with orphanLoss := table.orphanLoss.erase threadId }
    movingTo := number
    moving := buffered }

def subscribe : World φ :=
  let threads := if threadId.utf8ByteSize ≤ maxAppServerThreadIdBytes then [threadId] else []
  let receiver : TurnFrameReceiver φ := ⟨.new, threads, false, []⟩
  if isUnusable threadId || world.isTaken threadId then
    world.setReceiver number { receiver with queue := receiver.queue.close routeUnavailable }
  else world.takeOver number receiver threadId

def attachThread : World φ :=
  if isUnusable threadId then world
  else if threadId ∈ receiver.threads then world
  else if maxSubagentThreadsPerTurn < receiver.threads.length then world
  else if receiver.queue.closed.isSome then world
  else if world.isTaken threadId then world
  else world.takeOver number { receiver with threads := receiver.threads ++ [threadId] } threadId

/-- The drop of a receiver: it gives back the routes that are its own. -/
def dropReceiver : World φ :=
  let owned := receiver.threads.filter fun threadId => world.table.routes.get? threadId = some number
  { world.setReceiver number { receiver with dropped := true } with
    table := { world.table with routes := owned.foldl OrderedMap.delete world.table.routes }
    since := fun threadId => if threadId ∈ owned then world.wire.length else world.since threadId }

/-- The receiver of a number, while it lives. -/
def living : Option (TurnFrameReceiver φ) :=
  (world.receivers number).filter fun receiver => !receiver.dropped

/-- A step; `none` where the event cannot happen. -/
def step (event : Event φ) : Option (World φ) :=
  if world.failure.isSome then none
  else
    match event with
    | .route threadId frame bytes =>
        if world.inFlight.isSome ∨ world.moving ≠ [] then none else some (world.route threadId frame bytes)
    | .push =>
        world.inFlight.map fun (number, frame) => { world.pushTo number frame with inFlight := none }
    | .subscribe number threadId =>
        if (world.receivers number).isSome ∨ world.moving ≠ [] then none
        else some (world.subscribe number threadId)
    | .attachThread number threadId =>
        if world.moving ≠ [] then none
        else (world.living number).map fun receiver => world.attachThread number receiver threadId
    | .move =>
        match world.moving with
        | [] => none
        | frame :: rest => some { world.pushTo world.movingTo frame with moving := rest }
    | .receive number =>
        (world.living number).bind fun receiver =>
          receiver.queue.tryRecv.map fun (frame, queue) =>
            world.setReceiver number { receiver with queue := queue, given := receiver.given ++ [frame] }
    | .drop number =>
        if world.moving ≠ [] then none
        else (world.living number).map fun receiver => world.dropReceiver number receiver

/-- The events one after the other; an event that cannot happen is passed over. -/
def after (events : List (Event φ)) : World φ :=
  events.foldl (fun world event => (world.step event).getD world) world

/-- The frames of a thread. -/
def ofThread (frames : List (BufferedFrame φ)) : List (BufferedFrame φ) :=
  frames.filter fun frame => frame.thread = threadId

/-- The frames on their way to the queue of a receiver. -/
def arriving : List (BufferedFrame φ) :=
  (if world.movingTo = number then world.moving else []) ++
    ((world.inFlight.filter fun flight => flight.1 = number).map Prod.snd).toList

/-- What a receiver was given, or will be. -/
def held : List (BufferedFrame φ) :=
  receiver.given ++ receiver.queue.frames ++ world.arriving number

end World

end CodevoEditor.CodexAppServer
