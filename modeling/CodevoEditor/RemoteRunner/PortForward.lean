/-
# Port forwards

`src-tauri/src/remote_runner/port_forward/registry.rs`: the registry that admits port forwards,
and the sets of forwards of the connections to servers.
-/

import CodevoEditor.Js.OrderedMap
import Mathlib.Data.Finset.Basic

namespace CodevoEditor.RemoteRunner
namespace PortForward

open Js

def maxForwards : ℕ := 8

def maxOwnerForwards : ℕ := 4

def missingGrace : ℕ := 30000

def changedError : String := "Runner connection changed while forwarding the port."

def closedError : String := "Runner connection is closed. Reconnect the server."

def alreadyOpeningError : String :=
  "This server port is already being forwarded. Try again shortly."

def forwardsError : String :=
  s!"At most {maxForwards} server ports can be forwarded at once. Stop one first."

def ownerForwardsError : String :=
  s!"At most {maxOwnerForwards} server ports can be forwarded per workspace, including other conversations. Stop one first."

structure OwnerLease where
  id : String
  generation : ℕ
  deriving DecidableEq

/-- `σ` is the scope of a port. -/
structure ForwardKey (σ : Type) where
  owner : OwnerLease
  scope : σ
  port : ℕ
  deriving DecidableEq

inductive Reservation
  | opened (port : ℕ)
  | pending (id : ℕ)

inductive ForwardState
  | opened
  | opening

structure Forward where
  localPort : ℕ
  state : ForwardState

structure RegistryState where
  owners : OrderedMap String ℕ
  active : ℕ
  claimed : Finset ℕ

namespace RegistryState

def new : RegistryState := ⟨.empty, 0, ∅⟩

variable (state : RegistryState)

def claim (port : ℕ) : Option RegistryState :=
  if port ∈ state.claimed then none else some { state with claimed := insert port state.claimed }

/-- The drop of a `PortClaim`. -/
def dropClaim (port : ℕ) : RegistryState := { state with claimed := state.claimed.erase port }

def permit (owner : OwnerLease) : Except String RegistryState :=
  if maxForwards ≤ state.active then .error forwardsError
  else
    let live := (state.owners.get? owner.id).getD 0
    if maxOwnerForwards ≤ live then .error ownerForwardsError
    else .ok { state with owners := state.owners.set owner.id (live + 1), active := state.active + 1 }

/-- The drop of a `ForwardPermit`. -/
def dropPermit (ownerId : String) : RegistryState :=
  let owners := match state.owners.get? ownerId with
    | none => state.owners
    | some live =>
        if live - 1 = 0 then state.owners.delete ownerId else state.owners.set ownerId (live - 1)
  { state with owners := owners, active := state.active - 1 }

end RegistryState

/-! ### The table of a set -/

section Table

variable {σ τ ρ : Type}

/-- `permit` is the owner that the permit counts for, `claim` the port of the claim. -/
structure Entry (σ τ ρ : Type) where
  id : ℕ
  key : ForwardKey σ
  target : τ
  process : Option ρ
  claim : Option ℕ
  ready : Bool
  lastSeen : ℕ
  lastChecked : ℕ
  permit : String

namespace Entry

def exited (hasExited : ρ → Bool) (entry : Entry σ τ ρ) : Bool :=
  entry.ready && entry.process.all hasExited

def forward (entry : Entry σ τ ρ) : Option Forward :=
  entry.claim.map fun port => ⟨port, if entry.ready then .opened else .opening⟩

end Entry

structure Table (σ τ ρ : Type) where
  closed : Bool
  nextId : ℕ
  entries : List (Entry σ τ ρ)

def ForwardKey.inScope [DecidableEq σ] (key : ForwardKey σ) (owner : OwnerLease) (scope : σ) : Bool :=
  key.owner = owner ∧ key.scope = scope

/-- The first entry that passes a test is changed; it is returned as it was. -/
def modifyFirst (test : Entry σ τ ρ → Bool) (change : Entry σ τ ρ → Entry σ τ ρ) :
    List (Entry σ τ ρ) → Option (Entry σ τ ρ × List (Entry σ τ ρ))
  | [] => none
  | entry :: entries =>
      if test entry then some (entry, change entry :: entries)
      else (modifyFirst test change entries).map fun found => (found.1, entry :: found.2)

namespace Table

def new : Table σ τ ρ := ⟨false, 0, []⟩

variable (table : Table σ τ ρ)

/-- `take`: what stays, and what is removed. -/
def take (retire : Entry σ τ ρ → Bool) : Table σ τ ρ × List (Entry σ τ ρ) :=
  ({ table with entries := table.entries.filter fun entry => !retire entry }, table.entries.filter retire)

def close : Table σ τ ρ × List (Entry σ τ ρ) :=
  ({ table with closed := true, entries := [] }, table.entries)

/-- What `reserve` leaves. -/
structure Reserved (σ τ ρ : Type) where
  result : Except String Reservation
  table : Table σ τ ρ
  registry : RegistryState
  retired : List (Entry σ τ ρ)

def reserve [DecidableEq σ] [DecidableEq τ] (registry : RegistryState) (hasExited : ρ → Bool)
    (key : ForwardKey σ) (target : τ) (now : ℕ) : Reserved σ τ ρ :=
  if table.closed then ⟨.error closedError, table, registry, []⟩
  else
    let (table, retired) := table.take fun entry =>
      entry.exited hasExited || decide (entry.key = key ∧ entry.ready ∧ entry.target ≠ target)
    match table.entries.find? fun entry => decide (entry.key = key) with
    | some entry =>
        match entry.ready, entry.claim with
        | true, some port => ⟨.ok (.opened port), table, registry, retired⟩
        | _, _ => ⟨.error alreadyOpeningError, table, registry, retired⟩
    | none =>
        match registry.permit key.owner with
        | .error error => ⟨.error error, table, registry, retired⟩
        | .ok registry =>
            let id := table.nextId + 1
            let entry : Entry σ τ ρ := ⟨id, key, target, none, none, false, now, now, key.owner.id⟩
            ⟨.ok (.pending id), { table with nextId := id, entries := table.entries ++ [entry] }, registry, retired⟩

/-- `attach`: the table, and the claim that is replaced. -/
def attach (id claim : ℕ) (process : ρ) : Except String (Table σ τ ρ × Option ℕ) :=
  if table.closed then .error changedError
  else
    match modifyFirst (fun entry => decide (entry.id = id ∧ entry.ready = false))
        (fun entry => { entry with claim := some claim, process := some process }) table.entries with
    | none => .error changedError
    | some (entry, entries) => .ok ({ table with entries := entries }, entry.claim)

def markReady (hasExited : ρ → Bool) (id : ℕ) : Except String (Table σ τ ρ × ℕ) :=
  if table.closed then .error closedError
  else
    match modifyFirst (fun entry => decide (entry.id = id ∧ entry.ready = false))
        (fun entry => { entry with ready := true }) table.entries with
    | none => .error changedError
    | some (entry, entries) =>
        let running := entry.process.any fun process => !hasExited process
        match running, entry.claim with
        | true, some port => .ok ({ table with entries := entries }, port)
        | _, _ => .error changedError

/-- What `reconcile` writes in an entry of the scope. -/
def seen (listed : Option (List ℕ)) (now : ℕ) (entry : Entry σ τ ρ) : Entry σ τ ρ :=
  { entry with
    lastChecked := now
    lastSeen := if listed.all fun ports => entry.key.port ∈ ports then now else entry.lastSeen }

/-- `reconcile`: the table, what is removed, and the forwards of the scope. -/
def reconcile [DecidableEq σ] (hasExited : ρ → Bool) (owner : OwnerLease) (scope : σ)
    (listed : Option (List ℕ)) (now : ℕ) :
    Table σ τ ρ × List (Entry σ τ ρ) × List (ℕ × Forward) :=
  let (table, removed) := table.take fun entry =>
    entry.exited hasExited ||
      (entry.key.inScope owner scope && entry.ready &&
        (listed.any fun ports => entry.key.port ∉ ports) && decide (missingGrace ≤ now - entry.lastSeen))
  let entries := table.entries.map fun entry =>
    if entry.key.inScope owner scope then seen listed now entry else entry
  let forwards := (entries.filter fun entry => entry.key.inScope owner scope).filterMap fun entry =>
    entry.forward.map fun forward => (entry.key.port, forward)
  ({ table with entries := entries }, removed, forwards)

/-- The entry that was checked the longest ago, the first of them. -/
def leastChecked : List (Entry σ τ ρ) → Option (Entry σ τ ρ)
  | [] => none
  | entry :: entries =>
      match leastChecked entries with
      | none => some entry
      | some least => if least.lastChecked < entry.lastChecked then some least else some entry

def staleScope [DecidableEq σ] (owner : OwnerLease) (current : σ) (now : ℕ) : Table σ τ ρ × Option σ :=
  let stale := table.entries.filter fun entry =>
    decide (entry.key.owner = owner ∧ entry.key.scope ≠ current ∧ entry.ready ∧
      missingGrace ≤ now - entry.lastChecked)
  match leastChecked stale with
  | none => (table, none)
  | some entry =>
      let scope := entry.key.scope
      ({ table with
        entries := table.entries.map fun entry =>
          if entry.key.inScope owner scope then { entry with lastChecked := now } else entry },
        some scope)

end Table

def discards (id : ℕ) (entry : Entry σ τ ρ) : Bool := entry.id = id

def abandons (id : ℕ) (entry : Entry σ τ ρ) : Bool := entry.id = id ∧ entry.ready = false

/-- `remove`, and `close_forward` for the sets of a server. -/
def removes [DecidableEq σ] (key : ForwardKey σ) (entry : Entry σ τ ρ) : Bool := entry.key = key

def releases (owner : OwnerLease) (entry : Entry σ τ ρ) : Bool := entry.key.owner = owner

/-- `retire_dead`: `dead` is what the authority has said of the owners. -/
def retiresDead (dead : Finset OwnerLease) (entry : Entry σ τ ρ) : Bool := entry.key.owner ∈ dead

/-- The sets by number, and what is loose: claims and permits that are in no table. -/
structure World (σ τ ρ : Type) where
  registry : RegistryState
  sets : OrderedMap ℕ (Table σ τ ρ)
  looseClaims : List ℕ
  loosePermits : List String

inductive Event (σ τ ρ : Type)
  | openSet (set : ℕ)
  | reserve (set : ℕ) (hasExited : ρ → Bool) (key : ForwardKey σ) (target : τ) (now : ℕ)
  | claim (port : ℕ)
  | attach (set id claim : ℕ) (process : ρ)
  | markReady (set : ℕ) (hasExited : ρ → Bool) (id : ℕ)
  | take (set : ℕ) (retire : Entry σ τ ρ → Bool)
  | reconcile (set : ℕ) (hasExited : ρ → Bool) (owner : OwnerLease) (scope : σ) (listed : Option (List ℕ)) (now : ℕ)
  | staleScope (set : ℕ) (owner : OwnerLease) (current : σ) (now : ℕ)
  | closeSet (set : ℕ)
  | dropSet (set : ℕ)
  | dropClaim (port : ℕ)
  | dropPermit (ownerId : String)

namespace World

def new : World σ τ ρ := ⟨.new, .empty, [], []⟩

variable (world : World σ τ ρ)

/-- The table of a set is replaced, and what was taken out of it is loose. -/
def put (set : ℕ) (table : Table σ τ ρ) (removed : List (Entry σ τ ρ)) : World σ τ ρ :=
  { world with
    sets := world.sets.set set table
    looseClaims := world.looseClaims ++ removed.filterMap Entry.claim
    loosePermits := world.loosePermits ++ removed.map Entry.permit }

/-- A step; `none` where the event cannot happen. -/
def step [DecidableEq σ] [DecidableEq τ] : Event σ τ ρ → Option (World σ τ ρ)
  | .openSet set => if world.sets.has set then none else some (world.put set .new [])
  | .reserve set hasExited key target now =>
      (world.sets.get? set).map fun table =>
        let reserved := table.reserve world.registry hasExited key target now
        { world.put set reserved.table reserved.retired with registry := reserved.registry }
  | .claim port =>
      (world.registry.claim port).map fun registry =>
        { world with registry := registry, looseClaims := port :: world.looseClaims }
  | .attach set id claim process =>
      if claim ∈ world.looseClaims then
        (world.sets.get? set).map fun table =>
          match table.attach id claim process with
          | .error _ => world
          | .ok (table, replaced) =>
              { world with
                sets := world.sets.set set table
                looseClaims := world.looseClaims.erase claim ++ replaced.toList }
      else none
  | .markReady set hasExited id =>
      (world.sets.get? set).map fun table =>
        match table.markReady hasExited id with
        | .error _ => world
        | .ok (table, _) => world.put set table []
  | .take set retire =>
      (world.sets.get? set).map fun table => world.put set (table.take retire).1 (table.take retire).2
  | .reconcile set hasExited owner scope listed now =>
      (world.sets.get? set).map fun table =>
        let (table, removed, _) := table.reconcile hasExited owner scope listed now
        world.put set table removed
  | .staleScope set owner current now =>
      (world.sets.get? set).map fun table => world.put set (table.staleScope owner current now).1 []
  | .closeSet set =>
      (world.sets.get? set).map fun table => world.put set table.close.1 table.close.2
  | .dropSet set =>
      (world.sets.get? set).map fun table =>
        { world.put set table table.entries with sets := world.sets.delete set }
  | .dropClaim port =>
      if port ∈ world.looseClaims then
        some { world with
          registry := world.registry.dropClaim port
          looseClaims := world.looseClaims.erase port }
      else none
  | .dropPermit ownerId =>
      if ownerId ∈ world.loosePermits then
        some { world with
          registry := world.registry.dropPermit ownerId
          loosePermits := world.loosePermits.erase ownerId }
      else none

/-- The events one after the other; an event that cannot happen is passed over. -/
def after [DecidableEq σ] [DecidableEq τ] (events : List (Event σ τ ρ)) : World σ τ ρ :=
  events.foldl (fun world event => (world.step event).getD world) world

def entries : List (Entry σ τ ρ) := world.sets.values.flatMap Table.entries

/-- The live claims. -/
def claims : List ℕ := world.looseClaims ++ world.entries.filterMap Entry.claim

/-- The live permits, by owner. -/
def permits : List String := world.loosePermits ++ world.entries.map Entry.permit

end World

end Table

end PortForward
end CodevoEditor.RemoteRunner
