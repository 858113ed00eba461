/-
# The pool of connections to turn logs

`src-tauri/src/agent_turn_log/service.rs`: a call checks a connection out of the pool, or opens
one, and checks it in when it is done.

A step is what a call does under one lock, and calls are numbered.
-/

import Mathlib.Algebra.Ring.Nat
import Mathlib.Data.List.Nodup

namespace CodevoEditor.TurnLogStore.ConnectionPool

open List Function

def maxPooledConnections : ℕ := 4
def maxTrackedGenerations : ℕ := 64

variable {κ : Type} [DecidableEq κ]

structure PooledSlot (κ : Type) where
  key : κ
  writable : Bool
  generation : ℕ
  opened : ℕ

/-- A call on its way. -/
inductive Call (κ : Type)
  | checkingOut (key : κ) (writes : Bool) (began : ℕ)
  | took (slot : PooledSlot κ) (writes : Bool) (began : ℕ)
  | missed (key : κ) (writes : Bool)
  | opening (slot : PooledSlot κ)
  | out (slot : PooledSlot κ)
  | returning (slot : PooledSlot κ)
  | evicting (key : κ)

namespace Call

/-- The connection that the call has, or is about to open. -/
def slot : Call κ → Option (PooledSlot κ)
  | took slot _ _ | opening slot | out slot | returning slot => some slot
  | _ => none

/-- The key of a check-out, and how often it had been invalidated when it began. -/
def began : Call κ → Option (κ × ℕ)
  | checkingOut key _ began => some (key, began)
  | took slot _ began => some (slot.key, began)
  | _ => none

end Call

/-- `handed` has the connections that were handed out of the pool. -/
structure World (κ : Type) where
  pool : List (PooledSlot κ)
  generations : List (κ × ℕ)
  calls : ℕ → Option (Call κ)
  invalidated : κ → ℕ
  handed : List (PooledSlot κ × ℕ)

inductive Event (κ : Type)
  | checkOut (key : κ) (writes : Bool)
  | takePooled
  | compare
  | readGeneration
  | connect
  | drop
  | checkIn
  | push
  | invalidate (key : κ)
  | evict

def generationIn (generations : List (κ × ℕ)) (key : κ) : ℕ :=
  ((generations.find? fun tracked => tracked.1 = key).map Prod.snd).getD 0

/-- A deque that has one more than it may loses the first. -/
def bounded {α : Type} (limit : ℕ) (entries : List α) : List α :=
  if limit < entries.length then entries.tail else entries

namespace World

def new : World κ := ⟨[], [], fun _ => none, fun _ => 0, []⟩

variable (world : World κ) (key : κ)

def generationOf : ℕ := generationIn world.generations key

/-- The generations with that of a key advanced, one more perhaps than are remembered. -/
def advanced : List (κ × ℕ) :=
  (world.generations.eraseP fun tracked => tracked.1 = key) ++ [(key, (world.generationOf key + 1) % 2 ^ 64)]

def put (id : ℕ) (call : Option (Call κ)) : World κ :=
  { world with calls := Function.update world.calls id call }

def step (id : ℕ) (event : Event κ) : Option (World κ) :=
  match event, world.calls id with
  | .checkOut key writes, none =>
      some (world.put id (some (.checkingOut key writes (world.invalidated key))))
  | .takePooled, some (.checkingOut key writes began) =>
      match world.pool.find? fun slot => slot.key = key with
      | none => some (world.put id (some (.missed key writes)))
      | some slot =>
          let world := { world with pool := world.pool.eraseP fun slot => slot.key = key }
          if writes && !slot.writable then some (world.put id (some (.missed key writes)))
          else some (world.put id (some (.took slot writes began)))
  | .compare, some (.took slot writes began) =>
      if slot.generation ≠ world.generationOf slot.key then
        some (world.put id (some (.missed slot.key writes)))
      else
        let world := { world with handed := world.handed ++ [(slot, began)] }
        some (world.put id (some (.out slot)))
  | .readGeneration, some (.missed key writes) =>
      let slot := ⟨key, writes, world.generationOf key, world.invalidated key⟩
      some (world.put id (some (.opening slot)))
  | .connect, some (.opening slot) => some (world.put id (some (.out slot)))
  | .drop, some (.opening _) => some (world.put id none)
  | .drop, some (.out _) => some (world.put id none)
  | .checkIn, some (.out slot) =>
      if slot.generation ≠ world.generationOf slot.key then some (world.put id none)
      else some (world.put id (some (.returning slot)))
  | .push, some (.returning slot) =>
      let pool := (world.pool.filter fun pooled => pooled.key ≠ slot.key) ++ [slot]
      some ({ world with pool := bounded maxPooledConnections pool }.put id none)
  | .invalidate key, none =>
      let generations := bounded maxTrackedGenerations (world.advanced key)
      let invalidated := Function.update world.invalidated key (world.invalidated key + 1)
      some ({ world with generations, invalidated }.put id (some (.evicting key)))
  | .evict, some (.evicting key) =>
      some ({ world with pool := world.pool.filter fun slot => slot.key ≠ key }.put id none)
  | _, _ => none

/-- The events one after the other; one that cannot happen is passed over. -/
def after (events : List (ℕ × Event κ)) : World κ :=
  events.foldl (fun world event => (world.step event.1 event.2).getD world) world

/-- No connection was opened before an invalidation that its check-out comes after. -/
def Fresh : Prop := ∀ handed ∈ world.handed, handed.2 ≤ handed.1.opened

instance : Decidable world.Fresh := inferInstanceAs (Decidable (∀ _ ∈ _, _))

/-- A connection is pooled, or a call has it. -/
def Holds (slot : PooledSlot κ) : Prop :=
  slot ∈ world.pool ∨ ∃ id call, world.calls id = some call ∧ call.slot = some slot

/-- An invalidation does not count past the last generation, and the key that it forgets has no
connection. -/
def Remembers : Event κ → Prop
  | .invalidate key => world.generationOf key + 1 < 2 ^ 64 ∧
      (maxTrackedGenerations < (world.advanced key).length →
        ∀ tracked ∈ (world.advanced key).head?, ∀ slot, world.Holds slot → slot.key ≠ tracked.1)
  | _ => True

/-- All the events of a run remember. -/
def RunRemembers : World κ → List (ℕ × Event κ) → Prop
  | _, [] => True
  | world, (id, event) :: events =>
      world.Remembers event ∧ ((world.step id event).getD world).RunRemembers events

/-- The generation of a key has gone up since a connection was opened as often as the key has been
invalidated. -/
def Counts (slot : PooledSlot κ) : Prop :=
  world.generationOf slot.key + slot.opened = slot.generation + world.invalidated slot.key

structure Ok : Prop where
  keys : (world.generations.map Prod.fst).Nodup
  counts : ∀ slot, world.Holds slot → world.Counts slot
  began : ∀ id call key began, world.calls id = some call → call.began = some (key, began) →
    began ≤ world.invalidated key
  fresh : world.Fresh

variable {world} {id : ℕ}

lemma ok_new : (new : World κ).Ok :=
  ⟨nodup_nil, fun _ h => by simp [Holds, new] at h, nofun, nofun⟩

lemma Ok.put (h : world.Ok) {pool} (hpool : ∀ slot ∈ pool, world.Holds slot)
    {handed} (hhanded : ∀ pair ∈ handed, pair.2 ≤ pair.1.opened)
    {call}
    (hslot : ∀ slot, call.bind Call.slot = some slot → world.Holds slot ∨ world.Counts slot)
    (hbegan : ∀ key began, call.bind Call.began = some (key, began) → began ≤ world.invalidated key) :
    ({ world with pool, handed }.put id call).Ok := by
  refine ⟨h.keys, fun slot hslot' => ?_, fun other call' key began hcall hbegan' => ?_, hhanded⟩
  · rcases hslot' with hmem | ⟨other, call', hcall, hslot'⟩
    · exact h.counts slot (hpool slot hmem)
    · by_cases hoth : other = id
      · simp only [World.put, hoth, update_self] at hcall
        rcases hslot slot (by simp [hcall, hslot']) with hholds | hcounts
        · exact h.counts slot hholds
        · exact hcounts
      · simp only [World.put, ne_eq, hoth, not_false_eq_true, update_of_ne] at hcall
        exact h.counts slot (.inr ⟨other, call', hcall, hslot'⟩)
  · by_cases hoth : other = id
    · simp only [World.put, hoth, update_self] at hcall
      exact hbegan key began (by simp [hcall, hbegan'])
    · simp only [World.put, ne_eq, hoth, not_false_eq_true, update_of_ne] at hcall
      exact h.began other call' key began hcall hbegan'

omit [DecidableEq κ] in
lemma sublist_bounded {α : Type} (limit : ℕ) (entries : List α) : (bounded limit entries).Sublist entries := by
  unfold bounded
  split_ifs
  · exact tail_sublist entries
  · exact .refl entries

lemma advanced_eq (hkeys : (world.generations.map Prod.fst).Nodup) (key : κ) :
    world.advanced key = (world.generations.filter fun tracked => tracked.1 ≠ key) ++
      [(key, (world.generationOf key + 1) % 2 ^ 64)] := by
  unfold advanced
  revert hkeys
  induction world.generations with
  | nil => exact fun _ => rfl
  | cons tracked rest ih =>
    intro hkeys
    rw [map_cons, nodup_cons] at hkeys
    by_cases heq : tracked.1 = key
    · have hrest : rest.filter (fun other => other.1 ≠ key) = rest := by
        refine filter_eq_self.2 fun other hmem => decide_eq_true fun hoth => hkeys.1 ?_
        exact mem_map.2 ⟨other, hmem, hoth.trans heq.symm⟩
      rw [eraseP_cons_of_pos (by simpa), filter_cons_of_neg (by simpa), hrest]
    · rw [eraseP_cons_of_neg (by simpa), filter_cons_of_pos (by simpa), cons_append, ih hkeys.2, cons_append]

lemma nodup_advanced (hkeys : (world.generations.map Prod.fst).Nodup) (key : κ) :
    ((world.advanced key).map Prod.fst).Nodup := by
  rw [advanced_eq hkeys, map_append]
  refine (hkeys.sublist (filter_sublist.map _)).append (nodup_singleton _) ?_
  simp [List.Disjoint]

/-- **An invalidation advances the generation of its key**, and leaves the others that are not
forgotten. -/
theorem generationIn_bounded (hkeys : (world.generations.map Prod.fst).Nodup) {key other}
    (hkept : maxTrackedGenerations < (world.advanced key).length →
      ∀ tracked ∈ (world.advanced key).head?, other ≠ tracked.1) :
    generationIn (bounded maxTrackedGenerations (world.advanced key)) other =
      if other = key then (world.generationOf key + 1) % 2 ^ 64 else world.generationOf other := by
  have hall : generationIn (world.advanced key) other =
      if other = key then (world.generationOf key + 1) % 2 ^ 64 else world.generationOf other := by
    rw [advanced_eq hkeys]
    unfold generationIn generationOf generationIn
    split_ifs with heq
    · rw [heq, find?_append, find?_eq_none.2 (by simp)]
      simp
    · have hsame : (fun tracked : κ × ℕ => !decide (tracked.1 = key) && decide (tracked.1 = other)) =
          fun tracked => decide (tracked.1 = other) := by
        grind
      simp [find?_append, find?_filter, hsame, Ne.symm heq]
  rw [← hall]
  unfold bounded
  split_ifs with hlong
  · cases hents : world.advanced key with
    | nil => rfl
    | cons tracked rest =>
      have hne := hkept hlong tracked (by simp [hents])
      simp [generationIn, Ne.symm hne]
  · rfl

lemma Ok.invalidate (h : world.Ok) {key} (hremem : world.Remembers (.invalidate key)) :
    ({ world with
      generations := bounded maxTrackedGenerations (world.advanced key)
      invalidated := Function.update world.invalidated key (world.invalidated key + 1)
      }.put id (some (.evicting key))).Ok := by
  have hinval : ∀ other, world.invalidated other ≤
      Function.update world.invalidated key (world.invalidated key + 1) other := by
    intro other
    by_cases heq : other = key
    · simp [heq]
    · simp [heq]
  have hpre : ∀ {other call}, Function.update world.calls id (some (.evicting key)) other = some call →
      (call.slot ≠ none ∨ call.began ≠ none) → world.calls other = some call := by
    intro other call hcall hsome
    by_cases heq : other = id
    · simp only [heq, update_self, Option.some.injEq] at hcall
      simp [← hcall, Call.slot, Call.began] at hsome
    · simpa [heq] using hcall
  refine ⟨(nodup_advanced h.keys key).sublist ((sublist_bounded _ _).map _), fun slot hslot => ?_,
    fun other call key' began hcall hbegan => ?_, h.fresh⟩
  · have hholds : world.Holds slot := hslot.imp_right fun ⟨other, call, hcall, hslot⟩ =>
      ⟨other, call, hpre hcall (.inl (by simp [hslot])), hslot⟩
    have hcounts := h.counts slot hholds
    unfold Counts at hcounts ⊢
    change generationIn (bounded maxTrackedGenerations (world.advanced key)) slot.key + slot.opened =
      slot.generation + Function.update world.invalidated key (world.invalidated key + 1) slot.key
    rw [generationIn_bounded h.keys fun hlong tracked hmem => hremem.2 hlong tracked hmem slot hholds]
    split_ifs with heq
    · rw [heq] at hcounts ⊢
      rw [Nat.mod_eq_of_lt hremem.1, update_self]
      omega
    · rwa [update_of_ne heq]
  · exact Nat.le_trans (h.began other call key' began (hpre hcall (.inr (by simp [hbegan]))) hbegan)
      (hinval key')

lemma Ok.pass (h : world.Ok) {slot} (hslot : world.Holds slot) {call}
    (hcall : call.slot = some slot) (hbegan : call.began = none) : (world.put id (some call)).Ok := by
  refine h.put (fun _ => .inl) h.fresh (fun other hoth => .inl ?_) (by simp [hbegan])
  obtain rfl := Option.some.inj (hcall.symm.trans hoth)
  exact hslot

lemma Ok.release (h : world.Ok) {call} (hslot : call.bind Call.slot = none)
    (hbegan : call.bind Call.began = none) : (world.put id call).Ok :=
  h.put (fun _ => .inl) h.fresh (by simp [hslot]) (by simp [hbegan])

theorem Ok.step (h : world.Ok) {event} {next}
    (hremem : world.Remembers event) (hstep : world.step id event = some next) : next.Ok := by
  have hpooled : ∀ slot ∈ world.pool, world.Holds slot := fun slot => .inl
  unfold World.step at hstep
  split at hstep
  · cases hstep
    exact h.put hpooled h.fresh nofun (by simp +contextual [Call.began])
  · rename_i key writes began hcall
    have hbegan : began ≤ world.invalidated key := h.began _ _ _ _ hcall rfl
    split at hstep
    · cases hstep
      exact h.release rfl rfl
    · rename_i slot hfind
      have hpool : ∀ other ∈ world.pool.eraseP fun slot => slot.key = key, world.Holds other :=
        fun other hmem => .inl (mem_of_mem_eraseP hmem)
      have hkey : slot.key = key := by simpa using find?_some hfind
      split_ifs at hstep
      all_goals obtain rfl := Option.some.inj hstep
      · exact h.put hpool h.fresh nofun nofun
      · refine h.put hpool h.fresh (fun other hoth => ?_) (fun other began' hoth => ?_)
        · obtain rfl : slot = other := by simpa [Call.slot] using hoth
          exact .inl (.inl (mem_of_find?_eq_some hfind))
        · obtain ⟨rfl, rfl⟩ : slot.key = other ∧ began = began' := by simpa [Call.began] using hoth
          rwa [hkey]
  · rename_i slot writes began hcall
    have hslot : world.Holds slot := .inr ⟨id, _, hcall, rfl⟩
    split_ifs at hstep with hgen
    all_goals obtain rfl := Option.some.inj hstep
    · exact h.release rfl rfl
    · refine h.put hpooled (fun pair hpair => ?_) (fun other hoth => ?_) nofun
      · rcases mem_append.1 hpair with hpair | hpair
        · exact h.fresh pair hpair
        · obtain rfl := mem_singleton.1 hpair
          have hcounts := h.counts slot hslot
          have hbegan : began ≤ world.invalidated slot.key := h.began _ _ _ _ hcall rfl
          unfold Counts at hcounts
          dsimp only
          omega
      · obtain rfl : slot = other := by simpa [Call.slot] using hoth
        exact .inl hslot
  · cases hstep
    refine h.put hpooled h.fresh (fun other hoth => .inr ?_) nofun
    cases hoth
    rfl
  · rename_i slot hcall
    cases hstep
    exact h.pass (.inr ⟨id, _, hcall, rfl⟩) rfl rfl
  · cases hstep
    exact h.release rfl rfl
  · cases hstep
    exact h.release rfl rfl
  · rename_i slot hcall
    split_ifs at hstep
    all_goals obtain rfl := Option.some.inj hstep
    · exact h.release rfl rfl
    · exact h.pass (.inr ⟨id, _, hcall, rfl⟩) rfl rfl
  · rename_i slot hcall
    cases hstep
    refine h.put (fun other hmem => ?_) h.fresh nofun nofun
    rcases mem_append.1 ((sublist_bounded _ _).mem hmem) with hmem | hmem
    · exact .inl (mem_of_mem_filter hmem)
    · obtain rfl := mem_singleton.1 hmem
      exact .inr ⟨id, _, hcall, rfl⟩
  · rename_i key hcall
    cases hstep
    exact h.invalidate hremem
  · cases hstep
    exact h.put (fun slot hmem => .inl (mem_of_mem_filter hmem)) h.fresh nofun nofun
  · cases hstep

lemma Ok.after (h : world.Ok) (events) (hremem : world.RunRemembers events) :
    (world.after events).Ok := by
  induction events generalizing world with
  | nil => exact h
  | cons event events ih =>
    obtain ⟨id, event⟩ := event
    have hnext : ((world.step id event).getD world).Ok := by
      cases hstep : world.step id event with
      | none => exact h
      | some next => exact h.step hremem.1 hstep
    exact ih hnext hremem.2

/-- **No connection is handed out that was opened before an invalidation** which its check-out
comes after, as long as the invalidations remember what there are connections of. -/
theorem no_stale_connection (events : List (ℕ × Event κ)) (h : (new : World κ).RunRemembers events) :
    ((new : World κ).after events).Fresh :=
  (ok_new.after events h).fresh

/-- A connection is opened, and checked in by another call. -/
def opens : List (ℕ × Event κ) :=
  [(0, .checkOut key true), (0, .takePooled), (0, .readGeneration), (0, .connect)]

def checksIn : List (ℕ × Event κ) := [(0, .checkIn), (0, .push)]

def takes : List (ℕ × Event κ) := [(0, .checkOut key true), (0, .takePooled), (0, .compare)]

def invalidates : List (ℕ × Event κ) := [(1, .invalidate key), (1, .evict)]

/-- **A connection is handed out after its key was invalidated**: it was out at the time, and came back
after 64 other keys had been invalidated. -/
theorem handed_out_stale : ¬ ((new : World ℕ).after (opens 0 ++ invalidates 0 ++
    (List.range 64).flatMap (fun key => invalidates (key + 1)) ++ checksIn ++ takes 0)).Fresh := by
  decide +kernel

theorem no_stale_connection_sample :
    ((new : World ℕ).after (opens 0 ++ invalidates 0 ++ checksIn ++ opens 0 ++ checksIn ++ takes 0)).Fresh :=
  no_stale_connection _ (by
    simp only [opens, invalidates, checksIn, takes, cons_append, nil_append, RunRemembers, Remembers,
      true_and, and_true]
    exact ⟨by decide, fun hlong => absurd hlong (by decide)⟩)

end World
end CodevoEditor.TurnLogStore.ConnectionPool
