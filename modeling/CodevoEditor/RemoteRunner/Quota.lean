/-
# Port forwards that are refused for quota

A request takes out of the table of its set what it retires before it asks for a permit, but the
permits of what it takes out are given back only after it has returned, when they are dropped.
-/

import CodevoEditor.RemoteRunner.PortForwardRuns

namespace CodevoEditor.RemoteRunner
namespace PortForward

open List

variable {σ τ ρ : Type} [DecidableEq σ] [DecidableEq τ]

/-- What `reserve` retires: what has exited, and what is to be forwarded to another address. -/
def retires (hasExited : ρ → Bool) (key : ForwardKey σ) (target : τ) (entry : Entry σ τ ρ) : Bool :=
  entry.exited hasExited || decide (entry.key = key ∧ entry.ready ∧ entry.target ≠ target)

/-- The request is refused for the limit of all or of the owner. -/
def RefusedForQuota (result : Except String Reservation) : Prop :=
  result = .error forwardsError ∨ result = .error ownerForwardsError

namespace Table

/-- A request asks for a permit where the table is open and no entry that stays has the key. -/
def AsksPermit (table : Table σ τ ρ) (retire : Entry σ τ ρ → Bool) (key : ForwardKey σ) : Prop :=
  table.closed = false ∧ ∀ entry ∈ table.entries, entry.key = key → retire entry

lemma refused_iff (table : Table σ τ ρ) (registry : RegistryState) (hasExited : ρ → Bool)
    (key : ForwardKey σ) (target : τ) (now : ℕ) :
    RefusedForQuota (table.reserve registry hasExited key target now).result ↔
      table.AsksPermit (retires hasExited key target) key ∧ (maxForwards ≤ registry.active ∨
        maxOwnerForwards ≤ (registry.owners.get? key.owner.id).getD 0) := by
  unfold reserve AsksPermit
  cases hcl : table.closed with
  | true => simp [RefusedForQuota, show closedError ≠ forwardsError by decide,
      show closedError ≠ ownerForwardsError by decide]
  | false =>
    have hfind : (table.take (retires hasExited key target)).1.entries.find?
        (fun entry => decide (entry.key = key)) = none ↔
        ∀ entry ∈ table.entries, entry.key = key → retires hasExited key target entry := by
      simp only [take, find?_eq_none, mem_filter, Bool.not_eq_true', decide_eq_true_eq]
      grind
    simp only [Bool.false_eq_true, if_false, true_and, ← hfind]
    dsimp only [take, retires]
    split
    · rename_i entry hent
      rw [hent]
      split <;> simp [RefusedForQuota, show alreadyOpeningError ≠ forwardsError by decide,
        show alreadyOpeningError ≠ ownerForwardsError by decide]
    · rename_i hnone
      simp only [hnone, true_and]
      unfold RegistryState.permit
      dsimp only
      split_ifs with hall howner
      · simp [RefusedForQuota, hall]
      · simp [RefusedForQuota, howner]
      · simp [RefusedForQuota, hall, howner]

end Table

namespace World

variable (world : World σ τ ρ)

/-- The quota is used: eight permits live, or four of the owner. -/
def QuotaUsed (owner : OwnerLease) : Prop :=
  maxForwards ≤ world.permits.length ∨ maxOwnerForwards ≤ world.permits.count owner.id

instance (owner : OwnerLease) : Decidable (world.QuotaUsed owner) :=
  inferInstanceAs (Decidable (_ ∨ _))

/-- What there is once the entries that are retired are removed, and their permits with them. -/
def without (set : ℕ) (table : Table σ τ ρ) (retire : Entry σ τ ρ → Bool) : World σ τ ρ :=
  world.put set (table.take retire).1 []

/-- The quota is used, and each limit that is reached counts an entry that is retired. -/
def UsedByRetired (table : Table σ τ ρ) (retire : Entry σ τ ρ → Bool) (owner : OwnerLease) : Prop :=
  world.QuotaUsed owner ∧
  (maxForwards ≤ world.permits.length → ∃ entry ∈ table.entries, retire entry) ∧
  (maxOwnerForwards ≤ world.permits.count owner.id → ∃ entry ∈ table.entries, retire entry ∧ entry.permit = owner.id)

variable {world} {set : ℕ} {table : Table σ τ ρ}

omit [DecidableEq σ] [DecidableEq τ] in
lemma permits_without (hset : world.sets.get? set = some table) (retire : Entry σ τ ρ → Bool) :
    world.permits.Perm
      ((table.entries.filter retire).map Entry.permit ++ (world.without set table retire).permits) := by
  refine (put_moved hset (table.split_take retire)).2.symm.trans ?_
  unfold without permits put
  simp only [map_nil, append_nil, ← append_assoc]
  exact perm_append_comm.append_right _

lemma Ok.justified_iff (h : world.Ok) (hset : world.sets.get? set = some table) (hasExited : ρ → Bool)
    (key : ForwardKey σ) (target : τ) (now : ℕ) :
    (RefusedForQuota (table.reserve world.registry hasExited key target now).result →
        (world.without set table (retires hasExited key target)).QuotaUsed key.owner) ↔
      ¬ (table.AsksPermit (retires hasExited key target) key ∧
        world.UsedByRetired table (retires hasExited key target) key.owner) := by
  rw [Table.refused_iff, h.active, h.owners]
  generalize retires hasExited key target = retire
  have hperm := permits_without hset retire
  have hlen := hperm.length_eq
  have hcnt := hperm.count_eq key.owner.id
  have hany : (∃ entry ∈ table.entries, retire entry) ↔ 0 < (table.entries.filter retire).length := by
    simp [length_pos_iff_exists_mem]
  have hown : (∃ entry ∈ table.entries, retire entry ∧ entry.permit = key.owner.id) ↔
      0 < ((table.entries.filter retire).map Entry.permit).count key.owner.id := by
    simp [count_pos_iff, and_assoc]
  have hbd := h.bound
  rw [h.active] at hbd
  have hownerBound : world.permits.count key.owner.id ≤ maxOwnerForwards := by
    rw [← h.owners]
    cases hget : world.registry.owners.get? key.owner.id with
    | none => simp
    | some live => exact h.ownerBound _ _ hget
  rw [length_append, length_map] at hlen
  rw [count_append] at hcnt
  unfold UsedByRetired QuotaUsed
  rw [hany, hown]
  by_cases hasks : table.AsksPermit retire key
  · simp only [hasks, true_and]
    omega
  · simp [hasks]

/-- **A refusal for quota is justified** unless the quota is used by retired entries. -/
theorem refusals_are_justified_iff (events : List (Event σ τ ρ)) (set : ℕ) (table : Table σ τ ρ)
    (hset : ((new : World σ τ ρ).after events).sets.get? set = some table) (hasExited : ρ → Bool)
    (key : ForwardKey σ) (target : τ) (now : ℕ) :
    let world := (new : World σ τ ρ).after events
    let retire := retires hasExited key target
    (RefusedForQuota (table.reserve world.registry hasExited key target now).result →
        (world.without set table retire).QuotaUsed key.owner) ↔
      ¬ (table.AsksPermit retire key ∧ world.UsedByRetired table retire key.owner) :=
  (ok_after ok_new events).justified_iff hset hasExited key target now

/-- The forward of a port is opened. -/
def opened (port : ℕ) : List (Event Unit Unit Unit) :=
  [.reserve 0 (fun _ => false) ⟨⟨"owner", 1⟩, (), port⟩ () 0, .claim port, .attach 0 port port (),
    .markReady 0 (fun _ => false) port]

/-- Four forwards of an owner. -/
def fourForwards : List (Event Unit Unit Unit) :=
  .openSet 0 :: (opened 1 ++ opened 2 ++ opened 3 ++ opened 4)

/-- A fifth forward of the owner. -/
def fifth : ForwardKey Unit := ⟨⟨"owner", 1⟩, (), 5⟩

/-- **A request is refused for entries that it retires**: the processes of all four forwards of the
owner have exited, and a fifth is refused. -/
theorem refused_for_retired_entries :
    ∃ table, (new.after fourForwards).sets.get? 0 = some table ∧
      RefusedForQuota (table.reserve (new.after fourForwards).registry (fun _ => true) fifth () 0).result ∧
      ¬ ((new.after fourForwards).without 0 table (retires (fun _ => true) fifth ())).QuotaUsed fifth.owner :=
  ⟨_, rfl, .inr rfl, by decide⟩

theorem refusals_are_justified_sample : ∃ table,
    (RefusedForQuota (table.reserve (new.after fourForwards).registry (fun _ => false) fifth () 0).result →
      ((new.after fourForwards).without 0 table (retires (fun _ => false) fifth ())).QuotaUsed fifth.owner) ↔
    ¬ (table.AsksPermit (retires (fun _ => false) fifth ()) fifth ∧
      (new.after fourForwards).UsedByRetired table (retires (fun _ => false) fifth ()) fifth.owner) :=
  ⟨_, refusals_are_justified_iff fourForwards 0 _ rfl (fun _ => false) fifth () 0⟩

end World

end PortForward
end CodevoEditor.RemoteRunner
