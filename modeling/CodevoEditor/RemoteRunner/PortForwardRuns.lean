/-
# Admission of port forwards is accounted for

Claims and permits are never copied: a step moves them between the tables and what is loose
(`Moved`, `Change`).
-/

import CodevoEditor.RemoteRunner.PortForward
import CodevoEditor.Js.KeyedMap

namespace CodevoEditor.RemoteRunner
namespace PortForward

open Js List Option OrderedMap

variable {σ τ ρ : Type}

/-- One entry for a key, and none in a table that is closed. -/
structure Table.Ok (table : Table σ τ ρ) : Prop where
  keys : (table.entries.map Entry.key).Nodup
  closed : table.closed → table.entries = []

lemma table_ok_new : (Table.new : Table σ τ ρ).Ok := ⟨nodup_nil, fun _ => rfl⟩

/-- What a change of a table leaves of the claims and permits in it: some are removed. -/
structure Split (before after removed : List (Entry σ τ ρ)) : Prop where
  claims : (before.filterMap Entry.claim).Perm (after.filterMap Entry.claim ++ removed.filterMap Entry.claim)
  permits : (before.map Entry.permit).Perm (after.map Entry.permit ++ removed.map Entry.permit)

namespace Split

variable {before after removed : List (Entry σ τ ρ)}

lemma of_perm (h : before.Perm (after ++ removed)) : Split before after removed := by
  refine ⟨?_, ?_⟩
  · rw [← filterMap_append]
    exact h.filterMap _
  · rw [← map_append]
    exact h.map _

lemma none (entries : List (Entry σ τ ρ)) : Split entries entries [] :=
  of_perm (by rw [append_nil])

lemma all (entries : List (Entry σ τ ρ)) : Split entries [] entries := of_perm (.refl _)

lemma map (h : Split before after removed) {change : Entry σ τ ρ → Entry σ τ ρ}
    (hclaim : ∀ entry, (change entry).claim = entry.claim)
    (hpermit : ∀ entry, (change entry).permit = entry.permit) : Split before (after.map change) removed := by
  refine ⟨?_, ?_⟩
  · rw [filterMap_map, show Entry.claim ∘ change = Entry.claim from funext hclaim]
    exact h.claims
  · rw [List.map_map, show Entry.permit ∘ change = Entry.permit from funext hpermit]
    exact h.permits

end Split

namespace Table

variable {table : Table σ τ ρ}

variable {entries : List (Entry σ τ ρ)}

lemma Ok.sublist (h : table.Ok) (hsub : entries.Sublist table.entries) {nextId} :
    ({ table with entries := entries, nextId := nextId } : Table σ τ ρ).Ok := by
  refine ⟨h.keys.sublist (hsub.map _), fun hcl => ?_⟩
  exact sublist_nil.1 (h.closed hcl ▸ hsub)

variable {change : Entry σ τ ρ → Entry σ τ ρ}

lemma Ok.map (h : table.Ok) (hkey : ∀ entry, (change entry).key = entry.key) :
    ({ table with entries := table.entries.map change } : Table σ τ ρ).Ok := by
  refine ⟨?_, fun hcl => ?_⟩
  · rw [List.map_map, show Entry.key ∘ change = Entry.key from funext hkey]
    exact h.keys
  · dsimp only
    rw [h.closed hcl, map_nil]

lemma ok_take (h : table.Ok) (retire : Entry σ τ ρ → Bool) : (table.take retire).1.Ok :=
  h.sublist filter_sublist

lemma split_take (table : Table σ τ ρ) (retire : Entry σ τ ρ → Bool) :
    Split table.entries (table.take retire).1.entries (table.take retire).2 := by
  refine Split.of_perm (.trans (filter_append_perm retire table.entries).symm ?_)
  exact perm_append_comm

lemma ok_close (table : Table σ τ ρ) : table.close.1.Ok := ⟨nodup_nil, fun _ => rfl⟩

variable {test : Entry σ τ ρ → Bool} {entry : Entry σ τ ρ}

lemma modifyFirst_spec {entries'}
    (h : modifyFirst test change entries = some (entry, entries')) :
    ∃ front back, entries = front ++ entry :: back ∧ entries' = front ++ change entry :: back := by
  induction entries generalizing entries' with
  | nil => cases h
  | cons other entries ih =>
    unfold modifyFirst at h
    split_ifs at h
    · cases h
      exact ⟨[], entries, rfl, rfl⟩
    · obtain ⟨⟨found, rest⟩, hget, heq⟩ := map_eq_some_iff.1 h
      cases heq
      obtain ⟨front, back, hents, hrest⟩ := ih hget
      exact ⟨other :: front, back, by rw [hents, cons_append], by rw [hrest, cons_append]⟩

lemma ok_modifyFirst (h : table.Ok)
    (hget : modifyFirst test change table.entries = some (entry, entries))
    (hkey : (change entry).key = entry.key) :
    ({ table with entries := entries } : Table σ τ ρ).Ok := by
  obtain ⟨front, back, hents, rfl⟩ := modifyFirst_spec hget
  refine ⟨?_, fun hcl => ?_⟩
  · have hkeys := h.keys
    rw [hents] at hkeys
    simpa only [map_append, map_cons, hkey] using hkeys
  · rw [h.closed hcl] at hents
    cases front <;> cases hents

variable {id : ℕ}

/-- **What `attach` does**: the claim comes into the table, and the one it replaces goes out. -/
theorem attach_spec (h : table.Ok) {claim} {process} {table'}
    {replaced} (hattach : table.attach id claim process = .ok (table', replaced)) :
    table'.Ok ∧ (replaced.toList ++ table'.entries.filterMap Entry.claim).Perm
        (claim :: table.entries.filterMap Entry.claim) ∧
      table'.entries.map Entry.permit = table.entries.map Entry.permit := by
  unfold attach at hattach
  split_ifs at hattach with hcl
  split at hattach
  · cases hattach
  · rename_i entry entries hget
    cases hattach
    obtain ⟨front, back, hents, hents'⟩ := modifyFirst_spec hget
    refine ⟨ok_modifyFirst h hget rfl, ?_, ?_⟩
    · dsimp only
      rw [hents, hents']
      refine perm_iff_count.2 fun port => ?_
      cases hclaim : entry.claim with
      | none =>
        simp only [toList_none, nil_append, filterMap_append, count_append,
          filterMap_cons_none hclaim, filterMap_cons, count_cons]
        omega
      | some old =>
        simp only [toList_some, filterMap_append, count_append, filterMap_cons, hclaim, count_cons, count_nil]
        omega
    · dsimp only
      rw [hents, hents', map_append, map_append, map_cons, map_cons]

lemma markReady_spec (h : table.Ok) {hasExited : ρ → Bool} {port} {table'}
    (hready : table.markReady hasExited id = .ok (table', port)) :
    table'.Ok ∧ Split table.entries table'.entries [] := by
  unfold markReady at hready
  split_ifs at hready with hcl
  split at hready
  · cases hready
  · rename_i entry entries hget
    dsimp only at hready
    split at hready
    · cases hready
      obtain ⟨front, back, hents, hents'⟩ := modifyFirst_spec hget
      refine ⟨ok_modifyFirst h hget rfl, ⟨?_, ?_⟩⟩
      · dsimp only
        rw [hents, hents', filterMap_nil, append_nil, filterMap_append,
          filterMap_append, filterMap_cons, filterMap_cons]
      · dsimp only
        rw [hents, hents', map_nil, append_nil, map_append, map_append, map_cons, map_cons]
    · cases hready

/-- **What `reserve` does**: it retires entries, and where it admits one, the registry permits it. -/
theorem reserve_spec [DecidableEq σ] [DecidableEq τ] (h : table.Ok) (registry)
    (hasExited : ρ → Bool) (key : ForwardKey σ) (target : τ) (now : ℕ) :
    (table.reserve registry hasExited key target now).table.Ok ∧
      ((table.reserve registry hasExited key target now).registry = registry ∧
          Split table.entries (table.reserve registry hasExited key target now).table.entries
            (table.reserve registry hasExited key target now).retired ∨
        registry.permit key.owner = .ok (table.reserve registry hasExited key target now).registry ∧
          ∃ kept entry, (table.reserve registry hasExited key target now).table.entries = kept ++ [entry] ∧
            entry.claim = none ∧ entry.permit = key.owner.id ∧
            Split table.entries kept (table.reserve registry hasExited key target now).retired) := by
  unfold reserve
  split_ifs with hcl
  · exact ⟨h, .inl ⟨rfl, Split.none _⟩⟩
  · generalize hretire : (fun entry : Entry σ τ ρ => entry.exited hasExited ||
      decide (entry.key = key ∧ entry.ready ∧ entry.target ≠ target)) = retire
    have hok := ok_take h retire
    have hspl := split_take table retire
    dsimp only
    split
    · split
      · exact ⟨hok, .inl ⟨rfl, hspl⟩⟩
      · exact ⟨hok, .inl ⟨rfl, hspl⟩⟩
    · rename_i hnone
      cases hpermit : registry.permit key.owner with
      | error error => exact ⟨hok, .inl ⟨rfl, hspl⟩⟩
      | ok registry' =>
        refine ⟨⟨?_, fun htrue => absurd htrue hcl⟩,
          .inr ⟨rfl, (table.take retire).1.entries, _, rfl, rfl, rfl, hspl⟩⟩
        rw [map_append, map_singleton]
        refine hok.keys.append (nodup_singleton _) ?_
        rw [disjoint_singleton]
        intro hin
        obtain ⟨entry, hent, heq⟩ := mem_map.1 hin
        exact absurd (decide_eq_true heq) (find?_eq_none.1 hnone entry hent)

end Table

namespace World

variable {world next : World σ τ ρ}

/-- **What a step changes**: claims and permits stay, wherever they are, apart from one that is
made or given back. -/
inductive Change (world next : World σ τ ρ) : Prop
  | moved (hreg : next.registry = world.registry) (hclaims : next.claims.Perm world.claims)
      (hpermits : next.permits.Perm world.permits)
  | claimed (port : ℕ) (hreg : world.registry.claim port = some next.registry)
      (hclaims : next.claims.Perm (port :: world.claims)) (hpermits : next.permits.Perm world.permits)
  | permitted (owner : OwnerLease) (hreg : world.registry.permit owner = .ok next.registry)
      (hclaims : next.claims.Perm world.claims) (hpermits : next.permits.Perm (owner.id :: world.permits))
  | claimDropped (port : ℕ) (hreg : next.registry = world.registry.dropClaim port)
      (hclaims : world.claims.Perm (port :: next.claims)) (hpermits : next.permits.Perm world.permits)
  | permitDropped (ownerId : String) (hreg : next.registry = world.registry.dropPermit ownerId)
      (hclaims : next.claims.Perm world.claims) (hpermits : world.permits.Perm (ownerId :: next.permits))

section Put

variable {set : ℕ} {table table' : Table σ τ ρ}

lemma entries_perm (hset : world.sets.get? set = some table) :
    world.entries.Perm (table.entries ++ (world.sets.delete set).values.flatMap Table.entries) :=
  (values_perm_of_get? hset).flatMap_right _

lemma count_claims (hset : world.sets.get? set = some table) (port : ℕ) :
    world.claims.count port = world.looseClaims.count port +
      ((table.entries.filterMap Entry.claim).count port +
        (((world.sets.delete set).values.flatMap Table.entries).filterMap Entry.claim).count port) := by
  unfold claims
  rw [count_append, ((entries_perm hset).filterMap _).count_eq, filterMap_append, count_append]

lemma count_permits (hset : world.sets.get? set = some table) (owner : String) :
    world.permits.count owner = world.loosePermits.count owner +
      ((table.entries.map Entry.permit).count owner +
        (((world.sets.delete set).values.flatMap Table.entries).map Entry.permit).count owner) := by
  unfold permits
  rw [count_append, ((entries_perm hset).map _).count_eq, map_append, count_append]

lemma sets_of_set (hnext : next.sets = world.sets.set set table') :
    next.sets.get? set = some table' ∧ next.sets.delete set = world.sets.delete set := by
  rw [hnext, get?_set, if_pos rfl, delete_set]
  exact ⟨rfl, rfl⟩

/-- Claims are moved where one set's table and what is loose have the same claims together. -/
lemma claims_moved (hset : world.sets.get? set = some table) (hnext : next.sets = world.sets.set set table')
    (hcnt : ∀ port, next.looseClaims.count port + (table'.entries.filterMap Entry.claim).count port =
      world.looseClaims.count port + (table.entries.filterMap Entry.claim).count port) :
    next.claims.Perm world.claims := by
  obtain ⟨hget, hdelete⟩ := sets_of_set hnext
  refine perm_iff_count.2 fun port => ?_
  rw [count_claims hset, count_claims hget, hdelete]
  have := hcnt port
  omega

lemma permits_moved (hset : world.sets.get? set = some table) (hnext : next.sets = world.sets.set set table')
    (extra)
    (hcnt : ∀ owner, next.loosePermits.count owner + (table'.entries.map Entry.permit).count owner =
      extra.count owner + (world.loosePermits.count owner + (table.entries.map Entry.permit).count owner)) :
    next.permits.Perm (extra ++ world.permits) := by
  obtain ⟨hget, hdelete⟩ := sets_of_set hnext
  refine perm_iff_count.2 fun owner => ?_
  rw [count_append, count_permits hset, count_permits hget, hdelete]
  have := hcnt owner
  omega

lemma put_moved (hset : world.sets.get? set = some table) {removed}
    (hspl : Split table.entries table'.entries removed) :
    (world.put set table' removed).claims.Perm world.claims ∧
      (world.put set table' removed).permits.Perm world.permits := by
  refine ⟨claims_moved hset rfl fun port => ?_, permits_moved hset rfl [] fun owner => ?_⟩
  · have hcnt := hspl.claims.count_eq port
    change (world.looseClaims ++ removed.filterMap Entry.claim).count port + _ = _
    rw [count_append] at hcnt ⊢
    omega
  · have hcnt := hspl.permits.count_eq owner
    change (world.loosePermits ++ removed.map Entry.permit).count owner + _ = _
    rw [count_append] at hcnt ⊢
    rw [count_nil]
    omega

end Put

lemma table_set {set other} {table table'}
    (htable : ∀ set table, world.sets.get? set = some table → table.Ok) (h : table'.Ok)
    (hoth : (world.sets.set set table').get? other = some table) : table.Ok := by
  rw [get?_set] at hoth
  split_ifs at hoth
  · exact some.inj hoth ▸ h
  · exact htable other table hoth

variable [DecidableEq σ] [DecidableEq τ] {event : Event σ τ ρ}

/-- **Each step keeps the tables and moves claims and permits.** -/
theorem change_of_step (htable : ∀ set table, world.sets.get? set = some table → table.Ok)
    (hstep : world.step event = some next) :
    (∀ set table, next.sets.get? set = some table → table.Ok) ∧ Change world next := by
  have moves {set} {table table'} {removed}
      (hset : world.sets.get? set = some table) hok
      hspl :
      (∀ other table, (world.put set table' removed).sets.get? other = some table → table.Ok) ∧
        Change world (world.put set table' removed) :=
    ⟨fun _ _ hoth => table_set htable hok hoth, .moved rfl (put_moved hset hspl).1 (put_moved hset hspl).2⟩
  have stays : (∀ set table, world.sets.get? set = some table → table.Ok) ∧ Change world world :=
    ⟨htable, .moved rfl (.refl _) (.refl _)⟩
  cases event with
  | openSet set =>
    unfold step at hstep
    dsimp only at hstep
    split_ifs at hstep with hhas
    cases hstep
    have hnone : world.sets.get? set = none := by simpa using hhas
    have hents : (world.put set Table.new []).entries.Perm world.entries := by
      have hperm := (values_set_perm world.sets set Table.new).flatMap_right Table.entries
      rwa [delete_of_get?_none hnone] at hperm
    refine ⟨fun _ _ hoth => table_set htable table_ok_new hoth, .moved rfl ?_ ?_⟩
    · have hloose : (world.put set Table.new []).looseClaims = world.looseClaims := append_nil _
      unfold claims
      rw [hloose]
      exact (hents.filterMap _).append_left _
    · have hloose : (world.put set Table.new []).loosePermits = world.loosePermits := append_nil _
      unfold permits
      rw [hloose]
      exact (hents.map _).append_left _
  | reserve set hasExited key target now =>
    obtain ⟨table, hset, rfl⟩ := map_eq_some_iff.1 hstep
    obtain ⟨hok, hcases⟩ := Table.reserve_spec (htable set table hset) world.registry hasExited key target now
    generalize table.reserve world.registry hasExited key target now = reserved at hok hcases ⊢
    refine ⟨fun _ _ hoth => table_set htable hok hoth, ?_⟩
    rcases hcases with ⟨hreg, hspl⟩ | ⟨hpermit, kept, entry, hents, hclaim, howner, hspl⟩
    · exact .moved hreg (put_moved hset hspl).1 (put_moved hset hspl).2
    · refine .permitted key.owner hpermit (claims_moved hset rfl fun port => ?_)
        (permits_moved hset rfl [key.owner.id] fun owner => ?_)
      · have hcnt := hspl.claims.count_eq port
        change (world.looseClaims ++ reserved.retired.filterMap Entry.claim).count port + _ = _
        rw [hents, filterMap_append, filterMap_cons_none hclaim, filterMap_nil, append_nil]
        rw [count_append] at hcnt ⊢
        omega
      · have hcnt := hspl.permits.count_eq owner
        change (world.loosePermits ++ reserved.retired.map Entry.permit).count owner + _ = _
        rw [hents, map_append, map_singleton, howner]
        rw [count_append] at hcnt
        rw [count_append, count_append]
        omega
  | claim port =>
    obtain ⟨registry, hreg, rfl⟩ := map_eq_some_iff.1 hstep
    exact ⟨htable, .claimed port hreg (.refl _) (.refl _)⟩
  | attach set id claim process =>
    unfold step at hstep
    dsimp only at hstep
    split_ifs at hstep with hloose
    obtain ⟨table, hset, rfl⟩ := map_eq_some_iff.1 hstep
    cases hattach : table.attach id claim process with
    | error error => exact stays
    | ok result =>
      obtain ⟨table', replaced⟩ := result
      obtain ⟨hok, hclaims, hpermits⟩ := Table.attach_spec (htable set table hset) hattach
      refine ⟨fun _ _ hoth => table_set htable hok hoth, .moved rfl
        (claims_moved hset rfl fun port => ?_) (permits_moved hset rfl [] fun owner => ?_)⟩
      · have hcnt := hclaims.count_eq port
        have herase := (perm_cons_erase hloose).count_eq port
        rw [count_append] at hcnt ⊢
        rw [count_cons] at hcnt herase
        omega
      · dsimp only
        rw [hpermits, count_nil, Nat.zero_add]
  | markReady set hasExited id =>
    obtain ⟨table, hset, rfl⟩ := map_eq_some_iff.1 hstep
    cases hready : table.markReady hasExited id with
    | error error => exact stays
    | ok result =>
      obtain ⟨table', port⟩ := result
      obtain ⟨hok, hspl⟩ := Table.markReady_spec (htable set table hset) hready
      exact moves hset hok hspl
  | take set retire =>
    obtain ⟨table, hset, rfl⟩ := map_eq_some_iff.1 hstep
    exact moves hset (Table.ok_take (htable set table hset) retire) (Table.split_take table retire)
  | reconcile set hasExited owner scope listed now =>
    obtain ⟨table, hset, rfl⟩ := map_eq_some_iff.1 hstep
    refine moves hset ((Table.ok_take (htable set table hset) _).map fun entry => ?_)
      ((Table.split_take table _).map (fun entry => ?_) fun entry => ?_)
    all_goals
      split_ifs <;> rfl
  | staleScope set owner current now =>
    obtain ⟨table, hset, rfl⟩ := map_eq_some_iff.1 hstep
    unfold Table.staleScope
    dsimp only
    split
    · exact moves hset (htable set table hset) (Split.none _)
    · refine moves hset ((htable set table hset).map fun entry => ?_)
        ((Split.none _).map (fun entry => ?_) fun entry => ?_)
      all_goals
        split_ifs <;> rfl
  | closeSet set =>
    obtain ⟨table, hset, rfl⟩ := map_eq_some_iff.1 hstep
    exact moves hset (Table.ok_close table) (Split.all _)
  | dropSet set =>
    obtain ⟨table, hset, rfl⟩ := map_eq_some_iff.1 hstep
    refine ⟨fun other table' hoth => ?_, .moved rfl ?_ ?_⟩
    · change (world.sets.delete set).get? other = some table' at hoth
      rw [get?_delete] at hoth
      split_ifs at hoth
      exact htable other table' hoth
    · refine perm_iff_count.2 fun port => ?_
      rw [count_claims hset]
      unfold claims entries put
      dsimp only
      rw [count_append, count_append]
      omega
    · refine perm_iff_count.2 fun owner => ?_
      rw [count_permits hset]
      unfold permits entries put
      dsimp only
      rw [count_append, count_append]
      omega
  | dropClaim port =>
    unfold step at hstep
    dsimp only at hstep
    split_ifs at hstep with hloose
    cases hstep
    refine ⟨htable, .claimDropped port rfl ?_ (.refl _)⟩
    exact (perm_cons_erase hloose).append_right _
  | dropPermit ownerId =>
    unfold step at hstep
    dsimp only at hstep
    split_ifs at hstep with hloose
    cases hstep
    refine ⟨htable, .permitDropped ownerId rfl (.refl _) ?_⟩
    exact (perm_cons_erase hloose).append_right _

/-- **What holds of the registry and its sets**: the registry counts the permits that live, owner
by owner, and knows the ports that are claimed. -/
structure Ok (world : World σ τ ρ) : Prop where
  tables : ∀ set table, world.sets.get? set = some table → table.Ok
  claims : world.claims.Nodup
  claimed : ∀ port, port ∈ world.registry.claimed ↔ port ∈ world.claims
  owners : ∀ owner, (world.registry.owners.get? owner).getD 0 = world.permits.count owner
  active : world.registry.active = world.permits.length
  total : world.registry.owners.total id = world.registry.active
  bound : world.registry.active ≤ maxForwards
  ownerBound : ∀ owner live, world.registry.owners.get? owner = some live → live ≤ maxOwnerForwards

omit [DecidableEq σ] [DecidableEq τ] in
lemma ok_new : (new : World σ τ ρ).Ok :=
  ⟨nofun, nodup_nil, fun _ => .rfl, fun _ => rfl, rfl, rfl, Nat.zero_le _, nofun⟩

omit [DecidableEq σ] [DecidableEq τ] in
lemma Ok.change (h : world.Ok) (htable : ∀ set table, next.sets.get? set = some table → table.Ok)
    (hchange : Change world next) : next.Ok := by
  cases hchange with
  | moved hreg hclaims hpermits =>
    refine ⟨htable, hclaims.nodup_iff.2 h.claims, fun port => ?_, fun owner => ?_, ?_, ?_, ?_, ?_⟩
    · rw [hreg, hclaims.mem_iff]
      exact h.claimed port
    · rw [hreg, hpermits.count_eq]
      exact h.owners owner
    · rw [hreg, hpermits.length_eq]
      exact h.active
    all_goals rw [hreg]
    exacts [h.total, h.bound, h.ownerBound]
  | claimed port hreg hclaims hpermits =>
    unfold RegistryState.claim at hreg
    split_ifs at hreg with hin
    have heq := (some.inj hreg).symm
    refine ⟨htable, hclaims.nodup_iff.2 (nodup_cons.2 ⟨fun hmem => hin ((h.claimed port).2 hmem), h.claims⟩),
      fun other => ?_, fun owner => ?_, ?_, ?_, ?_, ?_⟩
    · rw [heq, hclaims.mem_iff, mem_cons]
      exact Finset.mem_insert.trans (or_congr_right (h.claimed other))
    · rw [heq, hpermits.count_eq]
      exact h.owners owner
    · rw [heq, hpermits.length_eq]
      exact h.active
    all_goals rw [heq]
    exacts [h.total, h.bound, h.ownerBound]
  | permitted owner hreg hclaims hpermits =>
    unfold RegistryState.permit at hreg
    dsimp only at hreg
    split_ifs at hreg with hfull howner
    have heq := (Except.ok.inj hreg).symm
    have hlive := h.owners owner.id
    refine ⟨htable, hclaims.nodup_iff.2 h.claims, fun port => ?_, fun other => ?_, ?_, ?_, ?_,
      fun other live hoth => ?_⟩
    · rw [heq, hclaims.mem_iff]
      exact h.claimed port
    · rw [heq, hpermits.count_eq, count_cons, get?_set]
      by_cases hsame : other = owner.id
      · rw [if_pos hsame, if_pos (beq_iff_eq.2 hsame.symm), hsame, ← hlive]
        rfl
      · rw [if_neg hsame, if_neg fun heq => hsame (beq_iff_eq.1 heq).symm]
        exact h.owners other
    · rw [heq, hpermits.length_eq, length_cons, ← h.active]
    · have htot := h.total
      rw [heq, total_set]
      cases hget : world.registry.owners.get? owner.id with
      | none =>
        rw [delete_of_get?_none hget, htot]
        exact Nat.add_comm 1 _
      | some live =>
        rw [total_of_get? id hget] at htot
        dsimp only [getD_some, id] at htot ⊢
        omega
    · rw [heq]
      exact Nat.lt_of_not_le hfull
    · rw [heq, get?_set] at hoth
      split_ifs at hoth
      · rw [← some.inj hoth]
        exact Nat.lt_of_not_le howner
      · exact h.ownerBound other live hoth
  | claimDropped port hreg hclaims hpermits =>
    have hnd := nodup_cons.1 (hclaims.nodup_iff.1 h.claims)
    refine ⟨htable, hnd.2, fun other => ?_, fun owner => ?_, ?_, ?_, ?_, ?_⟩
    · rw [hreg]
      change other ∈ world.registry.claimed.erase port ↔ _
      rw [Finset.mem_erase, h.claimed, hclaims.mem_iff, mem_cons]
      constructor
      · rintro ⟨hne, heq | hmem⟩
        · exact absurd heq hne
        · exact hmem
      · exact fun hmem => ⟨fun heq => hnd.1 (heq ▸ hmem), .inr hmem⟩
    · rw [hreg, hpermits.count_eq]
      exact h.owners owner
    · rw [hreg, hpermits.length_eq]
      exact h.active
    all_goals rw [hreg]
    exacts [h.total, h.bound, h.ownerBound]
  | permitDropped ownerId hreg hclaims hpermits =>
    have hlive := h.owners ownerId
    rw [hpermits.count_eq, count_cons_self] at hlive
    obtain ⟨live, hget⟩ : ∃ live, world.registry.owners.get? ownerId = some live := by
      cases hget : world.registry.owners.get? ownerId with
      | none =>
        rw [hget] at hlive
        cases hlive
      | some live => exact ⟨live, rfl⟩
    rw [hget, getD_some] at hlive
    have hact := h.active
    rw [hpermits.length_eq, length_cons] at hact
    have htot := h.total
    rw [total_of_get? id hget] at htot
    unfold RegistryState.dropPermit at hreg
    rw [hget] at hreg
    dsimp only [id] at hreg htot
    refine ⟨htable, hclaims.nodup_iff.2 h.claims, fun port => ?_, fun other => ?_, ?_, ?_, ?_,
      fun other count hoth => ?_⟩
    · rw [hreg, hclaims.mem_iff]
      exact h.claimed port
    · have hoths := h.owners other
      rw [hpermits.count_eq, count_cons] at hoths
      rw [hreg]
      by_cases hsame : other = ownerId
      · rw [hsame]
        split_ifs with hzero
        · rw [get?_delete, if_pos rfl, getD_none]
          omega
        · rw [get?_set, if_pos rfl, getD_some]
          omega
      · rw [if_neg fun heq => hsame (beq_iff_eq.1 heq).symm] at hoths
        split_ifs
        · rw [get?_delete, if_neg hsame]
          exact hoths
        · rw [get?_set, if_neg hsame]
          exact hoths
    · rw [hreg]
      dsimp only
      omega
    · rw [hreg]
      dsimp only
      split_ifs
      · omega
      · rw [total_set]
        dsimp only [id]
        omega
    · rw [hreg]
      exact (Nat.sub_le _ _).trans h.bound
    · rw [hreg] at hoth
      split_ifs at hoth
      · rw [get?_delete] at hoth
        split_ifs at hoth
        exact h.ownerBound other count hoth
      · rw [get?_set] at hoth
        split_ifs at hoth
        · rw [← some.inj hoth]
          exact (Nat.sub_le _ _).trans (h.ownerBound ownerId live hget)
        · exact h.ownerBound other count hoth

lemma ok_after (h : world.Ok) (events) : (world.after events).Ok := by
  induction events generalizing world with
  | nil => exact h
  | cons event events ih =>
    have hnext : ((world.step event).getD world).Ok := by
      cases hstep : world.step event with
      | none => exact h
      | some next =>
        obtain ⟨htable, hchange⟩ := change_of_step h.tables hstep
        exact h.change htable hchange
    exact ih hnext

/-- **Port-forward admission is accounted for**: the counts are those of the permits that live, and
no port is claimed twice. -/
theorem admission_is_accounted_for (events : List (Event σ τ ρ)) :
    let world := (new : World σ τ ρ).after events
    world.registry.active = world.registry.owners.total id ∧
    world.registry.active = world.loosePermits.length + world.entries.length ∧
    (∀ owner, (world.registry.owners.get? owner).getD 0 = world.permits.count owner) ∧
    world.registry.active ≤ maxForwards ∧
    (∀ owner, world.permits.count owner ≤ maxOwnerForwards) ∧
    (∀ set table, world.sets.get? set = some table →
      (table.entries.map Entry.key).Nodup ∧ (table.closed → table.entries = [])) ∧
    (world.entries.filterMap Entry.claim).Nodup ∧
    ∀ port, port ∈ world.registry.claimed ↔ port ∈ world.claims := by
  have h : ((new : World σ τ ρ).after events).Ok := ok_after ok_new events
  refine ⟨h.total.symm, ?_, h.owners, h.bound, fun owner => ?_, fun set table hset => ?_, ?_, h.claimed⟩
  · rw [h.active]
    unfold permits
    rw [length_append, length_map]
  · rw [← h.owners]
    cases hget : ((new : World σ τ ρ).after events).registry.owners.get? owner with
    | none => exact Nat.zero_le _
    | some live => exact h.ownerBound owner live hget
  · exact ⟨(h.tables set table hset).keys, (h.tables set table hset).closed⟩
  · exact h.claims.sublist (sublist_append_right _ _)

end World

end PortForward
end CodevoEditor.RemoteRunner
