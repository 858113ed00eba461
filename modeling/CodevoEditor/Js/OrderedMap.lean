/-
# Maps in insertion order

A JavaScript `Map` lists its entries in the order in which their keys were first set: `set` on a
present key keeps its place, `delete` closes the gap, and a key set again after a `delete` goes
to the end.
-/

import Mathlib.Algebra.Ring.Nat
import Mathlib.Data.List.Nodup

namespace CodevoEditor.Js

open List Option

/-- A `Map`: entries in insertion order, one for each key. -/
structure OrderedMap (κ ν : Type*) where
  entries : List (κ × ν)
  nodup : (entries.map Prod.fst).Nodup

namespace OrderedMap

variable {κ ν μ : Type*}

variable {m : OrderedMap κ ν}

lemma ext {m'} (h : m.entries = m'.entries) : m = m' := by
  cases m; cases m'; cases h; rfl

instance [DecidableEq κ] [DecidableEq ν] : DecidableEq (OrderedMap κ ν) := fun m m' =>
  decidable_of_iff (m.entries = m'.entries) ⟨ext, fun h => h ▸ rfl⟩

/-- `new Map()`. -/
def empty : OrderedMap κ ν := ⟨[], nodup_nil⟩

instance : Inhabited (OrderedMap κ ν) := ⟨empty⟩

def keys (m : OrderedMap κ ν) : List κ := m.entries.map Prod.fst

def values (m : OrderedMap κ ν) : List ν := m.entries.map Prod.snd

def size (m : OrderedMap κ ν) : ℕ := m.entries.length

@[simp] lemma keys_empty : (empty : OrderedMap κ ν).keys = [] := rfl

lemma length_keys (m : OrderedMap κ ν) : m.keys.length = m.size := length_map _

lemma length_values (m : OrderedMap κ ν) : m.values.length = m.size := length_map _

lemma size_eq_one_iff : m.size = 1 ↔ ∃ key, m.keys = [key] := by
  rw [← length_keys, length_eq_one_iff]

variable {key : κ}

lemma keys_eq_singleton (m : OrderedMap κ ν) (hmem : key ∈ m.keys) (hall : ∀ k ∈ m.keys, k = key) :
    m.keys = [key] := by
  have hnd : m.keys.Nodup := m.nodup
  match hks : m.keys with
  | [] => simp [hks] at hmem
  | [k] => simp [hall k (by simp [hks])]
  | k :: k' :: rest =>
    rw [hks, nodup_cons, hall k (by simp [hks]), hall k' (by simp [hks])] at hnd
    simp at hnd

variable [DecidableEq κ]

def get? (m : OrderedMap κ ν) (key : κ) : Option ν :=
  (m.entries.find? fun entry => entry.1 = key).map Prod.snd

def has (m : OrderedMap κ ν) (key : κ) : Bool := key ∈ m.keys

/-- The entries with `key` set to `value`. -/
def setEntries (key : κ) (value : ν) (entries : List (κ × ν)) : List (κ × ν) :=
  if key ∈ entries.map Prod.fst then
    entries.map fun entry => if entry.1 = key then (key, value) else entry
  else entries ++ [(key, value)]

lemma keys_setEntries (key : κ) (value : ν) (entries) :
    (setEntries key value entries).map Prod.fst =
      if key ∈ entries.map Prod.fst then entries.map Prod.fst
      else entries.map Prod.fst ++ [key] := by
  unfold setEntries
  split_ifs
  · rw [List.map_map]
    refine map_congr_left fun entry _ => ?_
    by_cases h : entry.1 = key <;> simp [h]
  · simp

def set (m : OrderedMap κ ν) (key : κ) (value : ν) : OrderedMap κ ν where
  entries := setEntries key value m.entries
  nodup := by
    rw [keys_setEntries]
    split_ifs with h
    · exact m.nodup
    · exact m.nodup.append (nodup_singleton key) (by simpa using h)

def delete (m : OrderedMap κ ν) (key : κ) : OrderedMap κ ν where
  entries := m.entries.filter fun entry => entry.1 ≠ key
  nodup := (m.nodup.sublist (filter_sublist.map _))

lemma mem_keys_iff : key ∈ m.keys ↔ (m.get? key).isSome := by
  simp [keys, get?, find?_isSome]

@[simp] lemma has_eq (m : OrderedMap κ ν) (key : κ) : m.has key = (m.get? key).isSome := by
  rw [Bool.eq_iff_iff, has, decide_eq_true_iff, mem_keys_iff]

lemma get?_eq_none_iff : m.get? key = none ↔ key ∉ m.keys := by
  rw [mem_keys_iff]; cases m.get? key <;> simp

variable {value : ν}

lemma get?_eq_some_iff : m.get? key = some value ↔ (key, value) ∈ m.entries := by
  obtain ⟨entries, nodup⟩ := m
  unfold get?
  induction entries with
  | nil => simp
  | cons entry entries ih =>
    obtain ⟨k, v⟩ := entry
    rw [map_cons, nodup_cons] at nodup
    by_cases h : k = key
    · subst h
      have hv : ∀ w, (k, w) ∉ entries := fun w hw =>
        nodup.1 (mem_map.2 ⟨_, hw, rfl⟩)
      simp [hv, eq_comm]
    · simp [h, Ne.symm h, ← ih nodup.2]

lemma mem_values_iff : value ∈ m.values ↔ ∃ key, m.get? key = some value := by
  simp [values, get?_eq_some_iff]

@[simp] lemma get?_empty (key : κ) : (empty : OrderedMap κ ν).get? key = none := rfl

@[simp] lemma get?_set (m : OrderedMap κ ν) (key key' : κ) (value : ν) :
    (m.set key value).get? key' = if key' = key then some value else m.get? key' := by
  have hmem : ∀ v, (key', v) ∈ setEntries key value m.entries ↔
      if key' = key then v = value else (key', v) ∈ m.entries := by
    intro v
    unfold setEntries
    split_ifs with hk hkey hkey
    · subst hkey
      constructor
      · intro h
        obtain ⟨entry, he, heq⟩ := mem_map.1 h
        split_ifs at heq with hc
        · exact (Prod.ext_iff.1 heq).2.symm
        · exact absurd (by rw [heq]) hc
      · rintro rfl
        obtain ⟨entry, he, heq⟩ := mem_map.1 hk
        exact mem_map.2 ⟨entry, he, by rw [if_pos heq]⟩
    · constructor
      · intro h
        obtain ⟨entry, he, heq⟩ := mem_map.1 h
        split_ifs at heq with hc
        · exact absurd (Prod.ext_iff.1 heq).1.symm hkey
        · exact heq ▸ he
      · exact fun h => mem_map.2 ⟨_, h, by rw [if_neg hkey]⟩
    · subst hkey
      have : ∀ w, (key', w) ∉ m.entries := fun w hw =>
        hk (mem_map.2 ⟨_, hw, rfl⟩)
      simp [this]
    · simp [hkey]
  refine Option.ext fun v => ?_
  rw [get?_eq_some_iff]
  refine (hmem v).trans ?_
  split_ifs
  · rw [some_inj, eq_comm]
  · exact get?_eq_some_iff.symm

lemma keys_set_of_has (h : key ∈ m.keys) (value : ν) : (m.set key value).keys = m.keys := by
  exact (keys_setEntries key value m.entries).trans (if_pos h)

lemma keys_set_of_not_has (h : key ∉ m.keys) (value : ν) : (m.set key value).keys = m.keys ++ [key] := by
  exact (keys_setEntries key value m.entries).trans (if_neg h)

lemma entries_set_of_not_has (h : key ∉ m.keys) (value : ν) :
    (m.set key value).entries = m.entries ++ [(key, value)] := if_neg h

lemma entries_foldl_set {ι : Type*} (key : ι → κ) (value : ι → ν) (items : List ι)
    (m : OrderedMap κ ν) (hnd : (m.keys ++ items.map key).Nodup) :
    (items.foldl (fun m item => m.set (key item) (value item)) m).entries =
      m.entries ++ items.map fun item => (key item, value item) := by
  induction items generalizing m with
  | nil => rw [foldl_nil, map_nil, append_nil]
  | cons item items ih =>
    rw [map_cons, ← singleton_append, ← append_assoc] at hnd
    have hnew : key item ∉ m.keys := by
      have hhead := (nodup_append'.1 hnd).1
      exact fun hmem => (nodup_append'.1 hhead).2.2 hmem (mem_singleton_self _)
    rw [foldl_cons, ih _ (by rwa [keys_set_of_not_has hnew]), entries_set_of_not_has hnew,
      append_assoc, map_cons, singleton_append]

lemma get?_foldl_set_filter (m : OrderedMap κ ν) (test : κ × ν → Bool) (key : κ) :
    (m.entries.foldl (fun kept entry => if test entry then kept.set entry.1 entry.2 else kept)
      empty).get? key = (m.get? key).filter fun value => test (key, value) := by
  have hnd : ((empty : OrderedMap κ ν).keys ++ (m.entries.filter test).map Prod.fst).Nodup :=
    m.nodup.sublist (filter_sublist.map _)
  have hents := entries_foldl_set Prod.fst Prod.snd (m.entries.filter test) empty hnd
  rw [foldl_filter] at hents
  have hmem value : (key, value) ∈ (m.entries.foldl (fun kept entry =>
      if test entry then kept.set entry.1 entry.2 else kept) empty).entries ↔
        (key, value) ∈ m.entries ∧ test (key, value) := by
    have hpairs (entries : List (κ × ν)) : (entries.map fun entry => (entry.1, entry.2)) = entries := map_id entries
    rw [hents, hpairs]
    exact mem_filter
  refine Option.ext fun value => ?_
  rw [get?_eq_some_iff, hmem, filter_eq_some_iff, get?_eq_some_iff]

lemma size_set (m : OrderedMap κ ν) (key : κ) (value : ν) :
    (m.set key value).size = if key ∈ m.keys then m.size else m.size + 1 := by
  rw [← length_keys, ← length_keys]
  split_ifs with h
  · rw [keys_set_of_has h]
  · rw [keys_set_of_not_has h, length_append, length_singleton]

@[simp] lemma get?_delete (m : OrderedMap κ ν) (key key' : κ) :
    (m.delete key).get? key' = if key' = key then none else m.get? key' := by
  refine Option.ext fun v => ?_
  rw [get?_eq_some_iff, delete, mem_filter, decide_eq_true_iff]
  split_ifs with h
  · simp [h]
  · rw [← get?_eq_some_iff]
    exact and_iff_left h

lemma get?_foldl_delete (deleted : List κ) (m : OrderedMap κ ν) (key : κ) :
    (deleted.foldl delete m).get? key = if key ∈ deleted then none else m.get? key := by
  induction deleted generalizing m with
  | nil => rfl
  | cons first deleted ih =>
    rw [foldl_cons, ih, get?_delete]
    by_cases hfst : key = first
    · rw [if_pos hfst, if_pos (mem_cons.2 (.inl hfst)), ite_self]
    · rw [if_neg hfst]
      exact if_congr ((mem_cons.trans (or_iff_right hfst)).symm) rfl rfl

lemma keys_delete (m : OrderedMap κ ν) (key : κ) : (m.delete key).keys = m.keys.filter (· ≠ key) := by
  rw [keys, keys, delete, List.filter_map]; rfl

lemma keys_delete_head {keys} (h : m.keys = key :: keys) : (m.delete key).keys = keys := by
  have hnd : (key :: keys).Nodup := h ▸ m.nodup
  rw [keys_delete, h, filter_cons_of_neg (by simp), filter_eq_self]
  intro other hmem
  refine decide_eq_true ?_
  rintro rfl
  exact (nodup_cons.1 hnd).1 hmem

lemma size_delete_le (m : OrderedMap κ ν) (key : κ) : (m.delete key).size ≤ m.size :=
  length_filter_le _ _

lemma size_delete_lt (h : key ∈ m.keys) : (m.delete key).size < m.size := by
  obtain ⟨entry, hent, hkey⟩ := mem_map.1 h
  exact length_filter_lt_length_iff_exists.2 ⟨entry, hent, by simp [hkey]⟩

lemma size_eq_zero_iff : m.size = 0 ↔ ∀ key, m.get? key = none := by
  rw [size, length_eq_zero_iff]
  constructor
  · intro h key
    rw [get?, h]; rfl
  · intro h
    refine eq_nil_iff_forall_not_mem.2 fun entry he => ?_
    have := get?_eq_some_iff.2 (show (entry.1, entry.2) ∈ m.entries from he)
    rw [h] at this
    cases this

lemma ext_get? {m'} (hkeys : m.keys = m'.keys)
    (hget : ∀ key, m.get? key = m'.get? key) : m = m' := by
  refine ext (ext_getElem ?_ fun i hi hi' => ?_)
  · have h := congrArg List.length hkeys
    rwa [length_keys, length_keys] at h
  · have hfst : m.entries[i].1 = m'.entries[i].1 := by
      have hk : m.keys[i]? = m'.keys[i]? := by rw [hkeys]
      rw [keys, keys, getElem?_map, getElem?_map, getElem?_eq_getElem hi,
        getElem?_eq_getElem hi'] at hk
      exact some.inj hk
    have h := get?_eq_some_iff.2 (show (m.entries[i].1, m.entries[i].2) ∈ m.entries from
      getElem_mem hi)
    have h' := get?_eq_some_iff.2 (show (m'.entries[i].1, m'.entries[i].2) ∈ m'.entries from
      getElem_mem hi')
    rw [hget, hfst, h'] at h
    exact Prod.ext hfst (some.inj h).symm

lemma set_of_get? (h : m.get? key = some value) : m.set key value = m := by
  refine ext_get? (keys_set_of_has (mem_keys_iff.2 (by rw [h]; rfl)) value) fun key' => ?_
  rw [get?_set]
  split_ifs with hkey
  · rw [hkey, h]
  · rfl

lemma map_entries_set {β : Type*} (f : κ × ν → β) {old} (h : m.get? key = some old)
    (heq : f (key, value) = f (key, old)) :
    (m.set key value).entries.map f = m.entries.map f := by
  have hmem : key ∈ m.entries.map Prod.fst := mem_keys_iff.2 (by rw [h]; rfl)
  change (setEntries key value m.entries).map f = _
  unfold setEntries
  rw [if_pos hmem, List.map_map]
  refine map_congr_left fun entry hent => ?_
  change f (if entry.1 = key then (key, value) else entry) = f entry
  split_ifs with hkey
  · obtain ⟨key', found⟩ := entry
    obtain rfl : key' = key := hkey
    rw [get?_eq_some_iff.2 hent] at h
    cases h
    exact heq
  · rfl

lemma set_set (m : OrderedMap κ ν) (key : κ) (value value' : ν) :
    (m.set key value).set key value' = m.set key value' := by
  have hmem : key ∈ (m.set key value).keys := by simp [mem_keys_iff]
  refine ext_get? ?_ fun key' => ?_
  · rw [keys_set_of_has hmem]
    by_cases h : key ∈ m.keys
    · rw [keys_set_of_has h, keys_set_of_has h]
    · rw [keys_set_of_not_has h, keys_set_of_not_has h]
  · rw [get?_set, get?_set, get?_set]
    split_ifs <;> rfl

lemma set_comm_of_mem {key'} (hmem : key ∈ m.keys) (hne : key ≠ key') (value value' : ν) :
    (m.set key value).set key' value' = (m.set key' value').set key value := by
  have hmem' : key ∈ (m.set key' value').keys := by
    rw [mem_keys_iff, get?_set, if_neg hne, ← mem_keys_iff]
    exact hmem
  refine ext_get? ?_ fun other => ?_
  · rw [keys_set_of_has hmem']
    by_cases h : key' ∈ m.keys
    · rw [keys_set_of_has (keys_set_of_has hmem value ▸ h), keys_set_of_has hmem, keys_set_of_has h]
    · rw [keys_set_of_not_has (keys_set_of_has hmem value ▸ h), keys_set_of_has hmem, keys_set_of_not_has h]
  · rw [get?_set, get?_set, get?_set, get?_set]
    by_cases h : other = key
    · rw [if_neg (h ▸ hne), if_pos h, if_pos h]
    · rw [if_neg h, if_neg h]

lemma delete_of_get?_none (h : m.get? key = none) : m.delete key = m := by
  refine ext (filter_eq_self.2 fun entry hent => decide_eq_true fun heq => ?_)
  exact get?_eq_none_iff.1 h (mem_map.2 ⟨entry, hent, heq⟩)

lemma delete_set (m : OrderedMap κ ν) (key : κ) (value : ν) : (m.set key value).delete key = m.delete key := by
  refine ext_get? ?_ fun other => ?_
  · rw [keys_delete, keys_delete]
    by_cases h : key ∈ m.keys
    · rw [keys_set_of_has h]
    · rw [keys_set_of_not_has h, filter_append]
      simp
  · rw [get?_delete, get?_delete, get?_set]
    split_ifs <;> rfl

def total (f : ν → ℕ) (m : OrderedMap κ ν) : ℕ := (m.entries.map fun entry => f entry.2).sum

variable (f : ν → ℕ)

omit [DecidableEq κ] in
@[simp] lemma total_empty : (empty : OrderedMap κ ν).total f = 0 := rfl

lemma perm_of_get? (h : m.get? key = some value) : m.entries.Perm ((key, value) :: (m.delete key).entries) := by
  have hmem := get?_eq_some_iff.1 h
  have hnew : (key, value) ∉ (m.delete key).entries := fun hin =>
    of_decide_eq_true (mem_filter.1 hin).2 rfl
  refine (perm_ext_iff_of_nodup (.of_map _ m.nodup)
    (nodup_cons.2 ⟨hnew, .of_map _ (m.delete key).nodup⟩)).2 fun entry => ?_
  rw [mem_cons, delete, mem_filter, decide_eq_true_iff]
  constructor
  · intro hent
    by_cases hkey : entry.1 = key
    · obtain ⟨key', found⟩ := entry
      obtain rfl : key' = key := hkey
      rw [get?_eq_some_iff.2 hent] at h
      exact .inl (congrArg (Prod.mk key') (some.inj h))
    · exact .inr ⟨hent, hkey⟩
  · rintro (rfl | ⟨hent, -⟩)
    · exact hmem
    · exact hent

theorem total_of_get? (h : m.get? key = some value) : m.total f = f value + (m.delete key).total f := by
  unfold total
  rw [((perm_of_get? h).map fun entry => f entry.2).sum_nat, map_cons, sum_cons]

lemma total_set (m : OrderedMap κ ν) (key : κ) (value : ν) :
    (m.set key value).total f = f value + (m.delete key).total f := by
  have hset : (m.set key value).get? key = some value := by rw [get?_set, if_pos rfl]
  rw [total_of_get? f hset, delete_set]

lemma le_total (h : m.get? key = some value) : f value ≤ m.total f := by
  have := total_of_get? f h
  omega

end OrderedMap
end CodevoEditor.Js
