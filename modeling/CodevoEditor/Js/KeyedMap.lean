/-
# Maps of items under their own keys

`new Map(items.map((item) => [key(item), item]))` is a map in which each item stands under its own
key (`Keyed`).
-/

import CodevoEditor.Js.OrderedMap

namespace CodevoEditor.Js
namespace OrderedMap

open List

variable {κ ν ι : Type*} [DecidableEq κ]

/-- Each value stands under its own key. -/
def Keyed (key : ν → κ) (m : OrderedMap κ ν) : Prop :=
  ∀ k value, m.get? k = some value → key value = k

/-- A loop that sets an entry for each item. -/
def setAll (key : ι → κ) (value : ι → ν) (m : OrderedMap κ ν) (items : List ι) : OrderedMap κ ν :=
  items.foldl (fun m item => m.set (key item) (value item)) m

/-- A loop that deletes the entry of each item. -/
def deleteAll (key : ι → κ) (m : OrderedMap κ ν) (items : List ι) : OrderedMap κ ν :=
  items.foldl (fun m item => m.delete (key item)) m

/-- `new Map(items.map((item) => [key(item), item]))`. -/
def keyedBy (key : ν → κ) (items : List ν) : OrderedMap κ ν := setAll key id empty items

lemma get?_deleteAll (key : ι → κ) (m : OrderedMap κ ν) (items : List ι) (k : κ) :
    (m.deleteAll key items).get? k = if k ∈ items.map key then none else m.get? k := by
  induction items generalizing m with
  | nil => rfl
  | cons item items ih =>
    change ((m.delete (key item)).deleteAll key items).get? k = _
    rw [ih, get?_delete, map_cons]
    by_cases hk : k = key item
    · rw [if_pos hk, ite_self, if_pos (mem_cons.2 (.inl hk))]
    · rw [if_neg hk]
      exact if_congr (by rw [mem_cons, or_iff_right hk]) rfl rfl

variable {k : κ}

lemma get?_setAll_of_not_mem (key : ι → κ) (value : ι → ν) (m : OrderedMap κ ν) {items}
    (h : k ∉ items.map key) : (m.setAll key value items).get? k = m.get? k := by
  induction items generalizing m with
  | nil => rfl
  | cons item items ih =>
    rw [map_cons, mem_cons, not_or] at h
    change ((m.set (key item) (value item)).setAll key value items).get? k = _
    rw [ih _ h.2, get?_set, if_neg h.1]

lemma get?_setAll_of_mem {key : ι → κ} (value : ι → ν) (m : OrderedMap κ ν) {items}
    (hnd : (items.map key).Nodup) {item} (h : item ∈ items) :
    (m.setAll key value items).get? (key item) = some (value item) := by
  induction items generalizing m with
  | nil => cases h
  | cons other items ih =>
    rw [map_cons, nodup_cons] at hnd
    change ((m.set (key other) (value other)).setAll key value items).get? (key item) = _
    rcases mem_cons.1 h with rfl | hitem
    · rw [get?_setAll_of_not_mem key value _ hnd.1, get?_set, if_pos rfl]
    · exact ih _ hnd.2 hitem

variable {key : ν → κ}

lemma keyed_empty : Keyed key empty := nofun

variable {m : OrderedMap κ ν}

lemma Keyed.set (h : Keyed key m) (value : ν) : Keyed key (m.set (key value) value) := by
  intro k other hoth
  rw [get?_set] at hoth
  split_ifs at hoth with hk
  · rw [← Option.some.inj hoth, hk]
  · exact h k other hoth

lemma Keyed.setAll (h : Keyed key m) {key' : ι → κ} {value : ι → ν}
    (hval : ∀ item, key (value item) = key' item) (items : List ι) :
    Keyed key (m.setAll key' value items) := by
  induction items generalizing m with
  | nil => exact h
  | cons item items ih =>
    refine ih (m := m.set (key' item) (value item)) ?_
    rw [← hval item]
    exact h.set (value item)

lemma Keyed.deleteAll (h : Keyed key m) (key' : ι → κ) (items : List ι) : Keyed key (m.deleteAll key' items) := by
  intro k value hval
  rw [get?_deleteAll] at hval
  split_ifs at hval
  exact h k value hval

lemma keyed_keyedBy (key : ν → κ) (items : List ν) : Keyed key (keyedBy key items) :=
  keyed_empty.setAll (fun _ => rfl) items

lemma Keyed.map_values (h : Keyed key m) : m.values.map key = m.keys := by
  unfold values keys
  rw [map_map]
  exact map_congr_left fun entry hent => h entry.1 entry.2 (get?_eq_some_iff.2 hent)

lemma Keyed.nodup (h : Keyed key m) : (m.values.map key).Nodup := by
  rw [h.map_values]
  exact m.nodup

variable {value : ν}

lemma Keyed.get?_eq_some_iff (h : Keyed key m) : m.get? k = some value ↔ value ∈ m.values ∧ key value = k := by
  constructor
  · exact fun hval => ⟨mem_values_iff.2 ⟨k, hval⟩, h k value hval⟩
  · rintro ⟨hval, rfl⟩
    obtain ⟨k, hk⟩ := mem_values_iff.1 hval
    rw [h k value hk]
    exact hk

variable {items : List ν}

lemma get?_keyedBy_eq_some_iff (hnd : (items.map key).Nodup) :
    (keyedBy key items).get? k = some value ↔ value ∈ items ∧ key value = k := by
  constructor
  · intro h
    have hk : k ∈ items.map key := by
      by_contra hk
      rw [keyedBy, get?_setAll_of_not_mem key id _ hk] at h
      cases h
    obtain ⟨item, hitem, rfl⟩ := mem_map.1 hk
    rw [keyedBy, get?_setAll_of_mem id _ hnd hitem] at h
    cases h
    exact ⟨hitem, rfl⟩
  · rintro ⟨hval, rfl⟩
    exact get?_setAll_of_mem id _ hnd hval

lemma get?_keyedBy_eq_none_iff (hnd : (items.map key).Nodup) :
    (keyedBy key items).get? k = none ↔ ∀ item ∈ items, key item ≠ k := by
  rw [Option.eq_none_iff_forall_not_mem]
  exact ⟨fun h item hitem hk => h item ((get?_keyedBy_eq_some_iff hnd).2 ⟨hitem, hk⟩),
    fun h item hitem => by
      obtain ⟨hmem, hk⟩ := (get?_keyedBy_eq_some_iff hnd).1 hitem
      exact h item hmem hk⟩

lemma values_keyedBy (hnd : (items.map key).Nodup) : (keyedBy key items).values = items := by
  have hents := entries_foldl_set key id items empty (by simpa using hnd)
  unfold values keyedBy setAll
  rw [hents, show (empty : OrderedMap κ ν).entries = [] from rfl, nil_append, map_map]
  exact map_id items

theorem values_perm_of_get? (h : m.get? k = some value) : m.values.Perm (value :: (m.delete k).values) := by
  have hmem := OrderedMap.get?_eq_some_iff.1 h
  have hrest : (m.delete k).entries = m.entries.filter fun entry => decide (entry.1 ≠ k) := rfl
  unfold values
  rw [hrest, ← map_cons (f := Prod.snd) (a := (k, value))]
  refine List.Perm.map _ ?_
  refine (perm_ext_iff_of_nodup (m.nodup.of_map _) ?_).2 fun entry => ?_
  · refine nodup_cons.2 ⟨fun hin => ?_, (m.nodup.of_map _).filter _⟩
    exact absurd rfl (of_decide_eq_true (mem_filter.1 hin).2)
  · rw [mem_cons, mem_filter, decide_eq_true_iff]
    constructor
    · intro hent
      by_cases hk : entry.1 = k
      · refine .inl (Prod.ext hk ?_)
        have hat : m.get? k = some entry.2 := OrderedMap.get?_eq_some_iff.2 (hk ▸ hent)
        exact Option.some.inj (hat.symm.trans h)
      · exact .inr ⟨hent, hk⟩
    · rintro (rfl | ⟨hent, -⟩)
      · exact hmem
      · exact hent

lemma values_set_perm (m : OrderedMap κ ν) (k : κ) (value : ν) :
    (m.set k value).values.Perm (value :: (m.delete k).values) := by
  have hset : (m.set k value).get? k = some value := by rw [get?_set, if_pos rfl]
  have hperm := values_perm_of_get? hset
  rwa [delete_set] at hperm

end OrderedMap
end CodevoEditor.Js
