/-
# Tables with a primary key

A table is its rows under their primary keys.
-/

import CodevoEditor.Js.OrderedMap

namespace CodevoEditor.Sql

open Js List Option OrderedMap

abbrev Table (κ ρ : Type) := OrderedMap κ ρ

namespace Table

variable {κ ρ : Type}

/-- `SELECT … WHERE`. -/
def selectWhere (table : Table κ ρ) (test : κ → ρ → Bool) : List (κ × ρ) :=
  table.entries.filter fun entry => test entry.1 entry.2

/-- `SELECT COUNT(*) … WHERE`; the number of rows that a statement changes. -/
def countWhere (table : Table κ ρ) (test : κ → ρ → Bool) : ℕ := (table.selectWhere test).length

/-- The first of some rows in an order. -/
def firstBy (before : κ × ρ → κ × ρ → Bool) : List (κ × ρ) → Option (κ × ρ)
  | [] => none
  | row :: rows => some (rows.foldl (fun first row => if before row first then row else first) row)

/-- `UPDATE … SET … WHERE`. -/
def updateWhere (table : Table κ ρ) (test : κ → ρ → Bool) (change : ρ → ρ) : Table κ ρ where
  entries := table.entries.map fun entry =>
    (entry.1, if test entry.1 entry.2 then change entry.2 else entry.2)
  nodup := by
    rw [List.map_map]
    exact table.nodup

/-- `DELETE … WHERE`. -/
def deleteWhere (table : Table κ ρ) (test : κ → ρ → Bool) : Table κ ρ where
  entries := table.entries.filter fun entry => !test entry.1 entry.2
  nodup := table.nodup.sublist (filter_sublist.map _)

/-- `INSERT`; `none` where the key is there. -/
def insertRow [DecidableEq κ] (table : Table κ ρ) (key : κ) (row : ρ) : Option (Table κ ρ) :=
  if (table.get? key).isSome then none else some (table.set key row)

variable {table : Table κ ρ}

lemma mem_selectWhere {test : κ → ρ → Bool} {entry} :
    entry ∈ table.selectWhere test ↔ entry ∈ table.entries ∧ test entry.1 entry.2 :=
  mem_filter

lemma keys_updateWhere (table : Table κ ρ) (test : κ → ρ → Bool) (change : ρ → ρ) :
    (table.updateWhere test change).keys = table.keys := by
  unfold OrderedMap.keys updateWhere
  rw [List.map_map]
  rfl

lemma keys_deleteWhere_keys (table : Table κ ρ) (test : κ → Bool) :
    (table.deleteWhere fun key _ => test key).keys = table.keys.filter fun key => !test key := by
  unfold OrderedMap.keys deleteWhere
  rw [List.filter_map]
  rfl

lemma countWhere_keys (table : Table κ ρ) (test : κ → Bool) :
    (table.countWhere fun key _ => test key) = table.keys.countP test := by
  unfold countWhere selectWhere OrderedMap.keys
  rw [countP_map, countP_eq_length_filter]
  rfl

lemma mem_of_firstBy {before : κ × ρ → κ × ρ → Bool} {rows} {row}
    (h : firstBy before rows = some row) : row ∈ rows := by
  cases rows with
  | nil => cases h
  | cons first rows =>
    obtain rfl := some.inj h
    clear h
    induction rows generalizing first with
    | nil => exact mem_singleton_self _
    | cons next rows ih =>
      rw [foldl_cons]
      have hrest := ih (if before next first then next else first)
      rcases mem_cons.1 hrest with heq | hmem
      · rw [heq]
        split_ifs
        · exact mem_cons_of_mem _ mem_cons_self
        · exact mem_cons_self
      · exact mem_cons_of_mem _ (mem_cons_of_mem _ hmem)

variable [DecidableEq κ]

lemma get?_updateWhere (table : Table κ ρ) (test : κ → ρ → Bool) (change : ρ → ρ) (key : κ) :
    (table.updateWhere test change).get? key =
      (table.get? key).map fun row => if test key row then change row else row := by
  refine Option.ext fun row => ?_
  rw [get?_eq_some_iff, map_eq_some_iff]
  constructor
  · intro hmem
    obtain ⟨⟨key', row'⟩, hrow, heq⟩ := mem_map.1 hmem
    cases heq
    exact ⟨row', get?_eq_some_iff.2 hrow, rfl⟩
  · rintro ⟨row', hrow, rfl⟩
    exact mem_map.2 ⟨(key, row'), get?_eq_some_iff.1 hrow, rfl⟩

lemma get?_deleteWhere (table : Table κ ρ) (test : κ → ρ → Bool) (key : κ) :
    (table.deleteWhere test).get? key = (table.get? key).filter fun row => !test key row := by
  refine Option.ext fun row => ?_
  rw [get?_eq_some_iff, filter_eq_some_iff, get?_eq_some_iff]
  exact mem_filter

variable {key : κ} {next : Table κ ρ} {row : ρ}

lemma get?_insertRow (h : table.insertRow key row = some next) :
    table.get? key = none ∧ ∀ other, next.get? other = if other = key then some row else table.get? other := by
  unfold insertRow at h
  split_ifs at h with hthere
  cases h
  exact ⟨by simpa using hthere, fun other => get?_set table key other row⟩

lemma keys_insertRow (h : table.insertRow key row = some next) :
    key ∉ table.keys ∧ next.keys = table.keys ++ [key] := by
  have hnew := get?_eq_none_iff.1 (get?_insertRow h).1
  unfold insertRow at h
  split_ifs at h
  cases h
  exact ⟨hnew, keys_set_of_not_has hnew row⟩

omit [DecidableEq κ] in
/-- The rows whose keys pass a test, as a table. -/
def restrict (table : Table κ ρ) (test : κ → Bool) : Table κ ρ := table.deleteWhere fun key _ => !test key

lemma get?_restrict (table : Table κ ρ) (test : κ → Bool) (key : κ) :
    (table.restrict test).get? key = if test key then table.get? key else none := by
  unfold restrict
  rw [get?_deleteWhere]
  cases table.get? key with
  | none => rw [filter_none, ite_self]
  | some row =>
    rw [filter_some, Bool.not_not]

omit [DecidableEq κ] in
lemma keys_restrict (table : Table κ ρ) (test : κ → Bool) : (table.restrict test).keys = table.keys.filter test := by
  unfold restrict
  rw [keys_deleteWhere_keys]
  simp only [Bool.not_not]

variable {test : κ → Bool}

lemma restrict_set_of_pos (table : Table κ ρ) (h : test key) (row : ρ) :
    restrict (table.set key row) test = (table.restrict test).set key row := by
  refine ext_get? ?_ fun other => ?_
  · rw [keys_restrict]
    by_cases hmem : key ∈ table.keys
    · have hmem' : key ∈ (table.restrict test).keys := by
        rw [keys_restrict]
        exact mem_filter.2 ⟨hmem, h⟩
      rw [keys_set_of_has hmem, keys_set_of_has hmem', keys_restrict]
    · have hmem' : key ∉ (table.restrict test).keys := by
        rw [keys_restrict]
        exact fun hmem' => hmem (mem_filter.1 hmem').1
      rw [keys_set_of_not_has hmem, keys_set_of_not_has hmem', keys_restrict,
        filter_append, filter_singleton, h, cond_true]
  · rw [get?_restrict, get?_set, get?_set, get?_restrict]
    by_cases heq : other = key
    · rw [if_pos heq, if_pos heq, heq, if_pos h]
    · rw [if_neg heq, if_neg heq]

lemma restrict_set_of_neg (table : Table κ ρ) (h : test key = false) (row : ρ) :
    restrict (table.set key row) test = table.restrict test := by
  have hnot : ¬ test key := by rw [h]; decide
  refine ext_get? ?_ fun other => ?_
  · rw [keys_restrict, keys_restrict]
    by_cases hmem : key ∈ table.keys
    · rw [keys_set_of_has hmem]
    · rw [keys_set_of_not_has hmem, filter_append, filter_singleton, h, cond_false, append_nil]
  · rw [get?_restrict, get?_restrict, get?_set]
    by_cases heq : other = key
    · rw [heq, if_neg hnot, if_neg hnot]
    · rw [if_neg heq]

end Table

end CodevoEditor.Sql
