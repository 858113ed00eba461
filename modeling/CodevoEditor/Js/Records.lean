/-
# Records and strict readers

A record is written as an untyped object without its absent fields (`record`), and read back
field by field (`fieldOf_record`).
-/

import CodevoEditor.Js.Value

namespace CodevoEditor.Js

variable {ε α β : Type}

lemma bind_eq_ok {first} {next : α → Except ε β} {result} :
    (first >>= next) = .ok result ↔ ∃ value, first = .ok value ∧ next value = .ok result := by
  constructor
  · intro h
    cases first with
    | error reason => cases h
    | ok value => exact ⟨value, rfl, h⟩
  · rintro ⟨value, rfl, hnext⟩
    exact hnext

def JsValue.isUndefined : JsValue → Bool
  | .undefined => true
  | _ => false

/-- The fields that are there. -/
def present (fields : List (JsString × JsValue)) : List (JsString × JsValue) :=
  fields.filter fun field => !field.2.isUndefined

/-- An object without fields that are `undefined`. -/
def record (fields : List (JsString × JsValue)) : JsValue := .object (present fields)

lemma keys_present_subset (fields) : ∀ key ∈ (present fields).map Prod.fst, key ∈ fields.map Prod.fst :=
  fun _ hkey => (List.filter_sublist.map Prod.fst).subset hkey

/-- **A field reads as it was written**, absent or not. -/
theorem fieldOf_present {fields}
    (hnd : (fields.map Prod.fst).Nodup) {key} {value}
    (hmem : (key, value) ∈ fields) : fieldOf (present fields) key = value := by
  have hunique : ∀ field ∈ fields, field.1 = key → field = (key, value) := fun field hfield hkey =>
    List.inj_on_of_nodup_map hnd hfield hmem hkey
  unfold fieldOf
  cases hfind : (present fields).find? fun field => field.1 = key with
  | some field =>
    have hfield := (List.mem_filter.1 (List.mem_of_find?_eq_some hfind)).1
    have hkey := List.find?_some hfind
    rw [decide_eq_true_iff] at hkey
    rw [hunique field hfield hkey]
    rfl
  | none =>
    have habsent := List.find?_eq_none.1 hfind (key, value)
    by_cases hundef : value.isUndefined
    · cases value <;> first | rfl | cases hundef
    · refine absurd (decide_eq_true rfl) (habsent (List.mem_filter.2 ⟨hmem, ?_⟩))
      rw [Bool.not_eq_true] at hundef
      rw [hundef]
      rfl

/-- A reader that accepts only what is in a format, and reads back what is
written of it. -/
structure Codec (read : JsValue → Except ε α) (write : α → JsValue) (format : α → Prop) : Prop where
  sound : ∀ value result, read value = .ok result → format result
  roundTrip : ∀ result, format result → read (write result) = .ok result

/-- A field that may be absent. -/
def readOptional (read : JsValue → Except ε α) (value : JsValue) : Except ε (Option α) :=
  if value.isUndefined then .ok none else (read value).map some

def writeOptional (write : α → JsValue) : Option α → JsValue
  | none => .undefined
  | some value => write value

variable {read : JsValue → Except ε α} {write : α → JsValue} {format : α → Prop}

lemma Codec.optional (h : Codec read write format)
    (hwrite : ∀ value, (write value).isUndefined = false) :
    Codec (readOptional read) (writeOptional write) fun result => ∀ value ∈ result, format value where
  sound value result hread := by
    unfold readOptional at hread
    split_ifs at hread
    · cases hread
      rintro _ ⟨⟩
    · cases hval : read value with
      | error reason =>
        rw [hval] at hread
        cases hread
      | ok parsed =>
        rw [hval] at hread
        cases hread
        rintro _ ⟨⟩
        exact h.sound value parsed hval
  roundTrip result hfmt := by
    cases result with
    | none => rfl
    | some value =>
      change readOptional read (write value) = _
      unfold readOptional
      rw [hwrite value, h.roundTrip value (hfmt value rfl)]
      rfl

lemma Codec.mapM_sound (h : Codec read write format) {items : List JsValue} {results : List α}
    (hread : items.mapM read = .ok results) :
    items.length = results.length ∧ ∀ result ∈ results, format result := by
  induction items generalizing results with
  | nil =>
    cases hread
    exact ⟨rfl, by rintro result ⟨⟩⟩
  | cons item items ih =>
    rw [List.mapM_cons] at hread
    obtain ⟨first, hfst, hread⟩ := bind_eq_ok.1 hread
    obtain ⟨rest, hrest, hread⟩ := bind_eq_ok.1 hread
    cases hread
    obtain ⟨hlen, hfmt⟩ := ih hrest
    refine ⟨congrArg (· + 1) hlen, fun result hres => ?_⟩
    rcases List.mem_cons.1 hres with rfl | hres
    · exact h.sound item result hfst
    · exact hfmt result hres

lemma Codec.mapM_roundTrip (h : Codec read write format) {results : List α}
    (hfmt : ∀ result ∈ results, format result) :
    (results.map write).mapM read = .ok results := by
  induction results with
  | nil => rfl
  | cons result results ih =>
    have hrest := ih fun other hoth => hfmt other (List.mem_cons_of_mem result hoth)
    rw [List.map_cons, List.mapM_cons, h.roundTrip result (hfmt result List.mem_cons_self), hrest]
    rfl

end CodevoEditor.Js
