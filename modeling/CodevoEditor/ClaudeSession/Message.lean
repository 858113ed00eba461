/-
# Messages of a Claude session

A line of the output of a Claude session is a JSON value: `Json` is what `serde_json::Value` is,
an object lists its fields under their keys, and a number is only seen through `as_u64` and
`as_f64`.
-/

import Mathlib.Algebra.Ring.Nat
import Mathlib.Data.Finset.Basic

namespace CodevoEditor.ClaudeSession

/-- `serde_json::Value`. -/
inductive Json (ν : Type)
  | null
  | bool (value : Bool)
  | number (value : ν)
  | string (text : String)
  | array (items : List (Json ν))
  | object (fields : List (String × Json ν))

namespace Json

variable {ν : Type} (key : String)

def get : Json ν → Option (Json ν)
  | object fields => (fields.find? fun field => field.1 = key).map Prod.snd
  | _ => none

/-- `pointer`, of a path whose names are no numbers. -/
def pointer : List String → Json ν → Option (Json ν)
  | [], value => some value
  | key :: path, value => (value.get key).bind (pointer path)

def asStr : Json ν → Option String
  | string text => some text
  | _ => none

def asBool : Json ν → Option Bool
  | bool value => some value
  | _ => none

def asArray : Json ν → Option (List (Json ν))
  | array items => some items
  | _ => none

def isNull : Json ν → Bool
  | null => true
  | _ => false

def isString : Json ν → Bool
  | string _ => true
  | _ => false

def isObject : Json ν → Bool
  | object _ => true
  | _ => false

variable (message : Json ν)

/-- `message.get(key).and_then(Value::as_str)`. -/
def strOf : Option String := (message.get key).bind asStr

def boolOf : Option Bool := (message.get key).bind asBool

def arrayOf : Option (List (Json ν)) := (message.get key).bind asArray

/-- `message.get("parent_tool_use_id").is_none_or(Value::is_null)`. -/
def isRoot : Bool := ((message.get "parent_tool_use_id").map isNull).getD true

end Json

/-- What the code has from `serde_json`, from `f64` and from hash tables. -/
structure Platform (ν φ : Type) where
  /-- `serde_json::from_slice`. -/
  fromSlice : List UInt8 → Option (Json ν)
  /-- `serde_json::to_vec`. -/
  toVec : Json ν → Option (List UInt8)
  asU64 : ν → Option ℕ
  asF64 : ν → Option φ
  /-- `Value::from(f64)`. -/
  ofF64 : φ → Json ν
  zero : φ
  sub : φ → φ → φ
  max : φ → φ → φ
  le : φ → φ → Bool
  isFinite : φ → Bool
  /-- `-COST_TOLERANCE`. -/
  minusCostTolerance : φ
  /-- The keys of a hash table, in the order in which it lists them. -/
  listed : Finset String → List String
  listed_nodup : ∀ keys, (listed keys).Nodup
  mem_listed : ∀ keys key, key ∈ listed keys ↔ key ∈ keys

def isControl (character : Char) : Bool :=
  character.toNat < 0x20 || (0x7f ≤ character.toNat && character.toNat ≤ 0x9f)

def isWhitespace (character : Char) : Bool :=
  let code := character.toNat
  (0x09 ≤ code && code ≤ 0x0d) || code = 0x20 || code = 0x85 || code = 0xa0 || code = 0x1680 ||
    (0x2000 ≤ code && code ≤ 0x200a) || code = 0x2028 || code = 0x2029 || code = 0x202f ||
    code = 0x205f || code = 0x3000

def trim (text : String) : List Char :=
  ((text.toList.dropWhile isWhitespace).reverse.dropWhile isWhitespace).reverse

/-- The longest prefix of so many bytes: `&text[..floor_char_boundary(text, limit)]`. -/
def takeBytes : ℕ → List Char → List Char
  | _, [] => []
  | limit, character :: text =>
    if character.utf8Size ≤ limit then character :: takeBytes (limit - character.utf8Size) text else []

/-- What is left of a prefix of at least so many bytes:
`&text[ceil_char_boundary(text, limit)..]`. -/
def dropBytes : ℕ → List Char → List Char
  | _, [] => []
  | 0, text => text
  | limit + 1, character :: text => dropBytes (limit + 1 - character.utf8Size) text

def maxIdBytes : ℕ := 256

def validId (id : String) : Bool :=
  id.utf8ByteSize ≠ 0 && id.utf8ByteSize ≤ maxIdBytes && !id.toList.any isControl

/-- `wrapping_add(1)` of `u64`. -/
def wrappingSucc (count : ℕ) : ℕ := (count + 1) % 2 ^ 64

end CodevoEditor.ClaudeSession
