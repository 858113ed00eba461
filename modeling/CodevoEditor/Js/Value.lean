/-
# Numbers and untyped values

A number is an integer or it is not: the code looks at a number through `Number.isSafeInteger`
and an integer bound, so fractions, infinities and NaN are kept apart by a tag alone.
-/

import CodevoEditor.Js.Text

namespace CodevoEditor.Js

/-- A JavaScript number; `nonInteger` is every value `Number.isInteger` rejects. -/
inductive JsNumber
  | int (value : ℤ)
  | nonInteger (tag : ℕ)
  deriving DecidableEq

def maxSafeInteger : ℤ := 2 ^ 53 - 1

/-- `Number.isSafeInteger(value) && value >= minimum`. -/
def JsNumber.safeAtLeast (minimum : ℤ) : JsNumber → Bool
  | .int value => -maxSafeInteger ≤ value && value ≤ maxSafeInteger && minimum ≤ value
  | .nonInteger _ => false

/-- An untyped value, as `JSON.parse` and structured clones give them. -/
inductive JsValue
  | undefined
  | null
  | bool (value : Bool)
  | number (value : JsNumber)
  | string (value : JsString)
  | array (items : List JsValue)
  | object (fields : List (JsString × JsValue))

/-- `record[key]`. -/
def fieldOf (fields : List (JsString × JsValue)) (key : JsString) : JsValue :=
  ((fields.find? fun field => field.1 = key).map Prod.snd).getD .undefined

end CodevoEditor.Js
