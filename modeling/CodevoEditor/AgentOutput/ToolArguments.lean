/-
# Secrets in tool arguments

`packages/agent-events/src/agentOutput/toolArgumentRedaction.ts`: the arguments of a tool are
shown without the values of secret-named keys and without the values of name/value pairs whose
name is secret (`redactToolArguments`).
-/

import CodevoEditor.AgentOutput.ClaudeNotices

namespace CodevoEditor.AgentOutput

open Js List

def secretSegmentMarkers : List JsString :=
  [js "auth", js "authorization", js "bearer", js "cookie", js "credential", js "credentials",
    js "dsn", js "jwt", js "passphrase", js "passwd", js "password", js "pwd", js "secret", js "token"]

def secretSuffixMarkers : List JsString :=
  [js "accesskey", js "accesstoken", js "apikey", js "authtoken", js "clientsecret",
    js "connectionstring", js "privatekey", js "refreshtoken", js "secretkey", js "sessionid"]

def maxRedactionDepth : ℕ := 8
def maxRedactionNodes : ℕ := 256
def maxRedactionStringBytes : ℕ := 1024
def redacted : JsString := js "[redacted]"
/-- `OMITTED`, an ellipsis. -/
def omittedText : JsString := [0x2026]
def nameKeys : List JsString := [js "name", js "key", js "header"]
def valueKey : JsString := js "value"

/-- What the Unicode tables say of a code point. -/
structure UnicodeTables where
  /-- `/^[\p{L}\p{N}]$/u`. -/
  isAlphanumeric : JsString → Bool
  toLowerCase : JsString → JsString

def isAsciiUpper (character : JsString) : Bool :=
  match character with
  | [unit] => 65 ≤ unit && unit ≤ 90
  | _ => false

def isAsciiLower (character : JsString) : Bool :=
  match character with
  | [unit] => 97 ≤ unit && unit ≤ 122
  | _ => false

def isAsciiDigit (character : JsString) : Bool :=
  match character with
  | [unit] => 48 ≤ unit && unit ≤ 57
  | _ => false

/-- A capital behind a small letter or a digit, or the last of several capitals in
front of a small letter. -/
def startsSegment (previous : Option JsString) (character : JsString) (next : Option JsString) : Bool :=
  match previous with
  | none => false
  | some previous =>
      isAsciiUpper character &&
        (isAsciiLower previous || isAsciiDigit previous || (isAsciiUpper previous && next.any isAsciiLower))

variable (tables : UnicodeTables)

/-- The loop over the characters: the one in front, and the segment so far. -/
def segmentsFrom : Option JsString → JsString → List JsString → List JsString
  | _, current, [] => if current = [] then [] else [current]
  | previous, current, character :: characters =>
      if !tables.isAlphanumeric character then
        (if current = [] then [] else [current]) ++ segmentsFrom (some character) [] characters
      else if startsSegment previous character characters.head? && current ≠ [] then
        current :: segmentsFrom (some character) (tables.toLowerCase character) characters
      else segmentsFrom (some character) (current ++ tables.toLowerCase character) characters

def argumentKeySegments (key : JsString) : List JsString := segmentsFrom tables none [] (codePoints key)

def isSecretArgumentKey (key : JsString) : Bool :=
  match (argumentKeySegments tables key).getLast? with
  | none => false
  | some last =>
      last ∈ secretSegmentMarkers ||
        secretSuffixMarkers.any fun marker => marker.isSuffixOf (argumentKeySegments tables key).flatten

variable (unit : UInt16)

/-- A unit as a pattern with the flags `i` and `u` sees it, where the pattern is ASCII. -/
def foldCase : UInt16 :=
  if 65 ≤ unit && unit ≤ 90 then unit + 32
  else if unit = 0x17F then 115
  else if unit = 0x212A then 107
  else unit

def isLetter : Bool := 97 ≤ foldCase unit && foldCase unit ≤ 122
def isDigit : Bool := 48 ≤ unit && unit ≤ 57
def isWord : Bool := isLetter unit || isDigit unit || unit = 95

/-- `replace` with a global pattern: `matchAt` gives how many units match where a
text starts, and what stands for them; `skip` units were matched already. -/
def replaceMatches (matchAt : Option UInt16 → JsString → Option (ℕ × JsString)) :
    ℕ → Option UInt16 → JsString → JsString
  | _, _, [] => []
  | skip + 1, _, unit :: rest => replaceMatches matchAt skip (some unit) rest
  | 0, previous, unit :: rest =>
      match matchAt previous (unit :: rest) with
      | some (length, replacement) => replacement ++ replaceMatches matchAt (length - 1) (some unit) rest
      | none => unit :: replaceMatches matchAt 0 (some unit) rest

/-- `/\b([a-z][a-z0-9+.-]*:\/\/[^\s:/@]*):[^\s@/]*@/giu`, and `$1:[redacted]@`. -/
def matchUrlCredentials (previous : Option UInt16) (text : JsString) : Option (ℕ × JsString) :=
  if previous.any isWord || !text.head?.any isLetter then none
  else
    let scheme := text.takeWhile fun unit =>
      isLetter unit || isDigit unit || unit = 43 || unit = 46 || unit = 45
    let behindScheme := text.drop scheme.length
    if !(js "://").isPrefixOf behindScheme then none
    else
      let user := (behindScheme.drop 3).takeWhile fun unit =>
        !(isWhiteSpace unit || unit = 58 || unit = 47 || unit = 64)
      let behindUser := behindScheme.drop (3 + user.length)
      if behindUser.head? ≠ some 58 then none
      else
        let password := (behindUser.drop 1).takeWhile fun unit =>
          !(isWhiteSpace unit || unit = 64 || unit = 47)
        if (behindUser.drop (1 + password.length)).head? ≠ some 64 then none
        else
          let shown := scheme ++ js "://" ++ user
          some (shown.length + 1 + password.length + 1, shown ++ js ":" ++ redacted ++ js "@")

/-- The characters of a token: `[A-Za-z0-9._~+/=-]`. -/
def isTokenUnit : Bool :=
  isLetter unit || isDigit unit || unit = 46 || unit = 95 || unit = 126 || unit = 43 || unit = 47 ||
    unit = 61 || unit = 45

/-- `/\b(bearer|basic)\s+[A-Za-z0-9._~+/=-]{8,}/giu`, and `$1 [redacted]`. -/
def matchAuthSchemeToken (previous : Option UInt16) (text : JsString) : Option (ℕ × JsString) :=
  if previous.any isWord then none
  else
    let scheme :=
      if (js "bearer").isPrefixOf (text.map foldCase) then text.take 6
      else if (js "basic").isPrefixOf (text.map foldCase) then text.take 5
      else []
    if scheme = [] then none
    else
      let space := (text.drop scheme.length).takeWhile isWhiteSpace
      let token := (text.drop (scheme.length + space.length)).takeWhile isTokenUnit
      if space = [] ∨ token.length < 8 then none
      else some (scheme.length + space.length + token.length, scheme ++ js " " ++ redacted)

def maskSecrets (text : JsString) : JsString :=
  let bounded := boundUtf8Text text maxRedactionStringBytes
  let capped := if bounded.2 then bounded.1 ++ omittedText else bounded.1
  replaceMatches matchAuthSchemeToken 0 none (replaceMatches matchUrlCredentials 0 none capped)

/-- `fields[key] = value` of a plain object; an assignment to `__proto__` makes no
property. -/
def setField (fields : List (JsString × JsValue)) (key : JsString) (value : JsValue) : List (JsString × JsValue) :=
  if key = js "__proto__" then fields
  else if fields.any fun field => field.1 = key then
    fields.map fun field => if field.1 = key then (key, value) else field
  else fields ++ [(key, value)]

def namesASecret (entries : List (JsString × JsValue)) : Bool :=
  entries.any fun entry =>
    (argumentKeySegments tables entry.1).flatten ∈ nameKeys &&
      match entry.2 with
      | .string name => isSecretArgumentKey tables name
      | _ => false

/-- The value under a key is not shown. -/
def isSecretEntry (secretPair : Bool) (key : JsString) : Bool :=
  isSecretArgumentKey tables key || (secretPair && (argumentKeySegments tables key).flatten = valueKey)

mutual

/-- `redactValue`; with the value goes what is left of the budget. -/
def redactValue : JsValue → ℕ → ℕ → JsValue × ℕ
  | value, depth, remaining =>
      if remaining = 0 ∨ maxRedactionDepth ≤ depth then (.string omittedText, remaining)
      else
        match value with
        | .array items =>
            let shown := redactArray items depth (remaining - 1)
            (.array shown.1, shown.2)
        | .string text => (.string (maskSecrets text), remaining - 1)
        | .object fields =>
            let shown := redactObject (namesASecret tables fields) fields depth (remaining - 1) []
            (.object shown.1, shown.2)
        | value => (value, remaining - 1)

def redactArray : List JsValue → ℕ → ℕ → List JsValue × ℕ
  | [], _, remaining => ([], remaining)
  | item :: items, depth, remaining =>
      if remaining = 0 then ([.string omittedText], remaining)
      else
        let shown := redactValue item (depth + 1) remaining
        let rest := redactArray items depth shown.2
        (shown.1 :: rest.1, rest.2)

/-- The loop over the entries of an object; `shown` is the object so far. -/
def redactObject (secretPair : Bool) : List (JsString × JsValue) → ℕ → ℕ →
    List (JsString × JsValue) → List (JsString × JsValue) × ℕ
  | [], _, remaining, shown => (shown, remaining)
  | (key, entry) :: entries, depth, remaining, shown =>
      if remaining = 0 then (setField shown omittedText (.string omittedText), remaining)
      else if isSecretEntry tables secretPair key then
        redactObject secretPair entries depth remaining (setField shown key (.string redacted))
      else
        let value := redactValue entry (depth + 1) remaining
        redactObject secretPair entries depth value.2 (setField shown key value.1)

end

structure RedactedArguments where
  value : JsValue
  exhausted : Bool

def redactToolArguments (value : JsValue) : RedactedArguments where
  value := (redactValue tables value 0 maxRedactionNodes).1
  exhausted := (redactValue tables value 0 maxRedactionNodes).2 = 0

mutual

/-- Two values that differ in secrets only. -/
inductive Alike : JsValue → JsValue → Prop
  | same (value : JsValue) : Alike value value
  | array {items items' : List JsValue} (h : AlikeItems items items') :
      Alike (.array items) (.array items')
  | object {fields fields' : List (JsString × JsValue)}
      (h : AlikeFields (namesASecret tables fields) fields fields') :
      Alike (.object fields) (.object fields')

inductive AlikeItems : List JsValue → List JsValue → Prop
  | nil : AlikeItems [] []
  | cons {item item' : JsValue} {items items' : List JsValue} (hitem : Alike item item')
      (hitems : AlikeItems items items') : AlikeItems (item :: items) (item' :: items')

inductive AlikeFields : Bool → List (JsString × JsValue) → List (JsString × JsValue) → Prop
  | nil (secretPair : Bool) : AlikeFields secretPair [] []
  | secret {secretPair : Bool} {key : JsString} (hsecret : isSecretEntry tables secretPair key)
      (entry entry' : JsValue) {fields fields' : List (JsString × JsValue)}
      (hfields : AlikeFields secretPair fields fields') :
      AlikeFields secretPair ((key, entry) :: fields) ((key, entry') :: fields')
  | shown {secretPair : Bool} (key : JsString) {entry entry' : JsValue} (hentry : Alike entry entry')
      {fields fields' : List (JsString × JsValue)} (hfields : AlikeFields secretPair fields fields') :
      AlikeFields secretPair ((key, entry) :: fields) ((key, entry') :: fields')

end

variable {tables}

lemma isSecretEntry_of_nameKey {secretPair} {key}
    (h : (argumentKeySegments tables key).flatten ∈ nameKeys) :
    isSecretEntry tables secretPair key = false := by
  have hmarkers : ∀ name ∈ nameKeys, ∀ marker ∈ secretSegmentMarkers ++ secretSuffixMarkers,
      marker.isSuffixOf name = false := by decide
  have hval : valueKey ∉ nameKeys := by decide
  unfold isSecretEntry isSecretArgumentKey
  rw [Bool.or_eq_false_iff]
  constructor
  · cases hlast : (argumentKeySegments tables key).getLast? with
    | none => rfl
    | some last =>
      obtain ⟨front, hfr⟩ := getLast?_eq_some_iff.1 hlast
      have hsuffix : last <:+ (argumentKeySegments tables key).flatten := by
        rw [hfr, flatten_append, flatten_singleton]
        exact suffix_append _ _
      rw [Bool.or_eq_false_iff, decide_eq_false_iff_not]
      refine ⟨fun hmem => ?_, any_eq_false.2 fun marker hmarker => ?_⟩
      · have hno := hmarkers _ h last (mem_append_left _ hmem)
        rw [isSuffixOf_iff_suffix.2 hsuffix] at hno
        cases hno
      · exact Bool.eq_false_iff.1 (hmarkers _ h marker (mem_append_right _ hmarker))
  · rw [Bool.and_eq_false_iff]
    exact .inr (decide_eq_false fun heq => hval (heq ▸ h))

lemma namesASecret_alike {secretPair} {fields fields'}
    (h : AlikeFields tables secretPair fields fields') :
    namesASecret tables fields = namesASecret tables fields' := by
  have hcons entry fields :
      namesASecret tables (entry :: fields) = (namesASecret tables [entry] || namesASecret tables fields) := by
    unfold namesASecret
    rw [any_cons, any_cons, any_nil, Bool.or_false]
  induction fields generalizing fields' with
  | nil =>
    cases h
    rfl
  | cons entry fields ih =>
    cases h with
    | @secret _ key hsecret entry entry' _ _ hfld =>
      rw [hcons, hcons (key, entry'), ih hfld]
      have hno entry : namesASecret tables [(key, entry)] = false := by
        unfold namesASecret
        rw [any_cons, any_nil, Bool.or_false, Bool.and_eq_false_iff]
        refine .inl (decide_eq_false fun hname => ?_)
        rw [isSecretEntry_of_nameKey hname] at hsecret
        cases hsecret
      rw [hno, hno]
    | @shown _ key entry entry' hent _ _ hfld =>
      rw [hcons, hcons (key, entry'), ih hfld]
      cases hent <;> rfl

mutual

lemma redactValue_alike {value value'} (h : Alike tables value value') (depth remaining : ℕ) :
    redactValue tables value depth remaining = redactValue tables value' depth remaining := by
  cases h with
  | same => rfl
  | array h =>
    rw [redactValue, redactValue]
    rw [redactArray_alike h]
  | object h =>
    rw [redactValue, redactValue]
    rw [← namesASecret_alike h, redactObject_alike h]

lemma redactArray_alike {items items'} (h : AlikeItems tables items items')
    (depth remaining : ℕ) :
    redactArray tables items depth remaining = redactArray tables items' depth remaining := by
  cases h with
  | nil => rfl
  | cons hitem hitems =>
    rw [redactArray, redactArray, redactValue_alike hitem]
    dsimp only
    rw [redactArray_alike hitems]

lemma redactObject_alike {secretPair} {fields fields'}
    (h : AlikeFields tables secretPair fields fields') (depth remaining : ℕ)
    (shown) :
    redactObject tables secretPair fields depth remaining shown =
      redactObject tables secretPair fields' depth remaining shown := by
  cases h with
  | nil => rfl
  | secret hsecret entry entry' hfld =>
    rw [redactObject, redactObject, if_pos hsecret, if_pos hsecret, redactObject_alike hfld]
  | shown key hent hfld =>
    rw [redactObject, redactObject, redactValue_alike hent]
    rw [redactObject_alike hfld, redactObject_alike hfld]

end

/-- **What a secret is does not show**: arguments that differ in values with secret names only are
redacted alike. -/
theorem redactToolArguments_alike {value value' : JsValue} (h : Alike tables value value') :
    redactToolArguments tables value = redactToolArguments tables value' := by
  unfold redactToolArguments
  rw [redactValue_alike h]

/-- The tables where they are ASCII. -/
def asciiTables : UnicodeTables where
  isAlphanumeric character := isAsciiUpper character || isAsciiLower character || isAsciiDigit character
  toLowerCase character := character.map foldCase

/-- A header, and the password of its sender. -/
def headerArguments (value password : String) : JsValue :=
  .array [.object [(js "name", .string (js "X-Api-Key")), (js "value", .string (js value))],
    .object [(js "dbPassword", .string (js password))]]

theorem redactToolArguments_alike_sample :
    redactToolArguments asciiTables (headerArguments "k1" "p1") =
      redactToolArguments asciiTables (headerArguments "k2" "p2") := by
  refine redactToolArguments_alike (.array (.cons (.object ?_) (.cons (.object ?_) .nil)))
  · exact .shown (js "name") (.same _) (.secret (by decide +kernel) _ _ (.nil _))
  · exact .secret (by decide +kernel) _ _ (.nil _)

/-- **JSON in a string is text.**  Two texts of objects that are alike are not
redacted alike. -/
theorem json_text_is_shown :
    Alike asciiTables (.object [(js "password", .string (js "x"))])
        (.object [(js "password", .string (js "y"))]) ∧
      redactToolArguments asciiTables (.string (js "\x7b\"password\":\"x\"\x7d")) ≠
        redactToolArguments asciiTables (.string (js "\x7b\"password\":\"y\"\x7d")) := by
  refine ⟨.object (.secret (by decide +kernel) _ _ (.nil _)), fun heq => ?_⟩
  have hvalue := congrArg RedactedArguments.value heq
  have htext : maskSecrets (js "\x7b\"password\":\"x\"\x7d") =
      maskSecrets (js "\x7b\"password\":\"y\"\x7d") := JsValue.string.inj hvalue
  revert htext
  decide +kernel

end CodevoEditor.AgentOutput
