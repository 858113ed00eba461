/-
# The lines of a background turn

`claude_background_line.rs`: a line goes into the output of a background turn as it is, in a
shorter form, as its type alone or not at all.
-/

import CodevoEditor.ClaudeSession.ResultDetector

namespace CodevoEditor.ClaudeSession

def retainedStringEdgeBytes : ℕ := 512
def minClippedStringBytes : ℕ := 2 * retainedStringEdgeBytes + 64
def maxRetainedArrayItems : ℕ := 256
def maxNamedFrameTypeBytes : ℕ := 64

def silentFrameTypes : List String :=
  ["stream_event", "tool_progress", "tool_use_summary", "keep_alive", "auth_status",
    "prompt_suggestion", "control_request", "control_response", "control_cancel_request",
    "streamlined_text", "streamlined_tool_use_summary", "command_lifecycle"]

def verbatimAssistantBlockTypes : List String := ["text", "thinking"]

def undisplayedAssistantBlockFields : List (String × String) :=
  [("thinking", "signature"), ("redacted_thinking", "data")]

inductive Arrays
  | kept
  | bounded
  deriving DecidableEq

inductive Display
  | shown
  | named
  | silent

variable {ν φ : Type} (frame : Json ν)

def contentBlocks : Option (List (Json ν)) :=
  (frame.pointer ["message", "content"]).bind Json.asArray

def carriesToolResult : Bool :=
  match contentBlocks frame with
  | none => false
  | some blocks =>
    (frame.get "tool_use_result").any Json.isObject ||
      blocks.any fun block => block.strOf "type" = some "tool_result"

def displayedSystem : Bool :=
  match frame.strOf "subtype" with
  | none => false
  | some subtype =>
    if subtype = "init" ∨ subtype = "api_retry" then true
    else if subtype = "compact_boundary" ∨ subtype = "status" then frame.isRoot
    else taskFrames.contains subtype

def display : Display :=
  if !frame.isObject then .shown
  else match frame.strOf "type" with
    | none => .named
    | some kind =>
      let shown (test : Bool) : Display := if test then .shown else .silent
      if kind = "result" then shown true
      else if kind = "assistant" then shown (contentBlocks frame).isSome
      else if kind = "user" then shown (carriesToolResult frame)
      else if kind = "rate_limit_event" then shown ((frame.get "rate_limit_info").any Json.isObject)
      else if kind = "system" then shown (displayedSystem frame)
      else if silentFrameTypes.contains kind then .silent
      else .named

def namedFrame (env : Platform ν φ) (frame : Json ν) : List UInt8 :=
  let named : List (String × Json ν) := match frame.get "type" with
    | some (.string kind) =>
      [("type", .string (if kind.utf8ByteSize ≤ maxNamedFrameTypeBytes then kind else ""))]
    | _ => []
  (env.toVec (.object named)).getD [] ++ [newline]

def clipString (text : String) : String × Bool :=
  if text.utf8ByteSize < minClippedStringBytes then (text, false)
  else
    let head := String.ofList (takeBytes retainedStringEdgeBytes text.toList)
    let tail := String.ofList (dropBytes (text.utf8ByteSize - retainedStringEdgeBytes) text.toList)
    let omitted := text.utf8ByteSize - tail.utf8ByteSize - head.utf8ByteSize
    (head ++ "\n… " ++ toString omitted ++ " bytes omitted …\n" ++ tail, true)

mutual

/-- The value after `clip_value`, and whether it has changed. -/
def clipValue (arrays : Arrays) : Json ν → Json ν × Bool
  | .string text => ((.string (clipString text).1), (clipString text).2)
  | .array items =>
    let dropped := arrays = .bounded ∧ maxRetainedArrayItems < items.length
    let clipped := clipItems arrays items
    let clipped := if dropped then clipped.take maxRetainedArrayItems else clipped
    (.array (clipped.map Prod.fst), decide dropped || clipped.any Prod.snd)
  | .object fields =>
    let clipped := clipFields arrays fields
    (.object (clipped.map Prod.fst), clipped.any Prod.snd)
  | value => (value, false)

def clipItems (arrays : Arrays) : List (Json ν) → List (Json ν × Bool)
  | [] => []
  | item :: items => clipValue arrays item :: clipItems arrays items

def clipFields (arrays : Arrays) : List (String × Json ν) → List ((String × Json ν) × Bool)
  | [] => []
  | field :: fields => clipField arrays field :: clipFields arrays fields

def clipField (arrays : Arrays) : String × Json ν → (String × Json ν) × Bool
  | (key, value) => ((key, (clipValue arrays value).1), (clipValue arrays value).2)

end

def undisplayedField (block : Json ν) : Option String :=
  match block.strOf "type" with
  | none => none
  | some kind =>
    let field := (undisplayedAssistantBlockFields.find? fun owner => owner.1 = kind).map Prod.snd
    field.filter fun field => (block.get field).isSome

def removeField (key : String) (fields : List (String × Json ν)) : List (String × Json ν) :=
  fields.filter fun field => field.1 ≠ key

def insertField (key : String) (value : Json ν) (fields : List (String × Json ν)) : List (String × Json ν) :=
  removeField key fields ++ [(key, value)]

def stripUndisplayedField (block : Json ν) : Json ν × Bool :=
  match undisplayedField block, block with
  | some key, .object fields => (.object (removeField key fields), true)
  | _, block => (block, false)

def verbatimAssistantBlock (block : Json ν) : Bool :=
  (block.strOf "type").any fun kind => verbatimAssistantBlockTypes.contains kind

/-- A turn of the loop of `compact_fields`. -/
def compactBlock (assistant : Bool) (block : Json ν) : Json ν × Bool :=
  let stripped := if assistant then stripUndisplayedField block else (block, false)
  if assistant && verbatimAssistantBlock stripped.1 then stripped
  else
    let clipped := clipValue .kept stripped.1
    (clipped.1, stripped.2 || clipped.2)

/-- `get_mut(key)`: the field after a change, where it is there, and whether it has changed. -/
def changeField (key : String) (change : Json ν → Json ν × Bool) :
    Json ν → Json ν × Bool
  | .object fields =>
    (.object (fields.map fun field => if field.1 = key then (key, (change field.2).1) else field),
      (fields.find? fun field => field.1 = key).any fun field => (change field.2).2)
  | value => (value, false)

def compactBlocks (assistant : Bool) : Json ν → Json ν × Bool
  | .array blocks =>
    let compacted := blocks.map (compactBlock assistant)
    (.array (compacted.map Prod.fst), compacted.any Prod.snd)
  | value => (value, false)

def compactFields : Json ν × Bool :=
  let assistant := frame.strOf "type" = some "assistant"
  let result := changeField "tool_use_result" (clipValue .bounded) frame
  let blocks := changeField "message" (changeField "content" (compactBlocks assistant)) result.1
  (blocks.1, result.2 || blocks.2)

def carriesUndisplayedField : Bool :=
  frame.strOf "type" = some "assistant" &&
    ((contentBlocks frame).getD []).any fun block => (undisplayedField block).isSome

def compactBackgroundFrame (env : Platform ν φ) (frame : Json ν) (lineBytes : ℕ) : Option (List UInt8) :=
  if !frame.isObject then none
  else if lineBytes < minClippedStringBytes ∧ !carriesUndisplayedField frame then none
  else
    let compacted := compactFields frame
    if !compacted.2 then none
    else match env.toVec compacted.1 with
      | none => none
      | some line => if (line ++ [newline]).length < lineBytes then some (line ++ [newline]) else none

def backgroundLine (env : Platform ν φ) (frame : Json ν) (line : List UInt8) : Option (List UInt8) :=
  match display frame with
  | .shown => some ((compactBackgroundFrame env frame line.length).getD line)
  | .named => some (namedFrame env frame)
  | .silent => none

lemma length_compactBackgroundFrame {env : Platform ν φ} {frame : Json ν} {lineBytes : ℕ}
    {compacted} (h : compactBackgroundFrame env frame lineBytes = some compacted) :
    compacted.length < lineBytes := by
  unfold compactBackgroundFrame at h
  dsimp only at h
  split_ifs at h
  split at h
  · cases h
  · split_ifs at h with hshorter
    cases h
    exact hshorter

theorem length_backgroundLine_le {env : Platform ν φ} {frame : Json ν} (hshn : display frame = .shown)
    (line) : ∃ shorter, backgroundLine env frame line = some shorter ∧ shorter.length ≤ line.length := by
  unfold backgroundLine
  rw [hshn]
  cases hcompact : compactBackgroundFrame env frame line.length with
  | none => exact ⟨line, rfl, le_rfl⟩
  | some compacted => exact ⟨compacted, rfl, (length_compactBackgroundFrame hcompact).le⟩

end CodevoEditor.ClaudeSession
