/-
# The lines of a diff

`src/domain/diffView/lineDiff.ts`: two texts are compared line by line.
-/

import CodevoEditor.Edits.FurthestReaching
import CodevoEditor.Js.CodePoints

namespace CodevoEditor.DiffView

open Js Edits

def maxDiffViewLinesPerSide : ℕ := 20000
def maxDiffViewEditDistance : ℕ := 1500

inductive DiffLineKind
  | context
  | add
  | del
  deriving DecidableEq

structure DiffLine where
  kind : DiffLineKind
  oldLine : Option ℕ
  newLine : Option ℕ
  text : JsString
  deriving DecidableEq

inductive TooLargeReason
  | lines
  | editDistance
  deriving DecidableEq

inductive LineDiffResult
  | ready (lines : List DiffLine) (added deleted : ℕ)
  | tooLarge (reason : TooLargeReason)
  deriving DecidableEq

/-- `replace(/\r\n/g, "\n")`. -/
def normalizeLineBreaks : JsString → JsString
  | 0x0D :: 0x0A :: rest => 0x0A :: normalizeLineBreaks rest
  | unit :: rest => unit :: normalizeLineBreaks rest
  | [] => []

/-- `split("\n")`. -/
def splitLines : JsString → List JsString
  | [] => [[]]
  | unit :: rest =>
      if unit = 0x0A then [] :: splitLines rest
      else
        match splitLines rest with
        | [] => [[unit]]
        | line :: lines => (unit :: line) :: lines

def splitDiffText (text : JsString) : List JsString :=
  if text = [] then []
  else
    let lines := splitLines (normalizeLineBreaks text)
    if lines.getLast? = some [] then lines.dropLast else lines

def whitespaceInsensitiveKey (line : JsString) : JsString := line.filter fun unit => !isWhiteSpace unit

def lineKey (ignoreWhitespace : Bool) (line : JsString) : JsString :=
  if ignoreWhitespace then whitespaceInsensitiveKey line else line

section Search

variable {α : Type} [DecidableEq α]

def commonPrefixLength (left right : List α) : ℕ := matchLength left right

/-- The part in front, that the lists have in common, is not looked at again. -/
def commonSuffixLength (left right : List α) (front : ℕ) : ℕ :=
  matchLength (left.drop front).reverse (right.drop front).reverse

/-- `frontier[index]`. -/
def readAt (frontier : List ℕ) (index : ℤ) : ℕ := frontier.getD index.toNat 0

/-- `frontier.slice(start, stop)`. -/
def slice (frontier : List ℕ) (start stop : ℕ) : List ℕ := (frontier.take stop).drop start

variable (left right : List α)

/-- How far the loop along a diagonal goes. -/
def slide (x : ℕ) (y : ℤ) : ℕ :=
  if y < 0 then 0 else matchLength (left.drop x) (right.drop y.toNat)

/-- The furthest `x` on a diagonal, from what its neighbours have. -/
def advance (frontier : List ℕ) (offset distance : ℕ) (diagonal : ℤ) : ℕ :=
  let x := entry (fun diagonal => readAt frontier (offset + diagonal)) distance diagonal
  x + slide left right x (x - diagonal)

/-- The loop over `count` diagonals: the frontier behind it, and whether it ended in the corner. -/
def scanDiagonals (offset distance : ℕ) : ℕ → ℤ → List ℕ → List ℕ × Bool
  | 0, _, frontier => (frontier, false)
  | count + 1, diagonal, frontier =>
      let x := advance left right frontier offset distance diagonal
      let frontier := frontier.set (offset + diagonal).toNat x
      if left.length ≤ x ∧ (right.length : ℤ) ≤ x - diagonal then (frontier, true)
      else scanDiagonals offset distance count (diagonal + 2) frontier

/-- The loop that takes a script back to the start, from `(x, y)`. -/
def backtrackFrom (trace : List (List ℕ)) : ℕ → ℤ → ℤ → List EditOp
  | 0, x, y => List.replicate (min x y).toNat .equal
  | distance + 1, x, y =>
      let reached := fun diagonal : ℤ => readAt (trace.getD distance []) (diagonal + distance)
      let diagonal := x - y
      let previousDiagonal := if comesDown reached (distance + 1) diagonal then diagonal + 1 else diagonal - 1
      let previousX := reached previousDiagonal
      let previousY : ℤ := previousX - previousDiagonal
      List.replicate (min (x - previousX) (y - previousY)).toNat .equal ++
        (if previousDiagonal = diagonal + 1 then .insert else .delete) ::
          backtrackFrom trace distance previousX previousY

def backtrack (trace : List (List ℕ)) (n m : ℕ) : List EditOp :=
  (backtrackFrom trace (trace.length - 1) n m).reverse

/-- The loop over the distances, for so many rounds. -/
def searchFrom (offset : ℕ) : ℕ → ℕ → List ℕ → List (List ℕ) → Option (List EditOp)
  | 0, _, _, _ => none
  | rounds + 1, distance, frontier, trace =>
      let scanned := scanDiagonals left right offset distance (distance + 1) (-distance) frontier
      let trace := trace ++ [slice scanned.1 (offset - distance) (offset + distance + 1)]
      if scanned.2 then some (backtrack trace left.length right.length)
      else searchFrom offset rounds (distance + 1) scanned.1 trace

def shortestEditScript (maxDistance : ℕ) : Option (List EditOp) :=
  if left.length = 0 then some (List.replicate right.length .insert)
  else if right.length = 0 then some (List.replicate left.length .delete)
  else
    let limit := min maxDistance (left.length + right.length)
    searchFrom left right (limit + 1) (limit + 1) 0 (List.replicate (2 * limit + 3) 0) []

end Search

/-- The lines so far, the indices of the next ones, and the counts. -/
structure Rendering where
  lines : List DiffLine
  oldIndex : ℕ
  newIndex : ℕ
  added : ℕ
  deleted : ℕ

section Render

variable (oldLines newLines : List JsString)

def contextLine (oldIndex newIndex : ℕ) : DiffLine where
  kind := .context
  oldLine := some (oldIndex + 1)
  newLine := some (newIndex + 1)
  text := newLines.getD newIndex []

/-- The loop over a script. -/
def renderOp (rendering : Rendering) : EditOp → Rendering
  | .equal =>
      { rendering with
        lines := rendering.lines ++ [contextLine newLines rendering.oldIndex rendering.newIndex]
        oldIndex := rendering.oldIndex + 1
        newIndex := rendering.newIndex + 1 }
  | .delete =>
      { rendering with
        lines := rendering.lines ++ [⟨.del, some (rendering.oldIndex + 1), none, oldLines.getD rendering.oldIndex []⟩]
        oldIndex := rendering.oldIndex + 1
        deleted := rendering.deleted + 1 }
  | .insert =>
      { rendering with
        lines := rendering.lines ++ [⟨.add, none, some (rendering.newIndex + 1), newLines.getD rendering.newIndex []⟩]
        newIndex := rendering.newIndex + 1
        added := rendering.added + 1 }

end Render

/-- The keys of the lines between what the texts begin and end with. -/
def middle (keys : List JsString) (front back : ℕ) : List JsString :=
  (keys.take (keys.length - back)).drop front

def computeLineDiff (original modified : JsString) (ignoreWhitespace : Bool) : LineDiffResult :=
  let oldLines := splitDiffText original
  let newLines := splitDiffText modified
  if maxDiffViewLinesPerSide < oldLines.length ∨ maxDiffViewLinesPerSide < newLines.length then
    .tooLarge .lines
  else
    let oldKeys := oldLines.map (lineKey ignoreWhitespace)
    let newKeys := newLines.map (lineKey ignoreWhitespace)
    let front := commonPrefixLength oldKeys newKeys
    let back := commonSuffixLength oldKeys newKeys front
    match shortestEditScript (middle oldKeys front back) (middle newKeys front back) maxDiffViewEditDistance with
    | none => .tooLarge .editDistance
    | some script =>
        let opening := (List.range front).map fun index => contextLine newLines index index
        let rendering := script.foldl (renderOp oldLines newLines) ⟨opening, front, front, 0, 0⟩
        let closing := (List.range back).map fun index =>
          contextLine newLines (rendering.oldIndex + index) (rendering.newIndex + index)
        .ready (rendering.lines ++ closing) rendering.added rendering.deleted

end CodevoEditor.DiffView
