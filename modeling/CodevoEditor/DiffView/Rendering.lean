/-
# Every line of both texts, and no more changes than there must be

The lines of a diff are read off a script for the keys of all lines.
-/

import CodevoEditor.DiffView.Search

namespace CodevoEditor.DiffView

open Js Edits List Nat

/-- What a rendering shows: so many lines of each text, numbered from one, those of the old text up
to what `key` ignores. -/
structure Shows (key : JsString → JsString) (oldLines newLines : List JsString) (rendering : Rendering) :
    Prop where
  oldSide : (rendering.lines.filter (·.kind ≠ .add)).map (fun line => key line.text)
    = (oldLines.take rendering.oldIndex).map key
  newSide : (rendering.lines.filter (·.kind ≠ .del)).map DiffLine.text = newLines.take rendering.newIndex
  oldNumbers : rendering.lines.filterMap DiffLine.oldLine = List.range' 1 rendering.oldIndex
  newNumbers : rendering.lines.filterMap DiffLine.newLine = List.range' 1 rendering.newIndex
  sides : ∀ line ∈ rendering.lines,
    (line.oldLine = none ↔ line.kind = .add) ∧ (line.newLine = none ↔ line.kind = .del)
  deletedText : ∀ line ∈ rendering.lines, line.kind = .del →
    ∃ index, line.oldLine = some (index + 1) ∧ oldLines[index]? = some line.text
  added_eq : rendering.added = rendering.lines.countP (·.kind = .add)
  deleted_eq : rendering.deleted = rendering.lines.countP (·.kind = .del)

variable {key : JsString → JsString} {oldLines newLines : List JsString} {rendering : Rendering}

/-- What an operation needs of the next lines. -/
def Applies (key : JsString → JsString) (oldLines newLines : List JsString) (rendering : Rendering) :
    EditOp → Prop
  | .equal => ∃ old new, oldLines[rendering.oldIndex]? = some old ∧ newLines[rendering.newIndex]? = some new ∧
      key old = key new
  | .delete => ∃ old, oldLines[rendering.oldIndex]? = some old
  | .insert => ∃ new, newLines[rendering.newIndex]? = some new

variable {lines : List JsString} {index : ℕ} {line : JsString}

lemma take_succ_of_getElem? (h : lines[index]? = some line) :
    lines.take (index + 1) = lines.take index ++ [line] := by
  rw [take_add_one, h]
  rfl

lemma getD_of_getElem? (h : lines[index]? = some line) : lines.getD index [] = line := by
  rw [getD_eq_getElem?_getD, h, Option.getD_some]

/-- One line more on both sides, where `line` has one. -/
structure Continues (key : JsString → JsString) (oldLines newLines : List JsString)
    (rendering : Rendering) (line : DiffLine) (oldIndex newIndex : ℕ) : Prop where
  oldSide : line.kind = .add ∧ line.oldLine = none ∧ oldIndex = rendering.oldIndex ∨
    line.kind ≠ .add ∧ line.oldLine = some (rendering.oldIndex + 1) ∧ oldIndex = rendering.oldIndex + 1 ∧
      ∃ old, oldLines[rendering.oldIndex]? = some old ∧ key line.text = key old ∧ (line.kind = .del → line.text = old)
  newSide : line.kind = .del ∧ line.newLine = none ∧ newIndex = rendering.newIndex ∨
    line.kind ≠ .del ∧ line.newLine = some (rendering.newIndex + 1) ∧ newIndex = rendering.newIndex + 1 ∧
      newLines[rendering.newIndex]? = some line.text

variable {deleted added : ℕ}

lemma Shows.append {line} {oldIndex newIndex}
    (h : Shows key oldLines newLines rendering)
    (hline : Continues key oldLines newLines rendering line oldIndex newIndex)
    (hadded : added = rendering.added + [line].countP (·.kind = .add))
    (hdel : deleted = rendering.deleted + [line].countP (·.kind = .del)) :
    Shows key oldLines newLines ⟨rendering.lines ++ [line], oldIndex, newIndex, added, deleted⟩ := by
  refine ⟨?_, ?_, ?_, ?_, fun line' hmem => ?_, fun line' hmem hkind => ?_, ?_, ?_⟩
  · rw [filter_append, map_append, h.oldSide]
    rcases hline.oldSide with ⟨hkind, -, rfl⟩ | ⟨hkind, -, rfl, old, hold, hkey, -⟩
    · simp [hkind]
    · simp [hkind, take_succ_of_getElem? hold, hkey]
  · rw [filter_append, map_append, h.newSide]
    rcases hline.newSide with ⟨hkind, -, rfl⟩ | ⟨hkind, -, rfl, hnew⟩
    · simp [hkind]
    · simp [hkind, take_succ_of_getElem? hnew]
  · rw [filterMap_append, h.oldNumbers]
    rcases hline.oldSide with ⟨-, hnum, rfl⟩ | ⟨-, hnum, rfl, -⟩
    · simp [hnum]
    · simp [hnum, range'_1_concat, add_comm]
  · rw [filterMap_append, h.newNumbers]
    rcases hline.newSide with ⟨-, hnum, rfl⟩ | ⟨-, hnum, rfl, -⟩
    · simp [hnum]
    · simp [hnum, range'_1_concat, add_comm]
  · rcases mem_append.1 hmem with hmem | hmem
    · exact h.sides line' hmem
    · obtain rfl := mem_singleton.1 hmem
      constructor
      · rcases hline.oldSide with ⟨hkind, hnum, -⟩ | ⟨hkind, hnum, -⟩
        · exact iff_of_true hnum hkind
        · exact iff_of_false (by rw [hnum]; nofun) hkind
      · rcases hline.newSide with ⟨hkind, hnum, -⟩ | ⟨hkind, hnum, -⟩
        · exact iff_of_true hnum hkind
        · exact iff_of_false (by rw [hnum]; nofun) hkind
  · rcases mem_append.1 hmem with hmem | hmem
    · exact h.deletedText line' hmem hkind
    · obtain rfl := mem_singleton.1 hmem
      rcases hline.oldSide with ⟨hadd, -, -⟩ | ⟨-, hnum, -, old, hold, -, htext⟩
      · rw [hadd] at hkind
        cases hkind
      · exact ⟨rendering.oldIndex, hnum, by rw [hold, htext hkind]⟩
  · rw [countP_append, ← h.added_eq]
    exact hadded
  · rw [countP_append, ← h.deleted_eq]
    exact hdel

theorem Shows.renderOp (h : Shows key oldLines newLines rendering) (op : EditOp)
    (hop : Applies key oldLines newLines rendering op) :
    Shows key oldLines newLines (renderOp oldLines newLines rendering op) := by
  cases op with
  | equal =>
    obtain ⟨old, new, hold, hnew, hkey⟩ := hop
    refine h.append ⟨.inr ⟨nofun, rfl, rfl, old, hold, ?_, nofun⟩, .inr ⟨nofun, rfl, rfl, ?_⟩⟩ rfl rfl
    · rw [hkey, contextLine, getD_of_getElem? hnew]
    · rw [hnew, contextLine, getD_of_getElem? hnew]
  | delete =>
    obtain ⟨old, hold⟩ := hop
    have htext := getD_of_getElem? hold
    exact h.append ⟨.inr ⟨nofun, rfl, rfl, old, hold, by rw [htext], fun _ => htext⟩, .inl ⟨rfl, rfl, rfl⟩⟩ rfl rfl
  | insert =>
    obtain ⟨new, hnew⟩ := hop
    exact h.append ⟨.inl ⟨rfl, rfl, rfl⟩, .inr ⟨nofun, rfl, rfl, by rw [hnew, getD_of_getElem? hnew]⟩⟩ rfl rfl

lemma of_map_drop_eq_cons {first} {rest}
    (h : (lines.drop index).map key = first :: rest) :
    ∃ line, lines[index]? = some line ∧ key line = first ∧ (lines.drop (index + 1)).map key = rest ∧
      index + 1 ≤ lines.length := by
  obtain ⟨line, behind, hdrop, hkey, hrest⟩ := map_eq_cons_iff.1 h
  have hget : lines[index]? = some line := by
    rw [← add_zero index, ← getElem?_drop, hdrop]
    rfl
  obtain ⟨hlt, -⟩ := List.getElem?_eq_some_iff.1 hget
  refine ⟨line, hget, hkey, ?_, hlt⟩
  rw [← tail_drop, hdrop]
  exact hrest

variable {ops : List EditOp}

lemma Shows.foldl (h : Shows key oldLines newLines rendering)
    (hold : rendering.oldIndex ≤ oldLines.length) (hnew : rendering.newIndex ≤ newLines.length)
    (hops : Script ((oldLines.drop rendering.oldIndex).map key) ((newLines.drop rendering.newIndex).map key) ops) :
    Shows key oldLines newLines (ops.foldl (DiffView.renderOp oldLines newLines) rendering) ∧
      (ops.foldl (DiffView.renderOp oldLines newLines) rendering).oldIndex = oldLines.length ∧
      (ops.foldl (DiffView.renderOp oldLines newLines) rendering).newIndex = newLines.length ∧
      (ops.foldl (DiffView.renderOp oldLines newLines) rendering).added
        + (ops.foldl (DiffView.renderOp oldLines newLines) rendering).deleted
          = rendering.added + rendering.deleted + cost ops := by
  induction ops generalizing rendering with
  | nil =>
    generalize hleft : (oldLines.drop rendering.oldIndex).map key = left at hops
    generalize hrt : (newLines.drop rendering.newIndex).map key = right at hops
    cases hops
    rw [map_eq_nil_iff, drop_eq_nil_iff] at hleft hrt
    exact ⟨h, le_antisymm hold hleft, le_antisymm hnew hrt, rfl⟩
  | cons op ops ih =>
    generalize hleft : (oldLines.drop rendering.oldIndex).map key = left at hops
    generalize hrt : (newLines.drop rendering.newIndex).map key = right at hops
    cases hops with
    | equal first hops =>
      obtain ⟨old, hget, hkey, hrest, hlt⟩ := of_map_drop_eq_cons hleft
      obtain ⟨new, hget', hkey', hrest', hlt'⟩ := of_map_drop_eq_cons hrt
      obtain ⟨hshows, hend, hend', hcost⟩ :=
        ih (h.renderOp .equal ⟨old, new, hget, hget', hkey.trans hkey'.symm⟩) hlt hlt'
          (by rw [← hrest, ← hrest'] at hops; exact hops)
      exact ⟨hshows, hend, hend', hcost⟩
    | delete first hops =>
      obtain ⟨old, hget, -, hrest, hlt⟩ := of_map_drop_eq_cons hleft
      obtain ⟨hshows, hend, hend', hcost⟩ := ih (h.renderOp .delete ⟨old, hget⟩) hlt hnew
        (by rw [← hrest, ← hrt] at hops; exact hops)
      refine ⟨hshows, hend, hend', hcost.trans ?_⟩
      show rendering.added + (rendering.deleted + 1) + cost ops = _
      rw [cost]
      omega
    | insert first hops =>
      obtain ⟨new, hget, -, hrest, hlt⟩ := of_map_drop_eq_cons hrt
      obtain ⟨hshows, hend, hend', hcost⟩ := ih (h.renderOp .insert ⟨new, hget⟩) hold hlt
        (by rw [← hrest, ← hleft] at hops; exact hops)
      refine ⟨hshows, hend, hend', hcost.trans ?_⟩
      show rendering.added + 1 + rendering.deleted + cost ops = _
      rw [cost]
      omega

lemma foldl_replicate_equal (n : ℕ) (rendering) :
    (List.replicate n EditOp.equal).foldl (renderOp oldLines newLines) rendering =
      ⟨rendering.lines ++ (List.range n).map fun index =>
          contextLine newLines (rendering.oldIndex + index) (rendering.newIndex + index),
        rendering.oldIndex + n, rendering.newIndex + n, rendering.added, rendering.deleted⟩ := by
  induction n with
  | zero =>
    rw [range_zero, map_nil, append_nil]
    rfl
  | succ n ih =>
    rw [replicate_succ', foldl_append, ih, range_succ, map_append, ← append_assoc]
    rfl

section Middle

variable (oldKeys newKeys : List JsString)

lemma split_keys :
    let front := commonPrefixLength oldKeys newKeys
    let back := commonSuffixLength oldKeys newKeys front
    ∃ opening closing : List JsString, opening.length = front ∧ closing.length = back ∧
      oldKeys = opening ++ (middle oldKeys front back ++ closing) ∧
      newKeys = opening ++ (middle newKeys front back ++ closing) := by
  dsimp only
  obtain ⟨hopening, hfr, hfront'⟩ := take_eq_take_of_le_matchLength
    (show commonPrefixLength oldKeys newKeys ≤ matchLength oldKeys newKeys from le_rfl)
  generalize commonPrefixLength oldKeys newKeys = front at *
  obtain ⟨hcls, hback, hback'⟩ := take_eq_take_of_le_matchLength
    (show commonSuffixLength oldKeys newKeys front
      ≤ matchLength (oldKeys.drop front).reverse (newKeys.drop front).reverse from le_rfl)
  generalize commonSuffixLength oldKeys newKeys front = back at *
  rw [take_reverse, take_reverse, reverse_inj, drop_drop, drop_drop] at hcls
  rw [length_reverse, length_drop] at hback hback'
  have hspl keys (hfr : front ≤ keys.length) (hback : back ≤ keys.length - front) :
      keys = keys.take front ++ (middle keys front back ++
        keys.drop (front + ((keys.drop front).length - back))) := by
    have hlen : front + ((keys.drop front).length - back) = keys.length - back := by
      rw [length_drop]
      omega
    rw [hlen, middle, drop_take]
    have hdrop : keys.drop (keys.length - back) = (keys.drop front).drop (keys.length - back - front) := by
      rw [drop_drop]
      congr 1
      omega
    rw [hdrop, take_append_drop, take_append_drop]
  refine ⟨oldKeys.take front, oldKeys.drop (front + ((oldKeys.drop front).length - back)), ?_, ?_,
    hspl oldKeys hfr hback, ?_⟩
  · rw [length_take, min_eq_left hfr]
  · rw [length_drop, length_drop]
    omega
  · rw [hopening, hcls]
    exact hspl newKeys hfront' hback'

end Middle

/-- A diff of two texts: the lines of both, in order and numbered, with as few changes as there must be. -/
structure IsDiff (key : JsString → JsString) (oldLines newLines : List JsString) (lines : List DiffLine)
    (added deleted : ℕ) : Prop where
  oldSide : (lines.filter (·.kind ≠ .add)).map (fun line => key line.text) = oldLines.map key
  newSide : (lines.filter (·.kind ≠ .del)).map DiffLine.text = newLines
  oldNumbers : lines.filterMap DiffLine.oldLine = List.range' 1 oldLines.length
  newNumbers : lines.filterMap DiffLine.newLine = List.range' 1 newLines.length
  sides : ∀ line ∈ lines, (line.oldLine = none ↔ line.kind = .add) ∧ (line.newLine = none ↔ line.kind = .del)
  deletedText : ∀ line ∈ lines, line.kind = .del →
    ∃ index, line.oldLine = some (index + 1) ∧ oldLines[index]? = some line.text
  added_eq : added = lines.countP (·.kind = .add)
  deleted_eq : deleted = lines.countP (·.kind = .del)
  minimal : ∀ ops, Script (oldLines.map key) (newLines.map key) ops → added + deleted ≤ cost ops

lemma isDiff_of_shortest (h : Shortest (oldLines.map key) (newLines.map key) ops) :
    IsDiff key oldLines newLines (ops.foldl (renderOp oldLines newLines) ⟨[], 0, 0, 0, 0⟩).lines
      (ops.foldl (renderOp oldLines newLines) ⟨[], 0, 0, 0, 0⟩).added
      (ops.foldl (renderOp oldLines newLines) ⟨[], 0, 0, 0, 0⟩).deleted := by
  have hst : Shows key oldLines newLines ⟨[], 0, 0, 0, 0⟩ := ⟨rfl, rfl, rfl, rfl, nofun, nofun, rfl, rfl⟩
  obtain ⟨hshows, hold, hnew, hcost⟩ := hst.foldl (zero_le _) (zero_le _) h.1
  obtain ⟨holdSide, hnewSide, holdNumbers, hnewNumbers, hsides, hdeletedText, hadded, hdel⟩ := hshows
  rw [hold, take_length] at holdSide
  rw [hnew, take_length] at hnewSide
  rw [hold] at holdNumbers
  rw [hnew] at hnewNumbers
  refine ⟨holdSide, hnewSide, holdNumbers, hnewNumbers, hsides, hdeletedText, hadded, hdel, fun ops' hops' => ?_⟩
  have hle := h.2 ops' hops'
  dsimp only at hcost
  omega

lemma isDiff_of_middle {script} :
    let front := commonPrefixLength (oldLines.map key) (newLines.map key)
    let back := commonSuffixLength (oldLines.map key) (newLines.map key) front
    let opening := (List.range front).map fun index => contextLine newLines index index
    let rendering := script.foldl (renderOp oldLines newLines) ⟨opening, front, front, 0, 0⟩
    let closing := (List.range back).map fun index =>
      contextLine newLines (rendering.oldIndex + index) (rendering.newIndex + index)
    Shortest (middle (oldLines.map key) front back) (middle (newLines.map key) front back) script →
      IsDiff key oldLines newLines (rendering.lines ++ closing) rendering.added rendering.deleted := by
  dsimp only
  obtain ⟨opening, closing, hopening, hcls, hold, hnew⟩ :=
    split_keys (oldLines.map key) (newLines.map key)
  generalize commonPrefixLength (oldLines.map key) (newLines.map key) = front at *
  intro hscript
  have hshortest := (hscript.append_right closing).append_left opening
  rw [← hold, ← hnew, hopening, hcls] at hshortest
  have hdiff := isDiff_of_shortest hshortest
  rw [foldl_append, foldl_append, foldl_replicate_equal, foldl_replicate_equal] at hdiff
  simp only [nil_append, zero_add] at hdiff
  exact hdiff

/-- **A diff is right, and as small as can be**: both texts are shown, line by line, with as few
additions and deletions as any script for the keys of the lines has. -/
theorem computeLineDiff_correct (original modified : JsString) (ignoreWhitespace : Bool) :
    let oldLines := splitDiffText original
    let newLines := splitDiffText modified
    let key := lineKey ignoreWhitespace
    let front := commonPrefixLength (oldLines.map key) (newLines.map key)
    let back := commonSuffixLength (oldLines.map key) (newLines.map key) front
    if maxDiffViewLinesPerSide < oldLines.length ∨ maxDiffViewLinesPerSide < newLines.length then
      computeLineDiff original modified ignoreWhitespace = .tooLarge .lines
    else
      (computeLineDiff original modified ignoreWhitespace = .tooLarge .editDistance ↔
          middle (oldLines.map key) front back ≠ [] ∧ middle (newLines.map key) front back ≠ [] ∧
            ∀ ops, Script (middle (oldLines.map key) front back) (middle (newLines.map key) front back) ops →
              maxDiffViewEditDistance < cost ops) ∧
        (computeLineDiff original modified ignoreWhitespace = .tooLarge .editDistance ∨
          ∃ lines added deleted, computeLineDiff original modified ignoreWhitespace = .ready lines added deleted ∧
            IsDiff key oldLines newLines lines added deleted) := by
  unfold computeLineDiff
  generalize splitDiffText original = oldLines
  generalize splitDiffText modified = newLines
  dsimp only
  by_cases hlines : maxDiffViewLinesPerSide < oldLines.length ∨ maxDiffViewLinesPerSide < newLines.length
  · rw [if_pos hlines, if_pos hlines]
  rw [if_neg hlines, if_neg hlines, ← shortestEditScript_eq_none_iff]
  split
  case h_1 hscript => exact ⟨iff_of_true rfl hscript, .inl rfl⟩
  case h_2 script hscript =>
    refine ⟨iff_of_false nofun (by rw [hscript]; exact nofun), .inr ⟨_, _, _, rfl, ?_⟩⟩
    exact isDiff_of_middle (shortestEditScript_eq_some hscript)

lemma isDiff_of_ready {original modified} {ignoreWhitespace}
    {lines}
    (h : computeLineDiff original modified ignoreWhitespace = .ready lines added deleted) :
    IsDiff (lineKey ignoreWhitespace) (splitDiffText original) (splitDiffText modified) lines added
      deleted := by
  unfold computeLineDiff at h
  dsimp only at h
  split at h
  · cases h
  split at h
  case h_1 => cases h
  case h_2 script hscript =>
    cases h
    exact isDiff_of_middle (shortestEditScript_eq_some hscript)

lemma splitDiffText_lineBreaks (n : ℕ) :
    splitDiffText (List.replicate (n + 1) 0x0A) = List.replicate (n + 1) [] := by
  have hnormalize : ∀ n, normalizeLineBreaks (List.replicate n 0x0A) = List.replicate n 0x0A := fun n => by
    induction n with
    | zero => rfl
    | succ n ih =>
      rw [replicate_succ, normalizeLineBreaks, ih]
      intro rest heq
      cases heq
  have hspl : ∀ n, splitLines (List.replicate n 0x0A) = List.replicate (n + 1) [] := fun n => by
    induction n with
    | zero => rfl
    | succ n ih =>
      rw [replicate_succ, splitLines, if_pos rfl, ih]
      rfl
  unfold splitDiffText
  rw [if_neg (by rw [replicate_succ]; exact cons_ne_nil _ _), hnormalize, hspl]
  dsimp only
  rw [getLast?_replicate, if_neg (succ_ne_zero _), if_pos rfl, dropLast_replicate]
  rfl

/-- **The limit on lines comes first**: so many empty lines differ from a letter by more edits than
are searched. -/
theorem too_many_lines :
    let original := List.replicate (maxDiffViewLinesPerSide + 1) 0x0A
    let oldKeys := (splitDiffText original).map (lineKey false)
    let newKeys := (splitDiffText (js "b")).map (lineKey false)
    let front := commonPrefixLength oldKeys newKeys
    let back := commonSuffixLength oldKeys newKeys front
    computeLineDiff original (js "b") false = .tooLarge .lines ∧
      middle oldKeys front back ≠ [] ∧ middle newKeys front back ≠ [] ∧
      ∀ ops, Script (middle oldKeys front back) (middle newKeys front back) ops →
        maxDiffViewEditDistance < cost ops := by
  dsimp only
  have hnew : splitDiffText (js "b") = [js "b"] := by decide
  have hkeys : (List.replicate (maxDiffViewLinesPerSide + 1) []).map (lineKey false)
      = List.replicate (maxDiffViewLinesPerSide + 1) [] := by rw [map_replicate]; rfl
  have hnone n : matchLength (List.replicate (n + 1) []) [js "b"] = 0 := by
    exact if_neg (by decide)
  unfold computeLineDiff
  rw [splitDiffText_lineBreaks, hnew, hkeys]
  have hfront : commonPrefixLength (List.replicate (maxDiffViewLinesPerSide + 1) [])
      ([js "b"].map (lineKey false)) = 0 := hnone _
  have hback : commonSuffixLength (List.replicate (maxDiffViewLinesPerSide + 1) [])
      ([js "b"].map (lineKey false)) 0 = 0 := by
    rw [commonSuffixLength, drop_zero, reverse_replicate]
    exact hnone _
  have hmid keys : middle keys 0 0 = keys := by
    rw [middle, Nat.sub_zero, take_length, drop_zero]
  rw [hfront, hback, hmid, hmid]
  have hmany : maxDiffViewLinesPerSide < (List.replicate (maxDiffViewLinesPerSide + 1) ([] : JsString)).length := by
    rw [length_replicate]
    exact lt_succ_self _
  refine ⟨if_pos (.inl hmany), ?_, cons_ne_nil _ _, fun ops hops => ?_⟩
  · rw [replicate_succ]
    exact cons_ne_nil _ _
  · have hlen := hops.length_le.1
    have hone : ([js "b"].map (lineKey false)).length = 1 := rfl
    have hlimits : maxDiffViewEditDistance + 1 < maxDiffViewLinesPerSide + 1 := by decide
    omega

example : computeLineDiff (js "a\nb\nc\n") (js "a\r\nB\nc") false =
    .ready [⟨.context, some 1, some 1, js "a"⟩, ⟨.del, some 2, none, js "b"⟩, ⟨.add, none, some 2, js "B"⟩,
      ⟨.context, some 3, some 3, js "c"⟩] 1 1 := by decide +kernel

/-- What a diff says of the number of changes. -/
def LineDiffResult.counts : LineDiffResult → Except TooLargeReason (ℕ × ℕ)
  | .ready _ added deleted => .ok (added, deleted)
  | .tooLarge reason => .error reason

lemma counts_foldl (ops : List EditOp) (rendering) :
    (ops.foldl (renderOp oldLines newLines) rendering).added = rendering.added + ops.count .insert ∧
      (ops.foldl (renderOp oldLines newLines) rendering).deleted = rendering.deleted + ops.count .delete := by
  induction ops generalizing rendering with
  | nil => exact ⟨rfl, rfl⟩
  | cons op ops ih =>
    rw [foldl_cons, (ih _).1, (ih _).2]
    cases op <;> simp [renderOp] <;> omega

lemma shortestEditScript_none_swap {left right : List JsString} {maxDistance}
    (h : shortestEditScript left right maxDistance = none) : shortestEditScript right left maxDistance = none := by
  rw [shortestEditScript_eq_none_iff] at h ⊢
  exact ⟨h.2.1, h.1, fun ops hops => cost_swap ops ▸ h.2.2 _ hops.swap⟩

/-- **A diff back has the same changes, added for deleted**, and is too large for the same reason. -/
theorem counts_computeLineDiff_comm (original modified : JsString) (ignoreWhitespace : Bool) :
    (computeLineDiff modified original ignoreWhitespace).counts =
      (computeLineDiff original modified ignoreWhitespace).counts.map Prod.swap := by
  unfold computeLineDiff
  generalize splitDiffText original = oldLines
  generalize splitDiffText modified = newLines
  dsimp only
  by_cases hlines : maxDiffViewLinesPerSide < oldLines.length ∨ maxDiffViewLinesPerSide < newLines.length
  · rw [if_pos hlines, if_pos hlines.symm]
    rfl
  rw [if_neg hlines, if_neg (mt Or.symm hlines)]
  unfold commonSuffixLength commonPrefixLength
  -- what the texts have in common is the same both ways, so the searched parts are
  rw [matchLength_comm (newLines.map _), matchLength_comm (drop _ (newLines.map _)).reverse]
  split
  · rename_i hnone
    rw [shortestEditScript_none_swap hnone]
    rfl
  · rename_i script hscript
    split
    · rename_i hnone
      rw [shortestEditScript_none_swap hnone] at hscript
      cases hscript
    · rename_i back hback
      have hswap := (shortestEditScript_eq_some hback).counts_swap (shortestEditScript_eq_some hscript)
      simp only [LineDiffResult.counts, counts_foldl, hswap.1, hswap.2]
      rfl

end CodevoEditor.DiffView
