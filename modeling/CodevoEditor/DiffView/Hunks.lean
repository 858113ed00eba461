/-
# Hunks

`src/domain/diffView/diffHunks.ts`: the changed lines of a diff, with the lines around them, are
put in hunks, each under a header with the lines it begins at and its number of lines on both
sides.
-/

import CodevoEditor.DiffView.Rendering
import Mathlib.Data.List.Pairwise

namespace CodevoEditor.DiffView

open Js List Nat

inductive LineField
  | oldLine
  | newLine

/-- `line[field]`. -/
def DiffLine.field (line : DiffLine) : LineField → Option ℕ
  | .oldLine => line.oldLine
  | .newLine => line.newLine

structure DiffHunk where
  header : String
  lines : List DiffLine

def firstLine (lines : List DiffLine) (field : LineField) : Option ℕ := lines.findSome? (·.field field)

def lineBefore (lines : List DiffLine) (start : ℕ) (field : LineField) : ℕ :=
  ((lines.take start).reverse.findSome? (·.field field)).getD 0

def hunkHeader (oldStart oldCount newStart newCount : ℕ) : String :=
  "@@ -" ++ toString oldStart ++ "," ++ toString oldCount ++ " +" ++ toString newStart ++ ","
    ++ toString newCount ++ " @@"

def hunkFor (lines : List DiffLine) (range : ℕ × ℕ) : DiffHunk :=
  let slice := (lines.take (range.2 + 1)).drop range.1
  let oldCount := slice.countP fun line => line.oldLine.isSome
  let newCount := slice.countP fun line => line.newLine.isSome
  let oldStart := (firstLine slice .oldLine).getD (lineBefore lines range.1 .oldLine)
  let newStart := (firstLine slice .newLine).getD (lineBefore lines range.1 .newLine)
  ⟨hunkHeader oldStart oldCount newStart newCount, slice⟩

/-- A range that touches the last one makes it longer. -/
def pushRange (ranges : List (ℕ × ℕ)) (range : ℕ × ℕ) : List (ℕ × ℕ) :=
  match ranges.getLast? with
  | some last =>
      if range.1 ≤ last.2 + 1 then ranges.dropLast ++ [(last.1, max last.2 range.2)]
      else ranges ++ [range]
  | none => [range]

/-- The body of the loop over the lines. -/
def pushChange (count context : ℕ) (ranges : List (ℕ × ℕ)) (entry : DiffLine × ℕ) : List (ℕ × ℕ) :=
  if entry.1.kind = .context then ranges
  else pushRange ranges (entry.2 - context, min (count - 1) (entry.2 + context))

def hunkRanges (lines : List DiffLine) (context : ℕ) : List (ℕ × ℕ) :=
  lines.zipIdx.foldl (pushChange lines.length context) []

def groupDiffHunks (lines : List DiffLine) (context : ℕ) : List DiffHunk :=
  (hunkRanges lines context).map (hunkFor lines)

def changedLineCount (lines : List DiffLine) : ℕ := lines.countP fun line => line.kind ≠ .context

/-- The loop over the hunks. -/
def limitHunk (limited : List DiffHunk × ℤ × ℕ) (hunk : DiffHunk) : List DiffHunk × ℤ × ℕ :=
  let (kept, budget, hiddenChangedLines) := limited
  if budget ≤ 0 then (kept, budget, hiddenChangedLines + changedLineCount hunk.lines)
  else if (hunk.lines.length : ℤ) ≤ budget then
    (kept ++ [hunk], budget - hunk.lines.length, hiddenChangedLines)
  else
    (kept ++ [⟨hunk.header, hunk.lines.take budget.toNat⟩], 0,
      hiddenChangedLines + changedLineCount (hunk.lines.drop budget.toNat))

/-- The hunks that are shown, and the number of changed lines that are not. -/
def limitDiffHunks (hunks : List DiffHunk) (maxLines : ℤ) : List DiffHunk × ℕ :=
  let limited := hunks.foldl limitHunk ([], maxLines, 0)
  (limited.1, limited.2.2)

structure SplitDiffCell where
  index : ℕ
  line : ℕ
  text : JsString
  kind : DiffLineKind

structure SplitDiffRow where
  left : Option SplitDiffCell
  right : Option SplitDiffCell

def cell (field : LineField) (entry : DiffLine × ℕ) : SplitDiffCell where
  index := entry.2
  line := (entry.1.field field).getD 0
  text := entry.1.text
  kind := entry.1.kind

/-- Deletions beside additions. -/
def pairRows (deletions additions : List SplitDiffCell) : List SplitDiffRow :=
  (List.range (max deletions.length additions.length)).map fun row => ⟨deletions[row]?, additions[row]?⟩

def hasKind (kind : DiffLineKind) (entry : DiffLine × ℕ) : Bool := decide (entry.1.kind = kind)

/-- The loop over lines with their indices. -/
def splitRowsFrom : ℕ → List (DiffLine × ℕ) → List SplitDiffRow
  | 0, _ => []
  | _, [] => []
  | fuel + 1, entry :: rest =>
      if entry.1.kind = .context then ⟨cell .oldLine entry, cell .newLine entry⟩ :: splitRowsFrom fuel rest
      else
        let deletions := (entry :: rest).takeWhile (hasKind .del)
        let behind := (entry :: rest).dropWhile (hasKind .del)
        let additions := behind.takeWhile (hasKind .add)
        pairRows (deletions.map (cell .oldLine)) (additions.map (cell .newLine)) ++
          splitRowsFrom fuel (behind.dropWhile (hasKind .add))

def splitDiffRows (hunk : DiffHunk) : List SplitDiffRow := splitRowsFrom hunk.lines.length hunk.lines.zipIdx

/-! ### The ranges of the hunks -/

def ChangedAt (lines : List DiffLine) (index : ℕ) : Prop :=
  ∃ line, lines[index]? = some line ∧ line.kind ≠ .context

/-- There is a change, among the lines gone through, that `index` is no further from than the context. -/
def Near (lines : List DiffLine) (context passed index : ℕ) : Prop :=
  index < lines.length ∧ ∃ changed < passed, ChangedAt lines changed ∧
    changed ≤ index + context ∧ index ≤ changed + context

def Within (range : ℕ × ℕ) (index : ℕ) : Prop := range.1 ≤ index ∧ index ≤ range.2

/-- The ranges, when so many lines have been gone through. -/
structure Ranged (lines : List DiffLine) (context passed : ℕ) (ranges : List (ℕ × ℕ)) : Prop where
  apart : ranges.Pairwise fun range later => range.2 + 1 < later.1
  bounds : ∀ range ∈ ranges, range.1 ≤ range.2 ∧ range.2 < lines.length
  begun : ∀ range ∈ ranges, range.1 ≤ passed - context
  covers : ∀ index, (∃ range ∈ ranges, Within range index) ↔ Near lines context passed index

variable {lines : List DiffLine} {passed context : ℕ} {ranges : List (ℕ × ℕ)}

lemma near_succ_of_context (h : ¬ ChangedAt lines passed) (index : ℕ) :
    Near lines context (passed + 1) index ↔ Near lines context passed index := by
  refine and_congr_right fun _ => ⟨?_, ?_⟩
  · rintro ⟨changed, hlt, hchg, hnear⟩
    have hne : changed ≠ passed := fun heq => h (heq ▸ hchg)
    exact ⟨changed, by omega, hchg, hnear⟩
  · rintro ⟨changed, hlt, hchg, hnear⟩
    exact ⟨changed, by omega, hchg, hnear⟩

lemma near_succ_of_changed (h : ChangedAt lines passed) (hpassed : passed < lines.length) (index : ℕ) :
    Near lines context (passed + 1) index ↔
      Near lines context passed index ∨
        Within (passed - context, min (lines.length - 1) (passed + context)) index := by
  constructor
  · rintro ⟨hidx, changed, hlt, hchg, hnear⟩
    by_cases heq : changed = passed
    · right
      exact ⟨by omega, by omega⟩
    · exact .inl ⟨hidx, changed, by omega, hchg, hnear⟩
  · rintro (⟨hidx, changed, hlt, hchg, hnear⟩ | ⟨hlow, hhigh⟩)
    · exact ⟨hidx, changed, by omega, hchg, hnear⟩
    · dsimp only at hlow hhigh
      exact ⟨by omega, passed, by omega, h, by omega, by omega⟩

lemma Ranged.skip (h : Ranged lines context passed ranges) (hctx : ¬ ChangedAt lines passed) :
    Ranged lines context (passed + 1) ranges where
  apart := h.apart
  bounds := h.bounds
  begun range hrng := (h.begun range hrng).trans (by omega)
  covers index := (h.covers index).trans (near_succ_of_context hctx index).symm

lemma Ranged.pushRange (h : Ranged lines context passed ranges) (hpassed : passed < lines.length)
    (hchg : ChangedAt lines passed) :
    Ranged lines context (passed + 1)
      (pushRange ranges (passed - context, min (lines.length - 1) (passed + context))) := by
  obtain ⟨hapart, hbd, hbegun, hcover⟩ := h
  have hnear := @near_succ_of_changed lines passed context hchg hpassed
  unfold DiffView.pushRange
  cases hlast : ranges.getLast? with
  | none =>
    obtain rfl := getLast?_eq_none_iff.1 hlast
    refine ⟨pairwise_singleton _ _, ?_, ?_, fun index => ?_⟩
    · rintro range hrng
      obtain rfl := mem_singleton.1 hrng
      exact ⟨by dsimp only; omega, by dsimp only; omega⟩
    · rintro range hrng
      obtain rfl := mem_singleton.1 hrng
      omega
    · rw [hnear, ← hcover]
      simp
  | some last =>
    obtain ⟨front, rfl⟩ := getLast?_eq_some_iff.1 hlast
    obtain ⟨hfr, -, hpre⟩ := pairwise_append.1 hapart
    have hlastBounds := hbd last mem_concat_self
    have hlastBegun := hbegun last mem_concat_self
    dsimp only
    split
    case isTrue htouch =>
      rw [dropLast_concat]
      refine ⟨?_, ?_, ?_, fun index => ?_⟩
      · refine pairwise_append.2 ⟨hfr, pairwise_singleton _ _, ?_⟩
        rintro range hrng _ hmem
        obtain rfl := mem_singleton.1 hmem
        exact hpre range hrng last mem_cons_self
      · rintro range hrng
        rcases mem_append.1 hrng with hrng | hrng
        · exact hbd range (mem_append_left _ hrng)
        · obtain rfl := mem_singleton.1 hrng
          exact ⟨by dsimp only; omega, by dsimp only; omega⟩
      · rintro range hrng
        rcases mem_append.1 hrng with hrng | hrng
        · exact (hbegun range (mem_append_left _ hrng)).trans (by omega)
        · obtain rfl := mem_singleton.1 hrng
          omega
      · have hunion : Within (last.1, max last.2 (min (lines.length - 1) (passed + context))) index ↔
            Within last index ∨ Within (passed - context, min (lines.length - 1) (passed + context)) index := by
          unfold Within
          omega
        rw [hnear, ← hcover]
        simp only [mem_append, mem_singleton, or_and_right, exists_or, exists_eq_left, hunion, or_assoc]
    case isFalse hapartLast =>
      refine ⟨?_, ?_, ?_, fun index => ?_⟩
      · refine pairwise_append.2 ⟨hapart, pairwise_singleton _ _, ?_⟩
        rintro range hrng _ hmem
        obtain rfl := mem_singleton.1 hmem
        rcases mem_append.1 hrng with hrng | hrng
        · have := hpre range hrng last mem_cons_self
          omega
        · obtain rfl := mem_singleton.1 hrng
          omega
      · rintro range hrng
        rcases mem_append.1 hrng with hrng | hrng
        · exact hbd range hrng
        · obtain rfl := mem_singleton.1 hrng
          exact ⟨by dsimp only; omega, by dsimp only; omega⟩
      · rintro range hrng
        rcases mem_append.1 hrng with hrng | hrng
        · exact (hbegun range hrng).trans (by omega)
        · obtain rfl := mem_singleton.1 hrng
          omega
      · rw [hnear, ← hcover]
        simp only [mem_append, mem_singleton, or_and_right, exists_or, exists_eq_left]

lemma ranged_hunkRanges (lines) (context : ℕ) : Ranged lines context lines.length (hunkRanges lines context) := by
  have hrun : ∀ passed ≤ lines.length, Ranged lines context passed
      ((lines.zipIdx.take passed).foldl (pushChange lines.length context) []) := by
    intro passed hpassed
    induction passed with
    | zero =>
      refine ⟨.nil, nofun, nofun, fun index => ⟨?_, ?_⟩⟩
      · rintro ⟨range, hrng, -⟩
        cases hrng
      · rintro ⟨-, changed, hlt, -⟩
        omega
    | succ passed ih =>
      have hline : lines.zipIdx[passed]? = some (lines[passed], passed) := by
        simp
      rw [take_add_one, hline, foldl_append]
      have hpushed := ih (by omega)
      generalize (lines.zipIdx.take passed).foldl (pushChange lines.length context) [] = ranges at hpushed
      show Ranged lines context (passed + 1) (pushChange lines.length context ranges (lines[passed], passed))
      unfold pushChange
      split
      case isTrue hctx =>
        refine hpushed.skip ?_
        rintro ⟨line, hget, hkind⟩
        rw [getElem?_eq_getElem hpassed, Option.some.injEq] at hget
        exact hkind (hget ▸ hctx)
      case isFalse hchg =>
        exact hpushed.pushRange hpassed ⟨_, getElem?_eq_getElem hpassed, hchg⟩
  have hall := hrun lines.length le_rfl
  rw [take_of_length_le (by rw [length_zipIdx])] at hall
  exact hall

def sliceOf (lines : List DiffLine) (range : ℕ × ℕ) : List DiffLine :=
  (lines.take (range.2 + 1)).drop range.1

variable {range : ℕ × ℕ}

lemma split_at_range (hrng : range.1 ≤ range.2) :
    lines = lines.take range.1 ++ (sliceOf lines range ++ lines.drop (range.2 + 1)) := by
  have htake : lines.take range.1 = (lines.take (range.2 + 1)).take range.1 := by
    rw [take_take, min_eq_left (by omega)]
  rw [sliceOf, htake, ← append_assoc, take_append_drop, take_append_drop]

lemma filter_eq_flatMap_ranges (chosen : DiffLine → Bool) {start}
    (hapart : ranges.Pairwise fun range later => range.2 + 1 < later.1)
    (hbd : ∀ range ∈ ranges, range.1 ≤ range.2 ∧ start ≤ range.1)
    (hcover : ∀ index line, start ≤ index → lines[index]? = some line → chosen line →
      ∃ range ∈ ranges, Within range index) :
    ((ranges.flatMap (sliceOf lines)).filter chosen) = (lines.drop start).filter chosen := by
  induction ranges generalizing start with
  | nil =>
    refine (filter_eq_nil_iff.2 fun line hline hchosen => ?_).symm
    obtain ⟨index, hget⟩ := mem_iff_getElem?.1 hline
    rw [getElem?_drop] at hget
    obtain ⟨_, hmem, -⟩ := hcover _ line (le_add_right _ _) hget hchosen
    cases hmem
  | cons range ranges ih =>
    obtain ⟨hpre, hapart⟩ := pairwise_cons.1 hapart
    obtain ⟨hrng, hfrom⟩ := hbd range mem_cons_self
    have hrest := ih hapart
      (fun later hlat => ⟨(hbd later (mem_cons_of_mem _ hlat)).1,
        show range.2 + 1 ≤ later.1 from (hpre later hlat).le⟩)
      (fun index line hidx hget hchosen => by
        obtain ⟨later, hlat, hin⟩ := hcover index line (by omega) hget hchosen
        rcases mem_cons.1 hlat with rfl | hlat
        · exact absurd hin.2 (by omega)
        · exact ⟨later, hlat, hin⟩)
    have hfr : ((lines.take range.1).drop start).filter chosen = [] := by
      refine filter_eq_nil_iff.2 fun line hline hchosen => ?_
      obtain ⟨index, hget⟩ := mem_iff_getElem?.1 hline
      rw [getElem?_drop] at hget
      obtain ⟨hlt, -⟩ := List.getElem?_eq_some_iff.1 hget
      rw [length_take] at hlt
      rw [getElem?_take_of_lt (by omega)] at hget
      obtain ⟨later, hlat, hin⟩ := hcover _ line (le_add_right _ _) hget hchosen
      have hlow := hin.1
      rcases mem_cons.1 hlat with rfl | hlat
      · omega
      · have := hpre later hlat
        omega
    have hdrop : lines.drop start
        = (lines.take range.1).drop start ++ (sliceOf lines range ++ lines.drop (range.2 + 1)) := by
      by_cases hlen : start ≤ (lines.take range.1).length
      · rw [← drop_append_of_le_length hlen, ← split_at_range hrng]
      · rw [length_take] at hlen
        have hsht : lines.length ≤ start := by omega
        rw [sliceOf, drop_eq_nil_of_le hsht, drop_eq_nil_of_le, drop_eq_nil_of_le, drop_eq_nil_of_le]
        · rfl
        · omega
        · rw [length_take]
          omega
        · rw [length_take]
          omega
    rw [flatMap_cons, filter_append, hrest, hdrop, filter_append, filter_append, hfr, nil_append]

lemma groupDiffHunks_lines (lines) (context : ℕ) :
    (groupDiffHunks lines context).flatMap DiffHunk.lines = (hunkRanges lines context).flatMap (sliceOf lines) := by
  rw [groupDiffHunks, flatMap_map]
  rfl

def isChange (line : DiffLine) : Bool := decide (line.kind ≠ .context)

lemma changes_groupDiffHunks (lines) (context : ℕ) :
    ((groupDiffHunks lines context).flatMap DiffHunk.lines).filter isChange = lines.filter isChange := by
  have hranged := ranged_hunkRanges lines context
  rw [groupDiffHunks_lines]
  refine filter_eq_flatMap_ranges isChange hranged.apart
    (fun range hrng => ⟨(hranged.bounds range hrng).1, zero_le _⟩) fun index line _ hget hchosen => ?_
  obtain ⟨hlt, -⟩ := List.getElem?_eq_some_iff.1 hget
  exact (hranged.covers index).2 ⟨hlt, index, hlt, ⟨line, hget, of_decide_eq_true hchosen⟩, by omega, by omega⟩

/-- `first` and `count` on a side: the lines of the hunk have these numbers, and the lines before the hunk
have the ones before, up to `first` where the hunk has none. -/
structure Header (field : LineField) (lines : List DiffLine) (range : ℕ × ℕ) (first count : ℕ) : Prop where
  count_eq : (sliceOf lines range).countP (fun line => (line.field field).isSome) = count
  numbers : (sliceOf lines range).filterMap (·.field field) = List.range' first count
  before : (lines.take range.1).filterMap (·.field field) = List.range' 1 (if count = 0 then first else first - 1)

def headerStart (lines : List DiffLine) (range : ℕ × ℕ) (field : LineField) : ℕ :=
  (firstLine (sliceOf lines range) field).getD (lineBefore lines range.1 field)

def headerCount (lines : List DiffLine) (range : ℕ × ℕ) (field : LineField) : ℕ :=
  (sliceOf lines range).countP fun line => (line.field field).isSome

variable {front : List ℕ}

lemma eq_range'_of_append {back} {first count}
    (h : front ++ back = List.range' first count) :
    front = List.range' first front.length ∧ back = List.range' (first + front.length) back.length := by
  obtain ⟨k, hk, hfr, hback⟩ := range'_eq_append_iff.1 h.symm
  have hfrontLength : front.length = k := by rw [hfr, length_range']
  have hbackLength : back.length = count - k := by rw [hback, length_range']
  rw [hfrontLength, hbackLength]
  exact ⟨hfr, by rw [hback, mul_one]⟩

lemma numbered_of_consecutive {numbers} (hfr : front = List.range' 1 front.length)
    (hnums : numbers = List.range' (1 + front.length) numbers.length) :
    numbers = List.range' (numbers.head?.getD (front.getLast?.getD 0)) numbers.length ∧
      front = List.range' 1 (if numbers.length = 0 then numbers.head?.getD (front.getLast?.getD 0)
        else numbers.head?.getD (front.getLast?.getD 0) - 1) := by
  cases numbers with
  | nil =>
    refine ⟨rfl, ?_⟩
    have hlast : front.getLast?.getD 0 = front.length := by
      rw [hfr, getLast?_range', length_range']
      split
      case isTrue hzero => rw [hzero, Option.getD_none]
      case isFalse hpos =>
        rw [Option.getD_some]
        omega
    rw [length_nil, if_pos rfl, head?_nil, Option.getD_none, hlast]
    exact hfr
  | cons number numbers =>
    have hhead : number = 1 + front.length := (cons.inj hnums).1
    rw [head?_cons, Option.getD_some, length_cons, if_neg (succ_ne_zero _), hhead, Nat.add_sub_cancel_left]
    rw [hhead] at hnums
    exact ⟨hnums, hfr⟩

variable {field : LineField}

lemma header_hunkFor {total}
    (hnums : lines.filterMap (·.field field) = List.range' 1 total) (hrng : range.1 ≤ range.2) :
    Header field lines range (headerStart lines range field) (headerCount lines range field) := by
  rw [@split_at_range lines range hrng, filterMap_append] at hnums
  obtain ⟨hpre, hbehind⟩ := eq_range'_of_append hnums
  rw [filterMap_append] at hbehind
  obtain ⟨hslice, -⟩ := eq_range'_of_append hbehind
  have hfst : firstLine (sliceOf lines range) field
      = ((sliceOf lines range).filterMap (·.field field)).head? := head?_filterMap.symm
  have hlineBefore : lineBefore lines range.1 field
      = (((lines.take range.1).filterMap (·.field field)).getLast?).getD 0 := by
    rw [lineBefore, ← head?_filterMap, filterMap_reverse, head?_reverse]
  have hcnt : headerCount lines range field = ((sliceOf lines range).filterMap (·.field field)).length :=
    length_filterMap_eq_countP.symm
  have hst : headerStart lines range field = (firstLine (sliceOf lines range) field).getD
      (lineBefore lines range.1 field) := rfl
  rw [hfst, hlineBefore] at hst
  obtain ⟨hnums, hnumbersBefore⟩ := numbered_of_consecutive hpre hslice
  rw [hcnt, hst]
  exact ⟨length_filterMap_eq_countP.symm, hnums, hnumbersBefore⟩

lemma changedLineCount_append (front back) :
    changedLineCount (front ++ back) = changedLineCount front + changedLineCount back :=
  countP_append

/-- What the loop over the hunks has made of them, and of what may still be shown. -/
structure Limited (maxLines : ℤ) (hunks : List DiffHunk) (limited : List DiffHunk × ℤ × ℕ) : Prop where
  shown : limited.1.flatMap DiffHunk.lines = (hunks.flatMap DiffHunk.lines).take maxLines.toNat
  hidden : changedLineCount (limited.1.flatMap DiffHunk.lines) + limited.2.2
    = changedLineCount (hunks.flatMap DiffHunk.lines)
  budget : limited.2.1.toNat = maxLines.toNat - (hunks.flatMap DiffHunk.lines).length
  headers : limited.1.map DiffHunk.header <+: hunks.map DiffHunk.header
  whole : 0 < limited.2.1 → limited.1 = hunks

lemma Limited.limitHunk {maxLines} {hunks} {limited}
    (h : Limited maxLines hunks limited) (hunk : DiffHunk) :
    Limited maxLines (hunks ++ [hunk]) (limitHunk limited hunk) := by
  obtain ⟨kept, budget, hiddenChangedLines⟩ := limited
  obtain ⟨hshn, hhidden, hbudget, hheaders, hwh⟩ := h
  dsimp only at hshn hhidden hbudget hheaders hwh
  have hlines : (hunks ++ [hunk]).flatMap DiffHunk.lines = hunks.flatMap DiffHunk.lines ++ hunk.lines := by
    rw [flatMap_append, flatMap_singleton]
  have hheadersMore : kept.map DiffHunk.header <+: (hunks ++ [hunk]).map DiffHunk.header := by
    rw [map_append]
    exact hheaders.trans (prefix_append _ _)
  unfold DiffView.limitHunk
  dsimp only
  split
  case isTrue hspent =>
    refine ⟨?_, ?_, ?_, hheadersMore, fun hpos => absurd hpos (by dsimp only; omega)⟩
    · rw [hlines, take_append_of_le_length (by omega)]
      exact hshn
    · rw [hlines, changedLineCount_append, ← hhidden]
      dsimp only
      omega
    · rw [hlines, length_append]
      dsimp only
      omega
  case isFalse hleft =>
    obtain rfl := hwh (by omega)
    have hmore : (kept.flatMap DiffHunk.lines).take maxLines.toNat = kept.flatMap DiffHunk.lines := hshn.symm
    have hnone : hiddenChangedLines = 0 := by omega
    split
    case isTrue hfits =>
      refine ⟨?_, ?_, ?_, prefix_rfl, fun _ => rfl⟩
      · rw [hlines, take_of_length_le]
        rw [length_append]
        omega
      · rw [hlines]
        dsimp only
        omega
      · rw [hlines, length_append]
        dsimp only
        omega
    case isFalse hcut =>
      have hcutLines :
          (kept ++ [DiffHunk.mk hunk.header (hunk.lines.take budget.toNat)]).flatMap DiffHunk.lines
          = kept.flatMap DiffHunk.lines ++ hunk.lines.take budget.toNat := by
        rw [flatMap_append, flatMap_singleton]
      refine ⟨?_, ?_, ?_, ?_, fun hpos => absurd hpos (lt_irrefl _)⟩
      · rw [hlines, hcutLines, take_append, hmore, hbudget]
      · rw [hlines, hcutLines, changedLineCount_append, changedLineCount_append, hnone]
        have hparts := changedLineCount_append (hunk.lines.take budget.toNat) (hunk.lines.drop budget.toNat)
        rw [take_append_drop] at hparts
        dsimp only
        omega
      · rw [hlines, length_append]
        dsimp only
        omega
      · rw [map_append, map_append]
        exact prefix_rfl

lemma limited_foldl (maxLines : ℤ) (hunks : List DiffHunk) :
    Limited maxLines hunks (hunks.foldl limitHunk ([], maxLines, 0)) := by
  induction hunks using List.reverseRecOn with
  | nil =>
    refine ⟨take_nil.symm, rfl, ?_, prefix_rfl, fun _ => rfl⟩
    exact (Nat.sub_zero _).symm
  | append_singleton hunks hunk ih =>
    rw [foldl_append]
    exact ih.limitHunk hunk

/-- The cell of a line on a side, where it has a number there. -/
def sideCell (field : LineField) (entry : DiffLine × ℕ) : Option SplitDiffCell :=
  (entry.1.field field).map fun number => ⟨entry.2, number, entry.1.text, entry.1.kind⟩

/-- An addition has no old line, a deletion no new one, and all else have both. -/
def Sided (line : DiffLine) : Prop :=
  (line.oldLine = none ↔ line.kind = .add) ∧ (line.newLine = none ↔ line.kind = .del)

lemma filterMap_getElem?_range {α : Type} (list : List α) (n : ℕ) :
    ((List.range n).filterMap fun index => list[index]?) = list.take n := by
  induction n with
  | zero => rfl
  | succ n ih =>
    rw [range_succ, filterMap_append, ih, take_add_one]
    cases h : list[n]? <;> simp [h]

variable (deletions additions : List SplitDiffCell)

lemma pairRows_left : (pairRows deletions additions).filterMap SplitDiffRow.left = deletions := by
  rw [pairRows, filterMap_map]
  exact (filterMap_getElem?_range deletions _).trans (take_of_length_le (le_max_left _ _))

lemma pairRows_right : (pairRows deletions additions).filterMap SplitDiffRow.right = additions := by
  rw [pairRows, filterMap_map]
  exact (filterMap_getElem?_range additions _).trans (take_of_length_le (le_max_right _ _))

variable {entry : DiffLine × ℕ}

lemma sideCell_eq_cell (h : entry.1.field field ≠ none) : sideCell field entry = some (cell field entry) := by
  obtain ⟨number, hnum⟩ := Option.ne_none_iff_exists'.1 h
  rw [sideCell, cell, hnum]
  rfl

variable {entries : List (DiffLine × ℕ)}

lemma filterMap_sideCell (h : ∀ entry ∈ entries, entry.1.field field ≠ none) :
    entries.filterMap (sideCell field) = entries.map (cell field) := by
  rw [← filterMap_eq_map]
  exact filterMap_congr fun entry hent => sideCell_eq_cell (h entry hent)

lemma filterMap_sideCell_eq_nil (h : ∀ entry ∈ entries, entry.1.field field = none) :
    entries.filterMap (sideCell field) = [] := by
  refine filterMap_eq_nil_iff.2 fun entry hent => ?_
  rw [sideCell, h entry hent]
  rfl

/-- A change begins a run of deletions and one of additions, and the rows of the run stand first. -/
lemma splitRowsFrom_change (rest) (hchange : entry.1.kind ≠ .context) :
    ∃ deletions additions after : List (DiffLine × ℕ),
      entry :: rest = deletions ++ (additions ++ after) ∧ after.length ≤ rest.length ∧
      (∀ entry ∈ deletions, entry.1.kind = .del) ∧ (∀ entry ∈ additions, entry.1.kind = .add) ∧
      ∀ fuel, splitRowsFrom (fuel + 1) (entry :: rest) =
        pairRows (deletions.map (cell .oldLine)) (additions.map (cell .newLine)) ++
          splitRowsFrom fuel after := by
  have hkindOf {kind : DiffLineKind} {entries : List (DiffLine × ℕ)} (entry)
      (hmem : entry ∈ entries.takeWhile (hasKind kind)) : entry.1.kind = kind := by
    have hkind : hasKind kind entry := mem_takeWhile_imp hmem
    exact of_decide_eq_true hkind
  refine ⟨(entry :: rest).takeWhile (hasKind .del),
    ((entry :: rest).dropWhile (hasKind .del)).takeWhile (hasKind .add),
    ((entry :: rest).dropWhile (hasKind .del)).dropWhile (hasKind .add), ?_, ?_, hkindOf, hkindOf,
    fun fuel => ?_⟩
  · rw [takeWhile_append_dropWhile, takeWhile_append_dropWhile]
  · cases hkind : entry.1.kind with
    | context => exact absurd hkind hchange
    | del =>
      rw [dropWhile_cons_of_pos (show hasKind .del entry from decide_eq_true hkind)]
      exact (length_dropWhile_le _ _).trans (length_dropWhile_le _ _)
    | add =>
      rw [dropWhile_cons_of_neg, dropWhile_cons_of_pos (show hasKind .add entry from decide_eq_true hkind)]
      · exact length_dropWhile_le _ _
      · rw [hasKind, hkind]
        decide
  · rw [splitRowsFrom, if_neg hchange]

lemma sides_splitRowsFrom {fuel} (hfuel : entries.length ≤ fuel)
    (hsided : ∀ entry ∈ entries, Sided entry.1) :
    (splitRowsFrom fuel entries).filterMap SplitDiffRow.left = entries.filterMap (sideCell .oldLine) ∧
      (splitRowsFrom fuel entries).filterMap SplitDiffRow.right = entries.filterMap (sideCell .newLine) := by
  induction fuel generalizing entries with
  | zero =>
    obtain rfl := eq_nil_of_length_eq_zero (le_zero.1 hfuel)
    exact ⟨rfl, rfl⟩
  | succ fuel ih =>
    cases entries with
    | nil => exact ⟨rfl, rfl⟩
    | cons entry rest =>
      have hent := hsided entry mem_cons_self
      by_cases hctx : entry.1.kind = .context
      · rw [splitRowsFrom, if_pos hctx]
        obtain ⟨hleft, hrt⟩ := ih (le_of_succ_le_succ hfuel)
          fun entry hmem => hsided entry (mem_cons_of_mem _ hmem)
        have hold : sideCell .oldLine entry = some (cell .oldLine entry) :=
          sideCell_eq_cell fun hnone => by
            rw [hent.1.1 hnone] at hctx
            cases hctx
        have hnew : sideCell .newLine entry = some (cell .newLine entry) :=
          sideCell_eq_cell fun hnone => by
            rw [hent.2.1 hnone] at hctx
            cases hctx
        rw [filterMap_cons_some hold, filterMap_cons_some hnew, ← hleft, ← hrt]
        exact ⟨rfl, rfl⟩
      · obtain ⟨deletions, additions, after, hrun, hlen, hdeletions, hadditions, hrows⟩ :=
          splitRowsFrom_change rest hctx
        rw [hrun] at hsided
        obtain ⟨hleft, hrt⟩ := ih (hlen.trans (le_of_succ_le_succ hfuel))
          fun entry hmem => hsided entry (mem_append_right _ (mem_append_right _ hmem))
        have hdel (entry) (hmem : entry ∈ deletions) :
            entry.1.field .oldLine ≠ none ∧ entry.1.field .newLine = none := by
          obtain ⟨hold, hnew⟩ := hsided entry (mem_append_left _ hmem)
          have hkind := hdeletions entry hmem
          refine ⟨fun hnone => ?_, hnew.2 hkind⟩
          rw [hold.1 hnone] at hkind
          cases hkind
        have hadded (entry) (hmem : entry ∈ additions) :
            entry.1.field .newLine ≠ none ∧ entry.1.field .oldLine = none := by
          obtain ⟨hold, hnew⟩ := hsided entry (mem_append_right _ (mem_append_left _ hmem))
          have hkind := hadditions entry hmem
          refine ⟨fun hnone => ?_, hold.2 hkind⟩
          rw [hnew.1 hnone] at hkind
          cases hkind
        rw [hrows, hrun]
        constructor
        · rw [filterMap_append, filterMap_append, filterMap_append, pairRows_left, hleft,
            filterMap_sideCell fun entry hmem => (hdel entry hmem).1,
            filterMap_sideCell_eq_nil fun entry hmem => (hadded entry hmem).2, nil_append]
        · rw [filterMap_append, filterMap_append, filterMap_append, pairRows_right, hrt,
            filterMap_sideCell fun entry hmem => (hadded entry hmem).1,
            filterMap_sideCell_eq_nil fun entry hmem => (hdel entry hmem).2, nil_append]

/-- A hunk has the lines of its range, under a header that is right on both sides. -/
structure IsHunk (lines : List DiffLine) (range : ℕ × ℕ) (hunk : DiffHunk) : Prop where
  bounds : range.1 ≤ range.2 ∧ range.2 < lines.length
  lines_eq : hunk.lines = sliceOf lines range
  header : ∃ oldStart oldCount newStart newCount,
    hunk.header = hunkHeader oldStart oldCount newStart newCount ∧
      Header .oldLine lines range oldStart oldCount ∧ Header .newLine lines range newStart newCount

lemma changedLineCount_eq_length (lines) :
    changedLineCount lines = (lines.filter isChange).length := countP_eq_length_filter

lemma changedLineCount_eq_add (lines) :
    changedLineCount lines = lines.countP (·.kind = .add) + lines.countP (·.kind = .del) := by
  induction lines with
  | nil => rfl
  | cons line lines ih =>
    rw [changedLineCount] at ih ⊢
    rw [countP_cons, countP_cons, countP_cons, ih]
    cases line.kind with
    | context => rfl
    | add => exact add_right_comm _ _ _
    | del => exact add_assoc _ _ _

lemma Ranged.unique (h : Ranged lines context passed ranges) {other} {index}
    (hrng : range ∈ ranges) (hoth : other ∈ ranges) (hin : Within range index)
    (hwithinOther : Within other index) : range = other := by
  by_contra hne
  have hhigh := hin.2
  have hhighOther := hwithinOther.2
  have hlow := hin.1
  have hlowOther := hwithinOther.1
  have hsymm : Std.Symm fun range later : ℕ × ℕ => range.2 + 1 < later.1 ∨ later.2 + 1 < range.1 := ⟨fun _ _ => .symm⟩
  have hpair : ranges.Pairwise fun range later => range.2 + 1 < later.1 ∨ later.2 + 1 < range.1 := h.apart.imp .inl
  rcases hpair.forall hrng hoth hne with hlat | hearlier
  · omega
  · omega

lemma rows_of_lines {hunk} (h : ∀ line ∈ hunk.lines, Sided line) :
    (splitDiffRows hunk).filterMap SplitDiffRow.left = hunk.lines.zipIdx.filterMap (sideCell .oldLine) ∧
      (splitDiffRows hunk).filterMap SplitDiffRow.right = hunk.lines.zipIdx.filterMap (sideCell .newLine) :=
  sides_splitRowsFrom (by rw [length_zipIdx]) fun entry hent =>
    h entry.1 (fst_mem_of_mem_zipIdx hent)

/-- **The hunks of a diff lose nothing**: every change is in one hunk, with the lines near to it, in
order and under a right header. -/
theorem hunks_of_ready {original modified : JsString} {ignoreWhitespace : Bool} {lines : List DiffLine}
    {added deleted : ℕ} (h : computeLineDiff original modified ignoreWhitespace = .ready lines added deleted)
    (context : ℕ) (maxLines : ℤ) :
    let hunks := groupDiffHunks lines context
    let limited := limitDiffHunks hunks maxLines
    (∃ ranges : List (ℕ × ℕ), List.Forall₂ (IsHunk lines) ranges hunks ∧
      ranges.Pairwise (fun range later => range.2 + 1 < later.1) ∧
      (∀ index, ChangedAt lines index → ∃! range, range ∈ ranges ∧ Within range index) ∧
      ∀ index, (∃ range ∈ ranges, Within range index) ↔ Near lines context lines.length index) ∧
    limited.1.flatMap DiffHunk.lines = (hunks.flatMap DiffHunk.lines).take maxLines.toNat ∧
    limited.1.map DiffHunk.header <+: hunks.map DiffHunk.header ∧
    changedLineCount (limited.1.flatMap DiffHunk.lines) + limited.2 = added + deleted ∧
    ∀ hunk ∈ hunks ++ limited.1,
      (splitDiffRows hunk).filterMap SplitDiffRow.left = hunk.lines.zipIdx.filterMap (sideCell .oldLine) ∧
      (splitDiffRows hunk).filterMap SplitDiffRow.right = hunk.lines.zipIdx.filterMap (sideCell .newLine) := by
  have hdiff := isDiff_of_ready h
  have hranged := ranged_hunkRanges lines context
  have hlimited := limited_foldl maxLines (groupDiffHunks lines context)
  have hmem {line} (hline : line ∈ (groupDiffHunks lines context).flatMap DiffHunk.lines) : line ∈ lines := by
    rw [groupDiffHunks_lines] at hline
    obtain ⟨range, -, hslice⟩ := mem_flatMap.1 hline
    exact mem_of_mem_take (mem_of_mem_drop hslice)
  refine ⟨⟨hunkRanges lines context, ?_, hranged.apart, fun index hchg => ?_, hranged.covers⟩,
    hlimited.shown, hlimited.headers, ?_, fun hunk hhunk => rows_of_lines fun line hline => ?_⟩
  · rw [groupDiffHunks, forall₂_map_right_iff, forall₂_same]
    rintro range hrange
    have hbound := hranged.bounds range hrange
    exact ⟨hbound, rfl, _, _, _, _, rfl, header_hunkFor hdiff.oldNumbers hbound.1,
      header_hunkFor hdiff.newNumbers hbound.1⟩
  · obtain ⟨line, hget, -⟩ := id hchg
    obtain ⟨hlt, -⟩ := List.getElem?_eq_some_iff.1 hget
    obtain ⟨range, hrange, hwithin⟩ := (hranged.covers index).2 ⟨hlt, index, hlt, hchg, by omega, by omega⟩
    exact ⟨range, ⟨hrange, hwithin⟩, fun other hother => hranged.unique hother.1 hrange hother.2 hwithin⟩
  · rw [hdiff.added_eq, hdiff.deleted_eq, ← changedLineCount_eq_add]
    refine hlimited.hidden.trans ?_
    rw [changedLineCount_eq_length, changes_groupDiffHunks, ← changedLineCount_eq_length]
  · refine hdiff.sides line (hmem ?_)
    rcases mem_append.1 hhunk with hhunk | hhunk
    · exact mem_flatMap.2 ⟨hunk, hhunk, hline⟩
    · have hshown : line ∈ (limitDiffHunks (groupDiffHunks lines context) maxLines).1.flatMap DiffHunk.lines :=
        mem_flatMap.2 ⟨hunk, hhunk, hline⟩
      rw [show (limitDiffHunks (groupDiffHunks lines context) maxLines).1.flatMap DiffHunk.lines = _ from
        hlimited.shown] at hshown
      exact mem_of_mem_take hshown

/-- A deletion that is shown and an addition behind the limit. -/
theorem hunks_of_ready_sample :
    let lines := [⟨.context, some 1, some 1, js "a"⟩, ⟨.del, some 2, none, js "b"⟩,
      ⟨.add, none, some 2, js "B"⟩, ⟨.context, some 3, some 3, js "c"⟩]
    let limited := limitDiffHunks (groupDiffHunks lines 0) 1
    changedLineCount (limited.1.flatMap DiffHunk.lines) + limited.2 = 1 + 1 :=
  (hunks_of_ready (show computeLineDiff (js "a\nb\nc\n") (js "a\r\nB\nc") false = .ready _ 1 1 by
    decide +kernel) 0 1).2.2.2.1

end CodevoEditor.DiffView
