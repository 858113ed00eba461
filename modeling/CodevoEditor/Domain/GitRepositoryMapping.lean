/-
# Directories of git mappings

`src/domain/gitRepositoryMapping.ts` (`normalizeGitDirectoryMappings`): raw mappings become
relative directories, sorted shallow first.
-/

import CodevoEditor.Js.CodePoints
import CodevoEditor.Js.Sorting
import CodevoEditor.Js.Value

namespace CodevoEditor.Domain

open Js List

def slash : UInt16 := 47

structure GitRepositoryMapping where
  rootRelativePath : JsString

/-- `value.split("\\").join("/")`. -/
def forwardSlashes (value : JsString) : JsString :=
  value.map fun unit => if unit = 92 then slash else unit

def isAbsolutePath : JsString → Bool
  | 47 :: _ => true
  | letter :: 58 :: 47 :: _ => (65 ≤ letter && letter ≤ 90) || (97 ≤ letter && letter ≤ 122)
  | _ => false

def rawMappingRootRelativePath : JsValue → Option JsString
  | .string value => some value
  | .object fields => match fieldOf fields (js "rootRelativePath") with
    | .string value => some value
    | _ => none
  | _ => none

def normalizeRelativeDirectory (value : JsString) : Option JsString :=
  let text := trim (forwardSlashes value)
  let segments := (text.splitOn slash).filter fun segment => segment ≠ [] ∧ segment ≠ js "."
  if isAbsolutePath text ∨ js ".." ∈ segments then none else some ([slash].intercalate segments)

def directoryDepth (directory : JsString) : ℕ :=
  if directory = [] then 0 else (directory.splitOn slash).length

def compareRootRelativePaths (left right : JsString) : Ordering :=
  (compare (directoryDepth left) (directoryDepth right)).then (compareText left right)

variable (lower : JsString → JsString)

/-- The paths that are new ignoring case (`toLowerCase`), with the keys that are `seen`. -/
def dedupe : List JsString → List JsString → List JsString
  | _, [] => []
  | seen, path :: paths =>
    if lower path ∈ seen then dedupe seen paths
    else path :: dedupe (lower path :: seen) paths

/-- The directories of a raw list, before any is left out as a duplicate. -/
def accepted : JsValue → List JsString
  | .array entries => (entries.filterMap rawMappingRootRelativePath).filterMap normalizeRelativeDirectory
  | _ => []

def rootRelativePaths (raw : JsValue) : List JsString :=
  sort compareRootRelativePaths (dedupe lower [] (accepted raw))

def normalizeGitDirectoryMappings (raw : JsValue) : List GitRepositoryMapping :=
  (rootRelativePaths lower raw).map fun path => ⟨path⟩

/-- Mappings as they are persisted. -/
def rawMappings (mappings : List GitRepositoryMapping) : JsValue :=
  .array (mappings.map fun mapping => .object [(js "rootRelativePath", .string mapping.rootRelativePath)])

lemma splitOn_units {text segment : JsString} (h : segment ∈ text.splitOn slash) :
    ∀ unit ∈ segment, unit ∈ text ∧ unit ≠ slash := by
  induction text generalizing segment with
  | nil => simp_all
  | cons first rest ih =>
    rw [splitOn_cons_eq_if_modifyHead] at h
    cases hspl : rest.splitOn slash with
    | nil => exact absurd hspl (splitOn_ne_nil slash rest)
    | cons => grind [modifyHead_cons]

lemma length_intercalate (segments : List JsString) :
    ([slash].intercalate segments).length = (segments.map (·.length + 1)).sum - 1 := by
  induction segments with
  | nil => rfl
  | cons first rest ih => cases rest <;> grind [intercalate_cons_cons, intercalate_singleton]

lemma mem_intercalate {segments : List JsString} {unit} (h : unit ∈ [slash].intercalate segments) :
    unit = slash ∨ ∃ segment ∈ segments, unit ∈ segment := by
  induction segments with
  | nil => cases h
  | cons first rest ih => cases rest <;> grind [intercalate_cons_cons, intercalate_singleton]

/-- A path without a backslash and without an empty, `.` or `..` segment. -/
def Clean (path : JsString) : Prop :=
  92 ∉ path ∧ ∀ segment ∈ path.splitOn slash, path ≠ [] → segment ≠ [] ∧ segment ≠ js "." ∧ segment ≠ js ".."

lemma trim_sublist (text : JsString) : trim text <+ text :=
  ( rdropWhile_prefix _ _).sublist.trans (dropWhile_suffix _).sublist

variable {value path : JsString}

lemma normalize_spec (h : normalizeRelativeDirectory value = some path) :
    Clean path ∧ path.length ≤ (trim (forwardSlashes value)).length ∧
      ¬ isAbsolutePath (trim (forwardSlashes value)) := by
  unfold normalizeRelativeDirectory at h
  dsimp only at h
  split_ifs at h with hbad
  obtain ⟨habs, hup⟩ := not_or.1 hbad
  cases h
  have hunits {segment} (hmem : segment ∈ ((trim (forwardSlashes value)).splitOn slash).filter
      fun segment => segment ≠ [] ∧ segment ≠ js ".") := splitOn_units (mem_filter.1 hmem).1
  refine ⟨⟨fun hunit => ?_, fun segment hmem hne => ?_⟩, ?_, habs⟩
  · rcases mem_intercalate hunit with heq | ⟨segment, hmem, hunit⟩
    · cases heq
    · obtain ⟨unit, -, heq⟩ := mem_map.1 ((trim_sublist _).subset (hunits hmem _ hunit).1)
      split_ifs at heq with hback
      · cases heq
      · exact hback heq
  · rw [splitOn_intercalate slash fun segment hmem hslash => (hunits hmem _ hslash).2 rfl] at hmem
    · have := of_decide_eq_true (mem_filter.1 hmem).2
      exact ⟨this.1, this.2, fun heq => hup (heq ▸ hmem)⟩
    · rintro hnil
      exact hne (by rw [hnil]; rfl)
  · have hwh : [slash].intercalate ((trim (forwardSlashes value)).splitOn slash) = _ :=
      intercalate_splitOn slash
    conv_rhs => rw [← hwh]
    rw [length_intercalate, length_intercalate]
    exact Nat.sub_le_sub_right ((filter_sublist.map _).sum_le_sum fun _ _ => Nat.zero_le _) 1

lemma Clean.forwardSlashes (h : Clean path) : forwardSlashes path = path := by
  refine (map_congr_left fun unit hunit => if_neg ?_).trans (map_id path)
  rintro rfl
  exact h.1 hunit

lemma normalize_of_clean (h : Clean path) (htrim : trim path = path)
    (habs : ¬ isAbsolutePath path) : normalizeRelativeDirectory path = some path := by
  unfold normalizeRelativeDirectory
  rw [h.forwardSlashes, htrim]
  dsimp only
  rcases eq_or_ne path [] with rfl | hne
  · rfl
  · have hall : (path.splitOn slash).filter (fun segment => segment ≠ [] ∧ segment ≠ js ".") =
        path.splitOn slash := by
      refine filter_eq_self.2 fun segment hmem => decide_eq_true ?_
      exact ⟨(h.2 segment hmem hne).1, (h.2 segment hmem hne).2.1⟩
    rw [hall, if_neg, intercalate_splitOn]
    rintro (hyes | hup)
    · exact habs hyes
    · exact (h.2 _ hup hne).2.2 rfl

lemma mem_dedupe {seen paths} : path ∈ dedupe lower seen paths ↔ ∃ before after,
    paths = before ++ path :: after ∧ lower path ∉ seen ∧ lower path ∉ before.map lower := by
  induction paths generalizing seen with
  | nil => simp [dedupe]
  | cons first rest ih =>
    have hspl : (∃ before after, first :: rest = before ++ path :: after ∧ lower path ∉ seen ∧
        lower path ∉ before.map lower) ↔
        (path = first ∧ lower first ∉ seen) ∨ ∃ before after, rest = before ++ path :: after ∧
          lower path ∉ lower first :: seen ∧ lower path ∉ before.map lower := by
      constructor
      · rintro ⟨_ | ⟨other, before⟩, after, heq, hseen, hpre⟩ <;> cases heq
        · exact .inl ⟨rfl, hseen⟩
        · exact .inr ⟨before, after, rfl, by simp_all, by simp_all⟩
      · rintro (⟨rfl, hseen⟩ | ⟨before, after, rfl, hseen, hpre⟩)
        · exact ⟨[], rest, rfl, hseen, by simp⟩
        · exact ⟨first :: before, after, rfl, by simp_all, by simp_all⟩
    rw [hspl, dedupe]
    split_ifs with hseen
    · have hsame : lower path ∉ lower first :: seen ↔ lower path ∉ seen := by
        rw [mem_cons, not_or, and_iff_right_of_imp]
        exact fun hnot heq => hnot (heq ▸ hseen)
      simp only [hsame, not_true, and_false, false_or, hseen, ih]
    · rw [mem_cons, ih, and_iff_left hseen]

lemma nodup_dedupe (seen paths : List JsString) : ((dedupe lower seen paths).map lower).Nodup := by
  induction paths generalizing seen with
  | nil => exact nodup_nil
  | cons first rest ih =>
    rw [dedupe]
    split_ifs
    · exact ih seen
    · refine nodup_cons.2 ⟨fun hmem => ?_, ih _⟩
      obtain ⟨path, hpath, heq⟩ := mem_map.1 hmem
      obtain ⟨_, _, _, hnew, _⟩ := (mem_dedupe lower).1 hpath
      exact hnew (heq ▸ mem_cons_self)

lemma dedupe_sublist (seen paths : List JsString) : dedupe lower seen paths <+ paths := by
  induction paths generalizing seen with
  | nil => exact .refl []
  | cons first rest ih =>
    rw [dedupe]
    split_ifs
    · exact (ih _).cons _
    · exact (ih _).cons_cons _

lemma dedupe_of_nodup {seen paths} (hnd : (paths.map lower).Nodup)
    (hnew : ∀ path ∈ paths, lower path ∉ seen) : dedupe lower seen paths = paths := by
  induction paths generalizing seen with
  | nil => rfl
  | cons first rest ih =>
    rw [map_cons, nodup_cons] at hnd
    rw [dedupe, if_neg (hnew first mem_cons_self), ih hnd.2 fun path hmem => ?_]
    rw [mem_cons]
    rintro (heq | hseen)
    · exact hnd.1 (heq ▸ mem_map_of_mem hmem)
    · exact hnew path (mem_cons_of_mem _ hmem) hseen

lemma compares_rootRelativePaths :
    Compares compareRootRelativePaths fun path => toLex (directoryDepth path, units path) :=
  (compares_text id).then directoryDepth

lemma accepted_rawMappings (paths : List JsString) :
    accepted (rawMappings (paths.map fun path => ⟨path⟩)) = paths.filterMap normalizeRelativeDirectory := by
  unfold accepted rawMappings
  dsimp only
  rw [map_map, filterMap_map]
  exact congrArg _ filterMap_some

/-- What a normalised list is: relative directories, different ignoring case, shallow first. -/
structure Canonical (mappings : List GitRepositoryMapping) : Prop where
  relative : ∀ mapping ∈ mappings, ¬ isAbsolutePath mapping.rootRelativePath ∧ Clean mapping.rootRelativePath
  distinct : (mappings.map fun mapping => lower mapping.rootRelativePath).Nodup
  shallow : mappings.Pairwise fun left right =>
    directoryDepth left.rootRelativePath ≤ directoryDepth right.rootRelativePath

/-- No directory begins or ends with a space or begins with a drive letter, but for those that are
there already ignoring case. -/
def Tidy (raw : JsValue) : Prop :=
  ∀ before path after, accepted raw = before ++ path :: after →
    lower path ∉ before.map lower → trim path = path ∧ ¬ isAbsolutePath path

variable {lower} {raw : JsValue}

lemma tidy_iff : Tidy lower raw ↔ ∀ path ∈ rootRelativePaths lower raw, trim path = path ∧ ¬ isAbsolutePath path := by
  unfold rootRelativePaths
  simp only [mem_sort, mem_dedupe, not_mem_nil, not_false_iff, true_and]
  exact ⟨fun h path ⟨before, after, heq, hnew⟩ => h before path after heq hnew,
    fun h before path after heq hnew => h path ⟨before, after, heq, hnew⟩⟩

lemma clean_of_mem (h : path ∈ rootRelativePaths lower raw) : Clean path := by
  have hmem := (dedupe_sublist lower [] _).subset (mem_sort.1 h)
  unfold accepted at hmem
  split at hmem
  · obtain ⟨value, -, hval⟩ := mem_filterMap.1 hmem
    exact (normalize_spec hval).1
  · cases hmem

lemma normalize_length_le (h : Clean path) :
    ((normalizeRelativeDirectory path).map length).getD 0 ≤ path.length ∧
      (((normalizeRelativeDirectory path).map length).getD 0 = path.length →
        trim path = path ∧ ¬ isAbsolutePath path) := by
  cases hnormal : normalizeRelativeDirectory path with
  | none =>
    refine ⟨Nat.zero_le _, fun hlen => ?_⟩
    obtain rfl := length_eq_zero_iff.1 hlen.symm
    cases hnormal
  | some found =>
    obtain ⟨-, hlen, habs⟩ := normalize_spec hnormal
    rw [h.forwardSlashes] at hlen habs
    refine ⟨hlen.trans (trim_sublist path).length_le, fun heq => ?_⟩
    have htrim := (trim_sublist path).eq_of_length_le (heq ▸ hlen)
    exact ⟨htrim, htrim ▸ habs⟩

lemma tidy_of_eq {paths} (hclean : ∀ path ∈ paths, Clean path)
    (h : sort compareRootRelativePaths (dedupe lower [] (paths.filterMap normalizeRelativeDirectory)) = paths) :
    ∀ path ∈ paths, trim path = path ∧ ¬ isAbsolutePath path := by
  intro path hpath
  have hle path (hpath : path ∈ paths) := normalize_length_le (hclean path hpath)
  refine (hle path hpath).2 (((hle path hpath).1.eq_or_lt).resolve_right fun hlt => ?_)
  have hless := sum_lt_sum _ _ (fun path hpath => (hle path hpath).1) ⟨path, hpath, hlt⟩
  have htot (paths : List JsString) : ((paths.filterMap normalizeRelativeDirectory).map length).sum =
      (paths.map fun path => ((normalizeRelativeDirectory path).map length).getD 0).sum := by
    induction paths with
    | nil => rfl
    | cons first rest ih => cases hfst : normalizeRelativeDirectory first <;> simp [hfst, ih]
  have hperm := ((sort_perm compareRootRelativePaths (dedupe lower []
    (paths.filterMap normalizeRelativeDirectory))).map length).sum_eq
  have hsub := ((dedupe_sublist lower [] (paths.filterMap
    normalizeRelativeDirectory)).map length).sum_le_sum fun _ _ => Nat.zero_le _
  rw [h] at hperm
  rw [← htot] at hless
  omega

end CodevoEditor.Domain
