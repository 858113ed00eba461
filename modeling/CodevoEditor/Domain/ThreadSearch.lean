/-
# The search of threads

`searchAgentThreadDocuments` in `src/domain/agentThreadSearch.ts`, and the ranking of
`src/domain/agentThreadSearchRanking.ts`.  `toLowerCase` is a parameter.
-/

import Mathlib.Algebra.Order.Ring.Unbundled.Rat
import CodevoEditor.Js.CodePoints
import CodevoEditor.Js.Ranking
import CodevoEditor.Js.Value

namespace CodevoEditor.Domain

open Js List

def minThreadSearchQueryChars : ℕ := 2

def maxThreadSearchQueryChars : ℕ := 200

def maxThreadSearchResults : ℕ := 50

def maxThreadSearchSnippetChars : ℕ := 240

inductive AgentThreadSearchSource
  | title
  | user
  | assistant
  deriving DecidableEq

structure AgentThreadSearchRange where
  start : ℕ
  stop : ℕ

structure AgentThreadSearchSegment where
  source : AgentThreadSearchSource
  turnId : Option JsString
  eventIndex : Option ℕ
  text : JsString
  lower : JsString

structure AgentThreadSearchDocument where
  threadId : JsString
  updatedAtEpochMs : ℚ
  titleLower : JsString
  segments : List AgentThreadSearchSegment
  truncated : Bool

structure AgentThreadSearchSnippet where
  snippet : JsString
  ranges : List AgentThreadSearchRange

structure AgentThreadSearchMatch extends AgentThreadSearchSnippet where
  threadId : JsString
  source : AgentThreadSearchSource
  turnId : Option JsString
  eventIndex : Option ℕ
  segmentStart : ℕ
  segmentEnd : ℕ
  score : ℕ

structure AgentThreadSearchResult where
  query : JsString := []
  «matches» : List AgentThreadSearchMatch := []
  truncated : Bool := false
  documentsTruncated : Bool := false

/-- An entry with what it ranks. -/
structure RankedSearchEntry (ε : Type*) where
  score : ℕ
  recencyEpochMs : ℚ
  tieBreakKey : JsString
  item : ε

variable {ε : Type*}

/-- `text.indexOf(query)`. -/
def indexOf (text query : JsString) : Option ℕ := text.tails.findIdx? query.isPrefixOf

def titleMatchScore (titleLower query : JsString) : Option ℕ :=
  if titleLower = query then some 0
  else if query.isPrefixOf titleLower then some (100 + titleLower.length)
  else (indexOf titleLower query).map fun index => 200 + 2 * index

def compareRankedSearchEntries (left right : RankedSearchEntry ε) : Ordering :=
  (compare left.score right.score).then
    ((compare right.recencyEpochMs left.recencyEpochMs).then (compareText left.tieBreakKey right.tieBreakKey))

/-- The loop of `rankedInsertIndex`; the lists are far shorter than `2 ^ 31`. -/
def rankedInsertLoop (ranked : List (RankedSearchEntry ε)) (candidate : RankedSearchEntry ε) (low high : ℕ) : ℕ :=
  if low < high then
    let middle := (low + high) / 2
    match ranked[middle]? with
    | none => middle
    | some entry =>
        if compareRankedSearchEntries entry candidate ≠ .gt then rankedInsertLoop ranked candidate (middle + 1) high
        else rankedInsertLoop ranked candidate low middle
  else low
termination_by high - low

def rankedInsertIndex (ranked : List (RankedSearchEntry ε)) (candidate : RankedSearchEntry ε) : ℕ :=
  rankedInsertLoop ranked candidate 0 ranked.length

def rankedCap : JsNumber → ℕ
  | .int limit => if (JsNumber.int limit).safeAtLeast 1 then limit.toNat else 0
  | .nonInteger _ => 0

/-- What is ranked after the call, and what the call returns. -/
def insertRankedSearchResult (ranked : List (RankedSearchEntry ε)) (candidate : RankedSearchEntry ε)
    (limit : JsNumber) : List (RankedSearchEntry ε) × Bool :=
  let cap := rankedCap limit
  let spliced (ranked : List (RankedSearchEntry ε)) :=
    let index := rankedInsertIndex ranked candidate
    (ranked.take index ++ candidate :: ranked.drop index, true)
  if cap = 0 then (ranked, false)
  else match if ranked.length < cap then none else ranked.getLast? with
    | none => spliced ranked
    | some last =>
        if compareRankedSearchEntries candidate last ≠ .lt then (ranked, false) else spliced ranked.dropLast

def isControlChar (unit : UInt16) : Bool := unit ≤ 0x1F || (0x7F ≤ unit && unit ≤ 0x9F)

variable (toLowerCase : JsString → JsString)

def normalizeThreadSearchQuery (raw : JsString) : Option JsString :=
  let clipped := trim ((trim (raw.filter (!isControlChar ·))).take maxThreadSearchQueryChars)
  if clipped.length < minThreadSearchQueryChars then none else some (toLowerCase clipped)

def boundedLimit : JsNumber → ℕ
  | .int limit => if (JsNumber.int limit).safeAtLeast 1 then min limit.toNat maxThreadSearchResults
      else maxThreadSearchResults
  | .nonInteger _ => maxThreadSearchResults

def clampRange (start length bound : ℕ) : AgentThreadSearchRange :=
  let start := min start bound
  ⟨start, min (start + length) bound⟩

def alignStart (text : JsString) (start : ℕ) : ℕ :=
  if text[start]?.all isLowSurrogate then start - 1 else start

def alignEnd (text : JsString) (stop : ℕ) : ℕ :=
  if text.length ≤ stop then text.length
  else if text[stop - 1]?.all isHighSurrogate then stop - 1 else stop

def threadSearchSnippet (source : AgentThreadSearchSegment) (index queryLength : ℕ) : AgentThreadSearchSnippet :=
  let text := source.text
  if text.length ≤ maxThreadSearchSnippetChars then ⟨text, [clampRange index queryLength text.length]⟩
  else
    let preferred := index - (maxThreadSearchSnippetChars - queryLength) / 2
    let stop := alignEnd text (min (preferred + maxThreadSearchSnippetChars) text.length)
    let start := alignStart text (stop - maxThreadSearchSnippetChars)
    let before := if 0 < start then js "…" else []
    let after := if stop < text.length then js "…" else []
    let snippet := before ++ (text.take stop).drop start ++ after
    ⟨snippet, [clampRange (index + before.length - start) queryLength snippet.length]⟩

def documentMatch (doc : AgentThreadSearchDocument) (source : AgentThreadSearchSegment)
    (index queryLength score : ℕ) : AgentThreadSearchMatch :=
  { threadSearchSnippet source index queryLength with
    threadId := doc.threadId
    source := source.source
    turnId := source.turnId
    eventIndex := source.eventIndex
    segmentStart := index
    segmentEnd := min (index + queryLength) source.text.length
    score }

def bestDocumentMatch (doc : AgentThreadSearchDocument) (query : JsString) : Option AgentThreadSearchMatch :=
  match doc.segments.head? with
  | none => none
  | some titleSegment =>
    if titleSegment.source ≠ .title then none
    else match titleMatchScore doc.titleLower query with
      | some titleScore =>
          some (documentMatch doc titleSegment ((indexOf doc.titleLower query).getD 0) query.length titleScore)
      | none => doc.segments.findSome? fun candidate =>
          if candidate.source = .title then none
          else (indexOf candidate.lower query).map fun index => documentMatch doc candidate index query.length 400

/-- `RankedMatch`, of a document that matches. -/
def rankedMatch (query : JsString) (doc : AgentThreadSearchDocument) :
    Option (RankedSearchEntry AgentThreadSearchMatch) :=
  (bestDocumentMatch doc query).map fun found =>
    { score := found.score
      recencyEpochMs := doc.updatedAtEpochMs
      tieBreakKey := doc.threadId
      item := found }

/-- The variables of the loop over the documents. -/
structure SearchState where
  ranked : List (RankedSearchEntry AgentThreadSearchMatch) := []
  matching : ℕ := 0
  documentsTruncated : Bool := false

def SearchState.step (query : JsString) (cap : ℕ) (state : SearchState) (doc : AgentThreadSearchDocument) :
    SearchState :=
  let state := { state with documentsTruncated := state.documentsTruncated || doc.truncated }
  match rankedMatch query doc with
  | none => state
  | some candidate =>
      { state with
        matching := state.matching + 1
        ranked := (insertRankedSearchResult state.ranked candidate (.int cap)).1 }

def searchAgentThreadDocuments (docs : List AgentThreadSearchDocument) (query : JsString) (limit : JsNumber) :
    AgentThreadSearchResult :=
  match normalizeThreadSearchQuery toLowerCase query with
  | none => {}
  | some normalized =>
    let cap := boundedLimit limit
    let state := docs.foldl (SearchState.step normalized cap) {}
    { query := normalized
      «matches» := state.ranked.map (·.item)
      truncated := cap < state.matching
      documentsTruncated := state.documentsTruncated }

lemma compares_compareRankedSearchEntries :
    Compares (compareRankedSearchEntries (ε := ε)) fun entry =>
      toLex (entry.score, toLex (OrderDual.toDual entry.recencyEpochMs, units entry.tieBreakKey)) :=
  .then (fun entry : RankedSearchEntry ε => entry.score)
    (.then (fun entry : RankedSearchEntry ε => OrderDual.toDual entry.recencyEpochMs)
      (compares_text fun entry : RankedSearchEntry ε => entry.tieBreakKey))

variable {ranked front rear : List (RankedSearchEntry ε)} {candidate : RankedSearchEntry ε}

lemma rankedInsertLoop_split (hfr : ∀ entry ∈ front, compareRankedSearchEntries entry candidate ≠ .gt)
    (hrear : ∀ entry ∈ rear, compareRankedSearchEntries entry candidate = .gt) (low high)
    (hlow : low ≤ front.length) (hhigh : front.length ≤ high) (hlen : high ≤ (front ++ rear).length) :
    rankedInsertLoop (front ++ rear) candidate low high = front.length := by
  induction low, high using rankedInsertLoop.induct (front ++ rear) candidate with
  | case1 low high hlt middle hnone =>
    have := getElem?_eq_none_iff.1 hnone
    omega
  | case2 low high hlt middle entry hent hle ih =>
    rw [rankedInsertLoop, if_pos hlt]
    dsimp only
    rw [hent]
    dsimp only
    rw [if_pos hle]
    refine ih ?_ hhigh hlen
    by_contra! hmid
    rw [getElem?_append_right (by omega)] at hent
    exact hle (hrear entry (mem_of_getElem? hent))
  | case3 low high hlt middle entry hent hgt ih =>
    rw [rankedInsertLoop, if_pos hlt]
    dsimp only
    rw [hent]
    dsimp only
    rw [if_neg hgt]
    refine ih hlow ?_ (by omega)
    by_contra! hmid
    rw [getElem?_append_left hmid] at hent
    exact hgt (hfr entry (mem_of_getElem? hent))
  | case4 low high hge =>
    rw [rankedInsertLoop, if_neg hge]
    omega

lemma swap_compareText (left right) : (compareText left right).swap = compareText right left := by
  unfold compareText
  split_ifs with hlt hgt <;> first | rfl | exact absurd hlt (lt_asymm hgt)

lemma swap_compareRankedSearchEntries (left right : RankedSearchEntry ε) :
    (compareRankedSearchEntries left right).swap = compareRankedSearchEntries right left := by
  unfold compareRankedSearchEntries
  rw [Ordering.swap_then, Ordering.swap_then, swap_compareText, ← Std.OrientedOrd.eq_swap, ← Std.OrientedOrd.eq_swap]

lemma spliced_eq (h : ranked.Pairwise fun left right => compareRankedSearchEntries left right ≠ .gt) (candidate) :
    ranked.take (rankedInsertIndex ranked candidate) ++ candidate :: ranked.drop (rankedInsertIndex ranked candidate) =
      insertBehind compareRankedSearchEntries candidate ranked := by
  have hcmp := compares_compareRankedSearchEntries (ε := ε)
  obtain ⟨front, rear, rfl, hfr, hrear⟩ := exists_split hcmp candidate
    (h.imp fun {left right} hle => (hcmp left right).1 hle)
  rw [rankedInsertIndex, rankedInsertLoop_split hfr hrear _ _ (Nat.zero_le _) (by simp) le_rfl, take_left,
    drop_left, insertBehind_append hfr hrear]

lemma insertRankedSearchResult_eq (limit : JsNumber)
    (hranked : ranked.Pairwise fun left right => compareRankedSearchEntries left right ≠ .gt)
    (hlen : ranked.length ≤ rankedCap limit) :
    (insertRankedSearchResult ranked candidate limit).1 =
      (insertBehind compareRankedSearchEntries candidate ranked).take (rankedCap limit) := by
  have hcmp := compares_compareRankedSearchEntries (ε := ε)
  unfold insertRankedSearchResult
  dsimp only
  by_cases hcap : rankedCap limit = 0
  · obtain rfl := eq_nil_of_length_eq_zero (hlen.trans_eq hcap |> Nat.eq_zero_of_le_zero)
    rw [if_pos hcap, hcap, take_zero]
  rw [if_neg hcap]
  by_cases hroom : ranked.length < rankedCap limit
  · rw [if_pos hroom]
    dsimp only
    rw [spliced_eq hranked, take_of_length_le (by rwa [length_insertBehind])]
  rw [if_neg hroom]
  rcases eq_nil_or_concat' ranked with rfl | ⟨front, last, rfl⟩
  · exact absurd (Nat.pos_of_ne_zero hcap) hroom
  rw [getLast?_concat]
  dsimp only
  obtain ⟨hfr, -, hlasts⟩ := pairwise_append.1 hranked
  split_ifs with hover
  · have hlast : compareRankedSearchEntries last candidate ≠ .gt := fun hgt => hover (by
      rw [← swap_compareRankedSearchEntries, hgt]
      rfl)
    have hall : ∀ entry ∈ front ++ [last], compareRankedSearchEntries entry candidate ≠ .gt := by
      rw [forall_mem_append, forall_mem_singleton]
      refine ⟨fun entry hent => ?_, hlast⟩
      exact (hcmp _ _).2 (((hcmp _ _).1 (hlasts entry hent last mem_cons_self)).trans
        ((hcmp _ _).1 hlast))
    have hbehind := insertBehind_append hall (forall_mem_nil _)
    rw [append_nil] at hbehind
    rw [hbehind, take_left' (by omega)]
  · have hlast : compareRankedSearchEntries last candidate = .gt := by
      rw [← swap_compareRankedSearchEntries, not_not.1 hover]
      rfl
    rw [length_append, length_singleton] at hlen hroom
    dsimp only
    rw [dropLast_concat, spliced_eq hfr, insertBehind_concat hlast,
      take_left' (by rw [length_insertBehind]; omega)]

lemma rankedCap_boundedLimit (limit : JsNumber) : rankedCap (.int (boundedLimit limit)) = boundedLimit limit := by
  have hle : boundedLimit limit ≤ 50 ∧ 1 ≤ boundedLimit limit := by
    unfold boundedLimit
    split
    · split_ifs with h
      · simp [JsNumber.safeAtLeast, maxThreadSearchResults] at *
        omega
      · decide
    · decide
  rw [rankedCap, if_pos, Int.toNat_natCast]
  have hmax : maxSafeInteger = 9007199254740991 := rfl
  simp [JsNumber.safeAtLeast, hmax]
  omega

lemma foldl_step (normalized : JsString) (limit : JsNumber) (docs : List AgentThreadSearchDocument) :
    let state := docs.foldl (SearchState.step normalized (boundedLimit limit)) {}
    let entries := docs.filterMap (rankedMatch normalized)
    state.ranked = (sort compareRankedSearchEntries entries).take (boundedLimit limit) ∧
      state.matching = entries.length := by
  induction docs using reverseRecOn with
  | nil => simp [sort]
  | append_singleton docs doc ih =>
    obtain ⟨hranked, hmatching⟩ := ih
    have hcmp := compares_compareRankedSearchEntries (ε := AgentThreadSearchMatch)
    rw [foldl_append, foldl_cons, foldl_nil, filterMap_append]
    generalize docs.foldl (SearchState.step normalized (boundedLimit limit)) {} = state at *
    unfold SearchState.step
    dsimp only
    cases hmatch : rankedMatch normalized doc with
    | none => simpa [hmatch] using ⟨hranked, hmatching⟩
    | some candidate =>
      simp only [filterMap_cons, hmatch, filterMap_nil, length_append, length_singleton]
      refine ⟨?_, by rw [hmatching]⟩
      have hsort := (pairwise_sort hcmp (docs.filterMap (rankedMatch normalized))).imp
        fun {left right} hle => (hcmp left right).2 hle
      rw [insertRankedSearchResult_eq, rankedCap_boundedLimit, hranked, ← take_insertBehind, sort_concat hcmp]
      · rw [hranked]
        exact hsort.sublist (take_sublist _ _)
      · rw [hranked, rankedCap_boundedLimit]
        exact length_take_le _ _

lemma exists_of_mem_matches {docs query normalized limit found}
    (hquery : normalizeThreadSearchQuery toLowerCase query = some normalized)
    (h : found ∈ (searchAgentThreadDocuments toLowerCase docs query limit).matches) :
    ∃ doc ∈ docs, bestDocumentMatch doc normalized = some found := by
  unfold searchAgentThreadDocuments at h
  rw [hquery] at h
  obtain ⟨entry, hent, rfl⟩ := mem_map.1 h
  rw [(foldl_step normalized limit docs).1] at hent
  obtain ⟨doc, hdoc, hmatch⟩ := mem_filterMap.1 (mem_sort.1 (mem_of_mem_take hent))
  obtain ⟨found, hget, rfl⟩ := Option.map_eq_some_iff.1 hmatch
  exact ⟨doc, hdoc, hget⟩

lemma bestDocumentMatch_content {doc query found} (h : bestDocumentMatch doc query = some found)
    (hsource : found.source ≠ .title) :
    ∃ candidate ∈ doc.segments, candidate.source ≠ .title ∧ ∃ index, indexOf candidate.lower query = some index ∧
      found = documentMatch doc candidate index query.length 400 := by
  unfold bestDocumentMatch at h
  split at h
  · cases h
  split_ifs at h with htitle
  split at h
  · obtain rfl := Option.some.inj h
    exact absurd (not_not.1 htitle) hsource
  · obtain ⟨candidate, hcand, hmatch⟩ := exists_of_findSome?_eq_some h
    split_ifs at hmatch with hcontent
    obtain ⟨index, hidx, rfl⟩ := Option.map_eq_some_iff.1 hmatch
    exact ⟨candidate, hcand, hcontent, index, hidx, rfl⟩

/-- **The ranking is that of all matches**, cut off: equal entries stand as their documents do. -/
theorem searchAgentThreadDocuments_ranked (docs : List AgentThreadSearchDocument) (query : JsString)
    (limit : JsNumber) :
    let result := searchAgentThreadDocuments toLowerCase docs query limit
    let entries := (normalizeThreadSearchQuery toLowerCase query).elim [] fun normalized =>
      docs.filterMap (rankedMatch normalized)
    result.matches = ((sort compareRankedSearchEntries entries).take (boundedLimit limit)).map (·.item) ∧
      (result.truncated ↔ boundedLimit limit < entries.length) := by
  dsimp only
  unfold searchAgentThreadDocuments
  cases normalizeThreadSearchQuery toLowerCase query with
  | none => simp [sort]
  | some normalized =>
    obtain ⟨hranked, hmatching⟩ := foldl_step normalized limit docs
    dsimp only [Option.elim_some]
    rw [hranked, hmatching]
    exact ⟨rfl, decide_eq_true_iff⟩

lemma documentsTruncated_foldl (normalized cap) (docs : List AgentThreadSearchDocument) (state : SearchState) :
    (docs.foldl (SearchState.step normalized cap) state).documentsTruncated =
      (state.documentsTruncated || docs.any (·.truncated)) := by
  induction docs generalizing state with
  | nil => exact (Bool.or_false _).symm
  | cons doc docs ih =>
    rw [foldl_cons, ih, any_cons, ← Bool.or_assoc]
    unfold SearchState.step
    dsimp only
    split <;> rfl

/-- **A search does not depend on the order of the threads**, which have ids of their own. -/
theorem searchAgentThreadDocuments_perm {docs docs' : List AgentThreadSearchDocument} (hperm : docs.Perm docs')
    (hids : (docs.map (·.threadId)).Nodup) (query : JsString) (limit : JsNumber) :
    searchAgentThreadDocuments toLowerCase docs query limit =
      searchAgentThreadDocuments toLowerCase docs' query limit := by
  unfold searchAgentThreadDocuments
  cases normalizeThreadSearchQuery toLowerCase query with
  | none => rfl
  | some normalized =>
    have hents := hperm.filterMap (rankedMatch normalized)
    have hsort := sort_eq_of_perm compares_compareRankedSearchEntries (fun a ha b hb hrank => by
      obtain ⟨doc, hdoc, hmatch⟩ := mem_filterMap.1 ha
      obtain ⟨doc', hdoc', hmatch'⟩ := mem_filterMap.1 hb
      have hkey : a.tieBreakKey = b.tieBreakKey := units_injective (congrArg (fun rank => rank.2.2) hrank)
      obtain ⟨found, hfnd, rfl⟩ := Option.map_eq_some_iff.1 hmatch
      obtain ⟨found', hfnd', rfl⟩ := Option.map_eq_some_iff.1 hmatch'
      obtain rfl := inj_on_of_nodup_map hids hdoc hdoc' hkey
      rw [hfnd] at hfnd'
      cases hfnd'
      rfl) hents
    obtain ⟨hranked, hmatching⟩ := foldl_step normalized limit docs
    obtain ⟨hranked', hmatching'⟩ := foldl_step normalized limit docs'
    have hany : docs.any (·.truncated) = docs'.any (·.truncated) := hperm.any_eq
    dsimp only
    rw [hranked, hranked', hmatching, hmatching', hsort, hents.length_eq, documentsTruncated_foldl,
      documentsTruncated_foldl, hany]

theorem searchAgentThreadDocuments_swap :
    let doc (id : String) : AgentThreadSearchDocument :=
      ⟨js id, 0, js "abc", [⟨.title, none, none, js "abc", js "abc"⟩], false⟩
    searchAgentThreadDocuments id [doc "a", doc "b"] (js "ab") (.int 10) =
      searchAgentThreadDocuments id [doc "b", doc "a"] (js "ab") (.int 10) :=
  searchAgentThreadDocuments_perm id (.swap _ _ _) (by decide) _ _

end CodevoEditor.Domain
