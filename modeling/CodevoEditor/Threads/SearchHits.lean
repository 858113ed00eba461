/-
# What a search of threads marks

`findInThread` and `buildAgentThreadSearchDocument` in `src/domain/agentThreadSearch.ts`.  What the
logs of turns are known to have lost is a parameter (`contentLost`).
-/

import CodevoEditor.Domain.ThreadSearch
import CodevoEditor.Threads.Runs

namespace CodevoEditor.Threads

open Js AgentEvents AgentOutput Domain List

def maxThreadSearchDocBytes : ℕ := 64 * 1024

def maxThreadSearchSegments : ℕ := 512

def maxThreadFindHits : ℕ := 500

inductive AgentThreadFindHit
  | turn (turnId : JsString) (eventIndex : Option ℕ) (start stop : ℕ)
  | imported (exchangeIndex start stop : ℕ)
  deriving DecidableEq

/-- `text.slice(start, stop)`. -/
def slice (text : JsString) (start stop : ℕ) : JsString := (text.take stop).drop start

def attachedImageLinePrefix : JsString := js "[Attached image \""

def attachedImageLineSeparator : JsString := js "\" is saved at: "

def isAttachedImagePromptLine (line : JsString) : Bool :=
  if ¬attachedImageLinePrefix <+: line then false
  else if ¬js "]" <:+ line then false
  else
    let body := slice line attachedImageLinePrefix.length (line.length - 1)
    match indexOf body attachedImageLineSeparator with
    | none => false
    | some separator =>
        separator ≠ 0 && !(body.take separator).contains 0x22 &&
          js "/" <+: body.drop (separator + attachedImageLineSeparator.length)

def agentPromptDisplayText (prompt : JsString) : JsString :=
  if ¬attachedImageLinePrefix <:+: prompt then prompt
  else
    let lines := prompt.splitOn 0x0A
    let kept := lines.filter (!isAttachedImagePromptLine ·)
    if kept.length = lines.length then prompt else ((js "\n").intercalate kept).rdropWhile (· = 0x0A)

variable (toLowerCase : JsString → JsString)

def segment (source : AgentThreadSearchSource) (turnId : Option JsString) (eventIndex : Option ℕ)
    (text : JsString) : AgentThreadSearchSegment :=
  { source, turnId, eventIndex, text, lower := toLowerCase text }

def eventSegment (turnId : JsString) (event : AgentTurnEvent) (eventIndex : ℕ) : Option AgentThreadSearchSegment :=
  match event with
  | .userMessage event => some (segment toLowerCase .user turnId eventIndex (agentPromptDisplayText event.text))
  | .assistantText event => some (segment toLowerCase .assistant turnId eventIndex event.text)
  | .result event => some (segment toLowerCase .assistant turnId eventIndex event.text)
  | _ => none

/-- `maxEventsPerTurn` is `none` for infinity. -/
def turnSegments (turn : AgentTurn) (maxEventsPerTurn : Option ℕ) : List AgentThreadSearchSegment :=
  let prompt := if turn.origin = some .background then [] else
    [segment toLowerCase .user turn.turnId none (agentPromptDisplayText turn.prompt)]
  let firstVisible := maxEventsPerTurn.elim 0 (turn.events.length - ·)
  prompt ++ turn.events.zipIdx.filterMap fun (event, index) =>
    if index < firstVisible then none else eventSegment toLowerCase turn.turnId event index

/-- The variables of the loops of `buildAgentThreadSearchDocument`. -/
structure Collected where
  segments : List AgentThreadSearchSegment
  bytes : ℕ
  stopped : Bool := false

def collectTurnSegments (collected : Collected) (candidate : AgentThreadSearchSegment) : Collected :=
  let size := utf8ByteLength candidate.text
  if collected.stopped then collected
  else if maxThreadSearchSegments ≤ collected.segments.length + 1 ∨ maxThreadSearchDocBytes < collected.bytes + size then
    { collected with stopped := true }
  else { collected with segments := collected.segments ++ [candidate], bytes := collected.bytes + size }

def buildAgentThreadSearchDocument (contentLost : AgentTurn → Bool) (thread : AgentThread) : AgentThreadSearchDocument :=
  let title := segment toLowerCase .title none none thread.title
  let outcome := thread.turns.reverse.foldl (fun (outcome : Collected × Bool) turn =>
    if outcome.1.stopped then outcome
    else ((turnSegments toLowerCase turn none).foldl collectTurnSegments outcome.1, outcome.2 || contentLost turn))
    ({ segments := [], bytes := utf8ByteLength title.text }, thread.turnsTruncated)
  { threadId := thread.threadId
    updatedAtEpochMs := thread.updatedAtEpochMs
    titleLower := title.lower
    segments := title :: outcome.1.segments
    truncated := outcome.2 || outcome.1.stopped }

/-- The positions of the query from `start` on, `room` of them at most. -/
def hitPositions (lower query : JsString) : ℕ → ℕ → List ℕ
  | 0, _ => []
  | room + 1, start =>
      match indexOf (lower.drop start) query with
      | none => []
      | some index => (start + index) :: hitPositions lower query room (start + index + query.length)

def collectFindHits (query : JsString) (hits : List AgentThreadFindHit) (candidate : AgentThreadSearchSegment) :
    List AgentThreadFindHit :=
  match candidate.turnId with
  | none => hits
  | some turnId => hits ++ (hitPositions candidate.lower query (maxThreadFindHits - hits.length) 0).map fun index =>
      .turn turnId candidate.eventIndex index (index + query.length)

def importedExchangeText (exchange : ExternalSessionExchange) : JsString :=
  match exchange.role with
  | .user => agentPromptDisplayText exchange.text
  | .assistant => exchange.text

def collectImportedFindHits (query : JsString) (hits : List AgentThreadFindHit) :
    ExternalSessionExchange × ℕ → List AgentThreadFindHit
  | (exchange, exchangeIndex) =>
      hits ++ (hitPositions (toLowerCase (importedExchangeText exchange)) query
        (maxThreadFindHits - hits.length) 0).map fun index => .imported exchangeIndex index (index + query.length)

def boundedEventCap (cap : Option JsNumber) : Option ℕ :=
  match cap with
  | some (.int cap) => if (JsNumber.int cap).safeAtLeast 0 then some cap.toNat else none
  | _ => none

/-- The loops go on where they return, and add nothing to hits that are full. -/
def findInThread (thread : AgentThread) (query : JsString) (maxEventsPerTurn : Option JsNumber) :
    List AgentThreadFindHit :=
  match normalizeThreadSearchQuery toLowerCase query with
  | none => []
  | some normalized =>
    let exchanges := ((thread.externalOrigin.bind (·.history)).map (·.exchanges)).getD []
    let imported := exchanges.zipIdx.foldl (collectImportedFindHits toLowerCase normalized) []
    (thread.turns.flatMap (turnSegments toLowerCase · (boundedEventCap maxEventsPerTurn))).foldl
      (collectFindHits normalized) imported

/-- A text whose parts are lower-cased as they stand in it, and in which no low surrogate is
directly behind a surrogate pair. -/
structure Markable (text : JsString) : Prop where
  parts : ∀ start stop, toLowerCase (slice text start stop) = slice (toLowerCase text) start stop
  paired : ∀ before, splitsPair (text.take (before + 1)) (text.drop (before + 1)) →
    text[before + 2]?.any isLowSurrogate = false

/-- A range of a text marks a query. -/
def Marks (query text : JsString) (start stop : ℕ) : Prop :=
  start ≤ stop ∧ stop ≤ text.length ∧ toLowerCase (slice text start stop) = query

/-- A snippet has the part of a text at the range that it reports, and is cut off the text
between code points. -/
def Shows (text : JsString) (start stop : ℕ) (shown : AgentThreadSearchSnippet) : Prop :=
  (∃ range, shown.ranges = [range] ∧ slice shown.snippet range.start range.stop = slice text start stop) ∧
  ∃ first last, shown.snippet = (if 0 < first then js "…" else []) ++ slice text first last ++
      (if last < text.length then js "…" else []) ∧
    splitsPair (text.take first) (text.drop first) = false ∧ splitsPair (text.take last) (text.drop last) = false

variable {toLowerCase} {text lower query : JsString} {start stop index : ℕ}

lemma slice_eq (text : JsString) (start count : ℕ) : slice text start (start + count) = (text.drop start).take count := by
  rw [slice, drop_take, Nat.add_sub_cancel_left]

lemma indexOf_spec (h : indexOf text query = some index) : query <+: text.drop index ∧ index ≤ text.length := by
  obtain ⟨hlt, hpre, -⟩ := findIdx?_eq_some_iff_getElem.1 h
  rw [getElem_tails, isPrefixOf_iff_prefix] at hpre
  rw [length_tails] at hlt
  exact ⟨hpre, Nat.le_of_lt_succ hlt⟩

lemma marks_of_prefix (h : Markable toLowerCase text) (hpre : query <+: (toLowerCase text).drop index)
    (hle : index ≤ (toLowerCase text).length) : Marks toLowerCase query text index (index + query.length) := by
  have hlen := congrArg length (h.parts 0 text.length)
  rw [slice, slice, take_length, drop_zero, drop_zero, length_take] at hlen
  have hin := hpre.length_le
  rw [length_drop] at hin
  refine ⟨Nat.le_add_right .., by omega, ?_⟩
  rw [h.parts, slice_eq]
  exact (prefix_iff_eq_take.1 hpre).symm

lemma hitPositions_spec (room) (hst : start ≤ lower.length) :
    ∀ index ∈ hitPositions lower query room start, query <+: lower.drop index ∧ index ≤ lower.length := by
  induction room generalizing start with
  | zero => exact nofun
  | succ room ih =>
    unfold hitPositions
    split
    case h_1 => exact nofun
    case h_2 index hidx =>
      obtain ⟨hpre, hle⟩ := indexOf_spec hidx
      rw [drop_drop] at hpre
      have hin := hpre.length_le
      rw [length_drop] at hle hin
      exact forall_mem_cons.2 ⟨⟨hpre, by omega⟩, ih (by omega)⟩

lemma startsWithLowSurrogate_drop (text : JsString) (index : ℕ) :
    startsWithLowSurrogate (text.drop index) = text[index]?.any isLowSurrogate := by
  rcases lt_or_ge index text.length with hlt | hge
  · rw [drop_eq_getElem_cons hlt, getElem?_eq_getElem hlt]
    rfl
  · rw [drop_eq_nil_of_le hge, getElem?_eq_none hge]
    rfl

lemma alignEnd_spec (hpos : 0 < stop) (hle : stop ≤ text.length) :
    splitsPair (text.take (alignEnd text stop)) (text.drop (alignEnd text stop)) = false ∧
      alignEnd text stop ≤ stop ∧ (alignEnd text stop = text.length ∨ stop < text.length ∧ stop ≤ alignEnd text stop + 1) := by
  obtain ⟨before, rfl⟩ := Nat.exists_eq_succ_of_ne_zero hpos.ne'
  unfold alignEnd splitsPair
  split_ifs with hend hhigh
  · rw [drop_length, startsWithLowSurrogate_nil, Bool.and_false]
    exact ⟨rfl, hend, .inl rfl⟩
  · rw [Nat.succ_sub_one, getElem?_eq_getElem hle] at hhigh
    rw [Nat.succ_sub_one, startsWithLowSurrogate_drop, getElem?_eq_getElem hle, Option.any_some,
      not_isLowSurrogate_of_isHighSurrogate hhigh, Bool.and_false]
    exact ⟨rfl, before.le_succ, .inr ⟨not_le.1 hend, le_rfl⟩⟩
  · rw [Nat.succ_sub_one, getElem?_eq_getElem hle, Option.all_some, Bool.not_eq_true] at hhigh
    rw [take_succ_eq_append_getElem hle, endsWithHighSurrogate, getLast?_concat, Option.any_some, hhigh,
      Bool.false_and]
    exact ⟨rfl, le_rfl, .inr ⟨not_le.1 hend, Nat.le_succ _⟩⟩

lemma alignStart_spec (h : Markable toLowerCase text) (hlt : start < text.length) :
    splitsPair (text.take (alignStart text start)) (text.drop (alignStart text start)) = false ∧
      alignStart text start ≤ start := by
  unfold alignStart
  rw [getElem?_eq_getElem hlt, Option.all_some]
  split_ifs with hlow
  · refine ⟨?_, Nat.sub_le ..⟩
    match start with
    | 0 | 1 => rfl
    | before + 2 =>
      refine Bool.eq_false_iff.2 fun hsplits => ?_
      have hpaired := h.paired before hsplits
      rw [getElem?_eq_getElem hlt, Option.any_some, hlow] at hpaired
      cases hpaired
  · rw [splitsPair, startsWithLowSurrogate_drop, getElem?_eq_getElem hlt, Option.any_some, Bool.eq_false_iff.2 hlow,
      Bool.and_false]
    exact ⟨rfl, le_rfl⟩

lemma clampRange_of_le {count bound} (h : start + count ≤ bound) : clampRange start count bound = ⟨start, start + count⟩ := by
  rw [clampRange, min_eq_left (by omega), min_eq_left h]

lemma slice_cut {first last count : ℕ} (before after : JsString) (hfst : first ≤ index) (hlast : index + count ≤ last)
    (hle : last ≤ text.length) :
    slice (before ++ slice text first last ++ after) (index + before.length - first)
      (index + before.length - first + count) = slice text index (index + count) := by
  have hcut : (slice text first last).length = last - first := by
    rw [slice, length_drop, length_take, min_eq_left hle]
  rw [slice_eq, slice_eq, show index + before.length - first = before.length + (index - first) by omega,
    ← drop_drop, append_assoc, drop_left, drop_append_of_le_length (by omega),
    take_append_of_le_length (by rw [length_drop]; omega), slice, drop_drop, Nat.add_sub_cancel' hfst,
    drop_take, take_take, min_eq_left (by omega)]

lemma threadSearchSnippet_shows (source : AgentThreadSearchSegment) (h : Markable toLowerCase source.text) {count : ℕ}
    (hcnt : count < maxThreadSearchSnippetChars) (hle : index + count ≤ source.text.length) :
    Shows source.text index (index + count) (threadSearchSnippet source index count) := by
  unfold threadSearchSnippet
  unfold maxThreadSearchSnippetChars at *
  dsimp only
  generalize source.text = text at *
  by_cases hsht : text.length ≤ 240
  · rw [if_pos hsht]
    refine ⟨⟨_, rfl, by rw [clampRange_of_le hle]⟩, 0, text.length, ?_, rfl, ?_⟩
    · rw [if_neg (lt_irrefl _), if_neg (lt_irrefl _), slice, take_length, drop_zero, nil_append,
        append_nil]
    · rw [drop_length, splitsPair, startsWithLowSurrogate_nil, Bool.and_false]
  · rw [if_neg hsht]
    obtain ⟨hend, hlast, hcases⟩ := alignEnd_spec (by omega)
      (min_le_right (index - (240 - count) / 2 + 240) text.length)
    generalize alignEnd text _ = last at *
    obtain ⟨hst, hfst⟩ := alignStart_spec h (show last - 240 < text.length by omega)
    generalize alignStart text _ = first at *
    refine ⟨⟨_, rfl, ?_⟩, first, last, rfl, hst, hend⟩
    rw [clampRange_of_le (by simp only [length_append, length_drop, length_take]; omega)]
    exact slice_cut _ _ (by omega) (by omega) (by omega)

lemma mem_turnSegments {turn maxEventsPerTurn candidate} (h : candidate ∈ turnSegments toLowerCase turn maxEventsPerTurn) :
    candidate ∈ turnSegments toLowerCase turn none ∧ candidate.lower = toLowerCase candidate.text := by
  unfold turnSegments at *
  dsimp only at *
  rw [mem_append] at h ⊢
  rcases h with h | h
  · refine ⟨.inl h, ?_⟩
    split_ifs at h
    · cases h
    · rw [mem_singleton.1 h]
      rfl
  · obtain ⟨⟨event, index⟩, hmem, hev⟩ := mem_filterMap.1 h
    dsimp only at hev
    split_ifs at hev
    refine ⟨.inr (mem_filterMap.2 ⟨_, hmem, (if_neg (Nat.not_lt_zero _)).trans hev⟩), ?_⟩
    unfold eventSegment at hev
    split at hev <;> cases hev <;> rfl

/-- Every text of a thread that is searched is markable. -/
def SearchesMarkable (toLowerCase : JsString → JsString) (thread : AgentThread) : Prop :=
  ∀ turn ∈ thread.turns, ∀ candidate ∈ turnSegments toLowerCase turn none, Markable toLowerCase candidate.text

/-- The hit is an imported one, or marks the query in a segment of a turn. -/
def HitMarks (toLowerCase : JsString → JsString) (thread : AgentThread) (query : JsString) : AgentThreadFindHit → Prop
  | .imported .. => True
  | .turn turnId eventIndex start stop => ∃ turn ∈ thread.turns, ∃ candidate ∈ turnSegments toLowerCase turn none,
      candidate.turnId = turnId ∧ candidate.eventIndex = eventIndex ∧
        Marks toLowerCase query candidate.text start stop

lemma findInThread_marks {thread normalized} (hquery : normalizeThreadSearchQuery toLowerCase query = some normalized)
    (h : SearchesMarkable toLowerCase thread) (maxEventsPerTurn) :
    ∀ hit ∈ findInThread toLowerCase thread query maxEventsPerTurn, HitMarks toLowerCase thread normalized hit := by
  unfold findInThread
  rw [hquery]
  dsimp only
  let AllMark (hits : List AgentThreadFindHit) : Prop := ∀ hit ∈ hits, HitMarks toLowerCase thread normalized hit
  refine foldlRecOn (motive := AllMark) _ _ ?_ ?_
  · refine foldlRecOn (motive := AllMark) _ _ nofun fun hits hhits pair _ hit hmem => ?_
    rcases mem_append.1 hmem with hmem | hmem
    · exact hhits hit hmem
    · obtain ⟨_, -, rfl⟩ := mem_map.1 hmem
      trivial
  · intro hits hhits candidate hcand hit hmem
    obtain ⟨turn, hturn, hcand⟩ := mem_flatMap.1 hcand
    obtain ⟨hseg, hlower⟩ := mem_turnSegments hcand
    unfold collectFindHits at hmem
    cases hturnId : candidate.turnId with
    | none => exact hhits hit (by rwa [hturnId] at hmem)
    | some turnId =>
      rw [hturnId] at hmem
      rcases mem_append.1 hmem with hmem | hmem
      · exact hhits hit hmem
      · obtain ⟨index, hidx, rfl⟩ := mem_map.1 hmem
        obtain ⟨hpre, hle⟩ := hitPositions_spec _ (Nat.zero_le _) index hidx
        rw [hlower] at hpre hle
        exact ⟨turn, hturn, candidate, hseg, hturnId, rfl, marks_of_prefix (h turn hturn candidate hseg) hpre hle⟩

lemma mem_segments_build {contentLost thread candidate}
    (h : candidate ∈ (buildAgentThreadSearchDocument toLowerCase contentLost thread).segments) :
    candidate.source = .title ∨ ∃ turn ∈ thread.turns, candidate ∈ turnSegments toLowerCase turn none := by
  rcases mem_cons.1 h with rfl | h
  · exact .inl rfl
  right
  revert h
  refine foldlRecOn (motive := fun outcome : Collected × Bool => candidate ∈ outcome.1.segments → _) _ _ nofun ?_
  intro outcome houtcome turn hturn
  split_ifs
  · exact houtcome
  refine foldlRecOn (motive := fun collected : Collected => candidate ∈ collected.segments → _) _ _ houtcome ?_
  intro collected hcoll other hoth
  unfold collectTurnSegments
  dsimp only
  split_ifs
  · exact hcoll
  · exact hcoll
  · intro hmem
    rcases mem_append.1 hmem with hmem | hmem
    · exact hcoll hmem
    · obtain rfl := mem_singleton.1 hmem
      exact ⟨turn, mem_reverse.1 hturn, hoth⟩

/-- A match marks the query in a segment, and shows it. -/
def MatchMarks (toLowerCase : JsString → JsString) (threads : List AgentThread) (query : JsString)
    (found : AgentThreadSearchMatch) : Prop :=
  ∃ thread ∈ threads, found.threadId = thread.threadId ∧ ∃ turn ∈ thread.turns,
    ∃ candidate ∈ turnSegments toLowerCase turn none, found.source = candidate.source ∧
      found.turnId = candidate.turnId ∧ found.eventIndex = candidate.eventIndex ∧
      Marks toLowerCase query candidate.text found.segmentStart found.segmentEnd ∧
      Shows candidate.text found.segmentStart found.segmentEnd found.toAgentThreadSearchSnippet

def asciiLower (text : JsString) : JsString :=
  text.map fun unit => if 0x41 ≤ unit && unit ≤ 0x5A then unit + 0x20 else unit

def searchedThread (prompt : JsString) : AgentThread :=
  let thread := sampleThread (js "t") (js "u") .interrupted
  { thread with turns := thread.turns.map ({ · with prompt }) }

/-- The capital I with a dot is one unit, and two in lower case. -/
def dottedLower (text : JsString) : JsString :=
  text.flatMap fun unit => if unit = 0x130 then [0x69, 0x307] else asciiLower [unit]

end CodevoEditor.Threads
