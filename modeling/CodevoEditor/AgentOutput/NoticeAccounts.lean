/-
# What the notice throttle lets through

`packages/agent-events/src/agentOutput/claudeNoticeThrottle.ts` over a whole stream.  `Books` are
kept of it: what came out, the retries that are held, and those that were left out.
-/

import CodevoEditor.AgentOutput.ClaudeNotices

namespace CodevoEditor.AgentOutput

open Js AgentEvents List OrderedMap

inductive FrameKind
  | unknown
  | malformed
  deriving DecidableEq

namespace FrameKind

def limit : FrameKind → ℕ
  | unknown => maxClaudeUnknownFrameTypes
  | malformed => maxClaudeMalformedFrameTypes

def overflowNotice : FrameKind → JsString
  | unknown => unknownFrameOverflowNotice
  | malformed => malformedFrameOverflowNotice

def budget (state : ClaudeNoticeThrottle) : FrameKind → ClaudeFrameNoticeBudget
  | unknown => state.unknownFrames
  | malformed => state.malformedFrames

/-- The class of a frame of the kind. -/
def noticeClass (frameType : JsString) : FrameKind → ClaudeNoticeClass
  | unknown => .unknownFrame frameType
  | malformed => .malformedFrame frameType

/-- The throttle with another budget for the kind. -/
def put (state : ClaudeNoticeThrottle) (budget : ClaudeFrameNoticeBudget) : FrameKind → ClaudeNoticeThrottle
  | unknown => { state with unknownFrames := budget }
  | malformed => { state with malformedFrames := budget }

end FrameKind

/-- An event that comes out, with the events it stands for. -/
inductive Emission
  | passed (event : AgentTurnEvent)
  | retries (earlier : List AgentTurnEvent) (last : AgentTurnEvent)
  | retryOverflow
  | frame (kind : FrameKind) (frameType : JsString) (event : AgentTurnEvent)
  | frameOverflow (kind : FrameKind)

namespace Emission

def event : Emission → AgentTurnEvent
  | passed event => event
  | retries earlier last => heldRetryNotice last (earlier.length + 1)
  | retryOverflow => claudeNoticeLine (js "Further Claude API retry notices omitted for this turn")
  | frame _ _ event => event
  | frameOverflow kind => claudeNoticeLine kind.overflowNotice

/-- The events of the stream that an emission stands for. -/
def sources : Emission → List AgentTurnEvent
  | passed event | frame _ _ event => [event]
  | retries earlier last => earlier ++ [last]
  | retryOverflow | frameOverflow _ => []

def retried : Emission → List AgentTurnEvent
  | retries earlier last => earlier ++ [last]
  | _ => []

def passedEvent : Emission → Option AgentTurnEvent
  | passed event => some event
  | _ => none

def isRetries : Emission → Bool
  | retries _ _ => true
  | _ => false

def isRetryOverflow : Emission → Bool
  | retryOverflow => true
  | _ => false

def frameTypeOf (kind : FrameKind) : Emission → Option JsString
  | frame kind' frameType _ => if kind' = kind then some frameType else none
  | _ => none

def isFrameOverflow (kind : FrameKind) : Emission → Bool
  | frameOverflow kind' => decide (kind' = kind)
  | _ => false

/-- An emission is of the class of the events it stands for. -/
def IsClassed : Emission → Prop
  | passed event => claudeNoticeClass event = none
  | retries earlier last => ∀ event ∈ earlier ++ [last], claudeNoticeClass event = some .apiRetry
  | frame kind frameType event => claudeNoticeClass event = some (kind.noticeClass frameType)
  | retryOverflow | frameOverflow _ => True

end Emission

def isRetry (event : AgentTurnEvent) : Bool := claudeNoticeClass event = some .apiRetry

def isOther (event : AgentTurnEvent) : Bool := claudeNoticeClass event = none

/-- What has come of the retries of a stream. -/
structure RetryBooks (state : ClaudeNoticeThrottle) (emitted : List Emission)
    (held omitted : List AgentTurnEvent) : Prop where
  lines : (emitted.filter Emission.isRetries).length = state.retryNotices
  lines_le : state.retryNotices ≤ maxClaudeRetryNotices
  heldRetry : state.heldRetry = held.getLast?
  heldCount : state.heldRetryCount = held.length
  room : held ≠ [] → state.retryNotices < maxClaudeRetryNotices
  full : omitted ≠ [] → state.retryNotices = maxClaudeRetryNotices
  overflow : (emitted.filter Emission.isRetryOverflow).length = if state.retryOverflowReported then 1 else 0
  covered : omitted ≠ [] ↔ state.retryOverflowReported

/-- What has come of the frames of one kind. -/
structure FrameBooks (kind : FrameKind) (budget : ClaudeFrameNoticeBudget) (emitted : List Emission) :
    Prop where
  types : emitted.filterMap (Emission.frameTypeOf kind) = budget.types.keys
  types_le : budget.types.size ≤ kind.limit
  overflow : (emitted.filter (Emission.isFrameOverflow kind)).length = if budget.overflowReported then 1 else 0

/-- The books of a stream: what came out of it, what is held, and the retries left out. -/
structure Books (events : List AgentTurnEvent) (state : ClaudeNoticeThrottle) (emitted : List Emission)
    (held omitted : List AgentTurnEvent) : Prop where
  classed : ∀ emission ∈ emitted, emission.IsClassed
  passed : emitted.filterMap Emission.passedEvent = events.filter isOther
  retried : emitted.flatMap Emission.retried ++ held ++ omitted = events.filter isRetry
  ordered : (emitted.flatMap Emission.sources ++ held).Sublist events
  retries : RetryBooks state emitted held omitted
  frames : ∀ kind, FrameBooks kind (kind.budget state) emitted

/-! ### One emission more -/

lemma books_new : Books [] {} [] [] [] := by
  refine ⟨fun _ h => absurd h not_mem_nil, rfl, rfl, nil_sublist _, ?_, fun kind => ?_⟩
  · have hnil {p : Prop} (h : ([] : List AgentTurnEvent) ≠ []) : p := absurd rfl h
    exact ⟨rfl, Nat.zero_le 8, rfl, rfl, hnil, hnil, rfl, ⟨hnil, nofun⟩⟩
  · cases kind <;> exact ⟨rfl, Nat.zero_le _, rfl⟩

section Steps

variable {events held omitted : List AgentTurnEvent} {state : ClaudeNoticeThrottle}
  {emitted : List Emission} {event : AgentTurnEvent}

lemma heldRetryNotice_one (event) : heldRetryNotice event 1 = event := by
  cases event <;> rfl

variable {emission : Emission}

lemma FrameBooks.append {kind} {budget}
    (h : FrameBooks kind budget emitted) (htype : emission.frameTypeOf kind = none)
    (hoverflow : emission.isFrameOverflow kind = false) :
    FrameBooks kind budget (emitted ++ [emission]) := by
  refine ⟨?_, h.types_le, ?_⟩
  · rw [filterMap_append, h.types, filterMap_cons_none htype, filterMap_nil, append_nil]
  · rw [filter_append, filter_cons_of_neg (by rw [hoverflow]; decide), filter_nil, append_nil, h.overflow]

lemma RetryBooks.append (h : RetryBooks state emitted held omitted)
    (hretries : emission.isRetries = false) (hoverflow : emission.isRetryOverflow = false) :
    RetryBooks state (emitted ++ [emission]) held omitted := by
  refine ⟨?_, h.lines_le, h.heldRetry, h.heldCount, h.room, h.full, ?_, h.covered⟩
  · rw [filter_append, filter_cons_of_neg (by rw [hretries]; decide), filter_nil, append_nil, h.lines]
  · rw [filter_append, filter_cons_of_neg (by rw [hoverflow]; decide), filter_nil, append_nil, h.overflow]

lemma classed_append (h : ∀ emission ∈ emitted, emission.IsClassed)
    (hemit : emission.IsClassed) : ∀ e ∈ emitted ++ [emission], e.IsClassed := by
  intro e he
  rcases mem_append.1 he with he | he
  · exact h e he
  · rw [mem_singleton.1 he]
    exact hemit

lemma Books.omitted_eq_nil (h : Books events state emitted held omitted) (hheld : held ≠ []) : omitted = [] := by
  by_contra homit
  have hroom := h.retries.room hheld
  have hfull := h.retries.full homit
  omega

theorem Books.flush (h : Books events state emitted held omitted) :
    ∃ added, added.map Emission.event = (flushClaudeNotices (some state)).2 ∧
      Books events (flushClaudeNotices (some state)).1 (emitted ++ added) [] omitted := by
  rcases eq_nil_or_concat' held with rfl | ⟨earlier, last, rfl⟩
  · have hnone : state.heldRetry = none := h.retries.heldRetry
    have hflush : flushClaudeNotices (some state) = (state, []) := by
      unfold flushClaudeNotices
      dsimp only [Option.getD_some]
      rw [hnone]
    rw [hflush]
    refine ⟨[], rfl, ?_⟩
    rw [append_nil]
    exact h
  · have homit := h.omitted_eq_nil (append_ne_nil_of_right_ne_nil earlier (cons_ne_nil last []))
    have hroom := h.retries.room (append_ne_nil_of_right_ne_nil earlier (cons_ne_nil last []))
    have hsome : state.heldRetry = some last := h.retries.heldRetry.trans getLast?_concat
    have hcnt : state.heldRetryCount = earlier.length + 1 := h.retries.heldCount.trans length_append
    have hflush : flushClaudeNotices (some state) =
        ({ state with heldRetry := none, heldRetryCount := 0, retryNotices := state.retryNotices + 1 },
          [heldRetryNotice last (earlier.length + 1)]) := by
      unfold flushClaudeNotices
      dsimp only [Option.getD_some]
      rw [hsome, hcnt]
    have hclassed : (Emission.retries earlier last).IsClassed := by
      intro event hev
      have hmem : event ∈ events.filter isRetry := by
        rw [← h.retried]
        exact mem_append_left _ (mem_append_right _ hev)
      exact of_decide_eq_true (mem_filter.1 hmem).2
    rw [hflush]
    refine ⟨[.retries earlier last], rfl, classed_append h.classed hclassed, ?_, ?_, ?_, ?_, fun kind => ?_⟩
    · rw [filterMap_append, h.passed, filterMap_cons_none rfl, filterMap_nil, append_nil]
    · rw [← h.retried, flatMap_append, flatMap_singleton, append_nil]
      rfl
    · rw [flatMap_append, flatMap_singleton, append_nil]
      exact h.ordered
    · subst homit
      refine ⟨?_, Nat.succ_le_of_lt hroom, rfl, rfl, fun h => absurd rfl h, fun h => absurd rfl h, ?_, ?_⟩
      · rw [filter_append, length_append, h.retries.lines]
        rfl
      · rw [filter_append, length_append, h.retries.overflow]
        rfl
      · exact h.retries.covered
    · cases kind
      · exact (h.frames .unknown).append rfl rfl
      · exact (h.frames .malformed).append rfl rfl

lemma filter_isRetry_of_not (h : isRetry event = false) :
    (events ++ [event]).filter isRetry = events.filter isRetry := by
  rw [filter_append, filter_cons_of_neg (by rw [h]; decide), filter_nil, append_nil]

lemma filter_isOther_of_not (h : isOther event = false) :
    (events ++ [event]).filter isOther = events.filter isOther := by
  rw [filter_append, filter_cons_of_neg (by rw [h]; decide), filter_nil, append_nil]

lemma Books.pass (h : Books events state emitted [] omitted) (hclass : claudeNoticeClass event = none) :
    Books (events ++ [event]) state (emitted ++ [.passed event]) [] omitted := by
  have hretry : isRetry event = false := decide_eq_false (by rw [hclass]; nofun)
  have hoth : isOther event := decide_eq_true hclass
  refine ⟨classed_append h.classed hclass, ?_, ?_, ?_, h.retries.append rfl rfl, fun kind => ?_⟩
  · rw [filterMap_append, h.passed, filter_append, filter_cons_of_pos hoth]
    rfl
  · rw [filter_isRetry_of_not hretry, ← h.retried, flatMap_append, flatMap_singleton]
    exact congrArg (fun l => l ++ [] ++ omitted) (append_nil _)
  · rw [flatMap_append, flatMap_singleton, append_nil]
    have hord := h.ordered
    rw [append_nil] at hord
    exact hord.append (.refl _)
  · exact (h.frames kind).append rfl rfl

lemma filter_isRetry_append (hclass : claudeNoticeClass event = some .apiRetry) :
    (events ++ [event]).filter isRetry = events.filter isRetry ++ [event] := by
  have hretry : isRetry event := decide_eq_true hclass
  rw [filter_append, filter_cons_of_pos hretry, filter_nil]

lemma isOther_of_class {noticeClass} (hclass : claudeNoticeClass event = some noticeClass) :
    isOther event = false := decide_eq_false (by rw [hclass]; nofun)

lemma Books.firstRetry (h : Books events state emitted [] omitted) (hnone : state.retryNotices = 0)
    (hclass : claudeNoticeClass event = some .apiRetry) :
    Books (events ++ [event]) { state with retryNotices := 1 } (emitted ++ [.retries [] event]) [] omitted := by
  have homit : omitted = [] := by
    by_contra homit
    have hfull := h.retries.full homit
    rw [hnone] at hfull
    cases hfull
  subst homit
  have hretried := h.retried
  have hord := h.ordered
  rw [append_nil] at hord
  rw [append_nil, append_nil] at hretried
  refine ⟨classed_append h.classed ?_, ?_, ?_, ?_, ?_, fun kind => ?_⟩
  · intro event' hev
    rw [nil_append, mem_singleton] at hev
    exact hev ▸ hclass
  · rw [filter_isOther_of_not (isOther_of_class hclass), ← h.passed, filterMap_append,
      filterMap_cons_none rfl, filterMap_nil, append_nil]
  · rw [filter_isRetry_append hclass, ← hretried, append_nil, append_nil, flatMap_append,
      flatMap_singleton]
    rfl
  · rw [append_nil, flatMap_append, flatMap_singleton]
    exact hord.append (.refl _)
  · have hle : 1 ≤ maxClaudeRetryNotices := by decide
    refine ⟨?_, hle, h.retries.heldRetry, h.retries.heldCount, fun h => absurd rfl h,
      fun h => absurd rfl h, ?_, h.retries.covered⟩
    · rw [filter_append, length_append, h.retries.lines, hnone]
      rfl
    · rw [filter_append, length_append, h.retries.overflow]
      rfl
  · cases kind
    · exact (h.frames .unknown).append rfl rfl
    · exact (h.frames .malformed).append rfl rfl

lemma Books.hold (h : Books events state emitted held omitted)
    (hroom : state.retryNotices < maxClaudeRetryNotices)
    (hclass : claudeNoticeClass event = some .apiRetry) :
    Books (events ++ [event])
      { state with heldRetry := some event, heldRetryCount := state.heldRetryCount + 1 } emitted
      (held ++ [event]) omitted := by
  have homit : omitted = [] := by
    by_contra homit
    have hfull := h.retries.full homit
    omega
  subst homit
  have hretried := h.retried
  rw [append_nil] at hretried
  refine ⟨h.classed, ?_, ?_, ?_, ?_, fun kind => ?_⟩
  · rw [filter_isOther_of_not (isOther_of_class hclass), h.passed]
  · rw [filter_isRetry_append hclass, ← hretried, append_nil, append_assoc]
  · rw [← append_assoc]
    exact h.ordered.append (.refl _)
  · refine ⟨h.retries.lines, h.retries.lines_le, getLast?_concat.symm, ?_, fun _ => hroom,
      fun h => absurd rfl h, h.retries.overflow, h.retries.covered⟩
    rw [length_append, h.retries.heldCount]
    rfl
  · cases kind
    · exact h.frames .unknown
    · exact h.frames .malformed

lemma Books.omit (h : Books events state emitted [] omitted)
    (hfull : maxClaudeRetryNotices ≤ state.retryNotices)
    (hclass : claudeNoticeClass event = some .apiRetry) :
    ∃ added, added.map Emission.event = (retryOverflow state).2 ∧
      Books (events ++ [event]) (retryOverflow state).1 (emitted ++ added) [] (omitted ++ [event]) := by
  have hlines : state.retryNotices = maxClaudeRetryNotices := le_antisymm h.retries.lines_le hfull
  have hretried := h.retried
  have hord := h.ordered
  rw [append_nil] at hord
  rw [append_nil] at hretried
  have hfilter : emitted.flatMap Emission.retried ++ (omitted ++ [event]) = (events ++ [event]).filter isRetry := by
    rw [filter_isRetry_append hclass, ← hretried, append_assoc]
  have hpassed : emitted.filterMap Emission.passedEvent = (events ++ [event]).filter isOther := by
    rw [filter_isOther_of_not (isOther_of_class hclass), h.passed]
  unfold retryOverflow
  by_cases hrep : state.retryOverflowReported
  · rw [if_pos hrep]
    refine ⟨[], rfl, ?_⟩
    rw [append_nil]
    refine ⟨h.classed, hpassed, ?_, ?_, ?_, h.frames⟩
    · rw [append_nil]
      exact hfilter
    · rw [append_nil]
      exact hord.trans (sublist_append_left _ _)
    · exact ⟨h.retries.lines, h.retries.lines_le, h.retries.heldRetry, h.retries.heldCount,
        h.retries.room, fun _ => hlines, h.retries.overflow,
        ⟨fun _ => hrep, fun _ => append_ne_nil_of_right_ne_nil _ (cons_ne_nil _ _)⟩⟩
  · rw [if_neg hrep]
    refine ⟨[.retryOverflow], rfl, classed_append h.classed trivial, ?_, ?_, ?_, ?_, fun kind => ?_⟩
    · rw [filterMap_append, filterMap_cons_none rfl, filterMap_nil, append_nil, hpassed]
    · rw [append_nil, flatMap_append, flatMap_singleton]
      exact (congrArg (· ++ (omitted ++ [event])) (append_nil _)).trans hfilter
    · rw [append_nil, flatMap_append, flatMap_singleton]
      refine .trans ?_ (hord.trans (sublist_append_left _ _))
      exact (append_nil _).symm ▸ .refl _
    · refine ⟨?_, h.retries.lines_le, h.retries.heldRetry, h.retries.heldCount, h.retries.room,
        fun _ => hlines, ?_, ⟨fun _ => rfl, fun _ => ?_⟩⟩
      · rw [filter_append, length_append, h.retries.lines]
        rfl
      · rw [filter_append, length_append, h.retries.overflow, if_neg hrep]
        rfl
      · exact append_ne_nil_of_right_ne_nil _ (cons_ne_nil _ _)
    · cases kind
      · exact (h.frames .unknown).append rfl rfl
      · exact (h.frames .malformed).append rfl rfl

/-- **A retry comes out, is held, or is left out.** -/
theorem Books.retry (h : Books events state emitted held omitted)
    (hclass : claudeNoticeClass event = some .apiRetry) :
    ∃ added held' omitted', added.map Emission.event = (throttleRetry state event).2 ∧
      Books (events ++ [event]) (throttleRetry state event).1 (emitted ++ added) held' omitted' := by
  have hheld : state.heldRetry = none ↔ held = [] := by rw [h.retries.heldRetry, getLast?_eq_none_iff]
  unfold throttleRetry
  by_cases hfst : state.retryNotices = 0 ∧ state.heldRetry = none
  · rw [if_pos hfst]
    obtain rfl := hheld.1 hfst.2
    refine ⟨[.retries [] event], [], omitted, ?_, h.firstRetry hfst.1 hclass⟩
    exact congrArg (· :: []) (heldRetryNotice_one event)
  rw [if_neg hfst]
  by_cases hfull : state.heldRetry = none ∧ maxClaudeRetryNotices ≤ state.retryNotices
  · rw [if_pos hfull]
    obtain rfl := hheld.1 hfull.1
    obtain ⟨added, hmap, hbooks⟩ := h.omit hfull.2 hclass
    exact ⟨added, [], omitted ++ [event], hmap, hbooks⟩
  · rw [if_neg hfull]
    have hroom : state.retryNotices < maxClaudeRetryNotices := by
      by_cases hnil : held = []
      · have hnot : ¬ maxClaudeRetryNotices ≤ state.retryNotices := fun hle => hfull ⟨hheld.2 hnil, hle⟩
        omega
      · exact h.retries.room hnil
    refine ⟨[], held ++ [event], omitted, rfl, ?_⟩
    rw [append_nil]
    exact h.hold hroom hclass

variable {kind : FrameKind} {frameType : JsString} {budget : ClaudeFrameNoticeBudget}

lemma RetryBooks.put (h : RetryBooks state emitted held omitted) (kind : FrameKind)
    (budget) : RetryBooks (kind.put state budget) emitted held omitted := by
  cases kind <;>
    exact ⟨h.lines, h.lines_le, h.heldRetry, h.heldCount, h.room, h.full, h.overflow, h.covered⟩

lemma FrameKind.budget_put (kind') :
    kind'.budget (kind.put state budget) = if kind' = kind then budget else kind'.budget state := by
  cases kind <;> cases kind' <;> rfl

lemma FrameBooks.put (h : ∀ kind, FrameBooks kind (kind.budget state) emitted)
    (hemit : emission = .frame kind frameType event ∨ emission = .frameOverflow kind)
    (hfrm : FrameBooks kind budget (emitted ++ [emission])) (kind') :
    FrameBooks kind' (kind'.budget (kind.put state budget)) (emitted ++ [emission]) := by
  rw [FrameKind.budget_put]
  by_cases hkind : kind' = kind
  · rw [if_pos hkind, hkind]
    exact hfrm
  · rw [if_neg hkind]
    rcases hemit with rfl | rfl
    · exact (h kind').append (if_neg (Ne.symm hkind)) rfl
    · exact (h kind').append rfl (decide_eq_false (Ne.symm hkind))

lemma isRetry_of_frame (hclass : claudeNoticeClass event = some (kind.noticeClass frameType)) :
    isRetry event = false := by
  refine decide_eq_false ?_
  rw [hclass]
  cases kind <;> nofun

lemma Books.framed (h : Books events state emitted [] omitted)
    (hclass : claudeNoticeClass event = some (kind.noticeClass frameType))
    (hemit : emission = .frame kind frameType event ∨ emission = .frameOverflow kind)
    (hfrm : FrameBooks kind budget (emitted ++ [emission])) :
    Books (events ++ [event]) (kind.put state budget) (emitted ++ [emission]) [] omitted := by
  have hord := h.ordered
  rw [append_nil] at hord
  have hpassed : emission.passedEvent = none := by rcases hemit with rfl | rfl <;> rfl
  have hretried : emission.retried = [] := by rcases hemit with rfl | rfl <;> rfl
  have hsources : emission.sources.Sublist [event] := by
    rcases hemit with rfl | rfl
    · exact .refl _
    · exact nil_sublist _
  refine ⟨classed_append h.classed ?_, ?_, ?_, ?_, ?_, FrameBooks.put h.frames hemit hfrm⟩
  · rcases hemit with rfl | rfl
    · exact hclass
    · trivial
  · rw [filter_isOther_of_not (isOther_of_class hclass), ← h.passed, filterMap_append,
      filterMap_cons_none hpassed, filterMap_nil, append_nil]
  · rw [filter_isRetry_of_not (isRetry_of_frame hclass), ← h.retried, flatMap_append,
      flatMap_singleton, hretried, append_nil]
  · rw [append_nil, flatMap_append, flatMap_singleton]
    exact hord.append hsources
  · refine (h.retries.put kind budget).append ?_ ?_
    · rcases hemit with rfl | rfl <;> rfl
    · rcases hemit with rfl | rfl <;> rfl

lemma Books.unshown (h : Books events state emitted [] omitted)
    (hclass : claudeNoticeClass event = some (kind.noticeClass frameType)) :
    Books (events ++ [event]) (kind.put state (kind.budget state)) emitted [] omitted := by
  have hput : kind.put state (kind.budget state) = state := by cases kind <;> rfl
  rw [hput]
  refine ⟨h.classed, ?_, ?_, h.ordered.trans (sublist_append_left _ _), h.retries, h.frames⟩
  · rw [filter_isOther_of_not (isOther_of_class hclass), h.passed]
  · rw [filter_isRetry_of_not (isRetry_of_frame hclass), h.retried]

/-- **A frame comes out within the budget of its kind.** -/
theorem Books.frame (h : Books events state emitted [] omitted)
    (hclass : claudeNoticeClass event = some (kind.noticeClass frameType)) :
    ∃ added, added.map Emission.event =
        frameEvents (budgetFrame (kind.budget state) frameType kind.limit).2 event kind.overflowNotice ∧
      Books (events ++ [event]) (kind.put state (budgetFrame (kind.budget state) frameType kind.limit).1)
        (emitted ++ added) [] omitted := by
  have hbooks := h.frames kind
  unfold budgetFrame
  by_cases hshn : (kind.budget state).types.has frameType
  · rw [if_pos hshn]
    refine ⟨[], rfl, ?_⟩
    rw [append_nil]
    exact h.unshown hclass
  rw [if_neg hshn]
  by_cases hroom : (kind.budget state).types.size < kind.limit
  · rw [if_pos hroom]
    have hnew : frameType ∉ (kind.budget state).types.keys := fun hmem =>
      hshn ((has_eq _ _).trans (mem_keys_iff.1 hmem))
    refine ⟨[.frame kind frameType event], rfl, h.framed hclass (.inl rfl) ⟨?_, ?_, ?_⟩⟩
    · rw [filterMap_append, hbooks.types, keys_set_of_not_has hnew]
      exact congrArg (_ ++ ·) (filterMap_cons_some (if_pos rfl))
    · refine le_trans ?_ (Nat.succ_le_of_lt hroom)
      rw [← length_keys, keys_set_of_not_has hnew, length_append, length_keys]
      exact le_rfl
    · rw [filter_append, length_append, hbooks.overflow]
      rfl
  rw [if_neg hroom]
  by_cases hrep : (kind.budget state).overflowReported
  · rw [if_pos hrep]
    refine ⟨[], rfl, ?_⟩
    rw [append_nil]
    exact h.unshown hclass
  · rw [if_neg hrep]
    refine ⟨[.frameOverflow kind], rfl, h.framed hclass (.inr rfl) ⟨?_, hbooks.types_le, ?_⟩⟩
    · rw [filterMap_append, hbooks.types]
      exact append_nil _
    · have hsaid : (Emission.frameOverflow kind).isFrameOverflow kind := decide_eq_true rfl
      rw [filter_append, length_append, hbooks.overflow, if_neg hrep, filter_cons_of_pos hsaid]
      rfl

theorem Books.step (h : Books events state emitted held omitted) (event) :
    ∃ added held' omitted', added.map Emission.event = (throttleEvent state event).2 ∧
      Books (events ++ [event]) (throttleEvent state event).1 (emitted ++ added) held' omitted' := by
  obtain ⟨flushed, hflushed, hbooks⟩ := h.flush
  unfold throttleEvent
  cases hclass : claudeNoticeClass event with
  | none =>
    refine ⟨flushed ++ [.passed event], [], omitted, ?_, ?_⟩
    · rw [map_append, hflushed]
      rfl
    · rw [← append_assoc]
      exact hbooks.pass hclass
  | some noticeClass =>
    cases noticeClass with
    | apiRetry => exact h.retry hclass
    | unknownFrame frameType =>
      have hkind : claudeNoticeClass event = some (FrameKind.unknown.noticeClass frameType) := hclass
      obtain ⟨added, hadded, hfrm⟩ := hbooks.frame hkind
      refine ⟨flushed ++ added, [], omitted, ?_, ?_⟩
      · rw [map_append, hflushed, hadded]
        rfl
      · rw [← append_assoc]
        exact hfrm
    | malformedFrame frameType =>
      have hkind : claudeNoticeClass event = some (FrameKind.malformed.noticeClass frameType) := hclass
      obtain ⟨added, hadded, hfrm⟩ := hbooks.frame hkind
      refine ⟨flushed ++ added, [], omitted, ?_, ?_⟩
      · rw [map_append, hflushed, hadded]
        rfl
      · rw [← append_assoc]
        exact hfrm

lemma Books.batch (h : Books events state emitted held omitted) (batch) :
    ∃ added held' omitted', added.map Emission.event = (throttleClaudeNotices (some state) batch).2 ∧
      Books (events ++ batch) (throttleClaudeNotices (some state) batch).1 (emitted ++ added) held' omitted' := by
  -- what came out before stays in front
  have hfold batch : ∀ {events state emitted held omitted},
      Books events state emitted held omitted → ∀ out : List AgentTurnEvent,
      ∃ added held' omitted', out ++ added.map Emission.event = (batch.foldl (fun throttled event =>
          let step := throttleEvent throttled.1 event
          (step.1, throttled.2 ++ step.2)) (state, out)).2 ∧
        Books (events ++ batch) (batch.foldl (fun throttled event =>
          let step := throttleEvent throttled.1 event
          (step.1, throttled.2 ++ step.2)) (state, out)).1 (emitted ++ added) held' omitted' := by
    induction batch with
    | nil =>
      intro events state emitted held omitted h out
      refine ⟨[], held, omitted, append_nil out, ?_⟩
      rw [append_nil, append_nil]
      exact h
    | cons event batch ih =>
      intro events state emitted held omitted h out
      obtain ⟨added, held', omitted', hmap, hbooks⟩ := h.step event
      obtain ⟨rest, held'', omitted'', hrest, hbooks'⟩ := ih hbooks (out ++ (throttleEvent state event).2)
      refine ⟨added ++ rest, held'', omitted'', ?_, ?_⟩
      · rw [foldl_cons, ← hrest, map_append, hmap, append_assoc]
      · rw [foldl_cons, ← append_assoc, append_cons]
        exact hbooks'
  obtain ⟨added, held', omitted', hmap, hbooks⟩ := hfold batch h []
  exact ⟨added, held', omitted', hmap, hbooks⟩

end Steps

/-- Batch after batch, and the flush at the end. -/
def throttleFrom (previous : Option ClaudeNoticeThrottle) : List (List AgentTurnEvent) → List AgentTurnEvent
  | [] => (flushClaudeNotices previous).2
  | batch :: batches =>
      let step := throttleClaudeNotices previous batch
      step.2 ++ throttleFrom (some step.1) batches

def throttleBatches (batches : List (List AgentTurnEvent)) : List AgentTurnEvent := throttleFrom none batches

/-- **Any batching of a stream has books**, with nothing held at the end. -/
theorem exists_books (batches) :
    ∃ state emitted omitted, emitted.map Emission.event = throttleBatches batches ∧
      Books batches.flatten state emitted [] omitted := by
  have hfrom batches : ∀ {events emitted held omitted}
      (previous : Option ClaudeNoticeThrottle), Books events (previous.getD {}) emitted held omitted →
      ∃ state added omitted', added.map Emission.event = throttleFrom previous batches ∧
        Books (events ++ batches.flatten) state (emitted ++ added) [] omitted' := by
    induction batches with
    | nil =>
      intro events emitted held omitted previous h
      obtain ⟨added, hadded, hbooks⟩ := h.flush
      refine ⟨(flushClaudeNotices previous).1, added, omitted, hadded, ?_⟩
      rw [flatten_nil, append_nil]
      exact hbooks
    | cons batch batches ih =>
      intro events emitted held omitted previous h
      obtain ⟨added, held', omitted', hadded, hbooks⟩ := h.batch batch
      obtain ⟨state, rest, omitted'', hrest, hbooks'⟩ := ih (some (throttleClaudeNotices previous batch).1) hbooks
      refine ⟨state, added ++ rest, omitted'', ?_, ?_⟩
      · rw [map_append, hadded, hrest]
        rfl
      · rw [flatten_cons, ← append_assoc, ← append_assoc]
        exact hbooks'
  exact hfrom batches none books_new

lemma throttleEvent_flushes (state) (event)
    (hclass : claudeNoticeClass event ≠ some .apiRetry) :
    (throttleEvent state event).1.heldRetry = none ∧
      (flushClaudeNotices (some state)).2 <+: (throttleEvent state event).2 := by
  have hflushed : (flushClaudeNotices (some state)).1.heldRetry = none := by
    unfold flushClaudeNotices
    dsimp only [Option.getD_some]
    split
    · assumption
    · rfl
  unfold throttleEvent
  cases hnotice : claudeNoticeClass event with
  | none => exact ⟨hflushed, prefix_append _ _⟩
  | some noticeClass =>
    cases noticeClass with
    | apiRetry => exact absurd hnotice hclass
    | unknownFrame frameType => exact ⟨hflushed, prefix_append _ _⟩
    | malformedFrame frameType => exact ⟨hflushed, prefix_append _ _⟩

/-- **What comes out of any batching of a stream**: each line stands for events of the stream, in
order, a retry that is left out is told of, and each kind of line keeps to its budget. -/
theorem throttled_accounts (batches : List (List AgentTurnEvent)) :
    (∃ (emitted : List Emission) (omitted : List AgentTurnEvent),
      emitted.map Emission.event = throttleBatches batches ∧
      (∀ emission ∈ emitted, emission.IsClassed) ∧
      emitted.filterMap Emission.passedEvent = batches.flatten.filter isOther ∧
      (emitted.flatMap Emission.sources).Sublist batches.flatten ∧
      emitted.flatMap Emission.retried ++ omitted = batches.flatten.filter isRetry ∧
      (omitted ≠ [] → Emission.retryOverflow ∈ emitted) ∧
      (emitted.filter Emission.isRetries).length ≤ maxClaudeRetryNotices ∧
      (emitted.filter Emission.isRetryOverflow).length ≤ 1 ∧
      ∀ kind, (emitted.filterMap (Emission.frameTypeOf kind)).Nodup ∧
        (emitted.filterMap (Emission.frameTypeOf kind)).length ≤ kind.limit ∧
        (emitted.filter (Emission.isFrameOverflow kind)).length ≤ 1) ∧
    ∀ state event, claudeNoticeClass event ≠ some .apiRetry →
      (throttleEvent state event).1.heldRetry = none ∧
        (flushClaudeNotices (some state)).2 <+: (throttleEvent state event).2 := by
  refine ⟨?_, throttleEvent_flushes⟩
  obtain ⟨state, emitted, omitted, hmap, hbooks⟩ := exists_books batches
  have hord := hbooks.ordered
  have hretried := hbooks.retried
  rw [append_nil] at hord hretried
  have hone reported : (if reported = true then 1 else 0) ≤ 1 := by
    split <;> omega
  refine ⟨emitted, omitted, hmap, hbooks.classed, hbooks.passed, hord, hretried, ?_, ?_, ?_, fun kind => ?_⟩
  · intro homit
    have hlen := hbooks.retries.overflow
    rw [if_pos (hbooks.retries.covered.1 homit)] at hlen
    obtain ⟨emission, hemit⟩ := exists_mem_of_length_pos (hlen ▸ Nat.one_pos)
    obtain ⟨hmem, hoverflow⟩ := mem_filter.1 hemit
    cases emission with
    | retryOverflow => exact hmem
    | passed event => cases hoverflow
    | retries earlier last => cases hoverflow
    | frame kind frameType event => cases hoverflow
    | frameOverflow kind => cases hoverflow
  · rw [hbooks.retries.lines]
    exact hbooks.retries.lines_le
  · rw [hbooks.retries.overflow]
    exact hone _
  · obtain ⟨htypes, htypes_le, hoverflow⟩ := hbooks.frames kind
    rw [htypes, hoverflow, length_keys]
    exact ⟨(kind.budget state).types.nodup, htypes_le, hone _⟩

lemma boundUtf8Text_ascii {text} {maxBytes} (h : ∀ unit ∈ text, 0 < unit ∧ unit < 0x80) :
    (boundUtf8Text text maxBytes).1 = text.take maxBytes := by
  have hfilter : text.filter (· ≠ 0) = text := filter_eq_self.2 fun unit hunit =>
    decide_eq_true fun hzero => by
      have hpos := (h unit hunit).1
      rw [hzero] at hpos
      exact absurd hpos (by decide)
  change clipUtf8 (text.filter (· ≠ 0)) maxBytes = _
  rw [hfilter, clipUtf8_ascii fun unit hunit => (h unit hunit).2]

section StdoutLine

variable (text : JsString)

/-- A line that Claude wrote on its standard output. -/
def stdoutLine : AgentTurnEvent := .unknownLine { stream := .stdout, raw := text, clipped := false }

lemma heldRetryNotice_stdoutLine :
    heldRetryNotice (stdoutLine text) 2
      = claudeNoticeLine (text ++ js " (" ++ js (toString (2 - 1)) ++ js " earlier retries coalesced)") := rfl

lemma claudeNoticeClass_stdoutLine (h : retryNoticePrefix <+: text) :
    claudeNoticeClass (stdoutLine text) = some .apiRetry := by
  have hstr : ¬ AgentTaskOutputStream.stdout ≠ .stdout := not_not_intro rfl
  unfold stdoutLine claudeNoticeClass
  dsimp only
  rw [if_neg hstr, if_pos (List.isPrefixOf_iff_prefix.2 h)]

lemma throttleBatches_stdoutLine (h : retryNoticePrefix <+: text) :
    throttleBatches [[stdoutLine text, stdoutLine text, stdoutLine text]]
      = [stdoutLine text, heldRetryNotice (stdoutLine text) 2] := by
  have hstep state : throttleEvent state (stdoutLine text) = throttleRetry state (stdoutLine text) := by
    unfold throttleEvent
    rw [claudeNoticeClass_stdoutLine text h]
  rw [throttleBatches, throttleFrom, throttleClaudeNotices, foldl_cons, foldl_cons, foldl_cons, foldl_nil]
  rw [hstep, hstep, hstep]
  rfl

end StdoutLine

/-- A retry line that leaves no room for a count behind it. -/
def longRetryText : JsString := retryNoticePrefix ++ List.replicate maxNoticeBytes 120

lemma isAscii_of_all {text : JsString} (h : text.all (fun unit => 0 < unit ∧ unit < 0x80)) :
    ∀ unit ∈ text, 0 < unit ∧ unit < 0x80 :=
  fun unit hunit => of_decide_eq_true (all_eq_true.1 h unit hunit)

lemma isAscii_longRetryText : ∀ unit ∈ longRetryText, 0 < unit ∧ unit < 0x80 := by
  intro unit hunit
  rcases mem_append.1 hunit with hpre | hrest
  · exact isAscii_of_all (by decide) unit hpre
  · rw [eq_of_mem_replicate hrest]
    decide

lemma not_mem_longRetryText : (111 : UInt16) ∉ longRetryText := by
  intro hmem
  rcases mem_append.1 hmem with hmem | hmem
  · exact absurd hmem (by decide)
  · exact absurd (eq_of_mem_replicate hmem) (by decide)

lemma heldRetryNotice_longRetry :
    ∃ line, heldRetryNotice (stdoutLine longRetryText) 2 = .unknownLine line ∧
      line.raw = longRetryText.take maxNoticeBytes := by
  have hsuffix : ∀ unit ∈ js " (" ++ js (toString (2 - 1)) ++ js " earlier retries coalesced)",
      0 < unit ∧ unit < 0x80 := isAscii_of_all (by decide)
  have hascii : ∀ unit ∈ longRetryText ++ js " (" ++ js (toString (2 - 1)) ++ js " earlier retries coalesced)",
      0 < unit ∧ unit < 0x80 := by
    intro unit hunit
    rw [append_assoc, append_assoc] at hunit
    exact (mem_append.1 hunit).elim (isAscii_longRetryText unit) (hsuffix unit)
  have hlen : maxNoticeBytes ≤ longRetryText.length := by
    simp only [longRetryText, length_append, length_replicate]
    omega
  rw [heldRetryNotice_stdoutLine]
  generalize htext : longRetryText ++ js " (" ++ js (toString (2 - 1)) ++ js " earlier retries coalesced)" = text
  refine ⟨_, rfl, ?_⟩
  rw [← htext, boundUtf8Text_ascii hascii, append_assoc, append_assoc, take_append_of_le_length hlen]

/-- **A count may be cut off.**  Three retries come to two lines, and no line says that there was
another. -/
theorem coalesced_count_is_cut :
    ¬ ∀ batches : List (List AgentTurnEvent),
      (batches.flatten.filter isRetry).length ≤ ((throttleBatches batches).filter isRetry).length ∨
        (∃ line, AgentTurnEvent.unknownLine line ∈ throttleBatches batches ∧
          js "earlier retries coalesced" <:+: line.raw) ∨
        Emission.retryOverflow.event ∈ throttleBatches batches := by
  intro h
  obtain ⟨line, hline, hraw⟩ := heldRetryNotice_longRetry
  have hpre : retryNoticePrefix <+: longRetryText := prefix_append _ _
  have hclass := claudeNoticeClass_stdoutLine longRetryText hpre
  have hout := throttleBatches_stdoutLine longRetryText hpre
  rw [hline] at hout
  have hlongRetry : (111 : UInt16) ∉ longRetryText := not_mem_longRetryText
  have htext : (111 : UInt16) ∉ line.raw := by
    rw [hraw]
    exact fun hmem => hlongRetry (mem_of_mem_take hmem)
  generalize longRetryText = text at hclass hout hlongRetry
  have hyes : isRetry (stdoutLine text) := decide_eq_true hclass
  have hcount : ([stdoutLine text, stdoutLine text, stdoutLine text].filter isRetry).length = 3 := by
    rw [filter_cons_of_pos hyes, filter_cons_of_pos hyes, filter_cons_of_pos hyes]
    rfl
  rcases h [[stdoutLine text, stdoutLine text, stdoutLine text]] with hle | ⟨line', hmem, hinfix⟩ | hmem
  · have hlen := length_filter_le isRetry [stdoutLine text, .unknownLine line]
    have htwo : [stdoutLine text, .unknownLine line].length = 2 := rfl
    have hflat : [[stdoutLine text, stdoutLine text, stdoutLine text]].flatten
        = [stdoutLine text, stdoutLine text, stdoutLine text] := rfl
    rw [hflat, hcount, hout] at hle
    omega
  · have hletter : (111 : UInt16) ∈ line'.raw := hinfix.subset (by decide)
    rw [hout, mem_cons, mem_singleton] at hmem
    rcases hmem with hmem | hmem
    · cases hmem
      exact hlongRetry hletter
    · cases hmem
      exact htext hletter
  · have hover : ∃ line', Emission.retryOverflow.event = .unknownLine line' ∧ (111 : UInt16) ∈ line'.raw :=
      ⟨_, rfl, by decide⟩
    obtain ⟨line', hline', hletter⟩ := hover
    rw [hout, hline', mem_cons, mem_singleton] at hmem
    rcases hmem with hmem | hmem
    · cases hmem
      exact hlongRetry hletter
    · cases hmem
      exact htext hletter

end CodevoEditor.AgentOutput
