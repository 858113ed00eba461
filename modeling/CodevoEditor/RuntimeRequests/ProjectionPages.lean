/-
# A page of the requests of some turns

`src-tauri/src/agent_runtime_requests/projection.rs`: a page is filled from a position on, which
stands for what is left to visit (`remaining`).

The store is read without an error; `live_page`, which answers when it is not, and the second
attempt of `page` are left out.
-/

import CodevoEditor.RuntimeRequests.ProjectionCursor

namespace CodevoEditor.RuntimeRequests

open Sql List Option Nat

def pageEnvelopeBytes : ℕ := 1024
def maxRequestsPerMessage : ℕ := 64

def wireCost (wire : Wire) (request : RequestParts) : ℕ := wire.requestBytes request + 1

inductive Taken
  | added
  | skipped
  | full
  deriving DecidableEq

structure PageBuilder where
  records : List RequestParts := []
  used : ℕ := 0
  incomplete : Bool := false

def Phase.isOpen (phase : Phase) : Bool := phase = .opened

section Filling

variable (wire : Wire) (listed : List (List Candidate)) (record : ℕ → Candidate → Option RequestParts)
  (budget : ℕ)

def nextCandidate (position : Position) : Option Candidate :=
  (listed[position.turn]?.getD []).find? fun candidate =>
    candidate.isOpen = position.phase.isOpen && candidate.follows position.after

def PageBuilder.take (builder : PageBuilder) (turn : ℕ) (candidate : Candidate) : PageBuilder × Taken :=
  let left := budget - builder.used
  if maxRequestsPerMessage ≤ builder.records.length ∨
      builder.records ≠ [] ∧ left < candidate.estimate then (builder, .full)
  else
    match record turn candidate with
    | none => (builder, .skipped)
    | some request =>
        let cost := wireCost wire request
        if budget < cost then ({ builder with incomplete := true }, .skipped)
        else if left < cost then (builder, .full)
        else
          ({ builder with records := builder.records ++ [request], used := builder.used + cost }, .added)

/-- The loop of `fill`; `none` when it does not end within so many rounds. -/
def fillLoop : ℕ → PageBuilder → Position → Option (PageBuilder × Option Position)
  | 0, _, _ => none
  | rounds + 1, builder, position =>
      if listed.length ≤ position.turn ∧ position.phase = .closed then some (builder, none)
      else if listed.length ≤ position.turn then
        fillLoop rounds builder { position with phase := .closed, turn := 0, after := none }
      else
        match nextCandidate listed position with
        | none => fillLoop rounds builder { position with turn := position.turn + 1, after := none }
        | some candidate =>
            match builder.take wire record budget position.turn candidate with
            | (builder, .full) => some (builder, some position)
            | (builder, _) =>
                fillLoop rounds builder { position with after := some (candidate.order, candidate.id) }

end Filling

section Remaining

variable {α : Type} (slotOf : α → ListedSlot) (listed : List (List α))

def ListedSlot.follows (slot : ListedSlot) (after : Option (ℕ × String)) : Bool :=
  after.all fun after => toLex after < toLex (slot.order, slot.id)

/-- What is open, or closed, from a turn on. -/
def laterTurns (isOpen : Bool) (turn : ℕ) : List (ℕ × α) :=
  (listed.zipIdx.drop turn).flatMap fun entry =>
    (entry.1.filter fun item => (slotOf item).isOpen = isOpen).map fun item => (entry.2, item)

/-- What is left of the turn of a position. -/
def restOfTurn (position : Position) : List (ℕ × α) :=
  ((listed[position.turn]?.getD []).filter fun item =>
      (slotOf item).isOpen = position.phase.isOpen && (slotOf item).follows position.after).map
    fun item => (position.turn, item)

/-- **What is left to visit from a position on.** -/
def remaining (position : Position) : List (ℕ × α) :=
  restOfTurn slotOf listed position ++
    (laterTurns slotOf listed position.phase.isOpen (position.turn + 1) ++
      if position.phase = .opened then laterTurns slotOf listed false 0 else [])

/-- Everything, in the order in which it is visited. -/
def visits : List (ℕ × α) := laterTurns slotOf listed true 0 ++ laterTurns slotOf listed false 0

/-- As many rounds as the loop needs: one for each visit and each turn that is left. -/
def roundsLeft (position : Position) : ℕ :=
  (remaining slotOf listed position).length + (listed.length - position.turn) +
    if position.phase = .opened then listed.length + 1 else 0

end Remaining

def fill (wire : Wire) (listed : List (List Candidate))
    (record : ℕ → Candidate → Option RequestParts) (budget : ℕ) (start : Position) :
    PageBuilder × Option Position :=
  (fillLoop wire listed record budget (roundsLeft Candidate.slot listed start + 1) {} start).getD ({}, none)

structure ThreadSummary where
  deleted : Bool
  incomplete : Bool
  unreadable : ℕ

structure ThreadRequests where
  threadId : String
  epoch : String
  journal : JournalState
  requests : List RequestParts
  truncated : Bool
  unreadable : ℕ
  reset : Bool

/-- `ThreadRequests::new`, of a message without a workspace. -/
def newMessage (parts : ThreadRequests) : Option ThreadRequests :=
  if !isIdentifier parts.threadId || !isIdentifier parts.epoch then none
  else if maxSafeInteger < parts.unreadable then none
  else if maxRequestsPerMessage < parts.requests.length then none
  else if (parts.requests.map fun request => (request.turnId, request.id)).Nodup then some parts
  else none

structure ThreadRequestsPage where
  message : ThreadRequests
  nextCursor : Option String

inductive ProjectionError
  | invalidQuery
  | staleCursor
  | threadDeleted
  deriving DecidableEq

/-- What a page sees: the store, the sessions of the turns, and the journal. -/
structure View where
  epoch : String
  laterEpoch : String
  now : ℕ
  database : RequestDatabase
  live : String → Option TurnLive
  undecodable : ℕ
  saturated : Bool
  historyIncomplete : Bool
  journal : JournalState

structure PageQuery where
  scope : HistoryScope
  threadId : String
  turnIds : List String
  pageBytes : ℕ

/-- The check of `page`. -/
def PageQuery.isValid (query : PageQuery) : Bool :=
  isIdentifier query.threadId && query.turnIds.length ≤ maxPullTurns && query.turnIds.Nodup &&
    query.turnIds.all isIdentifier

section Page

variable (wire : Wire) (view : View) (query : PageQuery)

def turnKey (turnId : String) : TurnKey := ⟨query.threadId, turnId⟩

/-- `TurnView::listed`, of each turn. -/
def listedOf : List (List Candidate) :=
  query.turnIds.map fun turnId =>
    candidates wire (entriesOf view.database (turnKey query turnId)) (view.live turnId) view.now

/-- `TurnView::record`, of a turn by its position. -/
def recordAt (turn : ℕ) (candidate : Candidate) : Option RequestParts :=
  query.turnIds[turn]?.bind fun turnId =>
    recordOf wire view.database (turnKey query turnId) (view.live turnId) view.now candidate

def signatureOf : List (List ListedSlot) := (listedOf wire view query).map (·.map Candidate.slot)

def recordBudget : ℕ := query.pageBytes - pageEnvelopeBytes

/-- `summary`. -/
def summaryOf : ThreadSummary where
  deleted := query.threadId ∈ view.database.tombstones
  incomplete := (view.database.marks.get? query.threadId).any (fun marks =>
    0 < marks.pruned ∨ 0 < marks.skipped) || view.saturated
  unreadable := (view.database.requests.countWhere fun key row =>
    key.threadId = query.threadId && !isReadable row) + view.undecodable

/-- The position that a cursor stands for. -/
def continuationOf (binding : String) (cursor : Option String) : Except ProjectionError (Option Continuation) :=
  match cursor with
  | none => .ok none
  | some cursor =>
      match Continuation.decoded cursor binding query.turnIds.length with
      | none => .error .staleCursor
      | some continuation => .ok (some continuation)

/-- `message`. -/
def messageOf (requests : List RequestParts) (summary : ThreadSummary) : Option ThreadRequests :=
  newMessage
    { threadId := query.threadId
      epoch := view.epoch
      journal := if view.historyIncomplete then .degraded else view.journal
      requests := requests
      truncated := summary.incomplete || view.historyIncomplete
      unreadable := summary.unreadable
      reset := false }

/-- `page_in` and `read_page`; no page where the epoch has changed. -/
def pageIn (cursor : Option String) : Except ProjectionError (Option ThreadRequestsPage) :=
  let binding := bindingOf view.epoch query.scope query.threadId query.turnIds
  match continuationOf query binding cursor with
  | .error error => .error error
  | .ok continuation =>
      let generation := generationOf (signatureOf wire view query)
      if continuation.any fun continuation => continuation.generation ≠ generation then
        .error .staleCursor
      else
        let start := continuation.elim .start (·.position)
        let (builder, resume) := fill wire (listedOf wire view query) (recordAt wire view query)
          (recordBudget query) start
        let summary := summaryOf view query
        if view.laterEpoch ≠ view.epoch then .ok none
        else if summary.deleted then .error .threadDeleted
        else
          let page := continuation.elim 0 (·.position.page)
          let next : Option Continuation := resume.map fun resume =>
            ⟨generation, { resume with page := page + 1 }⟩
          let exhausted := next.any fun next => maxPullPages ≤ next.position.page
          let incomplete := summary.incomplete || builder.incomplete || exhausted
          match messageOf view query builder.records { summary with incomplete := incomplete } with
          | none => .error .invalidQuery
          | some message =>
              .ok (some ⟨message, if exhausted then none else next.map (·.encoded binding)⟩)

end Page

section Rounds

variable {α : Type} {slotOf : α → ListedSlot} {listed : List (List α)} {position : Position}

lemma laterTurns_of_le {turn} (h : listed.length ≤ turn) (isOpen : Bool) :
    laterTurns slotOf listed isOpen turn = [] := by
  unfold laterTurns
  rw [drop_eq_nil_of_le (by rwa [length_zipIdx])]
  rfl

lemma restOfTurn_unvisited (h : position.after = none) :
    restOfTurn slotOf listed position =
      ((listed[position.turn]?.getD []).filter fun item =>
        (slotOf item).isOpen = position.phase.isOpen).map fun item => (position.turn, item) := by
  unfold restOfTurn
  rw [h]
  simp only [ListedSlot.follows, all_none, Bool.and_true]

variable (slotOf listed position) in
lemma laterTurns_eq (h : position.after = none) :
    laterTurns slotOf listed position.phase.isOpen position.turn =
      restOfTurn slotOf listed position ++ laterTurns slotOf listed position.phase.isOpen (position.turn + 1) := by
  rw [restOfTurn_unvisited h]
  rcases lt_or_ge position.turn listed.length with hlt | hge
  · have hturn : position.turn < listed.zipIdx.length := by rwa [length_zipIdx]
    unfold laterTurns
    rw [drop_eq_getElem_cons hturn, flatMap_cons, getElem_zipIdx, getElem?_eq_getElem hlt, getD_some, zero_add]
  · rw [laterTurns_of_le hge, laterTurns_of_le (le_succ_of_le hge),
      getElem?_eq_none hge]
    rfl

lemma remaining_start : remaining slotOf listed .start = visits slotOf listed := by
  unfold remaining visits
  have hopen := laterTurns_eq slotOf listed .start rfl
  change laterTurns slotOf listed true 0 = _ at hopen
  rw [hopen, append_assoc]
  rfl

lemma remaining_nextTurn (h : restOfTurn slotOf listed position = []) :
    remaining slotOf listed position =
      remaining slotOf listed { position with turn := position.turn + 1, after := none } := by
  have hlat := laterTurns_eq slotOf listed { position with turn := position.turn + 1, after := none } rfl
  unfold remaining
  rw [h, nil_append, hlat, append_assoc]

lemma remaining_nextPhase (hphase : position.phase = .opened) (hturn : listed.length ≤ position.turn) :
    remaining slotOf listed position =
      remaining slotOf listed { position with phase := .closed, turn := 0, after := none } := by
  have hcl := laterTurns_eq slotOf listed { position with phase := .closed, turn := 0, after := none } rfl
  change laterTurns slotOf listed false 0 = _ at hcl
  unfold remaining
  rw [hphase, if_pos rfl, if_neg (nofun), hcl, append_nil, laterTurns_of_le (le_succ_of_le hturn), nil_append]
  unfold restOfTurn
  rw [getElem?_eq_none hturn]
  rfl

lemma remaining_done (hphase : position.phase = .closed) (hturn : listed.length ≤ position.turn) :
    remaining slotOf listed position = [] := by
  unfold remaining restOfTurn
  rw [hphase, if_neg (by decide), laterTurns_of_le (le_succ_of_le hturn), getElem?_eq_none hturn]
  rfl

lemma remaining_map :
    (remaining slotOf listed position).map (Prod.map id slotOf) =
      remaining id (listed.map (·.map slotOf)) position := by
  have hfilter (test : ListedSlot → Bool) (items : List α) (turn : ℕ) :
      ((items.filter fun item => test (slotOf item)).map fun item => (turn, item)).map
          (Prod.map id slotOf) =
        ((items.map slotOf).filter test).map fun slot => (turn, slot) := by
    rw [List.map_map, List.filter_map, List.map_map]
    rfl
  have hlat (isOpen : Bool) (turn : ℕ) :
      (laterTurns slotOf listed isOpen turn).map (Prod.map id slotOf) =
        laterTurns id (listed.map (·.map slotOf)) isOpen turn := by
    unfold laterTurns
    rw [map_flatMap, zipIdx_map, ← map_drop, flatMap_map]
    congr 1
    funext entry
    exact hfilter (fun slot => slot.isOpen = isOpen) entry.1 entry.2
  unfold remaining
  rw [map_append, map_append, hlat]
  congr 1
  · unfold restOfTurn
    rw [hfilter fun slot => slot.isOpen = position.phase.isOpen && slot.follows position.after]
    rw [getElem?_map]
    cases listed[position.turn]? with
    | none => rfl
    | some items => rfl
  · split_ifs
    · rw [hlat]
    · rfl

end Rounds

section Filled

variable {wire : Wire} {listed : List (List Candidate)} {record : ℕ → Candidate → Option RequestParts}
  {budget : ℕ}

/-- The candidates of each turn are listed by their places. -/
def ListedInOrder (listed : List (List Candidate)) : Prop :=
  ∀ turn ∈ listed, turn.Pairwise fun left right => left.place < right.place

variable {position : Position}

/-- **The next candidate is the first that is left.** -/
theorem remaining_next {candidate} (hord : ListedInOrder listed)
    (hnext : nextCandidate listed position = some candidate) :
    remaining Candidate.slot listed position =
      (position.turn, candidate) :: remaining Candidate.slot listed
        { position with after := some (candidate.order, candidate.id) } := by
  set turn := listed[position.turn]?.getD [] with hturn
  have hpair : turn.Pairwise fun left right => left.place < right.place := by
    rw [hturn]
    cases hget : listed[position.turn]? with
    | none => exact .nil
    | some items => exact hord items (mem_of_getElem? hget)
  set test := fun item : Candidate =>
    decide (item.isOpen = position.phase.isOpen) && item.follows position.after with htest
  have hhead : (turn.filter test).head? = some candidate := by
    rw [head?_filter]
    exact hnext
  obtain ⟨tail, hfilter⟩ := head?_eq_some_iff.1 hhead
  have hrest : (turn.filter fun item => decide (item.isOpen = position.phase.isOpen) &&
      item.follows (some (candidate.order, candidate.id))) = tail := by
    have hsort : (candidate :: tail).Pairwise fun left right => left.place < right.place := by
      rw [← hfilter]
      exact hpair.filter _
    obtain ⟨hfst, -⟩ := pairwise_cons.1 hsort
    have hcand : test candidate := by
      have hmem : candidate ∈ turn.filter test := by
        rw [hfilter]
        exact mem_cons_self
      exact (mem_filter.1 hmem).2
    obtain ⟨-, hfollows⟩ := Bool.and_eq_true_iff.1 hcand
    have hboth : (turn.filter fun item => decide (item.isOpen = position.phase.isOpen) &&
        item.follows (some (candidate.order, candidate.id))) =
          (turn.filter test).filter fun item =>
            item.follows (some (candidate.order, candidate.id)) := by
      rw [List.filter_filter]
      refine filter_congr fun item _ => ?_
      -- what is after the candidate is after the position as well
      cases hlate : item.follows (some (candidate.order, candidate.id)) with
      | false => rw [Bool.and_false, Bool.false_and]
      | true =>
        have haft : item.follows position.after := by
          cases hpos : position.after with
          | none => rfl
          | some after =>
            rw [hpos] at hfollows
            have hpre := of_decide_eq_true hfollows
            exact decide_eq_true (hpre.trans (of_decide_eq_true hlate))
        rw [htest]
        dsimp only
        rw [haft, Bool.and_true, Bool.true_and]
    rw [hboth, hfilter, filter_cons_of_neg, filter_eq_self]
    · exact fun item hitem => decide_eq_true (hfst item hitem)
    · exact fun hself => absurd (of_decide_eq_true hself) (lt_irrefl _)
  change (turn.filter test).map _ ++ _ = _ :: ((turn.filter fun item =>
    decide (item.isOpen = position.phase.isOpen) && item.follows (some (candidate.order, candidate.id))).map _ ++ _)
  rw [hfilter, hrest]
  rfl

lemma restOfTurn_of_none (hnext : nextCandidate listed position = none) :
    restOfTurn Candidate.slot listed position = [] := by
  unfold restOfTurn
  rw [map_eq_nil_iff, filter_eq_nil_iff]
  exact find?_eq_none.1 hnext

variable (wire record budget) in
/-- The record of a visit, if there is one and a page can hold it. -/
def emitted (visit : ℕ × Candidate) : Option RequestParts :=
  (record visit.1 visit.2).filter fun request => wireCost wire request ≤ budget

variable (wire record budget) in
/-- The record of a visit is longer than a page. -/
def isOversized (visit : ℕ × Candidate) : Bool :=
  (record visit.1 visit.2).any fun request => budget < wireCost wire request

lemma emitted_eq_none {visit} (h : emitted wire record budget visit = none) :
    record visit.1 visit.2 = none ∨ isOversized wire record budget visit := by
  unfold emitted at h
  unfold isOversized
  cases hrecord : record visit.1 visit.2 with
  | none => exact .inl rfl
  | some request =>
    rw [hrecord, filter_some] at h
    right
    by_contra hsht
    rw [if_pos (by simpa using hsht)] at h
    cases h

/-- A page that is empty has all its room left. -/
def PageBuilder.Ok (builder : PageBuilder) : Prop :=
  (builder.records = [] → builder.used = 0) ∧ builder.records.length ≤ maxRequestsPerMessage

variable (wire record budget) in
/-- **What taking a candidate does.**  A page that is full has a record. -/
theorem take_spec {builder : PageBuilder} (hok : builder.Ok) (turn : ℕ) (candidate) :
    (builder.take wire record budget turn candidate = (builder, .full) ∧ builder.records ≠ []) ∨
      ∃ next taken, builder.take wire record budget turn candidate = (next, taken) ∧ taken ≠ .full ∧
        next.Ok ∧
        next.records = builder.records ++ (emitted wire record budget (turn, candidate)).toList ∧
        next.incomplete = (builder.incomplete || isOversized wire record budget (turn, candidate)) := by
  unfold PageBuilder.take
  dsimp only
  split_ifs with hfull
  · refine .inl ⟨rfl, fun hemp => ?_⟩
    rcases hfull with hmany | hlarge
    · rw [hemp] at hmany
      exact absurd hmany (by decide)
    · exact hlarge.1 hemp
  · rw [not_or, not_le] at hfull
    cases hrecord : record turn candidate with
    | none =>
      refine .inr ⟨builder, .skipped, rfl, by decide, hok, ?_, ?_⟩
      · unfold emitted
        rw [hrecord]
        exact (append_nil _).symm
      · unfold isOversized
        rw [hrecord]
        exact (Bool.or_false _).symm
    | some request =>
      have hemit : emitted wire record budget (turn, candidate) =
          (some request).filter fun request => wireCost wire request ≤ budget := by
        unfold emitted
        rw [hrecord]
      have hoversized : isOversized wire record budget (turn, candidate) =
          decide (budget < wireCost wire request) := by
        unfold isOversized
        rw [hrecord]
        rfl
      dsimp only
      split_ifs with hlong hcrowded
      · refine .inr ⟨{ builder with incomplete := true }, .skipped, rfl, by decide, hok, ?_, ?_⟩
        · rw [hemit, filter_some, if_neg (by simpa using hlong)]
          exact (append_nil _).symm
        · rw [hoversized, decide_eq_true hlong, Bool.or_true]
      · refine .inl ⟨rfl, fun hemp => ?_⟩
        have hused := hok.1 hemp
        omega
      · refine .inr ⟨{ builder with
          records := builder.records ++ [request]
          used := builder.used + wireCost wire request }, .added, rfl, by decide, ⟨?_, ?_⟩, ?_, ?_⟩
        · exact fun hemp => absurd hemp (by simp)
        · rw [length_append, length_singleton]
          exact hfull.1
        · rw [hemit, filter_some, if_pos (by simpa using hlong)]
          rfl
        · rw [hoversized, decide_eq_false hlong, Bool.or_false]

variable (wire listed record budget) in
/-- A page is filled from a position on: it visits the first of what is left, and leaves the
others to the position that it returns. -/
structure IsFilled (builder : PageBuilder) (position : Position) (chunk rest : List (ℕ × Candidate))
    (filled : PageBuilder) (resume : Option Position) : Prop where
  split : remaining Candidate.slot listed position = chunk ++ rest
  records : filled.records = builder.records ++ chunk.filterMap (emitted wire record budget)
  incomplete : filled.incomplete = (builder.incomplete || chunk.any (isOversized wire record budget))
  ok : filled.Ok
  done : resume = none → rest = []
  goesOn : ∀ resumed, resume = some resumed →
    remaining Candidate.slot listed resumed = rest ∧ rest ≠ [] ∧ filled.records ≠ [] ∧
      resumed.turn < listed.length ∧ CarriesAfter resumed.after

/-- The orders and the ids of what is listed can be written in a cursor. -/
def Carriable (listed : List (List Candidate)) : Prop :=
  ∀ turn ∈ listed, ∀ candidate ∈ turn, candidate.order < 2 ^ 64 ∧ isIdentifier candidate.id

lemma IsFilled.of_eq {builder filled} {position position'}
    {chunk rest} {resume}
    (h : IsFilled wire listed record budget builder position chunk rest filled resume)
    (hsame : remaining Candidate.slot listed position' = remaining Candidate.slot listed position) :
    IsFilled wire listed record budget builder position' chunk rest filled resume :=
  { h with split := hsame.trans h.split }

/-- **Filling a page.**  The loop ends, and fills the page from its position on. -/
theorem fillLoop_spec {rounds : ℕ} {builder : PageBuilder}
    (hrounds : roundsLeft Candidate.slot listed position < rounds) (hord : ListedInOrder listed)
    (hcarry : Carriable listed) (hok : builder.Ok) (haft : CarriesAfter position.after) :
    ∃ filled resume chunk rest,
      fillLoop wire listed record budget rounds builder position = some (filled, resume) ∧
        IsFilled wire listed record budget builder position chunk rest filled resume := by
  have hnew : CarriesAfter none := nofun
  induction rounds generalizing builder position with
  | zero => exact absurd hrounds (not_lt_zero _)
  | succ rounds ih =>
    unfold fillLoop
    split_ifs with hover hturn
    · refine ⟨builder, none, [], [], rfl, ?_⟩
      exact
        { split := remaining_done hover.2 hover.1
          records := (append_nil _).symm
          incomplete := (Bool.or_false _).symm
          ok := hok
          done := fun _ => rfl
          goesOn := nofun }
    · -- the open requests are done
      have hphase : position.phase = .opened := by
        cases hphase : position.phase with
        | opened => rfl
        | closed => exact absurd ⟨hturn, hphase⟩ hover
      have hsame : remaining Candidate.slot listed position = remaining Candidate.slot listed
          { position with phase := .closed, turn := 0, after := none } :=
        remaining_nextPhase hphase hturn
      have hfewer : roundsLeft Candidate.slot listed
          { position with phase := .closed, turn := 0, after := none } < rounds := by
        unfold roundsLeft at hrounds ⊢
        rw [← hsame, if_neg (nofun)]
        rw [if_pos hphase] at hrounds
        omega
      obtain ⟨filled, resume, chunk, rest, hfill, hfilled⟩ := ih hfewer hok hnew
      exact ⟨filled, resume, chunk, rest, hfill, hfilled.of_eq hsame⟩
    · rw [not_le] at hturn
      cases hnext : nextCandidate listed position with
      | none =>
        have hsame := remaining_nextTurn (restOfTurn_of_none hnext)
        have hfewer : roundsLeft Candidate.slot listed
            { position with turn := position.turn + 1, after := none } < rounds := by
          unfold roundsLeft at hrounds ⊢
          rw [← hsame]
          dsimp only
          omega
        obtain ⟨filled, resume, chunk, rest, hfill, hfilled⟩ := ih hfewer hok hnew
        exact ⟨filled, resume, chunk, rest, hfill, hfilled.of_eq hsame⟩
      | some candidate =>
        have hhead := remaining_next hord hnext
        dsimp only
        rcases take_spec wire record budget hok position.turn candidate with ⟨htake, hrecs⟩ | ⟨next, taken,
          htake, hroom, hnextOk, hadded, hflag⟩
        · rw [htake]
          refine ⟨builder, some position, [], remaining Candidate.slot listed position, rfl, ?_⟩
          exact
            { split := rfl
              records := (append_nil _).symm
              incomplete := (Bool.or_false _).symm
              ok := hok
              done := nofun
              goesOn := by
                intro resumed hresume
                cases hresume
                refine ⟨rfl, ?_, hrecs, hturn, haft⟩
                rw [hhead]
                exact cons_ne_nil _ _ }
        · have hfewer : roundsLeft Candidate.slot listed
              { position with after := some (candidate.order, candidate.id) } < rounds := by
            unfold roundsLeft at hrounds ⊢
            rw [hhead, length_cons] at hrounds
            dsimp only
            omega
          have hcarried : CarriesAfter (some (candidate.order, candidate.id)) := by
            intro order id heq
            cases heq
            have hmem := mem_of_find?_eq_some hnext
            rw [getElem?_eq_getElem hturn] at hmem
            exact hcarry _ (getElem_mem hturn) _ hmem
          obtain ⟨filled, resume, chunk, rest, hfill, hfilled⟩ := ih hfewer hnextOk hcarried
          have hloop : (match (next, taken) with
              | (builder, .full) => some (builder, some position)
              | (builder, _) => fillLoop wire listed record budget rounds builder
                  { position with after := some (candidate.order, candidate.id) }) =
              some (filled, resume) := by
            cases taken with
            | full => exact absurd rfl hroom
            | added | skipped => exact hfill
          refine ⟨filled, resume, (position.turn, candidate) :: chunk, rest, htake ▸ hloop, ?_⟩
          exact
            { split := by rw [hhead, hfilled.split, cons_append]
              records := by
                rw [hfilled.records, hadded, append_assoc, filterMap_cons]
                cases emitted wire record budget (position.turn, candidate) with
                | none => rfl
                | some request => rfl
              incomplete := by rw [hfilled.incomplete, hflag, any_cons, Bool.or_assoc]
              ok := hfilled.ok
              done := hfilled.done
              goesOn := hfilled.goesOn }

end Filled

end CodevoEditor.RuntimeRequests
