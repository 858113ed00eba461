/-
# Following the cursors of a projection

The pages that a client reads, each from the cursor of the one before, visit every request once.
-/

import CodevoEditor.RuntimeRequests.ProjectionPages
import CodevoEditor.RuntimeRequests.LifecycleRuns
import Mathlib.Data.List.Flatten

namespace CodevoEditor.RuntimeRequests

open Sql List Option Bool Nat

section Once

variable {α : Type} {slotOf : α → ListedSlot} {listed : List (List α)}

lemma laterTurns_sublist (isOpen : Bool) (turn : ℕ) :
    (laterTurns slotOf listed isOpen turn).Sublist (laterTurns slotOf listed isOpen 0) :=
  (drop_sublist _ _).flatMap _

lemma restOfTurn_sublist (position : Position) :
    (restOfTurn slotOf listed position ++
        laterTurns slotOf listed position.phase.isOpen (position.turn + 1)).Sublist
      (laterTurns slotOf listed position.phase.isOpen 0) := by
  refine .trans ?_ (laterTurns_sublist position.phase.isOpen position.turn)
  have hturn := laterTurns_eq slotOf listed { position with after := none } rfl
  have hrest : restOfTurn slotOf listed { position with after := none } = _ := restOfTurn_unvisited rfl
  rw [hturn, hrest]
  refine Sublist.append_right (List.Sublist.map _ ?_) _
  refine monotone_filter_right _ fun item hitem => ?_
  exact (and_eq_true_iff.1 hitem).1

lemma remaining_sublist (position : Position) :
    (remaining slotOf listed position).Sublist (visits slotOf listed) := by
  have hturn : (restOfTurn slotOf listed position ++
      laterTurns slotOf listed position.phase.isOpen (position.turn + 1)).Sublist
        (laterTurns slotOf listed position.phase.isOpen 0) := restOfTurn_sublist position
  unfold remaining visits
  rw [← append_assoc]
  cases hphase : position.phase with
  | opened =>
    rw [hphase] at hturn
    exact hturn.append (.refl _)
  | closed =>
    rw [hphase] at hturn
    rw [if_neg (by decide), append_nil]
    exact hturn.trans (sublist_append_right _ _)

theorem visits_perm : (visits slotOf listed).Perm
    (listed.zipIdx.flatMap fun entry => entry.1.map fun item => (entry.2, item)) := by
  unfold visits laterTurns
  refine (flatMap_append_perm _ _ _).trans (Perm.flatMap_left _ fun entry _ => ?_)
  rw [← map_append]
  refine List.Perm.map _ ?_
  have hcl : (entry.1.filter fun item => (slotOf item).isOpen = false) =
      entry.1.filter fun item => !decide ((slotOf item).isOpen) := by
    refine filter_congr fun item _ => ?_
    cases (slotOf item).isOpen with
    | true => rfl
    | false => rfl
  rw [hcl]
  exact filter_append_perm _ _

lemma mem_visits {visit} (h : visit ∈ visits slotOf listed) :
    ∃ turn, listed[visit.1]? = some turn ∧ visit.2 ∈ turn := by
  obtain ⟨⟨turn, index⟩, hent, hvisit⟩ := mem_flatMap.1 (visits_perm.mem_iff.1 h)
  obtain ⟨item, hitem, rfl⟩ := mem_map.1 hvisit
  exact ⟨turn, mk_mem_zipIdx_iff_getElem?.1 hent, hitem⟩

/-- **And each request once**: no two visits are of one turn and one id. -/
theorem nodup_visits (h : ∀ turn ∈ listed, (turn.map fun item => (slotOf item).id).Nodup) :
    ((visits slotOf listed).map fun visit => (visit.1, (slotOf visit.2).id)).Nodup := by
  rw [(visits_perm.map _).nodup_iff, map_flatMap, nodup_flatMap]
  constructor
  · rintro ⟨turn, index⟩ hent
    have hturn := h turn (mem_of_getElem? (mk_mem_zipIdx_iff_getElem?.1 hent))
    rw [List.map_map]
    have hpairs := hturn.map (f := fun id => (index, id)) fun left right heq => (Prod.mk.inj heq).2
    rw [List.map_map] at hpairs
    exact hpairs
  · have hindices : listed.zipIdx.Pairwise fun left right => left.2 ≠ right.2 := by
      have hnd : (listed.zipIdx.map Prod.snd).Nodup := by
        rw [zipIdx_map_snd]
        exact nodup_range'
      exact pairwise_map.1 hnd
    refine hindices.imp fun {left right} hne => ?_
    rintro pair hleft hrt
    obtain ⟨visit, hvisit, rfl⟩ := mem_map.1 hleft
    obtain ⟨other, hoth, heq⟩ := mem_map.1 hrt
    obtain ⟨item, -, rfl⟩ := mem_map.1 hvisit
    obtain ⟨item', -, rfl⟩ := mem_map.1 hoth
    exact hne (Prod.mk.inj heq).1.symm

end Once

section Steady

variable (wire : Wire) (query : PageQuery)

/-- What is listed stays the same from page to page. -/
structure Steady (views : ℕ → View) : Prop where
  valid : query.isValid
  unchanged : ∀ page, signatureOf wire (views page) query = signatureOf wire (views 0) query
  epoch : ∀ page, (views page).epoch = (views 0).epoch ∧ (views page).laterEpoch = (views 0).epoch
  epochNamed : isIdentifier (views 0).epoch
  kept : ∀ page, query.threadId ∉ (views page).database.tombstones
  countable : ∀ page, (summaryOf (views page) query).unreadable ≤ maxSafeInteger
  carriable : ∀ page, Carriable (listedOf wire (views page) query)
  distinct : ∀ page, ∀ turnId ∈ query.turnIds, ∀ session, (views page).live turnId = some session →
    (session.requests.map (·.id)).Nodup

/-- What a page shows of the requests that it visits. -/
structure Shows (view : View) (visited : List (ℕ × Candidate)) (page : ThreadRequestsPage) : Prop where
  listed : ∀ visit ∈ visited, ∃ turn, (listedOf wire view query)[visit.1]? = some turn ∧ visit.2 ∈ turn
  requests : page.message.requests = visited.filterMap (emitted wire (recordAt wire view query) (recordBudget query))
  leftOut : ∀ visit ∈ visited,
    emitted wire (recordAt wire view query) (recordBudget query) visit = none →
      recordAt wire view query visit.1 visit.2 = none ∨
        isOversized wire (recordAt wire view query) (recordBudget query) visit ∧ page.message.truncated
  goesOn : page.nextCursor ≠ none → page.message.requests ≠ []

/-- The pages from a cursor on, each from the cursor of the one before, up to one without. -/
inductive Walk (views : ℕ → View) : ℕ → Option String → List ThreadRequestsPage → Prop
  | last (index : ℕ) (cursor : Option String) (page : ThreadRequestsPage)
      (hpage : pageIn wire (views index) query cursor = .ok (some page))
      (hlast : page.nextCursor = none) : Walk views index cursor [page]
  | next (index : ℕ) (cursor : Option String) (page : ThreadRequestsPage) (after : String)
      (pages : List ThreadRequestsPage)
      (hpage : pageIn wire (views index) query cursor = .ok (some page))
      (hnext : page.nextCursor = some after) (hrest : Walk views (index + 1) (some after) pages) :
      Walk views index cursor (page :: pages)

end Steady

variable {cursor : Option String} {position : Position} {index : ℕ}

section Page

variable {wire : Wire} {query : PageQuery} {views : ℕ → View}

lemma nodup_listedOf (h : Steady wire query views) (index : ℕ) :
    ∀ turn ∈ listedOf wire (views index) query, (turn.map (·.id)).Nodup := by
  intro turn hturn
  obtain ⟨turnId, hmem, rfl⟩ := mem_map.1 hturn
  exact nodup_candidates (nodup_entriesOf _ _) (h.distinct index turnId hmem)

lemma listedInOrder (h : Steady wire query views) (index : ℕ) :
    ListedInOrder (listedOf wire (views index) query) := by
  intro turn hturn
  have hids := nodup_listedOf h index turn hturn
  obtain ⟨turnId, -, rfl⟩ := mem_map.1 hturn
  exact pairwise_candidates hids

variable {view : View}

lemma recordAt_ids {visit : ℕ × Candidate} {record : RequestParts}
    (hvisit : ∃ turn, (listedOf wire view query)[visit.1]? = some turn ∧ visit.2 ∈ turn)
    (hrecord : recordAt wire view query visit.1 visit.2 = some record) :
    record.id = visit.2.id ∧ query.turnIds[visit.1]? = some record.turnId := by
  obtain ⟨turn, hturn, hmem⟩ := hvisit
  obtain ⟨turnId, hturnId, hof⟩ := bind_eq_some_iff.1 hrecord
  unfold listedOf at hturn
  rw [getElem?_map, hturnId] at hturn
  cases hturn
  obtain ⟨hid, hrecordTurn⟩ := recordOf_ids hmem hof
  rw [hturnId]
  exact ⟨hid, congrArg some hrecordTurn.symm⟩

/-- **The records of a page are of different requests.** -/
theorem nodup_emitted {visited : List (ℕ × Candidate)}
    (hlist : ∀ visit ∈ visited, ∃ turn, (listedOf wire view query)[visit.1]? = some turn ∧ visit.2 ∈ turn)
    (htrn : query.turnIds.Nodup)
    (hvisited : (visited.map fun visit => (visit.1, visit.2.id)).Nodup) :
    ((visited.filterMap (emitted wire (recordAt wire view query) (recordBudget query))).map
      fun request => (request.turnId, request.id)).Nodup := by
  have hpairs := pairwise_map.1 hvisited
  rw [List.Nodup, pairwise_map, pairwise_filterMap]
  refine hpairs.imp_of_mem fun {left right} hleft hrt hne first hfst second hsnd heq => hne ?_
  obtain ⟨hid, hturn⟩ := recordAt_ids (hlist left hleft) (filter_eq_some_iff.1 hfst).1
  obtain ⟨hid', hturn'⟩ := recordAt_ids (hlist right hrt) (filter_eq_some_iff.1 hsnd).1
  obtain ⟨hsameTurn, hsameId⟩ := Prod.mk.inj heq
  rw [← hsameTurn] at hturn'
  have hidx : left.1 = right.1 := by
    obtain ⟨hlt, hget⟩ := List.getElem?_eq_some_iff.1 hturn
    obtain ⟨hlt', hget'⟩ := List.getElem?_eq_some_iff.1 hturn'
    exact (Nodup.getElem_inj_iff htrn).1 (hget.trans hget'.symm)
  rw [hidx, ← hid, ← hid', hsameId]

/-- A page that is read from a cursor starts from its position. -/
structure StartsAt (query : PageQuery) (generation binding : String) (index : ℕ)
    (cursor : Option String) (position : Position) : Prop where
  page : position.page = index
  after : CarriesAfter position.after
  cursor : cursor = none ∧ position = .start ∨
    0 < index ∧ position.turn < query.turnIds.length ∧
      cursor = some (Continuation.encoded ⟨generation, position⟩ binding)

lemma continuationOf_spec {generation binding}
    (hgen : ∃ hash, generation = hashText hash)
    (hbinding : ∃ bound, binding = hashText bound) (htrn : query.turnIds.length ≤ maxPullTurns)
    (hidx : index < maxPullPages) (h : StartsAt query generation binding index cursor position) :
    ∃ continuation, continuationOf query binding cursor = .ok continuation ∧
      (continuation.any fun continuation => continuation.generation ≠ generation) = false ∧
      continuation.elim .start (·.position) = position ∧
      continuation.elim 0 (·.position.page) = index := by
  obtain ⟨hash, rfl⟩ := hgen
  obtain ⟨bound, rfl⟩ := hbinding
  rcases h.cursor with ⟨rfl, hst⟩ | ⟨hpos, hturn, rfl⟩
  · refine ⟨none, rfl, rfl, hst.symm, ?_⟩
    rw [← h.page, hst]
    rfl
  · have hpage := h.page
    refine ⟨some ⟨hashText hash, position⟩, ?_, by simp, rfl, hpage⟩
    unfold continuationOf
    dsimp only
    rw [decoded_encoded (by omega) (by omega) hturn htrn h.after]

lemma messageOf_spec {requests} (summary)
    (hthr : isIdentifier query.threadId) (hepoch : isIdentifier view.epoch)
    (hcnt : summary.unreadable ≤ maxSafeInteger) (hfew : requests.length ≤ maxRequestsPerMessage)
    (hdist : (requests.map fun request => (request.turnId, request.id)).Nodup) :
    ∃ message, messageOf view query requests summary = some message ∧ message.requests = requests ∧
      (summary.incomplete → message.truncated) := by
  refine ⟨{ threadId := query.threadId
            epoch := view.epoch
            journal := if view.historyIncomplete then .degraded else view.journal
            requests := requests
            truncated := summary.incomplete || view.historyIncomplete
            unreadable := summary.unreadable
            reset := false }, ?_, rfl, fun hincomp => ?_⟩
  · unfold messageOf newMessage
    rw [hthr, hepoch, if_neg (by decide), if_neg (not_lt.2 hcnt), if_neg (not_lt.2 hfew), if_pos hdist]
  · dsimp only
    rw [hincomp, Bool.true_or]

/-- **A page of a steady feed.** It visits the first of what is left at its position. -/
theorem pageIn_spec (h : Steady wire query views) (hidx : index < maxPullPages)
    (hst : StartsAt query (generationOf (signatureOf wire (views 0) query)) (bindingOf (views 0).epoch
      query.scope query.threadId query.turnIds) index cursor position) :
    ∃ page visited rest, pageIn wire (views index) query cursor = .ok (some page) ∧
      remaining Candidate.slot (listedOf wire (views index) query) position = visited ++ rest ∧
      Shows wire query (views index) visited page ∧
      ((page.nextCursor = none ∧
          (rest = [] ∨ index + 1 = maxPullPages ∧ page.message.truncated)) ∨
        ∃ after next, page.nextCursor = some after ∧ index + 1 < maxPullPages ∧
          remaining Candidate.slot (listedOf wire (views index) query) next = rest ∧
          StartsAt query (generationOf (signatureOf wire (views 0) query))
            (bindingOf (views 0).epoch query.scope query.threadId query.turnIds) (index + 1)
            (some after) next) := by
  set view := views index with hview
  have hval := h.valid
  unfold PageQuery.isValid at hval
  simp only [and_eq_true, decide_eq_true_iff] at hval
  obtain ⟨⟨⟨hthr, htrn⟩, hdist⟩, -⟩ := hval
  obtain ⟨hepoch, hlaterEpoch⟩ := h.epoch index
  have hsignature : signatureOf wire view query = signatureOf wire (views 0) query := h.unchanged index
  set listed := listedOf wire view query with hlist
  set record := recordAt wire view query
  -- what the page is filled with
  have hgen : ∃ hash, generationOf (signatureOf wire (views 0) query) = hashText hash := ⟨_, rfl⟩
  have hbd : ∃ bound, bindingOf (views 0).epoch query.scope query.threadId query.turnIds =
      hashText bound := ⟨_, rfl⟩
  obtain ⟨continuation, hcontinuation, hnew, hposn, hpage⟩ :=
    continuationOf_spec hgen hbd htrn hidx hst
  obtain ⟨filled, resume, visited, rest, hfill, hfilled⟩ : ∃ filled resume visited rest,
      fillLoop wire listed record (recordBudget query) (roundsLeft Candidate.slot listed position + 1) {}
        position = some (filled, resume) ∧
      IsFilled wire listed record (recordBudget query) {} position visited rest filled resume :=
    fillLoop_spec (lt_succ_self _) (listedInOrder h index) (h.carriable index)
      ⟨fun _ => rfl, zero_le _⟩ hst.after
  have hfillEq : fill wire listed record (recordBudget query) position = (filled, resume) := by
    unfold fill
    rw [hfill]
    rfl
  have hin : ∀ visit ∈ visited, ∃ turn, listed[visit.1]? = some turn ∧ visit.2 ∈ turn := by
    intro visit hvisit
    have hleft : visit ∈ remaining Candidate.slot listed position := by
      rw [hfilled.split]
      exact mem_append_left _ hvisit
    exact mem_visits ((remaining_sublist position).subset hleft)
  have hrecs : filled.records = visited.filterMap (emitted wire record (recordBudget query)) :=
    hfilled.records
  have honce : (filled.records.map fun request => (request.turnId, request.id)).Nodup := by
    rw [hrecs]
    refine nodup_emitted hin hdist ?_
    have hall : ((visits Candidate.slot listed).map fun visit => (visit.1, visit.2.slot.id)).Nodup :=
      nodup_visits (nodup_listedOf h index)
    refine hall.sublist (((List.Sublist.trans ?_ (remaining_sublist position))).map _)
    rw [hfilled.split]
    exact sublist_append_left _ _
  -- the message
  set next : Option Continuation := resume.map fun resume =>
    ⟨generationOf (signatureOf wire (views 0) query), { resume with page := index + 1 }⟩ with hnext
  set exhausted := next.any fun next => maxPullPages ≤ next.position.page with hexhausted
  obtain ⟨message, hmsg, hreqs, htr⟩ := messageOf_spec
    { summaryOf view query with
      incomplete := (summaryOf view query).incomplete || filled.incomplete || exhausted }
    hthr (hepoch ▸ h.epochNamed) (h.countable index) hfilled.ok.2 honce
  have hkept : ¬ (summaryOf view query).deleted := by
    unfold summaryOf
    rw [decide_eq_true_iff]
    exact h.kept index
  set binding := bindingOf (views 0).epoch query.scope query.threadId query.turnIds with hbinding
  set shown : ThreadRequestsPage :=
    ⟨message, if exhausted then none else next.map (·.encoded binding)⟩ with hshn
  have hpageIn : pageIn wire view query cursor = .ok (some shown) := by
    unfold pageIn
    dsimp only
    rw [hepoch, ← hbinding, hcontinuation]
    dsimp only
    rw [hsignature, hnew, if_neg Bool.false_ne_true, hposn, ← hlist, hfillEq]
    rw [hlaterEpoch, if_neg (not_not.2 rfl), if_neg hkept, hpage, ← hnext, ← hexhausted, hmsg]
  have hshows : Shows wire query view visited shown := by
    refine ⟨hin, hreqs.trans hrecs, fun visit hvisit hnone => ?_, fun hgoes => ?_⟩
    · refine (emitted_eq_none hnone).imp_right fun hlong => ⟨hlong, htr ?_⟩
      have hany : visited.any (isOversized wire record (recordBudget query)) :=
        any_eq_true.2 ⟨visit, hvisit, hlong⟩
      have hflag : filled.incomplete := by
        rw [hfilled.incomplete, hany, Bool.or_true]
      rw [hflag, Bool.or_true, Bool.true_or]
    · cases hresume : resume with
      | none =>
        refine absurd ?_ hgoes
        rw [hshn, hnext, hresume]
        exact ite_self _
      | some resumed =>
        have hsome := (hfilled.goesOn resumed hresume).2.2.1
        rwa [hreqs]
  refine ⟨shown, visited, rest, hpageIn, hfilled.split, hshows, ?_⟩
  cases hresume : resume with
  | none =>
    refine .inl ⟨?_, .inl (hfilled.done hresume)⟩
    rw [hshn, hnext, hresume]
    exact ite_self _
  | some resumed =>
    obtain ⟨hrest, -, -, hturn, haft⟩ := hfilled.goesOn resumed hresume
    by_cases hlast : maxPullPages ≤ index + 1
    · have hexhaustedTrue : exhausted := by
        rw [hexhausted, hnext, hresume]
        exact decide_eq_true hlast
      refine .inl ⟨?_, .inr ⟨by omega, htr ?_⟩⟩
      · rw [hshn, hexhaustedTrue]
        rfl
      · dsimp only
        rw [hexhaustedTrue, Bool.or_true]
    · have hexhaustedFalse : exhausted = false := by
        rw [hexhausted, hnext, hresume]
        exact decide_eq_false hlast
      refine .inr ⟨_, { resumed with page := index + 1 }, ?_, by omega, ?_, ⟨rfl, haft, .inr
        ⟨succ_pos _, ?_, rfl⟩⟩⟩
      · rw [hshn, hexhaustedFalse, hnext, hresume]
        rfl
      · exact hrest
      · have hlen : listed.length = query.turnIds.length := length_map _
        rwa [hlen] at hturn

end Page

/-- The request of a visit, by its turn and its slot. -/
def visitSlot (visit : ℕ × Candidate) : ℕ × ListedSlot := (visit.1, visit.2.slot)

section Walks

variable {wire : Wire} {query : PageQuery} {views : ℕ → View}

lemma remaining_steady (h : Steady wire query views) (index : ℕ) (position : Position) :
    (remaining Candidate.slot (listedOf wire (views index) query) position).map visitSlot =
      remaining id (signatureOf wire (views 0) query) position := by
  rw [← h.unchanged index]
  exact remaining_map

lemma walk_from (h : Steady wire query views) {left} (hleft : left + index = maxPullPages)
    (hpos : 0 < left)
    (hst : StartsAt query (generationOf (signatureOf wire (views 0) query)) (bindingOf (views 0).epoch
      query.scope query.threadId query.turnIds) index cursor position) :
    ∃ (pages : List ThreadRequestsPage) (visited : List (List (ℕ × Candidate)))
        (rest : List (ℕ × ListedSlot)),
      Walk wire query views index cursor pages ∧ pages.length = visited.length ∧
      pages.length ≤ left ∧
      (∀ offset page visits, pages[offset]? = some page → visited[offset]? = some visits →
        Shows wire query (views (index + offset)) visits page) ∧
      remaining id (signatureOf wire (views 0) query) position = visited.flatten.map visitSlot ++ rest ∧
      (rest = [] ∨ pages.length = left ∧ ∃ page, pages.getLast? = some page ∧ page.message.truncated) := by
  induction left generalizing index cursor position with
  | zero => exact absurd hpos (lt_irrefl 0)
  | succ left ih =>
    obtain ⟨page, visits, rest, hpage, hspl, hshows, hnext⟩ := pageIn_spec h (by omega) hst
    have hsl : remaining id (signatureOf wire (views 0) query) position =
        visits.map visitSlot ++ rest.map visitSlot := by
      rw [← remaining_steady h index, hspl, map_append]
    rcases hnext with ⟨hlast, hdone⟩ | ⟨after, next, hcur, hmore, hrest, hstarts⟩
    · refine ⟨[page], [visits], rest.map visitSlot, .last _ _ _ hpage hlast, rfl, by simp, ?_, ?_, ?_⟩
      · intro offset page' visits' hpage' hvisits'
        cases offset with
        | zero =>
          cases hpage'
          cases hvisits'
          exact hshows
        | succ offset => cases hpage'
      · rw [hsl, flatten_cons, flatten_nil, append_nil]
      · rcases hdone with rfl | ⟨hfull, htr⟩
        · exact .inl rfl
        · refine .inr ⟨?_, page, rfl, htr⟩
          rw [length_singleton]
          omega
    · obtain ⟨pages, visited, rest', hwalk, hlen, hle, hall, hsplit', hend⟩ :=
        ih (by omega) (by omega) hstarts
      refine ⟨page :: pages, visits :: visited, rest', .next _ _ _ after _ hpage hcur hwalk, ?_, ?_, ?_, ?_, ?_⟩
      · rw [length_cons, length_cons, hlen]
      · rw [length_cons]
        omega
      · intro offset page' visits' hpage' hvisits'
        cases offset with
        | zero =>
          cases hpage'
          cases hvisits'
          exact hshows
        | succ offset =>
          rw [← add_assoc, add_right_comm]
          exact hall offset page' visits' hpage' hvisits'
      · rw [hsl, flatten_cons, map_append, append_assoc, ← hsplit', ← remaining_steady h index next, hrest]
      · refine hend.imp_right fun hfull => ⟨?_, ?_⟩
        · rw [length_cons, hfull.1]
        · obtain ⟨last, hlast, htr⟩ := hfull.2
          refine ⟨last, ?_, htr⟩
          rw [getLast?_cons, hlast]
          rfl

end Walks

/-- Every document is `{}`, and every record has one byte. -/
def plainWire : Wire :=
  { plainEncoding with
    decodeOutcome := fun _ => some (.answers "{}")
    validBody := fun _ _ _ => true
    requestBytes := fun _ => 1
    bodyBytes := fun _ => 1
    resolutionBytes := fun _ => 1 }

/-- A session that goes on, with some requests. -/
def sessionOf (requests : List ObservedRequest) : TurnLive := ⟨1, 0, false, requests, [], fun _ => none⟩

def sessionView (live : String → Option TurnLive) : View :=
  ⟨"epoch", "epoch", 0, emptyDatabase, live, 0, false, false, .saved⟩

def sampleQuery (turnIds : List String) : PageQuery := ⟨⟨"root", "owner"⟩, "thread", turnIds, 4096⟩

/-- A first turn with a request that is answered, and a second one with an open request. -/
def twoTurns : View :=
  sessionView fun turnId =>
    some (sessionOf (if turnId = "first" then
      [{ sampleRequest with state := .closed .cancelled .providerCancelled }] else [sampleRequest]))

/-- A question and an approval of one name. -/
def sameName : View :=
  sessionView fun _ => some (sessionOf [sampleRequest, { sampleRequest with body := .approval "{}" }])

end CodevoEditor.RuntimeRequests
