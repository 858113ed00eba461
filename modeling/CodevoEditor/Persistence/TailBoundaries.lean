/-
# A tail keeps its texts apart

`keepTextBoundaries` goes up the indices that are kept with those that it retains.
-/

import CodevoEditor.AgentEvents.PersistenceFixpoint
import CodevoEditor.Persistence.TailBudget

namespace CodevoEditor.Persistence

open Js AgentEvents TailSelection List

variable {events : List AgentTurnEvent} {budget : AgentTurnTailBudget} {selection : TailSelection}

/-- What is retained, the last first, of the indices that are kept in front of `rest`. -/
structure Walked (events : List AgentTurnEvent) (budget : AgentTurnTailBudget) (rest : List ℕ)
    (selection : TailSelection) (retained : List ℕ) : Prop where
  selected : Selected events budget selection
  mem_kept : ∀ index, index ∈ selection.kept ↔ index ∈ retained ∨ index ∈ rest
  descending : retained.Pairwise (· > ·)
  before : ∀ index ∈ retained, ∀ next ∈ rest, index < next
  apart : retained.IsChain fun next previous => wouldFuse events previous next = false

/-- What joins nothing behind it. -/
def Closed (events : List AgentTurnEvent) (index : ℕ) : Prop := ∀ next, wouldFuse events index next = false

lemma keepBoundary_cons (index previous : ℕ) (selection) (retained : List ℕ) :
    (wouldFuse events previous index = false ∧
        keepBoundary events budget index selection (previous :: retained) = (selection, previous :: retained)) ∨
      (wouldFuse events previous index ∧ wouldFuse events previous (index - 1) = false ∧
        (selection.take events budget [index - 1]).2 ∧
        keepBoundary events budget index selection (previous :: retained) =
          ((selection.take events budget [index - 1]).1, (index - 1) :: previous :: retained)) ∨
      (wouldFuse events previous index ∧
        keepBoundary events budget index selection (previous :: retained) =
          keepBoundary events budget index (selection.release events budget previous) retained) := by
  rw [keepBoundary]
  cases hfuse : wouldFuse events previous index with
  | false => exact .inl ⟨rfl, rfl⟩
  | true =>
    refine .inr ?_
    cases hbetween : wouldFuse events previous (index - 1) with
    | true => exact .inr ⟨rfl, rfl⟩
    | false =>
      rcases htake : selection.take events budget [index - 1] with ⟨next, _ | _⟩
      · exact .inr ⟨rfl, rfl⟩
      · exact .inl ⟨rfl, rfl, rfl, rfl⟩

variable {rest retained : List ℕ} {index : ℕ}

variable {previous : ℕ}

lemma Walked.between (h : Walked events budget (index :: rest) selection (previous :: retained))
    (hasc : (index :: rest).Pairwise (· < ·)) (hfuse : wouldFuse events previous index)
    (hbetween : wouldFuse events previous (index - 1) = false)
    (htkn : (selection.take events budget [index - 1]).2) :
    Walked events budget (index :: rest) (selection.take events budget [index - 1]).1
        ((index - 1) :: previous :: retained) ∧
      selection.kept ⊆ (selection.take events budget [index - 1]).1.kept := by
  obtain ⟨hsel, hmem, hdesc, hpre, hapart⟩ := h
  obtain ⟨hgap, -, event, -, -, hget, -⟩ := wouldFuse_iff.1 hfuse
  obtain ⟨hidx, -⟩ := List.getElem?_eq_some_iff.1 hget
  have hrng : ∀ other ∈ [index - 1], other < events.length := fun other hoth => by
    rw [mem_singleton.1 hoth]
    omega
  have hbelow : ∀ other ∈ previous :: retained, other < index - 1 := by
    intro other hoth
    rcases mem_cons.1 hoth with rfl | hoth
    · omega
    · have := (pairwise_cons.1 hdesc).1 other hoth
      omega
  have hnew : index - 1 ∉ selection.kept := by
    rw [hmem]
    rintro (hold | hlat)
    · exact lt_irrefl _ (hbelow _ hold)
    · rcases mem_cons.1 hlat with heq | hlat
      · omega
      · have := (pairwise_cons.1 hasc).1 _ hlat
        omega
  have hmiss : selection.missing [index - 1] = [index - 1] := by
    refine filter_eq_self.2 fun other hoth => ?_
    rw [mem_singleton.1 hoth]
    exact decide_eq_true hnew
  rcases take_spec hsel hrng with ⟨-, -, hkept, hnext⟩ | ⟨-, hsame⟩
  · rw [hmiss] at hkept
    refine ⟨⟨hnext, fun other => ?_, pairwise_cons.2 ⟨hbelow, hdesc⟩, ?_, ?_⟩, ?_⟩
    · rw [hkept, mem_append, hmem, mem_singleton, mem_cons (a := other) (b := index - 1)]
      rw [or_comm, or_assoc]
    · intro other hoth next hnext
      rcases mem_cons.1 hoth with rfl | hoth
      · have := hpre previous mem_cons_self next hnext
        rcases mem_cons.1 hnext with rfl | hnext
        · omega
        · have := (pairwise_cons.1 hasc).1 _ hnext
          omega
      · exact hpre other hoth next hnext
    · exact isChain_cons_cons.2 ⟨hbetween, hapart⟩
    · rw [hkept]
      exact subset_append_left _ _
  · rw [hsame] at htkn
    cases htkn

lemma Walked.release (h : Walked events budget (index :: rest) selection (previous :: retained)) :
    Walked events budget (index :: rest) (selection.release events budget previous) retained ∧
      ∀ other ∈ selection.kept, other ≠ previous → other ∈ (selection.release events budget previous).kept := by
  obtain ⟨hsel, hmem, hdesc, hpre, hapart⟩ := h
  obtain ⟨hlast, hdesc⟩ := pairwise_cons.1 hdesc
  obtain ⟨hkept, hnext⟩ := release_spec hsel ((hmem previous).2 (.inl mem_cons_self))
  refine ⟨⟨hnext, fun other => ?_, hdesc, fun other hoth =>
    hpre other (mem_cons_of_mem _ hoth), hapart.tail⟩, fun other hoth hne => ?_⟩
  · rw [hkept, mem_filter, decide_eq_true_iff, hmem, mem_cons]
    constructor
    · rintro ⟨(heq | hretained) | hrest, hne⟩
      · exact absurd heq hne
      · exact .inl hretained
      · exact .inr hrest
    · rintro (hretained | hrest)
      · exact ⟨.inl (.inr hretained), (hlast other hretained).ne⟩
      · exact ⟨.inr hrest, (hpre previous mem_cons_self other hrest).ne'⟩
  · rw [hkept, mem_filter, decide_eq_true_iff]
    exact ⟨hoth, hne⟩

/-- **An index is made apart from what is retained in front of it.** -/
theorem keepBoundary_spec (h : Walked events budget (index :: rest) selection retained)
    (hasc : (index :: rest).Pairwise (· < ·)) :
    let next := keepBoundary events budget index selection retained
    Walked events budget (index :: rest) next.1 next.2 ∧
      (∀ previous ∈ next.2.head?, wouldFuse events previous index = false) ∧
      ∀ other ∈ selection.kept, Closed events other → other ∈ next.1.kept := by
  induction retained generalizing selection with
  | nil => exact ⟨h, nofun, fun other hoth _ => hoth⟩
  | cons previous retained ih =>
    rcases @keepBoundary_cons events budget index previous selection retained with
      ⟨hapart, hsame⟩ | ⟨hfuse, hbetween, htkn, hnext⟩ | ⟨hfuse, hnext⟩
    · rw [hsame]
      refine ⟨h, fun other hoth => ?_, fun other hoth _ => hoth⟩
      cases hoth
      exact hapart
    · rw [hnext]
      obtain ⟨hwalked, hkept⟩ := h.between hasc hfuse hbetween htkn
      refine ⟨hwalked, fun other hoth => ?_, fun other hoth _ => hkept hoth⟩
      cases hoth
      exact if_pos (by omega)
    · rw [hnext]
      obtain ⟨hwalked, hkept⟩ := h.release
      obtain ⟨hwalkedNext, hhead, hcl⟩ := ih hwalked
      refine ⟨hwalkedNext, hhead, fun other hoth hopen => hcl other (hkept other hoth ?_) hopen⟩
      rintro rfl
      rw [hopen index] at hfuse
      cases hfuse

/-- The body of the loop of `keepTextBoundaries`. -/
def boundaryStep (events : List AgentTurnEvent) (budget : AgentTurnTailBudget)
    (progress : TailSelection × List ℕ) (index : ℕ) : TailSelection × List ℕ :=
  let next := keepBoundary events budget index progress.1 progress.2
  (next.1, index :: next.2)

lemma Walked.step (h : Walked events budget (index :: rest) selection retained)
    (hasc : (index :: rest).Pairwise (· < ·)) :
    let next := boundaryStep events budget (selection, retained) index
    Walked events budget rest next.1 next.2 ∧
      ∀ other ∈ selection.kept, Closed events other → other ∈ next.1.kept := by
  obtain ⟨⟨hsel, hmem, hdesc, hpre, hapart⟩, hhead, hcl⟩ := keepBoundary_spec h hasc
  refine ⟨⟨hsel, fun other => ?_, ?_, ?_, ?_⟩, hcl⟩
  · show other ∈ (keepBoundary events budget index selection retained).1.kept ↔
      other ∈ index :: (keepBoundary events budget index selection retained).2 ∨ other ∈ rest
    rw [hmem, mem_cons, mem_cons, or_left_comm, or_assoc]
  · exact pairwise_cons.2 ⟨fun other hoth => hpre other hoth index mem_cons_self, hdesc⟩
  · intro other hoth next hnext
    rcases mem_cons.1 hoth with rfl | hoth
    · exact (pairwise_cons.1 hasc).1 next hnext
    · exact hpre other hoth next (mem_cons_of_mem _ hnext)
  · exact isChain_cons.2 ⟨hhead, hapart⟩

lemma Walked.run (h : Walked events budget rest selection retained) (hasc : rest.Pairwise (· < ·)) :
    let last := rest.foldl (boundaryStep events budget) (selection, retained)
    Walked events budget [] last.1 last.2 ∧ ∀ other ∈ selection.kept, Closed events other → other ∈ last.1.kept := by
  induction rest generalizing selection retained with
  | nil => exact ⟨h, fun other hoth _ => hoth⟩
  | cons index rest ih =>
    obtain ⟨hwalked, hcl⟩ := h.step hasc
    obtain ⟨hlast, hclosedLast⟩ := ih hwalked (pairwise_cons.1 hasc).2
    exact ⟨hlast, fun other hoth hopen => hclosedLast other (hcl other hoth hopen) hopen⟩

lemma keepTextBoundaries_spec (h : Selected events budget selection) :
    ∃ retained, Walked events budget [] (keepTextBoundaries events budget selection) retained ∧
      ∀ other ∈ selection.kept, Closed events other → other ∈ (keepTextBoundaries events budget selection).kept := by
  have hperm : (selection.kept.mergeSort (· ≤ ·)).Perm selection.kept := mergeSort_perm _ _
  have hsort : (selection.kept.mergeSort (· ≤ ·)).Pairwise fun a b => decide (a ≤ b) :=
    pairwise_mergeSort (fun a b c hab hbc => by
      rw [decide_eq_true_iff] at hab hbc ⊢
      exact hab.trans hbc) (fun a b => by
      rw [Bool.or_eq_true, decide_eq_true_iff, decide_eq_true_iff]
      exact le_total a b) _
  have hasc : (selection.kept.mergeSort (· ≤ ·)).Pairwise (· < ·) :=
    hsort.imp₂ (fun a b hle hne => lt_of_le_of_ne (of_decide_eq_true hle) hne) (hperm.nodup_iff.2 h.nodup)
  have hst : Walked events budget (selection.kept.mergeSort (· ≤ ·)) selection [] :=
    ⟨h, fun index => by rw [hperm.mem_iff, or_iff_right not_mem_nil], .nil, nofun, isChain_nil⟩
  exact ⟨_, hst.run hasc⟩

variable {indices : List ℕ}

lemma eq_of_ascending {indices'} (h : indices.Pairwise (· < ·))
    (h' : indices'.Pairwise (· < ·)) (hmem : ∀ index, index ∈ indices ↔ index ∈ indices') :
    indices = indices' := by
  have hperm : indices.Perm indices' := (perm_ext_iff_of_nodup (h.imp ne_of_lt) (h'.imp ne_of_lt)).2 hmem
  exact hperm.eq_of_pairwise (fun _ _ _ _ hlt hgt => absurd hlt (lt_asymm hgt)) h h'

namespace Walked

section

variable (h : Walked events budget [] selection retained)
include h

lemma ascending : retained.reverse.Pairwise (· < ·) :=
  pairwise_reverse.2 h.descending

lemma mem_reverse_iff (index : ℕ) : index ∈ retained.reverse ↔ index ∈ selection.kept := by
  rw [mem_reverse, h.mem_kept, or_iff_left not_mem_nil]

lemma lt_length {index} (hmem : index ∈ retained.reverse) : index < events.length :=
  h.selected.inRange index ((h.mem_reverse_iff index).1 hmem)

lemma filterIndex_eq : filterIndex (· ∈ selection.kept) events = retained.reverse.filterMap (events[·]?) := by
  rw [Persistence.filterIndex_eq]
  congr 1
  refine eq_of_ascending (pairwise_lt_range.filter _) h.ascending fun index => ?_
  rw [mem_filter, mem_range, decide_eq_true_iff, h.mem_reverse_iff]
  exact and_iff_right_of_imp (h.selected.inRange index)

lemma perm : retained.reverse.Perm selection.kept :=
  (perm_ext_iff_of_nodup (h.ascending.imp ne_of_lt) h.selected.nodup).2 h.mem_reverse_iff

lemma fits : IndicesFit events budget retained.reverse :=
  h.selected.fits.subperm h.perm.subperm

end

end Walked

/-- The events at some indices. -/
def eventsAt (events : List AgentTurnEvent) (indices : List ℕ) : List AgentTurnEvent :=
  indices.filterMap (events[·]?)

variable {event : AgentTurnEvent}

lemma eventsAt_cons (h : events[index]? = some event) :
    eventsAt events (index :: indices) = event :: eventsAt events indices := filterMap_cons_some h

lemma length_eventsAt (h : ∀ index ∈ indices, index < events.length) :
    (eventsAt events indices).length = indices.length := by
  induction indices with
  | nil => rfl
  | cons index indices ih =>
    have hget := getElem?_eq_getElem (h index mem_cons_self)
    rw [eventsAt_cons hget, length_cons, length_cons, ih fun other hoth => h other (mem_cons_of_mem _ hoth)]

lemma sum_eventsAt (h : ∀ index ∈ indices, index < events.length) :
    ((eventsAt events indices).map budget.eventBytes).sum = bytesOf events budget indices := by
  induction indices with
  | nil => rfl
  | cons index indices ih =>
    have hlt := h index mem_cons_self
    have hget := getElem?_eq_getElem hlt
    have hown : bytesAt events budget index = budget.eventBytes events[index] := by
      unfold bytesAt
      rw [hget]
      rfl
    rw [eventsAt_cons hget, map_cons, sum_cons, bytesOf, map_cons, sum_cons, hown,
      ih fun other hoth => h other (mem_cons_of_mem _ hoth)]
    rfl

lemma threads_eventsAt (events) (indices : List ℕ) :
    (eventsAt events indices).filterMap (·.agentThreadId?) = threadsOf events indices := filterMap_filterMap

lemma eventsAt_fit (h : ∀ index ∈ indices, index < events.length)
    (hfits : IndicesFit events budget indices) :
    agentTurnTailFits (eventsAt events indices) budget := by
  obtain ⟨hlen, hths, hby⟩ := hfits
  unfold agentTurnTailFits distinctSubagentThreads
  rw [length_eventsAt h, sum_eventsAt h, threads_eventsAt, hby, decide_eq_true hlen,
    decide_eq_true hths]
  rfl

variable {last : AgentTurnEvent}

lemma parted_of_wouldFuse (h : events.IsChain Parted) {next} (hlt : previous < next)
    (hapart : wouldFuse events previous next = false) (hlast : events[previous]? = some last)
    (hev : events[next]? = some event) : Parted last event := by
  by_cases hadjacent : next = previous + 1
  · subst hadjacent
    obtain ⟨hbd, rfl⟩ := List.getElem?_eq_some_iff.1 hev
    obtain ⟨hbound', rfl⟩ := List.getElem?_eq_some_iff.1 hlast
    exact isChain_iff_getElem.1 h previous hbd
  · refine Option.eq_none_iff_forall_not_mem.2 fun fused hfu => ?_
    have hfuse := wouldFuse_iff.2 ⟨by omega, last, event, fused, hlast, hev, hfu⟩
    rw [hapart] at hfuse
    cases hfuse

lemma isChain_eventsAt (h : events.IsChain Parted)
    (hrng : ∀ index ∈ indices, index < events.length) (hasc : indices.Pairwise (· < ·))
    (hapart : indices.IsChain fun previous next => wouldFuse events previous next = false) :
    (eventsAt events indices).IsChain Parted := by
  induction indices with
  | nil => exact isChain_nil
  | cons previous indices ih =>
    have hget := getElem?_eq_getElem (hrng previous mem_cons_self)
    have htail := ih (fun other hoth => hrng other (mem_cons_of_mem _ hoth))
      (pairwise_cons.1 hasc).2 hapart.tail
    rw [eventsAt_cons hget]
    refine isChain_cons.2 ⟨fun event hev => ?_, htail⟩
    cases indices with
    | nil => cases hev
    | cons next indices =>
      have hnext := getElem?_eq_getElem (hrng next (mem_cons_of_mem _ mem_cons_self))
      rw [eventsAt_cons hnext] at hev
      cases hev
      exact parted_of_wouldFuse h ((pairwise_cons.1 hasc).1 next mem_cons_self)
        (isChain_cons_cons.1 hapart).1 hget hnext

lemma Walked.persistable (h : Walked events budget [] selection retained) (hevs : Persistable events) :
    Persistable (filterIndex (· ∈ selection.kept) events) := by
  refine ⟨?_, overLimits_sublist (filterIndex_sublist _ _) hevs.2⟩
  rw [h.filterIndex_eq]
  exact isChain_eventsAt hevs.1 (fun _ => h.lt_length) h.ascending (isChain_reverse.2 h.apart)

lemma closed_result (h : lastIndexWhere events isResult = some index) : Closed events index := by
  obtain ⟨⟨event, hget, hres⟩, -⟩ := lastIndexWhere_eq_some_iff.1 h
  intro next
  refine Bool.eq_false_iff.2 fun hfuse => ?_
  obtain ⟨-, last, later, fused, hlast, -, hfu⟩ := wouldFuse_iff.1 hfuse
  obtain rfl := Option.some.inj (hget.symm.trans hlast)
  obtain ⟨channel, text, laterText, fusedText, rfl, -⟩ := coalesceAgentTextEvents_eq_some_iff.1 hfu
  cases channel <;> cases hres

lemma isAgentMainReply_of_fused {fused} (h : isAgentMainReply last)
    (hfu : coalesceAgentTextEvents last event = some fused) : isAgentMainReply event := by
  obtain ⟨channel, lastText, nextText, fusedText, rfl, rfl, -, htext⟩ := coalesceAgentTextEvents_eq_some_iff.1 hfu
  obtain ⟨hparent, -, -⟩ := coalesceTextEvents_eq_some_iff.1 htext
  cases channel with
  | assistantText =>
    refine decide_eq_true ?_
    rw [← hparent]
    exact of_decide_eq_true h
  | reasoning => cases h
  | childText => cases h
  | childReasoning => cases h

lemma closed_answer (h : lastIndexWhere events isAgentMainReply = some index) : Closed events index := by
  obtain ⟨⟨event, hget, hreply⟩, hlat⟩ := lastIndexWhere_eq_some_iff.1 h
  intro next
  refine Bool.eq_false_iff.2 fun hfuse => ?_
  obtain ⟨hlt, last, later, fused, hlast, hnext, hfu⟩ := wouldFuse_iff.1 hfuse
  obtain rfl := Option.some.inj (hget.symm.trans hlast)
  have hnone := hlat next later (by omega) hnext
  rw [isAgentMainReply_of_fused hreply hfu] at hnone
  cases hnone

/-- **The tail of a turn**: some of the events in order, within the budget, with the closing result
and the last main reply if they fit. -/
theorem selectAgentTurnTail_spec (events : List AgentTurnEvent) (budget : AgentTurnTailBudget) :
    let kept := selectAgentTurnTail events budget
    let tail := filterIndex (· ∈ kept) events
    (kept.Nodup ∧ (∀ index ∈ kept, index < events.length) ∧ tail.Sublist events) ∧
      (tail.length ≤ budget.maxEvents ∧ budget.holds (tail.map budget.eventBytes).sum ∧
        distinctSubagentThreads tail ≤ maxSubagentThreadsPerTurn) ∧
      (∀ closing, lastIndexWhere events isResult = some closing →
        IndicesFit events budget [closing] → closing ∈ kept) ∧
      (∀ answer, lastIndexWhere events isAgentMainReply = some answer →
        IndicesFit events budget (closingKept events budget ++ [answer]) → answer ∈ kept) ∧
      ((capPersistedTurnEvents events).events = events → capPersistedTurnEvents tail = ⟨tail, false⟩) := by
  obtain ⟨hsel, hclose, hanswer⟩ := filled_spec events budget
  obtain ⟨retained, hwalked, hclosed⟩ := keepTextBoundaries_spec hsel
  have hfit := eventsAt_fit (fun _ => hwalked.lt_length) hwalked.fits
  rw [eventsAt, ← hwalked.filterIndex_eq] at hfit
  unfold agentTurnTailFits at hfit
  rw [Bool.and_eq_true, Bool.and_eq_true, decide_eq_true_iff, decide_eq_true_iff] at hfit
  obtain ⟨⟨hlen, hthreads⟩, hbytes⟩ := hfit
  refine ⟨⟨hwalked.selected.nodup, hwalked.selected.inRange, filterIndex_sublist _ _⟩,
    ⟨hlen, hbytes, hthreads⟩, fun closing hlast hfits => ?_, fun answer hlast hfits => ?_, fun hfixed => ?_⟩
  · refine hclosed closing (hclose ?_) (closed_result hlast)
    rw [closingKept, hlast]
    exact mem_filter.2 ⟨mem_singleton_self closing, decide_eq_true hfits⟩
  · exact hclosed answer (hanswer answer hlast hfits) (closed_answer hlast)
  · exact capPersistedTurnEvents_of_persistable (hwalked.persistable (persistable_of_capPersistedTurnEvents hfixed))

def repliedTurn : List AgentTurnEvent :=
  [.assistantText ⟨js "done", none⟩, .result ⟨none, js "done", false, none⟩]

def oneEvent : AgentTurnTailBudget := ⟨1, none, fun _ => 1⟩

/-- The last reply fits, and so does the result, but there is room for only one of them. -/
theorem selectAgentTurnTail_single :
    (lastIndexWhere repliedTurn isAgentMainReply = some 0 ∧ lastIndexWhere repliedTurn isResult = some 1) ∧
      (IndicesFit repliedTurn oneEvent [0] ∧ IndicesFit repliedTurn oneEvent [1]) ∧
      selectAgentTurnTail repliedTurn oneEvent = [1] := by
  decide +kernel

end CodevoEditor.Persistence
