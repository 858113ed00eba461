/-
# Following the pages of a turn

A reader that follows `Before(firstSeq)` or `After(lastSeq)` sees a `ShowsPage` of the rows that
remain.
-/

import CodevoEditor.Runs.Paging
import CodevoEditor.TurnLogStore.PageRows

namespace CodevoEditor.TurnLogStore

open Js Sql Runs List Option

variable {ε δ μ : Type} {decodeEvent : List UInt8 → Option ε}

lemma exists_last_readable {ρ α : Type} {read : ρ → Option α} (rows : List ρ) :
    (∀ row ∈ rows, read row = none) ∨ ∃ before row after last, rows = before ++ row :: after ∧
      read row = some last ∧ rows.filterMap read = before.filterMap read ++ [last] := by
  induction rows using List.reverseRecOn with
  | nil => exact .inl nofun
  | append_singleton rows row ih =>
    cases hread : read row with
    | some last =>
      refine .inr ⟨rows, row, [], last, rfl, hread, ?_⟩
      rw [filterMap_append, filterMap_cons_some hread, filterMap_nil]
    | none =>
      rcases ih with hnone | ⟨before, other, after, last, hrows, hoth, heq⟩
      · refine .inl fun found hget => ?_
        rcases mem_append.1 hget with hget | hget
        · exact hnone found hget
        · rw [mem_singleton.1 hget]
          exact hread
      · refine .inr ⟨before, other, after ++ [row], last, ?_, hoth, ?_⟩
        · rw [hrows, append_assoc, cons_append]
        · rw [filterMap_append, filterMap_cons_none hread, filterMap_nil, append_nil, heq]

variable (decodeEvent) in
/-- **What is collected of some rows ends with one of them**, unless none of as many as the
budget allows can be read. -/
theorem collect_shows (rows) (budget : Budget) :
    ((collect decodeEvent rows budget).entries = [] ∧
        ∀ row ∈ rows.take budget.events, readRow decodeEvent row = none) ∨
      ∃ before row after last, rows = before ++ row :: after ∧ before.length < budget.events ∧
        readRow decodeEvent row = some last ∧
        (collect decodeEvent rows budget).entries = before.filterMap (readRow decodeEvent) ++ [last] := by
  obtain ⟨seen, rest, htake, hents, -, -, hrest, -⟩ := collect_spec decodeEvent rows budget
  rcases exists_last_readable seen with
    hnone | ⟨before, row, after, last, hseen, hrow, heq⟩
  · have hemp := filterMap_eq_nil_iff.2 hnone
    rw [hemp] at hents
    refine .inl ⟨hents, ?_⟩
    have hnil : rest = [] := by
      by_contra hne
      exact (hrest hne).2 hents
    rw [htake, hnil, append_nil]
    exact hnone
  · refine .inr ⟨before, row, after ++ rest ++ rows.drop budget.events, last, ?_, ?_, hrow,
      hents.trans heq⟩
    · calc rows = rows.take budget.events ++ rows.drop budget.events := (take_append_drop _ _).symm
        _ = _ := by
          rw [htake, hseen]
          simp only [append_assoc, cons_append]
    · have hlen := congrArg List.length htake
      rw [hseen, length_take, length_append, length_append, length_cons] at hlen
      omega

namespace TurnLogDatabase

variable {db : TurnLogDatabase δ μ} {turnId : String} {row : Option (TurnMetaRow δ μ)}
  {request : ReadAgentTurnLogPageRequest}

/-- What `read_page` collects. -/
def collectedOf (decodeEvent : List UInt8 → Option ε) (db : TurnLogDatabase δ μ)
    (request : ReadAgentTurnLogPageRequest) : Collected ε :=
  db.collectAt decodeEvent request.scope.turnId request.anchor ⟨request.maxEvents, request.maxBytes⟩

variable (decodeEvent) in
/-- **A page is what is collected**, with the numbers of its first and its last entry. -/
theorem readPage_cases (db : TurnLogDatabase δ μ) (request : ReadAgentTurnLogPageRequest)
    (row : Option (TurnMetaRow δ μ)) :
    ((db.collectedOf decodeEvent request).entries = [] ∧ db.readPage decodeEvent request row =
        db.emptyAnchoredPage request.scope.turnId request.anchor
          (pageLoss row (db.collectedOf decodeEvent request).unreadable)) ∨
      ∃ first last, (db.collectedOf decodeEvent request).entries.head? = some first ∧
        (db.collectedOf decodeEvent request).entries.getLast? = some last ∧
        db.readPage decodeEvent request row =
          { entries := (db.collectedOf decodeEvent request).entries
            firstSeq := first.seq
            lastSeq := last.seq
            hasEarlier := db.existsSeq request.scope.turnId (· < first.seq)
            hasLater := db.existsSeq request.scope.turnId (last.seq < ·)
            loss := pageLoss row (db.collectedOf decodeEvent request).unreadable
            clipped := (db.collectedOf decodeEvent request).clipped } := by
  unfold readPage
  dsimp only
  have hcoll : db.collectAt decodeEvent request.scope.turnId request.anchor
      ⟨request.maxEvents, request.maxBytes⟩ = db.collectedOf decodeEvent request := rfl
  rw [hcoll]
  generalize db.collectedOf decodeEvent request = collected
  obtain ⟨entries, bytes, clipped, unreadable⟩ := collected
  cases entries with
  | nil => exact .inl ⟨rfl, rfl⟩
  | cons first rest =>
    refine .inr ⟨first, (rest.getLast?).getD first, rfl, getLast?_cons, ?_⟩
    have hlast : (rest.getLast?.map (·.seq)).getD first.seq = ((rest.getLast?).getD first).seq := by
      cases rest.getLast? with
      | none => rfl
      | some last => rfl
    dsimp only
    rw [hlast]

/-- The page before a number, or the last one. -/
def earlierRequest (scope : AgentTurnLogScope) (budget : Budget) (position : Option ℤ) :
    ReadAgentTurnLogPageRequest :=
  ⟨scope, ⟨if position.isSome then .before else .tail, position⟩, budget.events, budget.bytes⟩

/-- Where a reader that follows `hasEarlier` goes on. -/
def nextEarlier (page : AgentTurnLogPage ε) : Option (Option ℤ) :=
  if page.hasEarlier then some (some page.firstSeq) else none

/-- The highest number of the rows that a page downwards is taken from. -/
def highestOf (position : Option ℤ) : ℤ :=
  match position with
  | none => maxI64
  | some seq => saturatingI64 (seq - 1)

variable (decodeEvent) in
lemma collectedOf_earlier (db : TurnLogDatabase δ μ) (scope : AgentTurnLogScope) (budget : Budget)
    (position : Option ℤ) : db.collectedOf decodeEvent (earlierRequest scope budget position) =
      db.descending decodeEvent scope.turnId (highestOf position) budget := by
  cases position with
  | none => rfl
  | some seq => rfl

variable {seq : ℤ}

lemma saturatingI64_of_counter (h : 0 ≤ seq ∧ seq ≤ maxLogCounter + 1) : saturatingI64 seq = seq := by
  unfold maxLogCounter at h
  unfold saturatingI64 maxI64
  omega

lemma rowsUpTo_eq_nil (h : ¬ db.existsSeq turnId (· < seq)) : db.rowsUpTo turnId (seq - 1) = [] := by
  rw [eq_nil_iff_forall_not_mem]
  intro other hoth
  obtain ⟨hget, hle⟩ := mem_rowsUpTo_iff.1 hoth
  refine h (existsSeq_iff.2 ⟨other.1, isSome_iff_exists.2 ⟨_, hget⟩, ?_⟩)
  rw [decide_eq_true_eq]
  omega

lemma rowsFrom_eq_nil (h : ¬ db.existsSeq turnId (seq < ·)) : db.rowsFrom turnId (seq + 1) = [] := by
  rw [eq_nil_iff_forall_not_mem]
  intro other hoth
  obtain ⟨hget, hle⟩ := mem_rowsFrom_iff.1 hoth
  refine h (existsSeq_iff.2 ⟨other.1, isSome_iff_exists.2 ⟨_, hget⟩, ?_⟩)
  rw [decide_eq_true_eq]
  omega

variable {scope : AgentTurnLogScope}

/-- **A page downwards shows the rows below its position.** -/
theorem showsPage_readEarlier (h : db.Numbered scope.turnId) (budget : Budget)
    (row : Option (TurnMetaRow δ μ)) (position : Option ℤ) :
    ShowsPage budget.events (readRow decodeEvent) (fun position => db.rowsUpTo scope.turnId (highestOf position))
      (db.readPage decodeEvent (earlierRequest scope budget position) row).entries.reverse
      (nextEarlier (db.readPage decodeEvent (earlierRequest scope budget position) row))
      (db.rowsUpTo scope.turnId (highestOf position)) := by
  have hcoll := collectedOf_earlier decodeEvent db scope budget position
  have hents : (db.collectedOf decodeEvent (earlierRequest scope budget position)).entries =
      (collect decodeEvent (db.rowsUpTo scope.turnId (highestOf position)) budget).entries.reverse := by
    rw [hcoll]
    rfl
  rcases readPage_cases decodeEvent db (earlierRequest scope budget position) row with
    ⟨hemp, hpage⟩ | ⟨first, last, hfst, -, hpage⟩
  · rw [hpage]
    rcases collect_shows decodeEvent (db.rowsUpTo scope.turnId (highestOf position)) budget with
      ⟨-, hnone⟩ | ⟨before, found, after, last, -, -, -, hshn⟩
    · refine .nothing _ rfl ?_ hnone
      cases position with
      | none => rfl
      | some seq => rfl
    · rw [hents, hshn, reverse_append] at hemp
      cases hemp
  · rcases collect_shows decodeEvent (db.rowsUpTo scope.turnId (highestOf position)) budget with
      ⟨hnil, -⟩ | ⟨before, found, after, last', hrows, hlimit, hread, hshn⟩
    · rw [hents, hnil] at hfst
      cases hfst
    · rw [hents, hshn, reverse_append] at hfst
      cases hfst
      have hseq := seq_of_readRow hread
      have hrest := rowsUpTo_of_split hrows
      have hstore : db.events.get? (scope.turnId, found.1) = some found.2 :=
        (mem_rowsUpTo_iff.1 (hrows ▸ mem_append_right _ mem_cons_self)).1
      have hget := h found.1 (by rw [hstore]; rfl)
      have hbelow : highestOf (some found.1) = found.1 - 1 := by
        refine saturatingI64_of_counter ?_
        unfold agentTurnLogSeqBase at hget
        omega
      rw [hpage, hrows]
      refine .something before found after hlimit (by rw [hread]; rfl) ?_ ?_
      · dsimp only
        rw [hents, hshn, reverse_reverse, filterMap_append, filterMap_cons_some hread, filterMap_nil]
      · unfold nextEarlier
        rw [hseq]
        split_ifs with hearlier
        · refine .inr ⟨_, rfl, ?_⟩
          rw [hbelow]
          exact hrest
        · exact .inl ⟨rfl, hrest.symm.trans (rowsUpTo_eq_nil hearlier)⟩

/-- The page after a number. -/
def laterRequest (scope : AgentTurnLogScope) (budget : Budget) (position : ℤ) : ReadAgentTurnLogPageRequest :=
  ⟨scope, ⟨.after, some position⟩, budget.events, budget.bytes⟩

/-- Where a reader that follows `hasLater` goes on. -/
def nextLater (page : AgentTurnLogPage ε) : Option ℤ :=
  if page.hasLater then some page.lastSeq else none

/-- **A page upwards shows the rows above its position.** -/
theorem showsPage_readLater (h : db.Numbered scope.turnId) (budget : Budget)
    (row : Option (TurnMetaRow δ μ)) (position : ℤ) :
    ShowsPage budget.events (readRow decodeEvent)
      (fun position => db.rowsFrom scope.turnId (saturatingI64 (position + 1)))
      (db.readPage decodeEvent (laterRequest scope budget position) row).entries
      (nextLater (db.readPage decodeEvent (laterRequest scope budget position) row))
      (db.rowsFrom scope.turnId (saturatingI64 (position + 1))) := by
  have hents : (db.collectedOf decodeEvent (laterRequest scope budget position)).entries =
      (collect decodeEvent (db.rowsFrom scope.turnId (saturatingI64 (position + 1))) budget).entries := rfl
  have hcollect := collect_shows decodeEvent (db.rowsFrom scope.turnId (saturatingI64 (position + 1))) budget
  rcases readPage_cases decodeEvent db (laterRequest scope budget position) row with
    ⟨hemp, hpage⟩ | ⟨first, last, -, hlast, hpage⟩
  · rw [hpage]
    rcases hcollect with ⟨-, hnone⟩ | ⟨before, found, after, last, -, -, -, hshn⟩
    · exact .nothing _ rfl rfl hnone
    · rw [hents, hshn] at hemp
      exact absurd hemp (append_ne_nil_of_right_ne_nil _ (cons_ne_nil _ _))
  · rcases hcollect with ⟨hnil, -⟩ | ⟨before, found, after, last', hrows, hlimit, hread, hshn⟩
    · rw [hents, hnil] at hlast
      cases hlast
    · rw [hents, hshn, getLast?_concat] at hlast
      cases hlast
      have hseq := seq_of_readRow hread
      have hrest := rowsFrom_of_split hrows
      have hstore : db.events.get? (scope.turnId, found.1) = some found.2 :=
        (mem_rowsFrom_iff.1 (hrows ▸ mem_append_right _ mem_cons_self)).1
      have hget := h found.1 (isSome_iff_exists.2 ⟨_, hstore⟩)
      have habove : saturatingI64 (found.1 + 1) = found.1 + 1 := by
        refine saturatingI64_of_counter ?_
        unfold agentTurnLogSeqBase at hget
        omega
      rw [hpage, hrows]
      refine .something before found after hlimit (by rw [hread]; rfl) ?_ ?_
      · dsimp only
        rw [hents, hshn, filterMap_append, filterMap_cons_some hread, filterMap_nil]
      · unfold nextLater
        rw [hseq]
        split_ifs with hlat
        · refine .inr ⟨_, rfl, ?_⟩
          rw [habove]
          exact hrest
        · exact .inl ⟨rfl, hrest.symm.trans (rowsFrom_eq_nil hlat)⟩

/-- The events of a turn that decode, from a number on. -/
def decodedFrom (decodeEvent : List UInt8 → Option ε) (db : TurnLogDatabase δ μ) (turnId : String)
    (lowestSeq : ℤ) : List (AgentTurnLogEntry ε) :=
  (db.rowsFrom turnId lowestSeq).filterMap (readRow decodeEvent)

lemma rowsUpTo_eq_reverse (h : db.Numbered turnId) :
    db.rowsUpTo turnId maxI64 = (db.rowsFrom turnId agentTurnLogSeqBase).reverse := by
  have hirrefl : Std.Irrefl fun row other : SeqRow => other.1 < row.1 := ⟨fun row => lt_irrefl row.1⟩
  refine (db.pairwise_rowsUpTo turnId maxI64).eq_of_mem_iff
    (pairwise_reverse.2 (db.pairwise_rowsFrom turnId agentTurnLogSeqBase)) fun row => ?_
  rw [mem_reverse, mem_rowsUpTo_iff, mem_rowsFrom_iff]
  refine and_congr_right fun hget => ?_
  have hrow := h row.1 (isSome_iff_exists.2 ⟨_, hget⟩)
  unfold maxLogCounter at hrow
  unfold maxI64
  omega

variable {rows : List SeqRow} {budget : Budget}

/-- **An empty page of a turn that has rows there reports them.** -/
theorem unreadable_of_empty (hevs : 1 ≤ budget.events) (hrows : rows ≠ [])
    (hemp : (collect decodeEvent rows budget).entries = []) :
    (collect decodeEvent rows budget).unreadable := by
  obtain ⟨seen, rest, htake, hents, hunread, -, hrest, -⟩ := collect_spec decodeEvent rows budget
  cases rows with
  | nil => exact absurd rfl hrows
  | cons row rows =>
    have hnil : rest = [] := by
      by_contra hne
      exact (hrest hne).2 hemp
    rw [hnil, append_nil] at htake
    have hmem : row ∈ seen := by
      obtain ⟨events, hpred⟩ := Nat.exists_eq_add_of_le' hevs
      rw [← htake, hpred, take_succ_cons]
      exact mem_cons_self
    rw [hunread]
    exact any_isNone_of_mem ⟨row, hmem, filterMap_eq_nil_iff.1 (hents.symm.trans hemp) row hmem⟩

lemma readPage_left_out (h : db.Numbered request.scope.turnId) (row : Option (TurnMetaRow δ μ))
    {stored} (hget : db.events.get? (request.scope.turnId, seq) = some stored)
    (hlow : (db.readPage decodeEvent request row).firstSeq ≤ seq)
    (hhigh : seq ≤ (db.readPage decodeEvent request row).lastSeq)
    (hout : ∀ entry ∈ (db.readPage decodeEvent request row).entries, entry.seq ≠ seq) :
    decodeEvent stored.payload = none ∧ (db.readPage decodeEvent request row).loss = .of .unreadable := by
  obtain ⟨shown, hshn⟩ := pageRows_collectAt decodeEvent h request.anchor ⟨request.maxEvents, request.maxBytes⟩
  rcases readPage_cases decodeEvent db request row with ⟨-, hpage⟩ | ⟨first, last, hfst, hlast, hpage⟩
  · rw [hpage] at hhigh
    change seq ≤ 0 at hhigh
    have hseq := (h seq (isSome_iff_exists.2 ⟨_, hget⟩)).1
    unfold agentTurnLogSeqBase at hseq
    omega
  · rw [hpage] at hlow hhigh hout ⊢
    obtain ⟨hnone, hunread⟩ := hshn.left_out hget ⟨first, mem_of_head? hfst, hlow⟩
      ⟨last, mem_of_getLast? hlast, hhigh⟩ hout
    refine ⟨hnone, ?_⟩
    unfold collectedOf
    rw [hunread]
    rfl

lemma readPage_entries (db : TurnLogDatabase δ μ) (request : ReadAgentTurnLogPageRequest)
    (row : Option (TurnMetaRow δ μ)) : (db.readPage decodeEvent request row).entries =
      (db.collectedOf decodeEvent request).entries := by
  rcases readPage_cases decodeEvent db request row with ⟨hemp, hpage⟩ | ⟨first, last, -, -, hpage⟩
  · rw [hpage, hemp]
    rfl
  · rw [hpage]

lemma loss_of_empty (hevs : 1 ≤ budget.events) (hrows : rows ≠ [])
    (hemp : (db.readPage decodeEvent request row).entries = [])
    (hcoll : (db.collectedOf decodeEvent request).entries = [] → (collect decodeEvent rows budget).entries = [])
    (hunread : (db.collectedOf decodeEvent request).unreadable = (collect decodeEvent rows budget).unreadable) :
    (db.readPage decodeEvent request row).loss = .of .unreadable := by
  rw [readPage_entries] at hemp
  have htrue := unreadable_of_empty hevs hrows (hcoll hemp)
  rw [← hunread] at htrue
  rcases readPage_cases decodeEvent db request row with ⟨-, hpage⟩ | ⟨first, last, hfst, -, -⟩
  · rw [hpage, htrue]
    rfl
  · rw [hemp] at hfst
    cases hfst

end TurnLogDatabase

open TurnLogDatabase

/-- **Following the pages of a turn visits every event that decodes, once and in order, if and only
if no run of rows that do not decode fills a page**; the pages report the others. -/
theorem turn_pages_visit_all (decodeEvent : List UInt8 → Option ε) (db : TurnLogDatabase δ μ)
    (row : Option (TurnMetaRow δ μ)) (scope : AgentTurnLogScope) (budget : Budget)
    (hevs : 1 ≤ budget.events) (h : db.Numbered scope.turnId) :
    (∀ anchor, (db.readPage decodeEvent ⟨scope, anchor, budget.events, budget.bytes⟩ row).entries.Pairwise
        (fun entry other => entry.seq < other.seq) ∧
      ∀ seq stored, db.events.get? (scope.turnId, seq) = some stored →
        (db.readPage decodeEvent ⟨scope, anchor, budget.events, budget.bytes⟩ row).firstSeq ≤ seq →
        seq ≤ (db.readPage decodeEvent ⟨scope, anchor, budget.events, budget.bytes⟩ row).lastSeq →
        (∀ entry ∈ (db.readPage decodeEvent ⟨scope, anchor, budget.events, budget.bytes⟩ row).entries,
          entry.seq ≠ seq) →
        decodeEvent stored.payload = none ∧
          (db.readPage decodeEvent ⟨scope, anchor, budget.events, budget.bytes⟩ row).loss = .of .unreadable) ∧
    ((∃ pages, Follows (fun position => db.readPage decodeEvent (earlierRequest scope budget position) row)
        nextEarlier none pages) ∧
      (∀ position, db.rowsUpTo scope.turnId (highestOf position) ≠ [] →
        (db.readPage decodeEvent (earlierRequest scope budget position) row).entries = [] →
        (db.readPage decodeEvent (earlierRequest scope budget position) row).loss = .of .unreadable) ∧
      ∀ pages, Follows (fun position => db.readPage decodeEvent (earlierRequest scope budget position) row)
          nextEarlier none pages →
        (pages.reverse.flatMap (·.entries) =
            db.decodedFrom decodeEvent scope.turnId agentTurnLogSeqBase ↔
          NoLongGap budget.events (readRow decodeEvent) (db.rowsUpTo scope.turnId maxI64))) ∧
    ∀ after, 0 ≤ after → after ≤ maxLogCounter →
      (∃ pages, Follows (fun position => db.readPage decodeEvent (laterRequest scope budget position) row)
        nextLater after pages) ∧
      (db.rowsFrom scope.turnId (after + 1) ≠ [] →
        (db.readPage decodeEvent (laterRequest scope budget after) row).entries = [] →
        (db.readPage decodeEvent (laterRequest scope budget after) row).loss = .of .unreadable) ∧
      ∀ pages, Follows (fun position => db.readPage decodeEvent (laterRequest scope budget position) row)
          nextLater after pages →
        (pages.flatMap (·.entries) = db.decodedFrom decodeEvent scope.turnId (after + 1) ↔
          NoLongGap budget.events (readRow decodeEvent) (db.rowsFrom scope.turnId (after + 1))) := by
  refine ⟨fun anchor => ⟨?_, fun seq stored hget => ?_⟩, ⟨?_, fun position hrows hempty => ?_,
    fun pages hpages => ?_⟩, fun after hpos hle => ?_⟩
  · rw [readPage_entries]
    obtain ⟨shown, hshown⟩ := pageRows_collectAt decodeEvent h anchor budget
    exact hshown.entries_sorted
  · exact readPage_left_out h row hget
  · exact exists_follows (fun page => page.entries.reverse) (fun position =>
      showsPage_readEarlier h budget row position) none
  · have hcoll := collectedOf_earlier decodeEvent db scope budget position
    refine loss_of_empty hevs hrows hempty (fun hnil => ?_) ?_
    · rw [hcoll] at hnil
      exact reverse_eq_nil_iff.1 hnil
    · rw [hcoll]
      rfl
  · have hshows := hpages.shows_iff (fun page => page.entries.reverse) (fun position =>
      showsPage_readEarlier h budget row position)
    change _ ↔ NoLongGap _ _ (db.rowsUpTo scope.turnId maxI64) at hshows
    rw [← hshows]
    change _ ↔ _ = (db.rowsUpTo scope.turnId maxI64).filterMap _
    rw [rowsUpTo_eq_reverse h, filterMap_reverse, ← reverse_inj, reverse_flatMap, reverse_reverse]
    rfl
  · have habove : saturatingI64 (after + 1) = after + 1 := saturatingI64_of_counter (by omega)
    refine ⟨?_, fun hrows hempty => ?_, fun pages hpages => ?_⟩
    · exact exists_follows (·.entries) (fun position => showsPage_readLater h budget row position) after
    · rw [← habove] at hrows
      exact loss_of_empty hevs hrows hempty id rfl
    · have hshows := hpages.shows_iff (·.entries) (fun position => showsPage_readLater h budget row position)
      rw [habove] at hshows
      exact hshows

def sampleDecode (payload : List UInt8) : Option String :=
  ["one", "three"].find? fun event => event.toUTF8.toList = payload

lemma reaches_appendedLog : Reaches (Serves sampleLogCodec) .empty [("turn-1", ⟨1, 1, none, 0⟩)] appendedLog :=
  reaches_openedLog.trans (.single (.appended openedLog
    ⟨sampleScope, 1, 1, [⟨1, "one"⟩, ⟨2, "three"⟩], none, false, noLoss, none⟩))

lemma numbered_appendedLog : appendedLog.Numbered "turn-1" :=
  have hcounters := counters_of_reaches reaches_appendedLog
  hcounters.2.numbered hcounters.1 "turn-1"

theorem turn_pages_visit_all_sample :
    ∃ pages, Follows (fun position =>
        appendedLog.readPage sampleDecode (earlierRequest sampleScope ⟨1, 100⟩ position) none)
        nextEarlier none pages ∧
      pages.reverse.flatMap (·.entries) = [⟨1, "one"⟩, ⟨2, "three"⟩] := by
  obtain ⟨-, ⟨⟨pages, hpages⟩, -, hiff⟩, -⟩ := turn_pages_visit_all sampleDecode appendedLog none
    sampleScope ⟨1, 100⟩ (by decide) numbered_appendedLog
  refine ⟨pages, hpages, ((hiff pages hpages).2 ?_).trans (by decide +kernel)⟩
  have hreadable : ∀ row ∈ appendedLog.rowsUpTo "turn-1" maxI64, (readRow sampleDecode row).isSome := by
    decide +kernel
  intro before gap after hrows hlong hgap
  cases gap with
  | nil => exact absurd hlong (by decide)
  | cons row gap =>
    have hsome := hreadable row (hrows ▸ mem_append_right _ mem_cons_self)
    rw [hgap row mem_cons_self] at hsome
    cases hsome

/-- The same log once the payload of the second event is not JSON. -/
def damagedLog : TurnLogDatabase Unit Unit :=
  { appendedLog with events := appendedLog.events.set ("turn-1", 2) ⟨8, 5, "\x7b not json".toUTF8.toList⟩ }

/-- **A last row that does not decode hides the event before it** from a reader of one row a
page: the page is empty, and says that there is nothing earlier. -/
theorem unreadable_tail_hides_the_turn :
    Follows (fun position =>
        damagedLog.readPage sampleDecode (earlierRequest sampleScope ⟨1, 100⟩ position) none)
        nextEarlier none
        [damagedLog.readPage sampleDecode (earlierRequest sampleScope ⟨1, 100⟩ none) none] ∧
      (damagedLog.readPage sampleDecode (earlierRequest sampleScope ⟨1, 100⟩ none) none).entries = [] ∧
      damagedLog.decodedFrom sampleDecode "turn-1" 1 = [⟨1, "one"⟩] :=
  ⟨.last (by decide +kernel), by decide +kernel, by decide +kernel⟩

end CodevoEditor.TurnLogStore
