/-
# The rows of a page

A page is taken from rows that follow each other: what is left out between two of its entries
does not decode, and then the page reports a loss (`pageRows_collectAt`).
-/

import CodevoEditor.TurnLogStore.Pages
import CodevoEditor.TurnLogStore.Counters

namespace CodevoEditor.TurnLogStore

open Js Sql List

variable {ε δ μ : Type} {decodeEvent : List UInt8 → Option ε}

namespace TurnLogDatabase

variable {db : TurnLogDatabase δ μ} {turnId : String}

/-- **The rows that a page is taken from.** -/
structure PageRows (decodeEvent : List UInt8 → Option ε) (db : TurnLogDatabase δ μ) (turnId : String)
    (collected : Collected ε) (shown : List SeqRow) : Prop where
  entries_eq : collected.entries = shown.filterMap (readRow decodeEvent)
  sorted : shown.Pairwise fun row other => row.1 < other.1
  stored : ∀ row ∈ shown, db.events.get? (turnId, row.1) = some row.2
  between : ∀ seq row, db.events.get? (turnId, seq) = some row →
    (∃ low ∈ shown, low.1 ≤ seq) → (∃ high ∈ shown, seq ≤ high.1) → (seq, row) ∈ shown
  unreadable : (∃ row ∈ shown, readRow decodeEvent row = none) → collected.unreadable

/-- What is seen of the rows downwards: all of them from some number on. -/
structure SeenUpTo (db : TurnLogDatabase δ μ) (turnId : String) (highestSeq : ℤ) (seen : List SeqRow) :
    Prop where
  sorted : seen.Pairwise fun row other => other.1 < row.1
  stored : ∀ row ∈ seen, db.events.get? (turnId, row.1) = some row.2 ∧ row.1 ≤ highestSeq
  closed : ∀ seq row, db.events.get? (turnId, seq) = some row → seq ≤ highestSeq →
    (∃ low ∈ seen, low.1 ≤ seq) → (seq, row) ∈ seen

structure SeenFrom (db : TurnLogDatabase δ μ) (turnId : String) (lowestSeq : ℤ) (seen : List SeqRow) :
    Prop where
  sorted : seen.Pairwise fun row other => row.1 < other.1
  stored : ∀ row ∈ seen, db.events.get? (turnId, row.1) = some row.2 ∧ lowestSeq ≤ row.1
  closed : ∀ seq row, db.events.get? (turnId, seq) = some row → lowestSeq ≤ seq →
    (∃ high ∈ seen, seq ≤ high.1) → (seq, row) ∈ seen

variable {seen rest : List SeqRow} {highestSeq : ℤ}

lemma seenUpTo_of_append (h : db.rowsUpTo turnId highestSeq = seen ++ rest) : db.SeenUpTo turnId highestSeq seen := by
  have hsort := db.pairwise_rowsUpTo turnId highestSeq
  have hmem : ∀ other, other ∈ db.rowsUpTo turnId highestSeq ↔
      db.events.get? (turnId, other.1) = some other.2 ∧ other.1 ≤ highestSeq := fun _ => mem_rowsUpTo_iff
  rw [h] at hsort hmem
  obtain ⟨hseen, -, hrest⟩ := pairwise_append.1 hsort
  refine ⟨hseen, fun row hrow => (hmem row).1 (mem_append_left _ hrow), ?_⟩
  rintro seq row hget hle ⟨low, hlow, hseq⟩
  rcases mem_append.1 ((hmem (seq, row)).2 ⟨hget, hle⟩) with hin | hin
  · exact hin
  · have hlt := hrest low hlow _ hin
    omega

variable {lowestSeq : ℤ}

lemma seenFrom_of_append (h : db.rowsFrom turnId lowestSeq = seen ++ rest) : db.SeenFrom turnId lowestSeq seen := by
  have hsort := db.pairwise_rowsFrom turnId lowestSeq
  have hmem : ∀ other, other ∈ db.rowsFrom turnId lowestSeq ↔
      db.events.get? (turnId, other.1) = some other.2 ∧ lowestSeq ≤ other.1 := fun _ => mem_rowsFrom_iff
  rw [h] at hsort hmem
  obtain ⟨hseen, -, hrest⟩ := pairwise_append.1 hsort
  refine ⟨hseen, fun row hrow => (hmem row).1 (mem_append_left _ hrow), ?_⟩
  rintro seq row hget hle ⟨high, hhigh, hseq⟩
  rcases mem_append.1 ((hmem (seq, row)).2 ⟨hget, hle⟩) with hin | hin
  · exact hin
  · have hlt := hrest high hhigh _ hin
    omega

/-- What is collected of some rows is what is seen of them. -/
structure CollectedSeen (decodeEvent : List UInt8 → Option ε) (budget : Budget) (collected : Collected ε)
    (seen : List SeqRow) : Prop where
  entries_eq : collected.entries = seen.filterMap (readRow decodeEvent)
  unreadable_eq : collected.unreadable = seen.any fun row => (readRow decodeEvent row).isNone
  length_le : seen.length ≤ budget.events
  bytes_eq : collected.bytes = readableBytes decodeEvent seen
  bytes_le : collected.bytes ≤ budget.bytes ∨ collected.entries.length ≤ 1

variable (decodeEvent) in
lemma exists_seen_of_collect (rows) (budget : Budget) :
    ∃ seen rest, rows = seen ++ rest ∧ CollectedSeen decodeEvent budget (collect decodeEvent rows budget) seen := by
  obtain ⟨seen, rest, htake, hents, hunread, hby, -, hle⟩ := collect_spec decodeEvent rows budget
  refine ⟨seen, rest ++ rows.drop budget.events, ?_, hents, hunread, ?_, hby, hle⟩
  · rw [← append_assoc, ← htake, take_append_drop]
  · have hlen := congrArg List.length htake
    rw [length_take, length_append] at hlen
    omega

lemma any_isNone_of_mem {rows : List SeqRow} (h : ∃ row ∈ rows, readRow decodeEvent row = none) :
    (rows.any fun row => (readRow decodeEvent row).isNone) := by
  obtain ⟨row, hrow, hnone⟩ := h
  refine any_eq_true.2 ⟨row, hrow, ?_⟩
  rw [hnone]
  rfl

variable {collected : Collected ε} {budget : Budget}

lemma SeenUpTo.pageRows (h : db.SeenUpTo turnId highestSeq seen)
    (hcoll : CollectedSeen decodeEvent budget collected seen) :
    PageRows decodeEvent db turnId { collected with entries := collected.entries.reverse }
      seen.reverse := by
  constructor
  · dsimp only
    rw [hcoll.entries_eq, filterMap_reverse]
  · exact pairwise_reverse.2 h.sorted
  · intro row hrow
    exact (h.stored row (mem_reverse.1 hrow)).1
  · rintro seq row hget ⟨low, hlow, hle⟩ ⟨high, hhigh, hge⟩
    rw [mem_reverse] at hlow hhigh ⊢
    exact h.closed seq row hget (hge.trans (h.stored high hhigh).2) ⟨low, hlow, hle⟩
  · rintro ⟨row, hrow, hnone⟩
    rw [hcoll.unreadable_eq]
    exact any_isNone_of_mem ⟨row, mem_reverse.1 hrow, hnone⟩

lemma SeenFrom.pageRows (h : db.SeenFrom turnId lowestSeq seen)
    (hcoll : CollectedSeen decodeEvent budget collected seen) :
    PageRows decodeEvent db turnId collected seen := by
  refine ⟨hcoll.entries_eq, h.sorted, fun row hrow => (h.stored row hrow).1, ?_, fun hnone => ?_⟩
  · rintro seq row hget ⟨low, hlow, hle⟩ ⟨high, hhigh, hge⟩
    exact h.closed seq row hget ((h.stored low hlow).2.trans hle) ⟨high, hhigh, hge⟩
  · rw [hcoll.unreadable_eq]
    exact any_isNone_of_mem hnone

variable {seq : ℤ}

lemma saturatingI64_le_iff {stored}
    (h : agentTurnLogSeqBase ≤ stored ∧ stored ≤ maxLogCounter) :
    saturatingI64 (seq + 1) ≤ stored ↔ seq < stored := by
  unfold agentTurnLogSeqBase maxLogCounter at h
  unfold saturatingI64 maxI64
  omega

/-- **The two sides of a page around a number** follow each other. -/
theorem pageRows_append {backward forward} (hnum : db.Numbered turnId)
    (hback : db.SeenUpTo turnId seq backward)
    (hfor : db.SeenFrom turnId (saturatingI64 (seq + 1)) forward)
    (hents : collected.entries = (backward.reverse ++ forward).filterMap (readRow decodeEvent))
    (hunread : (∃ row ∈ backward ++ forward, readRow decodeEvent row = none) → collected.unreadable) :
    PageRows decodeEvent db turnId collected (backward.reverse ++ forward) := by
  have habove : ∀ row ∈ forward, seq < row.1 := by
    intro row hrow
    obtain ⟨hget, hle⟩ := hfor.stored row hrow
    exact (saturatingI64_le_iff (hnum row.1 (Option.isSome_iff_exists.2 ⟨_, hget⟩))).1 hle
  have hbelow : ∀ row ∈ backward, row.1 ≤ seq := fun row hrow => (hback.stored row hrow).2
  refine ⟨hents, pairwise_append.2 ⟨pairwise_reverse.2 hback.sorted, hfor.sorted, ?_⟩, fun row hrow => ?_, ?_, ?_⟩
  · intro row hrow other hoth
    exact (hbelow row (mem_reverse.1 hrow)).trans_lt (habove other hoth)
  · rcases mem_append.1 hrow with hrow | hrow
    · exact (hback.stored row (mem_reverse.1 hrow)).1
    · exact (hfor.stored row hrow).1
  · rintro found row hget ⟨low, hlow, hle⟩ ⟨high, hhigh, hge⟩
    rw [mem_append, mem_reverse] at hlow hhigh ⊢
    rcases le_or_gt found seq with hseq | hseq
    · refine .inl (hback.closed found row hget hseq ?_)
      rcases hlow with hlow | hlow
      · exact ⟨low, hlow, hle⟩
      · have := habove low hlow
        omega
    · refine .inr (hfor.closed found row hget ?_ ?_)
      · exact (saturatingI64_le_iff (hnum found (Option.isSome_iff_exists.2 ⟨_, hget⟩))).2 hseq
      · rcases hhigh with hhigh | hhigh
        · have := hbelow high hhigh
          omega
        · exact ⟨high, hhigh, hge⟩
  · rintro ⟨row, hrow, hnone⟩
    rw [mem_append, mem_reverse] at hrow
    exact hunread ⟨row, mem_append.2 hrow, hnone⟩

variable (decodeEvent) in
/-- **What the page around a number is taken from.** -/
theorem pageRows_around (hnum : db.Numbered turnId) (seq : ℤ) (budget : Budget) :
    ∃ shown, PageRows decodeEvent db turnId (db.around decodeEvent turnId seq budget) shown := by
  obtain ⟨seen, rest, hrows, hseen⟩ := exists_seen_of_collect decodeEvent (db.rowsUpTo turnId seq)
    ⟨(budget.events + 1) / 2, budget.bytes⟩
  have hup := seenUpTo_of_append hrows
  have hback := hup.pageRows hseen
  unfold around
  dsimp only
  split_ifs with hdone hby
  · exact ⟨_, hback⟩
  · exact ⟨_, hback.entries_eq, hback.sorted, hback.stored, hback.between, hback.unreadable⟩
  · obtain ⟨later, rest', hrows', hlat⟩ := exists_seen_of_collect decodeEvent
      (db.rowsFrom turnId (saturatingI64 (seq + 1)))
      ⟨budget.events - (db.descending decodeEvent turnId seq
          ⟨(budget.events + 1) / 2, budget.bytes⟩).entries.length,
        budget.bytes - (db.descending decodeEvent turnId seq ⟨(budget.events + 1) / 2, budget.bytes⟩).bytes⟩
    refine ⟨_, pageRows_append hnum hup (seenFrom_of_append hrows') ?_ ?_⟩
    · rw [filterMap_append, ← hlat.entries_eq]
      exact congrArg (· ++ _) hback.entries_eq
    · rintro ⟨row, hrow, hnone⟩
      rw [Bool.or_eq_true]
      rcases mem_append.1 hrow with hrow | hrow
      · exact .inl (hback.unreadable ⟨row, mem_reverse.2 hrow, hnone⟩)
      · refine .inr ?_
        unfold ascending
        rw [hlat.unreadable_eq]
        exact any_isNone_of_mem ⟨row, hrow, hnone⟩

variable (decodeEvent) in
theorem pageRows_collectAt (hnum : db.Numbered turnId) (anchor)
    (budget : Budget) :
    ∃ shown, PageRows decodeEvent db turnId (db.collectAt decodeEvent turnId anchor budget) shown := by
  have hdesc : ∀ highestSeq, ∃ shown,
      PageRows decodeEvent db turnId (db.descending decodeEvent turnId highestSeq budget) shown := by
    intro highestSeq
    obtain ⟨seen, rest, hrows, hseen⟩ :=
      exists_seen_of_collect decodeEvent (db.rowsUpTo turnId highestSeq) budget
    exact ⟨_, (seenUpTo_of_append hrows).pageRows hseen⟩
  unfold collectAt
  cases anchor.at_ with
  | tail => exact hdesc _
  | before => exact hdesc _
  | after =>
    obtain ⟨seen, rest, hrows, hseen⟩ := exists_seen_of_collect decodeEvent
      (db.rowsFrom turnId (saturatingI64 (anchor.seq.getD 0 + 1))) budget
    exact ⟨_, (seenFrom_of_append hrows).pageRows hseen⟩
  | around => exact pageRows_around decodeEvent hnum _ _

variable {shown : List SeqRow}

lemma PageRows.entries_sorted (h : PageRows decodeEvent db turnId collected shown) :
    collected.entries.Pairwise fun entry other => entry.seq < other.seq := by
  rw [h.entries_eq]
  refine pairwise_filterMap.2 (h.sorted.imp fun hlt entry hent other hoth => ?_)
  rw [seq_of_readRow hent, seq_of_readRow hoth]
  exact hlt

/-- **A row that is left out between two entries does not decode**, and this is reported. -/
theorem PageRows.left_out (h : PageRows decodeEvent db turnId collected shown) {row}
    (hget : db.events.get? (turnId, seq) = some row)
    (hlow : ∃ entry ∈ collected.entries, entry.seq ≤ seq)
    (hhigh : ∃ entry ∈ collected.entries, seq ≤ entry.seq)
    (hout : ∀ entry ∈ collected.entries, entry.seq ≠ seq) :
    decodeEvent row.payload = none ∧ collected.unreadable := by
  have hshn : ∀ entry ∈ collected.entries, ∃ row ∈ shown, row.1 = entry.seq := by
    intro entry hent
    rw [h.entries_eq, mem_filterMap] at hent
    obtain ⟨found, hfound, hread⟩ := hent
    exact ⟨found, hfound, (seq_of_readRow hread).symm⟩
  have hmem : (seq, row) ∈ shown := by
    refine h.between seq row hget ?_ ?_
    · obtain ⟨entry, hent, hle⟩ := hlow
      obtain ⟨low, hlow, heq⟩ := hshn entry hent
      exact ⟨low, hlow, heq.trans_le hle⟩
    · obtain ⟨entry, hent, hle⟩ := hhigh
      obtain ⟨high, hhigh, heq⟩ := hshn entry hent
      exact ⟨high, hhigh, hle.trans_eq heq.symm⟩
  have hnone : readRow decodeEvent (seq, row) = none := by
    cases hread : readRow decodeEvent (seq, row) with
    | none => rfl
    | some entry =>
      refine absurd (seq_of_readRow hread) (hout entry ?_)
      rw [h.entries_eq]
      exact mem_filterMap.2 ⟨_, hmem, hread⟩
  exact ⟨Option.map_eq_none_iff.1 hnone, h.unreadable ⟨_, hmem, hnone⟩⟩

end TurnLogDatabase

end CodevoEditor.TurnLogStore
