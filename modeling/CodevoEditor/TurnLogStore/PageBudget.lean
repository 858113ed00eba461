/-
# The budget of a page

`page.rs`: a scan takes its first readable row whatever its size.
-/

import CodevoEditor.TurnLogStore.PageWalk
import Mathlib.Algebra.Order.BigOperators.Group.List
import Mathlib.Algebra.Order.Group.Nat

namespace CodevoEditor.TurnLogStore

open Js Sql Runs List Option

variable {ε δ μ : Type} {decodeEvent : List UInt8 → Option ε}

def firstReadable (decodeEvent : List UInt8 → Option ε) (rows : List SeqRow) : Option SeqRow :=
  rows.find? fun row => (readRow decodeEvent row).isSome

section Scan

variable {rows seen : List SeqRow} {maxBytes : ℕ} {budget : Budget} {row next : SeqRow}
  {collected before : Collected ε}

lemma readableBytes_append (rows later : List SeqRow) : readableBytes decodeEvent (rows ++ later) =
    readableBytes decodeEvent rows + readableBytes decodeEvent later := by
  simp [readableBytes]

lemma readableBytes_reverse (rows : List SeqRow) :
    readableBytes decodeEvent rows.reverse = readableBytes decodeEvent rows := by
  simp [readableBytes, filter_reverse, map_reverse]

lemma readableBytes_eq_zero (h : rows.filterMap (readRow decodeEvent) = []) :
    readableBytes decodeEvent rows = 0 := by
  rw [readableBytes, filter_eq_nil_iff.2 fun row hrow => by
    simp [filterMap_eq_nil_iff.1 h row hrow]]
  rfl

lemma collectFrom_clipped_of_le (h : before.bytes + readableBytes decodeEvent rows ≤ maxBytes) :
    (collectFrom decodeEvent maxBytes rows before).clipped = before.clipped := by
  induction rows generalizing before with
  | nil => rfl
  | cons row rows ih =>
    unfold collectFrom
    cases hdecode : decodeEvent row.2.payload with
    | none => exact ih (by simpa [readableBytes, readRow, hdecode] using h)
    | some event =>
      have hle : before.bytes + row.2.payload.length + readableBytes decodeEvent rows ≤ maxBytes := by
        simpa [readableBytes, readRow, hdecode, Nat.add_assoc] using h
      dsimp only
      rw [if_neg (by omega), ih hle]

lemma collectFrom_ne_nil (hpre : before.clipped = true → before.entries ≠ [])
    (h : (collectFrom decodeEvent maxBytes rows before).clipped = true) :
    (collectFrom decodeEvent maxBytes rows before).entries ≠ [] := by
  induction rows generalizing before with
  | nil => exact hpre h
  | cons row rows ih =>
    unfold collectFrom at h ⊢
    split at h
    · exact ih hpre h
    · dsimp only at h ⊢
      split_ifs at h ⊢ with hfull
      · simpa using hfull.2
      · exact ih (by simp) h

/-- **One scan**: the rows it takes of those within its row limit, all of them unless it is
clipped. -/
structure Scanned (decodeEvent : List UInt8 → Option ε) (rows : List SeqRow) (budget : Budget)
    (collected : Collected ε) (seen : List SeqRow) : Prop where
  prefix_take : seen <+: rows.take budget.events
  entries_eq : collected.entries = seen.filterMap (readRow decodeEvent)
  bytes_eq : collected.bytes = readableBytes decodeEvent seen
  bytes_le : collected.bytes ≤ budget.bytes ∨ collected.entries.length ≤ 1
  all_seen : collected.clipped = false → seen = rows.take budget.events
  ne_nil : collected.clipped = true → collected.entries ≠ []
  unclipped : readableBytes decodeEvent (rows.take budget.events) ≤ budget.bytes → collected.clipped = false

variable (decodeEvent) in
lemma exists_scanned (rows : List SeqRow) (budget : Budget) :
    ∃ seen, Scanned decodeEvent rows budget (collect decodeEvent rows budget) seen := by
  obtain ⟨seen, rest, htake, hents, -, hby, hrest, hle⟩ := collect_spec decodeEvent rows budget
  refine ⟨seen, ⟨rest, htake.symm⟩, hents, hby, hle, fun hclipped => ?_, ?_, fun hfits => ?_⟩
  · by_cases hnil : rest = []
    · rw [htake, hnil, append_nil]
    · simp [(hrest hnil).1] at hclipped
  · unfold collect
    split_ifs
    · exact nofun
    · exact collectFrom_ne_nil nofun
  · unfold collect
    split_ifs
    · rfl
    · exact collectFrom_clipped_of_le ((Nat.zero_add _).trans_le hfits)

namespace Scanned

variable (h : Scanned decodeEvent rows budget collected seen)
include h

lemma length_le : collected.entries.length ≤ budget.events := by
  have hseen := h.prefix_take.length_le
  have hfilter := length_filterMap_le (readRow decodeEvent) seen
  rw [length_take] at hseen
  rw [h.entries_eq]
  omega

lemma mem_rows (hrow : row ∈ seen) : row ∈ rows := mem_of_mem_take (h.prefix_take.subset hrow)

lemma first_mem (hnext : firstReadable decodeEvent (rows.take budget.events) = some next) :
    next ∈ seen := by
  cases hclipped : collected.clipped with
  | false => exact h.all_seen hclipped ▸ mem_of_find?_eq_some hnext
  | true =>
    obtain ⟨rest, hrest⟩ := h.prefix_take
    rw [firstReadable, ← hrest, find?_append] at hnext
    cases hseen : seen.find? fun row => (readRow decodeEvent row).isSome with
    | some found => exact some.inj (hseen ▸ hnext) ▸ mem_of_find?_eq_some hseen
    | none =>
      refine absurd (h.entries_eq.trans (filterMap_eq_nil_iff.2 fun row hmem => ?_)) (h.ne_nil hclipped)
      simpa using find?_eq_none.1 hseen row hmem

lemma le_bytes (hnext : firstReadable decodeEvent (rows.take budget.events) = some next) :
    next.2.payload.length ≤ collected.bytes ∧ collected.entries ≠ [] := by
  have hmem := h.first_mem hnext
  have hread : (readRow decodeEvent next).isSome = true := by simpa using find?_some hnext
  constructor
  · rw [h.bytes_eq]
    exact single_le_sum (fun _ _ => Nat.zero_le _) _ (mem_map.2 ⟨next, mem_filter.2 ⟨hmem, hread⟩, rfl⟩)
  · intro hnil
    have := filterMap_eq_nil_iff.1 (h.entries_eq.symm.trans hnil) next hmem
    simp [this] at hread

lemma bytes_of_over (hover : budget.bytes < collected.bytes) : collected.entries.length = 1 ∧
    ∃ next, firstReadable decodeEvent (rows.take budget.events) = some next ∧
      collected.bytes = next.2.payload.length := by
  have hne : collected.entries ≠ [] := fun hnil => by
    rw [h.bytes_eq, readableBytes_eq_zero (h.entries_eq.symm.trans hnil)] at hover
    omega
  have hone : collected.entries.length = 1 := by
    have := length_pos_iff.2 hne
    have := h.bytes_le
    omega
  have hfilter : (seen.filter fun row => (readRow decodeEvent row).isSome).length = 1 := by
    rw [← hone, h.entries_eq, length_filterMap_eq_countP, countP_eq_length_filter]
  obtain ⟨next, hnext⟩ := length_eq_one_iff.1 hfilter
  obtain ⟨rest, hrest⟩ := h.prefix_take
  refine ⟨hone, next, ?_, by rw [h.bytes_eq, readableBytes, hnext]; simp⟩
  rw [firstReadable, ← hrest, find?_append, ← head?_filter, hnext]
  rfl

end Scanned

end Scan

namespace TurnLogDatabase

variable {db : TurnLogDatabase δ μ} {turnId : String} {seq : ℤ} {budget : Budget}
  {rows seen limited : List SeqRow} {collected : Collected ε}

/-- The bytes of what is stored for some entries. -/
def entryBytes (db : TurnLogDatabase δ μ) (turnId : String) (entries : List (AgentTurnLogEntry ε)) : ℕ :=
  (entries.map fun entry =>
    ((db.events.get? (turnId, entry.seq)).map (·.payload.length)).getD 0).sum

/-- The rows that the scan down of a page around a number may take. -/
def backwardRows (db : TurnLogDatabase δ μ) (turnId : String) (seq : ℤ) (events : ℕ) : List SeqRow :=
  (db.rowsUpTo turnId seq).take ((events + 1) / 2)

/-- The rows that its scan up may take after that. -/
def forwardRows (decodeEvent : List UInt8 → Option ε) (db : TurnLogDatabase δ μ) (turnId : String)
    (seq : ℤ) (events : ℕ) : List SeqRow :=
  (db.rowsFrom turnId (saturatingI64 (seq + 1))).take
    (events - ((db.backwardRows turnId seq events).filterMap (readRow decodeEvent)).length)

/-- The rows that a page may have by the row limit alone, ascending. -/
def limitedRows (decodeEvent : List UInt8 → Option ε) (db : TurnLogDatabase δ μ) (turnId : String)
    (anchor : AgentTurnLogAnchor) (events : ℕ) : List SeqRow :=
  let seq := anchor.seq.getD 0
  match anchor.at_ with
  | .tail => ((db.rowsUpTo turnId maxI64).take events).reverse
  | .before => ((db.rowsUpTo turnId (saturatingI64 (seq - 1))).take events).reverse
  | .after => (db.rowsFrom turnId (saturatingI64 (seq + 1))).take events
  | .around => (db.backwardRows turnId seq events).reverse ++ db.forwardRows decodeEvent turnId seq events

/-- What keeps to the limits: an event is missing only where the bytes end the page, after
another. -/
structure Fits (decodeEvent : List UInt8 → Option ε) (db : TurnLogDatabase δ μ) (turnId : String)
    (budget : Budget) (limited : List SeqRow) (entries : List (AgentTurnLogEntry ε)) (clipped : Bool) :
    Prop where
  events : entries.length ≤ budget.events
  bytes : db.entryBytes turnId entries ≤ budget.bytes ∨ entries.length = 1
  clipped : entries ≠ limited.filterMap (readRow decodeEvent) → clipped = true ∧ entries ≠ []

/-- **A page that keeps to its limits.** -/
structure WithinBudget (decodeEvent : List UInt8 → Option ε) (db : TurnLogDatabase δ μ)
    (request : ReadAgentTurnLogPageRequest) (page : AgentTurnLogPage ε) : Prop where
  events : page.entries.length ≤ request.maxEvents
  bytes : db.entryBytes request.scope.turnId page.entries ≤ request.maxBytes ∨ page.entries.length = 1
  ascending : page.entries.Pairwise fun entry other => entry.seq < other.seq
  complete : ∀ seq stored, db.events.get? (request.scope.turnId, seq) = some stored →
    page.firstSeq ≤ seq → seq ≤ page.lastSeq → (decodeEvent stored.payload).isSome = true →
    ∃ entry ∈ page.entries, entry.seq = seq
  anchored : request.anchor.at_ = .around → ∀ seq stored, request.anchor.seq = some seq →
    db.events.get? (request.scope.turnId, seq) = some stored →
    (decodeEvent stored.payload).isSome = true → ∃ entry ∈ page.entries, entry.seq = seq
  clipped : page.entries ≠ (db.limitedRows decodeEvent request.scope.turnId request.anchor
    request.maxEvents).filterMap (readRow decodeEvent) → page.clipped = true

/-- **The next event does not fit** into what the events up to the number leave. -/
def Crowded (decodeEvent : List UInt8 → Option ε) (db : TurnLogDatabase δ μ) (turnId : String)
    (seq : ℤ) (budget : Budget) : Prop :=
  let back := db.backwardRows turnId seq budget.events
  back.filterMap (readRow decodeEvent) ≠ [] ∧ readableBytes decodeEvent back < budget.bytes ∧
  ∃ next, firstReadable decodeEvent (db.forwardRows decodeEvent turnId seq budget.events) = some next ∧
    budget.bytes < readableBytes decodeEvent back + next.2.payload.length

lemma entryBytes_filterMap (hstore : ∀ row ∈ rows, db.events.get? (turnId, row.1) = some row.2) :
    db.entryBytes turnId (rows.filterMap (readRow decodeEvent)) = readableBytes decodeEvent rows := by
  induction rows with
  | nil => rfl
  | cons row rows ih =>
    obtain ⟨hrow, hrows⟩ := forall_mem_cons.1 hstore
    have ih := ih hrows
    simp only [entryBytes, readableBytes] at ih ⊢
    cases hread : readRow decodeEvent row with
    | none => simpa [filterMap_cons_none hread, hread] using ih
    | some entry =>
      simp [filterMap_cons_some hread, hread, seq_of_readRow hread, hrow, ih]

lemma stored_rowsUpTo {row} (hrow : row ∈ db.rowsUpTo turnId seq) :
    db.events.get? (turnId, row.1) = some row.2 := (mem_rowsUpTo_iff.1 hrow).1

lemma stored_rowsFrom {row} (hrow : row ∈ db.rowsFrom turnId seq) :
    db.events.get? (turnId, row.1) = some row.2 := (mem_rowsFrom_iff.1 hrow).1

lemma fits_of_scanned (h : Scanned decodeEvent rows budget collected seen)
    (hstore : ∀ row ∈ rows, db.events.get? (turnId, row.1) = some row.2) :
    Fits decodeEvent db turnId budget (rows.take budget.events) collected.entries collected.clipped := by
  have hby : db.entryBytes turnId collected.entries = collected.bytes := by
    rw [h.entries_eq, entryBytes_filterMap fun row hrow => hstore row (h.mem_rows hrow), h.bytes_eq]
  refine ⟨h.length_le, ?_, fun hne => ?_⟩
  · rw [hby]
    exact (Nat.lt_or_ge budget.bytes collected.bytes).symm.imp_right fun hover => (h.bytes_of_over hover).1
  · cases hclipped : collected.clipped with
    | true => exact ⟨rfl, h.ne_nil hclipped⟩
    | false => exact absurd (h.all_seen hclipped ▸ h.entries_eq) hne

lemma Fits.reverse {entries} {clipped}
    (h : Fits decodeEvent db turnId budget limited entries clipped) :
    Fits decodeEvent db turnId budget limited.reverse entries.reverse clipped := by
  refine ⟨by simpa using h.events, ?_, fun hne => ?_⟩
  · simpa [entryBytes, map_reverse] using h.bytes
  · simpa using h.clipped (by simpa [filterMap_reverse] using hne)

/-- **How `around` ends**: with the scan down, when that is clipped, has all the rows or has
all the bytes, or after a scan up. -/
lemma around_cases (decodeEvent : List UInt8 → Option ε) (db : TurnLogDatabase δ μ) (turnId : String)
    (seq : ℤ) (budget : Budget) : let page := db.around decodeEvent turnId seq budget
    ∃ backward seen, Scanned decodeEvent (db.rowsUpTo turnId seq) ⟨(budget.events + 1) / 2, budget.bytes⟩
        backward seen ∧
      ((page.entries = backward.entries.reverse ∧
          ((page.clipped = backward.clipped ∧
            (backward.clipped = true ∨ budget.events ≤ backward.entries.length)) ∨
          (page.clipped = true ∧ budget.bytes ≤ backward.bytes))) ∨
        (backward.clipped = false ∧ backward.bytes < budget.bytes ∧ ∃ forward later,
          Scanned decodeEvent (db.rowsFrom turnId (saturatingI64 (seq + 1)))
            ⟨budget.events - backward.entries.length, budget.bytes - backward.bytes⟩ forward later ∧
          page.entries = backward.entries.reverse ++ forward.entries ∧
          page.clipped = forward.clipped)) := by
  obtain ⟨seen, hseen⟩ := exists_scanned decodeEvent (db.rowsUpTo turnId seq)
    ⟨(budget.events + 1) / 2, budget.bytes⟩
  refine ⟨_, seen, hseen, ?_⟩
  unfold around descending ascending
  dsimp only
  rw [length_reverse]
  split_ifs with hdone hby
  · exact .inl ⟨rfl, .inl ⟨rfl, hdone⟩⟩
  · exact .inl ⟨rfl, .inr ⟨rfl, by omega⟩⟩
  · obtain ⟨later, hlat⟩ := exists_scanned decodeEvent (db.rowsFrom turnId (saturatingI64 (seq + 1)))
      ⟨budget.events - (collect decodeEvent (db.rowsUpTo turnId seq)
          ⟨(budget.events + 1) / 2, budget.bytes⟩).entries.length,
        budget.bytes - (collect decodeEvent (db.rowsUpTo turnId seq)
          ⟨(budget.events + 1) / 2, budget.bytes⟩).bytes⟩
    exact .inr ⟨by simpa using (not_or.1 hdone).1, by omega, _, later, hlat, rfl, rfl⟩

section Around

variable {backward : Collected ε}
  (hback : Scanned decodeEvent (db.rowsUpTo turnId seq) ⟨(budget.events + 1) / 2, budget.bytes⟩ backward seen)
include hback

lemma backward_eq (hclipped : backward.clipped = false) :
    backward.entries = (db.backwardRows turnId seq budget.events).filterMap (readRow decodeEvent) ∧
      backward.bytes = readableBytes decodeEvent (db.backwardRows turnId seq budget.events) ∧
      db.forwardRows decodeEvent turnId seq budget.events =
        (db.rowsFrom turnId (saturatingI64 (seq + 1))).take (budget.events - backward.entries.length) := by
  have hall : seen = db.backwardRows turnId seq budget.events := hback.all_seen hclipped
  have hents := hall ▸ hback.entries_eq
  exact ⟨hents, hall ▸ hback.bytes_eq, by rw [forwardRows, hents]⟩

lemma entryBytes_joined {forward} {later} {limits}
    (hfor : Scanned decodeEvent (db.rowsFrom turnId (saturatingI64 (seq + 1))) limits forward later) :
    db.entryBytes turnId (backward.entries.reverse ++ forward.entries) = backward.bytes + forward.bytes := by
  rw [hback.entries_eq, hfor.entries_eq, ← filterMap_reverse, ← filterMap_append,
    entryBytes_filterMap, readableBytes_append, readableBytes_reverse, hback.bytes_eq, hfor.bytes_eq]
  intro row hrow
  rcases mem_append.1 hrow with hrow | hrow
  · exact stored_rowsUpTo (hback.mem_rows (mem_reverse.1 hrow))
  · exact stored_rowsFrom (hfor.mem_rows hrow)

end Around

lemma fits_around (hby : 1 ≤ budget.bytes) (hcrowd : ¬ Crowded decodeEvent db turnId seq budget) :
    Fits decodeEvent db turnId budget ((db.backwardRows turnId seq budget.events).reverse ++
        db.forwardRows decodeEvent turnId seq budget.events)
      (db.around decodeEvent turnId seq budget).entries
      (db.around decodeEvent turnId seq budget).clipped := by
  obtain ⟨backward, seen, hback, hcases⟩ := around_cases decodeEvent db turnId seq budget
  have hfits := (fits_of_scanned hback fun _ => stored_rowsUpTo).reverse
  have hevs := hfits.events
  dsimp only at hevs
  rcases hcases with ⟨heq, hdone⟩ | ⟨hclipped, hlt, forward, later, hfor, heq, hclip⟩
  · rw [heq]
    refine ⟨by omega, hfits.bytes, fun hne => ?_⟩
    rcases hdone with ⟨hclip, hdone⟩ | ⟨hclip, hfull⟩
    · rw [hclip]
      cases hclipped : backward.clipped with
      | true => exact ⟨rfl, by simpa using hback.ne_nil hclipped⟩
      | false =>
        obtain ⟨hents, -, hforward⟩ := backward_eq hback hclipped
        have hdone : budget.events ≤ backward.entries.length := by simpa [hclipped] using hdone
        refine absurd ?_ hne
        rw [hforward, Nat.sub_eq_zero_of_le hdone, take_zero, append_nil, filterMap_reverse, hents]
    · refine ⟨hclip, fun hnil => ?_⟩
      have hseen := hback.entries_eq.symm.trans (reverse_eq_nil_iff.1 hnil)
      rw [hback.bytes_eq, readableBytes_eq_zero hseen] at hfull
      omega
  · rw [heq, hclip]
    obtain ⟨hents, hsum, hforward⟩ := backward_eq hback hclipped
    refine ⟨?_, ?_, fun hne => ?_⟩
    · have hlat := hfor.length_le
      rw [length_reverse] at hevs
      simp only [length_append, length_reverse] at hlat ⊢
      omega
    · rw [entryBytes_joined hback hfor]
      rcases Nat.lt_or_ge (budget.bytes - backward.bytes) forward.bytes with hover | hle
      · obtain ⟨hone, next, hnext, hlen⟩ := hfor.bytes_of_over hover
        by_cases hnil : backward.entries = []
        · right
          simp [hnil, hone]
        · refine absurd ⟨hents ▸ hnil, hsum ▸ hlt, next, hforward ▸ hnext, ?_⟩ hcrowd
          rw [← hsum, ← hlen]
          omega
      · left
        omega
    · obtain ⟨hclip, hnil⟩ := (fits_of_scanned hfor fun _ => stored_rowsFrom).clipped fun heq => hne (by
        rw [filterMap_append, filterMap_reverse, ← hents, hforward, heq])
      exact ⟨hclip, append_ne_nil_of_right_ne_nil _ hnil⟩

/-- **A crowded page is over its bytes**, with more than one entry. -/
lemma over_of_crowded (hcrowd : Crowded decodeEvent db turnId seq budget) :
    budget.bytes < db.entryBytes turnId (db.around decodeEvent turnId seq budget).entries ∧
      1 < (db.around decodeEvent turnId seq budget).entries.length := by
  obtain ⟨hsome, hfew, next, hnext, hover⟩ := hcrowd
  obtain ⟨backward, seen, hback, hcases⟩ := around_cases decodeEvent db turnId seq budget
  have hclipped : backward.clipped = false := hback.unclipped hfew.le
  obtain ⟨hents, hsum, hforward⟩ := backward_eq hback hclipped
  rw [← hents] at hsome
  rw [← hsum] at hfew hover
  rw [hforward] at hnext
  rcases hcases with ⟨-, ⟨-, hdone⟩ | ⟨-, hfull⟩⟩ | ⟨-, -, forward, later, hfor, heq, -⟩
  · have hdone : budget.events ≤ backward.entries.length := by simpa [hclipped] using hdone
    rw [Nat.sub_eq_zero_of_le hdone] at hnext
    cases hnext
  · omega
  · obtain ⟨hlen, hne⟩ := hfor.le_bytes hnext
    rw [heq, entryBytes_joined hback hfor]
    have := length_pos_iff.2 hsome
    have := length_pos_iff.2 hne
    simp only [length_append, length_reverse]
    omega

lemma mem_around {stored} (hevs : 1 ≤ budget.events)
    (hget : db.events.get? (turnId, seq) = some stored)
    (hread : (decodeEvent stored.payload).isSome = true) :
    ∃ entry ∈ (db.around decodeEvent turnId seq budget).entries, entry.seq = seq := by
  have hsort := db.pairwise_rowsUpTo turnId seq
  have hmem : (seq, stored) ∈ db.rowsUpTo turnId seq := mem_rowsUpTo_iff.2 ⟨hget, le_rfl⟩
  have hfst : firstReadable decodeEvent ((db.rowsUpTo turnId seq).take ((budget.events + 1) / 2)) =
      some (seq, stored) := by
    obtain ⟨count, hcnt⟩ := Nat.exists_eq_add_of_le' (show 1 ≤ (budget.events + 1) / 2 by omega)
    have hle : ∀ row ∈ db.rowsUpTo turnId seq, row.1 ≤ seq := fun row hrow => (mem_rowsUpTo_iff.1 hrow).2
    cases hrows : db.rowsUpTo turnId seq with
    | nil => simp [hrows] at hmem
    | cons first rows =>
      rw [hrows] at hsort hmem hle
      have hhead : first = (seq, stored) := by
        rcases mem_cons.1 hmem with heq | hin
        · exact heq.symm
        · have hlt := rel_of_pairwise_cons hsort hin
          have := hle first mem_cons_self
          dsimp only at hlt
          omega
      rw [hcnt, take_succ_cons, firstReadable, hhead, find?_cons_of_pos]
      simpa [readRow] using hread
  obtain ⟨backward, seen, hback, hcases⟩ := around_cases decodeEvent db turnId seq budget
  obtain ⟨event, hev⟩ := isSome_iff_exists.1 hread
  have hent : (⟨seq, event⟩ : AgentTurnLogEntry ε) ∈ backward.entries.reverse := by
    rw [mem_reverse, hback.entries_eq]
    exact mem_filterMap.2 ⟨_, hback.first_mem hfst, by simp [readRow, hev]⟩
  refine ⟨⟨seq, event⟩, ?_, rfl⟩
  rcases hcases with ⟨heq, -⟩ | ⟨-, -, forward, later, -, heq, -⟩ <;> rw [heq]
  · exact hent
  · exact mem_append_left _ hent

lemma fits_collectAt {anchor} (hby : 1 ≤ budget.bytes)
    (hcrowd : anchor.at_ = .around → ¬ Crowded decodeEvent db turnId (anchor.seq.getD 0) budget) :
    Fits decodeEvent db turnId budget (db.limitedRows decodeEvent turnId anchor budget.events)
      (db.collectAt decodeEvent turnId anchor budget).entries
      (db.collectAt decodeEvent turnId anchor budget).clipped := by
  have hdown highestSeq : Fits decodeEvent db turnId budget
      ((db.rowsUpTo turnId highestSeq).take budget.events).reverse
      (db.descending decodeEvent turnId highestSeq budget).entries
      (db.descending decodeEvent turnId highestSeq budget).clipped :=
    have ⟨_, hseen⟩ := exists_scanned decodeEvent (db.rowsUpTo turnId highestSeq) budget
    (fits_of_scanned hseen fun _ => stored_rowsUpTo).reverse
  unfold collectAt limitedRows
  cases hanchor : anchor.at_ with
  | tail => exact hdown maxI64
  | before => exact hdown _
  | after =>
    obtain ⟨_, hseen⟩ := exists_scanned decodeEvent
      (db.rowsFrom turnId (saturatingI64 (anchor.seq.getD 0 + 1))) budget
    exact fits_of_scanned hseen fun _ => stored_rowsFrom
  | around => exact fits_around hby (hcrowd hanchor)

lemma storeReadPage_ok {codec} {request}
    {page} (h : db.storeReadPage decodeEvent codec request = .ok page) :
    page = db.readPage decodeEvent request (db.turnMeta.get? request.scope.turnId) ∧
      1 ≤ request.maxEvents ∧ 1 ≤ request.maxBytes := by
  obtain ⟨_, hval, h⟩ := bind_eq_ok.1 h
  obtain ⟨_, -, h⟩ := bind_eq_ok.1 h
  obtain ⟨_, -, hval⟩ := bind_eq_ok.1 hval
  split_ifs at hval with hevs hby
  exact ⟨(Except.ok.inj h).symm, by omega, by omega⟩

end TurnLogDatabase

open TurnLogDatabase

/-- The page around the first of two events under a bound of four bytes. -/
def crowdedRequest : ReadAgentTurnLogPageRequest := ⟨sampleScope, ⟨.around, some 1⟩, 2, 4⟩

end CodevoEditor.TurnLogStore
