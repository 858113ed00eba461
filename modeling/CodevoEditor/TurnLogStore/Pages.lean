/-
# Pages of a turn log

`page.rs`: a page is the rows before, after or around a number, at most so many, until they have
more bytes than asked for, but one at least.  A row whose payload does not decode is left out and
reported.

What decodes a payload is a parameter.
-/

import CodevoEditor.TurnLogStore.Model

namespace CodevoEditor.TurnLogStore

open Js Sql List Option

def maxPageEvents : ℕ := 200
def maxPageBytes : ℕ := 512 * 1024

def AgentTurnLogLoss.of (kind : AgentTurnLogLossKind) : AgentTurnLogLoss := ⟨kind, none⟩

inductive AgentTurnLogAnchorAt
  | tail
  | before
  | after
  | around
  deriving DecidableEq

structure AgentTurnLogAnchor where
  at_ : AgentTurnLogAnchorAt
  seq : Option ℤ

structure ReadAgentTurnLogPageRequest where
  scope : AgentTurnLogScope
  anchor : AgentTurnLogAnchor
  maxEvents : ℕ
  maxBytes : ℕ

structure AgentTurnLogPage (ε : Type) where
  entries : List (AgentTurnLogEntry ε)
  firstSeq : ℤ
  lastSeq : ℤ
  hasEarlier : Bool
  hasLater : Bool
  loss : AgentTurnLogLoss
  clipped : Bool
  deriving DecidableEq

variable {ε δ μ : Type}

def validatePageAnchor (anchor : AgentTurnLogAnchor) : Except AgentTurnLogError Unit :=
  match anchor.seq with
  | some seq =>
    if anchor.at_ ≠ .tail ∧ agentTurnLogSeqBase ≤ seq then .ok () else .error sequenceGap
  | none => if anchor.at_ = .tail then .ok () else .error sequenceGap

def validatePageRequest (codec : LogCodec ε δ μ) (request : ReadAgentTurnLogPageRequest) :
    Except AgentTurnLogError Unit := do
  validateScope codec request.scope
  if request.maxEvents < 1 ∨ maxPageEvents < request.maxEvents then .error .budgetExhausted
  else if request.maxBytes < 1 ∨ maxPageBytes < request.maxBytes then .error .budgetExhausted
  else validatePageAnchor request.anchor

/-- The loop of `validate_page`, which gives the last number. -/
def validatePageEntries :
    List (AgentTurnLogEntry ε) → Option ℤ → Except AgentTurnLogError (Option ℤ)
  | [], previous => .ok previous
  | entry :: entries, previous =>
    if entry.seq < agentTurnLogSeqBase then .error .unreadable
    else if previous.any (entry.seq ≤ ·) then .error .unreadable
    else validatePageEntries entries (some entry.seq)

def validatePage (page : AgentTurnLogPage ε) : Except AgentTurnLogError Unit := do
  validateLoss page.loss
  match page.entries with
  | [] => if page.firstSeq ≠ 0 ∨ page.lastSeq ≠ 0 then .error .unreadable else .ok ()
  | first :: rest => do
    let previous ← validatePageEntries (first :: rest) none
    if page.firstSeq ≠ first.seq ∨ some page.lastSeq ≠ previous then .error .unreadable else .ok ()

/-! ### Reading (`page.rs`) -/

structure Budget where
  events : ℕ
  bytes : ℕ

structure Collected (ε : Type) where
  entries : List (AgentTurnLogEntry ε)
  bytes : ℕ
  clipped : Bool
  unreadable : Bool

def Collected.default : Collected ε := ⟨[], 0, false, false⟩

def maxI64 : ℤ := 2 ^ 63 - 1

/-- `saturating_add` and `saturating_sub` of `i64`. -/
def saturatingI64 (value : ℤ) : ℤ := max (-2 ^ 63) (min maxI64 value)

/-- A row of the answer to a query: the number and the rest of an event. -/
abbrev SeqRow := ℤ × EventRow

variable (decodeEvent : List UInt8 → Option ε)

/-- The loop of `collect` over the rows of the answer. -/
def collectFrom (maxBytes : ℕ) : List SeqRow → Collected ε → Collected ε
  | [], collected => collected
  | row :: rows, collected =>
    match decodeEvent row.2.payload with
    | none => collectFrom maxBytes rows { collected with unreadable := true }
    | some event =>
      let nextBytes := collected.bytes + row.2.payload.length
      if maxBytes < nextBytes ∧ ¬ collected.entries.isEmpty then { collected with clipped := true }
      else collectFrom maxBytes rows
        { collected with bytes := nextBytes, entries := collected.entries ++ [⟨row.1, event⟩] }

/-- `collect`, of the rows that its query has without the limit. -/
def collect (rows : List SeqRow) (budget : Budget) : Collected ε :=
  if budget.events = 0 then .default
  else collectFrom decodeEvent budget.bytes (rows.take budget.events) .default

namespace TurnLogDatabase

variable (db : TurnLogDatabase δ μ) (turnId : String)

/-- `WHERE turn_id = ?1 AND …`. -/
def turnRows (test : ℤ → Bool) : List SeqRow :=
  (db.events.selectWhere fun key _ => key.1 = turnId && test key.2).map fun entry =>
    (entry.1.2, entry.2)

/-- `AND seq <= ?2 ORDER BY seq DESC`. -/
def rowsUpTo (highestSeq : ℤ) : List SeqRow :=
  (db.turnRows turnId (· ≤ highestSeq)).insertionSort fun row other => other.1 ≤ row.1

/-- `AND seq >= ?2 ORDER BY seq ASC`. -/
def rowsFrom (lowestSeq : ℤ) : List SeqRow :=
  (db.turnRows turnId (lowestSeq ≤ ·)).insertionSort fun row other => row.1 ≤ other.1

/-- `SELECT EXISTS`. -/
def existsSeq (test : ℤ → Bool) : Bool := !(db.turnRows turnId test).isEmpty

def descending (highestSeq : ℤ) (budget : Budget) : Collected ε :=
  let collected := collect decodeEvent (db.rowsUpTo turnId highestSeq) budget
  { collected with entries := collected.entries.reverse }

def ascending (lowestSeq : ℤ) (budget : Budget) : Collected ε :=
  collect decodeEvent (db.rowsFrom turnId lowestSeq) budget

def around (seq : ℤ) (budget : Budget) : Collected ε :=
  let backward := db.descending decodeEvent turnId seq ⟨(budget.events + 1) / 2, budget.bytes⟩
  if backward.clipped ∨ budget.events ≤ backward.entries.length then backward
  else
    let forward : Budget := ⟨budget.events - backward.entries.length, budget.bytes - backward.bytes⟩
    if forward.bytes = 0 then { backward with clipped := true }
    else
      let later := db.ascending decodeEvent turnId (saturatingI64 (seq + 1)) forward
      { entries := backward.entries ++ later.entries
        bytes := backward.bytes + later.bytes
        clipped := later.clipped
        unreadable := backward.unreadable || later.unreadable }

/-- The match of `read_page` on the anchor. -/
def collectAt (anchor : AgentTurnLogAnchor) (budget : Budget) : Collected ε :=
  let anchorSeq := anchor.seq.getD 0
  match anchor.at_ with
  | .tail => db.descending decodeEvent turnId maxI64 budget
  | .before => db.descending decodeEvent turnId (saturatingI64 (anchorSeq - 1)) budget
  | .after => db.ascending decodeEvent turnId (saturatingI64 (anchorSeq + 1)) budget
  | .around => db.around decodeEvent turnId anchorSeq budget

def pageLoss (row : Option (TurnMetaRow δ μ)) (unreadable : Bool) : AgentTurnLogLoss :=
  if unreadable then .of .unreadable
  else match row with
    | none => .of .none
    | some row => row.loss

def emptyAnchoredPage (anchor : AgentTurnLogAnchor) (loss : AgentTurnLogLoss) : AgentTurnLogPage ε :=
  let seq := anchor.seq.getD 0
  let (hasEarlier, hasLater) := match anchor.at_ with
    | .tail => (false, false)
    | .before => (false, db.existsSeq turnId (seq ≤ ·))
    | .after => (db.existsSeq turnId (· ≤ seq), false)
    | .around => (db.existsSeq turnId (· < seq), db.existsSeq turnId (seq < ·))
  ⟨[], 0, 0, hasEarlier, hasLater, loss, false⟩

def readPage (request : ReadAgentTurnLogPageRequest) (row : Option (TurnMetaRow δ μ)) : AgentTurnLogPage ε :=
  let turnId := request.scope.turnId
  let collected := db.collectAt decodeEvent turnId request.anchor ⟨request.maxEvents, request.maxBytes⟩
  let loss := pageLoss row collected.unreadable
  match collected.entries with
  | [] => db.emptyAnchoredPage turnId request.anchor loss
  | first :: rest =>
    let lastSeq := (rest.getLast?.map (·.seq)).getD first.seq
    { entries := collected.entries
      firstSeq := first.seq
      lastSeq := lastSeq
      hasEarlier := db.existsSeq turnId (· < first.seq)
      hasLater := db.existsSeq turnId (lastSeq < ·)
      loss := loss
      clipped := collected.clipped }

/-- `AgentTurnLogStore::read_page`, on a connection that is there. -/
def storeReadPage (codec : LogCodec ε δ μ) (request : ReadAgentTurnLogPageRequest) :
    Except AgentTurnLogError (AgentTurnLogPage ε) := do
  validatePageRequest codec request
  let page := db.readPage decodeEvent request (db.turnMeta.get? request.scope.turnId)
  validatePage page
  .ok page

end TurnLogDatabase

/-- The entry of a row whose payload decodes. -/
def readRow (row : SeqRow) : Option (AgentTurnLogEntry ε) :=
  (decodeEvent row.2.payload).map fun event => ⟨row.1, event⟩

variable {decodeEvent}

variable {row : SeqRow}

lemma seq_of_readRow {entry} (h : readRow decodeEvent row = some entry) : entry.seq = row.1 := by
  obtain ⟨event, -, rfl⟩ := map_eq_some_iff.1 h
  rfl

/-- The bytes of the rows that can be read. -/
def readableBytes (decodeEvent : List UInt8 → Option ε) (rows : List SeqRow) : ℕ :=
  ((rows.filter fun row => (readRow decodeEvent row).isSome).map fun row => row.2.payload.length).sum

/-- **What the loop collects**: the rows up to the first that does not fit. -/
structure CollectedOf (decodeEvent : List UInt8 → Option ε) (maxBytes : ℕ) (rows : List SeqRow)
    (before after : Collected ε) (seen rest : List SeqRow) : Prop where
  rows_eq : rows = seen ++ rest
  entries_eq : after.entries = before.entries ++ seen.filterMap (readRow decodeEvent)
  unreadable_eq : after.unreadable = (before.unreadable || seen.any fun row => (readRow decodeEvent row).isNone)
  bytes_eq : after.bytes = before.bytes + readableBytes decodeEvent seen
  clipped_of_rest : rest ≠ [] → after.clipped ∧ after.entries ≠ []
  bytes_le : before.bytes ≤ maxBytes ∨ before.entries.length ≤ 1 → after.bytes ≤ maxBytes ∨ after.entries.length ≤ 1

lemma collectFrom_spec (maxBytes : ℕ) (rows) (before) :
    ∃ seen rest, CollectedOf decodeEvent maxBytes rows before
      (collectFrom decodeEvent maxBytes rows before) seen rest := by
  induction rows generalizing before with
  | nil =>
    refine ⟨[], [], rfl, (append_nil _).symm, (Bool.or_false _).symm, rfl, fun h => absurd rfl h, fun h => h⟩
  | cons row rows ih =>
    unfold collectFrom
    cases hdecode : decodeEvent row.2.payload with
    | none =>
      have hread : readRow decodeEvent row = none := by
        unfold readRow
        rw [hdecode, map_none]
      obtain ⟨seen, rest, h⟩ := ih { before with unreadable := true }
      refine ⟨row :: seen, rest, ?_, ?_, ?_, ?_, h.clipped_of_rest, h.bytes_le⟩
      · rw [h.rows_eq, cons_append]
      · rw [h.entries_eq, filterMap_cons_none hread]
      · rw [h.unreadable_eq, any_cons, hread, isNone_none, Bool.true_or, Bool.or_true]
      · rw [h.bytes_eq]
        unfold readableBytes
        rw [filter_cons_of_neg (by rw [hread]; exact Bool.false_ne_true)]
    | some event =>
      have hread : readRow decodeEvent row = some ⟨row.1, event⟩ := by
        unfold readRow
        rw [hdecode, map_some]
      dsimp only
      split_ifs with hfull
      · refine ⟨[], row :: rows, rfl, (append_nil _).symm, (Bool.or_false _).symm, rfl,
          fun _ => ⟨rfl, fun hnil => hfull.2 ?_⟩, fun h => h⟩
        rw [hnil, isEmpty_nil]
      · obtain ⟨seen, rest, h⟩ := ih
          { before with bytes := before.bytes + row.2.payload.length,
                        entries := before.entries ++ [⟨row.1, event⟩] }
        refine ⟨row :: seen, rest, ?_, ?_, ?_, ?_, h.clipped_of_rest, fun _ => h.bytes_le ?_⟩
        · rw [h.rows_eq, cons_append]
        · rw [h.entries_eq, filterMap_cons_some hread, append_assoc, singleton_append]
        · rw [h.unreadable_eq, any_cons, hread, isNone_some, Bool.false_or]
        · rw [h.bytes_eq]
          unfold readableBytes
          rw [filter_cons_of_pos (by rw [hread]; rfl), map_cons, sum_cons, Nat.add_assoc]
        · rcases not_and_or.1 hfull with hfits | hemp
          · exact .inl (Nat.le_of_not_lt hfits)
          · rw [not_not, List.isEmpty_iff] at hemp
            refine .inr ?_
            rw [hemp]
            exact le_rfl

variable (decodeEvent) in
theorem collect_spec (rows) (budget : Budget) :
    ∃ seen rest, rows.take budget.events = seen ++ rest ∧
      (collect decodeEvent rows budget).entries = seen.filterMap (readRow decodeEvent) ∧
      ((collect decodeEvent rows budget).unreadable = seen.any fun row => (readRow decodeEvent row).isNone) ∧
      (collect decodeEvent rows budget).bytes = readableBytes decodeEvent seen ∧
      (rest ≠ [] → (collect decodeEvent rows budget).clipped ∧ (collect decodeEvent rows budget).entries ≠ []) ∧
      ((collect decodeEvent rows budget).bytes ≤ budget.bytes ∨
        (collect decodeEvent rows budget).entries.length ≤ 1) := by
  unfold collect
  split_ifs with hzero
  · rw [hzero, take_zero]
    exact ⟨[], [], rfl, rfl, rfl, rfl, fun h => absurd rfl h, .inl (Nat.zero_le _)⟩
  · obtain ⟨seen, rest, h⟩ := collectFrom_spec budget.bytes
      (rows.take budget.events) .default
    refine ⟨seen, rest, h.rows_eq, h.entries_eq, ?_, ?_, h.clipped_of_rest, h.bytes_le (.inl (Nat.zero_le _))⟩
    · rw [h.unreadable_eq]
      exact Bool.false_or _
    · rw [h.bytes_eq]
      exact Nat.zero_add _

namespace TurnLogDatabase

variable {db : TurnLogDatabase δ μ} {turnId : String}

variable {test : ℤ → Bool}

lemma mem_turnRows_iff :
    row ∈ db.turnRows turnId test ↔ db.events.get? (turnId, row.1) = some row.2 ∧ test row.1 := by
  unfold turnRows
  rw [List.mem_map, OrderedMap.get?_eq_some_iff]
  constructor
  · rintro ⟨⟨⟨other, seq⟩, stored⟩, hmem, rfl⟩
    obtain ⟨hstore, htest⟩ := Table.mem_selectWhere.1 hmem
    rw [Bool.and_eq_true, decide_eq_true_eq] at htest
    obtain ⟨rfl, htest⟩ := htest
    exact ⟨hstore, htest⟩
  · rintro ⟨hmem, htest⟩
    refine ⟨((turnId, row.1), row.2), Table.mem_selectWhere.2 ⟨hmem, ?_⟩, rfl⟩
    rw [Bool.and_eq_true, decide_eq_true_eq]
    exact ⟨rfl, htest⟩

lemma turnRows_nodup (db : TurnLogDatabase δ μ) (turnId : String) (test : ℤ → Bool) :
    ((db.turnRows turnId test).map Prod.fst).Nodup := by
  have hkeys : ((db.events.selectWhere fun key _ => key.1 = turnId && test key.2).map Prod.fst).Nodup :=
    db.events.nodup.sublist (filter_sublist.map _)
  unfold turnRows
  rw [List.map_map]
  have hmap : (Prod.fst ∘ fun entry : (String × ℤ) × EventRow => (entry.1.2, entry.2)) = Prod.snd ∘ Prod.fst := rfl
  rw [hmap, ← List.map_map]
  refine Nodup.map_on (fun key hkey other hoth heq => ?_) hkeys
  obtain ⟨entry, hent, rfl⟩ := mem_map.1 hkey
  obtain ⟨entry', hentry', rfl⟩ := mem_map.1 hoth
  have hturn := (Table.mem_selectWhere.1 hent).2
  have hturn' := (Table.mem_selectWhere.1 hentry').2
  rw [Bool.and_eq_true, decide_eq_true_eq] at hturn hturn'
  exact Prod.ext (hturn.1.trans hturn'.1.symm) heq

lemma existsSeq_iff : db.existsSeq turnId test ↔ ∃ seq, (db.events.get? (turnId, seq)).isSome ∧ test seq := by
  unfold existsSeq
  rw [Bool.not_eq_true', isEmpty_eq_false_iff_exists_mem]
  constructor
  · rintro ⟨row, hrow⟩
    obtain ⟨hget, htest⟩ := mem_turnRows_iff.1 hrow
    exact ⟨row.1, by rw [hget]; rfl, htest⟩
  · rintro ⟨seq, hsome, htest⟩
    obtain ⟨stored, hget⟩ := isSome_iff_exists.1 hsome
    exact ⟨(seq, stored), mem_turnRows_iff.2 ⟨hget, htest⟩⟩

variable {highestSeq : ℤ}

lemma mem_rowsUpTo_iff :
    row ∈ db.rowsUpTo turnId highestSeq ↔ db.events.get? (turnId, row.1) = some row.2 ∧ row.1 ≤ highestSeq := by
  unfold rowsUpTo
  rw [mem_insertionSort, mem_turnRows_iff, decide_eq_true_eq]

variable {lowestSeq : ℤ}

lemma mem_rowsFrom_iff :
    row ∈ db.rowsFrom turnId lowestSeq ↔ db.events.get? (turnId, row.1) = some row.2 ∧ lowestSeq ≤ row.1 := by
  unfold rowsFrom
  rw [mem_insertionSort, mem_turnRows_iff, decide_eq_true_eq]

lemma pairwise_rowsUpTo (db : TurnLogDatabase δ μ) (turnId : String) (highestSeq : ℤ) :
    (db.rowsUpTo turnId highestSeq).Pairwise fun row other => other.1 < row.1 := by
  have hle : (db.rowsUpTo turnId highestSeq).Pairwise fun row other => other.1 ≤ row.1 := pairwise_insertionSort _ _
  have hperm : (db.rowsUpTo turnId highestSeq).Perm (db.turnRows turnId (· ≤ highestSeq)) := perm_insertionSort _ _
  have hne := pairwise_map.1 ((hperm.map Prod.fst).nodup_iff.2 (db.turnRows_nodup turnId _))
  exact (hle.and hne).imp fun h => lt_of_le_of_ne h.1 (.symm h.2)

lemma pairwise_rowsFrom (db : TurnLogDatabase δ μ) (turnId : String) (lowestSeq : ℤ) :
    (db.rowsFrom turnId lowestSeq).Pairwise fun row other => row.1 < other.1 := by
  have hle : (db.rowsFrom turnId lowestSeq).Pairwise fun row other => row.1 ≤ other.1 := pairwise_insertionSort _ _
  have hperm : (db.rowsFrom turnId lowestSeq).Perm (db.turnRows turnId (lowestSeq ≤ ·)) := perm_insertionSort _ _
  have hne := pairwise_map.1 ((hperm.map Prod.fst).nodup_iff.2 (db.turnRows_nodup turnId _))
  exact (hle.and hne).imp fun h => lt_of_le_of_ne h.1 h.2

variable {before rest : List SeqRow}

/-- **The rows after a row that is met are those below it.** -/
theorem rowsUpTo_of_split (h : db.rowsUpTo turnId highestSeq = before ++ row :: rest) :
    db.rowsUpTo turnId (row.1 - 1) = rest := by
  have hsort := db.pairwise_rowsUpTo turnId highestSeq
  have hmem : ∀ other, other ∈ db.rowsUpTo turnId highestSeq ↔
      db.events.get? (turnId, other.1) = some other.2 ∧ other.1 ≤ highestSeq := fun _ => mem_rowsUpTo_iff
  rw [h] at hsort hmem
  obtain ⟨-, hrest, hpre⟩ := pairwise_append.1 hsort
  obtain ⟨haft, hrest⟩ := pairwise_cons.1 hrest
  have hirrefl : Std.Irrefl fun row other : SeqRow => other.1 < row.1 := ⟨fun row => lt_irrefl row.1⟩
  refine (db.pairwise_rowsUpTo turnId (row.1 - 1)).eq_of_mem_iff hrest fun other => ?_
  rw [mem_rowsUpTo_iff]
  have hrow := (hmem row).1 (mem_append_right _ mem_cons_self)
  constructor
  · rintro ⟨hget, hle⟩
    rcases mem_append.1 ((hmem other).2 ⟨hget, by omega⟩) with hin | hin
    · have := hpre other hin row mem_cons_self
      omega
    · rcases mem_cons.1 hin with rfl | hin
      · omega
      · exact hin
  · intro hin
    have := haft other hin
    exact ⟨((hmem other).1 (mem_append_right _ (mem_cons_of_mem _ hin))).1, by omega⟩

lemma rowsFrom_of_split (h : db.rowsFrom turnId lowestSeq = before ++ row :: rest) :
    db.rowsFrom turnId (row.1 + 1) = rest := by
  have hsort := db.pairwise_rowsFrom turnId lowestSeq
  have hmem : ∀ other, other ∈ db.rowsFrom turnId lowestSeq ↔
      db.events.get? (turnId, other.1) = some other.2 ∧ lowestSeq ≤ other.1 := fun _ => mem_rowsFrom_iff
  rw [h] at hsort hmem
  obtain ⟨-, hrest, hpre⟩ := pairwise_append.1 hsort
  obtain ⟨haft, hrest⟩ := pairwise_cons.1 hrest
  have hirrefl : Std.Irrefl fun row other : SeqRow => row.1 < other.1 := ⟨fun row => lt_irrefl row.1⟩
  refine (db.pairwise_rowsFrom turnId (row.1 + 1)).eq_of_mem_iff hrest fun other => ?_
  rw [mem_rowsFrom_iff]
  have hrow := (hmem row).1 (mem_append_right _ mem_cons_self)
  constructor
  · rintro ⟨hget, hle⟩
    rcases mem_append.1 ((hmem other).2 ⟨hget, by omega⟩) with hin | hin
    · have := hpre other hin row mem_cons_self
      omega
    · rcases mem_cons.1 hin with rfl | hin
      · omega
      · exact hin
  · intro hin
    have := haft other hin
    exact ⟨((hmem other).1 (mem_append_right _ (mem_cons_of_mem _ hin))).1, by omega⟩

end TurnLogDatabase

end CodevoEditor.TurnLogStore
