/-
# The health of the journal

`src-tauri/src/agent_runtime_requests/health.rs`: which turns the journal may have lost
something of.
-/

import CodevoEditor.RuntimeRequests.Model
import CodevoEditor.Js.OrderedMap
import CodevoEditor.Runs.Repairs
import Mathlib.Data.List.Induction
import Mathlib.Order.Nat

namespace CodevoEditor.RuntimeRequests

open Js Runs List OrderedMap
open Option hiding sequence

def maxUnresolvedTurns : ℕ := 1024
def maxReportedTurnFailures : ℕ := 16

inductive StoreErrorKind
  | busy
  | full
  | deadlineExceeded
  | heldByAnotherInstance
  | unavailable
  deriving DecidableEq

structure StoreError where
  kind : StoreErrorKind
  detail : String

inductive JournalFailure
  | writeFailed (kind : StoreErrorKind)
  | heldByAnotherInstance
  | notScoped
  | turnForgotten
  | turnSuperseded
  | answerUnsaved
  | answerLost
  | requestRejected
  | requestNotPlaced
  | queueFull
  | writerStopped
  deriving DecidableEq

def JournalFailure.of (error : StoreError) : JournalFailure :=
  if error.kind = .heldByAnotherInstance then .heldByAnotherInstance else .writeFailed error.kind

/-- The largest `u64`. -/
def neverReconciled : ℕ := 2 ^ 64 - 1

def stateOf (degraded : Bool) : JournalState := if degraded then .degraded else .saved

structure Unresolved where
  failure : JournalFailure
  sinceSequence : ℕ

structure JournalLedger where
  unresolved : OrderedMap TurnAuthority Unresolved
  overflowed : Bool
  writerUnavailable : Bool
  failedWrites : ℕ
  retriedWrites : ℕ
  unscopedSnapshots : ℕ
  lateSnapshots : ℕ
  droppedSnapshots : ℕ
  rejectedRequests : ℕ
  skippedRequests : ℕ
  prunedRequests : ℕ
  unsavedAnswers : ℕ
  lostAnswers : ℕ
  lastFailure : Option JournalFailure

namespace JournalLedger

def start : JournalLedger where
  unresolved := .empty
  overflowed := false
  writerUnavailable := false
  failedWrites := 0
  retriedWrites := 0
  unscopedSnapshots := 0
  lateSnapshots := 0
  droppedSnapshots := 0
  rejectedRequests := 0
  skippedRequests := 0
  prunedRequests := 0
  unsavedAnswers := 0
  lostAnswers := 0
  lastFailure := none

variable (ledger : JournalLedger) (key : TurnAuthority)

def fail (failure : JournalFailure) (sinceSequence : ℕ) : JournalLedger :=
  let ledger := { ledger with lastFailure := some failure }
  match ledger.unresolved.get? key with
  | some known =>
    if known.failure = .answerLost then ledger
    else if known.sinceSequence = neverReconciled ∧ sinceSequence ≠ neverReconciled then ledger
    else
      { ledger with
        unresolved := ledger.unresolved.set key ⟨failure, max sinceSequence known.sinceSequence⟩ }
  | none =>
    if maxUnresolvedTurns ≤ ledger.unresolved.size then { ledger with overflowed := true }
    else { ledger with unresolved := ledger.unresolved.set key ⟨failure, sinceSequence⟩ }

/-- `writer_unavailable`. -/
def writerGone : JournalLedger :=
  { ledger with writerUnavailable := true, lastFailure := some .writerStopped }

def writerPanicked (sequence : ℕ) : JournalLedger :=
  { ledger with failedWrites := ledger.failedWrites + 1 }.fail key .writerStopped sequence

def writeFailed (error : StoreError) (sequence : ℕ) : JournalLedger :=
  { ledger with failedWrites := ledger.failedWrites + 1 }.fail key (.of error) sequence

def writeRetried : JournalLedger :=
  { ledger with retriedWrites := ledger.retriedWrites + 1 }

def snapshotUnscoped (sequence : ℕ) : JournalLedger :=
  { ledger with unscopedSnapshots := ledger.unscopedSnapshots + 1 }.fail key .notScoped sequence

def snapshotLate : JournalLedger :=
  { ledger with lateSnapshots := ledger.lateSnapshots + 1 }.fail key .turnForgotten neverReconciled

def snapshotDropped (sequence : ℕ) : JournalLedger :=
  { ledger with droppedSnapshots := ledger.droppedSnapshots + 1 }.fail key .queueFull sequence

def answerUnsaved (version : ℕ) : JournalLedger :=
  { ledger with unsavedAnswers := ledger.unsavedAnswers + 1 }.fail key .answerUnsaved version

/-- What went wrong when a snapshot was applied, and since when. -/
def lossOf (report : ApplyReport) (turn : ObservedTurn) : Option (JournalFailure × ℕ) :=
  if report.superseded then some (.turnSuperseded, neverReconciled)
  else if report.stale then none
  else if 0 < report.lostAnswers then some (.answerLost, neverReconciled)
  else if 0 < turn.rejected.length then some (.requestRejected, turn.sequence)
  else if 0 < report.skipped then some (.requestNotPlaced, turn.sequence)
  else none

/-- A snapshot that is not stale, and that nothing was lost of. -/
def isClean (report : ApplyReport) (turn : ObservedTurn) : Bool :=
  (lossOf report turn).isNone && !report.stale

def snapshotApplied (report : ApplyReport) (turn : ObservedTurn) : JournalLedger :=
  let ledger :=
    { ledger with
      rejectedRequests := ledger.rejectedRequests + turn.rejected.length
      skippedRequests := ledger.skippedRequests + report.skipped
      prunedRequests := ledger.prunedRequests + report.pruned
      lostAnswers := ledger.lostAnswers + report.lostAnswers }
  if report.superseded then ledger.fail key .turnSuperseded neverReconciled
  else if report.stale then ledger
  else if 0 < report.lostAnswers then ledger.fail key .answerLost neverReconciled
  else if 0 < turn.rejected.length then ledger.fail key .requestRejected turn.sequence
  else if 0 < report.skipped then ledger.fail key .requestNotPlaced turn.sequence
  else if (ledger.unresolved.get? key).any (·.sinceSequence ≤ turn.sequence) then
    { ledger with unresolved := ledger.unresolved.delete key }
  else ledger

def isDegradedEverywhere : Bool :=
  ledger.writerUnavailable || ledger.overflowed

def threadState (threadId : String) : JournalState :=
  stateOf (ledger.isDegradedEverywhere || ledger.unresolved.keys.any fun turn => turn.key.threadId = threadId)

def hasFailure : Bool := ledger.unresolved.has key

def threadStateIn (scope : HistoryScope) (threadId : String) : JournalState :=
  stateOf (ledger.isDegradedEverywhere || ledger.unresolved.keys.any fun turn =>
    turn.key.threadId = threadId && (turn.scope = scope || turn.scope.rootKey = ""))

end JournalLedger

namespace Ledger

inductive Operation
  | writerUnavailable
  | writerPanicked (key : TurnAuthority) (sequence : ℕ)
  | writeFailed (key : TurnAuthority) (error : StoreError) (sequence : ℕ)
  | writeRetried
  | snapshotUnscoped (key : TurnAuthority) (sequence : ℕ)
  | snapshotLate (key : TurnAuthority)
  | snapshotDropped (key : TurnAuthority) (sequence : ℕ)
  | answerUnsaved (key : TurnAuthority) (version : ℕ)
  | snapshotApplied (key : TurnAuthority) (report : ApplyReport) (turn : ObservedTurn)

namespace Operation

def apply (ledger : JournalLedger) : Operation → JournalLedger
  | writerUnavailable => ledger.writerGone
  | writerPanicked key sequence => ledger.writerPanicked key sequence
  | writeFailed key error sequence => ledger.writeFailed key error sequence
  | writeRetried => ledger.writeRetried
  | snapshotUnscoped key sequence => ledger.snapshotUnscoped key sequence
  | snapshotLate key => ledger.snapshotLate key
  | snapshotDropped key sequence => ledger.snapshotDropped key sequence
  | answerUnsaved key version => ledger.answerUnsaved key version
  | snapshotApplied key report turn => ledger.snapshotApplied key report turn

/-- The failure that an operation records: of which turn, which one, and since when. -/
def failure : Operation → Option (TurnAuthority × JournalFailure × ℕ)
  | writerUnavailable | writeRetried => none
  | writerPanicked key sequence => some (key, .writerStopped, sequence)
  | writeFailed key error sequence => some (key, .of error, sequence)
  | snapshotUnscoped key sequence => some (key, .notScoped, sequence)
  | snapshotLate key => some (key, .turnForgotten, neverReconciled)
  | snapshotDropped key sequence => some (key, .queueFull, sequence)
  | answerUnsaved key version => some (key, .answerUnsaved, version)
  | snapshotApplied key report turn =>
    (JournalLedger.lossOf report turn).map fun loss => (key, loss.1, loss.2)

/-- Since when an operation fails a turn. -/
def failsAt (turn : TurnAuthority) (operation : Operation) : Option ℕ :=
  match operation.failure with
  | some (key, _, since) => if key = turn then some since else none
  | none => none

/-- The sequence up to which an operation applies a clean snapshot of a turn. -/
def repairsTo (turn : TurnAuthority) : Operation → Option ℕ
  | snapshotApplied key report observed =>
    if key = turn ∧ JournalLedger.isClean report observed then some observed.sequence else none
  | _ => none

/-- A snapshot that is applied has a sequence below the largest `u64`. -/
def Numbered : Operation → Prop
  | snapshotApplied _ _ observed => observed.sequence < neverReconciled
  | _ => True

end Operation

end Ledger

namespace JournalLedger

variable {ledger : JournalLedger} {turn : TurnAuthority}

/-- What decides the state of a thread is the same. -/
structure SameState (ledger ledger' : JournalLedger) : Prop where
  unresolved : ledger'.unresolved = ledger.unresolved
  overflowed : ledger'.overflowed = ledger.overflowed
  writer : ledger'.writerUnavailable = ledger.writerUnavailable

/-- **What a failure does.**  It is taken in with what is known of its turn, or as the first
one of its turn, or else the ledger overflows. -/
theorem fail_cases (ledger : JournalLedger) (key : TurnAuthority) (failure : JournalFailure)
    (since : ℕ) :
    (ledger.fail key failure since).writerUnavailable = ledger.writerUnavailable ∧
    ((∃ known next, ledger.unresolved.get? key = some known ∧
        (ledger.fail key failure since).unresolved = ledger.unresolved.set key next ∧
        (ledger.fail key failure since).overflowed = ledger.overflowed ∧
        (next = known ∧ (known.failure = .answerLost ∨ known.sinceSequence = neverReconciled) ∨
          next = ⟨failure, max since known.sinceSequence⟩)) ∨
      ((ledger.fail key failure since).unresolved = ledger.unresolved ∧ (ledger.fail key failure since).overflowed) ∨
      (ledger.unresolved.get? key = none ∧
        (ledger.fail key failure since).unresolved = ledger.unresolved.set key ⟨failure, since⟩ ∧
        (ledger.fail key failure since).overflowed = ledger.overflowed)) := by
  unfold fail
  dsimp only
  cases hget : ledger.unresolved.get? key with
  | none =>
    split_ifs
    · exact ⟨rfl, .inr (.inl ⟨rfl, rfl⟩)⟩
    · exact ⟨rfl, .inr (.inr ⟨rfl, rfl, rfl⟩)⟩
  | some known =>
    dsimp only
    have hsame := set_of_get? hget
    split_ifs with hlost hnever
    · exact ⟨rfl, .inl ⟨known, known, rfl, hsame.symm, rfl, .inl ⟨rfl, .inl hlost⟩⟩⟩
    · exact ⟨rfl, .inl ⟨known, known, rfl, hsame.symm, rfl, .inl ⟨rfl, .inr hnever.1⟩⟩⟩
    · exact ⟨rfl, .inl ⟨known, _, rfl, rfl, rfl, .inr rfl⟩⟩

/-- **What an operation does** to the state of the threads. -/
theorem apply_cases (ledger : JournalLedger) (operation : Ledger.Operation) :
    (∃ key failure since counted, operation.failure = some (key, failure, since) ∧
      operation.apply ledger = counted.fail key failure since ∧ ledger.SameState counted) ∨
    (operation.failure = none ∧ ∃ key known reached, operation.repairsTo key = some reached ∧
      ledger.unresolved.get? key = some known ∧ known.sinceSequence ≤ reached ∧
      (operation.apply ledger).unresolved = ledger.unresolved.delete key ∧
      (operation.apply ledger).overflowed = ledger.overflowed ∧
      (operation.apply ledger).writerUnavailable = ledger.writerUnavailable) ∨
    (operation.failure = none ∧ (operation.apply ledger).unresolved = ledger.unresolved ∧
      (operation.apply ledger).overflowed = ledger.overflowed ∧
      ((operation.apply ledger).writerUnavailable = ledger.writerUnavailable ∨
        (operation.apply ledger).writerUnavailable)) := by
  cases operation with
  | writerUnavailable => exact .inr (.inr ⟨rfl, rfl, rfl, .inr rfl⟩)
  | writerPanicked key sequence => exact .inl ⟨_, _, _, _, rfl, rfl, ⟨rfl, rfl, rfl⟩⟩
  | writeFailed key error sequence => exact .inl ⟨_, _, _, _, rfl, rfl, ⟨rfl, rfl, rfl⟩⟩
  | writeRetried => exact .inr (.inr ⟨rfl, rfl, rfl, .inl rfl⟩)
  | snapshotUnscoped key sequence => exact .inl ⟨_, _, _, _, rfl, rfl, ⟨rfl, rfl, rfl⟩⟩
  | snapshotLate key => exact .inl ⟨_, _, _, _, rfl, rfl, ⟨rfl, rfl, rfl⟩⟩
  | snapshotDropped key sequence => exact .inl ⟨_, _, _, _, rfl, rfl, ⟨rfl, rfl, rfl⟩⟩
  | answerUnsaved key version => exact .inl ⟨_, _, _, _, rfl, rfl, ⟨rfl, rfl, rfl⟩⟩
  | snapshotApplied key report observed =>
    unfold Ledger.Operation.apply Ledger.Operation.failure Ledger.Operation.repairsTo snapshotApplied isClean lossOf
    dsimp only
    split_ifs with hsuper hstale hlost hrejected hskipped hrch
    · exact .inl ⟨_, _, _, _, rfl, rfl, ⟨rfl, rfl, rfl⟩⟩
    · exact .inr (.inr ⟨rfl, rfl, rfl, .inl rfl⟩)
    · exact .inl ⟨_, _, _, _, rfl, rfl, ⟨rfl, rfl, rfl⟩⟩
    · exact .inl ⟨_, _, _, _, rfl, rfl, ⟨rfl, rfl, rfl⟩⟩
    · exact .inl ⟨_, _, _, _, rfl, rfl, ⟨rfl, rfl, rfl⟩⟩
    · obtain ⟨known, hkn, hle⟩ := (any_eq_true _ _).1 hrch
      refine .inr (.inl ⟨rfl, key, known, observed.sequence, ?_, hkn, of_decide_eq_true hle, rfl, rfl, rfl⟩)
      rw [if_pos ⟨rfl, by simp [hstale]⟩]
    · exact .inr (.inr ⟨rfl, rfl, rfl, .inl rfl⟩)

/-- An answer that is lost is never reconciled. -/
def Permanent (ledger : JournalLedger) : Prop :=
  ∀ turn known, ledger.unresolved.get? turn = some known → known.failure = .answerLost →
    neverReconciled ≤ known.sinceSequence

variable {operation : Ledger.Operation}

lemma answerLost_since {since}
    (h : operation.failure = some (turn, .answerLost, since)) : since = neverReconciled := by
  cases operation with
  | writerUnavailable => cases h
  | writeFailed key error sequence =>
    have hof : JournalFailure.of error = .answerLost := congrArg (fun p => p.2.1) (some.inj h)
    unfold JournalFailure.of at hof
    split_ifs at hof
  | snapshotApplied key report observed =>
    unfold Ledger.Operation.failure lossOf at h
    dsimp only at h
    split_ifs at h <;> cases h
    rfl
  | _ => cases h

lemma Permanent.apply (h : ledger.Permanent) (operation : Ledger.Operation) : (operation.apply ledger).Permanent := by
  intro other found hget hlost
  rcases apply_cases ledger operation with
    ⟨key, failure, since, counted, hfail, happly, hsame⟩ | ⟨-, key, -, -, -, -, -, hunres, -⟩ |
    ⟨-, hunres, -⟩
  · rw [happly] at hget
    obtain ⟨-, ⟨known, next, hkn, hunres, -, hnext⟩ | ⟨hunres, -⟩ | ⟨-, hunres, -⟩⟩ :=
      fail_cases counted key failure since
    · rw [hunres, get?_set, hsame.unresolved] at hget
      rw [hsame.unresolved] at hkn
      split_ifs at hget
      · obtain rfl := some.inj hget
        rcases hnext with ⟨rfl, -⟩ | rfl
        · exact h key next hkn hlost
        · obtain rfl : failure = .answerLost := hlost
          rw [answerLost_since hfail]
          exact le_max_left _ _
      · exact h other found hget hlost
    · rw [hunres, hsame.unresolved] at hget
      exact h other found hget hlost
    · rw [hunres, get?_set, hsame.unresolved] at hget
      split_ifs at hget
      · cases hget
        obtain rfl : failure = .answerLost := hlost
        exact (answerLost_since hfail).ge
      · exact h other found hget hlost
  · rw [hunres, get?_delete] at hget
    split_ifs at hget
    exact h other found hget hlost
  · rw [hunres] at hget
    exact h other found hget hlost

/-- **What is known of a turn accounts for what has failed of it.**  Nothing is known where all
has been repaired; otherwise what is known reaches every failure since then, or is never
reconciled. -/
def Accounted (turn : TurnAuthority) (operations : List Ledger.Operation) : Option Unresolved → Prop
  | none => Repaired (Ledger.Operation.failsAt turn) (Ledger.Operation.repairsTo turn) operations
  | some known => ∃ settled pending, operations = settled ++ pending ∧
      Repaired (Ledger.Operation.failsAt turn) (Ledger.Operation.repairsTo turn) settled ∧
      ∀ operation ∈ pending, ∀ failed, operation.failsAt turn = some failed →
        failed ≤ known.sinceSequence ∨ neverReconciled ≤ known.sinceSequence

lemma failsAt_eq {key} {failure}
    {since} (h : operation.failure = some (key, failure, since)) (turn) :
    operation.failsAt turn = if key = turn then some since else none := by
  unfold Ledger.Operation.failsAt
  rw [h]

lemma failsAt_none (h : operation.failure = none) (turn) : operation.failsAt turn = none := by
  unfold Ledger.Operation.failsAt
  rw [h]

lemma repairsTo_lt (h : operation.Numbered) {reached}
    (hrepairs : operation.repairsTo turn = some reached) : reached < neverReconciled := by
  cases operation with
  | snapshotApplied key report observed =>
    unfold Ledger.Operation.repairsTo at hrepairs
    dsimp only at hrepairs
    split_ifs at hrepairs
    cases hrepairs
    exact h
  | _ => cases hrepairs

variable {operations : List Ledger.Operation} {operation : Ledger.Operation}

lemma Accounted.quiet {known} (h : Accounted turn operations known)
    (hqt : operation.failsAt turn = none) : Accounted turn (operations ++ [operation]) known := by
  cases known with
  | none =>
    refine Repaired.append h (Repaired.of_quiet fun other hoth => ?_)
    rwa [mem_singleton.1 hoth]
  | some known =>
    obtain ⟨settled, pending, rfl, hstl, hpend⟩ := h
    refine ⟨settled, pending ++ [operation], append_assoc _ _ _, hstl, ?_⟩
    intro other hoth failed hfailed
    rcases mem_append.1 hoth with hoth | hoth
    · exact hpend other hoth failed hfailed
    · rw [mem_singleton.1 hoth, hqt] at hfailed
      cases hfailed

lemma Accounted.fail {known} (h : Accounted turn operations known) {since}
    (hfails : operation.failsAt turn = some since) {next}
    (hle : ∀ found, known = some found → found.sinceSequence ≤ next.sinceSequence)
    (hnext : since ≤ next.sinceSequence ∨ neverReconciled ≤ next.sinceSequence) :
    Accounted turn (operations ++ [operation]) (some next) := by
  have hlast : ∀ failed, operation.failsAt turn = some failed →
      failed ≤ next.sinceSequence ∨ neverReconciled ≤ next.sinceSequence := by
    intro failed hfailed
    rw [hfails] at hfailed
    cases hfailed
    exact hnext
  cases known with
  | none =>
    refine ⟨operations, [operation], rfl, h, fun other hoth failed hfailed => ?_⟩
    rw [mem_singleton.1 hoth] at hfailed
    exact hlast failed hfailed
  | some known =>
    obtain ⟨settled, pending, rfl, hstl, hpend⟩ := h
    refine ⟨settled, pending ++ [operation], append_assoc _ _ _, hstl, ?_⟩
    intro other hoth failed hfailed
    rcases mem_append.1 hoth with hoth | hoth
    · have hkn := hle known rfl
      have := hpend other hoth failed hfailed
      omega
    · rw [mem_singleton.1 hoth] at hfailed
      exact hlast failed hfailed

lemma Accounted.repair {known} (h : Accounted turn operations (some known))
    {reached} (hrepairs : operation.repairsTo turn = some reached)
    (hqt : operation.failsAt turn = none) (hle : known.sinceSequence ≤ reached)
    (hnum : reached < neverReconciled) : Accounted turn (operations ++ [operation]) none := by
  obtain ⟨settled, pending, rfl, hstl, hpend⟩ := h
  rw [append_assoc]
  refine hstl.append_repair hrepairs hqt fun other hoth failed hfailed => ?_
  have := hpend other hoth failed hfailed
  omega

/-- **An operation leaves each turn accounted for**, unless the ledger overflows. -/
theorem Accounted.apply (hpermanent : ledger.Permanent)
    (h : Accounted turn operations (ledger.unresolved.get? turn)) (hnum : operation.Numbered)
    (hroom : (operation.apply ledger).overflowed = false) :
    Accounted turn (operations ++ [operation]) ((operation.apply ledger).unresolved.get? turn) := by
  rcases apply_cases ledger operation with
    ⟨key, failure, since, counted, hfail, happly, hsame⟩ |
    ⟨hqt, key, known, reached, hrepairs, hkn, hle, hunres, -⟩ | ⟨hqt, hunres, -⟩
  · have hfails := failsAt_eq hfail turn
    rw [happly] at hroom ⊢
    obtain ⟨-, ⟨known, next, hkn, hunres, -, hnext⟩ | ⟨-, hfull⟩ | ⟨hnone, hunres, -⟩⟩ :=
      fail_cases counted key failure since
    · rw [hsame.unresolved] at hkn
      rw [hunres, hsame.unresolved, get?_set]
      by_cases heq : turn = key
      · rw [if_pos heq]
        rw [if_pos heq.symm] at hfails
        rw [heq, hkn, ← heq] at h
        refine h.fail hfails (fun found hget => ?_) ?_
        · cases hget
          rcases hnext with ⟨rfl, -⟩ | rfl
          · exact le_rfl
          · exact le_max_right _ _
        · rcases hnext with ⟨rfl, hlost | hnever⟩ | rfl
          · exact .inr (hpermanent key next hkn hlost)
          · exact .inr hnever.ge
          · exact .inl (le_max_left _ _)
      · rw [if_neg heq]
        rw [if_neg (Ne.symm heq)] at hfails
        exact h.quiet hfails
    · rw [hfull] at hroom
      cases hroom
    · rw [hsame.unresolved] at hnone
      rw [hunres, hsame.unresolved, get?_set]
      by_cases heq : turn = key
      · rw [if_pos heq]
        rw [if_pos heq.symm] at hfails
        rw [heq, hnone, ← heq] at h
        exact h.fail hfails (nofun) (.inl le_rfl)
      · rw [if_neg heq]
        rw [if_neg (Ne.symm heq)] at hfails
        exact h.quiet hfails
  · have hfails := failsAt_none hqt turn
    rw [hunres, get?_delete]
    by_cases heq : turn = key
    · rw [if_pos heq]
      rw [heq, hkn, ← heq] at h
      rw [← heq] at hrepairs
      exact h.repair hrepairs hfails hle (repairsTo_lt hnum hrepairs)
    · rw [if_neg heq]
      exact h.quiet hfails
  · rw [hunres]
    exact h.quiet (failsAt_none hqt turn)

/-- What holds of the ledger after some operations, as long as it has not overflowed. -/
structure Recorded (operations : List Ledger.Operation) (ledger : JournalLedger) : Prop where
  permanent : ledger.Permanent
  writer : ledger.writerUnavailable = false → .writerUnavailable ∉ operations
  accounted : ledger.overflowed = false → ∀ turn, Accounted turn operations (ledger.unresolved.get? turn)

lemma overflowed_mono (h : ledger.overflowed) (operation : Ledger.Operation) :
    (operation.apply ledger).overflowed := by
  rcases apply_cases ledger operation with
    ⟨key, failure, since, counted, -, happly, hsame⟩ | ⟨-, _, _, _, -, -, -, -, hover, -⟩ |
    ⟨-, -, hover, -⟩
  · rw [happly]
    obtain ⟨-, ⟨_, _, -, -, hover, -⟩ | ⟨-, hover⟩ | ⟨-, -, hover⟩⟩ :=
      fail_cases counted key failure since
    · rw [hover, hsame.overflowed, h]
    · exact hover
    · rw [hover, hsame.overflowed, h]
  · rw [hover, h]
  · rw [hover, h]

lemma writer_apply (ledger : JournalLedger) (operation : Ledger.Operation)
    (h : (operation.apply ledger).writerUnavailable = false) :
    ledger.writerUnavailable = false ∧ operation ≠ .writerUnavailable := by
  refine ⟨?_, fun heq => ?_⟩
  · rcases apply_cases ledger operation with
      ⟨key, failure, since, counted, -, happly, hsame⟩ | ⟨-, _, _, _, -, -, -, -, -, hwriter⟩ |
      ⟨-, -, -, hwriter | hwriter⟩
    · rw [happly, (fail_cases counted key failure since).1, hsame.writer] at h
      exact h
    · rwa [hwriter] at h
    · rwa [hwriter] at h
    · rw [hwriter] at h
      cases h
  · rw [heq] at h
    cases h

lemma Recorded.apply (h : Recorded operations ledger) (hnum : operation.Numbered) :
    Recorded (operations ++ [operation]) (operation.apply ledger) := by
  refine ⟨h.permanent.apply operation, fun hwriter => ?_, fun hroom turn => ?_⟩
  · obtain ⟨hpre, hne⟩ := writer_apply ledger operation hwriter
    rw [mem_append, mem_singleton, not_or]
    exact ⟨h.writer hpre, Ne.symm hne⟩
  · have hpre : ledger.overflowed = false := by
      by_contra hover
      rw [Bool.not_eq_false] at hover
      rw [overflowed_mono hover operation] at hroom
      cases hroom
    exact (h.accounted hpre turn).apply h.permanent hnum hroom

end JournalLedger

namespace Ledger

def run (operations : List Operation) : JournalLedger := operations.foldl Operation.apply .start

lemma run_recorded {operations}
    (h : ∀ operation ∈ operations, operation.Numbered) :
    JournalLedger.Recorded operations (run operations) := by
  induction operations using List.reverseRecOn with
  | nil => exact ⟨nofun, fun _ => not_mem_nil, fun _ turn => trivial⟩
  | append_singleton operations operation ih =>
    rw [forall_mem_append] at h
    unfold run
    rw [foldl_append]
    exact (ih h.1).apply (h.2 operation (mem_singleton_self _))

end Ledger

open Ledger

lemma stateOf_eq_saved {degraded} : stateOf degraded = .saved ↔ degraded = false := by
  cases degraded <;> decide

/-- **A thread is never reported saved wrongly**: every failure of its turns is followed by a clean
snapshot of the incarnation, and the ledger has never overflowed. -/
theorem saved_is_repaired {operations : List Ledger.Operation}
    (h : ∀ operation ∈ operations, operation.Numbered) :
    (∀ threadId, (run operations).threadState threadId = .saved →
      .writerUnavailable ∉ operations ∧ (run operations).overflowed = false ∧
      ∀ turn : TurnAuthority, turn.key.threadId = threadId →
        Repaired (Ledger.Operation.failsAt turn) (Ledger.Operation.repairsTo turn) operations) ∧
    (∀ scope threadId, (run operations).threadStateIn scope threadId = .saved →
      .writerUnavailable ∉ operations ∧ (run operations).overflowed = false ∧
      ∀ turn : TurnAuthority, turn.key.threadId = threadId →
        turn.scope = scope ∨ turn.scope.rootKey = "" →
        Repaired (Ledger.Operation.failsAt turn) (Ledger.Operation.repairsTo turn) operations) ∧
    ∀ operation ∈ operations, ∀ turn failure since, operation.failure = some (turn, failure, since) →
      failure = .answerLost ∨ since = neverReconciled →
      (run operations).threadState turn.key.threadId = .degraded := by
  have hrec := run_recorded h
  have hrepaired {held : TurnAuthority → Bool} (hsaved : stateOf ((run operations).isDegradedEverywhere ||
      (run operations).unresolved.keys.any held) = .saved) :
      .writerUnavailable ∉ operations ∧ (run operations).overflowed = false ∧ ∀ turn, held turn →
        Repaired (Ledger.Operation.failsAt turn) (Ledger.Operation.repairsTo turn) operations := by
    obtain ⟨hall, hany⟩ := (Bool.or_eq_false_iff).1 (stateOf_eq_saved.1 hsaved)
    obtain ⟨hwriter, hover⟩ := (Bool.or_eq_false_iff).1 hall
    refine ⟨hrec.writer hwriter, hover, fun turn hheld => ?_⟩
    have hacc := hrec.accounted hover turn
    rw [get?_eq_none_iff.2 fun hmem => List.any_eq_false.1 hany turn hmem hheld] at hacc
    exact hacc
  have hstate threadId (hsaved : (run operations).threadState threadId = .saved) :=
    (hrepaired hsaved).imp_right fun hrest =>
      hrest.imp_right fun hrepaired (turn : TurnAuthority) (hthread : turn.key.threadId = threadId) =>
        hrepaired turn (decide_eq_true hthread)
  refine ⟨hstate, fun scope threadId hsaved => ?_, fun operation hmem turn failure since hfail hpermanent => ?_⟩
  · refine (hrepaired hsaved).imp_right fun hrest => hrest.imp_right fun hrepaired turn hthread hscope => ?_
    refine hrepaired turn ?_
    rw [Bool.and_eq_true, Bool.or_eq_true, decide_eq_true_iff, decide_eq_true_iff, decide_eq_true_iff]
    exact ⟨hthread, hscope⟩
  · have hsince : since = neverReconciled := by
      rcases hpermanent with rfl | hsince
      · exact JournalLedger.answerLost_since hfail
      · exact hsince
    cases hthread : (run operations).threadState turn.key.threadId with
    | degraded => rfl
    | saved =>
      have hturn := (hstate turn.key.threadId hthread).2.2 turn rfl
      have hfails : operation.failsAt turn = some since := by
        rw [JournalLedger.failsAt_eq hfail turn, if_pos rfl]
      have hlt := hturn.fails_lt (fun other hother reached hrepairs =>
        JournalLedger.repairsTo_lt (h other hother) hrepairs) hmem hfails
      omega

/-- A failure at 7 that a clean snapshot at 7 repairs. -/
def failedTurn : TurnAuthority := ⟨⟨"/workspace", "agent-root:workspace"⟩, ⟨"thread", "turn-a"⟩, 1⟩

theorem saved_is_repaired_busy :
    let operations : List Ledger.Operation := [.writeFailed failedTurn ⟨.busy, "locked"⟩ 7,
      .snapshotApplied failedTurn {} ⟨7, [], [], []⟩]
    (run operations).threadState "thread" = .saved ∧ .writerUnavailable ∉ operations ∧
      (run operations).overflowed = false ∧
      Repaired (Ledger.Operation.failsAt failedTurn) (Ledger.Operation.repairsTo failedTurn) operations := by
  have hsaved : (run [.writeFailed failedTurn ⟨.busy, "locked"⟩ 7,
      .snapshotApplied failedTurn {} ⟨7, [], [], []⟩]).threadState "thread" = .saved := by decide
  have hnum : ∀ operation ∈ [Ledger.Operation.writeFailed failedTurn ⟨.busy, "locked"⟩ 7,
      .snapshotApplied failedTurn {} ⟨7, [], [], []⟩], operation.Numbered := by
    simp [Ledger.Operation.Numbered, neverReconciled]
  obtain ⟨hwriter, hover, hrepaired⟩ := (saved_is_repaired hnum).1 "thread" hsaved
  exact ⟨hsaved, hwriter, hover, hrepaired failedTurn rfl⟩

/-- A clean snapshot at the largest `u64` clears even a lost answer. -/
theorem lost_answer_cleared :
    let operations : List Ledger.Operation := [.snapshotApplied failedTurn { lostAnswers := 1 } ⟨4, [], [], []⟩,
      .snapshotApplied failedTurn {} ⟨18446744073709551615, [], [], []⟩]
    (∃ operation ∈ operations, operation.failure = some (failedTurn, .answerLost, neverReconciled)) ∧
      (run operations).threadState "thread" = .saved := by
  decide +kernel

end CodevoEditor.RuntimeRequests
