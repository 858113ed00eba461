/-
# Turns given up by the projection

`src-tauri/src/agent_runtime_requests/abandonment.rs`: which turns were shown as ended although
their rows are still open.

A `HashMap` is an `OrderedMap`; the order in which a rotation drains the pending turns is any
order of them (`Operation.Allowed`). `Instant`s and `u64`s are natural numbers. `noted`,
`pending`, `reconciled` and `unreconciled` only read and are left out.
-/

import CodevoEditor.RuntimeRequests.Model
import CodevoEditor.Js.OrderedMap
import CodevoEditor.Runs.Labelled
import Mathlib.Data.Finset.Card
import Mathlib.Order.Nat

namespace CodevoEditor.RuntimeRequests

open Js OrderedMap Finset

def maxAbandonedTurns : ℕ := 1024
def maxReconciledTurns : ℕ := 4096
def maxUnreconciledTurns : ℕ := 4096
def epochRotationInterval : ℕ := 30000
def abandonmentGrace : ℕ := 5000

structure RotationPolicy where
  interval : ℕ
  grace : ℕ
  reconciled : ℕ

instance : Inhabited RotationPolicy :=
  ⟨epochRotationInterval, abandonmentGrace, maxReconciledTurns⟩

structure Need where
  since : ℕ
  revision : ℕ

structure Needs where
  turns : OrderedMap TurnAuthority Need
  overflowedSince : Option ℕ
  requestedSince : Option ℕ
  lastRotation : Option ℕ
  reconciled : OrderedMap TurnAuthority ℕ
  reconciledOrder : List TurnAuthority
  memoryOverflowed : Bool
  unreconciled : OrderedMap (HistoryScope × String) (Finset TurnAuthority)
  unreconciledTurns : ℕ
  unreconciledEverywhere : Bool

namespace Needs

def start : Needs where
  turns := .empty
  overflowedSince := none
  requestedSince := none
  lastRotation := none
  reconciled := .empty
  reconciledOrder := []
  memoryOverflowed := false
  unreconciled := .empty
  unreconciledTurns := 0
  unreconciledEverywhere := false

def oldest (needs : Needs) : Option ℕ :=
  (needs.turns.values.map Need.since ++ needs.overflowedSince.toList ++ needs.requestedSince.toList).min?

/-- A turn is new to the reconciled ones when nothing, or revision 0, is known of it. -/
def reconcile (needs : Needs) (turn : TurnAuthority) (revision : ℕ) : Needs :=
  let known := (needs.reconciled.get? turn).getD 0
  { needs with
    reconciled := needs.reconciled.set turn (max known revision)
    reconciledOrder :=
      if known = 0 then needs.reconciledOrder ++ [turn] else needs.reconciledOrder }

def giveUp (needs : Needs) (turn : TurnAuthority) : Needs :=
  let turns := (needs.unreconciled.get? turn.thread).getD ∅
  if needs.unreconciledEverywhere then needs
  else if turn ∈ turns then needs
  else if needs.unreconciledTurns + 1 ≤ maxUnreconciledTurns then
    { needs with
      unreconciled := needs.unreconciled.set turn.thread (insert turn turns)
      unreconciledTurns := needs.unreconciledTurns + 1 }
  else
    { needs with
      unreconciled := .empty
      unreconciledTurns := 0
      unreconciledEverywhere := true }

def forgetUnreconciled (needs : Needs) (turn : TurnAuthority) : Needs :=
  let turns := (needs.unreconciled.get? turn.thread).getD ∅
  if turn ∈ turns then
    { needs with
      unreconciledTurns := needs.unreconciledTurns - 1
      unreconciled :=
        if turns.erase turn = ∅ then needs.unreconciled.delete turn.thread
        else needs.unreconciled.set turn.thread (turns.erase turn) }
  else needs

def note (needs : Needs) (turn : TurnAuthority) (revision now : ℕ) : Needs :=
  let reconciled := needs.reconciled.get? turn
  if reconciled.any (revision ≤ ·) then needs
  else if needs.memoryOverflowed && reconciled.isNone then needs.giveUp turn
  else match needs.turns.get? turn with
    | some need =>
      { needs with
        turns := needs.turns.set turn { need with revision := max need.revision revision } }
    | none =>
      if maxAbandonedTurns ≤ needs.turns.size then
        { needs with overflowedSince := needs.overflowedSince.or (some now) }
      else { needs with turns := needs.turns.set turn ⟨now, revision⟩ }

def request (needs : Needs) (now : ℕ) : Needs :=
  { needs with requestedSince := needs.requestedSince.or (some now) }

def settle (needs : Needs) (turn : TurnAuthority) : Needs :=
  let needs := { needs with turns := needs.turns.delete turn }.forgetUnreconciled turn
  if (needs.reconciled.get? turn).isSome then
    { needs with
      reconciled := needs.reconciled.delete turn
      reconciledOrder := needs.reconciledOrder.filter (· ≠ turn) }
  else needs

def lostHistory (needs : Needs) (scope : HistoryScope) (threadId : String) : Bool :=
  needs.unreconciledEverywhere || needs.unreconciled.has (scope, threadId)

def dueAt (needs : Needs) (policy : RotationPolicy) : Option ℕ :=
  needs.oldest.map fun oldest =>
    let ripe := oldest + policy.grace
    max ripe ((needs.lastRotation.map (· + policy.interval)).getD ripe)

def forgetOldest (needs : Needs) (oldest : TurnAuthority) (order : List TurnAuthority) : Needs :=
  { needs with
    reconciledOrder := order
    reconciled := needs.reconciled.delete oldest
    memoryOverflowed := true }.giveUp oldest

/-- `order` is what the reconciled turns are in; the oldest go until `limit` are left. -/
def forgetBeyond (limit : ℕ) : List TurnAuthority → Needs → Needs
  | [], needs => needs
  | oldest :: order, needs =>
    if limit < (oldest :: order).length then forgetBeyond limit order (needs.forgetOldest oldest order)
    else needs

/-- `drained` is what is pending, in the order in which it is drained. -/
def rotated (needs : Needs) (drained : List (TurnAuthority × Need)) (now : ℕ) (policy : RotationPolicy) : Needs :=
  let needs := drained.foldl (fun needs entry => needs.reconcile entry.1 entry.2.revision)
    { needs with turns := .empty }
  let needs := { needs with overflowedSince := none, requestedSince := none, lastRotation := some now }
  forgetBeyond policy.reconciled needs.reconciledOrder needs

end Needs

inductive Operation
  | note (turn : TurnAuthority) (revision now : ℕ)
  | request (now : ℕ)
  | settle (turn : TurnAuthority)
  | rotated (drained : List (TurnAuthority × Need)) (now : ℕ) (policy : RotationPolicy)

namespace Operation

def apply (needs : Needs) : Operation → Needs
  | note turn revision now => needs.note turn revision now
  | request now => needs.request now
  | settle turn => needs.settle turn
  | rotated drained now policy => needs.rotated drained now policy

/-- A rotation drains what is pending, in any order. -/
def Allowed (needs : Needs) : Operation → Prop
  | rotated drained _ _ => drained.Perm needs.turns.entries
  | note .. | request _ | settle _ => True

def isRotation : Operation → Bool
  | rotated .. => true
  | note .. | request _ | settle _ => false

end Operation

inductive Tracks : Needs → List Operation → Needs → Prop
  | op (needs : Needs) (operation : Operation) (allowed : operation.Allowed needs) :
      Tracks needs [operation] (operation.apply needs)

namespace Needs

variable {needs : Needs} {turn other : TurnAuthority}

lemma giveUp_frame (needs : Needs) (turn) :
    ∃ unreconciled count everywhere, needs.giveUp turn =
      { needs with
        unreconciled := unreconciled
        unreconciledTurns := count
        unreconciledEverywhere := everywhere } := by
  unfold giveUp
  dsimp only
  split_ifs
  · exact ⟨_, _, _, rfl⟩
  · exact ⟨_, _, _, rfl⟩
  · exact ⟨_, _, needs.unreconciledEverywhere, rfl⟩
  · exact ⟨_, _, _, rfl⟩

lemma forgetUnreconciled_frame (needs : Needs) (turn) :
    ∃ unreconciled count, needs.forgetUnreconciled turn =
      { needs with unreconciled := unreconciled, unreconciledTurns := count } := by
  unfold forgetUnreconciled
  dsimp only
  split_ifs <;> exact ⟨_, _, rfl⟩

section
variable (needs : Needs) (turn : TurnAuthority)

@[simp] lemma giveUp_turns : (needs.giveUp turn).turns = needs.turns := by
  obtain ⟨_, _, _, h⟩ := giveUp_frame needs turn
  rw [h]

@[simp] lemma giveUp_reconciled : (needs.giveUp turn).reconciled = needs.reconciled := by
  obtain ⟨_, _, _, h⟩ := giveUp_frame needs turn
  rw [h]

@[simp] lemma giveUp_reconciledOrder : (needs.giveUp turn).reconciledOrder = needs.reconciledOrder := by
  obtain ⟨_, _, _, h⟩ := giveUp_frame needs turn
  rw [h]

@[simp] lemma giveUp_memoryOverflowed : (needs.giveUp turn).memoryOverflowed = needs.memoryOverflowed := by
  obtain ⟨_, _, _, h⟩ := giveUp_frame needs turn
  rw [h]

@[simp] lemma giveUp_overflowedSince : (needs.giveUp turn).overflowedSince = needs.overflowedSince := by
  obtain ⟨_, _, _, h⟩ := giveUp_frame needs turn
  rw [h]

@[simp] lemma giveUp_requestedSince : (needs.giveUp turn).requestedSince = needs.requestedSince := by
  obtain ⟨_, _, _, h⟩ := giveUp_frame needs turn
  rw [h]

@[simp] lemma giveUp_lastRotation : (needs.giveUp turn).lastRotation = needs.lastRotation := by
  obtain ⟨_, _, _, h⟩ := giveUp_frame needs turn
  rw [h]

end

/-- The turn, or every turn, has been given up. -/
def Lost (needs : Needs) (turn : TurnAuthority) : Prop :=
  needs.unreconciledEverywhere ∨ turn ∈ (needs.unreconciled.get? turn.thread).getD ∅

lemma exists_of_mem_unreconciled
    (h : turn ∈ (needs.unreconciled.get? turn.thread).getD ∅) :
    ∃ turns, needs.unreconciled.get? turn.thread = some turns ∧ turn ∈ turns := by
  cases hget : needs.unreconciled.get? turn.thread with
  | none =>
    rw [hget] at h
    exact absurd h (notMem_empty _)
  | some turns =>
    rw [hget] at h
    exact ⟨turns, rfl, h⟩

lemma Lost.lostHistory (h : needs.Lost turn) : needs.lostHistory turn.scope turn.key.threadId := by
  unfold Needs.lostHistory
  rw [has_eq, Bool.or_eq_true]
  refine h.imp id fun h => ?_
  obtain ⟨turns, hget, -⟩ := exists_of_mem_unreconciled h
  exact Option.isSome_iff_exists.2 ⟨turns, hget⟩

lemma lost_giveUp (needs : Needs) (turn) : (needs.giveUp turn).Lost turn := by
  unfold giveUp Lost
  dsimp only
  split_ifs with hall hmem
  · exact .inl hall
  · exact .inr hmem
  · refine .inr ?_
    rw [get?_set, if_pos rfl]
    exact mem_insert_self _ _
  · exact .inl rfl

lemma Lost.giveUp (h : needs.Lost turn) (other) : (needs.giveUp other).Lost turn := by
  unfold Needs.giveUp Lost
  dsimp only
  split_ifs with hall hmem
  · exact .inl hall
  · exact h
  · refine h.imp id fun h => ?_
    rw [get?_set]
    split_ifs with hthr
    · exact mem_insert_of_mem (hthr ▸ h)
    · exact h
  · exact .inl rfl

lemma Lost.forgetUnreconciled (h : needs.Lost turn) (hne : turn ≠ other) :
    (needs.forgetUnreconciled other).Lost turn := by
  unfold Needs.forgetUnreconciled Lost
  dsimp only
  split_ifs with hmem hemp
  · refine h.imp id fun h => ?_
    rw [get?_delete]
    split_ifs with hthr
    · -- the turn is still in its thread, so its thread is not empty
      have hleft := mem_erase.2 ⟨hne, hthr ▸ h⟩
      rw [hemp] at hleft
      exact absurd hleft (notMem_empty _)
    · exact h
  · refine h.imp id fun h => ?_
    rw [get?_set]
    split_ifs with hthr
    · exact mem_erase.2 ⟨hne, hthr ▸ h⟩
    · exact h
  · exact h

/-- **The turns given up are counted.** -/
def Counted (needs : Needs) : Prop := needs.unreconciledTurns = needs.unreconciled.total Finset.card

lemma Counted.giveUp (h : needs.Counted) (turn) : (needs.giveUp turn).Counted := by
  unfold Needs.giveUp Counted
  dsimp only
  split_ifs with hall hmem hroom
  · exact h
  · exact h
  · change needs.unreconciledTurns + 1 = (needs.unreconciled.set _ _).total _
    rw [total_set, card_insert_of_notMem hmem, h]
    cases hget : needs.unreconciled.get? turn.thread with
    | none =>
      rw [delete_of_get?_none hget, Option.getD_none, card_empty]
      omega
    | some turns =>
      rw [total_of_get? Finset.card hget, Option.getD_some]
      omega
  · exact (total_empty _).symm

lemma Counted.forgetUnreconciled (h : needs.Counted) (turn) : (needs.forgetUnreconciled turn).Counted := by
  unfold Counted at h
  unfold Needs.forgetUnreconciled Counted
  by_cases hmem : turn ∈ (needs.unreconciled.get? turn.thread).getD ∅
  · obtain ⟨turns, hget, hturn⟩ := exists_of_mem_unreconciled hmem
    have htot := total_of_get? Finset.card hget
    have hcard := card_erase_add_one hturn
    rw [if_pos hmem, hget, Option.getD_some]
    change needs.unreconciledTurns - 1 = OrderedMap.total _ (if _ then _ else _)
    split_ifs with hemp
    · rw [hemp, card_empty] at hcard
      omega
    · rw [total_set]
      omega
  · rw [if_neg hmem]
    exact h

end Needs

end CodevoEditor.RuntimeRequests
