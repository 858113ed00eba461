/-
# The tasks of a whole run

Whatever lines come, the books of the tasks stay sound, and no background run wakes up twice.
-/

import CodevoEditor.ClaudeSession.DetectorSteps
import CodevoEditor.Runs.Labelled
import Mathlib.Data.Finset.Sort
import Mathlib.Data.String.Basic

namespace CodevoEditor.ClaudeSession

open Js Runs

variable {ν φ : Type}

/-- What is asked of a detector.  The lines of `feed` come byte by byte, and the input side
may leave any ledger. -/
inductive DetectorCall (ν : Type)
  | rearm (lifecycle : Option ClaudeInputLifecycle)
  | suspendDrainSettlement
  | resumeDrainSettlement
  | trackMessage (message : Json ν)
  | observeCommand (message : Json ν)
  | commandFinished
  | settleInterrupted
  | settleFinishedForeground
  | settleIfReady
  | consumeMessage (message : Json ν)
  | expireLevelEnded (message : Json ν)
  | feedByte (byte : UInt8)
  | inputSide (lifecycle : Option ClaudeInputLifecycle)

namespace DetectorCall

def apply (env : Platform ν φ) (detector : ResultLineDetector) : DetectorCall ν → ResultLineDetector
  | rearm lifecycle => detector.rearm lifecycle
  | suspendDrainSettlement => detector.suspendDrainSettlement
  | resumeDrainSettlement => detector.resumeDrainSettlement
  | trackMessage message => (detector.trackMessage env message).1
  | observeCommand message => (detector.observeCommand message).1
  | commandFinished => detector.commandFinished
  | settleInterrupted => detector.settleInterrupted.1
  | settleFinishedForeground => detector.settleFinishedForeground.1
  | settleIfReady => detector.settleIfReady.1
  | consumeMessage message => (detector.consumeMessage env message).1
  | expireLevelEnded message => (detector.expireLevelEnded env message).1
  | feedByte byte => (detector.feedByte env byte).1
  | inputSide lifecycle => { detector with lifecycle := lifecycle }

/-- The line that is read. -/
def line (env : Platform ν φ) (detector : ResultLineDetector) : DetectorCall ν → Option (Json ν)
  | trackMessage message => some message
  | consumeMessage message => some message
  | expireLevelEnded message => some message
  | feedByte byte =>
    if byte = newline ∧ detector.skippingLine = false then env.fromSlice detector.line else none
  | _ => none

end DetectorCall

/-- One call, with the detector before it and after it. -/
structure Observed (ν : Type) where
  before : ResultLineDetector
  line : Option (Json ν)
  after : ResultLineDetector

variable (env : Platform ν φ)

def DetectorCall.observed (detector : ResultLineDetector) (call : DetectorCall ν) : Observed ν :=
  ⟨detector, call.line env detector, call.apply env detector⟩

def DetectorStep (detector : ResultLineDetector) (events : List (Observed ν)) (next : ResultLineDetector) : Prop :=
  ∃ call : DetectorCall ν, events = [call.observed env detector] ∧ next = call.apply env detector

/-- The run of some calls. -/
def observedRun (env : Platform ν φ) (detector : ResultLineDetector) :
    List (DetectorCall ν) → List (Observed ν)
  | [] => []
  | call :: calls => call.observed env detector :: observedRun env (call.apply env detector) calls

def afterCalls (detector : ResultLineDetector) (calls : List (DetectorCall ν)) : ResultLineDetector :=
  calls.foldl (DetectorCall.apply env) detector

variable (env : Platform ν φ)

lemma reaches_observedRun (detector)
    (calls) :
    Reaches (DetectorStep env) detector (observedRun env detector calls) (afterCalls env detector calls) := by
  induction calls generalizing detector with
  | nil => exact .refl _
  | cons call calls ih => exact .next ⟨call, rfl, rfl⟩ (ih (call.apply env detector))

namespace Observed

/-- A task becomes live. -/
def starts (task : String) (observed : Observed ν) : Bool :=
  !observed.before.live.has task && observed.after.live.has task

/-- The line of a task wakes up. -/
def wakes (task : String) (observed : Observed ν) : Bool :=
  observed.after.wakeUps ≠ observed.before.wakeUps && observed.line.bind (Json.strOf "task_id") = some task

/-- **What a call does to the tasks.** -/
structure Booked (observed : Observed ν) : Prop where
  sound : observed.after.books.Sound
  wakes : observed.after.wakeUps = observed.before.wakeUps ∨
    ∃ message, observed.line = some message ∧
      ResultLineDetector.WakesAtMostOnce message observed.before observed.after
  revived : ∀ task ∈ observed.before.terminal.keys, task ∈ observed.after.live.keys →
    ∃ message facts, observed.line = some message ∧
      observed.before.terminal.get? task = some (.finished facts) ∧
      (ResultLineDetector.Restarts message task ∨ ResultLineDetector.Resumes message task facts)

variable {observed : Observed ν}

lemma Booked.of_moved {message} (hline : observed.line = some message)
    (h : ResultLineDetector.Moved message observed.before observed.after) : observed.Booked where
  sound := h.sound
  wakes := .inr ⟨message, hline, h.wakes⟩
  revived := fun task hterm hlive => by
    obtain ⟨facts, hfacts, hagain⟩ := h.revived task hterm hlive
    exact ⟨message, facts, hline, hfacts, hagain⟩

lemma Booked.of_same (hpre : observed.before.books.Sound)
    (haft : observed.after.books.Sound) (hlive : observed.after.live = observed.before.live)
    (hwakes : observed.after.wakeUps = observed.before.wakeUps) : observed.Booked where
  sound := haft
  wakes := .inl hwakes
  revived := fun task hterm hmem => by
    rw [hlive] at hmem
    exact absurd hterm (hpre.disjoint task hmem)

lemma Booked.of_quiet (hpre : observed.before.books.Sound)
    (h : ResultLineDetector.Quiet observed.before observed.after) : observed.Booked :=
  .of_same hpre (by rw [h.books_eq]; exact hpre) h.live_eq h.wakeUps_eq

end Observed

open ResultLineDetector in
theorem booked_of_call {detector}
    (hsound : detector.books.Sound) (call : DetectorCall ν) : (call.observed env detector).Booked := by
  cases call with
  | rearm lifecycle =>
    exact .of_same hsound (hsound.inherit fun task htask => List.mem_toFinset.1 htask) rfl rfl
  | suspendDrainSettlement => exact .of_quiet hsound ⟨rfl, rfl⟩
  | resumeDrainSettlement => exact .of_quiet hsound ⟨rfl, rfl⟩
  | trackMessage message => exact .of_moved rfl (moved_trackMessage env hsound message)
  | observeCommand message => exact .of_quiet hsound (quiet_observeCommand detector message)
  | commandFinished => exact .of_quiet hsound (quiet_commandFinished detector)
  | settleInterrupted => exact .of_quiet hsound (quiet_settleInterrupted detector)
  | settleFinishedForeground => exact .of_quiet hsound (quiet_settleFinishedForeground detector)
  | settleIfReady => exact .of_quiet hsound (quiet_settleIfReady detector)
  | consumeMessage message => exact .of_moved rfl (moved_consumeMessage env hsound message)
  | expireLevelEnded message =>
    exact .of_moved rfl ((narrows_expireLevelEnded env message hsound).moved hsound message)
  | feedByte byte =>
    rcases feedByte_spec env hsound byte with hqt | ⟨message, hnewline, hskip, hparse, hmov⟩
    · exact .of_quiet hsound hqt
    · exact .of_moved ((if_pos ⟨hnewline, hskip⟩).trans hparse) hmov
  | inputSide lifecycle => exact .of_quiet hsound ⟨rfl, rfl⟩

/-- **The wake-ups of a task are at most its starts**, and one less while it is live. -/
theorem wakes_le_starts {trace : List (Observed ν)} {observed : Observed ν} {task : String}
    (hbooked : observed.Booked)
    (h : trace.countP (Observed.wakes task) + (observed.before.live.has task).toNat ≤
      trace.countP (Observed.starts task)) :
    (trace ++ [observed]).countP (Observed.wakes task) + (observed.after.live.has task).toNat ≤
      (trace ++ [observed]).countP (Observed.starts task) := by
  rw [List.countP_append, List.countP_append, List.countP_singleton, List.countP_singleton]
  by_cases hwakes : observed.wakes task
  · -- The line has ended the one live run that it wakes up for.
    have hends : observed.before.live.has task ∧ observed.after.live.has task = false := by
      unfold Observed.wakes at hwakes
      rw [Bool.and_eq_true, decide_eq_true_eq, decide_eq_true_eq] at hwakes
      rcases hbooked.wakes with heq | ⟨message, hline, heq | ⟨other, run, hoth, hrun, -, hgone, -⟩⟩
      · exact absurd heq hwakes.1
      · exact absurd heq hwakes.1
      · rw [hline, Option.bind_some, hoth] at hwakes
        obtain rfl := Option.some.inj hwakes.2
        rw [OrderedMap.has_eq, OrderedMap.has_eq, hrun, hgone]
        exact ⟨rfl, rfl⟩
    rw [hends.1] at h
    rw [if_pos hwakes, hends.2]
    have hle := Nat.le_add_right (trace.countP (Observed.starts task)) (if observed.starts task then 1 else 0)
    change _ + 1 ≤ _ at h
    change _ + 1 + 0 ≤ _
    omega
  · have hstarts : observed.starts task =
        (!observed.before.live.has task && observed.after.live.has task) := rfl
    rw [if_neg hwakes, hstarts]
    generalize observed.before.live.has task = before at h ⊢
    generalize observed.after.live.has task = after
    cases before <;> cases after <;>
      simp only [Bool.toNat_false, Bool.toNat_true, Bool.not_false, Bool.not_true, Bool.true_and,
        Bool.false_and, Bool.false_eq_true, if_true, if_false] at h ⊢ <;> omega

/-- **The books of every run are sound**, and no more wake-ups come for a task than runs of it
start. -/
theorem tasks_are_booked (policy : ResultSettlePolicy)
    (calls : List (DetectorCall ν)) :
    (afterCalls env (.new policy) calls).books.Sound ∧
      (∀ observed ∈ observedRun env (.new policy) calls, observed.Booked) ∧
      ∀ task, (observedRun env (.new policy) calls).countP (Observed.wakes task) ≤
        (observedRun env (.new policy) calls).countP (Observed.starts task) := by
  have hrun := (reaches_observedRun env (.new policy) calls).trace
    (P := fun trace detector => detector.books.Sound ∧ (∀ observed ∈ trace, observed.Booked) ∧
      ∀ task, trace.countP (Observed.wakes task) + (detector.live.has task).toNat ≤
        trace.countP (Observed.starts task))
    ?_ ⟨TaskBooks.Sound.empty, fun _ h => absurd h List.not_mem_nil, fun _ => le_rfl⟩
  · exact ⟨hrun.1, hrun.2.1, fun task => (Nat.le_add_right _ _).trans (hrun.2.2 task)⟩
  · rintro trace detector events next ⟨hsound, hbooked, hcount⟩ ⟨call, rfl, rfl⟩
    have hcall := booked_of_call env hsound call
    refine ⟨hcall.sound, ?_, fun task => wakes_le_starts hcall (hcount task)⟩
    rw [List.forall_mem_append]
    exact ⟨hbooked, fun observed hmem => List.mem_singleton.1 hmem ▸ hcall⟩

/-- A platform whose numbers are natural numbers and that reads no bytes. -/
def barePlatform : Platform ℕ ℕ where
  fromSlice := fun _ => none
  toVec := fun _ => none
  asU64 := some
  asF64 := some
  ofF64 := .number
  zero := 0
  sub := fun total baseline => total - baseline
  max := max
  le := fun least greatest => decide (least ≤ greatest)
  isFinite := fun _ => true
  minusCostTolerance := 0
  listed := fun keys => keys.sort (· ≤ ·)
  listed_nodup := fun keys => Finset.sort_nodup keys _
  mem_listed := fun _ _ => Finset.mem_sort _

def taskLine (subtype : String) (fields : List (String × Json ℕ)) : Json ℕ :=
  .object ([("type", .string "system"), ("subtype", .string subtype), ("task_id", .string "agent")] ++
    fields)

/-- A task that is started, is said to have completed and is started again. -/
def startedAgain : List (DetectorCall ℕ) :=
  [.trackMessage (taskLine "task_started" []),
    .trackMessage (taskLine "task_notification" [("status", .string "completed")]),
    .trackMessage (taskLine "task_started" [])]

/-- A start line brings back a task that has finished. -/
theorem start_line_brings_back :
    ¬ ∀ calls, ∀ observed ∈ observedRun barePlatform (.new .awaitBackgroundWork) calls,
      ∀ task ∈ observed.before.terminal.keys, ∀ message, observed.line = some message →
        message.strOf "subtype" = some "task_started" → task ∉ observed.after.live.keys := by
  intro h
  have hlast : (DetectorCall.trackMessage (taskLine "task_started" [])).observed barePlatform
      (afterCalls barePlatform (.new .awaitBackgroundWork) (startedAgain.take 2)) ∈
        observedRun barePlatform (.new .awaitBackgroundWork) startedAgain :=
    .tail _ (.tail _ (.head _))
  refine h startedAgain _ hlast "agent" ?_ _ rfl rfl ?_
  · decide
  · decide

end CodevoEditor.ClaudeSession
