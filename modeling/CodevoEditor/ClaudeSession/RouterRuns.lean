/-
# Turns settle once

Between two attachments at most one step reports a settlement, and what comes later is no output of
the turn.
-/

import CodevoEditor.ClaudeSession.RouterSteps
import CodevoEditor.ClaudeSession.DetectorRuns

namespace CodevoEditor.ClaudeSession

open Runs List

variable {ν φ : Type}

namespace Router

/-- **What a piece of a chunk may do.** -/
structure Absorbs (router : Router φ) (routed : Router φ × RouterStep) : Prop where
  detached : router.attached = none → routed.1.attached = none ∧ routed.2.settled = false
  quiet : router.attached = none → router.mode ≠ .streaming → routed.2.turnOutput = [] ∧ routed.1.mode ≠ .streaming
  settles : routed.2.settled → routed.1.attached = none ∧ routed.1.mode ≠ .streaming
  outcome : routed.2.OutcomeOk

lemma Absorbs.refl (router : Router φ) : Absorbs router (router, .default) where
  detached := fun h => ⟨h, rfl⟩
  quiet := fun _ h => ⟨rfl, h⟩
  settles := nofun
  outcome := .default

variable {routed : Router φ × RouterStep}

lemma Absorbs.merge {router} {later}
    (h : Absorbs router routed) (h' : Absorbs routed.1 later) :
    Absorbs router (later.1, routed.2.merge later.2) where
  detached := fun hnone => by
    obtain ⟨hatt, hstl⟩ := h.detached hnone
    obtain ⟨hatt', hsettled'⟩ := h'.detached hatt
    refine ⟨hatt', ?_⟩
    unfold RouterStep.merge
    rw [hstl, hsettled']
    rfl
  quiet := fun hnone hmode => by
    obtain ⟨houtput, hmode⟩ := h.quiet hnone hmode
    obtain ⟨houtput', hmode'⟩ := h'.quiet (h.detached hnone).1 hmode
    refine ⟨?_, hmode'⟩
    unfold RouterStep.merge
    rw [houtput, houtput', append_nil]
  settles := fun hstl => by
    rcases Bool.or_eq_true_iff.1 hstl with hfst | hsnd
    · obtain ⟨hatt, hmode⟩ := h.settles hfst
      exact ⟨(h'.detached hatt).1, (h'.quiet hatt hmode).2⟩
    · exact h'.settles hsnd
  outcome := h.outcome.merge h'.outcome

variable {next : Router φ}

lemma Routes.absorbs {router} (h : Routes next routed)
    (hatt : next.attached = router.attached) (hmode : next.mode = .buffering) :
    Absorbs router routed where
  detached := fun hnone => by
    rw [← hatt] at hnone
    exact ⟨h.detached hnone, (h.silent hnone).2⟩
  quiet := fun hnone _ => by
    rw [← hatt] at hnone
    refine ⟨(h.silent hnone).1, ?_⟩
    rw [h.mode_eq, hmode]
    decide
  settles := fun hstl => by
    refine ⟨h.settles hstl, ?_⟩
    rw [h.mode_eq, hmode]
    decide
  outcome := h.outcome

lemma absorbs_of_report {router} {step}
    (hatt : next.attached = router.attached)
    (hqt : router.attached = none → router.mode ≠ .streaming → step.turnOutput = [] ∧ next.mode ≠ .streaming)
    (hstl : step.settled = false) (hintr : step.interrupted = false)
    (hcancel : step.cancelled = false) (hfailed : step.resultFailed = false) :
    Absorbs router (next, step) where
  detached := fun hnone => ⟨hatt.trans hnone, hstl⟩
  quiet := hqt
  settles := fun h => by
    rw [hstl] at h
    cases h
  outcome := by
    refine ⟨fun h => ?_, fun h => ?_, fun h => ?_⟩
    · rw [hintr] at h
      cases h
    · rw [hcancel] at h
      cases h
    · rw [hfailed] at h
      cases h

section Pieces

variable (env : Platform ν φ)

lemma absorbs_overflow (router : Router φ) (complete : Bool) :
    Absorbs router (router.overflow complete .default) := by
  have hmode : (if complete then LineMode.buffering else .skipping) ≠ .streaming := by
    cases complete <;> decide
  unfold overflow
  by_cases hcand : lifecycleCandidate router.line
  · rw [if_pos hcand]
    exact absorbs_of_report rfl (fun _ _ => ⟨rfl, hmode⟩) rfl rfl rfl rfl
  rw [if_neg hcand]
  by_cases hown : owned { router with
      line := [], mode := if complete then LineMode.buffering else .skipping }
  · rw [if_pos hown]
    exact absorbs_of_report rfl (fun hnone _ => absurd hnone (attached_of_owned hown)) rfl rfl rfl rfl
  rw [if_neg hown]
  split
  · exact absorbs_of_report rfl (fun _ _ => ⟨rfl, hmode⟩) rfl rfl rfl rfl
  · exact absorbs_of_report rfl (fun _ _ => ⟨rfl, hmode⟩) rfl rfl rfl rfl

lemma absorbs_absorb (router : Router φ) (piece : List UInt8) (complete : Bool) :
    Absorbs router (router.absorb env piece complete .default) := by
  unfold absorb
  dsimp only
  split
  · rename_i hstr
    exact absorbs_of_report rfl (fun _ hmode => absurd hstr hmode) rfl rfl rfl rfl
  · rename_i hskip
    refine absorbs_of_report rfl (fun _ hmode => ⟨rfl, ?_⟩) rfl rfl rfl rfl
    cases complete
    · exact hmode
    · exact nofun
  · rename_i hbuff
    split_ifs with hlong hpartial
    · have h := absorbs_overflow { router with line := router.line ++ piece } complete
      exact ⟨h.detached, h.quiet, h.settles, h.outcome⟩
    · exact absorbs_of_report rfl (fun _ hmode => ⟨rfl, hmode⟩) rfl rfl rfl rfl
    · exact (routes_routeLine { router with line := [] } env _).absorbs rfl hbuff

variable (chunk : List (List UInt8))

theorem absorbs_feedPieces {router}
    (h : Absorbs router routed) :
    Absorbs router (feedPieces env chunk routed) := by
  induction chunk generalizing routed with
  | nil => exact h
  | cons piece chunk ih =>
    obtain ⟨next, step⟩ := routed
    unfold feedPieces
    split_ifs
    · exact h
    · rw [uniform_absorb next env piece _ step]
      exact ih (h.merge (absorbs_absorb env next piece _))

lemma turnOutput_feedPieces (hnone : routed.1.attached = none)
    (hmode : routed.1.mode ≠ .streaming) :
    (feedPieces env chunk routed).2.turnOutput = routed.2.turnOutput := by
  induction chunk generalizing routed with
  | nil => rfl
  | cons piece chunk ih =>
    obtain ⟨next, step⟩ := routed
    have habsorb := absorbs_absorb env next piece (piece.getLast? = some newline)
    obtain ⟨houtput, hmode'⟩ := habsorb.quiet hnone hmode
    have hrest later :
        (feedPieces env chunk ((next.absorb env piece (piece.getLast? = some newline) .default).1,
          later)).2.turnOutput = later.turnOutput :=
      ih (habsorb.detached hnone).1 hmode'
    unfold feedPieces
    split_ifs
    · rfl
    · rw [uniform_absorb next env piece _ step, hrest]
      unfold RouterStep.merge
      rw [houtput, append_nil]

lemma feedPieces_failed (h : routed.2.failure.isSome) : feedPieces env chunk routed = routed := by
  cases chunk with
  | nil => rfl
  | cons piece chunk =>
    exact if_pos h

lemma feedPieces_append (front back) (routed) :
    feedPieces env (front ++ back) routed = feedPieces env back (feedPieces env front routed) := by
  induction front generalizing routed with
  | nil => rfl
  | cons piece front ih =>
    obtain ⟨router, step⟩ := routed
    by_cases hfail : step.failure.isSome
    · have hfr : feedPieces env (piece :: front) (router, step) = (router, step) :=
        feedPieces_failed env _ hfail
      rw [hfr, feedPieces_failed env _ hfail, feedPieces_failed env back hfail]
    · have hcons rest : feedPieces env (piece :: rest) (router, step) =
          feedPieces env rest (router.absorb env piece (piece.getLast? = some newline) step) := by
        rw [feedPieces, if_neg hfail]
      rw [cons_append, hcons, hcons, ih]

end Pieces

lemma stays_backgroundChange (router : Router φ) (now : ℕ) : Stays router (router.backgroundChange now).1 := by
  have hrefresh : Stays router (router.refreshWakeUp now) := by
    unfold refreshWakeUp
    dsimp only
    split_ifs <;> exact ⟨rfl, rfl, id⟩
  refine hrefresh.trans ?_
  unfold backgroundChange
  dsimp only
  split_ifs <;> exact ⟨rfl, rfl, id⟩

theorem absorbs_feed (env : Platform ν φ) (router : Router φ) (now : ℕ) (chunk : List UInt8) :
    Absorbs router (router.feed env now chunk) := by
  have h := absorbs_feedPieces env (pieces chunk) (.refl router)
  have hstays := stays_backgroundChange (feedPieces env (pieces chunk) (router, .default)).1 now
  unfold feed
  refine ⟨fun hnone => ?_, fun hnone hmode => ?_, fun hstl => ?_, ?_⟩
  · exact ⟨hstays.detached (h.detached hnone).1, (h.detached hnone).2⟩
  · refine ⟨(h.quiet hnone hmode).1, ?_⟩
    rw [hstays.mode_eq]
    exact (h.quiet hnone hmode).2
  · refine ⟨hstays.detached (h.settles hstl).1, ?_⟩
    rw [hstays.mode_eq]
    exact (h.settles hstl).2
  · exact ⟨h.outcome.interrupted, h.outcome.cancelled, h.outcome.resultFailed⟩

end Router

/-- What is asked of a router.  The input side may leave any ledger for the turn. -/
inductive RouterCall
  | attach (lifecycle : ClaudeInputLifecycle)
  | detach
  | interruptSent (requestId : String)
  | withdrawInterrupt (requestId : String)
  | settleFinishedForeground
  | forgetReportedBackground
  | beginTaskStop (requestId : String)
  | takeTaskStopReply (requestId : String)
  | withdrawTaskStop (requestId : String)
  | inputSide (lifecycle : ClaudeInputLifecycle)
  | feed (now : ℕ) (chunk : List UInt8)

namespace RouterCall

def isAttach : RouterCall → Bool
  | attach _ => true
  | _ => false

def isFeed : RouterCall → Bool
  | feed _ _ => true
  | _ => false

/-- The router after a call, and what the call reports. -/
def run (env : Platform ν φ) (router : Router φ) : RouterCall → Router φ × RouterStep
  | attach lifecycle => (router.attach lifecycle, .default)
  | detach => (router.detach, .default)
  | interruptSent requestId => (router.interruptSent requestId, .default)
  | withdrawInterrupt requestId => (router.withdrawInterrupt requestId, .default)
  | settleFinishedForeground =>
    let settled := router.settleFinishedForeground
    (settled.1, settled.2.getD .default)
  | forgetReportedBackground => (router.forgetReportedBackground, .default)
  | beginTaskStop requestId =>
    ({ router with taskStops := (router.taskStops.begin requestId).1 }, .default)
  | takeTaskStopReply requestId =>
    ({ router with taskStops := (router.taskStops.take requestId).1 }, .default)
  | withdrawTaskStop requestId =>
    ({ router with taskStops := router.taskStops.withdraw requestId }, .default)
  | inputSide lifecycle =>
    let detector := { router.detector with lifecycle := router.detector.lifecycle.map fun _ => lifecycle }
    ({ router with detector := detector }, .default)
  | feed now chunk => router.feed env now chunk

end RouterCall

/-- A call, with the router before it and after it and what it reports. -/
structure Called (φ : Type) where
  before : Router φ
  call : RouterCall
  step : RouterStep
  after : Router φ

def RouterCall.called (env : Platform ν φ) (router : Router φ) (call : RouterCall) : Called φ :=
  ⟨router, call, (call.run env router).2, (call.run env router).1⟩

/-- The run of some calls. -/
def calledRun (env : Platform ν φ) (router : Router φ) : List RouterCall → List (Called φ)
  | [] => []
  | call :: calls => call.called env router :: calledRun env (call.run env router).1 calls

def afterRun (env : Platform ν φ) (router : Router φ) (calls : List RouterCall) : Router φ :=
  calls.foldl (fun router call => (call.run env router).1) router

variable {calls : List RouterCall}

lemma called_of_mem {env : Platform ν φ} {router : Router φ}
    {called} (h : called ∈ calledRun env router calls) :
    ∃ before call, called = RouterCall.called env before call := by
  induction calls generalizing router with
  | nil => cases h
  | cons call calls ih =>
    rcases mem_cons.1 h with rfl | hrest
    · exact ⟨router, call, rfl⟩
    · exact ih hrest

variable {back : List (Called φ)}

lemma calledRun_cons {env : Platform ν φ} {router : Router φ}
    {called} (h : called :: back = calledRun env router calls) :
    ∃ call rest, calls = call :: rest ∧ called = call.called env router ∧ back = calledRun env called.after rest := by
  cases calls with
  | nil => cases h
  | cons call calls =>
    obtain ⟨rfl, rfl⟩ := cons.inj h
    exact ⟨call, calls, rfl, rfl, rfl⟩

lemma calledRun_split (env : Platform ν φ) {router}
    {front} (h : calledRun env router calls = front ++ back) :
    ∃ before after, calls = before ++ after ∧ front = calledRun env router before ∧
      back = calledRun env (afterRun env router before) after := by
  induction front generalizing router calls with
  | nil => exact ⟨[], calls, rfl, rfl, h.symm⟩
  | cons event front ih =>
    cases calls with
    | nil => cases h
    | cons call calls =>
      obtain ⟨rfl, hrest⟩ := cons.inj h
      obtain ⟨before, after, rfl, rfl, rfl⟩ := ih hrest
      exact ⟨call :: before, after, rfl, rfl, rfl⟩

namespace Router

/-- **What a call may do that attaches no turn.** -/
theorem settles_run (env : Platform ν φ) (router : Router φ) {call : RouterCall}
    (hcall : call.isAttach = false) :
    (router.attached = none → (call.run env router).1.attached = none ∧ (call.run env router).2.settled = false) ∧
    (router.attached = none → router.mode ≠ .streaming →
      (call.run env router).2.turnOutput = [] ∧ (call.run env router).1.mode ≠ .streaming) := by
  have hqt {next : Router φ} (hstays : Stays router next) :
      (router.attached = none → next.attached = none ∧ RouterStep.default.settled = false) ∧
      (router.attached = none → router.mode ≠ .streaming →
        RouterStep.default.turnOutput = [] ∧ next.mode ≠ .streaming) := by
    refine ⟨fun hnone => ⟨hstays.detached hnone, rfl⟩, fun _ hmode => ⟨rfl, ?_⟩⟩
    rw [hstays.mode_eq]
    exact hmode
  have hmap {change : AttachedTurn → AttachedTurn} (hnone : router.attached = none) :
      router.attached.map change = none := by
    rw [hnone, Option.map_none]
  cases call with
  | attach lifecycle => cases hcall
  | detach => exact hqt ⟨rfl, rfl, fun _ => rfl⟩
  | interruptSent requestId => exact hqt ⟨rfl, rfl, hmap⟩
  | withdrawInterrupt requestId =>
    refine hqt ?_
    change Stays router (router.withdrawInterrupt requestId)
    unfold withdrawInterrupt
    split_ifs
    · exact .refl router
    · exact ⟨rfl, rfl, hmap⟩
  | settleFinishedForeground =>
    change (router.attached = none → router.settleFinishedForeground.1.attached = none ∧
      (router.settleFinishedForeground.2.getD .default).settled = false) ∧ (router.attached = none → _ →
      (router.settleFinishedForeground.2.getD .default).turnOutput = [] ∧
        router.settleFinishedForeground.1.mode ≠ .streaming)
    have hdet (hnone : router.attached = none) : router.settleFinishedForeground = (router, none) := by
      unfold settleFinishedForeground
      rw [hnone]
      rfl
    refine ⟨fun hnone => ?_, fun hnone hmode => ?_⟩
    · rw [hdet hnone]
      exact ⟨hnone, rfl⟩
    · rw [hdet hnone]
      exact ⟨rfl, hmode⟩
  | forgetReportedBackground => exact hqt ⟨rfl, rfl, id⟩
  | beginTaskStop requestId => exact hqt ⟨rfl, rfl, id⟩
  | takeTaskStopReply requestId => exact hqt ⟨rfl, rfl, id⟩
  | withdrawTaskStop requestId => exact hqt ⟨rfl, rfl, id⟩
  | inputSide lifecycle => exact hqt ⟨rfl, rfl, id⟩
  | feed now chunk =>
    have h := absorbs_feed env router now chunk
    exact ⟨h.detached, h.quiet⟩

/-- **A call that settles a turn detaches it**, and reports its outcome. -/
theorem outcome_run (env : Platform ν φ) (router : Router φ) (call : RouterCall) :
    ((call.run env router).2.settled → (call.run env router).1.attached = none) ∧
      (call.run env router).2.OutcomeOk := by
  have hqt {next : Router φ} : (RouterStep.default.settled → next.attached = none) ∧
      RouterStep.default.OutcomeOk := ⟨nofun, .default⟩
  cases call with
  | settleFinishedForeground =>
    change ((router.settleFinishedForeground.2.getD .default).settled →
      router.settleFinishedForeground.1.attached = none) ∧
      (router.settleFinishedForeground.2.getD .default).OutcomeOk
    unfold settleFinishedForeground
    dsimp only
    split_ifs
    · exact hqt
    · exact hqt
    · exact ⟨fun _ => rfl, ⟨nofun, nofun, fun _ => rfl⟩⟩
  | feed now chunk =>
    have h := absorbs_feed env router now chunk
    exact ⟨fun hstl => (h.settles hstl).1, h.outcome⟩
  | _ => exact hqt

end Router

section Settled

variable {env : Platform ν φ} {router : Router φ} {calls : List RouterCall}

/-- **Without an attachment, no turn is settled.** -/
theorem detached_calledRun (hnone : router.attached = none)
    (hattach : ∀ called ∈ calledRun env router calls, called.call.isAttach = false) :
    ∀ called ∈ calledRun env router calls, called.step.settled = false := by
  induction calls generalizing router with
  | nil => exact fun _ h => absurd h not_mem_nil
  | cons call calls ih =>
    have hcall := hattach _ mem_cons_self
    obtain ⟨hdet, hstl⟩ := (router.settles_run env hcall).1 hnone
    intro called hcalled
    rcases mem_cons.1 hcalled with rfl | hrest
    · exact hstl
    · exact ih hdet (fun other hoth => hattach other (mem_cons_of_mem _ hoth)) called hrest

theorem quiet_calledRun (hnone : router.attached = none) (hmode : router.mode ≠ .streaming)
    (hattach : ∀ called ∈ calledRun env router calls, called.call.isAttach = false) :
    ∀ called ∈ calledRun env router calls, called.step.turnOutput = [] := by
  induction calls generalizing router with
  | nil => exact fun _ h => absurd h not_mem_nil
  | cons call calls ih =>
    have hcall := hattach _ mem_cons_self
    obtain ⟨hdet, -⟩ := (router.settles_run env hcall).1 hnone
    obtain ⟨houtput, hmode'⟩ := (router.settles_run env hcall).2 hnone hmode
    intro called hcalled
    rcases mem_cons.1 hcalled with rfl | hrest
    · exact houtput
    · exact ih hdet hmode' (fun other hoth => hattach other (mem_cons_of_mem _ hoth)) called hrest

/-- **Turns settle once**: between two attachments one outcome at most is reported, with the
settlement. -/
theorem turns_settle_once (env : Platform ν φ) (cap : ℕ) (calls : List RouterCall) :
    (∀ called ∈ calledRun env (.new env cap) calls,
      called.step.OutcomeOk ∧ (called.step.settled → called.after.attached = none)) ∧
    (∀ front called between later back,
      calledRun env (.new env cap) calls = front ++ called :: (between ++ later :: back) →
      called.step.settled → later.step.settled →
      ∃ attaching ∈ between, attaching.call.isAttach) ∧
    (∀ front called between back,
      calledRun env (.new env cap) calls = front ++ called :: (between ++ back) →
      called.step.settled → called.call.isFeed →
      (∀ other ∈ between, other.call.isAttach = false) →
      ∀ other ∈ between, other.step.turnOutput = []) ∧
    ∀ called ∈ calledRun env (.new env cap) calls, ∀ now chunk, called.call = .feed now chunk →
      ∀ front back, pieces chunk = front ++ back →
        (Router.feedPieces env front (called.before, .default)).2.settled →
        called.step.turnOutput = (Router.feedPieces env front (called.before, .default)).2.turnOutput := by
  refine ⟨fun called hcalled => ?_, fun front called between later back hrun hsettled hlater => ?_,
    fun front called between back hrun hsettled hfeed hattach => ?_,
    fun called hcalled now chunk hcall front back hpieces hsettled => ?_⟩
  · obtain ⟨before, call, rfl⟩ := called_of_mem hcalled
    exact ⟨(before.outcome_run env call).2, (before.outcome_run env call).1⟩
  · obtain ⟨before, rest, -, rfl, hrest⟩ := calledRun_split env hrun
    obtain ⟨call, rest, rfl, rfl, hrest⟩ := calledRun_cons hrest
    have hdet := ((afterRun env (.new env cap) before).outcome_run env call).1 hsettled
    by_contra hnone
    rw [append_cons] at hrest
    obtain ⟨quiet, last, -, hquiet, -⟩ := calledRun_split env hrest.symm
    have hmem : later ∈ between ++ [later] := mem_append_right _ (mem_singleton.2 rfl)
    have hsettles : later.call.isAttach = false := by
      rw [hquiet] at hmem
      obtain ⟨router, call', rfl⟩ := called_of_mem hmem
      cases call' with
      | attach lifecycle => cases hlater
      | _ => rfl
    have hattach : ∀ other ∈ between ++ [later], other.call.isAttach = false := fun other hother => by
      rcases mem_append.1 hother with hbetween | hlast
      · exact Bool.eq_false_iff.2 fun h => hnone ⟨other, hbetween, h⟩
      · rw [mem_singleton.1 hlast]
        exact hsettles
    rw [hquiet] at hattach hmem
    have hunsettled := detached_calledRun hdet hattach later hmem
    rw [hlater] at hunsettled
    cases hunsettled
  · obtain ⟨before, rest, -, rfl, hrest⟩ := calledRun_split env hrun
    obtain ⟨call, rest, rfl, rfl, hrest⟩ := calledRun_cons hrest
    obtain ⟨quiet, last, -, rfl, -⟩ := calledRun_split env hrest.symm
    cases call with
    | feed now chunk =>
      have h := Router.absorbs_feed env (afterRun env (.new env cap) before) now chunk
      exact quiet_calledRun (h.settles hsettled).1 (h.settles hsettled).2 hattach
    | _ => cases hfeed
  · obtain ⟨before, call, rfl⟩ := called_of_mem hcalled
    cases hcall
    have h := Router.absorbs_feedPieces env front (.refl before)
    obtain ⟨hatt, hmode⟩ := h.settles hsettled
    change (Router.feedPieces env (pieces chunk) (before, .default)).2.turnOutput = _
    rw [hpieces, Router.feedPieces_append]
    exact Router.turnOutput_feedPieces env back hatt hmode

end Settled

end CodevoEditor.ClaudeSession
