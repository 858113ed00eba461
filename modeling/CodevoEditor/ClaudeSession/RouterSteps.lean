/-
# What a step of the router reports

A step only adds to what has been reported before it (`merge`), and every function that routes is
`Uniform`.
-/

import CodevoEditor.ClaudeSession.Router

namespace CodevoEditor.ClaudeSession

open Option Bool

variable {ν φ : Type}

variable {step : RouterStep}

namespace RouterStep

attribute [ext] RouterStep

/-- The report of a step and of the one after it. -/
def merge (step later : RouterStep) : RouterStep where
  turnOutput := step.turnOutput ++ later.turnOutput
  settled := step.settled || later.settled
  interrupted := if later.settled then later.interrupted else step.interrupted
  cancelled := if later.settled then later.cancelled else step.cancelled
  resultFailed := if later.settled then later.resultFailed else step.resultFailed
  interruptAcknowledged := step.interruptAcknowledged || later.interruptAcknowledged
  unownedActivity := step.unownedActivity || later.unownedActivity
  backgroundTurns := step.backgroundTurns ++ later.backgroundTurns
  backgroundTasks := later.backgroundTasks.or step.backgroundTasks
  permissionDenials := step.permissionDenials ++ later.permissionDenials
  unsupportedRequests := step.unsupportedRequests ++ later.unsupportedRequests
  failure := later.failure.or step.failure

@[simp] lemma merge_default (step : RouterStep) : step.merge .default = step := by
  refine RouterStep.ext ?_ ?_ rfl rfl rfl ?_ ?_ ?_ ?_ ?_ ?_ ?_ <;> simp [merge, default]

lemma merge_assoc (step later last : RouterStep) : (step.merge later).merge last = step.merge (later.merge last) := by
  refine RouterStep.ext ?_ ?_ ?_ ?_ ?_ ?_ ?_ ?_ ?_ ?_ ?_ ?_ <;> unfold merge <;> dsimp only
  · exact List.append_assoc _ _ _
  · exact or_assoc _ _ _
  · cases last.settled <;> cases later.settled <;> rfl
  · cases last.settled <;> cases later.settled <;> rfl
  · cases last.settled <;> cases later.settled <;> rfl
  · exact or_assoc _ _ _
  · exact or_assoc _ _ _
  · exact List.append_assoc _ _ _
  · exact (Option.or_assoc ..).symm
  · exact List.append_assoc _ _ _
  · exact List.append_assoc _ _ _
  · exact (Option.or_assoc ..).symm

/-- A function that adds to what has been reported. -/
def Adds (report : RouterStep → RouterStep) : Prop := ∀ step, report step = step.merge (report .default)

lemma adds_turnOutput (line) :
    Adds fun step => { step with turnOutput := step.turnOutput ++ line } := fun step => by
  refine RouterStep.ext ?_ ?_ rfl rfl rfl ?_ ?_ ?_ ?_ ?_ ?_ ?_ <;> simp [merge, default]

lemma adds_backgroundTurn (turn) :
    Adds fun step => { step with backgroundTurns := step.backgroundTurns ++ [turn] } := fun step => by
  refine RouterStep.ext ?_ ?_ rfl rfl rfl ?_ ?_ ?_ ?_ ?_ ?_ ?_ <;> simp [merge, default]

variable (id : String)

lemma adds_permissionDenial : Adds fun step => { step with permissionDenials := step.permissionDenials ++ [id] } :=
  fun step => by
  refine RouterStep.ext ?_ ?_ rfl rfl rfl ?_ ?_ ?_ ?_ ?_ ?_ ?_ <;> simp [merge, default]

lemma adds_unsupportedRequest :
    Adds fun step => { step with unsupportedRequests := step.unsupportedRequests ++ [id] } :=
  fun step => by
  refine RouterStep.ext ?_ ?_ rfl rfl rfl ?_ ?_ ?_ ?_ ?_ ?_ ?_ <;> simp [merge, default]

lemma adds_unownedActivity : Adds fun step => { step with unownedActivity := true } := fun step => by
  refine RouterStep.ext ?_ ?_ rfl rfl rfl ?_ ?_ ?_ ?_ ?_ ?_ ?_ <;> simp [merge, default]

lemma adds_acknowledge (acknowledged : Bool) : Adds (acknowledge acknowledged) := fun step => by
  unfold acknowledge
  cases acknowledged
  · exact (merge_default step).symm
  · refine RouterStep.ext ?_ ?_ rfl rfl rfl ?_ ?_ ?_ ?_ ?_ ?_ ?_ <;> simp [merge, default]

lemma adds_failure (error : String) : Adds fun step => { step with failure := some error } :=
  fun step => by
  refine RouterStep.ext ?_ ?_ rfl rfl rfl ?_ ?_ ?_ ?_ ?_ ?_ ?_ <;> simp [merge, default]

lemma adds_settlement (interrupted cancelled resultFailed : Bool) :
    Adds fun step => { step with
      settled := true, interrupted := interrupted, cancelled := cancelled
      resultFailed := resultFailed } := fun step => by
  refine RouterStep.ext ?_ ?_ rfl rfl rfl ?_ ?_ ?_ ?_ ?_ ?_ ?_ <;> simp [merge, default]

end RouterStep

namespace Router

/-- What is routed is added to what has been reported. -/
def Uniform (route : RouterStep → Router φ × RouterStep) : Prop :=
  ∀ step, route step = ((route .default).1, step.merge (route .default).2)

/-- The same of a function that says where a line goes. -/
def UniformWith {β : Type} (route : RouterStep → (Router φ × RouterStep) × β) : Prop :=
  ∀ step, route step = (((route .default).1.1, step.merge (route .default).1.2), (route .default).2)

lemma uniform_of_adds (router : Router φ) {report : RouterStep → RouterStep}
    (h : RouterStep.Adds report) : Uniform fun step => (router, report step) := fun step =>
  Prod.ext rfl (h step)

lemma uniform_id (router : Router φ) : Uniform fun step => (router, step) :=
  uniform_of_adds router fun step => (RouterStep.merge_default step).symm

variable {route : RouterStep → Router φ × RouterStep}

lemma Uniform.withValue {β : Type} (h : Uniform route) (value : β) :
    UniformWith fun step => (route step, value) := fun step => by
  dsimp only
  rw [h step]

theorem Uniform.bind {next : Router φ → RouterStep → Router φ × RouterStep} (h : Uniform route)
    (hnext : ∀ router, Uniform (next router)) :
    Uniform fun step => next (route step).1 (route step).2 := fun step => by
  dsimp only
  rw [h step, hnext _ (step.merge _), hnext _ (route .default).2, RouterStep.merge_assoc]

lemma Uniform.map (h : Uniform route) (change : Router φ → Router φ) :
    Uniform fun step => (change (route step).1, (route step).2) :=
  h.bind fun router => uniform_id (change router)

lemma UniformWith.bind {β : Type} {route : RouterStep → (Router φ × RouterStep) × β}
    {next : Router φ → β → RouterStep → Router φ × RouterStep} (h : UniformWith route)
    (hnext : ∀ router value, Uniform (next router value)) :
    Uniform fun step => next (route step).1.1 (route step).2 (route step).1.2 := fun step => by
  dsimp only
  rw [h step, hnext _ _ (step.merge _), hnext _ _ (route .default).1.2, RouterStep.merge_assoc]

variable (router : Router φ) (env : Platform ν φ) (message : Json ν)

lemma uniform_recordSettlement (viaInterrupt : Bool) : Uniform (router.recordSettlement viaInterrupt) :=
  uniform_of_adds _ (RouterStep.adds_settlement _ _ _)

lemma uniform_settleWhen (settled viaInterrupt : Bool) : Uniform (router.settleWhen settled viaInterrupt) := by
  cases settled
  · exact router.uniform_id
  · exact router.uniform_recordSettlement viaInterrupt

lemma uniform_emitUnsolicited (complete : Bool) : Uniform (router.emitUnsolicited complete) := by
  unfold emitUnsolicited
  cases router.unsolicited with
  | none => exact router.uniform_id
  | some active => exact uniform_of_adds _ (RouterStep.adds_backgroundTurn _)

lemma uniform_deliver (destination : Destination) (line : List UInt8) (budget : BudgetClass) :
    UniformWith (router.deliver destination line budget) := by
  unfold deliver
  cases destination with
  | turn => exact (uniform_of_adds _ (RouterStep.adds_turnOutput line)).withValue _
  | command => exact (uniform_of_adds _ (RouterStep.adds_turnOutput line)).withValue _
  | unsolicited =>
    cases router.unsolicited with
    | none => exact router.uniform_id.withValue _
    | some active => exact (uniform_id _).withValue _
  | background => exact (uniform_of_adds _ (RouterStep.adds_backgroundTurn _)).withValue _
  | discard => exact router.uniform_id.withValue _

lemma uniform_forward (destination : Destination) (line : List UInt8) :
    Uniform (router.forward env destination message line) := by
  unfold forward
  dsimp only
  split
  · exact router.uniform_id
  · rename_i forwarded heq
    have hdel := router.uniform_deliver destination
      (router.normalizeCost env destination message forwarded).1 (.of message)
    exact hdel.bind fun next accepted => uniform_id (next.chargeCost accepted _)

lemma uniform_classifyControlRequest : UniformWith (router.classifyControlRequest message) := by
  unfold classifyControlRequest
  split_ifs
  · exact router.uniform_id.withValue _
  · split
    · exact (uniform_of_adds _ (RouterStep.adds_permissionDenial _)).withValue _
    · split
      · exact (uniform_of_adds _ RouterStep.adds_unownedActivity).withValue _
      · exact (uniform_of_adds _ (RouterStep.adds_unsupportedRequest _)).withValue _

lemma uniform_classifyLifecycle : UniformWith (router.classifyLifecycle message) := by
  unfold classifyLifecycle
  dsimp only
  split
  · exact (uniform_id _).withValue _
  · split_ifs
    · exact (uniform_id _).withValue _
    · split
      · exact (uniform_id _).withValue _
      · split_ifs
        · exact (uniform_id _).withValue _
        · exact (uniform_id _).withValue _
        · exact (uniform_id _).withValue _
        · exact (uniform_emitUnsolicited _ _).withValue _

lemma uniform_classify : UniformWith (router.classify message) := by
  unfold classify
  dsimp only
  split_ifs
  · exact router.uniform_classifyLifecycle message
  · exact (uniform_id _).withValue _
  · exact (uniform_id _).withValue _
  · exact router.uniform_classifyControlRequest message
  · exact ((router.uniform_emitUnsolicited false).map fun next => { next with
      attached := next.attached.map (resultArrived router.lifecycleSupported message) }).withValue _
  · exact (uniform_id _).withValue _
  · exact (uniform_id _).withValue _
  · exact (uniform_id _).withValue _
  · exact (uniform_id _).withValue _
  · exact (uniform_id _).withValue _

lemma uniform_beforeClassify : Uniform (router.beforeClassify env message) :=
  (uniform_of_adds _ (RouterStep.adds_acknowledge _)).bind fun next => next.uniform_settleWhen _ _

lemma uniform_afterForward (finishesCommand natural : Bool) : Uniform (router.afterForward finishesCommand natural) :=
  (uniform_settleWhen _ _ _).map promoteUnconsumedWakeUp

lemma uniform_emitWhen (test : Bool) : Uniform (router.emitWhen test) := by
  cases test
  · exact router.uniform_id
  · exact router.uniform_emitUnsolicited true

lemma uniform_conclude (finishesCommand : Bool) (outcome) : Uniform (router.conclude finishesCommand outcome) := by
  cases outcome with
  | error error => exact uniform_of_adds _ (RouterStep.adds_failure error)
  | ok natural => exact router.uniform_afterForward finishesCommand natural

lemma uniform_routeClassified (finishesCommand : Bool) (destination)
    (line) :
    Uniform (router.routeClassified env finishesCommand destination message line) :=
  ((uniform_forward _ env message _ line).bind fun next => next.uniform_emitWhen _).bind
    fun next => next.uniform_conclude finishesCommand _

lemma uniform_routeMessage (line) : Uniform (router.routeMessage env message line) := by
  have hclass (before : Router φ) : Uniform fun step =>
      (before.classify message step).1.1.routeClassified env (before.finishesAttachedCommand message)
        (before.classify message step).2 message line (before.classify message step).1.2 :=
    (before.uniform_classify message).bind fun next destination =>
      next.uniform_routeClassified env message _ destination line
  exact (router.uniform_beforeClassify env message).bind hclass

lemma uniform_routeLine (line : List UInt8) : Uniform (router.routeLine env line) := by
  unfold routeLine
  split
  · exact router.uniform_routeMessage env _ line
  · split
    · exact uniform_id _
    · exact (router.uniform_deliver _ line .activity).bind fun next _ => next.uniform_id

lemma uniform_overflow (complete : Bool) : Uniform (router.overflow complete) := by
  unfold overflow
  by_cases hcand : lifecycleCandidate router.line
  · simp only [if_pos hcand]
    exact uniform_of_adds _ (RouterStep.adds_failure _)
  · simp only [if_neg hcand]
    by_cases hown : owned { router with
        line := [], mode := if complete then .buffering else .skipping }
    · simp only [if_pos hown]
      exact uniform_of_adds _ (RouterStep.adds_turnOutput _)
    · simp only [if_neg hown]
      cases router.unsolicited with
      | none => exact uniform_id _
      | some active => exact uniform_id _

/-- **A piece of a chunk only adds to what has been reported.** -/
theorem uniform_absorb (piece : List UInt8) (complete : Bool) : Uniform (router.absorb env piece complete) := by
  unfold absorb
  dsimp only
  split
  · exact uniform_of_adds _ (RouterStep.adds_turnOutput piece)
  · exact uniform_id _
  · split_ifs
    · exact uniform_overflow _ _
    · exact uniform_id _
    · exact uniform_routeLine _ _ _

end Router

/-! ### Settlement -/

namespace RouterStep

/-- An outcome is reported of a turn that is settled, and one at most. -/
structure OutcomeOk (step : RouterStep) : Prop where
  interrupted : step.interrupted → step.settled ∧ step.cancelled = false ∧ step.resultFailed = false
  cancelled : step.cancelled → step.settled ∧ step.resultFailed = false
  resultFailed : step.resultFailed → step.settled

lemma OutcomeOk.default : OutcomeOk default where
  interrupted := nofun
  cancelled := nofun
  resultFailed := nofun

lemma OutcomeOk.merge {later} (h : step.OutcomeOk) (h' : later.OutcomeOk) : (step.merge later).OutcomeOk := by
  unfold RouterStep.merge
  cases hstl : later.settled with
  | true =>
    refine ⟨fun hi => ?_, fun hc => ?_, fun _ => or_true _⟩
    · exact ⟨or_true _, (h'.interrupted hi).2⟩
    · exact ⟨or_true _, (h'.cancelled hc).2⟩
  | false =>
    refine ⟨fun hi => ?_, fun hc => ?_, fun hr => ?_⟩
    · obtain ⟨hstep, hrest⟩ := h.interrupted hi
      exact ⟨(Bool.or_false _).trans hstep, hrest⟩
    · obtain ⟨hstep, hrest⟩ := h.cancelled hc
      exact ⟨(Bool.or_false _).trans hstep, hrest⟩
    · exact (Bool.or_false _).trans (h.resultFailed hr)

end RouterStep

namespace Router

/-- The bytes of the line are left, and no turn is attached. -/
structure Stays (router next : Router φ) : Prop where
  line_eq : next.line = router.line
  mode_eq : next.mode = router.mode
  detached : router.attached = none → next.attached = none

/-- What a step may report: nothing for a turn where none is attached, and a turn that is
settled is attached no more. -/
structure Routes (router : Router φ) (routed : Router φ × RouterStep) : Prop extends
    Stays router routed.1 where
  silent : router.attached = none → routed.2.turnOutput = [] ∧ routed.2.settled = false
  settles : routed.2.settled → routed.1.attached = none
  outcome : routed.2.OutcomeOk

lemma Stays.refl (router : Router φ) : Stays router router := ⟨rfl, rfl, id⟩

variable {next : Router φ}

lemma Stays.trans {router middle} (h : Stays router middle) (h' : Stays middle next) : Stays router next :=
  ⟨h'.line_eq.trans h.line_eq, h'.mode_eq.trans h.mode_eq, fun hnone => h'.detached (h.detached hnone)⟩

lemma Stays.routes {router} (h : Stays router next) : Routes router (next, .default) :=
  { h with
    silent := fun _ => ⟨rfl, rfl⟩
    settles := nofun
    outcome := .default }

variable {routed : Router φ × RouterStep}

lemma Stays.then_routes {router middle} (h : Stays router middle)
    (h' : Routes middle routed) : Routes router routed :=
  { h.trans h'.toStays with
    silent := fun hnone => h'.silent (h.detached hnone)
    settles := h'.settles
    outcome := h'.outcome }

lemma Routes.then_stays {router} (h : Routes router routed) (h' : Stays routed.1 next) :
    Routes router (next, routed.2) :=
  { h.toStays.trans h' with
    silent := h.silent
    settles := fun hstl => h'.detached (h.settles hstl)
    outcome := h.outcome }

theorem Routes.merge {router} {later} (h : Routes router routed)
    (h' : Routes routed.1 later) :
    Routes router (later.1, routed.2.merge later.2) :=
  { h.toStays.trans h'.toStays with
    silent := fun hnone => by
      obtain ⟨houtput, hstl⟩ := h.silent hnone
      obtain ⟨houtput', hsettled'⟩ := h'.silent (h.detached hnone)
      unfold RouterStep.merge
      rw [houtput, houtput', hstl, hsettled']
      exact ⟨rfl, rfl⟩
    settles := fun hstl => by
      rcases or_eq_true_iff.1 hstl with hfst | hsnd
      · exact h'.detached (h.settles hfst)
      · exact h'.settles hsnd
    outcome := h.outcome.merge h'.outcome }

lemma Routes.bind {router} {next : RouterStep → Router φ × RouterStep}
    (h : Routes router routed) (hnext : Uniform next) (h' : Routes routed.1 (next .default)) :
    Routes router (next routed.2) := by
  rw [hnext routed.2]
  exact h.merge h'

section Stages

variable (router : Router φ) (env : Platform ν φ) (message : Json ν)

lemma owned_of_detached {router : Router φ} (h : router.attached = none) : router.owned = false := by
  unfold owned
  rw [h]
  exact and_false _

lemma stays_consumeWakeUp : Stays router router.consumeWakeUp := ⟨rfl, rfl, id⟩

lemma stays_openUnsolicited : Stays router router.openUnsolicited := ⟨rfl, rfl, id⟩

lemma stays_noteWakeUp : Stays router router.noteWakeUp := by
  unfold noteWakeUp
  split_ifs <;> exact ⟨rfl, rfl, id⟩

lemma stays_promoteUnconsumedWakeUp : Stays router router.promoteUnconsumedWakeUp := by
  unfold promoteUnconsumedWakeUp
  split_ifs <;> exact ⟨rfl, rfl, id⟩

lemma stays_acknowledgesInterrupt : Stays router (router.acknowledgesInterrupt message).1 := by
  unfold acknowledgesInterrupt
  dsimp only
  split_ifs <;> exact ⟨rfl, rfl, id⟩

lemma stays_noteToolResult : Stays router (router.noteToolResult message) := by
  unfold noteToolResult
  split_ifs <;> exact ⟨rfl, rfl, id⟩

lemma stays_settleReady : Stays router router.settleReady.1 := by
  unfold settleReady
  dsimp only
  split_ifs <;> exact ⟨rfl, rfl, id⟩

variable (test : Bool)

lemma stays_settleReadyWhen : Stays router (router.settleReadyWhen test).1 := by
  cases test
  · exact .refl router
  · exact router.stays_settleReady

lemma stays_chargeCost (accepted : Bool) (total : Option φ) : Stays router (router.chargeCost accepted total) := by
  cases total with
  | none => exact .refl router
  | some total => cases accepted <;> exact ⟨rfl, rfl, id⟩

lemma stays_noteRun (destination : Destination) (owned : Bool) :
    Stays router (router.noteRun destination owned message) := by
  unfold noteRun
  split_ifs
  · exact .refl router
  · refine ⟨rfl, rfl, fun hnone => ?_⟩
    dsimp only
    rw [hnone, map_none]

variable (resets : ℕ)

lemma stays_noteResets : Stays router (router.noteResets resets) := by
  unfold noteResets
  split_ifs <;> exact ⟨rfl, rfl, id⟩

variable (wakeUps : ℕ)

lemma stays_noteWakeUps : Stays router (router.noteWakeUps wakeUps) := by
  unfold noteWakeUps
  split_ifs
  · exact router.stays_noteWakeUp
  · exact .refl router

lemma stays_observe (destination) (owned : Bool) : Stays router (router.observe env destination owned message).1 := by
  have hdet : Stays router
      { router with detector := (router.observed env destination owned message).1 } := ⟨rfl, rfl, id⟩
  exact (hdet.trans (stays_noteResets _ _)).trans (stays_noteWakeUps _ _)

variable {destination : Destination}

lemma owned_of_observed {owned} (h : (router.observed env destination owned message).2 = .ok true) : owned := by
  unfold observed at h
  split_ifs at h with hown
  · rw [and_eq_true] at hown
    exact hown.1
  · cases hobs : (router.detector.observeCommand message).2 with
    | error error =>
      dsimp only at h
      rw [hobs] at h
      cases h
    | ok value =>
      dsimp only at h
      rw [hobs] at h
      cases h
  · cases hobs : (router.detector.trackMessage env message).2 with
    | error error =>
      dsimp only at h
      rw [hobs] at h
      cases h
    | ok value =>
      dsimp only at h
      rw [hobs] at h
      cases h

variable (viaInterrupt : Bool)

lemma routes_recordSettlement (hatt : router.attached ≠ none) :
    Routes router (router.recordSettlement viaInterrupt .default) := by
  unfold recordSettlement
  dsimp only
  refine { line_eq := ?_, mode_eq := ?_, detached := fun _ => rfl, settles := fun _ => rfl
           silent := fun hnone => absurd hnone hatt, outcome := ?_ }
  · split_ifs <;> rfl
  · split_ifs <;> rfl
  · constructor
    · intro hintr
      dsimp only at hintr ⊢
      rw [hintr]
      exact ⟨rfl, rfl, rfl⟩
    · intro hcancel
      dsimp only at hcancel ⊢
      rw [hcancel]
      refine ⟨rfl, ?_⟩
      rw [Bool.not_true, Bool.and_false, Bool.false_and]
    · exact fun _ => rfl

lemma routes_settleWhen {settled}
    (hatt : settled = true → router.attached ≠ none) :
    Routes router (router.settleWhen settled viaInterrupt .default) := by
  cases settled
  · exact (Stays.refl router).routes
  · exact router.routes_recordSettlement viaInterrupt (hatt rfl)

lemma attached_of_settleReadyWhen {test} (htest : test = true → router.attached ≠ none)
    (h : (router.settleReadyWhen test).2.1 = true) : (router.settleReadyWhen test).1.attached ≠ none := by
  unfold settleReadyWhen at h ⊢
  cases test
  · cases h
  · rw [if_pos rfl] at h ⊢
    unfold settleReady
    dsimp only
    split_ifs <;> exact htest rfl

lemma attached_of_owned {router : Router φ} (h : router.owned) : router.attached ≠ none :=
  fun hnone => by
    rw [owned_of_detached hnone] at h
    cases h

lemma routes_acknowledge (acknowledged : Bool) :
    Routes router (router, RouterStep.default.acknowledge acknowledged) := by
  cases acknowledged
  · exact (Stays.refl router).routes
  · exact { Stays.refl router with
      silent := fun _ => ⟨rfl, rfl⟩
      settles := nofun
      outcome := ⟨nofun, nofun, nofun⟩ }

lemma routes_beforeClassify : Routes router (router.beforeClassify env message .default) := by
  set expired := (((router.acknowledgesInterrupt message).1.noteToolResult message).expireLevelEnded env
    message) with hexp
  have hstays : Stays router expired.1 :=
    ((router.stays_acknowledgesInterrupt message).trans (stays_noteToolResult _ message)).trans ⟨rfl, rfl, id⟩
  have hready := hstays.trans (expired.1.stays_settleReadyWhen (expired.2 && expired.1.owned))
  have hack := hready.then_routes (routes_acknowledge _ (router.acknowledgesInterrupt message).2)
  refine hack.bind (uniform_settleWhen _ _ _) (routes_settleWhen _ _ ?_)
  exact attached_of_settleReadyWhen _ fun htest => attached_of_owned (and_eq_true_iff.1 htest).2

variable (complete : Bool)

lemma routes_emitUnsolicited : Routes router (router.emitUnsolicited complete .default) := by
  unfold emitUnsolicited
  split
  · exact (Stays.refl router).routes
  · exact {
      line_eq := rfl
      mode_eq := rfl
      detached := id
      silent := fun _ => ⟨rfl, rfl⟩
      settles := nofun
      outcome := ⟨nofun, nofun, nofun⟩ }

lemma routes_of_report (h : Stays router next) (houtput : step.turnOutput = [])
    (hstl : step.settled = false) (hintr : step.interrupted = false)
    (hcancel : step.cancelled = false) (hfail : step.resultFailed = false) :
    Routes router (next, step) where
  toStays := h
  silent := fun _ => ⟨houtput, hstl⟩
  settles := fun hsettles => by
    rw [hstl] at hsettles
    cases hsettles
  outcome := by
    refine ⟨fun h => ?_, fun h => ?_, fun h => ?_⟩
    · rw [hintr] at h
      cases h
    · rw [hcancel] at h
      cases h
    · rw [hfail] at h
      cases h

/-- A message is only for a turn that is attached. -/
structure Classified (classified : (Router φ × RouterStep) × Destination) : Prop extends
    Routes router classified.1 where
  destination : classified.2.forTurn → classified.1.1.attached ≠ none

lemma attached_of_attachedDestination {router : Router φ}
    (h : router.attachedDestination.forTurn) : router.attached ≠ none := fun hnone => by
  unfold attachedDestination at h
  rw [hnone] at h
  cases h

lemma attached_of_attachedRunOwns {router : Router φ} {message : Json ν}
    (h : router.attachedRunOwns message) : router.attached ≠ none := fun hnone => by
  unfold attachedRunOwns at h
  rw [hnone] at h
  cases h

lemma attached_of_namesOurResult {router : Router φ} {message : Json ν}
    (h : router.namesOurResult message) : router.attached ≠ none := fun hnone => by
  unfold namesOurResult at h
  rw [hnone] at h
  cases h

lemma stays_backgroundPermission : Stays router (router.backgroundPermission message).1 := by
  unfold backgroundPermission
  split
  · exact .refl router
  · split
    · exact .refl router
    · split
      · exact .refl router
      · exact ⟨rfl, rfl, id⟩

lemma stays_unsupportedRequest : Stays router (router.unsupportedRequest message).1 := by
  unfold unsupportedRequest
  split
  · exact .refl router
  · split
    · exact .refl router
    · split
      · split
        · exact .refl router
        · exact ⟨rfl, rfl, id⟩
      · split
        · exact .refl router
        · exact ⟨rfl, rfl, id⟩

lemma classified_controlRequest : Classified router (router.classifyControlRequest message .default) := by
  unfold classifyControlRequest
  split
  · rename_i hown
    exact ⟨(Stays.refl router).routes, fun _ => attached_of_owned hown⟩
  · have hperm := router.stays_backgroundPermission message
    split
    · rename_i next id heq
      rw [heq] at hperm
      exact ⟨routes_of_report router hperm rfl rfl rfl rfl rfl, nofun⟩
    · rename_i next heq
      rw [heq] at hperm
      have hreq := hperm.trans (next.stays_unsupportedRequest message)
      split
      · rename_i last heq'
        rw [heq'] at hreq
        exact ⟨routes_of_report router hreq rfl rfl rfl rfl rfl, nofun⟩
      · rename_i last id heq'
        rw [heq'] at hreq
        refine ⟨routes_of_report router hreq rfl rfl rfl rfl rfl, fun h => ?_⟩
        split_ifs at h <;> cases h

lemma attached_emitUnsolicited (step) : (router.emitUnsolicited complete step).1.attached = router.attached := by
  unfold emitUnsolicited
  split <;> rfl

lemma classified_lifecycle : Classified router (router.classifyLifecycle message .default) := by
  unfold classifyLifecycle
  dsimp only
  split
  · exact ⟨Stays.routes ⟨rfl, rfl, id⟩, nofun⟩
  · rename_i turn hturn
    have hatt : router.attached ≠ none := by
      rw [hturn]
      exact some_ne_none turn
    have hcmd {next : Router φ} {destination : Destination} (h : Stays router next)
        (hnext : next.attached ≠ none) : Classified router ((next, .default), destination) :=
      ⟨h.routes, fun _ => hnext⟩
    split_ifs
    · exact hcmd ⟨rfl, rfl, id⟩ hatt
    · split
      · exact hcmd ⟨rfl, rfl, id⟩ hatt
      · split_ifs
        · exact hcmd ⟨rfl, rfl, fun hnone => absurd hnone hatt⟩ (some_ne_none _)
        · exact hcmd ⟨rfl, rfl, id⟩ hatt
        · exact hcmd ⟨rfl, rfl, id⟩ hatt
        · have hst : Stays router { router with
              lifecycleSupported := true
              attached := some { turn with
                running := some ((message.strOf "command_uuid").getD "")
                started := turn.started || (message.strOf "command_uuid").getD "" = turn.commandId
                initExpected := true } }.consumeWakeUp :=
            ⟨rfl, rfl, fun hnone => absurd hnone hatt⟩
          refine ⟨hst.then_routes (routes_emitUnsolicited _ false), fun _ => ?_⟩
          rw [attached_emitUnsolicited]
          exact some_ne_none _

variable (kind : Option String)

lemma stays_classifyOwned : Stays router (router.classifyOwned kind message).1 := by
  unfold classifyOwned
  split
  · exact .refl router
  · dsimp only
    split
    · exact .refl router
    · rename_i turn hturn
      split_ifs
      · exact router.stays_openUnsolicited
      · refine ⟨rfl, rfl, fun hnone => ?_⟩
        rw [hnone] at hturn
        cases hturn
      · exact .refl router

lemma attached_classifyOwned (h : router.attached ≠ none) :
    (router.classifyOwned kind message).1.attached ≠ none := by
  unfold classifyOwned
  split
  · exact h
  · dsimp only
    split
    · exact h
    · split_ifs
      · exact h
      · exact some_ne_none _
      · exact h

theorem classified_classify : Classified router (router.classify message .default) := by
  unfold classify
  by_cases hlife : message.strOf "type" = some "command_lifecycle"
  · rw [if_pos hlife]
    exact router.classified_lifecycle message
  rw [if_neg hlife]
  by_cases hresp : message.strOf "type" = some "control_response"
  · rw [if_pos hresp]
    refine ⟨Stays.routes ⟨rfl, rfl, id⟩, fun h => ?_⟩
    dsimp only at h
    split_ifs at h
    · cases h
    · exact attached_of_attachedDestination h
  rw [if_neg hresp]
  by_cases hreq : message.strOf "type" = some "control_request" ∧ message.isRoot
  · rw [if_pos hreq]
    exact router.classified_controlRequest message
  rw [if_neg hreq]
  by_cases hres : (rootResult message && router.namesOurResult message)
  · rw [if_pos hres]
    have hatt := attached_of_namesOurResult (and_eq_true_iff.1 hres).2
    have hemit := router.attached_emitUnsolicited false .default
    refine ⟨(router.routes_emitUnsolicited false).then_stays ⟨rfl, rfl, fun hnone => ?_⟩, fun _ => ?_⟩
    · dsimp only
      rw [hnone, map_none]
    · dsimp only
      rw [hemit]
      exact fun hnone => hatt (map_eq_none_iff.1 hnone)
  split_ifs with hunsol howns hown hopens
  · exact ⟨(Stays.refl router).routes, fun _ => attached_of_attachedRunOwns howns⟩
  · exact ⟨(Stays.refl router).routes, nofun⟩
  · exact ⟨(router.stays_classifyOwned message _).routes,
      fun _ => router.attached_classifyOwned message _ (attached_of_owned hown)⟩
  · exact ⟨router.stays_openUnsolicited.routes, nofun⟩
  · exact ⟨(Stays.refl router).routes, fun h => attached_of_attachedDestination h⟩

variable (line : List UInt8)

lemma routes_deliver (budget : BudgetClass)
    (h : destination.forTurn → router.attached ≠ none) :
    Routes router (router.deliver destination line budget .default).1 := by
  have hturn : destination.forTurn → Routes router
      (router, { RouterStep.default with turnOutput := RouterStep.default.turnOutput ++ line }) :=
    fun hfor => {
      toStays := .refl router
      silent := fun hnone => absurd hnone (h hfor)
      settles := nofun
      outcome := ⟨nofun, nofun, nofun⟩ }
  unfold deliver
  cases destination with
  | turn => exact hturn rfl
  | command => exact hturn rfl
  | unsolicited =>
    dsimp only
    split
    · exact (Stays.refl router).routes
    · exact Stays.routes ⟨rfl, rfl, id⟩
  | background => exact routes_of_report router (.refl router) rfl rfl rfl rfl rfl
  | discard => exact (Stays.refl router).routes

lemma routes_forward (h : destination.forTurn → router.attached ≠ none) :
    Routes router (router.forward env destination message line .default) := by
  unfold forward
  dsimp only
  split
  · exact (Stays.refl router).routes
  · exact (router.routes_deliver _ _ h).then_stays (stays_chargeCost _ _ _)

lemma routes_emitWhen : Routes router (router.emitWhen test .default) := by
  cases test
  · exact (Stays.refl router).routes
  · exact router.routes_emitUnsolicited true

variable (finishesCommand : Bool)

lemma routes_conclude {outcome : Except String Bool}
    (h : outcome = .ok true → router.attached ≠ none) :
    Routes router (router.conclude finishesCommand outcome .default) := by
  unfold conclude
  cases outcome with
  | error error => exact routes_of_report router (.refl router) rfl rfl rfl rfl rfl
  | ok natural =>
    unfold afterForward
    dsimp only
    set finished : Router φ := if finishesCommand then
      { router with detector := router.detector.commandFinished } else router with hfin
    have hstays : Stays router finished := by
      rw [hfin]
      split_ifs <;> exact ⟨rfl, rfl, id⟩
    have hatt : router.attached ≠ none → finished.attached ≠ none := by
      rw [hfin]
      split_ifs <;> exact id
    cases natural with
    | true =>
      exact (hstays.then_routes (routes_settleWhen _ _ fun _ => hatt (h rfl))).then_stays
        (stays_promoteUnconsumedWakeUp _)
    | false =>
      refine ((hstays.trans (stays_settleReadyWhen _ _)).then_routes
        (routes_settleWhen _ _ ?_)).then_stays (stays_promoteUnconsumedWakeUp _)
      exact attached_of_settleReadyWhen _ fun hown => attached_of_owned hown

lemma forTurn_delivery (destination) (h : (router.delivery destination message).forTurn) : destination.forTurn := by
  unfold delivery at h
  split_ifs at h
  · exact h
  · cases h

lemma attached_noteRun {owned} (h : router.attached ≠ none) :
    (router.noteRun destination owned message).attached ≠ none := by
  unfold noteRun
  split_ifs
  · exact h
  · exact fun hnone => h (map_eq_none_iff.1 hnone)

lemma attached_noteResets : (router.noteResets resets).attached = router.attached := by
  unfold noteResets
  split_ifs <;> rfl

lemma attached_noteWakeUps : (router.noteWakeUps wakeUps).attached = router.attached := by
  unfold noteWakeUps noteWakeUp
  split_ifs <;> rfl

lemma attached_observe (destination) (owned : Bool) :
    (router.observe env destination owned message).1.attached = router.attached :=
  (attached_noteWakeUps _ _).trans (attached_noteResets _ _)

lemma attached_forward (destination) (line) (step) :
    (router.forward env destination message line step).1.attached = router.attached := by
  unfold forward
  dsimp only
  split
  · rfl
  · rename_i line heq
    have hcharge (next : Router φ) (accepted : Bool) (total : Option φ) :
        (next.chargeCost accepted total).attached = next.attached := by
      cases total <;> cases accepted <;> rfl
    rw [hcharge]
    unfold deliver
    cases destination <;> try rfl
    dsimp only
    split <;> rfl

lemma attached_emitWhen (step) : (router.emitWhen test step).1.attached = router.attached := by
  unfold emitWhen
  split_ifs
  · exact router.attached_emitUnsolicited true step
  · rfl

lemma routes_routeClassified (line)
    (h : destination.forTurn → router.attached ≠ none) :
    Routes router (router.routeClassified env finishesCommand destination message line .default) := by
  have hnoted := router.stays_noteRun message destination router.owned
  have hobs := hnoted.trans (stays_observe _ env message destination router.owned)
  have hatt : router.attached ≠ none →
      ((router.noteRun destination router.owned message).observe env destination router.owned
        message).1.attached ≠ none := fun hsome => by
    rw [attached_observe]
    exact router.attached_noteRun message hsome
  have hforward := hobs.then_routes (routes_forward _ env message line fun hfor =>
    hatt (h (forTurn_delivery (router.noteRun destination router.owned message) message destination hfor)))
  refine (hforward.bind (uniform_emitWhen _ _) (routes_emitWhen _ _)).bind (uniform_conclude _ _ _)
    (routes_conclude _ _ fun hstl => ?_)
  rw [attached_emitWhen, attached_forward]
  exact hatt (attached_of_owned (owned_of_observed _ _ _ hstl))

lemma routes_routeMessage : Routes router (router.routeMessage env message line .default) := by
  have hpre := router.routes_beforeClassify env message
  unfold routeMessage
  dsimp only
  set before := router.beforeClassify env message .default
  have hclass := before.1.classified_classify message
  have huniform := before.1.uniform_classify message before.2
  rw [huniform]
  exact (hpre.merge hclass.toRoutes).bind (uniform_routeClassified _ _ _ _ _ _)
    (routes_routeClassified _ _ _ _ _ hclass.destination)

lemma routes_routeLine : Routes router (router.routeLine env line .default) := by
  unfold routeLine
  split
  · exact router.routes_routeMessage env _ line
  · split
    · exact Stays.routes ⟨rfl, rfl, id⟩
    · exact router.routes_deliver _ _ attached_of_attachedDestination

end Stages

end Router

end CodevoEditor.ClaudeSession
