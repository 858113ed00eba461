/-
# How a line is passed on

What becomes of a line is settled before it is passed on: which background turn is open for it,
where it goes and what is left of it (`Passing`).
-/

import CodevoEditor.ClaudeSession.RouterSteps

namespace CodevoEditor.ClaudeSession

variable {ν φ : Type}

/-- A line on its way: the background turn that it closes, the one that is open for it, where
it goes and what is passed on of it. -/
structure Passing where
  closed : List ClaudeBackgroundTurn
  active : Option UnsolicitedTurn
  destination : Destination
  form : Option (List UInt8)
  budget : BudgetClass

namespace Passing

variable (passing : Passing)

/-- The background turn once the line has been passed on to it. -/
def pushed (active : UnsolicitedTurn) : UnsolicitedTurn :=
  match passing.form with
  | none => active
  | some form => (active.push form passing.budget).1

def turnOutput : List UInt8 :=
  if passing.destination.forTurn then passing.form.getD [] else []

/-- The background turns that are reported. -/
def backgroundTurns : List ClaudeBackgroundTurn :=
  passing.closed ++ match passing.destination with
    | .unsolicited =>
      if passing.budget = .closing then
        (passing.active.map fun active => (passing.pushed active).finish true).toList
      else []
    | .background => [(passing.pushed .default).finish true]
    | _ => []

/-- The background turn that is left open. -/
def unsolicited : Option UnsolicitedTurn :=
  match passing.destination with
  | .unsolicited => if passing.budget = .closing then none else passing.active.map passing.pushed
  | _ => passing.active

/-- The background turn that the line is for. -/
def receiver : Option UnsolicitedTurn :=
  match passing.destination with
  | .unsolicited => passing.active
  | .background => some .default
  | _ => none

/-- **The line is dropped**, as there is no room for it. -/
def dropped : Bool :=
  passing.receiver.any fun active => passing.form.any fun form => !(active.push form passing.budget).2

end Passing

/-- A background turn that goes on, or is opened. -/
def Continues : Option UnsolicitedTurn → Option UnsolicitedTurn → Prop
  | none, after => ∀ active, after = some active → active.output = [] ∧ active.truncated = false
  | some active, after => ∃ next, after = some next ∧ next.output = active.output ∧
      (active.truncated → next.truncated)

lemma Continues.refl (active) : Continues active active := by
  cases active with
  | none => exact nofun
  | some active => exact ⟨active, rfl, rfl, id⟩

namespace Router

variable (router : Router φ) (env : Platform ν φ) (message : Json ν)

/-- What is passed on where a destination is known. -/
def passingTo (destination : Destination) (line : List UInt8) : Passing :=
  let shown := if destination = .unsolicited then backgroundLine env message line else some line
  { closed := []
    active := router.unsolicited
    destination := destination
    form := shown.map fun line => (router.normalizeCost env destination message line).1
    budget := if destination = .background then .closing else .of message }

/-- How a message is passed on. -/
def messagePassing (line : List UInt8) : Passing :=
  let classified := (router.beforeClassify env message .default).1.classify message .default
  let next := classified.1.1
  let destination := (next.noteRun classified.2 next.owned message).delivery classified.2 message
  { next.passingTo env message destination line with closed := classified.1.2.backgroundTurns }

/-- How a line is passed on.  One that is no message cuts a background turn short. -/
def passing (line : List UInt8) : Passing :=
  match env.fromSlice line with
  | some message => router.messagePassing env message line
  | none =>
    match router.unsolicited with
    | some active => ⟨[], some { active with truncated := true }, .discard, some line, .activity⟩
    | none => ⟨[], none, router.attachedDestination, some line, .activity⟩

/-- The background turn and the costs are left. -/
structure Keeps (router next : Router φ) : Prop where
  unsolicited_eq : next.unsolicited = router.unsolicited
  costBaseline_eq : next.costBaseline = router.costBaseline

lemma Keeps.refl : Keeps router router := ⟨rfl, rfl⟩

variable {router} in
lemma Keeps.trans {middle next} (h : Keeps router middle) (h' : Keeps middle next) : Keeps router next :=
  ⟨h'.unsolicited_eq.trans h.unsolicited_eq, h'.costBaseline_eq.trans h.costBaseline_eq⟩

lemma keeps_acknowledgesInterrupt : Keeps router (router.acknowledgesInterrupt message).1 := by
  unfold acknowledgesInterrupt
  dsimp only
  split_ifs <;> exact ⟨rfl, rfl⟩

lemma keeps_noteToolResult : Keeps router (router.noteToolResult message) := by
  unfold noteToolResult
  split_ifs <;> exact ⟨rfl, rfl⟩

lemma keeps_settleReadyWhen (test : Bool) : Keeps router (router.settleReadyWhen test).1 := by
  unfold settleReadyWhen settleReady
  dsimp only
  split_ifs <;> exact ⟨rfl, rfl⟩

lemma keeps_settleWhen (settled viaInterrupt : Bool) (step) :
    Keeps router (router.settleWhen settled viaInterrupt step).1 := by
  unfold settleWhen recordSettlement detach
  dsimp only
  split_ifs <;> exact ⟨rfl, rfl⟩

lemma keeps_beforeClassify (step) : Keeps router (router.beforeClassify env message step).1 := by
  have hexp : Keeps router (((router.acknowledgesInterrupt message).1.noteToolResult
      message).expireLevelEnded env message).1 :=
    ((router.keeps_acknowledgesInterrupt message).trans (keeps_noteToolResult _ message)).trans ⟨rfl, rfl⟩
  exact (hexp.trans (keeps_settleReadyWhen _ _)).trans (keeps_settleWhen _ _ _ _)

lemma keeps_noteRun (destination) (owned : Bool) : Keeps router (router.noteRun destination owned message) := by
  unfold noteRun
  split_ifs <;> exact ⟨rfl, rfl⟩

lemma keeps_noteResets (resets : ℕ) : Keeps router (router.noteResets resets) := by
  unfold noteResets
  split_ifs <;> exact ⟨rfl, rfl⟩

lemma keeps_noteWakeUps (wakeUps : ℕ) : Keeps router (router.noteWakeUps wakeUps) := by
  unfold noteWakeUps noteWakeUp
  split_ifs <;> exact ⟨rfl, rfl⟩

lemma keeps_observe (destination) (owned : Bool) : Keeps router (router.observe env destination owned message).1 := by
  have hdet : Keeps router
      { router with detector := (router.observed env destination owned message).1 } := ⟨rfl, rfl⟩
  exact (hdet.trans (keeps_noteResets _ _)).trans (keeps_noteWakeUps _ _)

lemma keeps_promoteUnconsumedWakeUp : Keeps router router.promoteUnconsumedWakeUp := by
  unfold promoteUnconsumedWakeUp
  split_ifs <;> exact ⟨rfl, rfl⟩

lemma keeps_conclude (finishesCommand : Bool) (outcome) (step) :
    Keeps router (router.conclude finishesCommand outcome step).1 := by
  unfold conclude
  cases outcome with
  | error error => exact .refl router
  | ok natural =>
    have hcmd : Keeps router (if finishesCommand then
        { router with detector := router.detector.commandFinished } else router) := by
      split_ifs <;> exact ⟨rfl, rfl⟩
    have hready (next : Router φ) : Keeps next (if natural then (next, true, false)
        else next.settleReadyWhen next.owned).1 := by
      split_ifs
      · exact .refl next
      · exact keeps_settleReadyWhen _ _
    exact ((hcmd.trans (hready _)).trans (keeps_settleWhen _ _ _ _)).trans (keeps_promoteUnconsumedWakeUp _)

lemma normalizeCost_congr {router next : Router φ} (h : next.costBaseline = router.costBaseline)
    (destination) (line) :
    next.normalizeCost env destination message line = router.normalizeCost env destination message line := by
  unfold normalizeCost
  rw [h]

end Router

/-- Nothing is passed on. -/
structure RouterStep.PassesNothing (step : RouterStep) : Prop where
  turnOutput_eq : step.turnOutput = []
  backgroundTurns_eq : step.backgroundTurns = []

lemma RouterStep.PassesNothing.default : PassesNothing default := ⟨rfl, rfl⟩

lemma RouterStep.PassesNothing.merge {step later : RouterStep} (h : step.PassesNothing)
    (h' : later.PassesNothing) : (step.merge later).PassesNothing := by
  unfold RouterStep.merge
  exact ⟨by rw [h.turnOutput_eq, h'.turnOutput_eq]; rfl, by rw [h.backgroundTurns_eq, h'.backgroundTurns_eq]; rfl⟩

namespace Router

variable (router : Router φ) (env : Platform ν φ) (message : Json ν)

lemma passesNothing_settleWhen (settled viaInterrupt : Bool) :
    (router.settleWhen settled viaInterrupt .default).2.PassesNothing := by
  unfold settleWhen recordSettlement
  split_ifs <;> exact ⟨rfl, rfl⟩

lemma passesNothing_beforeClassify : (router.beforeClassify env message .default).2.PassesNothing := by
  unfold beforeClassify
  rw [uniform_settleWhen]
  refine RouterStep.PassesNothing.merge ?_ (passesNothing_settleWhen _ _ _)
  unfold RouterStep.acknowledge
  split_ifs <;> exact ⟨rfl, rfl⟩

variable (finishesCommand : Bool)

lemma passesNothing_conclude (outcome) : (router.conclude finishesCommand outcome .default).2.PassesNothing := by
  cases outcome with
  | error error => exact ⟨rfl, rfl⟩
  | ok natural => exact passesNothing_settleWhen _ _ _

lemma keeps_chargeCost (accepted : Bool) (total) :
    (router.chargeCost accepted total).unsolicited = router.unsolicited := by
  cases total <;> cases accepted <;> rfl

lemma of_eq_closing : BudgetClass.of message = .closing ↔ rootResult message := by
  unfold BudgetClass.of
  split_ifs with hres hanswer
  · exact ⟨fun _ => hres, fun _ => rfl⟩
  · exact ⟨nofun, fun h => absurd h hres⟩
  · exact ⟨nofun, fun h => absurd h hres⟩

/-- The report of a line is as its passing says. -/
structure Passes (passing : Passing) (routed : Router φ × RouterStep) : Prop where
  turnOutput_eq : routed.2.turnOutput = passing.turnOutput
  backgroundTurns_eq : routed.2.backgroundTurns = passing.backgroundTurns
  unsolicited_eq : routed.1.unsolicited = passing.unsolicited

variable (line : List UInt8)

lemma forward_unsolicited :
    (router.forward env .unsolicited message line .default).2 = .default ∧
      (router.forward env .unsolicited message line .default).1.unsolicited =
        router.unsolicited.map (router.passingTo env message .unsolicited line).pushed := by
  unfold forward passingTo Passing.pushed
  rw [if_pos rfl, if_neg (by decide)]
  cases backgroundLine env message line with
  | none => exact ⟨rfl, Option.map_id'.symm⟩
  | some shown =>
    rw [keeps_chargeCost]
    unfold deliver
    cases hact : router.unsolicited with
    | none => exact ⟨rfl, hact⟩
    | some active => exact ⟨rfl, rfl⟩

/-- **A line is passed on**, and a result ends the background turn that it is for. -/
theorem passes_forward (destination) (line) :
    Passes (router.passingTo env message destination line)
      ((router.forward env destination message line .default).1.emitWhen
        (destination = .unsolicited && rootResult message)
        (router.forward env destination message line .default).2) := by
  cases destination with
  | turn => exact ⟨rfl, rfl, keeps_chargeCost _ _ _⟩
  | command => exact ⟨rfl, rfl, keeps_chargeCost _ _ _⟩
  | discard => exact ⟨rfl, rfl, keeps_chargeCost _ _ _⟩
  | background => exact ⟨rfl, rfl, keeps_chargeCost _ _ _⟩
  | unsolicited =>
    obtain ⟨hstep, hact⟩ := router.forward_unsolicited env message line
    have hbudget : (router.passingTo env message .unsolicited line).budget = .of message := rfl
    have hends : (decide (Destination.unsolicited = .unsolicited) && rootResult message) =
        decide ((router.passingTo env message .unsolicited line).budget = .closing) := by
      rw [decide_eq_true rfl, Bool.true_and, Bool.eq_iff_iff, decide_eq_true_iff, hbudget, of_eq_closing]
    rw [hends, hstep]
    set passing := router.passingTo env message .unsolicited line with hpassing
    have hopen : passing.active = router.unsolicited := rfl
    have hdest : passing.destination = .unsolicited := rfl
    have hcl : passing.closed = [] := rfl
    set next := (router.forward env .unsolicited message line .default).1
    by_cases hcls : passing.budget = .closing
    · rw [decide_eq_true hcls]
      unfold emitWhen emitUnsolicited
      rw [if_pos rfl, hact]
      refine ⟨?_, ?_, ?_⟩
      · unfold Passing.turnOutput
        cases router.unsolicited <;> rfl
      · unfold Passing.backgroundTurns
        rw [hdest, hcl, hopen]
        rw [if_pos hcls]
        cases router.unsolicited <;> rfl
      · unfold Passing.unsolicited
        rw [if_pos hcls]
        cases hnone : router.unsolicited with
        | none =>
          rw [hnone] at hact
          exact hact
        | some active => rfl
    · rw [decide_eq_false hcls]
      refine ⟨?_, ?_, ?_⟩
      · unfold Passing.turnOutput
        rfl
      · unfold Passing.backgroundTurns
        rw [if_neg hcls]
        rfl
      · unfold Passing.unsolicited
        rw [if_neg hcls, hopen]
        exact hact

variable {destination : Destination}

lemma delivery_eq_unsolicited : router.delivery destination message = .unsolicited ↔ destination = .unsolicited := by
  unfold delivery
  split_ifs with h
  · exact .rfl
  · refine ⟨nofun, fun hunsol => ?_⟩
    subst hunsol
    exact absurd (.inl (by decide)) h

lemma passingTo_congr {router next : Router φ} (h : Keeps router next) (destination)
    (line) :
    next.passingTo env message destination line = router.passingTo env message destination line := by
  unfold passingTo
  rw [h.unsolicited_eq]
  simp only [normalizeCost_congr env message h.costBaseline_eq]

lemma Passes.after {passing : Passing} {routed later : Router φ × RouterStep}
    (h : Passes passing routed) (hkeeps : Keeps routed.1 later.1) (hnothing : later.2.PassesNothing) :
    Passes passing (later.1, routed.2.merge later.2) where
  turnOutput_eq := by
    unfold RouterStep.merge
    rw [hnothing.turnOutput_eq, List.append_nil, h.turnOutput_eq]
  backgroundTurns_eq := by
    unfold RouterStep.merge
    rw [hnothing.backgroundTurns_eq, List.append_nil, h.backgroundTurns_eq]
  unsolicited_eq := hkeeps.unsolicited_eq.trans h.unsolicited_eq

lemma passes_routeClassified (destination)
    (line) :
    Passes (router.passingTo env message
        ((router.noteRun destination router.owned message).delivery destination message) line)
      (router.routeClassified env finishesCommand destination message line .default) := by
  unfold routeClassified
  set noted := router.noteRun destination router.owned message with hnoted
  set observed := noted.observe env destination router.owned message with hobs
  have hkeeps : Keeps router observed.1 :=
    (router.keeps_noteRun message destination router.owned).trans (keeps_observe _ _ _ _ _)
  have hends : decide (destination = .unsolicited) =
      decide (noted.delivery destination message = .unsolicited) :=
    decide_eq_decide.2 (delivery_eq_unsolicited noted message).symm
  have hpasses := observed.1.passes_forward env message (noted.delivery destination message) line
  rw [passingTo_congr env message hkeeps, ← hends] at hpasses
  rw [uniform_conclude]
  exact hpasses.after (keeps_conclude _ _ _ _) (passesNothing_conclude _ _ _)

/-- What is known of the background turn once a message has a destination. -/
structure Opens (classified : (Router φ × RouterStep) × Destination) : Prop where
  turnOutput_eq : classified.1.2.turnOutput = []
  continues :
    classified.1.2.backgroundTurns = [] ∧ Continues router.unsolicited classified.1.1.unsolicited ∨
      classified.2.forTurn ∧ classified.1.1.unsolicited = none ∧
        ∃ active, router.unsolicited = some active ∧ classified.1.2.backgroundTurns = [active.finish false]
  unsolicited : classified.2 = .unsolicited → classified.1.1.unsolicited.isSome
  background : classified.2 = .background → rootResult message ∧ classified.1.1.unsolicited = none

/-- What there is of a background turn, but for the answers that it has had. -/
def textOf (router : Router φ) : Option (List UInt8 × Bool) :=
  router.unsolicited.map fun active => (active.output, active.truncated)

lemma continues_of_textOf {router next : Router φ} (h : next.textOf = router.textOf) :
    Continues router.unsolicited next.unsolicited := by
  unfold textOf at h
  cases hact : router.unsolicited with
  | none =>
    rw [hact, Option.map_none] at h
    rw [Option.map_eq_none_iff.1 h]
    exact .refl none
  | some active =>
    rw [hact, Option.map_some] at h
    obtain ⟨after, haft, heq⟩ := Option.map_eq_some_iff.1 h
    obtain ⟨houtput, htr⟩ := Prod.mk.inj heq
    exact ⟨after, haft, houtput, htr.trans⟩

variable {router message} in
lemma opens_of_kept {next : Router φ} {step : RouterStep}
    (hturn : step.turnOutput = []) (htrn : step.backgroundTurns = [])
    (hnext : next.textOf = router.textOf) (hdest : destination ≠ .background)
    (hopen : destination = .unsolicited → next.unsolicited.isSome) :
    Opens router message ((next, step), destination) where
  turnOutput_eq := hturn
  continues := .inl ⟨htrn, continues_of_textOf hnext⟩
  unsolicited := hopen
  background := fun h => absurd h hdest

lemma ne_of_forTurn (h : destination.forTurn) : destination ≠ .background ∧ destination ≠ .unsolicited := by
  cases destination <;> first | exact ⟨by decide, by decide⟩ | cases h

variable {router message} in
lemma opens_of_forTurn {next}
    (hnext : next.textOf = router.textOf) (hdest : destination.forTurn) :
    Opens router message ((next, .default), destination) :=
  opens_of_kept rfl rfl hnext (ne_of_forTurn hdest).1 fun h =>
    absurd h (ne_of_forTurn hdest).2

variable {router message} in
lemma opens_of_discard {next} {step} (hturn : step.turnOutput = [])
    (htrn : step.backgroundTurns = []) (hnext : next.textOf = router.textOf) :
    Opens router message ((next, step), .discard) :=
  opens_of_kept hturn htrn hnext (by decide) nofun

variable {router message} in
lemma opens_attachedDestination {next} (hnext : next.textOf = router.textOf) :
    Opens router message ((next, .default), next.attachedDestination) := by
  unfold attachedDestination
  split_ifs
  · exact opens_of_forTurn hnext rfl
  · exact opens_of_discard rfl rfl hnext

variable {router message} in
lemma opens_emitUnsolicited {start next : Router φ}
    (hst : start.unsolicited = router.unsolicited)
    (hnext : next.unsolicited = (start.emitUnsolicited false .default).1.unsolicited)
    (hdest : destination.forTurn) :
    Opens router message ((next, (start.emitUnsolicited false .default).2), destination) := by
  unfold emitUnsolicited at hnext ⊢
  cases hact : start.unsolicited with
  | none =>
    rw [hact] at hnext
    refine opens_of_forTurn ?_ hdest
    unfold textOf
    rw [hnext, ← hst]
  | some active =>
    rw [hact] at hnext
    obtain ⟨hback, hunsol⟩ := ne_of_forTurn hdest
    exact {
      turnOutput_eq := rfl
      continues := .inr ⟨hdest, hnext, active, hst.symm.trans hact, rfl⟩
      unsolicited := fun h => absurd h hunsol
      background := fun h => absurd h hback }

lemma opens_openUnsolicited (hnone : router.unsolicited = none) :
    Opens router message ((router.openUnsolicited, .default), .unsolicited) where
  turnOutput_eq := rfl
  continues := by
    refine .inl ⟨rfl, ?_⟩
    rw [hnone]
    intro active hact
    cases hact
    exact ⟨rfl, rfl⟩
  unsolicited := fun _ => rfl
  background := nofun

lemma textOf_backgroundPermission : (router.backgroundPermission message).1.textOf = router.textOf := by
  unfold backgroundPermission
  split
  · rfl
  · rename_i active hact
    split_ifs
    · rfl
    · split
      · rfl
      · unfold textOf
        rw [hact]
        rfl

lemma textOf_unsupportedRequest : (router.unsupportedRequest message).1.textOf = router.textOf := by
  unfold unsupportedRequest
  split
  · rfl
  · split
    · rfl
    · split
      · rename_i active hact
        split
        · rfl
        · unfold textOf
          rw [hact]
          rfl
      · split <;> rfl

lemma isSome_of_backgroundPermission {next} {id}
    (h : router.backgroundPermission message = (next, some id)) : next.unsolicited.isSome := by
  unfold backgroundPermission at h
  split at h
  · cases h
  · split_ifs at h
    · cases h
    · split at h
      · cases h
      · cases h
        rfl

lemma opens_classifyControlRequest : Opens router message (router.classifyControlRequest message .default) := by
  unfold classifyControlRequest
  have hperm := router.textOf_backgroundPermission message
  split
  · exact opens_of_forTurn rfl rfl
  · split
    · rename_i next id heq
      rw [heq] at hperm
      exact opens_of_kept rfl rfl hperm (by decide) fun _ =>
        router.isSome_of_backgroundPermission message heq
    · rename_i next heq
      rw [heq] at hperm
      have hreq := next.textOf_unsupportedRequest message
      split
      · rename_i last heq'
        rw [heq'] at hreq
        exact opens_of_discard rfl rfl (hreq.trans hperm)
      · rename_i last id heq'
        rw [heq'] at hreq
        split
        · rename_i hopen
          exact opens_of_kept rfl rfl (hreq.trans hperm) (by decide) fun _ => hopen
        · exact opens_of_discard rfl rfl (hreq.trans hperm)

lemma opens_classifyLifecycle : Opens router message (router.classifyLifecycle message .default) := by
  unfold classifyLifecycle
  dsimp only
  split
  · exact opens_of_discard rfl rfl rfl
  · split
    · exact opens_of_discard rfl rfl rfl
    · split
      · exact opens_of_forTurn rfl rfl
      · split
        · exact opens_of_forTurn rfl rfl
        · split
          · exact opens_of_forTurn rfl rfl
          · split
            · exact opens_of_forTurn rfl rfl
            · exact opens_emitUnsolicited rfl rfl rfl

lemma opens_classifyOwned (kind) (hnone : router.unsolicited = none) :
    Opens router message
      (((router.classifyOwned kind message).1, .default), (router.classifyOwned kind message).2) := by
  unfold classifyOwned
  dsimp only
  split
  · rename_i hres
    exact {
      turnOutput_eq := rfl
      continues := .inl ⟨rfl, .refl _⟩
      unsolicited := nofun
      background := fun _ => ⟨hres, hnone⟩ }
  · split
    · exact opens_of_forTurn rfl rfl
    · split
      · exact opens_of_forTurn rfl rfl
      · split
        · exact router.opens_openUnsolicited message hnone
        · exact opens_of_forTurn rfl rfl

lemma opens_classify : Opens router message (router.classify message .default) := by
  unfold classify
  dsimp only
  split
  · exact router.opens_classifyLifecycle message
  · split
    · split
      · exact opens_of_discard rfl rfl rfl
      · exact opens_attachedDestination rfl
    · split
      · exact router.opens_classifyControlRequest message
      · split
        · exact opens_emitUnsolicited rfl rfl rfl
        · split
          · rename_i hopen
            split
            · exact opens_of_forTurn rfl rfl
            · exact opens_of_kept rfl rfl rfl (by decide) fun _ => hopen
          · rename_i hcl
            rw [Bool.not_eq_true, Option.isSome_eq_false_iff, Option.isNone_iff_eq_none] at hcl
            split
            · exact router.opens_classifyOwned message _ hcl
            · split
              · exact router.opens_openUnsolicited message hcl
              · exact opens_attachedDestination rfl

/-- **What is reported of a message is what its passing says.** -/
theorem passes_routeMessage :
    Passes (router.messagePassing env message line) (router.routeMessage env message line .default) := by
  have hnothing := router.passesNothing_beforeClassify env message
  unfold routeMessage messagePassing
  dsimp only
  set before := router.beforeClassify env message .default
  have hopens := before.1.opens_classify message
  have huniform := before.1.uniform_classify message before.2
  set classified := before.1.classify message .default
  rw [huniform]
  rw [uniform_routeClassified]
  have hpasses := classified.1.1.passes_routeClassified env message
    (before.1.finishesAttachedCommand message) classified.2 line
  refine ⟨?_, ?_, hpasses.unsolicited_eq⟩
  · unfold RouterStep.merge
    rw [hnothing.turnOutput_eq, hopens.turnOutput_eq]
    exact hpasses.turnOutput_eq
  · unfold RouterStep.merge
    rw [hnothing.backgroundTurns_eq, List.nil_append]
    exact congrArg _ hpasses.backgroundTurns_eq

/-- **What is reported of a line is what its passing says.** -/
theorem passes_routeLine : Passes (router.passing env line) (router.routeLine env line .default) := by
  unfold passing routeLine
  cases env.fromSlice line with
  | some message => exact router.passes_routeMessage env message line
  | none =>
    cases hact : router.unsolicited with
    | some active => exact ⟨rfl, rfl, rfl⟩
    | none =>
      dsimp only
      unfold attachedDestination
      split
      · exact ⟨rfl, rfl, hact⟩
      · exact ⟨rfl, rfl, hact⟩

end Router

/-- What is known of a line on its way, from the background turn that is open before it. -/
structure Passing.Sound (before : Option UnsolicitedTurn) (passing : Passing) : Prop where
  continues :
    passing.closed = [] ∧ Continues before passing.active ∨
      passing.active = none ∧ (passing.destination.forTurn ∨ passing.destination = .discard) ∧
        ∃ active, before = some active ∧ passing.closed = [active.finish false]
  unsolicited : passing.destination = .unsolicited → passing.active.isSome
  background : passing.destination = .background → passing.active = none ∧ passing.budget = .closing

namespace Router

variable (router : Router φ) (env : Platform ν φ) (message : Json ν)

lemma forTurn_or_discard {destination} (h : destination.forTurn) :
    (router.delivery destination message).forTurn ∨ router.delivery destination message = .discard := by
  unfold delivery
  split_ifs
  · exact .inl h
  · exact .inr rfl

lemma eq_background_of_delivery {destination}
    (h : router.delivery destination message = .background) : destination = .background := by
  unfold delivery at h
  split_ifs at h
  exact h

variable (line : List UInt8)

lemma sound_messagePassing : (router.messagePassing env message line).Sound router.unsolicited := by
  have hpre := (router.keeps_beforeClassify env message .default).unsolicited_eq
  set before := router.beforeClassify env message .default
  have hopens := before.1.opens_classify message
  set classified := before.1.classify message .default
  rw [← hpre]
  set noted := classified.1.1.noteRun classified.2 classified.1.1.owned message
  refine ⟨?_, fun h => ?_, fun h => ?_⟩
  · rcases hopens.continues with ⟨hcl, hcont⟩ | ⟨hfor, hnone, hact⟩
    · exact .inl ⟨hcl, hcont⟩
    · exact .inr ⟨hnone, noted.forTurn_or_discard message hfor, hact⟩
  · exact hopens.unsolicited ((noted.delivery_eq_unsolicited message).1 h)
  · exact ⟨(hopens.background (noted.eq_background_of_delivery message h)).2, if_pos h⟩

lemma sound_passing : (router.passing env line).Sound router.unsolicited := by
  unfold passing
  cases env.fromSlice line with
  | some message => exact router.sound_messagePassing env message line
  | none =>
    cases hact : router.unsolicited with
    | some active =>
      exact {
        continues := .inl ⟨rfl, { active with truncated := true }, rfl, rfl, fun _ => rfl⟩
        unsolicited := nofun
        background := nofun }
    | none =>
      dsimp only
      unfold attachedDestination
      split
      · exact ⟨.inl ⟨rfl, .refl none⟩, nofun, nofun⟩
      · exact ⟨.inl ⟨rfl, .refl none⟩, nofun, nofun⟩

end Router

end CodevoEditor.ClaudeSession
