/-
# The clock of the router

Routers that differ in the wake-up they expect and in what they have reported of background tasks
only (`Alike`) route alike.
-/

import CodevoEditor.ClaudeSession.Streams

namespace CodevoEditor.ClaudeSession

variable {ν φ : Type}

/-- The wake-up that is expected, and what has been reported of the background tasks. -/
structure Clock where
  backgroundRevision : ℕ
  backgroundOfferPending : Bool
  reportedBackground : ClaudeBackgroundTasks
  wakeUpPending : Bool
  wakeUpUnconsumed : Bool
  wakeUpExpectedSince : Option ℕ

def Clock.none : Clock := ⟨0, false, .default, false, false, .none⟩

namespace Router

variable (router : Router φ)

def clock : Clock where
  backgroundRevision := router.backgroundRevision
  backgroundOfferPending := router.backgroundOfferPending
  reportedBackground := router.reportedBackground
  wakeUpPending := router.wakeUpPending
  wakeUpUnconsumed := router.wakeUpUnconsumed
  wakeUpExpectedSince := router.wakeUpExpectedSince

def clocked (clock : Clock) : Router φ :=
  { router with
    backgroundRevision := clock.backgroundRevision
    backgroundOfferPending := clock.backgroundOfferPending
    reportedBackground := clock.reportedBackground
    wakeUpPending := clock.wakeUpPending
    wakeUpUnconsumed := clock.wakeUpUnconsumed
    wakeUpExpectedSince := clock.wakeUpExpectedSince }

/-- **Routers that differ in their clock only.** -/
def Alike (router other : Router φ) : Prop := router.clocked .none = other.clocked .none

lemma Alike.refl : Alike router router := rfl

lemma Alike.symm {router other : Router φ} (h : Alike router other) : Alike other router := Eq.symm h

lemma Alike.trans {router middle other : Router φ} (h : Alike router middle) (h' : Alike middle other) :
    Alike router other := Eq.trans h h'

lemma alike_clocked (clock : Clock) : Alike router (router.clocked clock) := rfl

lemma Alike.eq_clocked {router other : Router φ} (h : Alike router other) :
    ∃ clock, other = router.clocked clock := by
  refine ⟨other.clock, ?_⟩
  have hoth : other = (other.clocked .none).clocked other.clock := rfl
  rw [hoth, ← h]
  rfl

/-- Alike, and with the same beside it. -/
structure AlikeWith {β : Type} (routed other : Router φ × β) : Prop where
  alike : Alike routed.1 other.1
  beside : routed.2 = other.2

/-- Alike, with the same report and the same destination. -/
structure ClassifiedAlike (classified other : (Router φ × RouterStep) × Destination) : Prop where
  alike : AlikeWith classified.1 other.1
  destination : classified.2 = other.2

section Stages

variable (router : Router φ) (clock : Clock) (env : Platform ν φ) (message : Json ν)

lemma alike_consumeWakeUp : Alike router router.consumeWakeUp := rfl

lemma alike_noteWakeUp : Alike router router.noteWakeUp := by
  unfold noteWakeUp
  split_ifs <;> rfl

lemma alike_promoteUnconsumedWakeUp : Alike router router.promoteUnconsumedWakeUp := by
  unfold promoteUnconsumedWakeUp
  split_ifs <;> rfl

lemma alike_noteToolResult : Alike router (router.noteToolResult message) := by
  unfold noteToolResult
  split_ifs <;> rfl

lemma alike_noteResets (resets : ℕ) : Alike router (router.noteResets resets) := by
  unfold noteResets
  split_ifs <;> rfl

lemma alike_noteWakeUps (wakeUps : ℕ) : Alike router (router.noteWakeUps wakeUps) := by
  unfold noteWakeUps
  split_ifs
  · exact alike_noteWakeUp router
  · rfl

variable (now : ℕ)

lemma alike_refreshWakeUp : Alike router (router.refreshWakeUp now) := by
  unfold refreshWakeUp
  dsimp only
  split_ifs <;> rfl

/-- **The report at the end of a feed is a matter of the clock.** -/
theorem alike_backgroundChange : Alike router (router.backgroundChange now).1 := by
  refine (router.alike_refreshWakeUp now).trans ?_
  unfold backgroundChange
  dsimp only
  split_ifs <;> rfl

variable {router clock} {other : Router φ}

section

variable (h : Alike router other)
include h

lemma Alike.acknowledgesInterrupt :
    AlikeWith (router.acknowledgesInterrupt message) (other.acknowledgesInterrupt message) := by
  obtain ⟨clock, rfl⟩ := h.eq_clocked
  unfold Router.acknowledgesInterrupt clocked
  dsimp only
  split_ifs <;> exact ⟨rfl, rfl⟩

lemma Alike.expireLevelEnded :
    AlikeWith (router.expireLevelEnded env message) (other.expireLevelEnded env message) := by
  obtain ⟨clock, rfl⟩ := h.eq_clocked
  exact ⟨rfl, rfl⟩

lemma Alike.owned_eq : router.owned = other.owned := by
  obtain ⟨clock, rfl⟩ := h.eq_clocked
  rfl

variable (test : Bool)

lemma Alike.settleReadyWhen : AlikeWith (router.settleReadyWhen test) (other.settleReadyWhen test) := by
  obtain ⟨clock, rfl⟩ := h.eq_clocked
  unfold Router.settleReadyWhen settleReady clocked
  dsimp only
  split_ifs <;> exact ⟨rfl, rfl⟩

lemma Alike.detach : Alike router.detach other.detach := by
  obtain ⟨clock, rfl⟩ := h.eq_clocked
  rfl

lemma Alike.settleWhen (settled viaInterrupt : Bool) (step) :
    AlikeWith (router.settleWhen settled viaInterrupt step) (other.settleWhen settled viaInterrupt step) := by
  have hdetach (next : Router φ) : Alike next.detach (next.recordSettlement viaInterrupt step).1 := by
    unfold recordSettlement
    dsimp only
    split_ifs <;> rfl
  cases settled
  · exact ⟨h, rfl⟩
  · refine ⟨((hdetach router).symm.trans h.detach).trans (hdetach other), ?_⟩
    obtain ⟨clock, rfl⟩ := h.eq_clocked
    rfl

lemma Alike.noteToolResult : Alike (router.noteToolResult message) (other.noteToolResult message) :=
  ((router.alike_noteToolResult message).symm.trans h).trans (other.alike_noteToolResult message)

variable (step : RouterStep)

lemma Alike.beforeClassify :
    AlikeWith (router.beforeClassify env message step) (other.beforeClassify env message step) := by
  have hack := h.acknowledgesInterrupt message
  have hexp := (hack.alike.noteToolResult message).expireLevelEnded env message
  have hready := hexp.alike.settleReadyWhen ((((other.acknowledgesInterrupt message).1.noteToolResult
    message).expireLevelEnded env message).2 &&
      (((other.acknowledgesInterrupt message).1.noteToolResult message).expireLevelEnded env message).1.owned)
  unfold Router.beforeClassify
  dsimp only
  rw [hack.beside, hexp.beside, hexp.alike.owned_eq, hready.beside]
  exact hready.alike.settleWhen _ _ _

lemma Alike.openUnsolicited : Alike router.openUnsolicited other.openUnsolicited := by
  obtain ⟨clock, rfl⟩ := h.eq_clocked
  rfl

lemma Alike.attachedDestination_eq : router.attachedDestination = other.attachedDestination := by
  obtain ⟨clock, rfl⟩ := h.eq_clocked
  rfl

lemma Alike.attachedRunOwns_eq : router.attachedRunOwns message = other.attachedRunOwns message := by
  obtain ⟨clock, rfl⟩ := h.eq_clocked
  rfl

lemma Alike.namesOurResult_eq : router.namesOurResult message = other.namesOurResult message := by
  obtain ⟨clock, rfl⟩ := h.eq_clocked
  rfl

lemma Alike.unsolicited_eq : router.unsolicited = other.unsolicited := by
  obtain ⟨clock, rfl⟩ := h.eq_clocked
  rfl

lemma Alike.attached_eq : router.attached = other.attached := by
  obtain ⟨clock, rfl⟩ := h.eq_clocked
  rfl

variable (complete : Bool)

lemma Alike.emitUnsolicited (step) :
    AlikeWith (router.emitUnsolicited complete step) (other.emitUnsolicited complete step) := by
  obtain ⟨clock, rfl⟩ := h.eq_clocked
  unfold Router.emitUnsolicited clocked
  dsimp only
  split <;> exact ⟨rfl, rfl⟩

lemma Alike.backgroundPermission :
    AlikeWith (router.backgroundPermission message) (other.backgroundPermission message) := by
  obtain ⟨clock, rfl⟩ := h.eq_clocked
  unfold Router.backgroundPermission clocked
  dsimp only
  split
  · exact ⟨rfl, rfl⟩
  · split
    · exact ⟨rfl, rfl⟩
    · split <;> exact ⟨rfl, rfl⟩

lemma Alike.unsupportedRequest :
    AlikeWith (router.unsupportedRequest message) (other.unsupportedRequest message) := by
  obtain ⟨clock, rfl⟩ := h.eq_clocked
  unfold Router.unsupportedRequest clocked
  dsimp only
  split
  · exact ⟨rfl, rfl⟩
  · split
    · exact ⟨rfl, rfl⟩
    · split
      · split <;> exact ⟨rfl, rfl⟩
      · split <;> exact ⟨rfl, rfl⟩

lemma Alike.classifyControlRequest :
    ClassifiedAlike (router.classifyControlRequest message step) (other.classifyControlRequest message step) := by
  have hperm := h.backgroundPermission message
  unfold Router.classifyControlRequest
  rw [h.owned_eq]
  split
  · exact ⟨⟨h, rfl⟩, rfl⟩
  · generalize router.backgroundPermission message = permitted at hperm ⊢
    generalize other.backgroundPermission message = permitted' at hperm ⊢
    obtain ⟨next, id⟩ := permitted
    obtain ⟨next', id'⟩ := permitted'
    obtain rfl : id = id' := hperm.beside
    cases id with
    | some id => exact ⟨⟨hperm.alike, rfl⟩, rfl⟩
    | none =>
      have hreq : AlikeWith (next.unsupportedRequest message) (next'.unsupportedRequest message) :=
        Alike.unsupportedRequest message hperm.alike
      dsimp only
      generalize next.unsupportedRequest message = asked at hreq ⊢
      generalize next'.unsupportedRequest message = asked' at hreq ⊢
      obtain ⟨last, id⟩ := asked
      obtain ⟨last', id'⟩ := asked'
      obtain rfl : id = id' := hreq.beside
      have hlast : Alike last last' := hreq.alike
      cases id with
      | none => exact ⟨⟨hlast, rfl⟩, rfl⟩
      | some id =>
        refine ⟨⟨hlast, rfl⟩, ?_⟩
        dsimp only
        rw [hlast.unsolicited_eq]

lemma Alike.classifyOwned (kind) :
    AlikeWith (router.classifyOwned kind message) (other.classifyOwned kind message) := by
  obtain ⟨clock, rfl⟩ := h.eq_clocked
  unfold Router.classifyOwned clocked
  dsimp only
  split
  · exact ⟨rfl, rfl⟩
  · split
    · exact ⟨rfl, rfl⟩
    · split
      · exact ⟨rfl, rfl⟩
      · split <;> exact ⟨rfl, rfl⟩

lemma Alike.attach (attached) : Alike { router with attached := attached } { other with attached := attached } := by
  obtain ⟨clock, rfl⟩ := h.eq_clocked
  rfl

lemma Alike.classifyLifecycle :
    ClassifiedAlike (router.classifyLifecycle message step) (other.classifyLifecycle message step) := by
  obtain ⟨clock, rfl⟩ := h.eq_clocked
  unfold Router.classifyLifecycle namesCommand clocked
  dsimp only
  split
  · exact ⟨⟨rfl, rfl⟩, rfl⟩
  · split
    · exact ⟨⟨rfl, rfl⟩, rfl⟩
    · split
      · exact ⟨⟨rfl, rfl⟩, rfl⟩
      · split
        · exact ⟨⟨rfl, rfl⟩, rfl⟩
        · split
          · exact ⟨⟨rfl, rfl⟩, rfl⟩
          · split
            · exact ⟨⟨rfl, rfl⟩, rfl⟩
            · refine ⟨Alike.emitUnsolicited ?_ false step, rfl⟩
              exact rfl

/-- **Where a message goes is no matter of the clock.** -/
theorem Alike.classify : ClassifiedAlike (router.classify message step) (other.classify message step) := by
  have hemit := h.emitUnsolicited false step
  unfold Router.classify
  dsimp only
  by_cases hlife : message.strOf "type" = some "command_lifecycle"
  · rw [if_pos hlife, if_pos hlife]
    exact h.classifyLifecycle message step
  rw [if_neg hlife, if_neg hlife]
  by_cases hresp : message.strOf "type" = some "control_response"
  · rw [if_pos hresp, if_pos hresp]
    obtain ⟨clock, rfl⟩ := h.eq_clocked
    exact ⟨⟨rfl, rfl⟩, rfl⟩
  rw [if_neg hresp, if_neg hresp]
  by_cases hreq : message.strOf "type" = some "control_request" ∧ message.isRoot
  · rw [if_pos hreq, if_pos hreq]
    exact h.classifyControlRequest message step
  rw [if_neg hreq, if_neg hreq, h.namesOurResult_eq]
  split
  · have hlife : router.lifecycleSupported = other.lifecycleSupported := by
      obtain ⟨clock, rfl⟩ := h.eq_clocked
      rfl
    rw [hemit.alike.attached_eq, hemit.beside, hlife]
    exact ⟨⟨hemit.alike.attach _, rfl⟩, rfl⟩
  · have hown := h.classifyOwned message (message.strOf "type")
    have hopened := h.openUnsolicited
    have hatt := h.attachedDestination_eq
    rw [h.owned_eq, h.attachedRunOwns_eq, hatt, hown.beside]
    have hopen : router.unsolicited.isSome = other.unsolicited.isSome := by rw [h.unsolicited_eq]
    rw [hopen]
    split
    · exact ⟨⟨h, rfl⟩, rfl⟩
    · split
      · exact ⟨⟨hown.alike, rfl⟩, rfl⟩
      · split
        · exact ⟨⟨hopened, rfl⟩, rfl⟩
        · exact ⟨⟨h, rfl⟩, rfl⟩

variable (destination : Destination)

variable (owned : Bool)

lemma Alike.noteRun : Alike (router.noteRun destination owned message) (other.noteRun destination owned message) := by
  obtain ⟨clock, rfl⟩ := h.eq_clocked
  unfold Router.noteRun clocked
  split <;> rfl

lemma Alike.observe :
    AlikeWith (router.observe env destination owned message) (other.observe env destination owned message) := by
  have hclock (router : Router φ) : Alike
      { router with detector := (router.observed env destination owned message).1 }
      (router.observe env destination owned message).1 :=
    (alike_noteResets _ _).trans (alike_noteWakeUps _ _)
  refine ⟨((hclock router).symm.trans ?_).trans (hclock other), ?_⟩
  · obtain ⟨clock, rfl⟩ := h.eq_clocked
    rfl
  · obtain ⟨clock, rfl⟩ := h.eq_clocked
    rfl

lemma Alike.delivery_eq : router.delivery destination message = other.delivery destination message := by
  obtain ⟨clock, rfl⟩ := h.eq_clocked
  rfl

variable (line : List UInt8)

lemma Alike.deliver (budget)
    (step) :
    AlikeWith (router.deliver destination line budget step).1
        (other.deliver destination line budget step).1 ∧
      (router.deliver destination line budget step).2 = (other.deliver destination line budget step).2 := by
  obtain ⟨clock, rfl⟩ := h.eq_clocked
  unfold Router.deliver clocked
  cases destination <;> try exact ⟨⟨rfl, rfl⟩, rfl⟩
  dsimp only
  split <;> exact ⟨⟨rfl, rfl⟩, rfl⟩

lemma Alike.chargeCost (accepted : Bool) (total) :
    Alike (router.chargeCost accepted total) (other.chargeCost accepted total) := by
  obtain ⟨clock, rfl⟩ := h.eq_clocked
  cases total <;> cases accepted <;> rfl

lemma Alike.forward (step) :
    AlikeWith (router.forward env destination message line step)
      (other.forward env destination message line step) := by
  have hcost : router.costBaseline = other.costBaseline := by
    obtain ⟨clock, rfl⟩ := h.eq_clocked
    rfl
  unfold Router.forward
  dsimp only
  split
  · exact ⟨h, rfl⟩
  · rename_i shown heq
    have hprice : router.normalizeCost env destination message shown =
        other.normalizeCost env destination message shown := by
      unfold Router.normalizeCost
      rw [hcost]
    rw [hprice]
    obtain ⟨hdel, htkn⟩ := h.deliver destination
      (other.normalizeCost env destination message shown).1 (.of message) step
    rw [htkn]
    exact ⟨hdel.alike.chargeCost _ _, hdel.beside⟩

lemma Alike.emitWhen (step) : AlikeWith (router.emitWhen test step) (other.emitWhen test step) := by
  unfold Router.emitWhen
  split
  · exact h.emitUnsolicited true step
  · exact ⟨h, rfl⟩

lemma Alike.promoteUnconsumedWakeUp : Alike router.promoteUnconsumedWakeUp other.promoteUnconsumedWakeUp :=
  (router.alike_promoteUnconsumedWakeUp.symm.trans h).trans other.alike_promoteUnconsumedWakeUp

variable (finishesCommand : Bool)

lemma Alike.finishCommand :
    Alike (if finishesCommand then { router with detector := router.detector.commandFinished } else router)
      (if finishesCommand then { other with detector := other.detector.commandFinished } else other) := by
  obtain ⟨clock, rfl⟩ := h.eq_clocked
  split <;> rfl

lemma Alike.conclude (outcome) (step) :
    AlikeWith (router.conclude finishesCommand outcome step) (other.conclude finishesCommand outcome step) := by
  unfold Router.conclude
  cases outcome with
  | error error => exact ⟨h, rfl⟩
  | ok natural =>
    have hfin := h.finishCommand finishesCommand
    unfold afterForward
    dsimp only
    generalize (if finishesCommand then { router with detector := router.detector.commandFinished }
      else router) = next at hfin ⊢
    generalize (if finishesCommand then { other with detector := other.detector.commandFinished }
      else other) = next' at hfin ⊢
    have hready := hfin.settleReadyWhen next'.owned
    cases natural with
    | true =>
      have hstl := hfin.settleWhen true false step
      exact ⟨hstl.alike.promoteUnconsumedWakeUp, hstl.beside⟩
    | false =>
      rw [if_neg Bool.false_ne_true, if_neg Bool.false_ne_true, hfin.owned_eq, hready.beside]
      have hstl := hready.alike.settleWhen (next'.settleReadyWhen next'.owned).2.1
        (next'.settleReadyWhen next'.owned).2.2 step
      exact ⟨hstl.alike.promoteUnconsumedWakeUp, hstl.beside⟩

lemma Alike.routeClassified (destination)
    (line) (step) :
    AlikeWith (router.routeClassified env finishesCommand destination message line step)
      (other.routeClassified env finishesCommand destination message line step) := by
  have hnoted := h.noteRun message destination other.owned
  have hobs := hnoted.observe env message destination other.owned
  unfold Router.routeClassified
  dsimp only
  rw [h.owned_eq, hnoted.delivery_eq, hobs.beside]
  have hforward := hobs.alike.forward env message
    ((other.noteRun destination other.owned message).delivery destination message) line step
  rw [hforward.beside]
  have hemits := hforward.alike.emitWhen (destination = .unsolicited && rootResult message)
    (((other.noteRun destination other.owned message).observe env destination other.owned
      message).1.forward env ((other.noteRun destination other.owned message).delivery destination
        message) message line step).2
  rw [hemits.beside]
  exact hemits.alike.conclude _ _ _

lemma Alike.routeMessage (step) :
    AlikeWith (router.routeMessage env message line step) (other.routeMessage env message line step) := by
  have hpre := h.beforeClassify env message step
  have hclass := hpre.alike.classify message (other.beforeClassify env message step).2
  have hfinishes : (router.beforeClassify env message step).1.finishesAttachedCommand message =
      (other.beforeClassify env message step).1.finishesAttachedCommand message := by
    unfold finishesAttachedCommand
    rw [hpre.alike.attached_eq]
  unfold Router.routeMessage
  dsimp only
  rw [hpre.beside, hfinishes, hclass.destination, hclass.alike.beside]
  exact hclass.alike.alike.routeClassified env message _ _ line _

theorem Alike.routeLine (step) : AlikeWith (router.routeLine env line step) (other.routeLine env line step) := by
  unfold Router.routeLine
  cases env.fromSlice line with
  | some message => exact h.routeMessage env message line step
  | none =>
    dsimp only
    rw [h.unsolicited_eq]
    split
    · obtain ⟨clock, rfl⟩ := h.eq_clocked
      exact ⟨rfl, rfl⟩
    · rw [h.attachedDestination_eq]
      exact (h.deliver other.attachedDestination line .activity step).1

lemma Alike.overflow (step) : AlikeWith (router.overflow complete step) (other.overflow complete step) := by
  obtain ⟨clock, rfl⟩ := h.eq_clocked
  unfold Router.overflow clocked owned
  by_cases hcand : lifecycleCandidate router.line
  · rw [if_pos hcand, if_pos hcand]
    exact ⟨rfl, rfl⟩
  rw [if_neg hcand, if_neg hcand]
  by_cases hown : (router.unsolicited.isNone &&
      router.attached.any fun turn => turn.started || !router.lifecycleSupported)
  · rw [if_pos hown, if_pos hown]
    exact ⟨rfl, rfl⟩
  rw [if_neg hown, if_neg hown]
  cases router.unsolicited with
  | none => exact ⟨rfl, rfl⟩
  | some active => exact ⟨rfl, rfl⟩

theorem Alike.absorb (piece) (complete : Bool) (step) :
    AlikeWith (router.absorb env piece complete step) (other.absorb env piece complete step) := by
  have hby : router.mode = other.mode ∧ router.line = other.line := by
    obtain ⟨clock, rfl⟩ := h.eq_clocked
    exact ⟨rfl, rfl⟩
  have hheld line : Alike { router with line := line } { other with line := line } := by
    obtain ⟨clock, rfl⟩ := h.eq_clocked
    rfl
  by_cases hmode : router.mode = .buffering
  · rw [Stream.absorb_buffering env hmode, Stream.absorb_buffering env (hby.1.symm.trans hmode),
      hby.2]
    split
    · exact (hheld _).overflow complete step
    · split
      · exact ⟨hheld _, rfl⟩
      · exact (hheld []).routeLine env _ step
  · have hmode' : other.mode ≠ .buffering := fun h => hmode (hby.1.trans h)
    rw [Stream.absorb_long env hmode, Stream.absorb_long env hmode', hby.1]
    obtain ⟨clock, rfl⟩ := h.eq_clocked
    exact ⟨rfl, rfl⟩

end

end Stages

end Router

end CodevoEditor.ClaudeSession
