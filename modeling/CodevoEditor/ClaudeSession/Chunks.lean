/-
# Chunks

However the bytes of a session are cut into chunks, the same is reported, and the router that is
left differs in its clock only.
-/

import CodevoEditor.ClaudeSession.Clock
import CodevoEditor.ClaudeSession.GrownResult

namespace CodevoEditor.ClaudeSession

open List Option Bool

variable {ν φ : Type}

namespace Router

/-- The same report, and the same router where nothing has failed. -/
structure Agrees (routed other : Router φ × RouterStep) : Prop where
  step_eq : routed.2 = other.2
  router_eq : routed.2.failure = none → routed.1 = other.1

lemma Agrees.refl (routed : Router φ × RouterStep) : Agrees routed routed := ⟨rfl, fun _ => rfl⟩

variable (env : Platform ν φ)

/-- Bytes one by one, up to the first failure. -/
def feedBytes : List UInt8 → Router φ × RouterStep → Router φ × RouterStep
  | [], routed => routed
  | byte :: bytes, (router, step) =>
    if step.failure.isSome then (router, step)
    else feedBytes bytes (router.absorb env [byte] (byte = newline) step)

variable (bytes : List UInt8)

lemma feedBytes_failed {routed} (h : routed.2.failure.isSome) : feedBytes env bytes routed = routed := by
  cases bytes with
  | nil => rfl
  | cons byte bytes =>
    exact if_pos h

variable {router : Router φ} {step : RouterStep}

lemma feedBytes_cons (byte : UInt8) (bytes)
    (h : step.failure = none) : feedBytes env (byte :: bytes) (router, step) =
      feedBytes env bytes (router.absorb env [byte] (byte = newline) step) := by
  rw [feedBytes, if_neg (by rw [h]; decide)]

lemma feedBytes_append (front back) (routed) :
    feedBytes env (front ++ back) routed = feedBytes env back (feedBytes env front routed) := by
  induction front generalizing routed with
  | nil => rfl
  | cons byte front ih =>
    obtain ⟨router, step⟩ := routed
    by_cases hfail : step.failure.isSome
    · rw [feedBytes_failed env _ hfail, feedBytes_failed env (byte :: front) hfail,
        feedBytes_failed env back hfail]
    · have hnone : step.failure = none := not_isSome_iff_eq_none.1 hfail
      rw [cons_append, feedBytes_cons env byte _ hnone, feedBytes_cons env byte _ hnone, ih]

lemma lifecycleCandidate_append {line} (h : maxRoutedLineBytes < line.length)
    (rest) : lifecycleCandidate (line ++ rest) = lifecycleCandidate line := by
  have hkind {kind : List UInt8} (hsht : kind.length ≤ 64) :
      kind.isPrefixOf (line ++ rest) = kind.isPrefixOf line := by
    have hlong : 64 ≤ maxRoutedLineBytes := by decide
    rw [Bool.eq_iff_iff, List.isPrefixOf_iff_prefix, List.isPrefixOf_iff_prefix]
    refine ⟨fun hpre => ?_, fun hpre => hpre.trans (prefix_append _ _)⟩
    exact prefix_of_prefix_length_le hpre (prefix_append _ _) (by omega)
  unfold lifecycleCandidate
  rw [hkind (by decide), hkind (by decide), hkind (by decide)]

/-! What overflows fails, is passed on or is skipped. -/

lemma overflow_of_candidate (h : lifecycleCandidate router.line)
    (complete : Bool) (step) :
    router.overflow complete step =
      ({ router with line := [], mode := if complete then .buffering else .skipping },
        { step with failure := some oversizedFrameError }) := by
  unfold overflow
  rw [if_pos h]

lemma overflow_of_owned (h : ¬ lifecycleCandidate router.line)
    (hown : router.owned) (complete : Bool) (step) :
    router.overflow complete step =
      ({ router with line := [], mode := if complete then .buffering else .streaming },
        { step with turnOutput := step.turnOutput ++ router.line }) := by
  have howned' : Router.owned { router with
      line := [], mode := if complete then .buffering else .skipping } := hown
  unfold overflow
  rw [if_neg h, if_pos howned']

lemma overflow_of_other (h : ¬ lifecycleCandidate router.line)
    (hown : ¬ router.owned) (complete : Bool) (step) :
    router.overflow complete step =
      ({ router with
        line := [], mode := if complete then .buffering else .skipping
        unsolicited := router.unsolicited.map fun active => { active with truncated := true } }, step) := by
  have howned' : ¬ Router.owned { router with
      line := [], mode := if complete then .buffering else .skipping } := hown
  unfold overflow
  rw [if_neg h, if_neg howned']
  cases router.unsolicited <;> rfl

/-- `later` may follow `first` in place of `whole`. -/
structure Splits (first whole later : Router φ × RouterStep) : Prop where
  failed : first.2.failure ≠ none → whole.2 = first.2
  went : first.2.failure = none → whole = later

lemma splits_overflow (hstep : step.failure = none)
    (hlong : maxRoutedLineBytes < router.line.length) (rest) (complete : Bool) :
    Splits (router.overflow false step)
      ({ router with line := router.line ++ rest }.overflow complete step)
      ((router.overflow false step).1.absorb env rest complete (router.overflow false step).2) := by
  have hcand := lifecycleCandidate_append hlong rest
  by_cases hlife : lifecycleCandidate router.line
  · have hwh : ({ router with line := router.line ++ rest } : Router φ).overflow complete step =
        ({ router with line := [], mode := if complete then .buffering else .skipping },
          { step with failure := some oversizedFrameError }) :=
      overflow_of_candidate (hcand.trans hlife) complete step
    rw [overflow_of_candidate hlife, hwh]
    exact ⟨fun _ => rfl, nofun⟩
  have hlife' : ¬ lifecycleCandidate (router.line ++ rest) := by rwa [hcand]
  have howned' : ({ router with line := router.line ++ rest } : Router φ).owned = router.owned := rfl
  by_cases hown : router.owned
  · have hwh : ({ router with line := router.line ++ rest } : Router φ).overflow complete step =
        ({ router with line := [], mode := if complete then .buffering else .streaming },
          { step with turnOutput := step.turnOutput ++ (router.line ++ rest) }) :=
      overflow_of_owned hlife' (howned' ▸ hown) complete step
    have hlat : ({ router with line := [], mode := .streaming } : Router φ).absorb env rest complete
        { step with turnOutput := step.turnOutput ++ router.line } =
          ({ router with line := [], mode := if complete then .buffering else .streaming },
            { step with turnOutput := (step.turnOutput ++ router.line) ++ rest }) :=
      Stream.absorb_long env (fun h => by cases h) rest complete _
    rw [overflow_of_owned hlife hown, hwh]
    refine ⟨fun h => absurd hstep h, fun _ => ?_⟩
    rw [← append_assoc]
    exact hlat.symm
  · have hwh : ({ router with line := router.line ++ rest } : Router φ).overflow complete step =
        ({ router with
          line := [], mode := if complete then .buffering else .skipping
          unsolicited := router.unsolicited.map fun active => { active with truncated := true } }, step) :=
      overflow_of_other hlife' (howned' ▸ hown) complete step
    have hlat : ({ router with
        line := [], mode := .skipping
        unsolicited := router.unsolicited.map fun active =>
          { active with truncated := true } } : Router φ).absorb env rest complete step =
        ({ router with
          line := [], mode := if complete then .buffering else .skipping
          unsolicited := router.unsolicited.map fun active => { active with truncated := true } }, step) :=
      Stream.absorb_long env (fun h => by cases h) rest complete step
    rw [overflow_of_other hlife hown, hwh]
    exact ⟨fun h => absurd hstep h, fun _ => hlat.symm⟩

/-- **The first byte of a piece may come before the rest.** -/
theorem splits_absorb (router : Router φ) {byte} {piece} {complete}
    (hstep : step.failure = none) (hpiece : complete = true → piece ≠ []) :
    Splits (router.absorb env [byte] false step) (router.absorb env (byte :: piece) complete step)
      ((router.absorb env [byte] false step).1.absorb env piece complete
        (router.absorb env [byte] false step).2) := by
  by_cases hmode : router.mode = .buffering
  · have hlen : complete.toNat ≤ piece.length := by
      cases complete
      · exact Nat.zero_le _
      · exact length_pos_iff.2 (hpiece rfl)
    have hline : router.line ++ byte :: piece = (router.line ++ [byte]) ++ piece := by
      rw [append_assoc]
      rfl
    by_cases hlong : maxRoutedLineBytes < (router.line ++ [byte]).length
    · have hfst : router.absorb env [byte] false step =
          { router with line := router.line ++ [byte] }.overflow false step := by
        rw [Stream.absorb_buffering env hmode, if_pos]
        exact hlong
      have hwh : router.absorb env (byte :: piece) complete step =
          { router with line := (router.line ++ [byte]) ++ piece }.overflow complete step := by
        rw [Stream.absorb_buffering env hmode, hline, if_pos]
        rw [length_append]
        omega
      rw [hfst, hwh]
      exact splits_overflow env hstep hlong piece complete
    · have hfst : router.absorb env [byte] false step = ({ router with line := router.line ++ [byte] }, step) := by
        rw [Stream.absorb_buffering env hmode, toNat_false, Nat.sub_zero, if_neg hlong, if_pos Bool.not_false]
      have hmode' : ({ router with line := router.line ++ [byte] } : Router φ).mode = .buffering := hmode
      rw [hfst]
      refine ⟨fun h => absurd hstep h, fun _ => ?_⟩
      rw [Stream.absorb_buffering env hmode, Stream.absorb_buffering env hmode', hline]
  · have hfst : router.absorb env [byte] false step = (router,
        if router.mode = .streaming then { step with turnOutput := step.turnOutput ++ [byte] } else step) :=
      Stream.absorb_long env hmode [byte] false step
    have hnone : (router.absorb env [byte] false step).2.failure = none := by
      rw [hfst]
      split <;> exact hstep
    refine ⟨fun h => absurd hnone h, fun _ => ?_⟩
    rw [hfst]
    by_cases hstr : router.mode = .streaming
    · rw [if_pos hstr, Stream.absorb_long env hmode, Stream.absorb_long env hmode,
        if_pos hstr, if_pos hstr, append_assoc]
      rfl
    · rw [if_neg hstr, Stream.absorb_long env hmode, Stream.absorb_long env hmode,
        if_neg hstr, if_neg hstr]

lemma getLast?_cons_of_ne_nil {byte : UInt8} {piece : List UInt8} (h : piece ≠ []) :
    (byte :: piece).getLast? = piece.getLast? := by
  cases piece with
  | nil => exact absurd rfl h
  | cons next piece => exact getLast?_cons_cons

theorem feedPieces_bytes (chunk : List UInt8) (router : Router φ) (hstep : step.failure = none) :
    Agrees (feedPieces env (pieces chunk) (router, step)) (feedBytes env chunk (router, step)) := by
  induction chunk generalizing router step with
  | nil => exact .refl _
  | cons byte chunk ih =>
    have hrest routed : Agrees (feedPieces env (pieces chunk) routed) (feedBytes env chunk routed) := by
      obtain ⟨next, later⟩ := routed
      by_cases hlat : later.failure.isSome = true
      · rw [feedPieces_failed env _ hlat, feedBytes_failed env _ hlat]
        exact .refl _
      · exact ih next (not_isSome_iff_eq_none.1 hlat)
    have hcons piece rest routed
        (hnone : routed.2.failure = none) : feedPieces env (piece :: rest) routed =
          feedPieces env rest (routed.1.absorb env piece (piece.getLast? = some newline) routed.2) := by
      obtain ⟨next, later⟩ := routed
      rw [feedPieces, if_neg (by rw [hnone]; decide)]
    rw [feedBytes_cons env byte chunk hstep]
    unfold pieces
    by_cases hbyte : byte = newline
    · rw [if_pos hbyte, hcons _ _ _ hstep]
      have hlast : ([byte].getLast? = some newline) = (byte = newline) := by
        rw [getLast?_singleton, some.injEq]
      simp only [hlast]
      exact hrest _
    rw [if_neg hbyte]
    cases hpieces : pieces chunk with
    | nil =>
      have hchunk : chunk = [] := by rw [← flatten_pieces chunk, hpieces]; rfl
      have hlast : ([byte].getLast? = some newline) = (byte = newline) := by
        rw [getLast?_singleton, some.injEq]
      rw [hcons _ _ _ hstep, hchunk]
      simp only [hlast]
      exact .refl _
    | cons piece rest =>
      have hpiece : piece ≠ [] := by
        have hmem : piece ∈ pieces chunk := by
          rw [hpieces]
          exact mem_cons_self
        exact (isPiece_of_mem hmem).1
      have hsplits : Splits (router.absorb env [byte] false step)
          (router.absorb env (byte :: piece) (piece.getLast? = some newline) step)
          ((router.absorb env [byte] false step).1.absorb env piece (piece.getLast? = some newline)
            (router.absorb env [byte] false step).2) := splits_absorb env router hstep fun _ => hpiece
      have hfst : decide (byte = newline) = false := decide_eq_false hbyte
      rw [hcons _ _ _ hstep, getLast?_cons_of_ne_nil hpiece, hfst]
      by_cases hfailed : (router.absorb env [byte] false step).2.failure = none
      · rw [hsplits.went hfailed, ← hcons piece rest _ hfailed, ← hpieces]
        exact hrest _
      · have hwh := hsplits.failed hfailed
        have hsome : (router.absorb env [byte] false step).2.failure.isSome = true := isSome_iff_ne_none.2 hfailed
        rw [feedBytes_failed env chunk hsome, feedPieces_failed env rest (by rw [hwh]; exact hsome)]
        exact ⟨hwh, fun hnone => absurd (by rw [← hwh]; exact hnone) hfailed⟩

lemma feedBytes_merge (router)
    (hstep : step.failure = none) : feedBytes env bytes (router, step) =
      ((feedBytes env bytes (router, .default)).1, step.merge (feedBytes env bytes (router, .default)).2) := by
  induction bytes generalizing router step with
  | nil => exact Prod.ext rfl (RouterStep.merge_default step).symm
  | cons byte bytes ih =>
    rw [feedBytes_cons env byte bytes hstep, feedBytes_cons env byte bytes rfl,
      uniform_absorb router env [byte] _ step]
    generalize router.absorb env [byte] (byte = newline) .default = absorbed
    obtain ⟨next, later⟩ := absorbed
    have hfail : (step.merge later).failure = later.failure := by
      unfold RouterStep.merge
      rw [hstep, or_none]
    by_cases hlat : later.failure.isSome
    · rw [feedBytes_failed env bytes (by rw [hfail]; exact hlat), feedBytes_failed env bytes hlat]
    · have hnone := not_isSome_iff_eq_none.1 hlat
      rw [ih next (hfail.trans hnone), ih next hnone, RouterStep.merge_assoc]

theorem absorbs_feedBytes {routed} (h : Absorbs router routed) : Absorbs router (feedBytes env bytes routed) := by
  induction bytes generalizing routed with
  | nil => exact h
  | cons byte bytes ih =>
    obtain ⟨next, step⟩ := routed
    by_cases hfail : step.failure.isSome
    · rw [feedBytes_failed env _ hfail]
      exact h
    · rw [feedBytes_cons env byte bytes (not_isSome_iff_eq_none.1 hfail),
        uniform_absorb next env [byte] _ step]
      exact ih (h.merge (absorbs_absorb env next [byte] _))

theorem Alike.feedBytes {router other} (h : Alike router other)
    (step) :
    AlikeWith (Router.feedBytes env bytes (router, step)) (Router.feedBytes env bytes (other, step)) := by
  induction bytes generalizing router other step with
  | nil => exact ⟨h, rfl⟩
  | cons byte bytes ih =>
    by_cases hfail : step.failure.isSome
    · rw [feedBytes_failed env _ hfail, feedBytes_failed env _ hfail]
      exact ⟨h, rfl⟩
    · have hnone := not_isSome_iff_eq_none.1 hfail
      have habsorb := h.absorb env [byte] (byte = newline) step
      rw [feedBytes_cons env byte bytes hnone, feedBytes_cons env byte bytes hnone]
      generalize router.absorb env [byte] (byte = newline) step = absorbed at habsorb ⊢
      generalize other.absorb env [byte] (byte = newline) step = absorbed' at habsorb ⊢
      obtain ⟨next, later⟩ := absorbed
      obtain ⟨next', later'⟩ := absorbed'
      obtain rfl : later = later' := habsorb.beside
      exact ih habsorb.alike later

end Router

namespace RouterStep

/-- What is reported, but for the background tasks: these are a matter of the clock. -/
def timeless (step : RouterStep) : RouterStep := { step with backgroundTasks := none }

/-- What some steps report together. -/
def joined (steps : List RouterStep) : RouterStep where
  turnOutput := steps.flatMap turnOutput
  settled := steps.any settled
  interrupted := steps.any interrupted
  cancelled := steps.any cancelled
  resultFailed := steps.any resultFailed
  interruptAcknowledged := steps.any interruptAcknowledged
  unownedActivity := steps.any unownedActivity
  backgroundTurns := steps.flatMap backgroundTurns
  backgroundTasks := none
  permissionDenials := steps.flatMap permissionDenials
  unsupportedRequests := steps.flatMap unsupportedRequests
  failure := steps.findSome? failure

lemma joined_singleton (step) : joined [step] = step.timeless := by
  unfold joined timeless
  simp only [flatMap_cons, flatMap_nil, append_nil, any_cons, any_nil,
    Bool.or_false, List.findSome?_cons, List.findSome?_nil]
  cases step.failure <;> rfl

lemma or_of_settled {flag : RouterStep → Bool} {step later}
    (hstep : flag step → step.settled) (hlat : flag later → later.settled)
    (hone : step.settled → later.settled = false) :
    (if later.settled then flag later else flag step) = (flag step || flag later) := by
  cases hstl : later.settled with
  | true =>
    have hflag : flag step = false := by
      by_contra h
      have hfalse := hone (hstep (not_eq_false _ ▸ h))
      rw [hstl] at hfalse
      cases hfalse
    rw [if_pos rfl, hflag, Bool.false_or]
  | false =>
    have hflag : flag later = false := by
      by_contra h
      have htrue := hlat (not_eq_false _ ▸ h)
      rw [hstl] at htrue
      cases htrue
    rw [if_neg Bool.false_ne_true, hflag, Bool.or_false]

lemma joined_cons {step} {steps} (hstep : step.OutcomeOk)
    (hsteps : (joined steps).OutcomeOk) (hnone : step.failure = none)
    (hone : step.settled → (joined steps).settled = false) :
    joined (step :: steps) = (step.merge (joined steps)).timeless := by
  have hintr := @or_of_settled interrupted _ _ (fun h => (hstep.interrupted h).1)
    (fun h => (hsteps.interrupted h).1) hone
  have hcancel := @or_of_settled cancelled _ _ (fun h => (hstep.cancelled h).1)
    (fun h => (hsteps.cancelled h).1) hone
  have hfailed := @or_of_settled resultFailed _ _ hstep.resultFailed hsteps.resultFailed hone
  have hfail : (step :: steps).findSome? failure = (joined steps).failure.or step.failure := by
    rw [hnone, or_none, findSome?_cons, hnone]
    rfl
  refine RouterStep.ext rfl rfl ?_ ?_ ?_ rfl rfl rfl rfl rfl rfl hfail
  · exact hintr.symm
  · exact hcancel.symm
  · exact hfailed.symm

end RouterStep

namespace Router

variable (env : Platform ν φ)

/-- Some feeds, each at its time, up to the first failure. -/
def feeds : Router φ → List (ℕ × List UInt8) → List RouterStep × Router φ
  | router, [] => ([], router)
  | router, (now, chunk) :: chunks =>
    let fed := router.feed env now chunk
    if fed.2.failure.isSome then ([fed.2], fed.1)
    else
      let later := feeds fed.1 chunks
      (fed.2 :: later.1, later.2)

lemma feed_bytes (router) (now : ℕ) (chunk) :
    (router.feed env now chunk).2.timeless = (feedBytes env chunk (router, .default)).2.timeless ∧
      ((router.feed env now chunk).2.failure = none →
        Alike (router.feed env now chunk).1 (feedBytes env chunk (router, .default)).1) := by
  have hby : Agrees (feedPieces env (pieces chunk) (router, .default))
      (feedBytes env chunk (router, .default)) := feedPieces_bytes env chunk router rfl
  rw [← hby.step_eq]
  refine ⟨rfl, fun hnone => ?_⟩
  rw [← hby.router_eq hnone]
  exact ((feedPieces env (pieces chunk) (router, .default)).1.alike_backgroundChange now).symm

/-- **Feeds report what the bytes of all of them report.** -/
theorem joined_feeds (chunks) {router other} (h : Alike router other) :
    RouterStep.joined (feeds env router chunks).1 =
        (feedBytes env (chunks.flatMap Prod.snd) (other, .default)).2.timeless ∧
      ((feedBytes env (chunks.flatMap Prod.snd) (other, .default)).2.failure = none →
        Alike (feeds env router chunks).2 (feedBytes env (chunks.flatMap Prod.snd) (other, .default)).1) := by
  induction chunks generalizing router other with
  | nil => exact ⟨rfl, fun _ => h⟩
  | cons first chunks ih =>
    obtain ⟨now, chunk⟩ := first
    obtain ⟨hreport, halike⟩ := feed_bytes env router now chunk
    have hby := h.feedBytes env chunk .default
    have habsorbs := absorbs_feed env router now chunk
    rw [hby.beside] at hreport
    have hfail : (router.feed env now chunk).2.failure =
        (Router.feedBytes env chunk (other, .default)).2.failure := by
      have htimeless := congrArg RouterStep.failure hreport
      exact htimeless
    rw [flatMap_cons, feedBytes_append]
    unfold feeds
    by_cases hfailed : (router.feed env now chunk).2.failure.isSome
    · rw [if_pos hfailed, RouterStep.joined_singleton,
        feedBytes_failed env _ (by rw [← hfail]; exact hfailed)]
      refine ⟨hreport, fun hnone => ?_⟩
      rw [hfail, hnone] at hfailed
      cases hfailed
    have hnone : (router.feed env now chunk).2.failure = none := not_isSome_iff_eq_none.1 hfailed
    have hnone' := hfail.symm.trans hnone
    have hfed : Alike (router.feed env now chunk).1 (Router.feedBytes env chunk (other, .default)).1 :=
      (halike hnone).trans hby.alike
    obtain ⟨hrest, hlast⟩ := ih hfed
    have hlat := absorbs_feedBytes env (chunks.flatMap Prod.snd)
      (.refl (Router.feedBytes env chunk (other, .default)).1)
    have hfst : Router.feedBytes env (chunks.flatMap Prod.snd) (Router.feedBytes env chunk (other, .default)) = _ :=
      feedBytes_merge env (chunks.flatMap Prod.snd) (Router.feedBytes env chunk (other, .default)).1 hnone'
    rw [if_neg hfailed, hfst]
    generalize Router.feedBytes env (chunks.flatMap Prod.snd)
      ((Router.feedBytes env chunk (other, .default)).1, .default) = bytes at *
    have hmerge : ((Router.feedBytes env chunk (other, .default)).2.merge bytes.2).failure =
        bytes.2.failure := by
      unfold RouterStep.merge
      rw [hnone', or_none]
    rw [hmerge]
    refine ⟨?_, hlast⟩
    rw [RouterStep.joined_cons habsorbs.outcome _ hnone _, hrest]
    · change ((router.feed env now chunk).2.timeless.merge bytes.2).timeless = _
      rw [hreport]
      rfl
    · rw [hrest]
      exact ⟨hlat.outcome.interrupted, hlat.outcome.cancelled, hlat.outcome.resultFailed⟩
    · rw [hrest]
      refine fun hstl => (hlat.detached ?_).2
      rw [← hfed.attached_eq]
      exact (habsorbs.settles hstl).1

lemma offered_feed (router : Router φ) (now : ℕ) (chunk : List UInt8) :
    (router.feed env now chunk).1.backgroundRevision =
        (router.feed env now chunk).1.detector.backgroundRevision ∧
      (router.feed env now chunk).1.backgroundOfferPending = false := by
  unfold feed
  dsimp only
  generalize (feedPieces env (pieces chunk) (router, .default)).1 = next
  unfold backgroundChange
  dsimp only
  generalize next.refreshWakeUp now = next
  by_cases hsame : (!next.backgroundOfferPending &&
      decide (next.detector.backgroundRevision = next.backgroundRevision) &&
      decide (({ next with backgroundOfferPending := false } : Router φ).reply now = next.reportedBackground.reply))
  · rw [if_pos hsame]
    rw [and_eq_true, and_eq_true, decide_eq_true_eq] at hsame
    exact ⟨hsame.1.2.symm, rfl⟩
  · rw [if_neg hsame]
    split_ifs <;> exact ⟨rfl, rfl⟩

lemma offered_feeds {chunks} (hne : chunks ≠ []) (router : Router φ) :
    (feeds env router chunks).2.backgroundRevision =
        (feeds env router chunks).2.detector.backgroundRevision ∧
      (feeds env router chunks).2.backgroundOfferPending = false := by
  induction chunks generalizing router with
  | nil => exact absurd rfl hne
  | cons first chunks ih =>
    obtain ⟨now, chunk⟩ := first
    unfold feeds
    by_cases hfailed : (router.feed env now chunk).2.failure.isSome
    · rw [if_pos hfailed]
      exact offered_feed env router now chunk
    rw [if_neg hfailed]
    cases chunks with
    | nil => exact offered_feed env router now chunk
    | cons second chunks => exact ih (cons_ne_nil _ _) _

/-- **Chunks are alike**: however bytes are cut into feeds, together they report what one feed of
all the bytes reports, but for the background tasks. -/
theorem chunks_are_alike (router : Router φ) (chunks : List (ℕ × List UInt8)) (now : ℕ) :
    RouterStep.joined (feeds env router chunks).1 =
        RouterStep.joined [(router.feed env now (chunks.flatMap Prod.snd)).2] ∧
      ((router.feed env now (chunks.flatMap Prod.snd)).2.failure = none →
        Alike (feeds env router chunks).2 (router.feed env now (chunks.flatMap Prod.snd)).1 ∧
        (chunks ≠ [] →
          (feeds env router chunks).2.backgroundRevision =
              (router.feed env now (chunks.flatMap Prod.snd)).1.backgroundRevision ∧
            (feeds env router chunks).2.backgroundOfferPending =
              (router.feed env now (chunks.flatMap Prod.snd)).1.backgroundOfferPending)) := by
  obtain ⟨hreport, halike⟩ := joined_feeds env chunks (.refl router)
  obtain ⟨hwhole, hbytes⟩ := feed_bytes env router now (chunks.flatMap Prod.snd)
  refine ⟨?_, fun hnone => ?_⟩
  · rw [hreport, RouterStep.joined_singleton, hwhole]
  have hfail := congrArg RouterStep.failure hwhole
  have hsame := (halike (hfail.symm.trans hnone)).trans (hbytes hnone).symm
  refine ⟨hsame, fun hne => ?_⟩
  have hdet : (feeds env router chunks).2.detector =
      (router.feed env now (chunks.flatMap Prod.snd)).1.detector := by
    obtain ⟨clock, heq⟩ := hsame.eq_clocked
    rw [heq]
    rfl
  obtain ⟨hrev, hpend⟩ := offered_feeds env hne router
  obtain ⟨hrev', hpend'⟩ := offered_feed env router now (chunks.flatMap Prod.snd)
  rw [hrev, hrev', hpend, hpend', hdet]
  exact ⟨rfl, rfl⟩

end Router

namespace Router

lemma wakeUpPending_feed (env : Platform ν φ) (router : Router φ) (now : ℕ) (chunk : List UInt8) :
    (router.feed env now chunk).1.wakeUpPending =
      ((feedPieces env (pieces chunk) (router, .default)).1.refreshWakeUp now).wakeUpPending := by
  unfold feed
  dsimp only
  unfold backgroundChange
  dsimp only
  split_ifs <;> rfl

lemma feeds_pair (env : Platform ν φ) (router : Router φ) (first second)
    (h : (router.feed env first.1 first.2).2.failure.isSome = false) :
    (feeds env router [first, second]).2 = ((router.feed env first.1 first.2).1.feed env second.1 second.2).1 := by
  obtain ⟨now, chunk⟩ := first
  obtain ⟨later, rest⟩ := second
  unfold feeds
  rw [if_neg (by rw [h]; decide)]
  unfold feeds
  dsimp only
  split_ifs <;> rfl

end Router

def taskMessage (subtype task : String) : Json ℕ :=
  .object [("type", .string "system"), ("subtype", .string subtype), ("task_id", .string task),
    ("status", .string (if subtype = "task_notification" then "completed" else "running"))]

def taskBytes (subtype task : String) : List UInt8 := written (taskMessage subtype task) ++ [newline]

/-- A platform that reads the lines of two tasks. -/
def taskPlatform : Platform ℕ ℕ :=
  { barePlatform with
    fromSlice := fun line =>
      [("task_started", "a"), ("task_started", "b"), ("task_notification", "a"),
        ("task_notification", "b")].findSome? fun named =>
        if line = taskBytes named.1 named.2 then some (taskMessage named.1 named.2) else none
    toVec := fun value => some (written value) }

/-- Two tasks of the background, of which one finishes: a wake-up is expected from now on. -/
def wakingCalls : List RouterCall :=
  [.forgetReportedBackground,
    .feed 0 (taskBytes "task_started" "a" ++ taskBytes "task_started" "b" ++
      taskBytes "task_notification" "a"),
    .forgetReportedBackground]

def waking : Router ℕ := afterRun taskPlatform (.new taskPlatform wakeUpReplyCap) wakingCalls

/-- Long after that, the other one finishes. -/
def lateChunks : List (ℕ × List UInt8) := [(100, [newline]), (100, taskBytes "task_notification" "b")]

lemma wakeUpPending_late :
    (Router.feeds taskPlatform waking lateChunks).2.wakeUpPending ∧
      (waking.feed taskPlatform 100 (lateChunks.flatMap Prod.snd)).1.wakeUpPending = false := by
  have hfst : (waking.feed taskPlatform 100 [newline]).2.failure.isSome = false := by decide +kernel
  have hpair := Router.feeds_pair taskPlatform waking (100, [newline]) (100, taskBytes "task_notification" "b") hfst
  unfold lateChunks
  constructor
  · decide +kernel
  · decide +kernel

/-- **Chunks show that a wake-up has expired**, even where all of them come at one time. -/
theorem expiry_is_seen_by_chunk :
    ¬ ∀ (calls : List RouterCall) (chunks : List (ℕ × List UInt8)) (now : ℕ),
      (∀ chunk ∈ chunks, chunk.1 = now) →
      (Router.feeds taskPlatform (afterRun taskPlatform (.new taskPlatform wakeUpReplyCap) calls) chunks).2 =
        ((afterRun taskPlatform (.new taskPlatform wakeUpReplyCap) calls).feed taskPlatform now
          (chunks.flatMap Prod.snd)).1 := by
  intro h
  have hsame := h wakingCalls lateChunks 100 (by decide)
  obtain ⟨hfeeds, hfeed⟩ := wakeUpPending_late
  change (Router.feeds taskPlatform waking lateChunks).2 = (waking.feed taskPlatform 100 _).1 at hsame
  rw [hsame, hfeed] at hfeeds
  cases hfeeds

end CodevoEditor.ClaudeSession
