/-
# What the results of a session cost

A result says what the process has cost so far.
-/

import CodevoEditor.ClaudeSession.Clock
import CodevoEditor.ClaudeSession.LineAccounts
import Mathlib.Algebra.Order.Ring.Rat

namespace CodevoEditor.ClaudeSession

open Runs List

variable {ν φ : Type}

namespace Router

variable (router : Router φ) (env : Platform ν φ) (message : Json ν)

/-- The total of a line that is passed on with its cost. -/
def charged (destination : Destination) (line : List UInt8) : Option φ :=
  (if destination = .unsolicited then backgroundLine env message line else some line).bind fun shown =>
    let normalized := router.normalizeCost env destination message shown
    if (router.deliver destination normalized.1 (.of message) .default).2 then normalized.2 else none

/-- The total that a message leaves as the baseline. -/
def messageCharged (line : List UInt8) : Option φ :=
  let next := ((router.beforeClassify env message .default).1.classify message .default).1.1
  let destination := ((router.beforeClassify env message .default).1.classify message .default).2
  next.charged env message ((next.noteRun destination next.owned message).delivery destination message) line

lemma costBaseline_deliver (destination) (line) (budget)
    (step) :
    (router.deliver destination line budget step).1.1.costBaseline = router.costBaseline := by
  unfold deliver
  cases destination <;> try rfl
  dsimp only
  split <;> rfl

/-- **The baseline moves to a total that is passed on.** -/
theorem costBaseline_forward (destination) (line) :
    (router.forward env destination message line .default).1.costBaseline =
      (router.charged env message destination line).getD router.costBaseline := by
  unfold forward charged
  dsimp only
  split
  · rename_i hnone
    simp [hnone]
  · rename_i shown hshn
    have hkept := router.costBaseline_deliver destination
      (router.normalizeCost env destination message shown).1 (.of message) .default
    simp only [hshn, Option.bind_some]
    unfold chargeCost
    split
    · rename_i hnone
      simp [hnone, hkept]
    · rename_i total htot
      split_ifs <;> simp [htot, hkept]

lemma charged_congr {next} (h : Keeps router next) (destination)
    (line) :
    next.charged env message destination line = router.charged env message destination line := by
  have hdel line : (next.deliver destination line (.of message) .default).2 =
      (router.deliver destination line (.of message) .default).2 := by
    unfold deliver
    cases destination <;> try rfl
    simp only [h.unsolicited_eq]
    split <;> rfl
  unfold charged
  simp only [normalizeCost_congr env message h.costBaseline_eq, hdel]

lemma costBaseline_emitUnsolicited (complete : Bool) (step) :
    (router.emitUnsolicited complete step).1.costBaseline = router.costBaseline := by
  unfold emitUnsolicited
  split <;> rfl

lemma costBaseline_emitWhen (test : Bool) (step) :
    (router.emitWhen test step).1.costBaseline = router.costBaseline := by
  unfold emitWhen
  split_ifs
  · exact router.costBaseline_emitUnsolicited true step
  · rfl

variable (step : RouterStep)

lemma costBaseline_classifyControlRequest :
    (router.classifyControlRequest message step).1.1.costBaseline = router.costBaseline := by
  have hperm : (router.backgroundPermission message).1.costBaseline = router.costBaseline := by
    unfold backgroundPermission
    repeat' split
    all_goals rfl
  have hreq (next : Router φ) : (next.unsupportedRequest message).1.costBaseline = next.costBaseline := by
    unfold unsupportedRequest
    repeat' split
    all_goals rfl
  unfold classifyControlRequest
  split
  · rfl
  · split
    · rename_i heq
      rwa [heq] at hperm
    · rename_i next heq
      rw [heq] at hperm
      have hnext := (hreq next).trans hperm
      split <;> (rename_i heq'; rwa [heq'] at hnext)

lemma costBaseline_classify : (router.classify message step).1.1.costBaseline = router.costBaseline := by
  unfold classify
  dsimp only
  split
  · unfold classifyLifecycle consumeWakeUp
    dsimp only
    repeat' split
    all_goals first | rfl | exact costBaseline_emitUnsolicited _ _ _
  split
  · rfl
  split
  · exact router.costBaseline_classifyControlRequest message step
  split
  · exact router.costBaseline_emitUnsolicited _ _
  split
  · rfl
  split
  · unfold classifyOwned
    dsimp only
    repeat' split
    all_goals rfl
  split <;> rfl

/-- **A message moves the baseline to the total that is passed on of it.** -/
theorem costBaseline_routeMessage (line) :
    (router.routeMessage env message line .default).1.costBaseline =
      (router.messageCharged env message line).getD router.costBaseline := by
  have hpre := (router.keeps_beforeClassify env message .default).costBaseline_eq
  unfold routeMessage messageCharged
  dsimp only
  set before := router.beforeClassify env message .default
  have hclassify := before.1.costBaseline_classify message .default
  rw [before.1.uniform_classify message before.2]
  set classified := before.1.classify message .default
  rw [uniform_routeClassified]
  unfold routeClassified
  set noted := classified.1.1.noteRun classified.2 classified.1.1.owned message
  set observed := noted.observe env classified.2 classified.1.1.owned message
  have hkeeps : Keeps classified.1.1 observed.1 := (keeps_noteRun _ message _ _).trans (keeps_observe _ _ _ _ _)
  rw [(keeps_conclude _ _ _ _).costBaseline_eq, costBaseline_emitWhen, costBaseline_forward,
    charged_congr _ env message hkeeps, hkeeps.costBaseline_eq, hclassify, hpre]

/-- **The calls but for the feeds leave the baseline.** -/
theorem costBaseline_run {call : RouterCall} (hcall : call.isFeed = false) :
    (call.run env router).1.costBaseline = router.costBaseline := by
  cases call with
  | feed now chunk => cases hcall
  | withdrawInterrupt requestId =>
    change (router.withdrawInterrupt requestId).costBaseline = _
    unfold withdrawInterrupt
    split_ifs <;> rfl
  | settleFinishedForeground =>
    change router.settleFinishedForeground.1.costBaseline = _
    unfold settleFinishedForeground
    dsimp only
    split_ifs <;> rfl
  | _ => rfl

lemma costBaseline_backgroundChange (now : ℕ) :
    (router.backgroundChange now).1.costBaseline = router.costBaseline := by
  obtain ⟨clock, hclocked⟩ := (router.alike_backgroundChange now).eq_clocked
  rw [hclocked]
  rfl

end Router

namespace Absorbed

variable (env : Platform ν φ) (absorbed : Absorbed φ)

/-- The total of a piece that completes a line and is passed on with its cost. -/
def charge : Option φ :=
  if absorbed.Short ∧ absorbed.complete then
    (env.fromSlice absorbed.line).bind fun message =>
      Router.messageCharged { absorbed.before.router with line := [] } env message absorbed.line
  else none

end Absorbed

/-- **A piece moves the baseline to the total that is passed on of it**, or leaves it. -/
theorem costBaseline_absorbed (env : Platform ν φ) {stream : Stream φ} {piece : List UInt8}
    (hok : stream.Ok) (hpiece : IsPiece piece) :
    (stream.absorbed env piece).after.router.costBaseline =
      ((stream.absorbed env piece).charge env).getD stream.router.costBaseline := by
  have hbase {routed}
      (h : ((stream.absorbed env piece).after.router, (stream.absorbed env piece).step) = routed) :
      (stream.absorbed env piece).after.router.costBaseline = routed.1.costBaseline :=
    congrArg (fun routed => routed.1.costBaseline) h
  unfold Absorbed.charge
  by_cases hsht : (stream.absorbed env piece).Short
  · cases hcmp : (stream.absorbed env piece).complete with
    | true =>
      rw [hbase (Stream.absorbed_routed env hok hpiece hsht hcmp), if_pos ⟨hsht, rfl⟩]
      unfold Router.routeLine
      cases hmsg : env.fromSlice (stream.absorbed env piece).line with
      | some message => exact Router.costBaseline_routeMessage _ env message _
      | none =>
        dsimp only
        split
        · rfl
        · exact Router.costBaseline_deliver _ _ _ _ _
    | false =>
      rw [hbase (Stream.absorbed_kept env hok hpiece hsht hcmp), if_neg (by simp)]
      rfl
  · rw [if_neg fun h => hsht h.1]
    by_cases hmode : stream.router.mode = .buffering
    · rw [hbase (Stream.absorbed_overflow env hok hmode hsht)]
      unfold Router.overflow
      dsimp only
      repeat' split
      all_goals rfl
    · rw [hbase ((Stream.absorbed_eq env).trans (Stream.absorb_long env hmode _ _ _))]
      rfl

/-- The arithmetic of the platform is that of the rationals. -/
structure Exact (env : Platform ν ℚ) : Prop where
  zero_eq : env.zero = 0
  sub_eq : ∀ total baseline, env.sub total baseline = total - baseline
  max_eq : ∀ cost other, env.max cost other = max cost other
  le_iff : ∀ least greatest, env.le least greatest ↔ least ≤ greatest
  tolerance : env.minusCostTolerance ≤ 0

/-- **What is passed on of a result**: its fields, with the cost of the turn in the place of the total. -/
structure Priced (env : Platform ν ℚ) (message : Json ν) (total cost : ℚ) (form : List UInt8) : Prop where
  total_eq : Router.processTotal env message = some total
  form_eq : ∃ fields rewritten, message = .object fields ∧ form = rewritten ++ [newline] ∧
    env.toVec (.object (insertField processCostField (env.ofF64 total)
      (insertField costField (env.ofF64 cost) (removeField costField fields)))) = some rewritten

namespace Router

variable {env : Platform ν ℚ} {router : Router ℚ} {message : Json ν} {destination : Destination}
  {line : List UInt8} {total : ℚ}

lemma priced_of_normalizeCost (hexact : Exact env)
    (h : (router.normalizeCost env destination message line).2 = some total) :
    processTotal env message = some total ∧ (router.costBaseline ≤ total →
      Priced env message total (total - router.costBaseline)
        (router.normalizeCost env destination message line).1) := by
  unfold normalizeCost at h ⊢
  split_ifs at h ⊢ with hplain
  split at h
  · rename_i found fields htot
    dsimp only at h ⊢
    cases hwrit : env.toVec _ with
    | none => simp [hwrit] at h
    | some rewritten =>
      simp only [hwrit, Option.some.injEq] at h
      subst h
      refine ⟨htot, fun hbase => ?_⟩
      have hcost : 0 ≤ found - router.costBaseline := sub_nonneg.2 hbase
      have hpaid : env.le env.minusCostTolerance (found - router.costBaseline) :=
        (hexact.le_iff _ _).2 (hexact.tolerance.trans hcost)
      simp only [hexact.sub_eq, hexact.max_eq, hexact.zero_eq, hpaid, if_true, max_eq_left hcost] at hwrit
      exact ⟨htot, fields, rewritten, rfl, rfl, hwrit⟩
  · cases h

lemma passingTo_of_charged (h : router.charged env message destination line = some total) :
    (router.passingTo env message destination line).place ≠ .nowhere ∧
      ∃ shown, (router.passingTo env message destination line).form =
          some (router.normalizeCost env destination message shown).1 ∧
        (router.normalizeCost env destination message shown).2 = some total := by
  obtain ⟨shown, hshn, htkn⟩ := Option.bind_eq_some_iff.1 h
  dsimp only at htkn
  split_ifs at htkn with hdel
  have hform : (router.passingTo env message destination line).form =
      some (router.normalizeCost env destination message shown).1 := by
    unfold passingTo
    simp [hshn]
  refine ⟨?_, shown, hform, htkn⟩
  unfold deliver at hdel
  unfold Passing.place Passing.dropped Passing.receiver
  rw [hform]
  cases destination with
  | unsolicited =>
    cases hact : router.unsolicited with
    | none => simp [hact] at hdel
    | some active =>
      simp only [hact] at hdel
      simp [passingTo, hact, hdel, Destination.forTurn]
  | background =>
    dsimp only at hdel
    simp [passingTo, hdel, Destination.forTurn]
  | discard => cases hdel
  | turn => simp [passingTo, Destination.forTurn]
  | command => simp [passingTo, Destination.forTurn]

lemma nonneg_of_processTotal (hexact : Exact env) (h : processTotal env message = some total) : 0 ≤ total := by
  unfold processTotal at h
  split at h
  · have hle := (Bool.and_eq_true_iff.1 (Option.filter_eq_some_iff.1 h).2).2
    rwa [hexact.le_iff, hexact.zero_eq] at hle
  · cases h

end Router

variable {env : Platform ν ℚ} {total : ℚ}

/-- **A piece that moves the baseline is passed on**, with its cost in the place of the total. -/
theorem priced_of_charge (hexact : Exact env) {absorbed : Absorbed ℚ}
    (h : absorbed.charge env = some total) :
    0 ≤ total ∧ (absorbed.passing env).place ≠ .nowhere ∧
      (absorbed.before.router.costBaseline ≤ total → ∃ message form,
        env.fromSlice absorbed.line = some message ∧ (absorbed.passing env).form = some form ∧
          Priced env message total (total - absorbed.before.router.costBaseline) form) := by
  unfold Absorbed.charge at h
  split_ifs at h
  obtain ⟨message, hmsg, hcharged⟩ := Option.bind_eq_some_iff.1 h
  unfold Absorbed.passing Router.passing
  rw [hmsg]
  set router := { absorbed.before.router with line := [] }
  have hbase := (Router.costBaseline_classify (router.beforeClassify env message .default).1 message
    .default).trans (router.keeps_beforeClassify env message .default).costBaseline_eq
  obtain ⟨hplc, shown, hform, htot⟩ := Router.passingTo_of_charged hcharged
  obtain ⟨hsaid, hpriced⟩ := Router.priced_of_normalizeCost hexact htot
  rw [hbase] at hpriced
  exact ⟨Router.nonneg_of_processTotal hexact hsaid, hplc, fun hle =>
    ⟨message, _, rfl, hform, hpriced hle⟩⟩

/-- The totals that are passed on in a run, each with the cost that is written in its place. -/
def costsOf (env : Platform ν ℚ) (events : List (StreamEvent ℚ)) : List (ℚ × ℚ) :=
  events.filterMap fun
    | .called _ _ => none
    | .absorbed absorbed =>
      (absorbed.charge env).map fun total => (total, total - absorbed.before.router.costBaseline)

def lastTotal (costs : List (ℚ × ℚ)) : ℚ := (costs.getLast?.map Prod.fst).getD 0

lemma costsOf_append (events later) :
    costsOf env (events ++ later) = costsOf env events ++ costsOf env later := filterMap_append

/-- The costs of a run add up to the baseline, which is the last total. -/
structure CostRun (env : Platform ν ℚ) (events : List (StreamEvent ℚ)) (stream : Stream ℚ) : Prop where
  ok : stream.Ok
  last : stream.router.costBaseline = lastTotal (costsOf env events)
  sum : ((costsOf env events).map Prod.snd).sum = stream.router.costBaseline
  grows : ((costsOf env events).map Prod.fst).Pairwise (· ≤ ·) → ∀ absorbed, .absorbed absorbed ∈ events →
    ∀ total, absorbed.charge env = some total → absorbed.before.router.costBaseline ≤ total

lemma costRun_start (hexact : Exact env) (cap : ℕ) : CostRun env [] (.start env cap) where
  ok := Stream.ok_start env cap
  last := hexact.zero_eq
  sum := hexact.zero_eq.symm
  grows := fun _ _ h => absurd h not_mem_nil

variable {before events : List (StreamEvent ℚ)} {stream next : Stream ℚ}

lemma CostRun.left (h : CostRun env before stream) (hok : next.Ok) (hnone : costsOf env events = [])
    (hleft : next.router.costBaseline = stream.router.costBaseline) :
    CostRun env (before ++ events) next := by
  have hcosts : costsOf env (before ++ events) = costsOf env before := by
    rw [costsOf_append, hnone, append_nil]
  refine ⟨hok, ?_, ?_, fun hmono absorbed hmem total htot => ?_⟩
  · rw [hcosts, hleft, h.last]
  · rw [hcosts, hleft, h.sum]
  · rw [hcosts] at hmono
    rcases mem_append.1 hmem with hpre | hevs
    · exact h.grows hmono absorbed hpre total htot
    · have hcost := filterMap_eq_nil_iff.1 hnone _ hevs
      simp [htot] at hcost

theorem costRun_moves (hexact : Exact env) (before) (stream)
    (events) (next : Stream ℚ) (h : CostRun env before stream)
    (hmove : Moves env stream events next) : CostRun env (before ++ events) next := by
  have hok := Stream.ok_moves env stream events next h.ok hmove
  cases hmove with
  | call call hcall => exact h.left hok rfl (stream.router.costBaseline_run env hcall)
  | report now => exact h.left hok rfl (stream.router.costBaseline_backgroundChange now)
  | piece piece hpiece =>
    have hmov := costBaseline_absorbed env h.ok hpiece
    cases hcharge : (stream.absorbed env piece).charge env with
    | none =>
      rw [hcharge] at hmov
      exact h.left hok (by simp [costsOf, hcharge]) hmov
    | some total =>
      rw [hcharge] at hmov
      have hcosts : costsOf env (before ++ [.absorbed (stream.absorbed env piece)]) =
          costsOf env before ++ [(total, total - stream.router.costBaseline)] := by
        rw [costsOf_append]
        simp only [costsOf, filterMap_cons, hcharge, Option.map_some, filterMap_nil]
        rfl
      refine ⟨hok, ?_, ?_, fun hmono absorbed hmem other hoth => ?_⟩
      · rw [hcosts, hmov]
        simp [lastTotal]
      · rw [hcosts, hmov]
        simp [h.sum]
      · rw [hcosts, map_append, pairwise_append] at hmono
        rcases mem_append.1 hmem with hpre | hnew
        · exact h.grows hmono.1 absorbed hpre other hoth
        · cases mem_singleton.1 hnew
          obtain rfl := Option.some.inj (hcharge.symm.trans hoth)
          change stream.router.costBaseline ≤ total
          rw [h.last, lastTotal]
          cases hlast : (costsOf env before).getLast? with
          | none => exact (priced_of_charge hexact hcharge).1
          | some cost => exact hmono.2.2 _ (mem_map_of_mem (mem_of_getLast? hlast)) _ (by simp)

/-- A platform that reads one line, a result that says a total. -/
def costPlatform (total : ℚ) : Platform ℚ ℚ where
  fromSlice := fun line =>
    if line = [49, newline] then some (.object [("type", .string "result"), (costField, .number total)])
    else none
  toVec := fun _ => some [50]
  asU64 := fun _ => none
  asF64 := some
  ofF64 := .number
  zero := 0
  sub := fun total baseline => total - baseline
  max := max
  le := fun least greatest => decide (least ≤ greatest)
  isFinite := fun _ => true
  minusCostTolerance := 0
  listed := barePlatform.listed
  listed_nodup := barePlatform.listed_nodup
  mem_listed := barePlatform.mem_listed

lemma exact_costPlatform (total : ℚ) : Exact (costPlatform total) :=
  ⟨rfl, fun _ _ => rfl, fun _ _ => rfl, fun _ _ => decide_eq_true_iff, le_rfl⟩

/-- A turn that is attached, and the result. -/
def costCalls : List RouterCall := [.attach (.new "turn"), .feed 0 [49, newline]]

end CodevoEditor.ClaudeSession
