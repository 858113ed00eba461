/-
# The accounts of the lines

A short line is passed on once, when it is complete, to the turn that is attached, to one
background turn or to none (`Passing.Sound.delivered`).
-/

import CodevoEditor.ClaudeSession.Passing
import CodevoEditor.ClaudeSession.Streams

namespace CodevoEditor.ClaudeSession

open Runs List Option

variable {ν φ : Type}

/-- The outputs of the background turns, last that of the one that is open. -/
def backgroundOutputs (turns : List ClaudeBackgroundTurn) (active : Option UnsolicitedTurn) : List (List UInt8) :=
  turns.map ClaudeBackgroundTurn.output ++ (active.map UnsolicitedTurn.output).toList

/-- Where a line ends up. -/
inductive Place
  | turn
  | background
  | nowhere

/-- Bytes at their place: the output of the turn that is attached, and those of the
background turns. -/
def Place.deliver (bytes : List UInt8) (opened : List (List UInt8)) : Place → List UInt8 × List (List UInt8)
  | turn => (bytes, opened)
  | background => ([], opened.modify (opened.length - 1) fun output => output ++ bytes)
  | nowhere => ([], opened)

variable {active : UnsolicitedTurn}

namespace Passing

variable (passing : Passing)

def place : Place :=
  if passing.destination.forTurn then .turn
  else if passing.receiver.isSome && !passing.dropped then .background
  else .nowhere

/-- The bytes that are passed on, if any. -/
def bytes : List UInt8 := passing.form.getD []

lemma output_pushed (active) :
    (passing.pushed active).output = active.output ∧
        (passing.form.any fun form => !(active.push form passing.budget).2) ∧
        (passing.pushed active).truncated ∨
      (passing.pushed active).output = active.output ++ passing.bytes ∧
        (passing.form.any fun form => !(active.push form passing.budget).2) = false ∧
        (passing.pushed active).truncated = active.truncated := by
  unfold pushed bytes
  cases passing.form with
  | none => exact .inr ⟨(append_nil _).symm, rfl, rfl⟩
  | some form =>
    dsimp only
    rw [any_some]
    unfold UnsolicitedTurn.push
    split
    · exact .inl ⟨rfl, rfl, rfl⟩
    · exact .inr ⟨rfl, rfl, rfl⟩

/-- The outputs with one more or none more. -/
def Opened (before opened : List (List UInt8)) : Prop := opened = before ∨ opened = before ++ [[]]

lemma opened_of_continues {before active} (h : Continues before active) :
    Opened (backgroundOutputs [] before) (backgroundOutputs [] active) := by
  cases before with
  | none =>
    cases active with
    | none => exact .inl rfl
    | some active =>
      refine .inr ?_
      unfold backgroundOutputs
      rw [map_some, (h active rfl).1]
      rfl
  | some turn =>
    obtain ⟨next, rfl, houtput, -⟩ := h
    refine .inl ?_
    unfold backgroundOutputs
    rw [map_some, map_some, houtput]

lemma pushed_deliver (active)
    (hfor : passing.destination.forTurn = false) (hrecv : passing.receiver = some active) :
    ([], [(passing.pushed active).output]) = passing.place.deliver passing.bytes [active.output] := by
  unfold place dropped
  rw [hfor, hrecv, any_some, if_neg Bool.false_ne_true]
  rcases passing.output_pushed active with ⟨houtput, hdrops, -⟩ | ⟨houtput, hdrops, -⟩
  · rw [houtput, hdrops]
    rfl
  · rw [houtput, hdrops]
    rfl

variable {before : Option UnsolicitedTurn}

lemma Sound.closed_of_active {passing : Passing}
    (h : passing.Sound before) (hact : passing.active = some active) :
    passing.closed = [] := by
  rcases h.continues with ⟨hcl, -⟩ | ⟨hnone, -⟩
  · exact hcl
  · rw [hnone] at hact
    cases hact

lemma Sound.closed_of_background {passing : Passing}
    (h : passing.Sound before) (hbg : passing.destination = .background) :
    passing.closed = [] ∧ before = none := by
  have hnone := (h.background hbg).1
  rcases h.continues with ⟨hcl, hcont⟩ | ⟨-, hdest, -⟩
  · refine ⟨hcl, ?_⟩
    rw [hnone] at hcont
    cases before with
    | none => rfl
    | some active =>
      obtain ⟨next, hnext, -⟩ := hcont
      cases hnext
  · rw [hbg] at hdest
    rcases hdest with hfor | hdiscard
    · cases hfor
    · cases hdiscard

/-- **A line is delivered at one place**, with the background turns that have been opened. -/
theorem Sound.delivered {passing : Passing}
    (h : passing.Sound before) :
    ∃ opened, Opened (backgroundOutputs [] before) opened ∧
      (passing.turnOutput, backgroundOutputs passing.backgroundTurns passing.unsolicited) =
        passing.place.deliver passing.bytes opened := by
  have hkept : Opened (backgroundOutputs [] before) (backgroundOutputs passing.closed passing.active) := by
    rcases h.continues with ⟨hcl, hcont⟩ | ⟨hnone, -, active, hpre, hcl⟩
    · rw [hcl]
      exact opened_of_continues hcont
    · rw [hcl, hnone, hpre]
      exact .inl rfl
  cases hdest : passing.destination with
  | turn =>
    refine ⟨_, hkept, ?_⟩
    unfold turnOutput backgroundTurns Passing.unsolicited place
    rw [hdest]
    rw [append_nil]
    rfl
  | command =>
    refine ⟨_, hkept, ?_⟩
    unfold turnOutput backgroundTurns Passing.unsolicited place
    rw [hdest]
    rw [append_nil]
    rfl
  | discard =>
    refine ⟨_, hkept, ?_⟩
    unfold turnOutput backgroundTurns Passing.unsolicited place receiver
    rw [hdest]
    rw [append_nil]
    rfl
  | unsolicited =>
    obtain ⟨active, hact⟩ := isSome_iff_exists.1 (h.unsolicited hdest)
    have hcl := h.closed_of_active hact
    have hdel := passing.pushed_deliver active (by rw [hdest]; rfl)
      (by unfold receiver; rw [hdest]; exact hact)
    refine ⟨_, hkept, ?_⟩
    unfold turnOutput backgroundTurns Passing.unsolicited
    rw [hdest, hcl, hact]
    by_cases hcls : passing.budget = .closing
    · rw [if_pos hcls, if_pos hcls]
      exact hdel
    · rw [if_neg hcls, if_neg hcls]
      exact hdel
  | background =>
    obtain ⟨hnone, -⟩ := h.background hdest
    obtain ⟨hcl, hpre⟩ := h.closed_of_background hdest
    have hdel := passing.pushed_deliver .default (by rw [hdest]; rfl)
      (by unfold receiver; rw [hdest])
    refine ⟨[[]], .inr (by rw [hpre]; rfl), ?_⟩
    unfold turnOutput backgroundTurns Passing.unsolicited
    rw [hdest, hcl, hnone]
    exact hdel

end Passing

lemma BudgetClass.limit_le (budget : BudgetClass) : budget.limit ≤ maxBackgroundTurnBytes := by
  cases budget <;> decide

lemma BudgetClass.limit_le_answer {budget : BudgetClass} (h : budget ≠ .closing) :
    budget.limit ≤ BudgetClass.answer.limit := by
  cases budget with
  | closing => exact absurd rfl h
  | answer => exact le_rfl
  | activity => decide

/-- The background turn that is open leaves room for a result. -/
def LeavesRoom (active : Option UnsolicitedTurn) : Prop :=
  ∀ turn, active = some turn → turn.output.length ≤ BudgetClass.answer.limit

namespace Passing

lemma length_pushed (passing : Passing) (active) :
    (passing.pushed active).output.length ≤ max active.output.length passing.budget.limit := by
  unfold pushed
  cases passing.form with
  | none => exact le_max_left _ _
  | some form =>
    dsimp only
    unfold UnsolicitedTurn.push
    split
    · exact le_max_left _ _
    · rename_i hroom
      refine le_max_of_le_right ?_
      rw [length_append]
      omega

variable {before : Option UnsolicitedTurn} {passing : Passing}

lemma Sound.leavesRoom_active (h : passing.Sound before) (hroom : LeavesRoom before) :
    LeavesRoom passing.active := fun active hact => by
  rcases h.continues with ⟨-, hcont⟩ | ⟨hnone, -⟩
  · rw [hact] at hcont
    cases before with
    | none =>
      rw [(hcont active rfl).1]
      exact Nat.zero_le _
    | some turn =>
      obtain ⟨next, hnext, houtput, -⟩ := hcont
      cases hnext
      rw [houtput]
      exact hroom turn rfl
  · rw [hnone] at hact
    cases hact

/-- **A background turn keeps within its budget**, and one that is left open leaves room for
a result. -/
theorem Sound.within (h : passing.Sound before) (hroom : LeavesRoom before) :
    (∀ turn ∈ passing.backgroundTurns, turn.output.length ≤ maxBackgroundTurnBytes) ∧
      LeavesRoom passing.unsolicited := by
  have hact := h.leavesRoom_active hroom
  have hanswer : BudgetClass.answer.limit ≤ maxBackgroundTurnBytes := BudgetClass.limit_le _
  have hcl : ∀ turn ∈ passing.closed, turn.output.length ≤ maxBackgroundTurnBytes := by
    intro turn hturn
    rcases h.continues with ⟨hcl, -⟩ | ⟨-, -, active, hpre, hcl⟩
    · rw [hcl] at hturn
      cases hturn
    · rw [hcl, mem_singleton] at hturn
      rw [hturn]
      exact (hroom active hpre).trans hanswer
  have hpushed active (hlen : active.output.length ≤ BudgetClass.answer.limit) :
      (passing.pushed active).output.length ≤ maxBackgroundTurnBytes := by
    have hlimit := passing.budget.limit_le
    have hmax := passing.length_pushed active
    omega
  refine ⟨fun turn hturn => ?_, fun turn hturn => ?_⟩
  · unfold backgroundTurns at hturn
    rcases mem_append.1 hturn with hpre | haft
    · exact hcl turn hpre
    · split at haft
      · split_ifs at haft
        · obtain ⟨active, hopen, rfl⟩ := map_eq_some_iff.1 (mem_toList.1 haft)
          exact hpushed active (hact active hopen)
        · cases haft
      · rw [mem_singleton.1 haft]
        exact hpushed .default (Nat.zero_le _)
      · cases haft
  · unfold Passing.unsolicited at hturn
    split at hturn
    · split_ifs at hturn with hcls
      obtain ⟨active, hopen, rfl⟩ := map_eq_some_iff.1 hturn
      have hlen := hact active hopen
      have hlimit := BudgetClass.limit_le_answer hcls
      have hmax := passing.length_pushed active
      omega
    · exact hact turn hturn

/-- **There is room for a result** whose form is no longer than the reserve. -/
theorem Sound.kept (h : passing.Sound before) (hroom : LeavesRoom before)
    (hcls : passing.budget = .closing) (hform : passing.bytes.length ≤ backgroundResultReserveBytes) :
    passing.dropped = false := by
  have hlimit : BudgetClass.answer.limit + backgroundResultReserveBytes = BudgetClass.closing.limit := by
    decide
  have hpush (active : UnsolicitedTurn) (hlen : active.output.length ≤ BudgetClass.answer.limit) :
      (passing.form.any fun form => !(active.push form passing.budget).2) = false := by
    unfold bytes at hform
    cases hsome : passing.form with
    | none => rfl
    | some form =>
      rw [hsome, getD_some] at hform
      rw [any_some, hcls]
      unfold UnsolicitedTurn.push
      rw [if_neg (by omega)]
      rfl
  unfold dropped receiver
  cases passing.destination with
  | unsolicited =>
    cases hact : passing.active with
    | none => rfl
    | some active => exact hpush active (h.leavesRoom_active hroom active hact)
  | background => exact hpush .default (Nat.zero_le _)
  | _ => rfl

end Passing

/-- The background turn that was open is marked, as it was reported or as it is open. -/
def Marked (turns : List ClaudeBackgroundTurn) (active : Option UnsolicitedTurn) : Prop :=
  match turns.head? with
  | some turn => turn.truncated
  | none => ∃ turn, active = some turn ∧ turn.truncated

lemma Marked.append {turns later} {active next}
    (h : Marked turns active)
    (hlat : (∃ turn, active = some turn ∧ turn.truncated) → Marked later next) :
    Marked (turns ++ later) next := by
  cases turns with
  | nil => exact hlat h
  | cons turn turns => exact h

namespace Passing

variable {before : Option UnsolicitedTurn} {passing : Passing}

lemma truncated_pushed (passing : Passing)
    (h : active.truncated ∨ (passing.form.any fun form => !(active.push form passing.budget).2)) :
    (passing.pushed active).truncated := by
  rcases passing.output_pushed active with ⟨-, -, htr⟩ | ⟨-, htkn, htr⟩
  · exact htr
  · rcases h with hact | hdrops
    · rw [htr, hact]
    · rw [htkn] at hdrops
      cases hdrops

lemma Sound.marked_of_active (h : passing.Sound before) (hact : passing.active = some active)
    (hpushed : passing.destination = .unsolicited → (passing.pushed active).truncated)
    (hkept : passing.destination ≠ .unsolicited → active.truncated) :
    Marked passing.backgroundTurns passing.unsolicited := by
  have hcl := h.closed_of_active hact
  unfold backgroundTurns Passing.unsolicited
  rw [hcl, hact]
  cases hto : passing.destination with
  | unsolicited =>
    by_cases hcls : passing.budget = .closing
    · rw [if_pos hcls, if_pos hcls]
      exact hpushed hto
    · rw [if_neg hcls, if_neg hcls]
      exact ⟨_, rfl, hpushed hto⟩
  | background =>
    rw [(h.background hto).1] at hact
    cases hact
  | turn => exact ⟨active, rfl, hkept (by rw [hto]; decide)⟩
  | command => exact ⟨active, rfl, hkept (by rw [hto]; decide)⟩
  | discard => exact ⟨active, rfl, hkept (by rw [hto]; decide)⟩

/-- **A turn that is marked stays so** until it is reported. -/
theorem Sound.marked (h : passing.Sound before)
    (htr : ∃ turn, before = some turn ∧ turn.truncated) :
    Marked passing.backgroundTurns passing.unsolicited := by
  obtain ⟨turn, hpre, hturn⟩ := htr
  rcases h.continues with ⟨-, hcont⟩ | ⟨-, -, active, hact, hcl⟩
  · rw [hpre] at hcont
    obtain ⟨next, hnext, -, hmark⟩ := hcont
    exact h.marked_of_active hnext (fun _ => passing.truncated_pushed (.inl (hmark hturn))) fun _ => hmark hturn
  · rw [hpre] at hact
    cases hact
    unfold backgroundTurns
    rw [hcl]
    exact hturn

/-- **A turn from which a line is dropped is marked.** -/
theorem Sound.marked_of_dropped (h : passing.Sound before) (hdrops : passing.dropped) :
    Marked passing.backgroundTurns passing.unsolicited := by
  unfold dropped receiver at hdrops
  cases hto : passing.destination with
  | unsolicited =>
    obtain ⟨active, hact⟩ := isSome_iff_exists.1 (h.unsolicited hto)
    rw [hto, hact] at hdrops
    exact h.marked_of_active hact (fun _ => passing.truncated_pushed (.inr hdrops)) fun hne => absurd hto hne
  | background =>
    rw [hto] at hdrops
    unfold backgroundTurns
    rw [(h.closed_of_background hto).1, hto]
    exact passing.truncated_pushed (.inr hdrops)
  | turn =>
    rw [hto] at hdrops
    cases hdrops
  | command =>
    rw [hto] at hdrops
    cases hdrops
  | discard =>
    rw [hto] at hdrops
    cases hdrops

end Passing

/-- How the line of a piece is passed on. -/
def Absorbed.passing (env : Platform ν φ) (absorbed : Absorbed φ) : Passing :=
  { absorbed.before.router with line := [] }.passing env absorbed.line

/-- A piece that a router absorbs as it should. -/
structure Accounted (env : Platform ν φ) (absorbed : Absorbed φ) : Prop where
  eq_absorbed : absorbed = absorbed.before.absorbed env absorbed.piece
  piece : IsPiece absorbed.piece
  ok : absorbed.before.Ok
  room : LeavesRoom absorbed.before.router.unsolicited

namespace Accounted

variable {env : Platform ν φ} {absorbed : Absorbed φ}

lemma passes (h : Accounted env absorbed) (hsht : absorbed.Short)
    (hcmp : absorbed.complete) :
    absorbed.step.turnOutput = (absorbed.passing env).turnOutput ∧
      absorbed.step.backgroundTurns = (absorbed.passing env).backgroundTurns ∧
      absorbed.after.router.unsolicited = (absorbed.passing env).unsolicited := by
  have hrouted := Stream.absorbed_routed env h.ok h.piece (by rw [← h.eq_absorbed]; exact hsht)
    (by rw [← h.eq_absorbed]; exact hcmp)
  rw [← h.eq_absorbed] at hrouted
  have hpasses := Router.passes_routeLine { absorbed.before.router with line := [] } env absorbed.line
  rw [← hrouted] at hpasses
  exact ⟨hpasses.turnOutput_eq, hpasses.backgroundTurns_eq, hpasses.unsolicited_eq⟩

lemma sound (absorbed : Absorbed φ) : (absorbed.passing env).Sound absorbed.before.router.unsolicited :=
  Router.sound_passing { absorbed.before.router with line := [] } env absorbed.line

lemma kept (h : Accounted env absorbed) (hsht : absorbed.Short)
    (hcmp : absorbed.complete = false) :
    absorbed.step = .default ∧ absorbed.after.router.unsolicited = absorbed.before.router.unsolicited := by
  have hkept := Stream.absorbed_kept env h.ok h.piece (by rw [← h.eq_absorbed]; exact hsht)
    (by rw [← h.eq_absorbed]; exact hcmp)
  rw [← h.eq_absorbed] at hkept
  obtain ⟨hrouter, hstep⟩ := Prod.mk.inj hkept
  rw [hrouter]
  exact ⟨hstep, rfl⟩

lemma unsolicited_overflow (router : Router φ) (complete : Bool) :
    (router.overflow complete .default).2.backgroundTurns = [] ∧
      ((router.overflow complete .default).1.unsolicited = router.unsolicited ∨
        ∃ active, router.unsolicited = some active ∧
          (router.overflow complete .default).1.unsolicited = some { active with truncated := true }) := by
  unfold Router.overflow
  by_cases hcand : lifecycleCandidate router.line
  · rw [if_pos hcand]
    exact ⟨rfl, .inl rfl⟩
  rw [if_neg hcand]
  by_cases hown : Router.owned { router with
      line := [], mode := if complete then .buffering else .skipping }
  · rw [if_pos hown]
    exact ⟨rfl, .inl rfl⟩
  rw [if_neg hown]
  cases hact : router.unsolicited with
  | none => exact ⟨rfl, .inl rfl⟩
  | some active => exact ⟨rfl, .inr ⟨active, rfl, rfl⟩⟩

lemma long (h : Accounted env absorbed) (hlong : ¬ absorbed.Short) :
    absorbed.step.backgroundTurns = [] ∧
      (absorbed.after.router.unsolicited = absorbed.before.router.unsolicited ∨
        ∃ active, absorbed.before.router.unsolicited = some active ∧
          absorbed.after.router.unsolicited = some { active with truncated := true }) := by
  by_cases hmode : absorbed.before.router.mode = .buffering
  · have hover := Stream.absorbed_overflow env h.ok hmode
      (by rw [← h.eq_absorbed]; exact hlong)
    rw [← h.eq_absorbed] at hover
    have hunsol := unsolicited_overflow { absorbed.before.router with line := absorbed.line } absorbed.complete
    rwa [← hover] at hunsol
  · have habsorb := (Stream.absorbed_eq env).trans (Stream.absorb_long env hmode absorbed.piece
      (absorbed.before.absorbed env absorbed.piece).complete .default)
    rw [← h.eq_absorbed] at habsorb
    obtain ⟨hrouter, hstep⟩ := Prod.mk.inj habsorb
    rw [hrouter, hstep]
    refine ⟨?_, .inl rfl⟩
    split_ifs <;> rfl

/-- **A background turn keeps within its budget.** -/
theorem within (h : Accounted env absorbed) :
    (∀ turn ∈ absorbed.step.backgroundTurns, turn.output.length ≤ maxBackgroundTurnBytes) ∧
      LeavesRoom absorbed.after.router.unsolicited := by
  by_cases hsht : absorbed.Short
  · cases hcmp : absorbed.complete with
    | true =>
      obtain ⟨-, htrn, hact⟩ := h.passes hsht hcmp
      rw [htrn, hact]
      exact (sound absorbed).within h.room
    | false =>
      obtain ⟨hstep, hact⟩ := h.kept hsht hcmp
      rw [hstep, hact]
      exact ⟨nofun, h.room⟩
  · obtain ⟨htrn, hact⟩ := h.long hsht
    rw [htrn]
    refine ⟨nofun, ?_⟩
    rcases hact with hsame | ⟨active, hpre, haft⟩
    · rw [hsame]
      exact h.room
    · intro turn hturn
      rw [haft] at hturn
      cases hturn
      exact h.room active hpre

theorem marked (h : Accounted env absorbed)
    (htr : ∃ turn, absorbed.before.router.unsolicited = some turn ∧ turn.truncated) :
    Marked absorbed.step.backgroundTurns absorbed.after.router.unsolicited := by
  by_cases hsht : absorbed.Short
  · cases hcmp : absorbed.complete with
    | true =>
      obtain ⟨-, htrn, hact⟩ := h.passes hsht hcmp
      rw [htrn, hact]
      exact (sound absorbed).marked htr
    | false =>
      obtain ⟨hstep, hact⟩ := h.kept hsht hcmp
      rw [hstep, hact]
      exact htr
  · obtain ⟨htrn, hact⟩ := h.long hsht
    rw [htrn]
    rcases hact with hsame | ⟨active, -, haft⟩
    · rw [hsame]
      exact htr
    · exact ⟨_, haft, rfl⟩

end Accounted

/-- The background turns that are reported. -/
def StreamEvent.backgroundTurns : StreamEvent φ → List ClaudeBackgroundTurn
  | .called _ _ => []
  | .absorbed piece => piece.step.backgroundTurns

def turnsOf (events : List (StreamEvent φ)) : List ClaudeBackgroundTurn :=
  events.flatMap StreamEvent.backgroundTurns

lemma turnsOf_append (events later : List (StreamEvent φ)) :
    turnsOf (events ++ later) = turnsOf events ++ turnsOf later := flatMap_append

/-- **The accounts of a run.** -/
structure AccountedRun (env : Platform ν φ) (events : List (StreamEvent φ)) (stream : Stream φ) :
    Prop where
  ok : stream.Ok
  room : LeavesRoom stream.router.unsolicited
  accounted : ∀ absorbed, .absorbed absorbed ∈ events → Accounted env absorbed
  marked : ∀ front absorbed back, events = front ++ .absorbed absorbed :: back → absorbed.Short →
    absorbed.complete → (absorbed.passing env).dropped →
    Marked (turnsOf (.absorbed absorbed :: back)) stream.router.unsolicited

variable (env : Platform ν φ)

variable (cap : ℕ)

lemma accountedRun_start : AccountedRun env [] (.start env cap) where
  ok := Stream.ok_start env cap
  room := nofun
  accounted := fun _ h => absurd h not_mem_nil
  marked := fun front _ back h => absurd h (append_ne_nil_of_right_ne_nil front (cons_ne_nil _ back)).symm

variable {stream : Stream φ} {events : List (StreamEvent φ)}

lemma AccountedRun.extend {env : Platform ν φ} {before : List (StreamEvent φ)} {next : Stream φ}
    (h : AccountedRun env before stream) (hok : next.Ok)
    (hroom : LeavesRoom next.router.unsolicited)
    (hacc : ∀ absorbed, .absorbed absorbed ∈ events → Accounted env absorbed)
    (hmarked : (∃ turn, stream.router.unsolicited = some turn ∧ turn.truncated) →
      Marked (turnsOf events) next.router.unsolicited)
    (hdrops : ∀ front absorbed back, events = front ++ .absorbed absorbed :: back → absorbed.Short →
      absorbed.complete → (absorbed.passing env).dropped → Marked (turnsOf (.absorbed absorbed :: back))
      next.router.unsolicited) :
    AccountedRun env (before ++ events) next where
  ok := hok
  room := hroom
  accounted := fun absorbed hmem => by
    rcases mem_append.1 hmem with hpre | hevs
    · exact h.accounted absorbed hpre
    · exact hacc absorbed hevs
  marked := fun front absorbed back hspl hsht hcmp hdrop => by
    rcases append_split hspl with ⟨between, hpre⟩ | ⟨more, -, hevs⟩
    · have hback : back = between ++ events := by
        rw [hpre, append_assoc, append_cancel_left_eq, cons_append] at hspl
        exact (cons.inj hspl).2.symm
      rw [hback, ← cons_append, turnsOf_append]
      exact (h.marked front absorbed between hpre hsht hcmp hdrop).append hmarked
    · exact hdrops more absorbed back hevs hsht hcmp hdrop

lemma AccountedRun.of_holds {env : Platform ν φ} {before : List (StreamEvent φ)} {next : Router φ}
    (h : AccountedRun env before stream) (hholds : Router.Holds stream.router next)
    (hevs : ∀ absorbed, .absorbed absorbed ∉ events) :
    AccountedRun env (before ++ events) ⟨next, stream.fed⟩ := by
  have htrn : turnsOf events = [] := by
    refine flatMap_eq_nil_iff.2 fun event hev => ?_
    cases event with
    | called call router => rfl
    | absorbed absorbed => exact absurd hev (hevs absorbed)
  refine h.extend (h.ok.of_holds hholds) ?_ (fun absorbed hmem => absurd hmem (hevs absorbed))
    (fun htr => ?_) fun front absorbed back hspl => ?_
  · rw [hholds.unsolicited_eq]
    exact h.room
  · rw [hholds.unsolicited_eq, htrn]
    exact htr
  · refine absurd ?_ (hevs absorbed)
    rw [hspl]
    exact mem_append_right _ mem_cons_self

theorem accountedRun_moves (before) (stream)
    (events) (next : Stream φ) (h : AccountedRun env before stream)
    (hmove : Moves env stream events next) : AccountedRun env (before ++ events) next := by
  have hok := Stream.ok_moves env stream events next h.ok hmove
  cases hmove with
  | piece piece hpiece =>
    have hnew : Accounted env (stream.absorbed env piece) := ⟨rfl, hpiece, h.ok, h.room⟩
    have htrn : turnsOf [StreamEvent.absorbed (stream.absorbed env piece)] =
        (stream.absorbed env piece).step.backgroundTurns := append_nil _
    refine h.extend hok hnew.within.2 (fun absorbed hmem => ?_) (fun htr => ?_)
      fun front absorbed back hspl hsht hcmp hdrops => ?_
    · cases mem_singleton.1 hmem
      exact hnew
    · rw [htrn]
      exact hnew.marked htr
    · obtain ⟨rfl, rfl, rfl⟩ : front = [] ∧ stream.absorbed env piece = absorbed ∧ back = [] := by
        cases front with
        | nil =>
          obtain ⟨hev, hback⟩ := cons.inj hspl
          cases hev
          exact ⟨rfl, rfl, hback.symm⟩
        | cons first front =>
          have hnil := (cons.inj hspl).2.symm
          exact absurd hnil (append_ne_nil_of_right_ne_nil front (cons_ne_nil _ back))
      obtain ⟨-, hrep, hact⟩ := hnew.passes hsht hcmp
      rw [htrn, hrep, hact]
      exact (Accounted.sound _).marked_of_dropped hdrops
  | call call hcall =>
    exact h.of_holds (Router.holds_run env stream.router hcall) fun absorbed hmem => by
      cases mem_singleton.1 hmem
  | report now =>
    exact h.of_holds (Router.holds_backgroundChange stream.router now) fun _ => not_mem_nil

theorem accountedRun (calls) :
    AccountedRun env (streamRun env (.start env cap) calls) (afterStream env (.start env cap) calls) :=
  (reaches_streamRun env (.start env cap) calls).trace (accountedRun_moves env) (accountedRun_start env cap)

/-- **A line is delivered once**, at the place that its passing says. -/
def DeliveredOnce (env : Platform ν φ) (absorbed : Absorbed φ) : Prop :=
  ∃ opened, Passing.Opened (backgroundOutputs [] absorbed.before.router.unsolicited) opened ∧
    (absorbed.step.turnOutput,
        backgroundOutputs absorbed.step.backgroundTurns absorbed.after.router.unsolicited) =
      (absorbed.passing env).place.deliver (absorbed.passing env).bytes opened

/-- Nothing is delivered of a piece. -/
def DeliversNothing (absorbed : Absorbed φ) : Prop :=
  absorbed.step.turnOutput = [] ∧ absorbed.step.backgroundTurns = [] ∧
    absorbed.after.router.unsolicited = absorbed.before.router.unsolicited

variable {absorbed : Absorbed φ}

lemma Accounted.delivered {env : Platform ν φ} (h : Accounted env absorbed)
    (hsht : absorbed.Short) (hcmp : absorbed.complete) : DeliveredOnce env absorbed := by
  obtain ⟨houtput, htrn, hact⟩ := h.passes hsht hcmp
  unfold DeliveredOnce
  rw [houtput, htrn, hact]
  exact (Accounted.sound absorbed).delivered

lemma called_of_streamRun {calls} {called}
    (h : called ∈ calledRun env stream.router calls) :
    ∃ middle : Stream φ, called = called.call.called env middle.router ∧
      ∀ absorbed ∈ called.call.absorbs env middle, .absorbed absorbed ∈ streamRun env stream calls := by
  induction calls generalizing stream with
  | nil => cases h
  | cons call calls ih =>
    rcases mem_cons.1 h with rfl | hrest
    · refine ⟨stream, rfl, fun absorbed habs => mem_append_left _ ?_⟩
      cases call with
      | feed now chunk => exact mem_map_of_mem habs
      | _ => cases habs
    · have hnext : (call.streamed env stream).router = (call.run env stream.router).1 := rfl
      rw [← hnext] at hrest
      obtain ⟨middle, hmid, habsorbs⟩ := ih hrest
      exact ⟨middle, hmid, fun absorbed habs => mem_append_right _ (habsorbs absorbed habs)⟩

lemma absorbed_of_turn (stream) {call : RouterCall}
    {turn : ClaudeBackgroundTurn} (h : turn ∈ (call.called env stream.router).step.backgroundTurns) :
    ∃ absorbed ∈ call.absorbs env stream, turn ∈ absorbed.step.backgroundTurns := by
  cases call with
  | feed now chunk =>
    have hfeed := (step_feed env stream now chunk).2
    change turn ∈ (stream.router.feed env now chunk).2.backgroundTurns at h
    rw [hfeed] at h
    exact mem_flatMap.1 h
  | settleFinishedForeground =>
    have hnone : (stream.router.settleFinishedForeground.2.getD .default).backgroundTurns = [] := by
      unfold Router.settleFinishedForeground
      dsimp only
      split_ifs <;> rfl
    change turn ∈ (stream.router.settleFinishedForeground.2.getD .default).backgroundTurns at h
    rw [hnone] at h
    cases h
  | _ => cases h

variable {message : Json ν}

lemma budget_of_result {env}
    (hmsg : env.fromSlice absorbed.line = some message) (hres : rootResult message) :
    (absorbed.passing env).budget = .closing := by
  unfold Absorbed.passing Router.passing
  rw [hmsg]
  have hbudget : BudgetClass.of message = .closing := Router.of_eq_closing message |>.2 hres
  change (if _ then BudgetClass.closing else .of message) = .closing
  split_ifs
  · rfl
  · exact hbudget

lemma display_of_result (hres : rootResult message) : display message = .shown := by
  have hkind : message.strOf "type" = some "result" := by
    exact of_decide_eq_true (Bool.and_eq_true_iff.1 hres).1
  unfold display
  split
  · rfl
  · rw [hkind]
    rfl

lemma length_bytes_of_result {env}
    (hmsg : env.fromSlice absorbed.line = some message) (hres : rootResult message)
    (hcost : Router.processTotal env message = none) :
    (absorbed.passing env).bytes.length ≤ absorbed.line.length := by
  have hnormalized (router : Router φ) (destination : Destination) (line : List UInt8) :
      (router.normalizeCost env destination message line).1 = line := by
    unfold Router.normalizeCost
    split
    · rfl
    · simp only [hcost]
  obtain ⟨shorter, hshn, hshorter⟩ : ∃ shorter, backgroundLine env message absorbed.line = some shorter ∧
      shorter.length ≤ absorbed.line.length :=
    length_backgroundLine_le (display_of_result hres) absorbed.line
  unfold Absorbed.passing Router.passing Passing.bytes
  rw [hmsg]
  unfold Router.messagePassing Router.passingTo
  simp only [hnormalized]
  split_ifs
  · rw [hshn]
    exact hshorter
  · exact le_rfl

/-- **Lines are accounted for**: a short line is delivered once, to one turn or to none, when it is
complete. -/
theorem lines_are_accounted (cap : ℕ) (calls : List RouterCall) :
    (∀ absorbed, .absorbed absorbed ∈ streamRun env (.start env cap) calls → absorbed.Short →
      if absorbed.complete then DeliveredOnce env absorbed else DeliversNothing absorbed) ∧
    (∀ called ∈ calledRun env (.new env cap) calls, ∀ turn ∈ called.step.backgroundTurns,
      turn.output.length ≤ maxBackgroundTurnBytes) ∧
    (∀ front absorbed back, streamRun env (.start env cap) calls = front ++ .absorbed absorbed :: back →
      absorbed.Short → absorbed.complete → (absorbed.passing env).dropped →
      Marked (turnsOf (.absorbed absorbed :: back)) (afterStream env (.start env cap) calls).router.unsolicited) ∧
    ∀ absorbed, .absorbed absorbed ∈ streamRun env (.start env cap) calls → absorbed.Short →
      absorbed.complete → ∀ message, env.fromSlice absorbed.line = some message →
      rootResult message →
      ((absorbed.passing env).bytes.length ≤ backgroundResultReserveBytes → (absorbed.passing env).dropped = false) ∧
      (Router.processTotal env message = none → (absorbed.passing env).bytes.length ≤ absorbed.line.length) := by
  have hrun := accountedRun env cap calls
  refine ⟨fun absorbed hmem hshort => ?_, fun called hcalled turn hturn => ?_, hrun.marked,
    fun absorbed hmem hshort hcompl message hmsg hres => ⟨fun hform => ?_, fun hcost => ?_⟩⟩
  · have h := hrun.accounted absorbed hmem
    cases hcompl : absorbed.complete with
    | true =>
      exact h.delivered hshort hcompl
    | false =>
      obtain ⟨hstep, hact⟩ := h.kept hshort hcompl
      unfold DeliversNothing
      rw [hstep]
      exact ⟨rfl, rfl, hact⟩
  · have hstart : called ∈ calledRun env (Stream.start env cap).router calls := hcalled
    obtain ⟨middle, hmid, habsorbs⟩ := called_of_streamRun env hstart
    rw [hmid] at hturn
    obtain ⟨absorbed, habs, hmem⟩ := absorbed_of_turn env middle hturn
    exact (hrun.accounted absorbed (habsorbs absorbed habs)).within.1 turn hmem
  · have h := hrun.accounted absorbed hmem
    exact (Accounted.sound absorbed).kept h.room (budget_of_result hmsg hres) hform
  · exact length_bytes_of_result hmsg hres hcost

end CodevoEditor.ClaudeSession
