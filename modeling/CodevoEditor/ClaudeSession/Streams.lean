/-
# The stream of a session

The chunks of a session are one stream of bytes, of which the router absorbs piece after piece:
what it reports of a chunk is what it reports of its pieces (`feedPieces_eq`).
-/

import CodevoEditor.ClaudeSession.RouterRuns

namespace CodevoEditor.ClaudeSession

open Runs List

variable {ν φ : Type}

/-- The router, and what has come of the line that is not complete. -/
structure Stream (φ : Type) where
  router : Router φ
  fed : List UInt8

/-- A piece that has been absorbed, and what is reported of it. -/
structure Absorbed (φ : Type) where
  before : Stream φ
  piece : List UInt8
  step : RouterStep
  after : Stream φ

namespace Absorbed

variable (absorbed : Absorbed φ)

/-- The line, as far as it has come. -/
def line : List UInt8 := absorbed.before.fed ++ absorbed.piece

def complete : Bool := absorbed.piece.getLast? = some newline

/-- A line that is no longer than a line may be, the newline apart. -/
def Short : Prop :=
  absorbed.line.length - absorbed.complete.toNat ≤ maxRoutedLineBytes

instance (absorbed : Absorbed φ) : Decidable absorbed.Short :=
  inferInstanceAs (Decidable (_ ≤ _))

end Absorbed

namespace Stream

def start (env : Platform ν φ) (cap : ℕ) : Stream φ := ⟨.new env cap, []⟩

def absorbed (env : Platform ν φ) (stream : Stream φ) (piece : List UInt8) : Absorbed φ :=
  let complete : Bool := piece.getLast? = some newline
  let routed := stream.router.absorb env piece complete .default
  { before := stream
    piece := piece
    step := routed.2
    after := ⟨routed.1, if complete then [] else stream.fed ++ piece⟩ }

/-- **What the router holds of the line.** -/
structure Ok (stream : Stream φ) : Prop where
  buffering : stream.router.mode = .buffering →
    stream.router.line = stream.fed ∧ stream.fed.length ≤ maxRoutedLineBytes
  long : stream.router.mode ≠ .buffering → stream.router.line = [] ∧ maxRoutedLineBytes < stream.fed.length

lemma ok_start (env : Platform ν φ) (cap : ℕ) : (start env cap).Ok where
  buffering := fun _ => ⟨rfl, Nat.zero_le _⟩
  long := fun h => absurd rfl h

/-- What is absorbed of some pieces, up to the first failure. -/
def absorbedPieces (env : Platform ν φ) : Stream φ → List (List UInt8) → List (Absorbed φ)
  | _, [] => []
  | stream, piece :: rest =>
    let absorbed := stream.absorbed env piece
    absorbed :: if absorbed.step.failure.isSome then [] else absorbedPieces env absorbed.after rest

/-- The stream behind some of its pieces. -/
def behind (stream : Stream φ) (absorbed : List (Absorbed φ)) : Stream φ :=
  absorbed.foldl (fun _ absorbed => absorbed.after) stream

end Stream

/-- The reports of some pieces, one after the other. -/
def merged (step : RouterStep) (absorbed : List (Absorbed φ)) : RouterStep :=
  absorbed.foldl (fun step absorbed => step.merge absorbed.step) step

variable (step : RouterStep)

lemma turnOutput_merged (absorbed : List (Absorbed φ)) :
    (merged step absorbed).turnOutput =
      step.turnOutput ++ absorbed.flatMap fun absorbed => absorbed.step.turnOutput := by
  unfold merged
  induction absorbed generalizing step with
  | nil => exact (append_nil _).symm
  | cons first rest ih =>
    rw [foldl_cons, ih, flatMap_cons, ← append_assoc]
    rfl

lemma backgroundTurns_merged (absorbed : List (Absorbed φ)) :
    (merged step absorbed).backgroundTurns =
      step.backgroundTurns ++ absorbed.flatMap fun absorbed => absorbed.step.backgroundTurns := by
  unfold merged
  induction absorbed generalizing step with
  | nil => exact (append_nil _).symm
  | cons first rest ih =>
    rw [foldl_cons, ih, flatMap_cons, ← append_assoc]
    rfl

/-- **What is reported of a chunk is what is reported of its pieces.** -/
theorem feedPieces_eq (env : Platform ν φ) (stream : Stream φ) (chunk)
    {step} (hstep : step.failure = none) :
    Router.feedPieces env chunk (stream.router, step) =
      ((stream.behind (stream.absorbedPieces env chunk)).router, merged step (stream.absorbedPieces env chunk)) := by
  induction chunk generalizing stream step with
  | nil => rfl
  | cons piece chunk ih =>
    have habsorb : stream.router.absorb env piece (piece.getLast? = some newline) step =
        ((stream.absorbed env piece).after.router, step.merge (stream.absorbed env piece).step) :=
      Router.uniform_absorb stream.router env piece _ step
    have hfail : (step.merge (stream.absorbed env piece).step).failure =
        (stream.absorbed env piece).step.failure := by
      unfold RouterStep.merge
      rw [hstep, Option.or_none]
    unfold Stream.absorbedPieces
    rw [Router.feedPieces, if_neg (by rw [hstep]; decide), habsorb]
    dsimp only
    cases hfailed : (stream.absorbed env piece).step.failure with
    | some error =>
      rw [Router.feedPieces_failed env chunk (by rw [hfail, hfailed]; rfl)]
      rfl
    | none =>
      rw [ih (stream.absorbed env piece).after (hfail.trans hfailed)]
      rfl

/-- The events of a run: the calls but for the feeds, and what the feeds absorb. -/
inductive StreamEvent (φ : Type)
  | called (call : RouterCall) (before : Router φ)
  | absorbed (absorbed : Absorbed φ)

namespace RouterCall

/-- What is absorbed in a call. -/
def absorbs (env : Platform ν φ) (stream : Stream φ) : RouterCall → List (Absorbed φ)
  | feed _ chunk => stream.absorbedPieces env (pieces chunk)
  | _ => []

def events (env : Platform ν φ) (stream : Stream φ) : RouterCall → List (StreamEvent φ)
  | feed _ chunk => (stream.absorbedPieces env (pieces chunk)).map .absorbed
  | call => [.called call stream.router]

/-- The stream after a call. -/
def streamed (env : Platform ν φ) (stream : Stream φ) (call : RouterCall) : Stream φ :=
  ⟨(call.run env stream.router).1, (stream.behind (call.absorbs env stream)).fed⟩

end RouterCall

/-- The events of a run. -/
def streamRun (env : Platform ν φ) (stream : Stream φ) : List RouterCall → List (StreamEvent φ)
  | [] => []
  | call :: calls => call.events env stream ++ streamRun env (call.streamed env stream) calls

def afterStream (env : Platform ν φ) (stream : Stream φ) (calls : List RouterCall) : Stream φ :=
  calls.foldl (RouterCall.streamed env) stream

/-- A piece of a chunk: only its last byte may be a newline. -/
def IsPiece (piece : List UInt8) : Prop := piece ≠ [] ∧ newline ∉ piece.dropLast

/-- One piece, a call that is no feed, or the report at the end of a feed. -/
inductive Moves (env : Platform ν φ) : Stream φ → List (StreamEvent φ) → Stream φ → Prop
  | piece (stream : Stream φ) (piece : List UInt8) (h : IsPiece piece) :
      Moves env stream [.absorbed (stream.absorbed env piece)] (stream.absorbed env piece).after
  | call (stream : Stream φ) (call : RouterCall) (h : call.isFeed = false) :
      Moves env stream [.called call stream.router] ⟨(call.run env stream.router).1, stream.fed⟩
  | report (stream : Stream φ) (now : ℕ) :
      Moves env stream [] ⟨(stream.router.backgroundChange now).1, stream.fed⟩

lemma isPiece_of_mem {chunk piece} (h : piece ∈ pieces chunk) : IsPiece piece := by
  induction chunk generalizing piece with
  | nil => cases h
  | cons byte chunk ih =>
    unfold pieces at h
    split at h
    · rcases mem_cons.1 h with rfl | hrest
      · exact ⟨cons_ne_nil _ _, not_mem_nil⟩
      · exact ih hrest
    · rename_i hbyte
      split at h
      · obtain rfl := mem_singleton.1 h
        exact ⟨cons_ne_nil _ _, not_mem_nil⟩
      · rename_i first rest heq
        rw [heq] at ih
        rcases mem_cons.1 h with rfl | hrest
        · obtain ⟨hne, hnewline⟩ := ih mem_cons_self
          refine ⟨cons_ne_nil _ _, ?_⟩
          rw [dropLast_cons_of_ne_nil hne, mem_cons, not_or]
          exact ⟨fun h => hbyte h.symm, hnewline⟩
        · exact ih (mem_cons_of_mem _ hrest)

lemma flatten_pieces (chunk) : (pieces chunk).flatten = chunk := by
  induction chunk with
  | nil => rfl
  | cons byte chunk ih =>
    unfold pieces
    split
    · rw [flatten_cons, ih]
      rfl
    · split
      · rename_i heq
        rw [heq] at ih
        rw [← ih]
        rfl
      · rename_i first rest heq
        rw [heq] at ih
        rw [← ih]
        rfl

section Runs

variable (env : Platform ν φ) (stream : Stream φ)

lemma reaches_absorbedPieces (chunk)
    (h : ∀ piece ∈ chunk, IsPiece piece) :
    Reaches (Moves env) stream ((stream.absorbedPieces env chunk).map .absorbed)
      (stream.behind (stream.absorbedPieces env chunk)) := by
  induction chunk generalizing stream with
  | nil => exact .refl stream
  | cons piece chunk ih =>
    have hpiece : Moves env stream [.absorbed (stream.absorbed env piece)]
        (stream.absorbed env piece).after := .piece stream piece (h piece mem_cons_self)
    unfold Stream.absorbedPieces
    dsimp only
    split_ifs
    · exact .single hpiece
    · exact .next hpiece (ih _ fun other hoth => h other (mem_cons_of_mem _ hoth))

lemma streamed_feed (now : ℕ) (chunk : List UInt8) :
    (RouterCall.feed now chunk).streamed env stream =
      ⟨((stream.behind (stream.absorbedPieces env (pieces chunk))).router.backgroundChange now).1,
        (stream.behind (stream.absorbedPieces env (pieces chunk))).fed⟩ := by
  have hrouter : ((RouterCall.feed now chunk).run env stream.router).1 =
      ((Router.feedPieces env (pieces chunk) (stream.router, .default)).1.backgroundChange now).1 := rfl
  unfold RouterCall.streamed
  rw [hrouter, feedPieces_eq env stream (pieces chunk) rfl]
  rfl

theorem reaches_events (call : RouterCall) :
    Reaches (Moves env) stream (call.events env stream) (call.streamed env stream) := by
  cases call with
  | feed now chunk =>
    have hpieces := reaches_absorbedPieces env stream (pieces chunk) fun _ h => isPiece_of_mem h
    have hreport := hpieces.trans (.single (Moves.report _ now))
    rw [append_nil] at hreport
    rw [streamed_feed]
    exact hreport
  | _ => exact .single (Moves.call stream _ rfl)

theorem reaches_streamRun (calls : List RouterCall) :
    Reaches (Moves env) stream (streamRun env stream calls) (afterStream env stream calls) := by
  induction calls generalizing stream with
  | nil => exact .refl stream
  | cons call calls ih => exact (reaches_events env stream call).trans (ih (call.streamed env stream))

lemma step_feed (now : ℕ) (chunk : List UInt8) :
    (stream.router.feed env now chunk).2.turnOutput =
        ((RouterCall.feed now chunk).absorbs env stream).flatMap (fun absorbed => absorbed.step.turnOutput) ∧
      (stream.router.feed env now chunk).2.backgroundTurns =
        ((RouterCall.feed now chunk).absorbs env stream).flatMap fun absorbed =>
          absorbed.step.backgroundTurns := by
  unfold Router.feed
  rw [feedPieces_eq env stream (pieces chunk) rfl]
  exact ⟨turnOutput_merged _ _, backgroundTurns_merged _ _⟩

end Runs

lemma pieces_of_line {body} (h : newline ∉ body) : pieces (body ++ [newline]) = [body ++ [newline]] := by
  induction body with
  | nil => rfl
  | cons byte body ih =>
    rw [mem_cons, not_or] at h
    rw [cons_append]
    unfold pieces
    rw [if_neg fun heq => h.1 heq.symm, ih h.2]

lemma pieces_of_part {part} (h : newline ∉ part) (hne : part ≠ []) : pieces part = [part] := by
  induction part with
  | nil => exact absurd rfl hne
  | cons byte part ih =>
    rw [mem_cons, not_or] at h
    unfold pieces
    rw [if_neg fun heq => h.1 heq.symm]
    cases part with
    | nil => rfl
    | cons next part => rw [ih h.2 (cons_ne_nil _ _)]

section Chunk

variable (env : Platform ν φ) (stream : Stream φ) (now : ℕ) {line : List UInt8}

lemma absorbedPieces_of_line (h : pieces line = [line]) :
    stream.absorbedPieces env (pieces line) = [stream.absorbed env line] := by
  rw [h]
  unfold Stream.absorbedPieces
  dsimp only
  split_ifs <;> rfl

lemma events_of_line (h : pieces line = [line]) :
    (RouterCall.feed now line).events env stream = [.absorbed (stream.absorbed env line)] := by
  change (stream.absorbedPieces env (pieces line)).map StreamEvent.absorbed = _
  rw [absorbedPieces_of_line env stream h]
  rfl

lemma streamed_of_line (h : pieces line = [line]) :
    (RouterCall.feed now line).streamed env stream =
      ⟨((stream.absorbed env line).after.router.backgroundChange now).1, (stream.absorbed env line).after.fed⟩ := by
  rw [streamed_feed, absorbedPieces_of_line env stream h]
  rfl

end Chunk

namespace Stream

section Piece

variable (env : Platform ν φ) {stream : Stream φ} {piece : List UInt8}

lemma toNat_complete_le (hpiece : IsPiece piece) : (stream.absorbed env piece).complete.toNat ≤ piece.length := by
  have hlen := length_pos_iff.2 hpiece.1
  cases (stream.absorbed env piece).complete
  · exact Nat.zero_le _
  · exact hlen

lemma buffering_of_short (hok : stream.Ok) (hpiece : IsPiece piece)
    (hsht : (stream.absorbed env piece).Short) : stream.router.mode = .buffering := by
  by_contra hmode
  have hlong := (hok.long hmode).2
  have hle : (stream.absorbed env piece).complete.toNat ≤ piece.length := toNat_complete_le env hpiece
  have hline : (stream.absorbed env piece).line.length = stream.fed.length + piece.length := length_append
  unfold Absorbed.Short at hsht
  omega

lemma absorb_buffering {router : Router φ} (hmode : router.mode = .buffering) (piece)
    (complete : Bool) (step) :
    router.absorb env piece complete step =
      if maxRoutedLineBytes < (router.line ++ piece).length - complete.toNat then
        { router with line := router.line ++ piece }.overflow complete step
      else if !complete then ({ router with line := router.line ++ piece }, step)
      else { router with line := [] }.routeLine env (router.line ++ piece) step := by
  unfold Router.absorb
  dsimp only
  split
  · rename_i h
    rw [hmode] at h
    cases h
  · rename_i h
    rw [hmode] at h
    cases h
  · rfl

lemma absorbed_eq :
    ((stream.absorbed env piece).after.router, (stream.absorbed env piece).step) =
      stream.router.absorb env piece (stream.absorbed env piece).complete .default := rfl

lemma line_absorbed (hok : stream.Ok) (hmode : stream.router.mode = .buffering) :
    stream.router.line ++ piece = (stream.absorbed env piece).line := by
  rw [(hok.buffering hmode).1]
  rfl

/-- **A short line that is complete is routed.** -/
theorem absorbed_routed (hok : stream.Ok) (hpiece : IsPiece piece)
    (hsht : (stream.absorbed env piece).Short) (hcmp : (stream.absorbed env piece).complete) :
    ((stream.absorbed env piece).after.router, (stream.absorbed env piece).step) =
      { stream.router with line := [] }.routeLine env (stream.absorbed env piece).line .default := by
  have hmode := buffering_of_short env hok hpiece hsht
  unfold Absorbed.Short at hsht
  rw [absorbed_eq env, absorb_buffering env hmode, line_absorbed env hok hmode, if_neg (by omega),
    if_neg (by rw [hcmp]; decide)]

theorem absorbed_kept (hok : stream.Ok) (hpiece : IsPiece piece)
    (hsht : (stream.absorbed env piece).Short) (hcmp : (stream.absorbed env piece).complete = false) :
    ((stream.absorbed env piece).after.router, (stream.absorbed env piece).step) =
      ({ stream.router with line := (stream.absorbed env piece).line }, .default) := by
  have hmode := buffering_of_short env hok hpiece hsht
  unfold Absorbed.Short at hsht
  rw [absorbed_eq env, absorb_buffering env hmode, line_absorbed env hok hmode, if_neg (by omega),
    if_pos (by rw [hcmp]; rfl)]

/-- **A buffered line that has grown too long overflows.** -/
theorem absorbed_overflow (hok : stream.Ok) (hmode : stream.router.mode = .buffering)
    (hlong : ¬ (stream.absorbed env piece).Short) :
    ((stream.absorbed env piece).after.router, (stream.absorbed env piece).step) =
      { stream.router with line := (stream.absorbed env piece).line }.overflow
        (stream.absorbed env piece).complete .default := by
  unfold Absorbed.Short at hlong
  rw [absorbed_eq env, absorb_buffering env hmode, line_absorbed env hok hmode, if_pos (by omega)]

lemma not_short (hok : stream.Ok) (hpiece : IsPiece piece) (hmode : stream.router.mode ≠ .buffering) :
    ¬ (stream.absorbed env piece).Short := fun hsht =>
  hmode (buffering_of_short env hok hpiece hsht)

lemma mode_overflow (router : Router φ) (complete : Bool) (step : RouterStep) :
    (router.overflow complete step).1.line = [] ∧
      ((router.overflow complete step).1.mode = .buffering ↔ complete) := by
  have hskip : (if complete then LineMode.buffering else .skipping) = .buffering ↔ complete := by
    cases complete <;> decide
  have hstr : (if complete then LineMode.buffering else .streaming) = .buffering ↔ complete := by
    cases complete <;> decide
  unfold Router.overflow
  by_cases hcand : lifecycleCandidate router.line
  · rw [if_pos hcand]
    exact ⟨rfl, hskip⟩
  rw [if_neg hcand]
  by_cases hown : Router.owned { router with
      line := [], mode := if complete then LineMode.buffering else .skipping }
  · rw [if_pos hown]
    exact ⟨rfl, hstr⟩
  rw [if_neg hown]
  cases router.unsolicited with
  | none => exact ⟨rfl, hskip⟩
  | some active => exact ⟨rfl, hskip⟩

lemma absorb_long {router : Router φ} (hmode : router.mode ≠ .buffering) (piece)
    (complete : Bool) (step) :
    router.absorb env piece complete step =
      ({ router with mode := if complete then .buffering else router.mode },
        if router.mode = .streaming then { step with turnOutput := step.turnOutput ++ piece } else step) := by
  unfold Router.absorb
  dsimp only
  split
  · rename_i h
    rw [if_pos h]
  · rename_i h
    have hskip : router.mode ≠ .streaming := by
      rw [h]
      decide
    rw [if_neg hskip]
  · rename_i h
    exact absurd h hmode

lemma ok_of_complete (hcmp : (stream.absorbed env piece).complete)
    (hmode : (stream.absorbed env piece).after.router.mode = .buffering)
    (hline : (stream.absorbed env piece).after.router.line = []) : (stream.absorbed env piece).after.Ok where
  buffering := fun _ => by
    have hfed : (stream.absorbed env piece).after.fed = [] := if_pos hcmp
    rw [hfed]
    exact ⟨hline, Nat.zero_le _⟩
  long := fun h => absurd hmode h

lemma fed_after (hcmp : (stream.absorbed env piece).complete = false) :
    (stream.absorbed env piece).after.fed = (stream.absorbed env piece).line :=
  if_neg (by
    have h : decide (piece.getLast? = some newline) = false := hcmp
    rw [h]
    decide)

lemma ok_of_long (hcmp : (stream.absorbed env piece).complete = false)
    (hlong : ¬ (stream.absorbed env piece).Short)
    (hmode : (stream.absorbed env piece).after.router.mode ≠ .buffering)
    (hline : (stream.absorbed env piece).after.router.line = []) :
    (stream.absorbed env piece).after.Ok where
  buffering := fun h => absurd h hmode
  long := fun _ => by
    rw [fed_after env hcmp]
    unfold Absorbed.Short at hlong
    rw [hcmp] at hlong
    exact ⟨hline, Nat.lt_of_not_le hlong⟩

/-- **A piece keeps the line that the router holds.** -/
theorem Ok.absorbed (hok : stream.Ok) (hpiece : IsPiece piece) : (stream.absorbed env piece).after.Ok := by
  by_cases hsht : (stream.absorbed env piece).Short
  · have hmode := buffering_of_short env hok hpiece hsht
    cases hcmp : (stream.absorbed env piece).complete with
    | true =>
      have hrouted := absorbed_routed env hok hpiece hsht hcmp
      have hstays := (Router.routes_routeLine { stream.router with line := [] } env
        (stream.absorbed env piece).line).toStays
      rw [← hrouted] at hstays
      exact ok_of_complete env hcmp (hstays.mode_eq.trans hmode) hstays.line_eq
    | false =>
      have hkept : (stream.absorbed env piece).after.router =
          { stream.router with line := (stream.absorbed env piece).line } :=
        congrArg Prod.fst (absorbed_kept env hok hpiece hsht hcmp)
      refine ⟨fun _ => ?_, fun h => absurd ?_ h⟩
      · rw [hkept, fed_after env hcmp]
        unfold Absorbed.Short at hsht
        rw [hcmp] at hsht
        exact ⟨rfl, hsht⟩
      · rw [hkept]
        exact hmode
  · have haft : (stream.absorbed env piece).after.router.line = [] ∧
        ((stream.absorbed env piece).after.router.mode = .buffering ↔ (stream.absorbed env piece).complete) := by
      by_cases hmode : stream.router.mode = .buffering
      · have hover := mode_overflow { stream.router with line := (stream.absorbed env piece).line }
          (stream.absorbed env piece).complete .default
        rwa [← absorbed_overflow env hok hmode hsht] at hover
      · have habsorb := (absorbed_eq env).trans (absorb_long env hmode piece
          (stream.absorbed env piece).complete .default)
        have hrouter := congrArg Prod.fst habsorb
        dsimp only at hrouter
        rw [hrouter]
        refine ⟨(hok.long hmode).1, ?_⟩
        cases (stream.absorbed env piece).complete
        · exact ⟨fun h => absurd h hmode, nofun⟩
        · exact ⟨fun _ => rfl, fun _ => rfl⟩
    cases hcmp : (stream.absorbed env piece).complete with
    | true => exact ok_of_complete env hcmp (haft.2.2 hcmp) haft.1
    | false =>
      refine ok_of_long env hcmp hsht (fun h => ?_) haft.1
      rw [haft.2.1 h] at hcmp
      cases hcmp

end Piece

end Stream

namespace Router

/-- The bytes of the line and the background turn are left. -/
structure Holds (router next : Router φ) : Prop where
  line_eq : next.line = router.line
  mode_eq : next.mode = router.mode
  unsolicited_eq : next.unsolicited = router.unsolicited

lemma holds_backgroundChange (router : Router φ) (now : ℕ) : Holds router (router.backgroundChange now).1 := by
  have hstays := stays_backgroundChange router now
  refine ⟨hstays.line_eq, hstays.mode_eq, ?_⟩
  have hrefresh : (router.refreshWakeUp now).unsolicited = router.unsolicited := by
    unfold refreshWakeUp
    dsimp only
    split_ifs <;> rfl
  rw [← hrefresh]
  unfold backgroundChange
  dsimp only
  split_ifs <;> rfl

theorem holds_run (env : Platform ν φ) (router : Router φ) {call : RouterCall}
    (hcall : call.isFeed = false) : Holds router (call.run env router).1 := by
  cases call with
  | feed now chunk => cases hcall
  | withdrawInterrupt requestId =>
    change Holds router (router.withdrawInterrupt requestId)
    unfold withdrawInterrupt
    split_ifs <;> exact ⟨rfl, rfl, rfl⟩
  | settleFinishedForeground =>
    change Holds router router.settleFinishedForeground.1
    unfold settleFinishedForeground
    dsimp only
    split_ifs <;> exact ⟨rfl, rfl, rfl⟩
  | _ => exact ⟨rfl, rfl, rfl⟩

end Router

namespace Stream

lemma Ok.of_holds {stream : Stream φ} {next : Router φ} (hok : stream.Ok)
    (h : Router.Holds stream.router next) : Ok ⟨next, stream.fed⟩ where
  buffering := fun hmode => by
    rw [h.line_eq]
    exact hok.buffering (h.mode_eq.symm.trans hmode)
  long := fun hmode => by
    rw [h.line_eq]
    exact hok.long fun hbuff => hmode (h.mode_eq.trans hbuff)

theorem ok_moves (env : Platform ν φ) (stream : Stream φ) (events)
    (next) (hok : stream.Ok) (h : Moves env stream events next) : next.Ok := by
  cases h with
  | piece piece hpiece => exact hok.absorbed env hpiece
  | call call hcall => exact hok.of_holds (Router.holds_run env stream.router hcall)
  | report now => exact hok.of_holds (Router.holds_backgroundChange stream.router now)

end Stream

end CodevoEditor.ClaudeSession
