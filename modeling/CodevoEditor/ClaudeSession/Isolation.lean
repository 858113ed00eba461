/-
# Turns and the lines of others

What one attachment is given of a line is the line from its beginning, as far as it has come, or
what is passed on of it once it is complete.
-/

import CodevoEditor.ClaudeSession.LineAccounts

namespace CodevoEditor.ClaudeSession

open Runs List

variable {ν φ : Type}

/-- What has been given of a line is all of it so far, what is passed on of it, or nothing. -/
def LineFrom (env : Platform ν φ) (absorbed : Absorbed φ) (given : List UInt8) : Prop :=
  given = [] ∨ given = absorbed.line ∨ absorbed.complete ∧ absorbed.Short ∧ given = (absorbed.passing env).bytes

/-- What has been given of the line that is not complete. -/
def givenAfter (given : List UInt8) (absorbed : Absorbed φ) : List UInt8 :=
  if absorbed.complete then [] else given ++ absorbed.step.turnOutput

def givenOf : List UInt8 → List (StreamEvent φ) → List UInt8
  | given, [] => given
  | given, .called _ _ :: events => givenOf given events
  | given, .absorbed absorbed :: events => givenOf (givenAfter given absorbed) events

/-- Nothing but lines, where some has been given of the line that is not complete. -/
def IsolatedFrom (env : Platform ν φ) : List UInt8 → List (StreamEvent φ) → Prop
  | _, [] => True
  | given, .called _ _ :: events => IsolatedFrom env given events
  | given, .absorbed absorbed :: events =>
    LineFrom env absorbed (given ++ absorbed.step.turnOutput) ∧ IsolatedFrom env (givenAfter given absorbed) events

/-- **What an attachment is given is lines**, the last of which may be cut. -/
def Isolated (env : Platform ν φ) (events : List (StreamEvent φ)) : Prop := IsolatedFrom env [] events

/-- The events of a run in which a turn is attached, from its beginning. -/
structure Attachment (events : List (StreamEvent φ)) (before : Router φ) (body : List (StreamEvent φ)) :
    Prop where
  attached : ∃ front lifecycle back, events = front ++ .called (.attach lifecycle) before :: (body ++ back)
  absorbs : ∀ absorbed, .absorbed absorbed ∈ body → absorbed.before.router.attached.isSome
  single : ∀ call router, .called call router ∈ body → call.isAttach = false

lemma isolatedFrom_append (env : Platform ν φ) (given : List UInt8)
    (events later) :
    IsolatedFrom env given (events ++ later) ↔
      IsolatedFrom env given events ∧ IsolatedFrom env (givenOf given events) later := by
  induction events generalizing given with
  | nil => exact ⟨fun h => ⟨trivial, h⟩, And.right⟩
  | cons event events ih =>
    cases event with
    | called call router => exact ih given
    | absorbed absorbed => exact (and_congr_right fun _ => ih _).trans (and_assoc).symm

/-- **In the middle of a line, all of it has been given** where it is passed on in pieces, and
nothing of it where it is not. -/
structure Given (stream : Stream φ) (given : List UInt8) : Prop where
  ok : stream.Ok
  streaming : stream.router.mode = .streaming → given = stream.fed
  quiet : stream.router.mode ≠ .streaming → given = []

section Pieces

lemma overflow_output (router : Router φ) (complete : Bool) :
    ((router.overflow complete .default).2.turnOutput = router.line ∧
        (complete = false → (router.overflow complete .default).1.mode = .streaming)) ∨
      (router.overflow complete .default).2.turnOutput = [] ∧
        (router.overflow complete .default).1.mode ≠ .streaming := by
  have hskip : (if complete then LineMode.buffering else .skipping) ≠ .streaming := by
    cases complete <;> decide
  unfold Router.overflow
  by_cases hcand : lifecycleCandidate router.line
  · rw [if_pos hcand]
    exact .inr ⟨rfl, hskip⟩
  rw [if_neg hcand]
  by_cases hown : Router.owned { router with
      line := [], mode := if complete then LineMode.buffering else .skipping }
  · rw [if_pos hown]
    exact .inl ⟨rfl, fun h => by rw [h]; rfl⟩
  rw [if_neg hown]
  cases router.unsolicited with
  | none => exact .inr ⟨rfl, hskip⟩
  | some active => exact .inr ⟨rfl, hskip⟩

variable (env : Platform ν φ) {stream : Stream φ} {piece given : List UInt8}

lemma given_of_complete (hok : stream.Ok) (hpiece : IsPiece piece)
    (hcmp : (stream.absorbed env piece).complete) :
    Given (stream.absorbed env piece).after (givenAfter given (stream.absorbed env piece)) := by
  have haft := hok.absorbed env hpiece
  have hnone : givenAfter given (stream.absorbed env piece) = [] := if_pos hcmp
  rw [hnone]
  refine ⟨haft, fun hmode => ?_, fun _ => rfl⟩
  have hfed : (stream.absorbed env piece).after.fed = [] := if_pos hcmp
  exact hfed.symm

lemma given_of_long (hgiv : Given stream given)
    (hlong : ¬ (stream.absorbed env piece).Short) :
    (given ++ (stream.absorbed env piece).step.turnOutput = (stream.absorbed env piece).line ∧
        ((stream.absorbed env piece).complete = false → (stream.absorbed env piece).after.router.mode = .streaming)) ∨
      given ++ (stream.absorbed env piece).step.turnOutput = [] ∧
        (stream.absorbed env piece).after.router.mode ≠ .streaming := by
  by_cases hmode : stream.router.mode = .buffering
  · have hnone : given = [] := hgiv.quiet (by rw [hmode]; decide)
    rw [hnone, nil_append]
    have hover := overflow_output { stream.router with line := (stream.absorbed env piece).line }
      (stream.absorbed env piece).complete
    rwa [← Stream.absorbed_overflow env hgiv.ok hmode hlong] at hover
  · obtain ⟨hrouter, hstep⟩ := Prod.mk.inj ((Stream.absorbed_eq env).trans
      (Stream.absorb_long env hmode piece (stream.absorbed env piece).complete .default))
    rw [hrouter, hstep]
    by_cases hstr : stream.router.mode = .streaming
    · rw [if_pos hstr, hgiv.streaming hstr]
      refine .inl ⟨rfl, fun hcmp => ?_⟩
      rw [hcmp]
      exact hstr
    · rw [if_neg hstr, hgiv.quiet hstr]
      refine .inr ⟨rfl, ?_⟩
      cases (stream.absorbed env piece).complete
      · exact hstr
      · exact nofun

/-- **A piece gives a line**, where all of it has been given before. -/
theorem lineFrom_absorbed (hpiece : IsPiece piece) (hgiv : Given stream given) :
    LineFrom env (stream.absorbed env piece) (given ++ (stream.absorbed env piece).step.turnOutput) ∧
      Given (stream.absorbed env piece).after (givenAfter given (stream.absorbed env piece)) := by
  have hok := hgiv.ok
  have haft := hok.absorbed env hpiece
  set absorbed := stream.absorbed env piece with habs
  by_cases hsht : absorbed.Short
  · have hmode := Stream.buffering_of_short env hok hpiece hsht
    have hnone : given = [] := hgiv.quiet (by rw [hmode]; decide)
    rw [hnone, nil_append]
    cases hcmp : absorbed.complete with
    | true =>
      refine ⟨?_, given_of_complete env hok hpiece hcmp⟩
      have hrouted := Stream.absorbed_routed env hok hpiece hsht hcmp
      have hpasses := Router.passes_routeLine { stream.router with line := [] } env absorbed.line
      rw [← hrouted] at hpasses
      have houtput : absorbed.step.turnOutput = (absorbed.passing env).turnOutput := hpasses.turnOutput_eq
      rw [houtput]
      unfold Passing.turnOutput
      split_ifs
      · exact .inr (.inr ⟨hcmp, hsht, rfl⟩)
      · exact .inl rfl
    | false =>
      obtain ⟨hrouter, hstep⟩ := Prod.mk.inj (Stream.absorbed_kept env hok hpiece hsht hcmp)
      have houtput : absorbed.step.turnOutput = [] := congrArg RouterStep.turnOutput hstep
      have hgivenAfter : givenAfter [] absorbed = [] := by
        unfold givenAfter
        rw [houtput]
        split_ifs <;> rfl
      rw [houtput, hgivenAfter]
      refine ⟨.inl rfl, haft, fun hstr => ?_, fun _ => rfl⟩
      rw [hrouter, hmode] at hstr
      cases hstr
  · have hlong := given_of_long env hgiv hsht
    refine ⟨?_, ?_⟩
    · rcases hlong with ⟨hline, -⟩ | ⟨hnone, -⟩
      · exact .inr (.inl hline)
      · exact .inl hnone
    · cases hcmp : absorbed.complete with
      | true => exact given_of_complete env hok hpiece hcmp
      | false =>
        have hgivenAfter : givenAfter given absorbed = given ++ absorbed.step.turnOutput :=
          if_neg (by rw [hcmp]; decide)
        have hfed := Stream.fed_after env hcmp
        rw [hgivenAfter]
        refine ⟨haft, fun hstr => ?_, fun hqt => ?_⟩
        · rcases hlong with ⟨hline, -⟩ | ⟨-, hqt⟩
          · exact hline.trans hfed.symm
          · exact absurd hstr hqt
        · rcases hlong with ⟨-, hstr⟩ | ⟨hnone, -⟩
          · exact absurd (hstr hcmp) hqt
          · exact hnone

/-- Where a line is passed on in pieces of which none has been given, a piece gives no line. -/
lemma not_lineFrom_absorbed (hok : stream.Ok) (hpiece : IsPiece piece)
    (hstr : stream.router.mode = .streaming) :
    ¬ LineFrom env (stream.absorbed env piece) (stream.absorbed env piece).step.turnOutput := by
  have hmode : stream.router.mode ≠ .buffering := by
    rw [hstr]
    decide
  obtain ⟨-, hstep⟩ := Prod.mk.inj ((Stream.absorbed_eq env).trans
    (Stream.absorb_long env hmode piece (stream.absorbed env piece).complete .default))
  rw [if_pos hstr] at hstep
  have houtput : (stream.absorbed env piece).step.turnOutput = piece := congrArg RouterStep.turnOutput hstep
  rw [houtput]
  rintro (hnone | hline | ⟨-, hsht, -⟩)
  · exact hpiece.1 hnone
  · have hfed := (hok.long hmode).2
    have hlen := congrArg List.length hline
    unfold Absorbed.line at hlen
    rw [length_append] at hlen
    change piece.length = stream.fed.length + piece.length at hlen
    omega
  · exact Stream.not_short env hok hpiece hmode hsht

end Pieces

section Runs

variable {env : Platform ν φ} {stream next : Stream φ} {events : List (StreamEvent φ)}
  {given : List UInt8}

lemma Given.of_holds {router} (h : Given stream given)
    (hholds : Router.Holds stream.router router) : Given ⟨router, stream.fed⟩ given where
  ok := h.ok.of_holds hholds
  streaming := fun hmode => h.streaming (hholds.mode_eq.symm.trans hmode)
  quiet := fun hmode => h.quiet fun hstr => hmode (hholds.mode_eq.trans hstr)

lemma isolatedFrom_moves (hgiv : Given stream given) (h : Moves env stream events next) :
    IsolatedFrom env given events ∧ Given next (givenOf given events) := by
  cases h with
  | piece piece hpiece =>
    obtain ⟨hline, haft⟩ := lineFrom_absorbed env hpiece hgiv
    exact ⟨⟨hline, trivial⟩, haft⟩
  | call call hcall => exact ⟨trivial, hgiv.of_holds (Router.holds_run env stream.router hcall)⟩
  | report now => exact ⟨trivial, hgiv.of_holds (Router.holds_backgroundChange stream.router now)⟩

section

variable (hrun : Reaches (Moves env) stream events next)
include hrun

/-- **A run gives lines**, where all of the line in whose middle it begins has been given. -/
theorem isolatedFrom_reaches (hgiv : Given stream given) : IsolatedFrom env given events := by
  induction hrun generalizing given with
  | refl => exact trivial
  | next head _ ih =>
    obtain ⟨hevs, hmid⟩ := isolatedFrom_moves hgiv head
    exact (isolatedFrom_append env given _ _).2 ⟨hevs, ih hmid⟩

/-- **It does not where none of that line has been given** and a piece of it comes. -/
theorem not_isolatedFrom_reaches (hok : stream.Ok) (hstr : stream.router.mode = .streaming)
    (habsorbs : ∃ absorbed, .absorbed absorbed ∈ events) :
    ¬ Isolated env events := by
  induction hrun with
  | refl =>
    obtain ⟨absorbed, habs⟩ := habsorbs
    cases habs
  | @next stream middle last events rest head _ ih =>
    intro hisolated
    obtain ⟨hevs, hrest⟩ := (isolatedFrom_append env [] _ _).1 hisolated
    have hnext := Stream.ok_moves env stream events middle hok head
    cases head with
    | piece piece hpiece =>
      exact not_lineFrom_absorbed env hok hpiece hstr hevs.1
    | call call hcall =>
      refine ih hnext ((Router.holds_run env stream.router hcall).mode_eq.trans hstr) ?_ hrest
      obtain ⟨absorbed, habs⟩ := habsorbs
      rcases mem_append.1 habs with hhead | htail
      · cases mem_singleton.1 hhead
      · exact ⟨absorbed, htail⟩
    | report now =>
      exact ih hnext ((Router.holds_backgroundChange stream.router now).mode_eq.trans hstr) habsorbs hrest

lemma mode_of_calls (hcalls : ∀ absorbed, .absorbed absorbed ∉ events) :
    next.router.mode = stream.router.mode ∧
      ∀ call before, .called call before ∈ events → before.mode = stream.router.mode := by
  induction hrun with
  | refl => exact ⟨rfl, fun _ _ h => absurd h not_mem_nil⟩
  | @next stream middle last events rest head _ ih =>
    obtain ⟨hmode, hpre⟩ := ih fun absorbed habs =>
      hcalls absorbed (mem_append_right _ habs)
    have hhead : middle.router.mode = stream.router.mode := by
      cases head with
      | piece piece hpiece => exact absurd (mem_append_left _ (mem_singleton.2 rfl)) (hcalls _)
      | call call hcall => exact (Router.holds_run env stream.router hcall).mode_eq
      | report now => exact (Router.holds_backgroundChange stream.router now).mode_eq
    refine ⟨hmode.trans hhead, fun call before hmem => ?_⟩
    rcases mem_append.1 hmem with hfst | hrest
    · cases head with
      | piece piece hpiece => cases mem_singleton.1 hfst
      | call call hcall =>
        cases mem_singleton.1 hfst
        rfl
      | report now => cases hfst
    · exact (hpre call before hrest).trans hhead

end

lemma isolatedFrom_of_calls (env : Platform ν φ) (given : List UInt8)
    (hcalls : ∀ absorbed, .absorbed absorbed ∉ events) : IsolatedFrom env given events := by
  induction events with
  | nil => exact trivial
  | cons event events ih =>
    cases event with
    | called call before => exact ih fun absorbed h => hcalls absorbed (mem_cons_of_mem _ h)
    | absorbed absorbed => exact absurd mem_cons_self (hcalls absorbed)

lemma moves_one (stream) (events) (next) (h : Moves env stream events next) : events.length ≤ 1 := by
  cases h
  · exact le_rfl
  · exact le_rfl
  · exact Nat.zero_le _

/-- **An attachment is a run of its own**, from the line in whose middle it begins. -/
theorem reaches_attachment {before} {body} (hok : stream.Ok)
    (hrun : Reaches (Moves env) stream events next) (h : Attachment events before body) :
    ∃ start last, Reaches (Moves env) start body last ∧ start.Ok ∧ start.router.mode = before.mode := by
  obtain ⟨front, lifecycle, back, hspl⟩ := h.attached
  obtain ⟨attaching, hfr, hrest⟩ := hrun.split moves_one hspl
  have hcons : StreamEvent.called (.attach lifecycle) before :: (body ++ back) =
      [.called (.attach lifecycle) before] ++ (body ++ back) := rfl
  obtain ⟨start, hattach, hbody⟩ := hrest.split moves_one hcons
  obtain ⟨last, hbody, -⟩ := hbody.split moves_one rfl
  have hst := hattach.invariant (Stream.ok_moves env) (hfr.invariant (Stream.ok_moves env) hok)
  obtain ⟨hmode, hpre⟩ := mode_of_calls hattach fun absorbed habs => by
    cases mem_singleton.1 habs
  exact ⟨start, last, hbody, hst, hmode.trans (hpre _ before (mem_singleton.2 rfl)).symm⟩

end Runs

/-- **When attachments are isolated**: a turn is given whole lines if and only if nothing is fed to
it or it is not attached in the middle of a line. -/
theorem attachments_are_isolated (env : Platform ν φ) (cap : ℕ) (calls : List RouterCall)
    {before : Router φ} {body : List (StreamEvent φ)}
    (h : Attachment (streamRun env (.start env cap) calls) before body) :
    Isolated env body ↔ ¬ (before.mode = .streaming ∧ ∃ absorbed, .absorbed absorbed ∈ body) := by
  obtain ⟨start, last, hrun, hok, hmode⟩ :=
    reaches_attachment (Stream.ok_start env cap) (reaches_streamRun env (.start env cap) calls) h
  constructor
  · rintro hisolated ⟨hstream, habsorbs⟩
    exact not_isolatedFrom_reaches hrun hok (hmode.trans hstream) habsorbs hisolated
  · intro hcondition
    by_cases hstream : before.mode = .streaming
    · have hcalls : ∀ absorbed, .absorbed absorbed ∉ body := fun absorbed habs =>
        hcondition ⟨hstream, absorbed, habs⟩
      exact isolatedFrom_of_calls env [] hcalls
    · refine isolatedFrom_reaches hrun ⟨hok, fun h => ?_, fun _ => rfl⟩
      exact absurd (hmode.symm.trans h) hstream

/-- A turn that is attached at the start, and is fed a line of which nothing is known. -/
theorem attachments_are_isolated_start :
    Isolated barePlatform
      ((RouterCall.feed 0 [97, newline]).events barePlatform
        ((RouterCall.attach (.new "first")).streamed barePlatform (.start barePlatform wakeUpReplyCap))) :=
  (attachments_are_isolated barePlatform wakeUpReplyCap [.attach (.new "first"), .feed 0 [97, newline]]
    ⟨⟨[], .new "first", [], rfl⟩, fun absorbed h => by cases mem_singleton.1 h; rfl,
      fun call router h => by cases mem_singleton.1 h⟩).2 fun h => by cases h.1

section Torn

variable (env : Platform ν φ) {stream : Stream φ} {line : List UInt8}

lemma streaming_of_overflow (router : Router φ) (hcand : lifecycleCandidate router.line = false)
    (hown : router.owned) : (router.overflow false .default).1.mode = .streaming := by
  have howned' : Router.owned { router with
      line := [], mode := if false then .buffering else .skipping } := hown
  unfold Router.overflow
  rw [if_neg (by rw [hcand]; decide), if_pos howned']
  rfl

lemma streaming_of_part (now : ℕ) (hok : stream.Ok) (hmode : stream.router.mode = .buffering)
    (hown : stream.router.owned) (hpart : newline ∉ line)
    (hlong : maxRoutedLineBytes < (stream.fed ++ line).length)
    (hcand : lifecycleCandidate (stream.fed ++ line) = false) (hne : line ≠ []) :
    ((RouterCall.feed now line).streamed env stream).router.mode = .streaming := by
  have hcmp : (stream.absorbed env line).complete = false := by
    refine decide_eq_false fun hlast => hpart ?_
    exact mem_of_getLast? hlast
  have hsht : ¬ (stream.absorbed env line).Short := by
    unfold Absorbed.Short
    rw [hcmp]
    exact Nat.not_le.2 hlong
  have hover := congrArg Prod.fst (Stream.absorbed_overflow env hok hmode hsht)
  rw [streamed_of_line env stream now (pieces_of_part hpart hne)]
  rw [(Router.holds_backgroundChange _ now).mode_eq]
  dsimp only at hover
  rw [hover, hcmp]
  exact streaming_of_overflow { stream.router with line := stream.fed ++ line } hcand hown

/-- **The rest of the line is output of the turn that is attached in its middle.** -/
theorem attachment_of_torn (first second) (now : ℕ) {part rest}
    (hpart : newline ∉ part) (hrest : pieces rest = [rest]) (hlong : maxRoutedLineBytes < part.length)
    (hcand : lifecycleCandidate part = false) (cap : ℕ) :
    ∃ before absorbed, Attachment (streamRun env (.start env cap)
        [.attach first, .feed now part, .detach, .attach second, .feed now rest]) before
        [.absorbed absorbed] ∧ before.mode = .streaming := by
  set attached := (RouterCall.attach first).streamed env (.start env cap) with hatt
  set torn := (RouterCall.feed now part).streamed env attached with htorn
  set detached := RouterCall.detach.streamed env torn with hdet
  set again := (RouterCall.attach second).streamed env detached with hagain
  have hne : part ≠ [] := fun h => by
    rw [h] at hlong
    cases hlong
  have hok : attached.Ok := ⟨fun _ => ⟨rfl, Nat.zero_le _⟩, fun h => absurd rfl h⟩
  have hstr : torn.router.mode = .streaming := streaming_of_part env now hok rfl rfl hpart hlong hcand hne
  refine ⟨detached.router, again.absorbed env rest, ⟨?_, fun absorbed h => ?_, fun call router h => ?_⟩, hstr⟩
  · refine ⟨(RouterCall.attach first).events env (.start env cap) ++
      ((RouterCall.feed now part).events env attached ++ RouterCall.detach.events env torn), second, [], ?_⟩
    have hevs := events_of_line env again now hrest
    change (RouterCall.attach first).events env (.start env cap) ++
      ((RouterCall.feed now part).events env attached ++ (RouterCall.detach.events env torn ++
        ([.called (.attach second) detached.router] ++ ((RouterCall.feed now rest).events env again ++ [])))) = _
    rw [hevs, append_assoc, append_assoc]
    rfl
  · cases mem_singleton.1 h
    rfl
  · cases mem_singleton.1 h

end Torn

/-- The beginning of an answer that is too long for a line. -/
def longPart : List UInt8 := asciiBytes "\x7b\"type\":\"assistant\"" ++ List.replicate maxRoutedLineBytes 97

/-- Its end. -/
def restPart : List UInt8 := [97, newline]

/-- A turn is attached in the middle of a line of the turn before. -/
def tornCalls : List RouterCall :=
  [.attach (.new "first"), .feed 0 longPart, .detach, .attach (.new "second"), .feed 0 restPart]

lemma newline_not_mem_longPart : newline ∉ longPart := fun hmem => by
  rcases mem_append.1 hmem with hkind | hfiller
  · exact absurd hkind (by decide)
  · exact absurd (eq_of_mem_replicate hfiller) (by decide)

lemma lt_length_longPart : maxRoutedLineBytes < longPart.length := by
  have hkind : (asciiBytes "\x7b\"type\":\"assistant\"").length = 19 := by decide
  unfold longPart
  rw [length_append, length_replicate, hkind]
  omega

lemma lifecycleCandidate_longPart : lifecycleCandidate longPart = false := by
  have hkind : (asciiBytes "\x7b\"type\":\"assistant\"").isPrefixOf longPart :=
    isPrefixOf_iff_prefix.2 (prefix_append _ _)
  unfold lifecycleCandidate
  rfl

lemma attachment_tornCalls :
    ∃ before absorbed, Attachment (streamRun barePlatform (.start barePlatform wakeUpReplyCap) tornCalls)
        before [.absorbed absorbed] ∧ before.mode = .streaming :=
  attachment_of_torn barePlatform (.new "first") (.new "second") 0 newline_not_mem_longPart
    (by decide) lt_length_longPart lifecycleCandidate_longPart wakeUpReplyCap

/-- **A line is torn**: the rest of it is given to the turn that is attached in its middle. -/
theorem torn_line_is_given :
    ¬ ∀ calls before body,
      Attachment (streamRun barePlatform (.start barePlatform wakeUpReplyCap) calls) before body →
      Isolated barePlatform body := by
  intro h
  obtain ⟨before, absorbed, hattachment, hstream⟩ := attachment_tornCalls
  obtain ⟨start, last, hrun, hok, hmode⟩ := reaches_attachment
    (Stream.ok_start barePlatform wakeUpReplyCap)
    (reaches_streamRun barePlatform (.start barePlatform wakeUpReplyCap) tornCalls) hattachment
  exact not_isolatedFrom_reaches hrun hok (hmode.trans hstream)
    ⟨absorbed, mem_singleton.2 rfl⟩ (h tornCalls before _ hattachment)

end CodevoEditor.ClaudeSession
