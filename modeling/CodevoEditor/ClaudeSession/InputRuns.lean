/-
# What a closed input has answered

Every message that has been reserved is accounted for when the input closes, and an interrupt that
is withdrawn leaves no trace.
-/

import CodevoEditor.ClaudeSession.InputLedger
import CodevoEditor.ClaudeSession.DetectorRuns

namespace CodevoEditor.ClaudeSession

open Js List OrderedMap

variable {ν φ : Type}

/-- What is asked of the ledger.  A reservation draws an id. -/
inductive InputCall (ν : Type)
  | reserve (id : String) (frame : List UInt8)
  | abandon (id : String)
  | abandonAll
  | beginInterrupt
  | withdrawInterrupt
  | observe (message : Json ν)
  | closeIfSettled

namespace InputCall

def run (env : Platform ν φ) (ledger : InputLedger) : InputCall ν → InputLedger
  | reserve id frame => (ledger.reserve id frame).1
  | abandon id => ledger.abandon id
  | abandonAll => ledger.abandonAll env
  | beginInterrupt => ledger.beginInterrupt env
  | withdrawInterrupt => ledger.withdrawInterrupt
  | observe message => (ledger.observe message).1
  | closeIfSettled => ledger.closeIfSettled.1

/-- The call is a line that tells the phase of an input. -/
def Shows (id phase : String) : InputCall ν → Prop
  | observe message => Reports message id phase
  | _ => False

def ShowsEnd (id : String) : InputCall ν → Prop
  | observe message => Ends message id
  | _ => False

def ShowsResult : InputCall ν → Prop
  | observe message => IsResult message
  | _ => False

end InputCall

def afterInput (env : Platform ν φ) (ledger : InputLedger) (calls : List (InputCall ν)) : InputLedger :=
  calls.foldl (InputCall.run env) ledger

variable {ledger : InputLedger}

section Calls

variable (env : Platform ν φ)

lemma afterInput_append (ledger) (front back) :
    afterInput env ledger (front ++ back) = afterInput env (afterInput env ledger front) back :=
  foldl_append

lemma ok_run (h : ledger.Ok) (call : InputCall ν) : (call.run env ledger).Ok := by
  cases call with
  | reserve id frame => exact h.reserve id frame
  | abandon id => exact h.abandon id
  | abandonAll => exact h.abandonAll env
  | beginInterrupt => exact h.beginInterrupt env
  | withdrawInterrupt => exact h.withdrawInterrupt
  | observe message => exact h.observe message
  | closeIfSettled => exact h.closeIfSettled

lemma afterInput_trace {P : List (InputCall ν) → InputLedger → Prop}
    (hstep : ∀ before ledger call, P before ledger → P (before ++ [call]) (call.run env ledger))
    (before calls) (h : P before ledger) :
    P (before ++ calls) (afterInput env ledger calls) := by
  induction calls generalizing before ledger with
  | nil =>
    rw [append_nil]
    exact h
  | cons call calls ih =>
    rw [append_cons]
    exact ih (before ++ [call]) (hstep before ledger call h)

lemma ok_afterInput (h : ledger.Ok) (calls) : (afterInput env ledger calls).Ok := by
  have hstep (before : List (InputCall ν)) (ledger : InputLedger) (call : InputCall ν) (hok : ledger.Ok) :
      (call.run env ledger).Ok := ok_run env hok call
  exact afterInput_trace env (P := fun _ ledger => ledger.Ok) hstep [] calls h

end Calls

/-! ### What has become of an input -/

section Fates

variable (id : String) (later : List (InputCall ν))

/-- **Started, completed, and followed by a result that came after its start.** -/
def Answered : Prop :=
  (∃ front start back, later = front ++ start :: back ∧ start.Shows id "started" ∧
    ∃ result ∈ back, result.ShowsResult) ∧
  ∃ done ∈ later, done.Shows id "completed"

def GivenUp : Prop := .abandon id ∈ later ∨ .abandonAll ∈ later

/-- An interrupt came that has not been withdrawn, or before whose withdrawal the process
ended the input or another interrupt came. -/
def Interrupted : Prop :=
  ∃ front back, later = front ++ .beginInterrupt :: back ∧
    ∀ meanwhile rest, back = meanwhile ++ .withdrawInterrupt :: rest →
      ∃ call ∈ meanwhile, call = .beginInterrupt ∨ call.ShowsEnd id

/-- An interrupt has lost the input for good. -/
def Lost : Prop :=
  ∃ front meanwhile rest, later = front ++ .beginInterrupt :: (meanwhile ++ rest) ∧
    .withdrawInterrupt ∉ meanwhile ∧ ∃ call ∈ meanwhile, call = .beginInterrupt ∨ call.ShowsEnd id

/-- An interrupt is under way. -/
def UnderWay : Prop :=
  ∃ front back, later = front ++ .beginInterrupt :: back ∧ .withdrawInterrupt ∉ back

/-- The progress that is written down has been seen. -/
structure Seen (results : ℕ) (pending : Pending) : Prop where
  completed : pending.completed → ∃ done ∈ later, done.Shows id "completed"
  started : ∀ begun, pending.startedAfter = some begun →
    ∃ front start back, later = front ++ start :: back ∧ start.Shows id "started" ∧
      (begun < results → ∃ result ∈ back, result.ShowsResult)

/-- **What has become of an input that has been reserved.** -/
inductive Fate (ledger : InputLedger) : Prop
  | pending (progress : Pending) (h : ledger.pending.get? id = some progress)
      (hseen : Seen id later ledger.results progress)
  | held (progress : Pending) (h : ledger.withdrawable.get? id = some progress)
      (hseen : Seen id later ledger.results progress) (hunderWay : UnderWay later)
  | answered (h : Answered id later)
  | givenUp (h : GivenUp id later)
  | lost (h : Lost id later)

end Fates

variable {call : InputCall ν}

section Steps

variable {id : String} {later : List (InputCall ν)} {results : ℕ} {progress : Pending}

lemma Answered.append (h : Answered id later) (call) : Answered id (later ++ [call]) := by
  obtain ⟨⟨front, start, back, rfl, hst, result, hres, hshows⟩, done, hdone, hcmp⟩ := h
  refine ⟨⟨front, start, back ++ [call], ?_, hst, result, mem_append_left _ hres, hshows⟩,
    done, mem_append_left _ hdone, hcmp⟩
  rw [append_assoc, cons_append]

lemma GivenUp.append (h : GivenUp id later) (call) : GivenUp id (later ++ [call]) :=
  h.imp (mem_append_left _) (mem_append_left _)

lemma Lost.append (h : Lost id later) (call) : Lost id (later ++ [call]) := by
  obtain ⟨front, meanwhile, rest, rfl, hopen, hlost⟩ := h
  refine ⟨front, meanwhile, rest ++ [call], ?_, hopen, hlost⟩
  simp only [append_assoc, cons_append]

lemma UnderWay.lost (h : UnderWay later) (hcall : call ≠ .withdrawInterrupt)
    (hlost : call = .beginInterrupt ∨ call.ShowsEnd id) : Lost id (later ++ [call]) := by
  obtain ⟨front, back, rfl, hopen⟩ := h
  refine ⟨front, back ++ [call], [], ?_, ?_, call, mem_append_right _ (mem_singleton_self _), hlost⟩
  · simp only [append_assoc, cons_append, append_nil]
  · rw [mem_append, mem_singleton, not_or]
    exact ⟨hopen, fun heq => hcall heq.symm⟩

lemma UnderWay.append (h : UnderWay later) (hcall : call ≠ .withdrawInterrupt) : UnderWay (later ++ [call]) := by
  obtain ⟨front, back, rfl, hopen⟩ := h
  refine ⟨front, back ++ [call], ?_, ?_⟩
  · rw [append_assoc, cons_append]
  · rw [mem_append, mem_singleton, not_or]
    exact ⟨hopen, fun heq => hcall heq.symm⟩

lemma seen_default (id : String) (later : List (InputCall ν)) (results : ℕ) :
    Seen id later results ⟨none, false⟩ := ⟨nofun, nofun⟩

lemma Seen.append (h : Seen id later results progress) (call) :
    Seen id (later ++ [call]) results progress where
  completed := fun hcmp => by
    obtain ⟨done, hdone, hshows⟩ := h.completed hcmp
    exact ⟨done, mem_append_left _ hdone, hshows⟩
  started := fun begun hbegun => by
    obtain ⟨front, start, back, rfl, hst, hres⟩ := h.started begun hbegun
    refine ⟨front, start, back ++ [call], by rw [append_assoc, cons_append], hst, fun hlt => ?_⟩
    obtain ⟨result, hmem, hshows⟩ := hres hlt
    exact ⟨result, mem_append_left _ hmem, hshows⟩

/-- **The progress after a line has been seen.** -/
theorem Seen.told (h : Seen id later results progress) {message} {next}
    (htold : told message id results progress = some next) :
    Seen id (later ++ [.observe message]) (resultsAfter message results) next := by
  have hlast : InputCall.observe message ∈ later ++ [.observe message] := mem_append_right _ (mem_singleton_self _)
  by_cases hres : IsResult message
  · have hsame : next = progress := by
      have hoth : message.strOf "type" ≠ some "command_lifecycle" := fun hcmd => by
        rw [IsResult, hcmd] at hres
        exact absurd (Option.some.inj hres) (by decide)
      rw [ClaudeInputLifecycle.told_of_other hoth] at htold
      exact (Option.some.inj htold).symm
    rw [hsame]
    refine ⟨(h.append _).completed, fun begun hbegun => ?_⟩
    obtain ⟨front, start, back, hlat, hst, -⟩ := h.started begun hbegun
    refine ⟨front, start, back ++ [.observe message], ?_, hst, fun _ => ⟨.observe message, ?_, hres⟩⟩
    · rw [hlat, append_assoc, cons_append]
    · exact mem_append_right _ (mem_singleton_self _)
  rw [resultsAfter_of_other hres]
  by_cases hnames : message.strOf "type" = some "command_lifecycle" ∧
      (message.strOf "command_uuid").getD "" = id
  · unfold ClaudeSession.told ClaudeInputLifecycle.advance at htold
    rw [if_pos hnames] at htold
    by_cases hstarted : (message.strOf "state").getD "" = "started"
    · rw [if_pos hstarted] at htold
      cases htold
      refine ⟨(h.append _).completed, fun begun hbegun => ?_⟩
      cases hpre : progress.startedAfter with
      | some start =>
        rw [hpre] at hbegun
        exact (h.append _).started begun (hpre.trans hbegun)
      | none =>
        rw [hpre] at hbegun
        cases hbegun
        exact ⟨later, .observe message, [], rfl, ⟨hnames.1, hnames.2, hstarted⟩, fun hlt => absurd hlt (lt_irrefl _)⟩
    rw [if_neg hstarted] at htold
    by_cases hcmp : (message.strOf "state").getD "" = "completed"
    · rw [if_pos hcmp] at htold
      cases htold
      exact ⟨fun _ => ⟨.observe message, hlast, hnames.1, hnames.2, hcmp⟩, (h.append _).started⟩
    split_ifs at htold
    cases htold
    exact h.append _
  · unfold ClaudeSession.told at htold
    rw [if_neg hnames] at htold
    cases htold
    exact h.append _

lemma Seen.answered (h : Seen id later results progress) (hfin : progress.finished results) :
    Answered id later := by
  unfold Pending.finished at hfin
  rw [Bool.and_eq_true, Option.any_eq_true] at hfin
  obtain ⟨hcmp, begun, hbegun, hlt⟩ := hfin
  obtain ⟨front, start, back, hlat, hst, hres⟩ := h.started begun hbegun
  exact ⟨⟨front, start, back, hlat, hst, hres (of_decide_eq_true hlt)⟩, h.completed hcmp⟩

theorem Fate.run (env : Platform ν φ) (h : Fate id later ledger) (hok : ledger.Ok)
    (call) : Fate id (later ++ [call]) (call.run env ledger) := by
  have hunfinished : ∀ progress, ledger.pending.get? id = some progress →
      progress.finished ledger.results = false := hok.unfinished id
  cases h with
  | answered h => exact .answered (h.append call)
  | givenUp h => exact .givenUp (h.append call)
  | lost h => exact .lost (h.append call)
  | pending progress hid hseen =>
    have hidle : ledger.interrupting = false := by
      rw [← Bool.not_eq_true]
      intro hbusy
      rw [hok.busy hbusy] at hid
      cases hid
    cases call with
    | reserve other frame =>
      have hget := InputLedger.get?_reserve ledger other frame id
      have hresults := (InputLedger.fields_reserve ledger other frame).2.1
      rcases hget with hsame | ⟨-, hnew⟩
      · exact .pending progress (hsame.trans hid) (by rw [InputCall.run, hresults]; exact hseen.append _)
      · exact .pending ⟨none, false⟩ hnew (seen_default _ _ _)
    | abandon other =>
      by_cases heq : other = id
      · rw [heq]
        exact .givenUp (.inl (mem_append_right _ (mem_singleton_self _)))
      · refine .pending progress ?_ (hseen.append _)
        change (ledger.pending.delete other).get? id = some progress
        rw [get?_delete, if_neg fun h => heq h.symm, hid]
    | abandonAll => exact .givenUp (.inr (mem_append_right _ (mem_singleton_self _)))
    | beginInterrupt => exact .held progress hid (hseen.append _) ⟨later, [], rfl, not_mem_nil⟩
    | withdrawInterrupt =>
      rw [InputCall.run, InputLedger.withdrawInterrupt_of_idle hidle]
      exact .pending progress hid (hseen.append _)
    | observe message =>
      have hget := hok.get?_pending_observe message id
      have hresults := InputLedger.results_observe ledger message
      rw [hid, Option.map_some] at hget
      cases htold : told message id ledger.results progress with
      | none =>
        have hsame : resultsAfter message ledger.results = ledger.results :=
          resultsAfter_of_other (told_eq_none_iff.1 htold).not_isResult _
        rw [htold, hsame, Option.getD_none, Option.filter_some, hunfinished progress hid] at hget
        refine .pending progress hget ?_
        rw [InputCall.run, hresults, hsame]
        exact hseen.append _
      | some next =>
        rw [htold, Option.getD_some, Option.filter_some] at hget
        have hnext := hseen.told htold
        cases hfin : next.finished (resultsAfter message ledger.results) with
        | true => exact .answered (hnext.answered hfin)
        | false =>
          rw [hfin] at hget
          refine .pending next hget ?_
          rw [InputCall.run, hresults]
          exact hnext
    | closeIfSettled =>
      obtain ⟨hpend, -, hresults, -⟩ := InputLedger.fields_closeIfSettled ledger
      refine .pending progress ?_ ?_
      · rw [InputCall.run, hpend, hid]
      · rw [InputCall.run, hresults]
        exact hseen.append _
  | held progress hid hseen hunderWay =>
    have hbusy : ledger.interrupting := by
      rw [← Bool.not_eq_false]
      intro hidle
      rw [hok.idle hidle] at hid
      cases hid
    cases call with
    | reserve other frame =>
      obtain ⟨hwithd, hresults, -⟩ := InputLedger.fields_reserve ledger other frame
      refine .held progress ?_ ?_ (hunderWay.append (nofun))
      · rw [InputCall.run, hwithd, hid]
      · rw [InputCall.run, hresults]
        exact hseen.append _
    | abandon other => exact .held progress hid (hseen.append _) (hunderWay.append (nofun))
    | abandonAll => exact .givenUp (.inr (mem_append_right _ (mem_singleton_self _)))
    | beginInterrupt => exact .lost (hunderWay.lost (nofun) (.inl rfl))
    | withdrawInterrupt =>
      have hget := hok.get?_withdrawInterrupt hbusy id
      rw [hid, Option.filter_some] at hget
      cases hfin : progress.finished ledger.results with
      | true => exact .answered ((hseen.answered hfin).append _)
      | false =>
        rw [hfin] at hget
        refine .pending progress hget ?_
        rw [InputCall.run, (InputLedger.fields_withdrawInterrupt ledger).1]
        exact hseen.append _
    | observe message =>
      have hget := hok.get?_withdrawable_observe message id
      rw [hid, Option.bind_some] at hget
      cases htold : told message id ledger.results progress with
      | none => exact .lost (hunderWay.lost (nofun) (.inr (told_eq_none_iff.1 htold)))
      | some next =>
        rw [htold] at hget
        refine .held next hget ?_ (hunderWay.append (nofun))
        rw [InputCall.run, InputLedger.results_observe]
        exact hseen.told htold
    | closeIfSettled =>
      obtain ⟨-, hwithd, hresults, -⟩ := InputLedger.fields_closeIfSettled ledger
      refine .held progress ?_ ?_ (hunderWay.append (nofun))
      · rw [InputCall.run, hwithd, hid]
      · rw [InputCall.run, hresults]
        exact hseen.append _

end Steps

lemma Lost.interrupted {id : String} {later : List (InputCall ν)} (h : Lost id later) : Interrupted id later := by
  obtain ⟨front, meanwhile, rest, hlat, hopen, call, hcall, hlost⟩ := h
  refine ⟨front, meanwhile ++ rest, hlat, fun before after hspl => ?_⟩
  rcases append_eq_append_iff.1 hspl with ⟨more, hpre, -⟩ | ⟨more, hmeanwhile, hmore⟩
  · refine ⟨call, ?_, hlost⟩
    rw [hpre]
    exact mem_append_left _ hcall
  · cases more with
    | nil =>
      rw [append_nil] at hmeanwhile
      exact ⟨call, hmeanwhile ▸ hcall, hlost⟩
    | cons first more =>
      obtain ⟨rfl, -⟩ := cons.inj hmore
      refine absurd ?_ hopen
      rw [hmeanwhile]
      exact mem_append_right _ mem_cons_self

lemma UnderWay.interrupted {later : List (InputCall ν)} (h : UnderWay later) (id : String) :
    Interrupted id later := by
  obtain ⟨front, back, hlat, hopen⟩ := h
  refine ⟨front, back, hlat, fun before after hspl => absurd ?_ hopen⟩
  rw [hspl]
  exact mem_append_right _ mem_cons_self

section Runs

variable (env : Platform ν φ)

variable {reserved : String × List UInt8} {frame : List UInt8} {id : String}

lemma fate_of_reserved (hok : ledger.Ok)
    (h : (ledger.reserve id frame).2 = .ok reserved) (later : List (InputCall ν)) :
    Fate id later (afterInput env ledger (.reserve id frame :: later)) := by
  have hst : Fate id ([] : List (InputCall ν)) (ledger.reserve id frame).1 :=
    .pending _ (InputLedger.get?_reserve_of_ok h) (seen_default _ _ _)
  have hstep before next call
      (hnext : Fate id before next ∧ next.Ok) :
      Fate id (before ++ [call]) (call.run env next) ∧ (call.run env next).Ok :=
    ⟨hnext.1.run env hnext.2 call, ok_run env hnext.2 call⟩
  exact (afterInput_trace env (P := fun before next => Fate id before next ∧ next.Ok) hstep [] later
    ⟨hst, hok.reserve id frame⟩).1

/-- **The input closes over answered messages only.** -/
theorem closes_accounted (hok : ledger.Ok)
    (h : (ledger.reserve id frame).2 = .ok reserved) (later)
    (hcl : (afterInput env ledger (.reserve id frame :: later)).closeIfSettled.2) :
    Answered id later ∨ GivenUp id later ∨ Interrupted id later := by
  have hsize : (afterInput env ledger (.reserve id frame :: later)).pending.size = 0 := by
    by_contra hsize
    unfold InputLedger.closeIfSettled ClaudeInputLifecycle.closeIfSettled at hcl
    rw [if_pos hsize] at hcl
    cases hcl
  have hnone := size_eq_zero_iff.1 hsize id
  cases fate_of_reserved env hok h later with
  | pending progress hid =>
    rw [hnone] at hid
    cases hid
  | held progress hid hseen hunderWay => exact .inr (.inr (hunderWay.interrupted id))
  | answered h => exact .inl h
  | givenUp h => exact .inr (.inl h)
  | lost h => exact .inr (.inr h.interrupted)

/-- The input is not pending, and what is held of it is finished. -/
structure Gone (id : String) (ledger : InputLedger) : Prop where
  pending : ledger.pending.get? id = none
  held : ∀ progress, ledger.withdrawable.get? id = some progress → progress.finished ledger.results

variable {env}

lemma Gone.run (h : Gone id ledger) (hok : ledger.Ok)
    (hcall : ∀ frame, call ≠ .reserve id frame) : Gone id (call.run env ledger) := by
  cases call with
  | reserve other frame =>
    obtain ⟨hwithd, hresults, -⟩ := InputLedger.fields_reserve ledger other frame
    rw [InputCall.run]
    refine ⟨?_, ?_⟩
    · rcases InputLedger.get?_reserve ledger other frame id with hsame | ⟨rfl, -⟩
      · exact hsame.trans h.pending
      · exact absurd rfl (hcall frame)
    · rw [hwithd, hresults]
      exact h.held
  | abandon other =>
    refine ⟨?_, h.held⟩
    change (ledger.pending.delete other).get? id = none
    rw [get?_delete, h.pending, ite_self]
  | abandonAll => exact ⟨rfl, h.held⟩
  | beginInterrupt =>
    refine ⟨rfl, fun progress hid => ?_⟩
    change ledger.pending.get? id = some progress at hid
    rw [h.pending] at hid
    cases hid
  | withdrawInterrupt =>
    rw [InputCall.run]
    cases hbusy : ledger.interrupting with
    | false =>
      rw [InputLedger.withdrawInterrupt_of_idle hbusy]
      exact h
    | true =>
      obtain ⟨-, hidle⟩ := InputLedger.fields_withdrawInterrupt ledger
      refine ⟨?_, fun progress hid => ?_⟩
      · rw [hok.get?_withdrawInterrupt hbusy id]
        refine Option.filter_eq_none_iff.2 fun progress hid => ?_
        rw [h.held progress hid]
        decide
      · rw [hok.withdrawInterrupt.idle hidle] at hid
        cases hid
  | observe message =>
    have hle := (le_resultsAfter message hok.results_le).1
    rw [InputCall.run]
    refine ⟨?_, fun progress hid => ?_⟩
    · rw [hok.get?_pending_observe message id, h.pending]
      rfl
    · rw [hok.get?_withdrawable_observe message id] at hid
      obtain ⟨before, hpre, htold⟩ := Option.bind_eq_some_iff.1 hid
      rw [InputLedger.results_observe]
      exact finished_told htold hle (h.held before hpre)
  | closeIfSettled =>
    obtain ⟨hpend, hwithd, hresults, -⟩ := InputLedger.fields_closeIfSettled ledger
    rw [InputCall.run]
    refine ⟨?_, ?_⟩
    · rw [hpend]
      exact h.pending
    · rw [hwithd, hresults]
      exact h.held

variable (env)

lemma Gone.afterInput (h : Gone id ledger) (hok : ledger.Ok)
    {calls} (hcalls : ∀ frame, .reserve id frame ∉ calls) :
    (ClaudeSession.afterInput env ledger calls).pending.has id = false := by
  induction calls generalizing ledger with
  | nil =>
    rw [has_eq]
    change (ledger.pending.get? id).isSome = false
    rw [h.pending]
    rfl
  | cons call calls ih =>
    refine ih (h.run hok fun frame heq => hcalls frame ?_) (ok_run env hok call) fun frame hmem =>
      hcalls frame (mem_cons_of_mem _ hmem)
    rw [heq]
    exact mem_cons_self

/-- **An input that is given up is gone**, unless an interrupt holds it. -/
theorem abandoned_iff (hok : ledger.Ok) (id : String) :
    (∀ later : List (InputCall ν), (∀ frame, .reserve id frame ∉ later) →
      (ClaudeSession.afterInput env (ledger.abandon id) later).pending.has id = false) ↔
    ∀ progress, ledger.withdrawable.get? id = some progress → progress.finished ledger.results := by
  refine ⟨fun h progress hid => ?_, fun h later hlat => ?_⟩
  · by_contra hunfinished
    have hbusy : ledger.interrupting := by
      rw [← Bool.not_eq_false]
      intro hidle
      rw [hok.idle hidle] at hid
      cases hid
    have hget := (hok.abandon id).get?_withdrawInterrupt hbusy id
    have hheld : (ledger.abandon id).withdrawable.get? id = some progress := hid
    have hresults : (ledger.abandon id).results = ledger.results := rfl
    have hgone := h [.withdrawInterrupt] fun frame hmem => by
      cases mem_singleton.1 hmem
    change (ledger.abandon id).withdrawInterrupt.pending.has id = false at hgone
    rw [has_eq, hget, hheld, hresults, Option.filter_some,
      if_pos (by rw [Bool.not_eq_true] at hunfinished; rw [hunfinished]; rfl)] at hgone
    cases hgone
  · have hgone : (ledger.abandon id).pending.get? id = none := by
      change (ledger.pending.delete id).get? id = none
      rw [get?_delete, if_pos rfl]
    exact Gone.afterInput env ⟨hgone, h⟩ (hok.abandon id) hlat

/-- Two ledgers that see the same lines, one of them under an interrupt. -/
structure Shadows (ended : String → Prop) (held plain : InputLedger) : Prop where
  held_ok : held.Ok
  plain_ok : plain.Ok
  busy : held.interrupting
  results_eq : held.results = plain.results
  dropped : ∀ id, ended id → held.withdrawable.get? id = none
  same : ∀ id, ¬ ended id → plain.pending.get? id =
    (held.withdrawable.get? id).filter fun progress => !progress.finished held.results

lemma shadows_beginInterrupt (hok : ledger.Ok) :
    Shadows (fun _ => False) (ledger.beginInterrupt env) ledger where
  held_ok := hok.beginInterrupt env
  plain_ok := hok
  busy := rfl
  results_eq := rfl
  dropped := fun _ h => h.elim
  same := fun id _ => by
    change ledger.pending.get? id = (ledger.pending.get? id).filter fun progress =>
      !progress.finished ledger.results
    cases hid : ledger.pending.get? id with
    | none => rfl
    | some progress =>
      rw [Option.filter_some, hok.unfinished id progress hid]
      rfl

variable {env}

variable {ended : String → Prop} {plain held : InputLedger}

theorem Shadows.observe (h : Shadows ended held plain) (message : Json ν) :
    Shadows (fun id => ended id ∨ Ends message id) (held.observe message).1 (plain.observe message).1 where
  held_ok := h.held_ok.observe message
  plain_ok := h.plain_ok.observe message
  busy := h.busy
  results_eq := by rw [InputLedger.results_observe, InputLedger.results_observe, h.results_eq]
  dropped := fun id hend => by
    rw [h.held_ok.get?_withdrawable_observe message id]
    rcases hend with hpre | hnow
    · rw [h.dropped id hpre]
      rfl
    · cases held.withdrawable.get? id with
      | none => rfl
      | some progress => exact told_eq_none_iff.2 hnow
  same := fun id hend => by
    rw [not_or] at hend
    have hle := (le_resultsAfter message h.held_ok.results_le).1
    rw [h.plain_ok.get?_pending_observe message id, h.held_ok.get?_withdrawable_observe message id,
      h.same id hend.1, InputLedger.results_observe, ← h.results_eq]
    cases held.withdrawable.get? id with
    | none => rfl
    | some progress =>
      obtain ⟨next, htold⟩ : ∃ next, told message id held.results progress = some next :=
        Option.ne_none_iff_exists'.1 fun hnone => hend.2 (told_eq_none_iff.1 hnone)
      rw [Option.bind_some, htold, Option.filter_some, Option.filter_some]
      cases hfin : progress.finished held.results with
      | true =>
        rw [finished_told htold hle hfin]
        rfl
      | false =>
        rw [if_pos Bool.not_false, Option.map_some, htold, Option.getD_some, Option.filter_some]

variable (env) in
lemma Shadows.afterInput (h : Shadows ended held plain) (messages : List (Json ν)) :
    Shadows (fun id => ended id ∨ ∃ message ∈ messages, Ends message id)
      (ClaudeSession.afterInput env held (messages.map .observe))
      (ClaudeSession.afterInput env plain (messages.map .observe)) := by
  induction messages generalizing ended held plain with
  | nil =>
    have hsame : (fun id => ended id ∨ ∃ message ∈ ([] : List (Json ν)), Ends message id) = ended :=
      funext fun id => propext ⟨fun h => h.elim (fun h => h) fun ⟨_, hmem, _⟩ => absurd hmem not_mem_nil, .inl⟩
    rw [hsame]
    exact h
  | cons message messages ih =>
    have hsame : (fun id => ended id ∨ ∃ other ∈ message :: messages, Ends other id) =
        fun id => (ended id ∨ Ends message id) ∨ ∃ other ∈ messages, Ends other id := by
      funext id
      rw [or_assoc]
      simp only [mem_cons, exists_eq_or_imp]
    rw [hsame]
    exact ih (h.observe message)

variable (env)

/-- **An interrupt that is withdrawn leaves the inputs as they are**, but for those that the
process has ended meanwhile. -/
theorem withdrawn_interrupt_is_transparent (hok : ledger.Ok) (messages : List (Json ν))
    (id : String) :
    (ClaudeSession.afterInput env ledger
        (.beginInterrupt :: (messages.map .observe ++ [.withdrawInterrupt]))).pending.get? id =
      if ∃ message ∈ messages, Ends message id then none
      else (ClaudeSession.afterInput env ledger (messages.map .observe)).pending.get? id := by
  have hshadows := (shadows_beginInterrupt env hok).afterInput env messages
  have hrun : ClaudeSession.afterInput env ledger
      (.beginInterrupt :: (messages.map .observe ++ [.withdrawInterrupt])) =
        (ClaudeSession.afterInput env (ledger.beginInterrupt env) (messages.map .observe)).withdrawInterrupt :=
    afterInput_append env (ledger.beginInterrupt env) (messages.map .observe) [.withdrawInterrupt]
  rw [hrun, hshadows.held_ok.get?_withdrawInterrupt hshadows.busy]
  split_ifs with hend
  · rw [hshadows.dropped id (.inr hend)]
    rfl
  · exact (hshadows.same id fun h => h.elim (fun h => h) hend).symm

/-- **Follow-up input is kept**: the input closes over a message only where it is settled, and one
that is given up is never pending again where no interrupt holds it. -/
theorem follow_up_input_is_kept (initialId : String) (calls : List (InputCall ν)) :
    (∀ front later id frame reserved, calls = front ++ .reserve id frame :: later →
      ((ClaudeSession.afterInput env (.new initialId) front).reserve id frame).2 = .ok reserved →
      (ClaudeSession.afterInput env (.new initialId) calls).closeIfSettled.2 →
      Answered id later ∨ GivenUp id later ∨ Interrupted id later) ∧
    (ClaudeSession.afterInput env (.new initialId) calls).pending.size ≤ 32 ∧
    (∀ id, (∀ later : List (InputCall ν), (∀ frame, .reserve id frame ∉ later) →
        (ClaudeSession.afterInput env ((ClaudeSession.afterInput env (.new initialId) calls).abandon id)
          later).pending.has id = false) ↔
      ∀ progress, (ClaudeSession.afterInput env (.new initialId) calls).withdrawable.get? id = some progress →
        progress.finished (ClaudeSession.afterInput env (.new initialId) calls).results) ∧
    ∀ (messages : List (Json ν)) (id : String),
      (ClaudeSession.afterInput env (.new initialId)
          (calls ++ .beginInterrupt :: (messages.map .observe ++ [.withdrawInterrupt]))).pending.get? id =
        if ∃ message ∈ messages, Ends message id then none
        else (ClaudeSession.afterInput env (.new initialId) (calls ++ messages.map .observe)).pending.get? id := by
  have hok calls : (ClaudeSession.afterInput env (.new initialId) calls).Ok :=
    ok_afterInput env (InputLedger.ok_new initialId) calls
  refine ⟨fun front later id frame reserved hcalls hresv hclosed => ?_, (hok calls).pending_le,
    fun id => abandoned_iff env (hok calls) id, fun messages id => ?_⟩
  · rw [hcalls, afterInput_append] at hclosed
    exact closes_accounted env (hok front) hresv later hclosed
  · rw [afterInput_append, afterInput_append]
    exact withdrawn_interrupt_is_transparent env (hok calls) messages id

end Runs

/-- A message is reserved, and an interrupt comes before its write has failed. -/
def tornReservation : List (InputCall ℕ) :=
  [.observe (.object [("type", .string "command_lifecycle"), ("command_uuid", .string "first"),
      ("state", .string "started")]),
    .reserve "steer" [], .beginInterrupt]

/-- **An input that is given up is pending again**, once the interrupt that holds it is
withdrawn. -/
theorem abandoned_input_is_pending_again :
    ¬ ∀ (initialId : String) (calls later : List (InputCall ℕ)) (id : String),
      (∀ frame, .reserve id frame ∉ later) →
      (afterInput barePlatform ((afterInput barePlatform (.new initialId) calls).abandon id)
        later).pending.has id = false := by
  intro h
  have hgone := h "first" tornReservation [.withdrawInterrupt] "steer" fun frame hmem => by
    cases mem_singleton.1 hmem
  exact absurd hgone (by decide)

end CodevoEditor.ClaudeSession
