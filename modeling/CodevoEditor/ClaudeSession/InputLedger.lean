/-
# The input side of the ledger

`agent_claude_input_lifecycle.rs`, with the calls of the input side: a message is reserved
before it is written to the input of the session, and given up where the write fails.

`command_id` draws the id of a message from a hash of the process, a counter and the time: here
the id is a parameter of the call.
-/

import CodevoEditor.ClaudeSession.InputLifecycle

namespace CodevoEditor.ClaudeSession

open Js Option OrderedMap

variable {ν φ : Type}

def maxRememberedAbandoned : ℕ := 64
def maxPendingInputs : ℕ := 32

inductive AgentTaskSteerRejection
  | notRegistered
  | notRunning
  | notSteerable
  | stopping
  | inputClosed
  | inputUnavailable
  | limitExceeded
  | writeTimedOut
  | writeFailed

/-- The ledger, and whether an interrupt is under way. -/
structure InputLedger extends ClaudeInputLifecycle where
  interrupting : Bool

def taggedFrame (frame : List UInt8) (id : String) : List UInt8 :=
  let tagged := ("\x7b\"uuid\":\"" ++ id ++ "\",").toUTF8.toList
  match frame with
  | 123 :: rest => tagged ++ rest
  | _ => tagged ++ frame

namespace InputLedger

def new (initialId : String) : InputLedger := ⟨.new initialId, false⟩

variable (ledger : InputLedger)

/-- `remember_interrupted`, of some ids. -/
def rememberInterrupted (interrupted ids : List String) : List String :=
  ids.foldl (fun known id =>
    (if known.length = maxRememberedAbandoned then known.tail else known) ++ [id]) interrupted

def reserve (id : String) (frame : List UInt8) : InputLedger × Except AgentTaskSteerRejection (String × List UInt8) :=
  if ledger.interrupting && !ledger.closed then (ledger, .error .stopping)
  else if !ledger.supported || ledger.closed || maxPendingInputs ≤ ledger.pending.size then
    (ledger, .error .notSteerable)
  else
    ({ ledger with pending := ledger.pending.set id ⟨none, false⟩ }, .ok (id, taggedFrame frame id))

/-- The ids that are pending, in the order in which the hash table drains them. -/
def drained (env : Platform ν φ) : List String := env.listed ledger.pending.keys.toFinset

def abandonAll (env : Platform ν φ) : InputLedger :=
  { ledger with
    pending := .empty
    interrupted := rememberInterrupted ledger.interrupted (ledger.drained env) }

def beginInterrupt (env : Platform ν φ) : InputLedger :=
  { ledger with
    pending := .empty
    interrupted := rememberInterrupted ledger.interrupted (ledger.drained env)
    withdrawable := ledger.pending
    interrupting := true }

/-- What is held for a withdrawal, put back among what is pending. -/
def restored : OrderedMap String Pending :=
  ledger.withdrawable.entries.foldl (fun pending entry => pending.set entry.1 entry.2) ledger.pending

def withdrawInterrupt : InputLedger :=
  if !ledger.interrupting then ledger
  else
    let lifecycle := { ledger.toClaudeInputLifecycle with
      pending := ledger.restored
      interrupted := ledger.interrupted.filter fun known => !ledger.withdrawable.has known
      withdrawable := .empty }
    ⟨lifecycle.dischargeFinished, false⟩

def abandon (id : String) : InputLedger := { ledger with pending := ledger.pending.delete id }

def observe (message : Json ν) : InputLedger × Except String Unit :=
  let observed := ledger.toClaudeInputLifecycle.observe message
  (⟨observed.1, ledger.interrupting⟩, observed.2)

def closeIfSettled : InputLedger × Bool :=
  let closed := ledger.toClaudeInputLifecycle.closeIfSettled
  (⟨closed.1, ledger.interrupting⟩, closed.2)

/-- **What an interrupt takes out of the way is pending no more**, and where none is under
way, nothing is held for a withdrawal. -/
structure Ok : Prop where
  idle : ledger.interrupting = false → ledger.withdrawable = .empty
  busy : ledger.interrupting → ledger.pending = .empty
  unfinished : ∀ id pending, ledger.pending.get? id = some pending → pending.finished ledger.results = false
  pending_le : ledger.pending.size ≤ maxPendingInputs
  withdrawable_le : ledger.withdrawable.size ≤ maxPendingInputs
  results_le : ledger.results ≤ 2 ^ 64 - 1

lemma ok_new (initialId : String) : (new initialId).Ok where
  idle := fun _ => rfl
  busy := nofun
  unfinished := nofun
  pending_le := Nat.zero_le _
  withdrawable_le := Nat.zero_le _
  results_le := Nat.zero_le _

end InputLedger

/-! ### What a line says of an input -/

variable (message : Json ν)

/-- The line tells the phase of an input. -/
def Reports (id phase : String) : Prop :=
  message.strOf "type" = some "command_lifecycle" ∧ (message.strOf "command_uuid").getD "" = id ∧
    (message.strOf "state").getD "" = phase

instance (message : Json ν) (id phase : String) : Decidable (Reports message id phase) :=
  inferInstanceAs (Decidable (_ ∧ _))

/-- The line tells that the process does not complete an input. -/
def Ends (id : String) : Prop :=
  Reports message id "cancelled" ∨ Reports message id "discarded" ∨ Reports message id "refused"

instance (message : Json ν) (id : String) : Decidable (Ends message id) :=
  inferInstanceAs (Decidable (_ ∨ _))

def IsResult : Prop := message.strOf "type" = some "result"

instance (message : Json ν) : Decidable (IsResult message) := inferInstanceAs (Decidable (_ = _))

/-- The progress of an input after a line; `none` where the line ends it. -/
def told (id : String) (results : ℕ) (pending : Pending) : Option Pending :=
  if message.strOf "type" = some "command_lifecycle" ∧ (message.strOf "command_uuid").getD "" = id then
    ClaudeInputLifecycle.advance pending ((message.strOf "state").getD "") results
  else some pending

/-- The results that have been seen after a line. -/
def resultsAfter (results : ℕ) : ℕ :=
  if IsResult message then min (results + 1) (2 ^ 64 - 1) else results

variable {id : String} {results : ℕ} {pending : Pending}

lemma told_eq_none_iff {message : Json ν} : told message id results pending = none ↔ Ends message id := by
  unfold told Ends Reports
  by_cases hnames : message.strOf "type" = some "command_lifecycle" ∧
      (message.strOf "command_uuid").getD "" = id
  · rw [if_pos hnames]
    unfold ClaudeInputLifecycle.advance
    obtain ⟨htype, hid⟩ := hnames
    split_ifs with hstarted hdone hend
    · rw [hstarted]
      simp
    · rw [hdone]
      simp
    · simpa [htype, hid] using hend
    · simpa [htype, hid] using hend
  · rw [if_neg hnames]
    refine ⟨nofun, fun h => ?_⟩
    rcases h with h | h | h
    · exact absurd ⟨h.1, h.2.1⟩ hnames
    · exact absurd ⟨h.1, h.2.1⟩ hnames
    · exact absurd ⟨h.1, h.2.1⟩ hnames

lemma Ends.not_isResult {message : Json ν} (h : Ends message id) : ¬ IsResult message := by
  have htype : message.strOf "type" = some "command_lifecycle" := by
    rcases h with h | h | h
    · exact h.1
    · exact h.1
    · exact h.1
  intro hres
  rw [IsResult, htype] at hres
  exact absurd (some.inj hres) (by decide)

variable {next : Pending}

lemma completed_told {message : Json ν} (h : told message id results pending = some next)
    (hdone : pending.completed) :
    next.completed := by
  unfold told ClaudeInputLifecycle.advance at h
  split_ifs at h
  all_goals
    cases h
    first | exact hdone | rfl

lemma startedAfter_told {message : Json ν} (h : told message id results pending = some next)
    {start} (hst : pending.startedAfter = some start) : next.startedAfter = some start := by
  unfold told ClaudeInputLifecycle.advance at h
  split_ifs at h
  all_goals
    cases h
    first
    | exact hst
    | (rw [hst]; rfl)

lemma resultsAfter_of_result {message : Json ν} (h : IsResult message) (results : ℕ) :
    resultsAfter message results = min (results + 1) (2 ^ 64 - 1) := if_pos h

lemma resultsAfter_of_other {message : Json ν} (h : ¬ IsResult message) (results : ℕ) :
    resultsAfter message results = results := if_neg h

lemma le_resultsAfter (h : results ≤ 2 ^ 64 - 1) :
    results ≤ resultsAfter message results ∧ resultsAfter message results ≤ 2 ^ 64 - 1 := by
  unfold resultsAfter
  split_ifs
  · omega
  · exact ⟨le_rfl, h⟩

lemma finished_told {message : Json ν} (h : told message id results pending = some next)
    {later} (hlat : results ≤ later) (hfin : pending.finished results) :
    next.finished later := by
  unfold Pending.finished at hfin ⊢
  rw [Bool.and_eq_true, any_eq_true] at hfin
  obtain ⟨hdone, start, hst, hlt⟩ := hfin
  rw [completed_told h hdone, startedAfter_told h hst, any_some, Bool.true_and]
  rw [decide_eq_true_eq] at hlt ⊢
  omega

namespace ClaudeInputLifecycle

variable (lifecycle : ClaudeInputLifecycle) (message : Json ν)

lemma get?_dischargeFinished (id : String) : lifecycle.dischargeFinished.pending.get? id =
    (lifecycle.pending.get? id).filter fun pending => !pending.finished lifecycle.results := by
  refine Option.ext fun pending => ?_
  rw [get?_eq_some_iff, filter_eq_some_iff, get?_eq_some_iff]
  exact List.mem_filter

lemma size_dischargeFinished : lifecycle.dischargeFinished.pending.size ≤ lifecycle.pending.size :=
  List.length_filter_le _ _

/-- What a line does not touch. -/
structure Observes (lifecycle : ClaudeInputLifecycle) (message : Json ν)
    (observed : ClaudeInputLifecycle × Except String Unit) : Prop where
  initialId_eq : observed.1.initialId = lifecycle.initialId
  closed_eq : observed.1.closed = lifecycle.closed
  interrupted_eq : observed.1.interrupted = lifecycle.interrupted
  results_eq : observed.1.results = resultsAfter message lifecycle.results
  pending_le : observed.1.pending.size ≤ lifecycle.pending.size
  withdrawable_le : observed.1.withdrawable.size ≤ lifecycle.withdrawable.size
  /-- The line has ended an input that is pending. -/
  failed : observed.2 ≠ .ok () → observed.1.pending = lifecycle.pending ∧
    observed.1.withdrawable = lifecycle.withdrawable ∧
    observed.1.results = lifecycle.results ∧
    ∃ id pending, lifecycle.pending.get? id = some pending ∧ told message id lifecycle.results pending = none ∧
      ∀ other, other ≠ id → ∀ progress, told message other lifecycle.results progress = some progress
  pending_eq : observed.2 = .ok () → ∀ id, observed.1.pending.get? id =
    ((lifecycle.pending.get? id).bind (told message id lifecycle.results)).filter fun pending =>
      !pending.finished observed.1.results
  kept : observed.2 = .ok () → ∀ id pending, lifecycle.pending.get? id = some pending →
    told message id lifecycle.results pending ≠ none
  withdrawable_eq : observed.2 = .ok () → ∀ id, observed.1.withdrawable.get? id =
    (lifecycle.withdrawable.get? id).bind (told message id lifecycle.results)

variable {lifecycle message}

lemma told_of_other (h : message.strOf "type" ≠ some "command_lifecycle") (id : String) (results : ℕ)
    (pending : Pending) : told message id results pending = some pending := if_neg fun hnames => h hnames.1

lemma told_of_command (h : message.strOf "type" = some "command_lifecycle") (id : String)
    (results : ℕ) (pending : Pending) : told message id results pending =
      if (message.strOf "command_uuid").getD "" = id then
        advance pending ((message.strOf "state").getD "") results
      else some pending := by
  unfold told
  simp only [h, true_and]

lemma observes_of_other (h : message.strOf "type" ≠ some "command_lifecycle") :
    Observes lifecycle message (lifecycle.observe message) := by
  have htold id : told message id lifecycle.results = some :=
    funext (told_of_other h id lifecycle.results)
  have hobserve : lifecycle.observe message =
      ({ lifecycle with results := resultsAfter message lifecycle.results }.dischargeFinished, .ok ()) := by
    unfold observe
    rw [if_neg h]
    by_cases hres : message.strOf "type" = some "result"
    · rw [if_pos hres, resultsAfter_of_result hres]
    · rw [if_neg hres, resultsAfter_of_other hres]
  rw [hobserve]
  refine ⟨rfl, rfl, rfl, rfl, size_dischargeFinished _, le_rfl, fun hfail => absurd rfl hfail,
    fun _ id => ?_, fun _ id pending _ hnone => ?_, fun _ id => ?_⟩
  · rw [get?_dischargeFinished, htold, bind_fun_some]
    rfl
  · rw [htold] at hnone
    cases hnone
  · rw [htold, bind_fun_some]
    rfl

lemma get?_advanced {pending next : OrderedMap String Pending}
    {advance : Pending → Option Pending}
    (h : (match pending.get? id with
      | none => some pending
      | some progress => (advance progress).map fun value => pending.set id value) = some next) :
    next.size = pending.size ∧
      (∀ key, next.get? key = (pending.get? key).bind fun progress =>
        if id = key then advance progress else some progress) ∧
      ∀ progress, pending.get? id = some progress → advance progress ≠ none := by
  cases hid : pending.get? id with
  | none =>
    rw [hid] at h
    cases h
    refine ⟨rfl, fun key => ?_, nofun⟩
    by_cases hkey : id = key
    · rw [← hkey, hid]
      rfl
    · simp only [if_neg hkey, bind_fun_some]
  | some progress =>
    rw [hid] at h
    obtain ⟨value, hval, rfl⟩ := map_eq_some_iff.1 h
    refine ⟨?_, fun key => ?_, fun other hoth => ?_⟩
    · rw [size_set, if_pos (mem_keys_iff.2 (by rw [hid]; rfl))]
    · rw [get?_set]
      by_cases hkey : id = key
      · rw [if_pos hkey.symm, ← hkey, hid, bind_some, if_pos rfl, hval]
      · rw [if_neg fun heq => hkey heq.symm]
        simp only [if_neg hkey, bind_fun_some]
    · rw [← some.inj hoth, hval]
      exact some_ne_none _

lemma get?_advanced_or_dropped (held : OrderedMap String Pending)
    {advance : Pending → Option Pending} {next}
    (h : next = match held.get? id with
      | none => held
      | some progress => match advance progress with
        | none => held.delete id
        | some value => held.set id value) :
    next.size ≤ held.size ∧ ∀ key, next.get? key = (held.get? key).bind fun progress =>
      if id = key then advance progress else some progress := by
  cases hid : held.get? id with
  | none =>
    rw [hid] at h
    obtain rfl : next = held := h
    refine ⟨le_rfl, fun key => ?_⟩
    by_cases hkey : id = key
    · rw [← hkey, hid]
      rfl
    · simp only [if_neg hkey, bind_fun_some]
  | some progress =>
    rw [hid] at h
    dsimp only at h
    cases hval : advance progress with
    | none =>
      rw [hval] at h
      obtain rfl : next = held.delete id := h
      refine ⟨size_delete_le held id, fun key => ?_⟩
      rw [get?_delete]
      by_cases hkey : id = key
      · rw [if_pos hkey.symm, ← hkey, hid, bind_some, if_pos rfl, hval]
      · rw [if_neg fun heq => hkey heq.symm]
        simp only [if_neg hkey, bind_fun_some]
    | some value =>
      rw [hval] at h
      obtain rfl : next = held.set id value := h
      refine ⟨?_, fun key => ?_⟩
      · rw [size_set, if_pos (mem_keys_iff.2 (by rw [hid]; rfl))]
      · rw [get?_set]
        by_cases hkey : id = key
        · rw [if_pos hkey.symm, ← hkey, hid, bind_some, if_pos rfl, hval]
        · rw [if_neg fun heq => hkey heq.symm]
          simp only [if_neg hkey, bind_fun_some]

lemma observes_of_command (h : message.strOf "type" = some "command_lifecycle") :
    Observes lifecycle message (lifecycle.observe message) := by
  have hres : ¬ message.strOf "type" = some "result" := fun hres => by
    rw [h] at hres
    exact absurd (some.inj hres) (by decide)
  have htold id progress := told_of_command h id lifecycle.results progress
  set supporting : ClaudeInputLifecycle :=
    if (message.strOf "command_uuid").getD "" = lifecycle.initialId ∧
        ((message.strOf "state").getD "" = "queued" ∨ (message.strOf "state").getD "" = "started") then
      { lifecycle with supported := true }
    else lifecycle with hsupporting
  have hfld : supporting.initialId = lifecycle.initialId ∧ supporting.closed = lifecycle.closed ∧
      supporting.interrupted = lifecycle.interrupted ∧ supporting.results = lifecycle.results ∧
      supporting.pending = lifecycle.pending ∧ supporting.withdrawable = lifecycle.withdrawable := by
    rw [hsupporting]
    split_ifs <;> exact ⟨rfl, rfl, rfl, rfl, rfl, rfl⟩
  obtain ⟨hinitial, hcl, hintr, hresults, hpend, hwithd⟩ := hfld
  have hobserve : lifecycle.observe message = lifecycle.observeCommand message := by
    unfold observe
    rw [if_neg hres, if_pos h]
  rw [hobserve]
  unfold observeCommand
  dsimp only
  rw [← hsupporting]
  clear_value supporting
  rw [hresults, hpend, hwithd]
  split
  · rename_i hnone
    refine ⟨hinitial, hcl, hintr, ?_, ?_, ?_, fun _ => ⟨hpend, hwithd, hresults, ?_⟩,
      nofun, nofun, nofun⟩
    · rw [hresults, resultsAfter_of_other hres]
    · rw [hpend]
    · rw [hwithd]
    · split at hnone
      · cases hnone
      · rename_i progress hid
        refine ⟨(message.strOf "command_uuid").getD "", progress, hid, ?_, fun other hoth progress => ?_⟩
        · rw [htold, if_pos rfl]
          exact map_eq_none_iff.1 hnone
        · rw [htold, if_neg fun heq => hoth heq.symm]
  · rename_i pending hsome
    obtain ⟨hsize, hget, hkept⟩ := get?_advanced hsome
    obtain ⟨hheld, hheldGet⟩ := get?_advanced_or_dropped lifecycle.withdrawable rfl
    refine ⟨hinitial, hcl, hintr, ?_, ?_, hheld, fun hfail => absurd rfl hfail,
      fun _ id => ?_, fun _ id progress hid hend => ?_, fun _ id => ?_⟩
    · exact (resultsAfter_of_other hres _).symm
    · exact (size_dischargeFinished _).trans hsize.le
    · rw [get?_dischargeFinished]
      rw [hget]
      simp only [htold]
      rfl
    · rw [htold] at hend
      by_cases hkey : (message.strOf "command_uuid").getD "" = id
      · rw [if_pos hkey] at hend
        subst hkey
        exact hkept progress hid hend
      · rw [if_neg hkey] at hend
        cases hend
    · simp only [htold]
      exact hheldGet id

theorem observes_observe (lifecycle) (message : Json ν) : Observes lifecycle message (lifecycle.observe message) := by
  by_cases h : message.strOf "type" = some "command_lifecycle"
  · exact observes_of_command h
  · exact observes_of_other h

end ClaudeInputLifecycle

namespace InputLedger

variable {ledger : InputLedger}

/-- **The inputs that are pending after a line**: those that are not finished by it. -/
theorem Ok.get?_pending_observe (h : ledger.Ok) (message : Json ν) (id : String) :
    (ledger.observe message).1.pending.get? id =
      ((ledger.pending.get? id).map fun pending =>
        (told message id ledger.results pending).getD pending).filter fun pending =>
          !pending.finished (resultsAfter message ledger.results) := by
  have hobs := ClaudeInputLifecycle.observes_observe ledger.toClaudeInputLifecycle message
  change (ledger.toClaudeInputLifecycle.observe message).1.pending.get? id = _
  by_cases hok : (ledger.toClaudeInputLifecycle.observe message).2 = .ok ()
  · rw [hobs.pending_eq hok, hobs.results_eq]
    congr 1
    cases hid : ledger.pending.get? id with
    | none => rfl
    | some pending =>
      obtain ⟨next, hnext⟩ := ne_none_iff_exists'.1 (hobs.kept hok id pending hid)
      rw [bind_some, map_some, hnext]
      rfl
  · obtain ⟨hpend, -, hresults, ended, progress, -, hend, hoth⟩ := hobs.failed hok
    rw [hpend, ← hobs.results_eq, hresults]
    cases hid : ledger.pending.get? id with
    | none => rfl
    | some pending =>
      have hstays : (told message id ledger.results pending).getD pending = pending := by
        by_cases hkey : id = ended
        · rw [← hkey] at hend
          rw [told_eq_none_iff.2 (told_eq_none_iff.1 hend)]
          rfl
        · rw [hoth id hkey]
          rfl
      rw [map_some, hstays, filter_some, h.unfinished id pending hid]
      rfl

/-- **Those that are held for a withdrawal**: those that the line does not end. -/
theorem Ok.get?_withdrawable_observe (h : ledger.Ok) (message : Json ν) (id : String) :
    (ledger.observe message).1.withdrawable.get? id =
      (ledger.withdrawable.get? id).bind (told message id ledger.results) := by
  have hobs := ClaudeInputLifecycle.observes_observe ledger.toClaudeInputLifecycle message
  change (ledger.toClaudeInputLifecycle.observe message).1.withdrawable.get? id = _
  by_cases hok : (ledger.toClaudeInputLifecycle.observe message).2 = .ok ()
  · exact hobs.withdrawable_eq hok id
  · obtain ⟨-, hwithd, -, ended, progress, hpend, -, -⟩ := hobs.failed hok
    have hidle : ledger.interrupting = false := by
      rw [← Bool.not_eq_true]
      intro hbusy
      rw [h.busy hbusy] at hpend
      cases hpend
    rw [hwithd, h.idle hidle]
    rfl

variable (ledger) in
lemma results_observe (message : Json ν) : (ledger.observe message).1.results = resultsAfter message ledger.results :=
  (ClaudeInputLifecycle.observes_observe ledger.toClaudeInputLifecycle message).results_eq

lemma Ok.observe (h : ledger.Ok) (message : Json ν) : (ledger.observe message).1.Ok := by
  have hobs := ClaudeInputLifecycle.observes_observe ledger.toClaudeInputLifecycle message
  have hemp {pending : OrderedMap String Pending} (hsize : pending.size ≤ 0) : pending = .empty :=
    OrderedMap.ext (List.eq_nil_of_length_eq_zero (Nat.le_zero.1 hsize))
  refine ⟨fun hidle => ?_, fun hbusy => ?_, fun id pending hid => ?_, ?_, ?_, ?_⟩
  · have hsize := hobs.withdrawable_le
    rw [h.idle hidle] at hsize
    exact hemp hsize
  · have hsize := hobs.pending_le
    rw [h.busy hbusy] at hsize
    exact hemp hsize
  · rw [h.get?_pending_observe, filter_eq_some_iff] at hid
    rw [results_observe]
    exact Bool.not_eq_true' _ ▸ hid.2
  · exact hobs.pending_le.trans h.pending_le
  · exact hobs.withdrawable_le.trans h.withdrawable_le
  · rw [results_observe]
    exact (le_resultsAfter message h.results_le).2

variable (ledger) in
lemma fields_reserve (id : String) (frame) :
    (ledger.reserve id frame).1.withdrawable = ledger.withdrawable ∧
      (ledger.reserve id frame).1.results = ledger.results ∧
      (ledger.reserve id frame).1.interrupting = ledger.interrupting := by
  unfold InputLedger.reserve
  split_ifs <;> exact ⟨rfl, rfl, rfl⟩

variable (ledger) in
lemma get?_reserve (id : String) (frame) (other : String) :
    (ledger.reserve id frame).1.pending.get? other = ledger.pending.get? other ∨
      other = id ∧ (ledger.reserve id frame).1.pending.get? other = some ⟨none, false⟩ := by
  unfold InputLedger.reserve
  split_ifs
  · exact .inl rfl
  · exact .inl rfl
  · dsimp only
    rw [get?_set]
    split_ifs with heq
    · exact .inr ⟨heq, rfl⟩
    · exact .inl rfl

lemma get?_reserve_of_ok {frame} {reserved}
    (h : (ledger.reserve id frame).2 = .ok reserved) :
    (ledger.reserve id frame).1.pending.get? id = some ⟨none, false⟩ := by
  unfold InputLedger.reserve at h ⊢
  split_ifs at h ⊢
  rw [get?_set, if_pos rfl]

lemma Ok.reserve (h : ledger.Ok) (id : String) (frame) : (ledger.reserve id frame).1.Ok := by
  unfold InputLedger.reserve
  by_cases hstop : (ledger.interrupting && !ledger.closed)
  · rw [if_pos hstop]
    exact h
  rw [if_neg hstop]
  by_cases hrefuse : (!ledger.supported || ledger.closed || decide (maxPendingInputs ≤ ledger.pending.size))
  · rw [if_pos hrefuse]
    exact h
  rw [if_neg hrefuse]
  simp only [Bool.or_eq_true, Bool.not_eq_true', decide_eq_true_eq, not_or, Bool.not_eq_false,
    Bool.not_eq_true, Bool.and_eq_true, not_and, not_le] at hstop hrefuse
  have hidle : ledger.interrupting = false := by
    by_contra hbusy
    have hcl := hstop (Bool.not_eq_false _ ▸ hbusy)
    rw [hrefuse.1.2] at hcl
    cases hcl
  refine ⟨h.idle, fun hbusy => ?_, fun other pending hoth => ?_, ?_, h.withdrawable_le, h.results_le⟩
  · change ledger.interrupting at hbusy
    rw [hidle] at hbusy
    cases hbusy
  · change (ledger.pending.set id ⟨none, false⟩).get? other = some pending at hoth
    rw [get?_set] at hoth
    split_ifs at hoth
    · cases hoth
      rfl
    · exact h.unfinished other pending hoth
  · change (ledger.pending.set id ⟨none, false⟩).size ≤ maxPendingInputs
    rw [size_set]
    split_ifs
    · exact h.pending_le
    · exact hrefuse.2

lemma Ok.abandon (h : ledger.Ok) (id : String) : (ledger.abandon id).Ok where
  idle := h.idle
  busy := fun hbusy => by
    change ledger.pending.delete id = .empty
    rw [h.busy hbusy]
    rfl
  unfinished := fun other pending hoth => by
    change (ledger.pending.delete id).get? other = some pending at hoth
    rw [get?_delete] at hoth
    split_ifs at hoth
    exact h.unfinished other pending hoth
  pending_le := (size_delete_le _ id).trans h.pending_le
  withdrawable_le := h.withdrawable_le
  results_le := h.results_le

lemma Ok.abandonAll (h : ledger.Ok) (env : Platform ν φ) : (ledger.abandonAll env).Ok where
  idle := h.idle
  busy := fun _ => rfl
  unfinished := nofun
  pending_le := Nat.zero_le _
  withdrawable_le := h.withdrawable_le
  results_le := h.results_le

lemma Ok.beginInterrupt (h : ledger.Ok) (env : Platform ν φ) : (ledger.beginInterrupt env).Ok where
  idle := nofun
  busy := fun _ => rfl
  unfinished := nofun
  pending_le := Nat.zero_le _
  withdrawable_le := h.pending_le
  results_le := h.results_le

lemma Ok.restored_eq (h : ledger.Ok) (hbusy : ledger.interrupting) : ledger.restored = ledger.withdrawable := by
  refine OrderedMap.ext ?_
  unfold restored
  rw [h.busy hbusy]
  rw [entries_foldl_set Prod.fst Prod.snd ledger.withdrawable.entries OrderedMap.empty ledger.withdrawable.nodup]
  exact List.map_id _

/-- **A withdrawal**: what is held is pending again, unless it is finished. -/
theorem Ok.get?_withdrawInterrupt (h : ledger.Ok) (hbusy : ledger.interrupting) (id : String) :
    ledger.withdrawInterrupt.pending.get? id =
      (ledger.withdrawable.get? id).filter fun pending => !pending.finished ledger.results := by
  unfold InputLedger.withdrawInterrupt
  rw [hbusy, if_neg (by decide), h.restored_eq hbusy]
  exact ClaudeInputLifecycle.get?_dischargeFinished _ id

lemma withdrawInterrupt_of_idle (hidle : ledger.interrupting = false) : ledger.withdrawInterrupt = ledger := by
  unfold InputLedger.withdrawInterrupt
  rw [hidle]
  rfl

variable (ledger) in
lemma fields_withdrawInterrupt : ledger.withdrawInterrupt.results = ledger.results ∧
    ledger.withdrawInterrupt.interrupting = false := by
  unfold InputLedger.withdrawInterrupt
  cases hinterrupting : ledger.interrupting with
  | false => exact ⟨rfl, hinterrupting⟩
  | true => exact ⟨rfl, rfl⟩

lemma Ok.withdrawInterrupt (h : ledger.Ok) : ledger.withdrawInterrupt.Ok := by
  cases hbusy : ledger.interrupting with
  | false =>
    rw [withdrawInterrupt_of_idle hbusy]
    exact h
  | true =>
    obtain ⟨hresults, hidle⟩ := fields_withdrawInterrupt ledger
    refine ⟨fun _ => ?_, fun hstill => ?_, fun id pending hid => ?_, ?_, ?_, ?_⟩
    · unfold InputLedger.withdrawInterrupt
      rw [hbusy]
      rfl
    · rw [hidle] at hstill
      cases hstill
    · rw [h.get?_withdrawInterrupt hbusy, filter_eq_some_iff] at hid
      rw [hresults]
      exact Bool.not_eq_true' _ ▸ hid.2
    · unfold InputLedger.withdrawInterrupt
      rw [hbusy, if_neg (by decide), h.restored_eq hbusy]
      exact (ClaudeInputLifecycle.size_dischargeFinished _).trans h.withdrawable_le
    · unfold InputLedger.withdrawInterrupt
      rw [hbusy]
      exact Nat.zero_le _
    · rw [hresults]
      exact h.results_le

variable (ledger) in
lemma fields_closeIfSettled : ledger.closeIfSettled.1.pending = ledger.pending ∧
    ledger.closeIfSettled.1.withdrawable = ledger.withdrawable ∧
    ledger.closeIfSettled.1.results = ledger.results ∧
    ledger.closeIfSettled.1.interrupting = ledger.interrupting := by
  unfold InputLedger.closeIfSettled ClaudeInputLifecycle.closeIfSettled
  split_ifs <;> exact ⟨rfl, rfl, rfl, rfl⟩

lemma Ok.closeIfSettled (h : ledger.Ok) : ledger.closeIfSettled.1.Ok := by
  obtain ⟨hpend, hwithd, hresults, hinterrupting⟩ := fields_closeIfSettled ledger
  refine ⟨fun hidle => ?_, fun hbusy => ?_, fun id pending hid => ?_, ?_, ?_, ?_⟩
  · rw [hwithd]
    exact h.idle (hinterrupting ▸ hidle)
  · rw [hpend]
    exact h.busy (hinterrupting ▸ hbusy)
  · rw [hpend] at hid
    rw [hresults]
    exact h.unfinished id pending hid
  · rw [hpend]
    exact h.pending_le
  · rw [hwithd]
    exact h.withdrawable_le
  · rw [hresults]
    exact h.results_le

end InputLedger

end CodevoEditor.ClaudeSession
