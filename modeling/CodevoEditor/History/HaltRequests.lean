/-
# Halt requests of saved turns

`src-tauri/src/agent_history_store/halt_requests.rs` (`validate`, `record`, `read`): who asked
to stop a turn, and how.
-/

import CodevoEditor.Sql.Table

namespace CodevoEditor.History

open Js Sql

def maxAgentSafeInteger : ℕ := 9007199254740991

inductive HistoryError
  | message (text : String)
  | json
  deriving DecidableEq

inductive TurnHaltSource
  | composerStopButton
  | composerEscape
  | stopConfirmationBanner
  | sessionDock
  | threadMenu

inductive TurnHaltEscalationSource
  | composerStopButton
  | composerEscape
  | stopConfirmationBanner
  | sessionDock
  | threadMenu
  | interruptRefused

inductive TurnHaltMode
  | softInterrupt
  | hardStop
  deriving DecidableEq

namespace TurnHaltSource

def text : TurnHaltSource → String
  | composerStopButton => "composerStopButton"
  | composerEscape => "composerEscape"
  | stopConfirmationBanner => "stopConfirmationBanner"
  | sessionDock => "sessionDock"
  | threadMenu => "threadMenu"

end TurnHaltSource

namespace TurnHaltEscalationSource

def text : TurnHaltEscalationSource → String
  | composerStopButton => "composerStopButton"
  | composerEscape => "composerEscape"
  | stopConfirmationBanner => "stopConfirmationBanner"
  | sessionDock => "sessionDock"
  | threadMenu => "threadMenu"
  | interruptRefused => "interruptRefused"

end TurnHaltEscalationSource

namespace TurnHaltMode

def text : TurnHaltMode → String
  | softInterrupt => "softInterrupt"
  | hardStop => "hardStop"

end TurnHaltMode

structure TurnHaltEscalation where
  source : TurnHaltEscalationSource
  requestedAtEpochMs : ℕ

structure TurnHaltRequest where
  turnId : String
  source : TurnHaltSource
  mode : TurnHaltMode
  requestedAtEpochMs : ℕ
  escalation : Option TurnHaltEscalation

/-- A row of `turn_halt_requests`. -/
structure HaltRow where
  source : String
  mode : String
  requestedAt : ℤ
  escalatedSource : Option String
  escalatedAt : Option ℤ

namespace TurnHaltRequest

def coherent (request : TurnHaltRequest) : Bool :=
  request.requestedAtEpochMs ≤ maxAgentSafeInteger &&
    match request.escalation with
    | none => true
    | some escalation =>
      request.mode = .softInterrupt &&
        request.requestedAtEpochMs ≤ escalation.requestedAtEpochMs &&
        escalation.requestedAtEpochMs ≤ maxAgentSafeInteger

/-- The loop of `validate`, with the turns that have been seen. -/
def validFrom (saved : List String) : List TurnHaltRequest → List String → Bool
  | [], _ => true
  | request :: requests, seen =>
    request.turnId ∈ saved && request.turnId ∉ seen && request.coherent &&
      validFrom saved requests (request.turnId :: seen)

/-- `validate`, for the turns that are saved with the requests. -/
def validate (saved : List String) (requests : List TurnHaltRequest) : Except HistoryError Unit :=
  if saved.length < requests.length ∨ ¬ validFrom saved requests [] then
    .error (.message "Agent turn halt requests are invalid.")
  else .ok ()

def row (request : TurnHaltRequest) : HaltRow where
  source := request.source.text
  mode := request.mode.text
  requestedAt := request.requestedAtEpochMs
  escalatedSource := request.escalation.map (·.source.text)
  escalatedAt := request.escalation.map (·.requestedAtEpochMs)

end TurnHaltRequest

namespace HaltRow

/-- `ON CONFLICT … DO UPDATE … WHERE`. -/
def conflict (stored excluded : HaltRow) : HaltRow :=
  if stored.escalatedSource = none ∧ stored.mode = TurnHaltMode.softInterrupt.text ∧
      excluded.escalatedSource ≠ none ∧
      excluded.escalatedAt.any (stored.requestedAt ≤ ·) then
    { stored with
      escalatedSource := excluded.escalatedSource
      escalatedAt := excluded.escalatedAt }
  else stored

end HaltRow

/-- `record`. -/
def recordHalts (threadId : String) (requests : List TurnHaltRequest)
    (table : Table (String × String) HaltRow) : Table (String × String) HaltRow :=
  requests.foldl (fun table request =>
    let key := (threadId, request.turnId)
    table.set key (((table.get? key).map (·.conflict request.row)).getD request.row)) table

/-! ### Reading a halt request back -/

open List

def TurnHaltSource.all : List TurnHaltSource :=
  [.composerStopButton, .composerEscape, .stopConfirmationBanner, .sessionDock, .threadMenu]

def TurnHaltEscalationSource.all : List TurnHaltEscalationSource :=
  [.composerStopButton, .composerEscape, .stopConfirmationBanner, .sessionDock, .threadMenu, .interruptRefused]

/-- `variant`, for the texts that the variants are written as. -/
def variant {α : Type} (all : List α) (text : α → String) (name : String) : Option α :=
  all.find? (text · = name)

namespace HaltRow

def decodeEscalation (row : HaltRow) : Option TurnHaltEscalation := do
  let source ← variant TurnHaltEscalationSource.all (·.text) (← row.escalatedSource)
  some ⟨source, ← (← row.escalatedAt).toNat?⟩

def decode (row : HaltRow) (turnId : String) : Option TurnHaltRequest := do
  let source ← variant TurnHaltSource.all (·.text) row.source
  let mode ← variant [.softInterrupt, .hardStop] TurnHaltMode.text row.mode
  let request : TurnHaltRequest := ⟨turnId, source, mode, ← row.requestedAt.toNat?, none⟩
  if ¬ request.coherent then none
  else
    let escalated := { request with escalation := row.decodeEscalation }
    if escalated.coherent then some escalated else some request

end HaltRow

abbrev HaltTable := Table (String × String) HaltRow

/-- The arguments of a call of `record`. -/
abbrev RecordCall := String × List TurnHaltRequest

/-- `read`. -/
def readHalt (table : HaltTable) (threadId turnId : String) : Option TurnHaltRequest :=
  (table.get? (threadId, turnId)).bind (·.decode turnId)

namespace TurnHaltRequest

variable {request first : TurnHaltRequest} {requests more : List TurnHaltRequest}

/-- Whether a request takes an escalation. -/
def admits (request : TurnHaltRequest) (escalation : TurnHaltEscalation) : Bool :=
  request.mode = .softInterrupt && request.requestedAtEpochMs ≤ escalation.requestedAtEpochMs

lemma coherent_iff : request.coherent ↔ request.requestedAtEpochMs ≤ maxAgentSafeInteger ∧
    ∀ escalation ∈ request.escalation, request.admits escalation ∧
      escalation.requestedAtEpochMs ≤ maxAgentSafeInteger := by
  obtain ⟨_, _, _, _, _ | escalation⟩ := request <;> simp [coherent, admits, and_assoc]

lemma coherent_plain (h : request.coherent) : { request with escalation := none }.coherent :=
  coherent_iff.2 ⟨(coherent_iff.1 h).1, nofun⟩

lemma decode_row (h : request.coherent) : request.row.decode request.turnId = some request := by
  obtain ⟨turnId, source, mode, at', escalation⟩ := request
  have hsource : variant TurnHaltSource.all (·.text) source.text = some source := by
    cases source <;> rfl
  have hmode : variant [.softInterrupt, .hardStop] TurnHaltMode.text mode.text = some mode := by
    cases mode <;> rfl
  have hescalation : (row ⟨turnId, source, mode, at', escalation⟩).decodeEscalation = escalation := by
    rcases escalation with _ | ⟨source, time⟩
    · rfl
    · cases source <;> rfl
  unfold HaltRow.decode
  rw [hescalation]
  simp [row, hsource, hmode, coherent_plain h, h, Int.toNat?]

/-- A request with the first escalation of later ones that it admits. -/
def gain (first : TurnHaltRequest) (requests : List TurnHaltRequest) : TurnHaltRequest :=
  { first with
    escalation := first.escalation.or ((requests.filterMap (·.escalation)).find? first.admits) }

/-- The first request with the first escalation among all that it admits. -/
def settled : List TurnHaltRequest → Option TurnHaltRequest
  | [] => none
  | first :: requests => some ({ first with escalation := none }.gain (first :: requests))

/-- One request after another under a key. -/
def rowOf (requests : List TurnHaltRequest) (row : Option HaltRow) : Option HaltRow :=
  requests.foldl (fun row request => some ((row.map (·.conflict request.row)).getD request.row)) row

lemma conflict_row : first.row.conflict request.row = (first.gain [request]).row := by
  obtain ⟨turnId, source, mode, time, escalation⟩ := first
  obtain ⟨_, _, _, _, later⟩ := request
  rcases escalation with _ | escalation
  · rcases later with _ | later
    · simp [row, HaltRow.conflict, gain]
    · by_cases h : mode = .softInterrupt ∧ time ≤ later.requestedAtEpochMs
      · simp [row, HaltRow.conflict, admits, gain, h]
      · cases mode <;> simp_all [row, HaltRow.conflict, admits, gain, TurnHaltMode.text]
  · rfl

lemma gain_append : (first.gain requests).gain more = first.gain (requests ++ more) := by
  simp only [gain, filterMap_append, find?_append, Option.or_assoc]
  rfl

lemma gain_self (h : request.coherent) : { request with escalation := none }.gain [request] = request := by
  obtain ⟨turnId, source, mode, time, _ | escalation⟩ := request
  · rfl
  · have hadmits : admits ⟨turnId, source, mode, time, none⟩ escalation :=
      ((coherent_iff.1 h).2 escalation rfl).1
    simp [gain, hadmits]

lemma settled_append (h : settled requests = some first) : settled (requests ++ more) = some (first.gain more) := by
  cases requests with
  | nil => cases h
  | cons request requests =>
    cases h
    rw [gain_append]
    rfl

lemma rowOf_row : rowOf requests first.row = (first.gain requests).row := by
  induction requests generalizing first with
  | nil =>
    rw [gain, filterMap_nil, find?_nil, Option.or_none]
    rfl
  | cons request requests ih =>
    refine (congrArg (rowOf requests ∘ some) conflict_row).trans (ih.trans ?_)
    rw [gain_append]
    rfl

lemma rowOf_none (h : ∀ request ∈ requests, request.coherent) : rowOf requests none = (settled requests).map row := by
  cases requests with
  | nil => rfl
  | cons first requests =>
    refine rowOf_row.trans ?_
    rw [settled, ← singleton_append, ← gain_append, gain_self (h first mem_cons_self)]
    rfl

lemma coherent_gain (hfst : first.coherent) (h : ∀ request ∈ requests, request.coherent) :
    (first.gain requests).coherent := by
  refine coherent_iff.2 ⟨(coherent_iff.1 hfst).1, fun escalation hmem => ?_⟩
  rcases Option.or_eq_some_iff.1 hmem with hget | ⟨-, hget⟩
  · exact (coherent_iff.1 hfst).2 escalation hget
  · obtain ⟨request, hreq, hescalation⟩ := mem_filterMap.1 (mem_of_find?_eq_some hget)
    exact ⟨find?_some hget, ((coherent_iff.1 (h request hreq)).2 escalation hescalation).2⟩

lemma coherent_of_validFrom {saved requests seen} (h : validFrom saved requests seen) :
    ∀ request ∈ requests, request.coherent := by
  induction requests generalizing seen with
  | nil => simp
  | cons request requests ih =>
    simp only [validFrom, Bool.and_eq_true] at h
    exact forall_mem_cons.2 ⟨h.1.2, ih h.2⟩

lemma get?_recordHalts (threadId : String) (requests : List TurnHaltRequest)
    (table : HaltTable) (key : String × String) :
    (recordHalts threadId requests table).get? key =
      rowOf (requests.filter fun request => (threadId, request.turnId) = key) (table.get? key) := by
  induction requests generalizing table with
  | nil => rfl
  | cons request requests ih =>
    refine (ih _).trans ?_
    rw [filter_cons, OrderedMap.get?_set]
    by_cases h : key = (threadId, request.turnId)
    · rw [if_pos h, if_pos (decide_eq_true h.symm), h]
      rfl
    · rw [if_neg h, if_neg (by simpa using Ne.symm h)]

end TurnHaltRequest

open TurnHaltRequest

/-- Call after call of `record`, each for a thread. -/
def recordAll (calls : List RecordCall) : HaltTable :=
  calls.foldl (fun table call => recordHalts call.1 call.2 table) .empty

/-- What the calls record for a turn. -/
def recordedFor (threadId turnId : String) (calls : List RecordCall) : List TurnHaltRequest :=
  calls.flatMap fun call => call.2.filter fun request => (call.1, request.turnId) = (threadId, turnId)

lemma get?_recordAll (threadId turnId : String) (calls : List RecordCall) (table : HaltTable) :
    (calls.foldl (fun table call => recordHalts call.1 call.2 table) table).get? (threadId, turnId) =
      rowOf (recordedFor threadId turnId calls) (table.get? (threadId, turnId)) := by
  induction calls generalizing table with
  | nil => rfl
  | cons call calls ih =>
    refine (ih _).trans ?_
    rw [get?_recordHalts]
    exact (foldl_append ..).symm

/-- The calls pass `validate`, each for the turns saved with it. -/
def Validated (calls : List RecordCall) : Prop :=
  ∀ call ∈ calls, ∃ saved, validate saved call.2 = .ok ()

lemma Validated.coherent {calls threadId turnId} (h : Validated calls) :
    ∀ request ∈ recordedFor threadId turnId calls, request.coherent ∧ request.turnId = turnId := by
  intro request hmem
  obtain ⟨call, hcall, hmem⟩ := mem_flatMap.1 hmem
  obtain ⟨hmem, hkey⟩ := mem_filter.1 hmem
  obtain ⟨saved, hok⟩ := h call hcall
  unfold validate at hok
  split_ifs at hok with hbad
  exact ⟨coherent_of_validFrom (not_not.1 (not_or.1 hbad).2) request hmem, (Prod.mk.inj (of_decide_eq_true hkey)).2⟩

lemma Validated.settles {calls threadId turnId request} (h : Validated calls)
    (hstl : settled (recordedFor threadId turnId calls) = some request) :
    request.coherent ∧ request.turnId = turnId := by
  cases hlist : recordedFor threadId turnId calls with
  | nil => simp [hlist, settled] at hstl
  | cons first requests =>
    have hall := hlist ▸ @h.coherent _ threadId turnId
    rw [hlist] at hstl
    cases hstl
    obtain ⟨hfst, rfl⟩ := hall first mem_cons_self
    exact ⟨coherent_gain (coherent_plain hfst) fun request hmem => (hall request hmem).1, rfl⟩

lemma Validated.read {calls} (h : Validated calls) (threadId turnId : String) :
    (recordAll calls).get? (threadId, turnId) = (settled (recordedFor threadId turnId calls)).map row ∧
      readHalt (recordAll calls) threadId turnId = settled (recordedFor threadId turnId calls) := by
  have hrow := (get?_recordAll threadId turnId calls .empty).trans
    (rowOf_none fun request hmem => (h.coherent request hmem).1)
  refine ⟨hrow, ?_⟩
  unfold readHalt
  rw [recordAll, hrow]
  cases hstl : settled (recordedFor threadId turnId calls) with
  | none => rfl
  | some request =>
    obtain ⟨hcoherent, rfl⟩ := h.settles hstl
    exact decode_row hcoherent

/-- **A halt request is written once and gains one escalation**, and `read` gives back exactly that.
-/
theorem halt_written_once {calls : List RecordCall} (hvalid : Validated calls)
    (threadId turnId : String) :
    (recordAll calls).get? (threadId, turnId) = (settled (recordedFor threadId turnId calls)).map row ∧
      readHalt (recordAll calls) threadId turnId = settled (recordedFor threadId turnId calls) ∧
      (∀ request ∈ settled (recordedFor threadId turnId calls), request.coherent) ∧
      ∀ earlier later, calls = earlier ++ later →
        ∀ request ∈ readHalt (recordAll earlier) threadId turnId,
          ∃ escalation, readHalt (recordAll calls) threadId turnId =
            some { request with escalation := request.escalation.or escalation } := by
  obtain ⟨hrow, hread⟩ := hvalid.read threadId turnId
  refine ⟨hrow, hread, fun request hmem => (hvalid.settles hmem).1, ?_⟩
  rintro earlier later rfl request hmem
  have hearlier : Validated earlier := fun call hcall => hvalid call (mem_append_left _ hcall)
  rw [(hearlier.read threadId turnId).2] at hmem
  rw [hread, recordedFor, flatMap_append]
  exact ⟨_, settled_append hmem⟩

/-- A hard stop that comes later changes nothing, and its escalation is not taken twice. -/
theorem halt_written_once_sample :
    let soft : TurnHaltRequest := ⟨"a", .composerEscape, .softInterrupt, 5, none⟩
    let refused := { soft with source := .threadMenu, escalation := some ⟨.interruptRefused, 7⟩ }
    let calls := [("t", [soft]), ("t", [{ soft with mode := .hardStop }]), ("t", [refused])]
    Validated calls ∧ readHalt (recordAll calls) "t" "a" =
      some { soft with escalation := some ⟨.interruptRefused, 7⟩ } := by
  intro soft refused calls
  have hvalid : Validated calls := by
    intro call hmem
    refine ⟨["a"], ?_⟩
    simp only [calls, mem_cons, not_mem_nil, or_false] at hmem
    rcases hmem with rfl | rfl | rfl <;> rfl
  exact ⟨hvalid, (halt_written_once hvalid "t" "a").2.1⟩

end CodevoEditor.History
