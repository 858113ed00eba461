/-
# One outcome for a request

A request has one sender.
-/

import CodevoEditor.CodexAppServer.Requests

namespace CodevoEditor.CodexAppServer

open Js OrderedMap Function

variable {ρ : Type}

/-- A request fails on its own. -/
def OwnFailure (result : PendingOutcome ρ) : Prop :=
  result = .error .timeout ∨ ∃ reason, result = .error (.hostFailed reason)

namespace RequestStage

/-- The request has an identifier among the pending ones, or had, and is going to read its channel. -/
def Live : RequestStage ρ → Prop
  | .registered | .checked | .composed | .sending | .refused | .overflowed | .failing | .waiting => True
  | _ => False

/-- What the request returns. -/
def result : RequestStage ρ → Option (PendingOutcome ρ)
  | .forgetting result | .returned result => some result
  | _ => none

/-- The request has yet to look for the failure, or has found it and is about to give up its identifier. -/
def BeforeFailure (failure : Option String) (stage : RequestStage ρ) : Prop :=
  stage = .registered ∨ ∃ reason, failure = some reason ∧ stage = .foundFailure reason

end RequestStage

/-- The failure has taken what was pending. -/
def Draining.Drained : Draining → Prop
  | .sending _ | .closing _ | .returned => True
  | _ => False

variable {requests requests' : Requests ρ} {failure failure' : Option String} {draining draining' : Draining}
  {number id : ℕ} {call : RequestCall ρ} {outcome : PendingOutcome ρ}

/-- What holds of a call. -/
structure CallOk (requests : Requests ρ) (failure : Option String) (draining : Draining) (number : ℕ)
    (call : RequestCall ρ) : Prop where
  id_lt : call.id < requests.nextId
  sent_le : (requests.sent number).length ≤ 1
  sent_of : ∀ outcome ∈ requests.sent number,
    (∃ id, id.correlated = some call.id ∧ (id, outcome) ∈ requests.responses) ∨
      ∃ reason, failure = some reason ∧ outcome = .error (.hostFailed reason)
  received_of : ∀ outcome, call.received = some outcome → outcome ∈ requests.sent number
  unsent : number ∈ requests.senders draining → requests.sent number = []
  identified : call.stage = .identified → number ∉ requests.senders draining ∧ requests.sent number = []
  live : call.stage.Live → number ∈ requests.senders draining ∨ call.received.isSome
  result_of : ∀ result, call.stage.result = some result → result ∈ requests.sent number ∨ OwnFailure result
  settling_of : ∀ outcome, requests.settling = some (number, outcome) →
    ∃ id, id.correlated = some call.id ∧ (id, outcome) ∈ requests.responses
  drained : draining.Drained → number ∈ requests.pending.values → call.stage.BeforeFailure failure

structure Settled (requests : Requests ρ) (failure : Option String) (draining : Draining) : Prop where
  call_ok : ∀ number call, requests.calls number = some call → CallOk requests failure draining number call
  call_of_sender : ∀ number ∈ requests.senders draining, ∃ call, requests.calls number = some call
  pending_id : ∀ id number, requests.pending.get? id = some number →
    ∀ call, requests.calls number = some call → call.id = id
  uncalled : ∀ number, requests.calls number = none → requests.sent number = []
  id_inj : ∀ number call number' call', requests.calls number = some call →
    requests.calls number' = some call' → call.id = call'.id → call.id ≠ 0 → number = number'
  next_pos : 0 < requests.nextId
  zero_returned : ∀ number call, requests.calls number = some call → call.id = 0 →
    ∃ result, call.stage = .returned result
  pending_zero : requests.pending.get? 0 = none
  pending_le : requests.pending.size ≤ maxPendingRequests
  settling_alone : ∀ number outcome, requests.settling = some (number, outcome) →
    number ∉ requests.pending.values ∧ number ∉ draining.senders
  senders_alone : ∀ number ∈ draining.senders, number ∉ requests.pending.values
  failure_none : failure = none → draining = .idle

lemma mem_senders_iff : number ∈ requests.senders draining ↔ number ∈ requests.pending.values ∨
    (∃ outcome, requests.settling = some (number, outcome)) ∨ number ∈ draining.senders := by
  rw [Requests.senders, List.mem_append, List.mem_append, or_assoc]
  refine or_congr_right (or_congr_left ?_)
  cases requests.settling with
  | none => simp
  | some settling => simp [Prod.ext_iff, eq_comm]

lemma CallOk.frame (h : CallOk requests failure draining number call)
    (hid : requests.nextId ≤ requests'.nextId) (hsent : requests'.sent number = requests.sent number)
    (hsenders : number ∈ requests'.senders draining' ↔ number ∈ requests.senders draining)
    (hresps : requests.responses ⊆ requests'.responses)
    (hfail : ∀ reason, failure = some reason → failure' = some reason)
    (hsettl : ∀ outcome, requests'.settling = some (number, outcome) → requests.settling = some (number, outcome))
    (hdr : draining'.Drained → number ∈ requests'.pending.values → call.stage.BeforeFailure failure') :
    CallOk requests' failure' draining' number call where
  id_lt := h.id_lt.trans_le hid
  sent_le := hsent ▸ h.sent_le
  sent_of outcome hmem := by
    rw [hsent] at hmem
    rcases h.sent_of outcome hmem with ⟨id, hcorr, hresp⟩ | ⟨reason, hreason, rfl⟩
    · exact .inl ⟨id, hcorr, hresps hresp⟩
    · exact .inr ⟨reason, hfail reason hreason, rfl⟩
  received_of outcome hrecv := hsent ▸ h.received_of outcome hrecv
  unsent hmem := hsent ▸ h.unsent (hsenders.1 hmem)
  identified hstg := by
    rw [hsenders, hsent]
    exact h.identified hstg
  live hlive := by
    rw [hsenders]
    exact h.live hlive
  result_of result hres := hsent ▸ h.result_of result hres
  settling_of outcome hsome := by
    obtain ⟨id, hcorr, hresp⟩ := h.settling_of outcome (hsettl outcome hsome)
    exact ⟨id, hcorr, hresps hresp⟩
  drained := hdr

lemma settled_connected : Settled (TransportShared.connected : TransportShared ρ).requests none .idle where
  call_ok _ _ h := by cases h
  call_of_sender _ h := by cases h
  pending_id _ _ h := by cases h
  uncalled _ _ := rfl
  id_inj _ _ _ _ h := by cases h
  next_pos := Nat.one_pos
  zero_returned _ _ h := by cases h
  pending_zero := rfl
  pending_le := Nat.zero_le _
  settling_alone _ _ h := by cases h
  senders_alone _ h := by cases h
  failure_none _ := rfl

lemma Settled.replace (h : Settled requests failure draining) (hcall : requests.calls number = some call)
    (call') (hid : call'.id = call.id)
    (hcalls : requests'.calls = Function.update requests.calls number (some call'))
    (hnext : requests'.nextId = requests.nextId)
    (hok : CallOk requests' failure' draining' number call')
    (hoths : ∀ other call, other ≠ number → requests.calls other = some call →
      CallOk requests' failure' draining' other call)
    (hsent : ∀ other, other ≠ number → requests'.sent other = requests.sent other)
    (hsender : ∀ other ∈ requests'.senders draining', other = number ∨ other ∈ requests.senders draining)
    (hpend : ∀ id other, requests'.pending.get? id = some other →
      requests.pending.get? id = some other ∨ (other = number ∧ id = call.id))
    (hzero : call'.id = 0 → ∃ result, call'.stage = .returned result)
    (hpendingZero : requests'.pending.get? 0 = none) (hle : requests'.pending.size ≤ maxPendingRequests)
    (hsettl : ∀ other outcome, requests'.settling = some (other, outcome) →
      other ∉ requests'.pending.values ∧ other ∉ draining'.senders)
    (hdrains : ∀ other ∈ draining'.senders, other ∉ requests'.pending.values)
    (hfail : failure' = none → draining' = .idle) : Settled requests' failure' draining' := by
  have hcases {other} {other'} (hoth : requests'.calls other = some other') :
      (other = number ∧ other' = call') ∨ (other ≠ number ∧ requests.calls other = some other') := by
    rw [hcalls] at hoth
    by_cases heq : other = number
    · subst heq
      rw [update_self] at hoth
      exact .inl ⟨rfl, (Option.some.inj hoth).symm⟩
    · rw [update_of_ne heq] at hoth
      exact .inr ⟨heq, hoth⟩
  have hsame {other} {other'} (hoth : requests'.calls other = some other') :
      ∃ before, requests.calls other = some before ∧ before.id = other'.id := by
    rcases hcases hoth with ⟨rfl, rfl⟩ | ⟨-, hoth⟩
    · exact ⟨call, hcall, hid.symm⟩
    · exact ⟨other', hoth, rfl⟩
  refine ⟨fun other other' hoth => ?_, fun other hmem => ?_, fun id other hget other' hoth => ?_,
    fun other hoth => ?_, ?_, hnext ▸ h.next_pos, fun other other' hoth hother' => ?_, hpendingZero, hle,
    hsettl, hdrains, hfail⟩
  · rcases hcases hoth with ⟨rfl, rfl⟩ | ⟨hne, hoth⟩
    · exact hok
    · exact hoths other other' hne hoth
  · by_cases heq : other = number
    · subst heq
      exact ⟨call', by rw [hcalls, update_self]⟩
    · obtain ⟨before, hpre⟩ := h.call_of_sender other ((hsender other hmem).resolve_left heq)
      exact ⟨before, by rw [hcalls, update_of_ne heq, hpre]⟩
  · obtain ⟨before, hpre, hbeforeId⟩ := hsame hoth
    rw [← hbeforeId]
    rcases hpend id other hget with hget | ⟨rfl, rfl⟩
    · exact h.pending_id id other hget before hpre
    · rw [hcall] at hpre
      rw [Option.some.inj hpre]
  · have hne : other ≠ number := by
      rintro rfl
      rw [hcalls, update_self] at hoth
      cases hoth
    rw [hcalls, update_of_ne hne] at hoth
    rw [hsent other hne]
    exact h.uncalled other hoth
  · intro other other' third third' hoth hthird heq hne
    obtain ⟨before, hpre, hbeforeId⟩ := hsame hoth
    obtain ⟨before', hpre', hbeforeId'⟩ := hsame hthird
    refine h.id_inj other before third before' hpre hpre' ?_ ?_
    · rw [hbeforeId, hbeforeId', heq]
    · rwa [hbeforeId]
  · rcases hcases hoth with ⟨rfl, rfl⟩ | ⟨-, hoth⟩
    · exact hzero hother'
    · exact h.zero_returned other other' hoth hother'

lemma CallOk.setStage (h : CallOk requests failure draining number call) {stage}
    (hident : stage ≠ .identified)
    (hlive : stage.Live → number ∈ requests.senders draining ∨ call.received.isSome)
    (hres : ∀ result, stage.result = some result → result ∈ requests.sent number ∨ OwnFailure result)
    (hdr : draining.Drained → number ∈ requests.pending.values → stage.BeforeFailure failure) :
    CallOk (requests.setStage number call stage) failure draining number { call with stage := stage } where
  id_lt := h.id_lt
  sent_le := h.sent_le
  sent_of := h.sent_of
  received_of := h.received_of
  unsent := h.unsent
  identified hstg := absurd hstg hident
  live := hlive
  result_of := hres
  settling_of := h.settling_of
  drained := hdr

section

variable (h : Settled requests failure draining)
include h

lemma Settled.setStage (hcall : requests.calls number = some call) {stage}
    (hret : ∀ result, call.stage ≠ .returned result) (hident : stage ≠ .identified)
    (hlive : stage.Live → number ∈ requests.senders draining ∨ call.received.isSome)
    (hres : ∀ result, stage.result = some result → result ∈ requests.sent number ∨ OwnFailure result)
    (hdr : draining.Drained → number ∈ requests.pending.values → stage.BeforeFailure failure) :
    Settled (requests.setStage number call stage) failure draining := by
  refine h.replace hcall { call with stage := stage } rfl rfl rfl
    ((h.call_ok number call hcall).setStage hident hlive hres hdr)
    (fun other call' hne hoth => ?_) (fun _ _ => rfl) (fun _ hmem => .inr hmem)
    (fun _ _ hget => .inl hget) (fun hzero => ?_) h.pending_zero h.pending_le h.settling_alone h.senders_alone
      h.failure_none
  · exact (h.call_ok other call' hoth).frame le_rfl rfl .rfl (fun _ hmem => hmem) (fun _ hreason => hreason)
      (fun _ hsettl => hsettl) (h.call_ok other call' hoth).drained
  · obtain ⟨result, hres⟩ := h.zero_returned number call hcall hzero
    exact absurd hres (hret result)

lemma Settled.others (hcalls : requests'.calls = requests.calls)
    (hnext : requests'.nextId = requests.nextId)
    (hok : ∀ number call, requests.calls number = some call → CallOk requests' failure' draining' number call)
    (hsent : requests'.sent = requests.sent)
    (hsender : ∀ other ∈ requests'.senders draining', other ∈ requests.senders draining)
    (hpend : ∀ id other, requests'.pending.get? id = some other → requests.pending.get? id = some other)
    (hle : requests'.pending.size ≤ requests.pending.size)
    (hsettl : ∀ other outcome, requests'.settling = some (other, outcome) →
      other ∉ requests'.pending.values ∧ other ∉ draining'.senders)
    (hdrains : ∀ other ∈ draining'.senders, other ∉ requests'.pending.values)
    (hfail : failure' = none → draining' = .idle) : Settled requests' failure' draining' where
  call_ok number call hcall := hok number call (hcalls ▸ hcall)
  call_of_sender number hmem := hcalls ▸ h.call_of_sender number (hsender number hmem)
  pending_id id number hget call hcall := h.pending_id id number (hpend id number hget) call (hcalls ▸ hcall)
  uncalled number hcall := hsent ▸ h.uncalled number (hcalls ▸ hcall)
  id_inj := hcalls ▸ h.id_inj
  next_pos := hnext ▸ h.next_pos
  zero_returned := hcalls ▸ h.zero_returned
  pending_zero := Option.eq_none_iff_forall_ne_some.2 fun other hget => by
    have := hpend 0 other hget
    rw [h.pending_zero] at this
    cases this
  pending_le := hle.trans h.pending_le
  settling_alone := hsettl
  senders_alone := hdrains
  failure_none := hfail

lemma Settled.mem_values_delete (hcall : requests.calls number = some call) {other} :
    other ∈ (requests.pending.delete call.id).values ↔ other ∈ requests.pending.values ∧ other ≠ number := by
  simp only [mem_values_iff, get?_delete]
  constructor
  · rintro ⟨id, hget⟩
    split_ifs at hget with hid
    refine ⟨⟨id, hget⟩, ?_⟩
    rintro rfl
    exact hid (h.pending_id id other hget call hcall).symm
  · rintro ⟨⟨id, hget⟩, hne⟩
    refine ⟨id, ?_⟩
    rw [if_neg ?_, hget]
    rintro rfl
    have hsender : other ∈ requests.senders draining := mem_senders_iff.2 (.inl (mem_values_iff.2 ⟨_, hget⟩))
    obtain ⟨call', hcall'⟩ := h.call_of_sender other hsender
    have hid := h.pending_id _ other hget call' hcall'
    refine hne (h.id_inj other call' number call hcall' hcall hid fun hzero => ?_)
    rw [← hid, hzero, h.pending_zero] at hget
    cases hget

lemma Settled.get?_identified (hcall : requests.calls number = some call)
    (hstg : call.stage = .identified) :
    requests.pending.get? call.id = none := by
  refine Option.eq_none_iff_forall_ne_some.2 fun other hget => ?_
  have hsender : other ∈ requests.senders draining := mem_senders_iff.2 (.inl (mem_values_iff.2 ⟨_, hget⟩))
  obtain ⟨call', hcall'⟩ := h.call_of_sender other hsender
  have hid := h.pending_id _ other hget call' hcall'
  have hne : call'.id ≠ 0 := by
    rintro hzero
    rw [← hid, hzero, h.pending_zero] at hget
    cases hget
  obtain rfl := h.id_inj other call' number call hcall' hcall hid hne
  exact ((h.call_ok other call hcall).identified hstg).1 hsender

end

end CodevoEditor.CodexAppServer
