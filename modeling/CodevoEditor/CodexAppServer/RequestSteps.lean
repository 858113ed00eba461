/-
# What the steps of a request keep

Requests, the reader and the failure one step at a time: each keeps `Settled`
(`TransportShared.settled_step`).
-/

import CodevoEditor.CodexAppServer.RequestSettlement

namespace CodevoEditor.CodexAppServer

open Js List OrderedMap Function Option

variable {ρ : Type} {requests requests' : Requests ρ} {failure failure' : Option String}
  {draining draining' : Draining} {number : ℕ} {call : RequestCall ρ} {outcome : PendingOutcome ρ}

namespace Settled

section

variable (h : Settled requests failure draining)
include h

lemma id_ne_zero (hcall : requests.calls number = some call)
    (hret : ∀ result, call.stage ≠ .returned result) : call.id ≠ 0 := fun hzero => by
  obtain ⟨result, hres⟩ := h.zero_returned number call hcall hzero
  exact hret result hres

lemma identify (hnone : requests.calls number = none) : Settled (requests.identify number) failure draining := by
  have hsender : number ∉ requests.senders draining := fun hmem => by
    obtain ⟨call, hcall⟩ := h.call_of_sender number hmem
    rw [hnone] at hcall
    cases hcall
  have hsettl : ∀ outcome, requests.settling ≠ some (number, outcome) := fun outcome hsome =>
    hsender (mem_senders_iff.2 (.inr (.inl ⟨outcome, hsome⟩)))
  have hsent := h.uncalled number hnone
  -- either way there is one call more, which nothing has been sent to
  have hstep id nextId stage (hlt : id < nextId) (hle : requests.nextId ≤ nextId)
      (hid : id = 0 ∨ id = requests.nextId) (hzero : id = 0 → ∃ result, stage = .returned result)
      (hlive : ¬ stage.Live) (hres : ∀ result, stage.result = some result → OwnFailure result) :
      Settled { requests with
          nextId := nextId
          calls := update requests.calls number (some ⟨id, stage, none⟩) } failure draining := by
    have hcases {other} {call}
        (hoth : update requests.calls number (some ⟨id, stage, none⟩) other = some call) :
        (other = number ∧ call = ⟨id, stage, none⟩) ∨ (other ≠ number ∧ requests.calls other = some call) := by
      by_cases heq : other = number
      · subst heq
        rw [update_self] at hoth
        exact .inl ⟨rfl, (some.inj hoth).symm⟩
      · rw [update_of_ne heq] at hoth
        exact .inr ⟨heq, hoth⟩
    have hne {other} (hmem : other ∈ requests.senders draining) : other ≠ number := by
      rintro rfl
      exact hsender hmem
    refine ⟨fun other call hoth => ?_, fun other hmem => ?_, fun id' other hget call hoth => ?_,
      fun other hoth => ?_, ?_, hlt.trans_le' (Nat.zero_le _), fun other call hoth hother' => ?_,
      h.pending_zero, h.pending_le, h.settling_alone, h.senders_alone, h.failure_none⟩
    · rcases hcases hoth with ⟨rfl, rfl⟩ | ⟨-, hoth⟩
      · have hnothing : ∀ outcome, outcome ∉ requests.sent other := fun outcome hmem => by
          rw [hsent] at hmem
          cases hmem
        exact ⟨hlt, by show (requests.sent other).length ≤ 1; rw [hsent]; exact Nat.zero_le _,
          fun outcome hmem => absurd hmem (hnothing outcome), nofun, fun _ => hsent,
          fun _ => ⟨hsender, hsent⟩, fun hliv => absurd hliv hlive,
          fun result heq => .inr (hres result heq), fun outcome hsome => absurd hsome (hsettl outcome),
          fun _ hmem => absurd (mem_senders_iff.2 (.inl hmem)) hsender⟩
      · exact (h.call_ok other call hoth).frame hle rfl .rfl (fun _ hmem => hmem) (fun _ heq => heq)
          (fun _ heq => heq) (h.call_ok other call hoth).drained
    · have hmem : other ∈ requests.senders draining := hmem
      obtain ⟨call, hcall⟩ := h.call_of_sender other hmem
      exact ⟨call, (update_of_ne (hne hmem) _ _).trans hcall⟩
    · rcases hcases hoth with ⟨rfl, -⟩ | ⟨-, hoth⟩
      · exact absurd (mem_senders_iff.2 (.inl (mem_values_iff.2 ⟨id', hget⟩))) hsender
      · exact h.pending_id id' other hget call hoth
    · have hoth : update requests.calls number (some ⟨id, stage, none⟩) other = none := hoth
      have hne : other ≠ number := by
        rintro rfl
        rw [update_self] at hoth
        cases hoth
      exact h.uncalled other ((update_of_ne hne _ _).symm.trans hoth)
    · -- an identifier is 0, or above those that were given before
      have hnew {other} {call} (hoth : requests.calls other = some call) (heq : call.id = id) : call.id = 0 := by
        rcases hid with rfl | rfl
        · exact heq
        · exact absurd ((h.call_ok other call hoth).id_lt) (heq ▸ Nat.lt_irrefl _)
      intro other call other' call' hoth hother' heq hpos
      rcases hcases hoth with ⟨hoth, hcall⟩ | ⟨-, hoth⟩ <;>
        rcases hcases hother' with ⟨hother', hcall'⟩ | ⟨-, hother'⟩
      · rw [hoth, hother']
      · rw [hcall] at heq hpos
        exact absurd (heq.trans (hnew hother' heq.symm)) hpos
      · rw [hcall'] at heq
        exact absurd (hnew hoth heq) hpos
      · exact h.id_inj other call other' call' hoth hother' heq hpos
    · rcases hcases hoth with ⟨rfl, rfl⟩ | ⟨-, hoth⟩
      · exact hzero hother'
      · exact h.zero_returned other call hoth hother'
  rw [Requests.identify]
  split_ifs
  · exact hstep _ _ _ (Nat.lt_succ_self _) (Nat.le_succ _) (.inr rfl)
      (fun hzero => absurd hzero h.next_pos.ne') not_false nofun
  · refine hstep _ _ _ h.next_pos le_rfl (.inl rfl) (fun _ => ⟨_, rfl⟩) not_false fun result hres => ?_
    rw [← some.inj hres]
    exact .inr ⟨_, rfl⟩

lemma register (hcall : requests.calls number = some call) (hstg : call.stage = .identified) :
    Settled (requests.register number call) failure draining := by
  have hok := h.call_ok number call hcall
  obtain ⟨hsender, hsent⟩ := hok.identified hstg
  have hret : ∀ result, call.stage ≠ .returned result := fun result heq => by
    rw [hstg] at heq
    cases heq
  rw [Requests.register]
  split_ifs with hfull
  · refine h.setStage hcall hret (by rintro ⟨⟩) (by rintro ⟨⟩) (fun result hres => .inr ?_) ?_
    · rw [← some.inj hres]
      exact .inr ⟨_, rfl⟩
    · exact fun _ hmem => absurd (mem_senders_iff.2 (.inl hmem)) hsender
  · have hpos := h.id_ne_zero hcall hret
    have hfree := h.get?_identified hcall hstg
    have hvalues other : other ∈ (requests.pending.set call.id number).values ↔
        other = number ∨ other ∈ requests.pending.values := by
      simp only [mem_values_iff, get?_set]
      constructor
      · rintro ⟨id, hget⟩
        split_ifs at hget with hid
        · exact .inl (some.inj hget).symm
        · exact .inr ⟨id, hget⟩
      · rintro (rfl | ⟨id, hget⟩)
        · exact ⟨call.id, if_pos rfl⟩
        · refine ⟨id, ?_⟩
          rw [if_neg ?_, hget]
          rintro rfl
          rw [hfree] at hget
          cases hget
    have hsenders other : other ∈ Requests.senders { requests.setStage number call .registered with
        pending := requests.pending.set call.id number } draining ↔
          other = number ∨ other ∈ requests.senders draining := by
      rw [mem_senders_iff, mem_senders_iff, hvalues]
      exact or_assoc
    refine h.replace hcall { call with stage := .registered } rfl rfl rfl ?_ (fun other call' hne hoth => ?_)
      (fun _ _ => rfl) (fun other hmem => (hsenders other).1 hmem) (fun id other hget => ?_)
      (fun hzero => absurd hzero hpos) ?_ ?_ (fun other outcome hsome => ?_)
      (fun other hmem hmem' => ?_) h.failure_none
    · exact ⟨hok.id_lt, hok.sent_le, hok.sent_of, hok.received_of, fun _ => hsent, by rintro ⟨⟩,
        fun _ => .inl ((hsenders number).2 (.inl rfl)), by rintro _ ⟨⟩, hok.settling_of, fun _ _ => .inl rfl⟩
    · refine (h.call_ok other call' hoth).frame le_rfl rfl ?_ (fun _ hmem => hmem) (fun _ heq => heq)
        (fun _ heq => heq) fun hdrained hmem => ?_
      · rw [hsenders, or_iff_right hne]
      · exact (h.call_ok other call' hoth).drained hdrained (((hvalues other).1 hmem).resolve_left hne)
    · rw [get?_set] at hget
      split_ifs at hget with hid
      · exact .inr ⟨(some.inj hget).symm, hid⟩
      · exact .inl hget
    · rw [get?_set, if_neg hpos.symm]
      exact h.pending_zero
    · show (requests.pending.set call.id number).size ≤ _
      rw [size_set, if_neg (get?_eq_none_iff.1 hfree)]
      omega
    · obtain ⟨hpend, hdr⟩ := h.settling_alone other outcome hsome
      refine ⟨fun hmem => ?_, hdr⟩
      rcases (hvalues other).1 hmem with rfl | hmem
      · exact hsender (mem_senders_iff.2 (.inr (.inl ⟨outcome, hsome⟩)))
      · exact hpend hmem
    · rcases (hvalues other).1 hmem' with rfl | hmem'
      · exact hsender (mem_senders_iff.2 (.inr (.inr hmem)))
      · exact h.senders_alone other hmem hmem'

lemma forget (hcall : requests.calls number = some call) {stage}
    (hret : ∀ result, call.stage ≠ .returned result) (hident : stage ≠ .identified)
    (hlive : ¬ stage.Live)
    (hres : ∀ result, stage.result = some result → result ∈ requests.sent number ∨ OwnFailure result) :
    Settled (requests.forget number call stage) failure draining := by
  have hok := h.call_ok number call hcall
  have hpos := h.id_ne_zero hcall hret
  have hvalues {other} (hmem : other ∈ (requests.pending.delete call.id).values) :
      other ∈ requests.pending.values := ((h.mem_values_delete hcall).1 hmem).1
  have hsenders {other} (hmem : other ∈ (requests.forget number call stage).senders draining) :
      other ∈ requests.senders draining := by
    rw [mem_senders_iff] at hmem ⊢
    exact hmem.imp_left hvalues
  refine h.replace hcall { call with stage := stage } rfl rfl rfl ?_ (fun other call' hne hoth => ?_)
    (fun _ _ => rfl) (fun other hmem => .inr (hsenders hmem)) (fun id other hget => ?_)
    (fun hzero => absurd hzero hpos) ?_
    ((requests.pending.size_delete_le call.id).trans h.pending_le)
    (fun other outcome hsome => ?_) (fun other hmem hmem' => h.senders_alone other hmem (hvalues hmem'))
    h.failure_none
  · exact ⟨hok.id_lt, hok.sent_le, hok.sent_of, hok.received_of, fun hmem => hok.unsent (hsenders hmem),
      fun heq => absurd heq hident, fun hliv => absurd hliv hlive, hres, hok.settling_of,
      fun _ hmem => absurd rfl ((h.mem_values_delete hcall).1 hmem).2⟩
  · refine (h.call_ok other call' hoth).frame le_rfl rfl ⟨hsenders, fun hmem => ?_⟩ (fun _ hmem => hmem)
      (fun _ heq => heq) (fun _ heq => heq) fun hdrained hmem => ?_
    · rw [mem_senders_iff] at hmem ⊢
      exact hmem.imp_left fun hmem => (h.mem_values_delete hcall).2 ⟨hmem, hne⟩
    · exact (h.call_ok other call' hoth).drained hdrained (hvalues hmem)
  · have hget : (requests.pending.delete call.id).get? id = some other := hget
    rw [get?_delete] at hget
    split_ifs at hget
    exact .inl hget
  · show (requests.pending.delete call.id).get? 0 = none
    rw [get?_delete, if_neg hpos.symm]
    exact h.pending_zero
  · obtain ⟨hpend, hdr⟩ := h.settling_alone other outcome hsome
    exact ⟨fun hmem => hpend (hvalues hmem), hdr⟩

lemma settle (hfree : requests.settling = none) (id) (outcome) :
    Settled (requests.settle id outcome) failure draining := by
  rw [Requests.settle]
  have hresps : requests.responses ⊆ requests.responses ++ [(id, outcome)] := subset_append_left _ _
  split
  · refine h.others rfl rfl (fun number call hcall => ?_) rfl (fun _ hmem => hmem) (fun _ _ hget => hget) le_rfl
      h.settling_alone h.senders_alone h.failure_none
    exact (h.call_ok number call hcall).frame le_rfl rfl .rfl hresps (fun _ heq => heq) (fun _ heq => heq)
      (h.call_ok number call hcall).drained
  · rename_i hfound
    obtain ⟨correlated, hcorr, hfound⟩ := bind_eq_some_iff.1 hfound
    obtain ⟨number, hget, heq⟩ := map_eq_some_iff.1 hfound
    obtain ⟨rfl, rfl⟩ := Prod.mk.inj heq
    have hmem : number ∈ requests.pending.values := mem_values_iff.2 ⟨correlated, hget⟩
    have hsender : number ∈ requests.senders draining := mem_senders_iff.2 (.inl hmem)
    obtain ⟨call, hcall⟩ := h.call_of_sender number hsender
    obtain rfl := h.pending_id correlated number hget call hcall
    have hok := h.call_ok number call hcall
    have hvalues other : other ∈ (requests.pending.delete call.id).values ↔
        other ∈ requests.pending.values ∧ other ≠ number := h.mem_values_delete hcall
    -- the sender goes from the pending requests to the reader
    have hsenders other : other ∈ Requests.senders { requests with
        responses := requests.responses ++ [(id, outcome)]
        pending := requests.pending.delete call.id
        settling := some (number, outcome) } draining ↔ other ∈ requests.senders draining := by
      rw [mem_senders_iff, mem_senders_iff, hvalues, hfree]
      have hsettl : (∃ outcome', some (number, outcome) = some (other, outcome')) ↔ other = number := by
        simp [eq_comm]
      rw [hsettl]
      by_cases heq : other = number
      · subst heq
        simp [hmem]
      · simp [heq]
    refine h.others rfl rfl (fun other call' hoth => ?_) rfl (fun other => (hsenders other).1)
      (fun key other hkey => ?_) (requests.pending.size_delete_le call.id) (fun other outcome' hsome => ?_)
      (fun other hoth hpend => h.senders_alone other hoth ((hvalues other).1 hpend).1) h.failure_none
    · by_cases heq : other = number
      · subst heq
        obtain rfl := some.inj (hcall.symm.trans hoth)
        refine ⟨hok.id_lt, hok.sent_le, fun outcome' hsent => ?_, hok.received_of, fun _ => hok.unsent hsender,
          fun hstg => absurd hsender (hok.identified hstg).1, fun _ => .inl ((hsenders other).2 hsender),
          hok.result_of, fun outcome' hsome => ?_, fun _ hpend => absurd rfl ((hvalues other).1 hpend).2⟩
        · exact (hok.sent_of outcome' hsent).imp_left fun ⟨key, hkey, hresp⟩ => ⟨key, hkey, hresps hresp⟩
        · cases hsome
          exact ⟨id, hcorr, mem_append_right _ (mem_singleton.2 rfl)⟩
      · refine (h.call_ok other call' hoth).frame le_rfl rfl (hsenders other) hresps (fun _ heq => heq)
          (fun outcome' hsome => ?_) fun hdrained hpend => ?_
        · exact absurd (Prod.mk.inj (some.inj hsome)).1.symm heq
        · exact (h.call_ok other call' hoth).drained hdrained ((hvalues other).1 hpend).1
    · have hkey : (requests.pending.delete call.id).get? key = some other := hkey
      rw [get?_delete] at hkey
      split_ifs at hkey
      exact hkey
    · cases hsome
      refine ⟨fun hpend => ((hvalues _).1 hpend).2 rfl, fun hdr => ?_⟩
      exact h.senders_alone _ hdr hmem

end

lemma send_spec (hcall : requests.calls number = some call) (hnone : call.received = none)
    (outcome) : ∃ received,
    (received = some outcome ∨ (received = none ∧ ∃ result, call.stage = .returned result)) ∧
      requests.send number outcome = { requests with
        sent := update requests.sent number (requests.sent number ++ [outcome])
        calls := update requests.calls number (some { call with received := received }) } := by
  rw [Requests.send]
  rw [hcall]
  dsimp only
  have hsame : update requests.calls number (some { call with received := none }) = requests.calls := by
    rw [← hnone, ← hcall, update_eq_self]
  split
  · rename_i result hstg
    exact ⟨none, .inr ⟨rfl, result, hstg⟩, by rw [hsame]⟩
  · rename_i hsome _
    rw [hnone] at hsome
    cases hsome
  · exact ⟨some outcome, .inl rfl, rfl⟩

lemma sent (h : Settled requests failure draining) (hcall : requests.calls number = some call)
    (hsender : number ∈ requests.senders draining) {received}
    (hrecv : received = some outcome ∨ (received = none ∧ ∃ result, call.stage = .returned result))
    (hval : (∃ id, id.correlated = some call.id ∧ (id, outcome) ∈ requests.responses) ∨
      ∃ reason, failure = some reason ∧ outcome = .error (.hostFailed reason))
    {settling}
    (hsettl : ∀ other outcome, settling = some (other, outcome) → requests.settling = some (other, outcome))
    (hdr : ∀ other ∈ draining'.senders, other ∈ draining.senders)
    (hsenders : ∀ other, other ∈ ({ requests with settling := settling } : Requests ρ).senders draining' ↔
      other ∈ requests.senders draining ∧ other ≠ number)
    (hdrained : draining'.Drained → draining.Drained) (hidle : failure = none → draining' = .idle) :
    Settled { requests with
      sent := update requests.sent number (requests.sent number ++ [outcome])
      calls := update requests.calls number (some { call with received := received })
      settling := settling } failure draining' := by
  have hok := h.call_ok number call hcall
  have hunsent := hok.unsent hsender
  have hsent : update requests.sent number (requests.sent number ++ [outcome]) number = [outcome] := by
    rw [update_self, hunsent, nil_append]
  have hone : (update requests.sent number (requests.sent number ++ [outcome]) number).length ≤ 1 := by
    rw [hsent]
    exact le_rfl
  have hmem {other}
      (hoth : other ∈ update requests.sent number (requests.sent number ++ [outcome]) number) :
      other = outcome := by
    rw [hsent] at hoth
    exact mem_singleton.1 hoth
  have hused : number ∉ ({ requests with settling := settling } : Requests ρ).senders draining' := fun hmem =>
    ((hsenders number).1 hmem).2 rfl
  refine h.replace hcall { call with received := received } rfl rfl rfl ?_ (fun other call' hne hoth => ?_)
    (fun other hne => update_of_ne hne _ _) (fun other hmem => .inr ((hsenders other).1 hmem).1)
    (fun _ _ hget => .inl hget) (h.zero_returned number call hcall) h.pending_zero h.pending_le
    (fun other outcome' hsome => ?_) (fun other hmem => h.senders_alone other (hdr other hmem)) hidle
  · refine ⟨hok.id_lt, hone, fun other hoth => ?_, fun other hoth => ?_,
      fun hmem => absurd hmem hused, fun hstg => absurd hsender (hok.identified hstg).1, fun hlive => ?_,
      fun result hres => ?_, fun other hsome => ?_, fun _ hpend => ?_⟩
    · rw [hmem hoth]
      exact hval
    · rcases hrecv with rfl | ⟨rfl, -⟩
      · cases hoth
        show outcome ∈ update requests.sent number (requests.sent number ++ [outcome]) number
        rw [hsent]
        exact mem_singleton.2 rfl
      · cases hoth
    · rcases hrecv with rfl | ⟨-, result, hstg⟩
      · exact .inr rfl
      · have hlive : call.stage.Live := hlive
        rw [hstg] at hlive
        cases hlive
    · have hres := hok.result_of result hres
      rw [hunsent] at hres
      exact .inr (hres.resolve_left not_mem_nil)
    · exact absurd (mem_senders_iff.2 (.inr (.inl ⟨other, hsome⟩))) hused
    · exact absurd (mem_senders_iff.2 (.inl hpend)) hused
  · exact (h.call_ok other call' hoth).frame le_rfl (update_of_ne hne _ _)
      ((hsenders other).trans (and_iff_left hne)) (fun _ hmem => hmem) (fun _ heq => heq)
      (fun outcome' hsome => hsettl other outcome' hsome)
      fun hdrains => (h.call_ok other call' hoth).drained (hdrained hdrains)
  · obtain ⟨hpend, hnot⟩ := h.settling_alone other outcome' (hsettl other outcome' hsome)
    exact ⟨hpend, fun hmem => hnot (hdr other hmem)⟩

lemma deliver (h : Settled requests failure draining) (hsettl : requests.settling = some (number, outcome)) :
    Settled { requests.send number outcome with settling := none } failure draining := by
  have hsender : number ∈ requests.senders draining := mem_senders_iff.2 (.inr (.inl ⟨outcome, hsettl⟩))
  obtain ⟨call, hcall⟩ := h.call_of_sender number hsender
  have hok := h.call_ok number call hcall
  have hnone : call.received = none := eq_none_iff_forall_ne_some.2 fun other hoth => by
    have := hok.received_of other hoth
    rw [hok.unsent hsender] at this
    cases this
  obtain ⟨hpend, hdr⟩ := h.settling_alone number outcome hsettl
  obtain ⟨received, hrecv, heq⟩ := send_spec hcall hnone outcome
  rw [heq]
  refine h.sent hcall hsender hrecv (.inl (hok.settling_of outcome hsettl)) nofun (fun _ hmem => hmem)
    (fun other => ?_) id h.failure_none
  rw [mem_senders_iff, mem_senders_iff, hsettl]
  constructor
  · rintro (hmem | ⟨_, hsome⟩ | hmem)
    · exact ⟨.inl hmem, fun heq => hpend (heq ▸ hmem)⟩
    · cases hsome
    · exact ⟨.inr (.inr hmem), fun heq => hdr (heq ▸ hmem)⟩
  · rintro ⟨hmem | ⟨_, hsome⟩ | hmem, hne⟩
    · exact .inl hmem
    · exact absurd (Prod.mk.inj (some.inj hsome)).1.symm hne
    · exact .inr (.inr hmem)

lemma sendFailure {senders} (h : Settled requests failure (.sending senders)) (hmem : number ∈ senders)
    {reason} (hfail : failure = some reason) :
    Settled (requests.send number (.error (.hostFailed reason))) failure
      (.sending (senders.filter (· ≠ number))) := by
  have hsender : number ∈ requests.senders (.sending senders) := mem_senders_iff.2 (.inr (.inr hmem))
  obtain ⟨call, hcall⟩ := h.call_of_sender number hsender
  have hok := h.call_ok number call hcall
  have hnone : call.received = none := eq_none_iff_forall_ne_some.2 fun other hoth => by
    have := hok.received_of other hoth
    rw [hok.unsent hsender] at this
    cases this
  obtain ⟨received, hrecv, heq⟩ := send_spec hcall hnone (.error (.hostFailed reason))
  rw [heq]
  refine h.sent hcall hsender hrecv (.inr ⟨reason, hfail, rfl⟩) (fun _ _ heq => heq)
    (fun other hoth => (mem_filter.1 hoth).1) (fun other => ?_) id (fun hnone => ?_)
  · rw [mem_senders_iff, mem_senders_iff]
    show _ ∨ _ ∨ other ∈ senders.filter (· ≠ number) ↔ (_ ∨ _ ∨ other ∈ senders) ∧ _
    rw [mem_filter, decide_eq_true_iff]
    constructor
    · rintro (hoth | ⟨outcome, hsome⟩ | ⟨hoth, hne⟩)
      · exact ⟨.inl hoth, fun heq => h.senders_alone number hmem (heq ▸ hoth)⟩
      · exact ⟨.inr (.inl ⟨outcome, hsome⟩), fun heq => (h.settling_alone other outcome hsome).2 (heq ▸ hmem)⟩
      · exact ⟨.inr (.inr hoth), hne⟩
    · rintro ⟨hoth | hsome | hoth, hne⟩
      · exact .inl hoth
      · exact .inr (.inl hsome)
      · exact .inr (.inr ⟨hoth, hne⟩)
  · rw [hfail] at hnone
    cases hnone

lemma takePending (h : Settled requests failure .writerTaken) :
    Settled { requests with pending := .empty } failure (.sending requests.pending.values) := by
  have hsenders other : other ∈ Requests.senders { requests with pending := .empty }
      (.sending requests.pending.values) ↔ other ∈ requests.senders .writerTaken := by
    rw [mem_senders_iff, mem_senders_iff]
    show other ∈ ([] : List ℕ) ∨ _ ∨ other ∈ requests.pending.values ↔ _ ∨ _ ∨ other ∈ ([] : List ℕ)
    simp only [not_mem_nil, false_or, or_false]
    exact Or.comm
  refine h.others rfl rfl (fun other call hoth => ?_) rfl (fun other => (hsenders other).1) nofun
    (Nat.zero_le _) (fun other outcome hsome => ⟨not_mem_nil, (h.settling_alone other outcome hsome).1⟩)
    (fun _ _ => not_mem_nil) (fun hnone => ?_)
  · exact (h.call_ok other call hoth).frame le_rfl rfl (hsenders other) (fun _ hmem => hmem) (fun _ heq => heq)
      (fun _ heq => heq) nofun
  · cases h.failure_none hnone

lemma proceed (h : Settled requests failure draining)
    (hfail : ∀ reason, failure = some reason → failure' = some reason)
    (hsenders : draining.senders = []) (hsenders' : draining'.senders = [])
    (hdrained : draining'.Drained → draining.Drained) (hidle : failure' = none → draining' = .idle) :
    Settled requests failure' draining' := by
  have hsame other : other ∈ requests.senders draining' ↔ other ∈ requests.senders draining := by
    rw [mem_senders_iff, mem_senders_iff, hsenders, hsenders']
  refine h.others rfl rfl (fun other call hoth => ?_) rfl (fun other => (hsame other).1) (fun _ _ hget => hget)
    le_rfl (fun other outcome hsome => ⟨(h.settling_alone other outcome hsome).1, ?_⟩) (fun other hmem => ?_) hidle
  · refine (h.call_ok other call hoth).frame le_rfl rfl (hsame other) (fun _ hmem => hmem) hfail
      (fun _ heq => heq) fun hdrains hmem => ?_
    rcases (h.call_ok other call hoth).drained (hdrained hdrains) hmem with hstg | ⟨reason, hreason, hstg⟩
    · exact .inl hstg
    · exact .inr ⟨reason, hfail reason hreason, hstg⟩
  · rw [hsenders']
    exact not_mem_nil
  · rw [hsenders'] at hmem
    cases hmem

end Settled

namespace TransportShared

variable {shared next : TransportShared ρ}

lemma recordFailure_requests (shared : TransportShared ρ) (reason : String) :
    (shared.recordFailure reason).requests = shared.requests := by
  rw [recordFailure]
  split_ifs <;> rfl

lemma settled_recordFailure (h : Settled shared.requests shared.failure shared.draining) (reason : String) :
    Settled (shared.recordFailure reason).requests (shared.recordFailure reason).failure
      (shared.recordFailure reason).draining := by
  rw [recordFailure]
  split_ifs with hsome
  · exact h
  · have hfail : shared.failure = none := by simpa using hsome
    have hidle := h.failure_none hfail
    refine h.proceed (fun other heq => ?_) (by rw [hidle]; rfl) rfl nofun nofun
    rw [hfail] at heq
    cases heq

/-- What a step of a request can change: its own stage, and the failure if there was none. -/
structure Continues (shared next : TransportShared ρ) (number : ℕ) (call : RequestCall ρ) : Prop where
  calls : ∃ stage, next.requests.calls = update shared.requests.calls number (some { call with stage := stage })
  queues : next.queues = shared.queues
  failure : (next.failure = shared.failure ∧ next.draining = shared.draining) ∨
    (shared.failure = none ∧ next.failure.isSome ∧ next.draining = .recorded)

lemma continues_of_requestStep {input}
    (hstep : shared.requestStep number call input = some next) : shared.Continues next number call := by
  have hrecord reason stage :
      shared.Continues ((shared.recordFailure reason).setStage number call stage) number call := by
    rw [recordFailure]
    split_ifs with hsome
    · exact ⟨⟨_, rfl⟩, rfl, .inl ⟨rfl, rfl⟩⟩
    · exact ⟨⟨_, rfl⟩, rfl, .inr ⟨by simpa using hsome, rfl, rfl⟩⟩
  have hstays {requests} {stage}
      (hcalls : requests.calls = update shared.requests.calls number (some { call with stage := stage }))
      (hnext : some { shared with requests := requests } = some next) : shared.Continues next number call := by
    cases hnext
    exact ⟨⟨stage, hcalls⟩, rfl, .inl ⟨rfl, rfl⟩⟩
  unfold requestStep Requests.register at hstep
  split at hstep
  · split_ifs at hstep <;> exact hstays rfl hstep
  · split at hstep <;> exact hstays rfl hstep
  · exact hstays rfl hstep
  · exact hstays rfl hstep
  · split_ifs at hstep <;> exact hstays rfl hstep
  · exact hstays rfl hstep
  · split_ifs at hstep <;> cases hstep <;> exact ⟨⟨_, rfl⟩, rfl, .inl ⟨rfl, rfl⟩⟩
  · exact hstays rfl hstep
  · cases hstep
    exact hrecord _ _
  · split_ifs at hstep
    exact hstays rfl hstep
  · split at hstep
    · exact hstays rfl hstep
    · split_ifs at hstep
      exact hstays rfl hstep
  · split_ifs at hstep
    exact hstays rfl hstep
  · exact hstays rfl hstep
  · exact hstays rfl hstep
  · exact hstays rfl hstep
  · cases hstep

lemma settled_move (h : Settled shared.requests shared.failure shared.draining)
    (hcall : shared.requests.calls number = some call) (hlive : call.stage.Live)
    (hregistered : call.stage ≠ .registered) {stage} (hident : stage ≠ .identified)
    (hres : ∀ result, stage.result = some result → result ∈ shared.requests.sent number ∨ OwnFailure result) :
    Settled (shared.requests.setStage number call stage) shared.failure shared.draining := by
  have hok := h.call_ok number call hcall
  refine h.setStage hcall (fun result heq => ?_) hident (fun _ => hok.live hlive) hres fun hdrained hmem => ?_
  · rw [heq] at hlive
    cases hlive
  · rcases hok.drained hdrained hmem with hstg | ⟨reason, -, hstg⟩
    · exact absurd hstg hregistered
    · rw [hstg] at hlive
      cases hlive

lemma settled_requestStep (h : Settled shared.requests shared.failure shared.draining) {input}
    (hcall : shared.requests.calls number = some call) (hstep : shared.requestStep number call input = some next) :
    Settled next.requests next.failure next.draining := by
  have hok := h.call_ok number call hcall
  have hopen {stage} (hstg : call.stage = stage) (hne : ∀ result, stage ≠ .returned result) :
      ∀ result, call.stage ≠ .returned result := hstg ▸ hne
  have hmove {before stage} (hstg : call.stage = before) hlive
      (hne : before ≠ .registered) := @settled_move ρ number call shared h hcall (hstg ▸ hlive) (hstg ▸ hne) stage
  have hown reason {result} (hres : some (.error (.hostFailed reason)) = some result) :
      result ∈ shared.requests.sent number ∨ OwnFailure result :=
    .inr (.inr ⟨reason, (some.inj hres).symm⟩)
  unfold requestStep at hstep
  split at hstep
  · rename_i hstg
    cases hstep
    exact h.register hcall hstg
  · rename_i hstg
    split at hstep <;> cases hstep
    · rename_i reason hfail
      exact h.setStage hcall (hopen hstg nofun) nofun nofun nofun fun _ _ => .inr ⟨reason, hfail, rfl⟩
    · rename_i hfail
      refine h.setStage hcall (hopen hstg nofun) nofun (fun _ => hok.live (by rw [hstg]; trivial)) nofun
        fun hdrained _ => ?_
      rw [h.failure_none hfail] at hdrained
      cases hdrained
  · rename_i hstg
    cases hstep
    exact h.forget hcall (hopen hstg nofun) nofun not_false fun result => hown _
  · rename_i hstg
    cases hstep
    exact hmove hstg trivial nofun nofun fun result => hown _
  · rename_i hstg
    split_ifs at hstep <;> cases hstep
    · exact hmove hstg trivial nofun nofun fun result => hown _
    · exact hmove hstg trivial nofun nofun nofun
  · rename_i hstg
    cases hstep
    split_ifs <;> exact hmove hstg trivial nofun nofun nofun
  · rename_i hstg
    split_ifs at hstep <;> cases hstep <;> exact hmove hstg trivial nofun nofun nofun
  · rename_i hstg
    cases hstep
    exact hmove hstg trivial nofun nofun fun result => hown _
  · rename_i hstg
    cases hstep
    have hrec := settled_recordFailure h appServerWriteQueueError
    have hsame := recordFailure_requests shared appServerWriteQueueError
    rw [← hsame] at hcall hown
    have hmove {stage} := @settled_move ρ number call _ hrec hcall (by rw [hstg]; trivial)
      (by rw [hstg]; nofun) stage
    split_ifs
    · exact hmove nofun fun result => hown _
    · exact hmove nofun nofun
  · rename_i hstg
    split_ifs at hstep
    cases hstep
    exact hmove hstg trivial nofun nofun fun result => hown _
  · rename_i hstg
    split at hstep
    · rename_i outcome houtcome
      cases hstep
      refine hmove hstg trivial nofun nofun fun result hres => .inl ?_
      rw [← some.inj hres]
      exact hok.received_of outcome houtcome
    · split_ifs at hstep
      cases hstep
      exact hmove hstg trivial nofun nofun nofun
  · rename_i hstg
    split_ifs at hstep
    cases hstep
    refine hmove hstg trivial nofun nofun fun result hres =>
      .inr (.inl ?_)
    exact (some.inj hres).symm
  · rename_i hstg
    cases hstep
    exact h.forget hcall (hopen hstg nofun) nofun not_false nofun
  · rename_i result hstg
    cases hstep
    refine h.forget hcall (hopen hstg nofun) nofun not_false fun result' hres => hok.result_of result' ?_
    rw [hstg]
    exact hres
  · rename_i hstg
    cases hstep
    refine h.setStage hcall (hopen hstg nofun) nofun nofun (fun result => hown _) fun hdrained hmem => ?_
    rcases hok.drained hdrained hmem with heq | ⟨reason, -, heq⟩ <;> rw [hstg] at heq <;> cases heq
  · cases hstep

/-- What a step does. -/
inductive Stepped (shared : TransportShared ρ) : TransportShared ρ → Prop
  | requested (number : ℕ) (hnone : shared.requests.calls number = none) :
      Stepped shared { shared with requests := shared.requests.identify number }
  | continued (number : ℕ) (call : RequestCall ρ) (input : RequestInput) (next : TransportShared ρ)
      (hcall : shared.requests.calls number = some call)
      (hnext : shared.requestStep number call input = some next) : Stepped shared next
  | responded (id : RequestId) (outcome : PendingOutcome ρ) (hfree : shared.requests.settling = none) :
      Stepped shared { shared with requests := shared.requests.settle id outcome }
  | delivered (number : ℕ) (outcome : PendingOutcome ρ)
      (hsettl : shared.requests.settling = some (number, outcome)) :
      Stepped shared { shared with requests := { shared.requests.send number outcome with settling := none } }
  | failed (reason : String) : Stepped shared (shared.recordFailure reason)
  | tookWriter (hdrain : shared.draining = .recorded) :
      Stepped shared { shared with writer := false, draining := .writerTaken }
  | tookPending (hdrain : shared.draining = .writerTaken) :
      Stepped shared { shared with
        requests := { shared.requests with pending := .empty }
        draining := .sending shared.requests.pending.values }
  | sentFailure (senders : List ℕ) (number : ℕ) (hdrain : shared.draining = .sending senders)
      (hmem : number ∈ senders) :
      Stepped shared { shared with
        requests := shared.requests.send number (.error (.hostFailed (shared.failure.getD "")))
        draining := .sending (senders.filter (· ≠ number)) }
  | collected (hdrain : shared.draining = .sending []) :
      Stepped shared { shared with draining := .closing shared.queues.routes.values }
  | closedQueue (left : List ℕ) (number : ℕ) (subscription : Subscription)
      (hdrain : shared.draining = .closing left)
      (hsome : shared.queues.subscriptions number = some subscription) :
      Stepped shared { shared with
        queues := shared.queues.setSubscription number (subscription.close (shared.failure.getD ""))
        draining := .closing (left.filter (· ≠ number)) }
  | failReturned (hdrain : shared.draining = .closing []) :
      Stepped shared { shared with draining := .returned, failsReturned := shared.failsReturned + 1 }
  | subscribed (number : ℕ) (threadId : String) (hnone : shared.queues.subscriptions number = none) :
      Stepped shared { shared with queues := shared.queues.subscribe number threadId }
  | subscribeStepped (number : ℕ) (subscription : Subscription) (queues : Queues)
      (hsome : shared.queues.subscriptions number = some subscription)
      (hqueues : shared.queues.step shared.failure number subscription = some queues) :
      Stepped shared { shared with queues := queues }
  | attached (number : ℕ) (subscription : Subscription) (threadId : String)
      (hsome : shared.queues.subscriptions number = some subscription)
      (hlives : subscription.dropped = false) :
      Stepped shared { shared with queues := shared.queues.attachThread number subscription threadId }
  | dropped (number : ℕ) (subscription : Subscription)
      (hsome : shared.queues.subscriptions number = some subscription)
      (hnone : subscription.attaching = none) :
      Stepped shared { shared with queues := shared.queues.dropReceiver number subscription }
  | wrote (lines : ℕ) (receiving : Bool) :
      Stepped shared { shared with lines := lines, receiving := receiving }

lemma stepped_of_step {event} (hstep : shared.step event = some next) : shared.Stepped next := by
  cases event with
  | request number =>
    rw [step] at hstep
    split_ifs at hstep with hsome
    cases hstep
    exact .requested number (by simpa using hsome)
  | requestStep number input =>
    obtain ⟨call, hcall, hnext⟩ := bind_eq_some_iff.1 hstep
    exact .continued number call input next hcall hnext
  | respond id outcome =>
    rw [step] at hstep
    split_ifs at hstep with hsome
    cases hstep
    exact .responded id outcome (by simpa using hsome)
  | deliver =>
    obtain ⟨⟨number, outcome⟩, hsettl, rfl⟩ := map_eq_some_iff.1 hstep
    exact .delivered number outcome hsettl
  | fail reason =>
    cases hstep
    exact .failed reason
  | drain =>
    rw [step, drain] at hstep
    split at hstep
    · cases hstep
      exact .tookWriter ‹_›
    · cases hstep
      exact .tookPending ‹_›
    · cases hstep
      exact .collected ‹_›
    · cases hstep
      exact .failReturned ‹_›
    · cases hstep
  | sendFailure number =>
    rw [step, sendFailure] at hstep
    split at hstep
    · rename_i senders hdr
      split_ifs at hstep with hmem
      cases hstep
      exact .sentFailure senders number hdr hmem
    · cases hstep
  | closeQueue number =>
    rw [step, closeQueue] at hstep
    split at hstep
    · rename_i left hdr
      split_ifs at hstep
      obtain ⟨subscription, hsome, rfl⟩ := map_eq_some_iff.1 hstep
      exact .closedQueue left number subscription hdr hsome
    · cases hstep
  | subscribe number threadId =>
    rw [step] at hstep
    split_ifs at hstep with hsome
    cases hstep
    exact .subscribed number threadId (by simpa using hsome)
  | subscribeStep number =>
    obtain ⟨subscription, hsome, hstep⟩ := bind_eq_some_iff.1 hstep
    obtain ⟨queues, hqueues, rfl⟩ := map_eq_some_iff.1 hstep
    exact .subscribeStepped number subscription queues hsome hqueues
  | attachThread number threadId =>
    obtain ⟨subscription, hsome, hstep⟩ := bind_eq_some_iff.1 hstep
    split_ifs at hstep with hready
    cases hstep
    exact .attached number subscription threadId hsome (by simpa using hready.2.2)
  | dropReceiver number =>
    obtain ⟨subscription, hsome, hstep⟩ := bind_eq_some_iff.1 hstep
    split_ifs at hstep with hready
    cases hstep
    exact .dropped number subscription hsome hready.2.1
  | enqueue =>
    rw [step] at hstep
    split_ifs at hstep
    cases hstep
    exact .wrote _ _
  | consume =>
    rw [step] at hstep
    split_ifs at hstep
    cases hstep
    exact .wrote _ _
  | stopReceiving =>
    cases hstep
    exact .wrote _ _

theorem settled_step (h : Settled shared.requests shared.failure shared.draining)
    (hstepped : shared.Stepped next) : Settled next.requests next.failure next.draining := by
  have hfails {draining} (hdr : shared.draining = draining) (hne : draining ≠ .idle) :
      shared.failure ≠ none := fun hnone => hne (hdr.symm.trans (h.failure_none hnone))
  cases hstepped with
  | requested number hnone => exact h.identify hnone
  | continued number call input _ hcall hnext => exact settled_requestStep h hcall hnext
  | responded id outcome hfree => exact h.settle hfree id outcome
  | delivered number outcome hsettl => exact h.deliver hsettl
  | failed reason => exact settled_recordFailure h reason
  | tookWriter hdr =>
    exact h.proceed (fun _ heq => heq) (by rw [hdr]; rfl) rfl nofun
      fun hnone => absurd hnone (hfails hdr nofun)
  | tookPending hdr =>
    rw [hdr] at h
    exact h.takePending
  | sentFailure senders number hdr hmem =>
    obtain ⟨reason, hreason⟩ := ne_none_iff_exists'.1 (hfails hdr nofun)
    rw [hdr] at h
    rw [hreason] at h ⊢
    exact h.sendFailure hmem rfl
  | collected hdr =>
    exact h.proceed (fun _ heq => heq) (by rw [hdr]; rfl) rfl (fun _ => by rw [hdr]; trivial)
      fun hnone => absurd hnone (hfails hdr nofun)
  | closedQueue left number subscription hdr hsome =>
    exact h.proceed (fun _ heq => heq) (by rw [hdr]; rfl) rfl (fun _ => by rw [hdr]; trivial)
      fun hnone => absurd hnone (hfails hdr nofun)
  | failReturned hdr =>
    exact h.proceed (fun _ heq => heq) (by rw [hdr]; rfl) rfl (fun _ => by rw [hdr]; trivial)
      fun hnone => absurd hnone (hfails hdr nofun)
  | subscribed number threadId hnone => exact h
  | subscribeStepped number subscription queues hsome hqueues => exact h
  | attached number subscription threadId hsome hliv => exact h
  | dropped number subscription hsome hnone => exact h
  | wrote lines receiving => exact h

end TransportShared

end CodevoEditor.CodexAppServer
