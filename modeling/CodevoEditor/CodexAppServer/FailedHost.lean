/-
# Requests are settled once

Whatever order the steps come in, a request is sent one outcome, and when the recorded failure has
returned, nothing waits for the host.
-/

import CodevoEditor.CodexAppServer.QueueClosing

namespace CodevoEditor.CodexAppServer

open Js

variable {ρ : Type}

namespace TransportShared

variable {shared next : TransportShared ρ} {number : ℕ} {call : RequestCall ρ}

structure Sound (shared : TransportShared ρ) : Prop where
  settled : Settled shared.requests shared.failure shared.draining
  closing : shared.queues.Closing shared.draining

lemma sound_connected : (connected : TransportShared ρ).Sound :=
  ⟨settled_connected, Queues.closing_connected (ρ := ρ)⟩

lemma Sound.step (h : shared.Sound) (hstepped : shared.Stepped next) : next.Sound :=
  ⟨settled_step h.settled hstepped, closing_step h.closing h.settled hstepped⟩

lemma after_induction {Keeps : TransportShared ρ → Prop}
    (hstep : ∀ shared next, Keeps shared → shared.Stepped next → Keeps next)
    (h : Keeps shared) (events) : Keeps (shared.after events) := by
  induction events generalizing shared with
  | nil => exact h
  | cons event events ih =>
    show Keeps (((shared.step event).getD shared).after events)
    cases hnext : shared.step event with
    | none => exact ih h
    | some next => exact ih (hstep shared next h (stepped_of_step hnext))

lemma sound_after (events) : (connected.after events : TransportShared ρ).Sound :=
  after_induction (fun _ _ h hstepped => h.step hstepped) sound_connected events

/-- A call that has returned. -/
def HasReturned (number : ℕ) (result : PendingOutcome ρ) (shared : TransportShared ρ) : Prop :=
  ∃ call, shared.requests.calls number = some call ∧ call.stage = .returned result

lemma calls_send {requests : Requests ρ} {result outcome : PendingOutcome ρ} {other : ℕ}
    (hcall : requests.calls number = some call) (hstg : call.stage = .returned result) :
    (requests.send other outcome).calls number = some call := by
  rw [Requests.send]
  split
  · exact hcall
  · rename_i found hget
    split
    · exact hcall
    · exact hcall
    · rename_i hopen
      refine (Function.update_of_ne ?_ _ _).trans hcall
      rintro rfl
      obtain rfl := Option.some.inj (hcall.symm.trans hget)
      exact hopen result hstg

lemma calls_settle (requests : Requests ρ) (id : RequestId) (outcome) :
    (requests.settle id outcome).calls = requests.calls := by
  rw [Requests.settle]
  split <;> rfl

lemma requestStep_returned {result} (hstg : call.stage = .returned result)
    (input) : shared.requestStep number call input = none := by
  unfold requestStep
  rw [hstg]

lemma hasReturned_step {result : PendingOutcome ρ} (h : shared.HasReturned number result)
    (hstepped : shared.Stepped next) : next.HasReturned number result := by
  obtain ⟨call, hcall, hstg⟩ := h
  cases hstepped with
  | requested other hnone =>
    have hne : number ≠ other := by
      rintro rfl
      rw [hcall] at hnone
      cases hnone
    refine ⟨call, ?_, hstg⟩
    rw [Requests.identify]
    split_ifs <;> exact (Function.update_of_ne hne _ _).trans hcall
  | continued other found input _ hget hnext =>
    obtain ⟨stage, hcalls⟩ := (continues_of_requestStep hnext).calls
    refine ⟨call, ?_, hstg⟩
    rw [hcalls, Function.update_of_ne ?_, hcall]
    rintro rfl
    obtain rfl := Option.some.inj (hcall.symm.trans hget)
    rw [requestStep_returned hstg] at hnext
    cases hnext
  | responded id outcome hfree =>
    refine ⟨call, ?_, hstg⟩
    rw [calls_settle]
    exact hcall
  | delivered other outcome hsettl => exact ⟨call, calls_send hcall hstg, hstg⟩
  | failed reason =>
    refine ⟨call, ?_, hstg⟩
    rw [recordFailure_requests]
    exact hcall
  | sentFailure senders other hdr hmem => exact ⟨call, calls_send hcall hstg, hstg⟩
  | _ => exact ⟨call, hcall, hstg⟩

/-- The failure that was recorded has returned. -/
structure FailReturned (shared : TransportShared ρ) : Prop where
  draining : shared.draining = .returned
  failure : shared.failure.isSome

lemma FailReturned.step (h : shared.FailReturned) (hstepped : shared.Stepped next) : next.FailReturned := by
  obtain ⟨hret, hfail⟩ := h
  cases hstepped with
  | continued number call input _ hcall hnext =>
    rcases (continues_of_requestStep hnext).failure with ⟨hsame, hsame'⟩ | ⟨hnone, -⟩
    · exact ⟨hsame'.trans hret, hsame ▸ hfail⟩
    · rw [hnone] at hfail
      cases hfail
  | failed reason =>
    rw [recordFailure, if_pos hfail]
    exact ⟨hret, hfail⟩
  | tookWriter hdr => cases hret.symm.trans hdr
  | tookPending hdr => cases hret.symm.trans hdr
  | sentFailure senders number hdr hmem => cases hret.symm.trans hdr
  | collected hdr => cases hret.symm.trans hdr
  | closedQueue left number subscription hdr hsome => cases hret.symm.trans hdr
  | failReturned hdr => cases hret.symm.trans hdr
  | _ => exact ⟨hret, hfail⟩

/-- A call is sent one outcome at most, a response with its identifier or the failure, and what it
returns is that, or a failure of its own. -/
structure SettledOnce (shared : TransportShared ρ) (number : ℕ) (call : RequestCall ρ) : Prop where
  sent_le : (shared.requests.sent number).length ≤ 1
  sent_of : ∀ outcome ∈ shared.requests.sent number,
    (∃ id, id.correlated = some call.id ∧ (id, outcome) ∈ shared.requests.responses) ∨
      ∃ reason, shared.failure = some reason ∧ outcome = .error (.hostFailed reason)
  returned_of : ∀ result, call.stage = .returned result → result ∈ shared.requests.sent number ∨ OwnFailure result

/-- Nothing waits for the host any more: what is pending or waits has its outcome or is about to
find the failure, and a queue with a route is closed. -/
structure NobodyWaits (shared : TransportShared ρ) : Prop where
  pending : ∀ id number, shared.requests.pending.get? id = some number →
    ∃ call, shared.requests.calls number = some call ∧ call.id = id ∧ call.stage.BeforeFailure shared.failure
  waiting : ∀ number call, shared.requests.calls number = some call → call.stage = .waiting →
    call.received.isSome ∨ ∃ outcome, shared.requests.settling = some (number, outcome)
  queues : ∀ threadId number, shared.queues.routes.get? threadId = some number →
    ∃ subscription, shared.queues.subscriptions number = some subscription ∧
      (subscription.closed.isSome ∨ subscription.stage ≠ .returned)

lemma Sound.settledOnce (h : shared.Sound) (hcall : shared.requests.calls number = some call) :
    shared.SettledOnce number call := by
  have hok := h.settled.call_ok number call hcall
  refine ⟨hok.sent_le, hok.sent_of, fun result hstg => hok.result_of result ?_⟩
  rw [hstg]
  rfl

lemma Sound.nobodyWaits (h : shared.Sound) (hret : shared.draining = .returned) : shared.NobodyWaits := by
  have hdrained : shared.draining.Drained := by
    rw [hret]
    trivial
  have hleft : shared.draining.left = some [] := by rw [hret]; rfl
  refine ⟨fun id number hget => ?_, fun number call hcall hstg => ?_, fun threadId number hrt => ?_⟩
  · have hmem : number ∈ shared.requests.pending.values := OrderedMap.mem_values_iff.2 ⟨id, hget⟩
    obtain ⟨call, hcall⟩ := h.settled.call_of_sender number (mem_senders_iff.2 (.inl hmem))
    exact ⟨call, hcall, h.settled.pending_id id number hget call hcall,
      (h.settled.call_ok number call hcall).drained hdrained hmem⟩
  · have hok := h.settled.call_ok number call hcall
    rcases hok.live (by rw [hstg]; trivial) with hsender | hrecv
    · rcases mem_senders_iff.1 hsender with hpend | hsettl | hdr
      · rcases hok.drained hdrained hpend with heq | ⟨reason, -, heq⟩ <;> cases hstg.symm.trans heq
      · exact .inr hsettl
      · rw [hret] at hdr
        cases hdr
    · exact .inl hrecv
  · obtain ⟨subscription, hsome, hliv, -⟩ := h.closing.route threadId number hrt
    refine ⟨subscription, hsome, (h.closing.ended [] hleft number subscription hsome hliv).imp_right fun hor => ?_⟩
    exact hor.resolve_right List.not_mem_nil

/-- **Requests are settled once, and nobody waits for a host that has failed.**  For every order of the
steps, and every way on from there. -/
theorem requests_settled (events events' : List (TransportEvent ρ)) :
    (∀ number call, (connected.after events).requests.calls number = some call →
      (connected.after events).SettledOnce number call ∧
        ∀ result, call.stage = .returned result →
          ((connected.after events).after events').HasReturned number result) ∧
    (connected.after events).requests.pending.size ≤ maxPendingRequests ∧
    ((connected.after events).draining = .returned →
      (connected.after events).NobodyWaits ∧ ((connected.after events).after events').NobodyWaits) := by
  have hsound : (connected.after events).Sound := sound_after events
  have hon : ((connected.after events).after events').Sound :=
    after_induction (fun _ _ h hstepped => h.step hstepped) hsound events'
  refine ⟨fun number call hcall => ⟨hsound.settledOnce hcall, fun result hstage => ?_⟩,
    hsound.settled.pending_le, fun hret => ⟨hsound.nobodyWaits hret, hon.nobodyWaits ?_⟩⟩
  · exact after_induction (fun _ _ h hstepped => hasReturned_step h hstepped) ⟨call, hcall, hstage⟩ events'
  · have hfail : (connected.after events).failure.isSome := by
      rw [Option.isSome_iff_ne_none]
      intro hnone
      cases hret.symm.trans (hsound.settled.failure_none hnone)
    have hlast : ((connected.after events).after events').FailReturned :=
      after_induction (fun _ _ h hstepped => h.step hstepped) ⟨hret, hfail⟩ events'
    exact hlast.draining

/-- **A call of `fail` can return while an identifier is pending whose call has looked for the
failure.** -/
theorem secondFailure_returns :
    (((connected : TransportShared String).after [.request 0, .fail "gone", .drain, .drain, .drain, .drain,
        .requestStep 0 .run, .requestStep 0 .run]).failsReturned = 1 ∧
      ((connected : TransportShared String).after [.request 0, .fail "gone", .drain, .drain, .drain, .drain,
        .requestStep 0 .run, .requestStep 0 .run]).requests.pending.get? 1 = some 0 ∧
      (((connected : TransportShared String).after [.request 0, .fail "gone", .drain, .drain, .drain, .drain,
        .requestStep 0 .run, .requestStep 0 .run]).requests.calls 0).map RequestCall.stage
          = some (.foundFailure "gone")) ∧
    (((connected : TransportShared String).after [.request 0, .requestStep 0 .run, .requestStep 0 .run,
        .fail "gone", .fail "closed"]).failsReturned = 1 ∧
      ((connected : TransportShared String).after [.request 0, .requestStep 0 .run, .requestStep 0 .run,
        .fail "gone", .fail "closed"]).requests.pending.get? 1 = some 0 ∧
      (((connected : TransportShared String).after [.request 0, .requestStep 0 .run, .requestStep 0 .run,
        .fail "gone", .fail "closed"]).requests.calls 0).map RequestCall.stage = some .checked) := by
  refine ⟨⟨rfl, rfl, rfl⟩, rfl, rfl, rfl⟩

end TransportShared

end CodevoEditor.CodexAppServer
