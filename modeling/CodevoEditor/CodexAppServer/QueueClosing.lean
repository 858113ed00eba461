/-
# No queue stays open behind the failure

A receiver whose queue is open has the route of its thread, so that the failure finds the queue; a
call of `subscribe` that comes later finds the failure (`Queues.Closing`).
-/

import CodevoEditor.CodexAppServer.RequestSteps

namespace CodevoEditor.CodexAppServer

open Js Option OrderedMap Function

variable {ρ : Type}

/-- The queues that the failure has still to close, from when it has found them. -/
def Draining.left : Draining → Option (List ℕ)
  | .closing queues => some queues
  | .returned => some []
  | _ => none

namespace Queues

variable {queues : Queues} {draining draining' : Draining} {number : ℕ} {subscription : Subscription}

structure Closing (queues : Queues) (draining : Draining) : Prop where
  attaching : ∀ number subscription, queues.subscriptions number = some subscription →
    subscription.attaching.isSome → subscription.dropped = false
  route : ∀ threadId number, queues.routes.get? threadId = some number →
    ∃ subscription, queues.subscriptions number = some subscription ∧ subscription.dropped = false ∧
      threadId ∈ subscription.threads
  rooted : ∀ number subscription, queues.subscriptions number = some subscription →
    subscription.dropped = false → subscription.closed = none → queues.routes.get? subscription.threadId = some number
  ended : ∀ left, draining.left = some left → ∀ number subscription,
    queues.subscriptions number = some subscription → subscription.dropped = false →
      subscription.closed.isSome ∨ subscription.stage ≠ .returned ∨ number ∈ left

lemma closing_connected : Closing (TransportShared.connected : TransportShared ρ).queues .idle where
  attaching _ _ h := by cases h
  route _ _ h := by cases h
  rooted _ _ h := by cases h
  ended _ h := by cases h

lemma isSome_close (subscription : Subscription) (reason : String) : (subscription.close reason).closed.isSome := by
  rw [Subscription.close]
  cases subscription.closed <;> rfl

lemma setSubscription_cases {other} {found}
    (hget : (queues.setSubscription number subscription).subscriptions other = some found) :
    (other = number ∧ found = subscription) ∨ (other ≠ number ∧ queues.subscriptions other = some found) := by
  have hget : Function.update queues.subscriptions number (some subscription) other = some found := hget
  by_cases heq : other = number
  · subst heq
    rw [update_self] at hget
    exact .inl ⟨rfl, (some.inj hget).symm⟩
  · rw [update_of_ne heq] at hget
    exact .inr ⟨heq, hget⟩

lemma Closing.setSubscription (h : queues.Closing draining)
    (hsome : queues.subscriptions number = some subscription) {subscription'}
    (hthreadId : subscription'.threadId = subscription.threadId)
    (hths : subscription.threads ⊆ subscription'.threads)
    (hdrop : subscription'.dropped = subscription.dropped)
    (hatt : subscription'.attaching.isSome → subscription.attaching.isSome ∨ subscription.dropped = false)
    (hcl : subscription'.closed = none → subscription.closed = none)
    (hend : ∀ left, draining'.left = some left → ∀ other subscription,
      (queues.setSubscription number subscription').subscriptions other = some subscription →
        subscription.dropped = false → subscription.closed.isSome ∨ subscription.stage ≠ .returned ∨ other ∈ left) :
    (queues.setSubscription number subscription').Closing draining' := by
  refine ⟨fun other found hget hsomeThread => ?_, fun threadId other hrt => ?_,
    fun other found hget hliv hopen => ?_, hend⟩
  · rcases setSubscription_cases hget with ⟨rfl, rfl⟩ | ⟨-, hget⟩
    · rw [hdrop]
      exact (hatt hsomeThread).elim (h.attaching other subscription hsome) id
    · exact h.attaching other found hget hsomeThread
  · obtain ⟨found, hget, hliv, hmem⟩ := h.route threadId other hrt
    by_cases heq : other = number
    · subst heq
      obtain rfl := some.inj (hsome.symm.trans hget)
      exact ⟨subscription', update_self _ _ _, hdrop.trans hliv, hths hmem⟩
    · exact ⟨found, (update_of_ne heq _ _).trans hget, hliv, hmem⟩
  · rcases setSubscription_cases hget with ⟨rfl, rfl⟩ | ⟨-, hget⟩
    · rw [hthreadId]
      exact h.rooted other subscription hsome (hdrop.symm.trans hliv) (hcl hopen)
    · exact h.rooted other found hget hliv hopen

lemma Closing.ended_set (h : queues.Closing draining)
    (hsome : queues.subscriptions number = some subscription) {subscription'}
    (hdrop : subscription'.dropped = subscription.dropped)
    (hcl : subscription.closed.isSome → subscription'.closed.isSome)
    (hstg : subscription'.stage = .returned → subscription.stage = .returned ∨ subscription'.closed.isSome)
    (left : List ℕ) (hleft : draining.left = some left) (other : ℕ) (found)
    (hget : (queues.setSubscription number subscription').subscriptions other = some found)
    (hliv : found.dropped = false) : found.closed.isSome ∨ found.stage ≠ .returned ∨ other ∈ left := by
  rcases setSubscription_cases hget with ⟨rfl, rfl⟩ | ⟨-, hget⟩
  · by_cases hret : found.stage = .returned
    · rcases hstg hret with hpre | hdone
      · rcases h.ended left hleft other subscription hsome (hdrop.symm.trans hliv) with hc | hs | hm
        · exact .inl (hcl hc)
        · exact absurd hpre hs
        · exact .inr (.inr hm)
      · exact .inl hdone
    · exact .inr (.inl hret)
  · exact h.ended left hleft other found hget hliv

lemma isTaken_eq_false {threadId} (h : ¬ queues.isTaken threadId) : queues.routes.get? threadId = none := by
  rw [isTaken, Bool.or_eq_true, not_or, has_eq] at h
  simpa using h.1

lemma Closing.setRoute (h : queues.Closing draining) {threadId}
    (hfree : queues.routes.get? threadId = none)
    (hsome : queues.subscriptions number = some subscription) (hliv : subscription.dropped = false)
    (hmem : threadId ∈ subscription.threads) :
    Closing { queues with routes := queues.routes.set threadId number } draining := by
  refine ⟨h.attaching, fun other target hrt => ?_, fun other found hget hliv hopen => ?_, h.ended⟩
  · rw [get?_set] at hrt
    split_ifs at hrt with heq
    · cases hrt
      exact ⟨subscription, hsome, hliv, heq ▸ hmem⟩
    · exact h.route other target hrt
  · have hroot := h.rooted other found hget hliv hopen
    rw [get?_set, if_neg ?_, hroot]
    rintro heq
    rw [heq, hfree] at hroot
    cases hroot

lemma Closing.dropReceiver (h : queues.Closing draining)
    (hsome : queues.subscriptions number = some subscription) (hnone : subscription.attaching = none) :
    (queues.dropReceiver number subscription).Closing draining := by
  have hroutes threadId : (queues.dropReceiver number subscription).routes.get? threadId =
      if threadId ∈ subscription.threads ∧ queues.routes.get? threadId = some number then none
      else queues.routes.get? threadId := by
    rw [Queues.dropReceiver, get?_foldl_delete]
    exact if_congr (by rw [List.mem_filter, decide_eq_true_iff]) rfl rfl
  have hoths {other} {found}
      (hget : (queues.dropReceiver number subscription).subscriptions other = some found)
      (hfoundLives : found.dropped = false) : other ≠ number ∧ queues.subscriptions other = some found := by
    rcases setSubscription_cases hget with ⟨rfl, rfl⟩ | hoth
    · cases hfoundLives
    · exact hoth
  refine ⟨fun other found hget hatt => ?_, fun threadId target hrt => ?_,
    fun other found hget hfoundLives hopen => ?_, fun left hleft other found hget hfoundLives => ?_⟩
  · rcases setSubscription_cases hget with ⟨rfl, rfl⟩ | ⟨-, hget⟩
    · rw [hnone] at hatt
      cases hatt
    · exact h.attaching other found hget hatt
  · rw [hroutes] at hrt
    split_ifs at hrt with hown
    obtain ⟨found, hget, hfoundLives, hmem⟩ := h.route threadId target hrt
    have hne : target ≠ number := by
      rintro rfl
      obtain rfl := some.inj (hsome.symm.trans hget)
      exact hown ⟨hmem, hrt⟩
    exact ⟨found, (update_of_ne hne _ _).trans hget, hfoundLives, hmem⟩
  · obtain ⟨hne, hget⟩ := hoths hget hfoundLives
    have hroot := h.rooted other found hget hfoundLives hopen
    rw [hroutes, if_neg ?_, hroot]
    rintro ⟨-, hown⟩
    exact hne (some.inj (hroot.symm.trans hown))
  · exact h.ended left hleft other found (hoths hget hfoundLives).2 hfoundLives

lemma Closing.proceed (h : queues.Closing draining)
    (hleft : ∀ left, draining'.left = some left → draining.left = some left) : queues.Closing draining' :=
  ⟨h.attaching, h.route, h.rooted, fun left heq => h.ended left (hleft left heq)⟩

lemma Closing.collect (h : queues.Closing draining) : queues.Closing (.closing queues.routes.values) := by
  refine ⟨h.attaching, h.route, h.rooted, fun left heq number subscription hsome hliv => ?_⟩
  cases heq
  cases hcl : subscription.closed with
  | some reason => exact .inl rfl
  | none =>
    have hroot := h.rooted number subscription hsome hliv hcl
    exact .inr (.inr (mem_values_iff.2 ⟨_, hroot⟩))

lemma Closing.closeQueue {left} (h : queues.Closing (.closing left))
    (hsome : queues.subscriptions number = some subscription) (reason : String) :
    (queues.setSubscription number (subscription.close reason)).Closing (.closing (left.filter (· ≠ number))) := by
  refine h.setSubscription hsome rfl (fun _ hmem => hmem) rfl .inl (fun hopen => ?_) fun left' heq other found
    hget hliv => ?_
  · have := isSome_close subscription reason
    rw [hopen] at this
    cases this
  · cases heq
    rcases setSubscription_cases hget with ⟨rfl, rfl⟩ | ⟨hne, hget⟩
    · exact .inl (isSome_close _ _)
    · refine (h.ended left rfl other found hget hliv).imp_right (Or.imp_right fun hmem => ?_)
      exact List.mem_filter.2 ⟨hmem, decide_eq_true hne⟩

section

variable (h : queues.Closing draining)
include h

lemma Closing.insert (hnone : queues.subscriptions number = none) {routes}
    (hstg : subscription.stage = .registered) (hliv : subscription.dropped = false)
    (hroutes : (routes = queues.routes ∧ subscription.closed.isSome) ∨ (routes = queues.routes.set
      subscription.threadId number ∧ queues.routes.get? subscription.threadId = none ∧
      subscription.threadId ∈ subscription.threads)) :
    Closing { queues.setSubscription number subscription with routes := routes } draining := by
  have hold {threadId} {target} (hrt : queues.routes.get? threadId = some target) :
      ∃ found, (queues.setSubscription number subscription).subscriptions target = some found ∧
        found.dropped = false ∧ threadId ∈ found.threads := by
    obtain ⟨found, hget, hrest⟩ := h.route threadId target hrt
    have hne : target ≠ number := by
      rintro rfl
      rw [hnone] at hget
      cases hget
    exact ⟨found, (update_of_ne hne _ _).trans hget, hrest⟩
  refine ⟨fun other found hget hsomeThread => ?_, fun threadId target hrt => ?_,
    fun other found hget hfoundLives hopen => ?_, fun left hleft other found hget hfoundLives => ?_⟩
  · rcases setSubscription_cases hget with ⟨rfl, rfl⟩ | ⟨-, hget⟩
    · exact hliv
    · exact h.attaching other found hget hsomeThread
  · rcases hroutes with ⟨rfl, -⟩ | ⟨rfl, -, hmem⟩
    · exact hold hrt
    · rw [get?_set] at hrt
      split_ifs at hrt with heq
      · cases hrt
        exact ⟨subscription, update_self _ _ _, hliv, heq ▸ hmem⟩
      · exact hold hrt
  · rcases setSubscription_cases hget with ⟨rfl, rfl⟩ | ⟨-, hget⟩
    · rcases hroutes with ⟨-, hcl⟩ | ⟨rfl, -, -⟩
      · rw [hopen] at hcl
        cases hcl
      · rw [get?_set, if_pos rfl]
    · have hroot := h.rooted other found hget hfoundLives hopen
      rcases hroutes with ⟨rfl, -⟩ | ⟨rfl, hfree, -⟩
      · exact hroot
      · rw [get?_set, if_neg ?_, hroot]
        rintro heq
        rw [heq, hfree] at hroot
        cases hroot
  · rcases setSubscription_cases hget with ⟨rfl, rfl⟩ | ⟨-, hget⟩
    · rw [hstg]
      exact .inr (.inl (by rintro ⟨⟩))
    · exact h.ended left hleft other found hget hfoundLives

lemma Closing.subscribe (hnone : queues.subscriptions number = none) (threadId : String) :
    (queues.subscribe number threadId).Closing draining := by
  rw [Queues.subscribe]
  split_ifs with hrefuse hlen hlen
  · exact h.insert hnone rfl rfl (.inl ⟨rfl, isSome_close _ _⟩)
  · exact h.insert hnone rfl rfl (.inl ⟨rfl, isSome_close _ _⟩)
  · rw [Bool.or_eq_true, not_or] at hrefuse
    exact h.insert hnone rfl rfl (.inr ⟨rfl, isTaken_eq_false hrefuse.2, List.mem_singleton.2 rfl⟩)
  · rw [Bool.or_eq_true, not_or, World.isUnusable, decide_eq_true (not_le.1 hlen), Bool.or_true] at hrefuse
    exact absurd rfl hrefuse.1

lemma Closing.attachThread (hsome : queues.subscriptions number = some subscription)
    (hliv : subscription.dropped = false) (threadId : String) :
    (queues.attachThread number subscription threadId).Closing draining := by
  rw [Queues.attachThread]
  split_ifs
  · exact h
  · exact h
  · exact h
  · exact h
  · exact h.setSubscription hsome rfl (fun _ hmem => hmem) rfl (fun _ => .inr hliv) id
      (h.ended_set hsome rfl id .inl)

lemma Closing.attachRoute (hsome : queues.subscriptions number = some subscription)
    (hliv : subscription.dropped = false) (threadId : String) :
    (queues.attachRoute number subscription threadId).Closing draining := by
  rw [Queues.attachRoute]
  split_ifs with htkn
  · exact h.setSubscription hsome rfl (fun _ hmem => hmem) rfl nofun id (h.ended_set hsome rfl id .inl)
  · have hattd : (queues.setSubscription number { subscription with
        attaching := none, threads := subscription.threads ++ [threadId] }).Closing draining :=
      h.setSubscription hsome rfl (List.subset_append_left _ _) rfl nofun id (h.ended_set hsome rfl id .inl)
    exact hattd.setRoute (isTaken_eq_false htkn) (update_self _ _ _) hliv
      (List.mem_append_right _ (List.mem_singleton.2 rfl))

lemma Closing.step {failure} {next}
    (hidle : failure = none → draining.left = none)
    (hsome : queues.subscriptions number = some subscription)
    (hstep : queues.step failure number subscription = some next) : next.Closing draining := by
  unfold Queues.step at hstep
  split at hstep
  · split at hstep <;> cases hstep
    · exact h.setSubscription hsome rfl (fun _ hmem => hmem) rfl .inl id (h.ended_set hsome rfl id nofun)
    · refine h.setSubscription hsome rfl (fun _ hmem => hmem) rfl .inl id fun left hleft => ?_
      rw [hidle rfl] at hleft
      cases hleft
  · rename_i reason hstg
    cases hstep
    have hcl := isSome_close subscription reason
    refine h.setSubscription hsome rfl (fun _ hmem => hmem) rfl .inl (fun hopen => ?_)
      (h.ended_set hsome rfl (fun _ => hcl) fun _ => .inr hcl)
    have hopen : (subscription.close reason).closed = none := hopen
    rw [hopen] at hcl
    cases hcl
  · obtain ⟨threadId, hatt, rfl⟩ := map_eq_some_iff.1 hstep
    exact h.attachRoute hsome (h.attaching number subscription hsome (by rw [hatt]; rfl)) threadId

end

end Queues

namespace TransportShared

variable {shared next : TransportShared ρ}

lemma recordFailure_draining (shared : TransportShared ρ) (reason : String) :
    (shared.recordFailure reason).queues = shared.queues ∧
      ∀ left, (shared.recordFailure reason).draining.left = some left → shared.draining.left = some left := by
  rw [recordFailure]
  split_ifs
  · exact ⟨rfl, fun _ heq => heq⟩
  · exact ⟨rfl, by rintro _ ⟨⟩⟩

/-- **Every step keeps that no queue stays open behind the failure.** -/
theorem closing_step (h : shared.queues.Closing shared.draining)
    (hstl : Settled shared.requests shared.failure shared.draining) (hstepped : shared.Stepped next) :
    next.queues.Closing next.draining := by
  cases hstepped with
  | requested number hnone => exact h
  | continued number call input _ hcall hnext =>
    have hcont := continues_of_requestStep hnext
    rw [hcont.queues]
    refine h.proceed fun left hleft => ?_
    rcases hcont.failure with ⟨-, hsame⟩ | ⟨-, -, hrec⟩
    · rwa [hsame] at hleft
    · rw [hrec] at hleft
      cases hleft
  | responded id outcome hfree => exact h
  | delivered number outcome hsettl => exact h
  | failed reason =>
    obtain ⟨hqueues, hleft⟩ := recordFailure_draining shared reason
    rw [hqueues]
    exact h.proceed hleft
  | tookWriter hdr => exact h.proceed nofun
  | tookPending hdr => exact h.proceed nofun
  | sentFailure senders number hdr hmem => exact h.proceed nofun
  | collected hdr => exact h.collect
  | closedQueue left number subscription hdr hsome =>
    rw [hdr] at h
    exact h.closeQueue hsome _
  | failReturned hdr =>
    rw [hdr] at h
    exact h.proceed fun left heq => heq
  | subscribed number threadId hnone => exact h.subscribe hnone threadId
  | subscribeStepped number subscription queues hsome hqueues =>
    refine h.step (fun hnone => ?_) hsome hqueues
    rw [hstl.failure_none hnone]
    rfl
  | attached number subscription threadId hsome hliv => exact h.attachThread hsome hliv threadId
  | dropped number subscription hsome hnone => exact h.dropReceiver hsome hnone
  | wrote lines receiving => exact h

end TransportShared

end CodevoEditor.CodexAppServer
