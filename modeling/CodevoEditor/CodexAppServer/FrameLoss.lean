/-
# What is lost is marked

A receiver keeps what it has, or its queue is marked (`Kept`).
-/

import CodevoEditor.CodexAppServer.FrameCustody

namespace CodevoEditor.CodexAppServer

open Js List Option OrderedMap Function

variable {φ : Type}

namespace World

variable {world next last : World φ} {number : ℕ} {receiver : TurnFrameReceiver φ} {threadId : String}

/-- Receivers keep what they have, or their queues are marked, and stay so. -/
def Kept (world next : World φ) : Prop :=
  ∀ number receiver, world.receivers number = some receiver →
    ∃ after, next.receivers number = some after ∧
      (receiver.queue.truncated → after.queue.truncated) ∧
      ∀ frame ∈ world.held number receiver, frame ∈ next.held number after ∨ after.queue.truncated

lemma Kept.refl (world : World φ) : world.Kept world :=
  fun _ receiver hrecv => ⟨receiver, hrecv, id, fun _ => .inl⟩

lemma Kept.trans (h : world.Kept next) (h' : next.Kept last) : world.Kept last := by
  intro number receiver hrecv
  obtain ⟨after, haft, hmark, hheld⟩ := h number receiver hrecv
  obtain ⟨later, hlat, hmark', hheld'⟩ := h' number after haft
  refine ⟨later, hlat, hmark' ∘ hmark, fun frame hfrm => ?_⟩
  rcases hheld frame hfrm with hkept | hmarked
  · exact hheld' frame hkept
  · exact .inr (hmark' hmarked)

lemma Kept.of_receivers (hrecvs : next.receivers = world.receivers)
    (harr : ∀ number, ∀ frame ∈ world.arriving number, frame ∈ next.arriving number) : world.Kept next := by
  intro number receiver hrecv
  refine ⟨receiver, hrecvs ▸ hrecv, id, fun frame hfrm => .inl ?_⟩
  exact mem_held.2 ((mem_held.1 hfrm).imp_right (harr number frame))

lemma Delivered.kept {frame} (h : Delivered world next number frame receiver) : world.Kept next := by
  intro other before hpre
  by_cases heq : other = number
  · obtain rfl := heq
    obtain rfl := some.inj (h.target.symm.trans hpre)
    refine ⟨{ receiver with queue := receiver.queue.push frame }, ?_, ?_, fun held hheld => ?_⟩
    · rw [h.receivers, update_self]
    · rcases (TurnFrameQueueState.push_cases h.opened frame).2 with ⟨-, hmark⟩ | ⟨-, hmark⟩
      · exact fun _ => hmark
      · exact fun htrue => hmark.trans htrue
    · rcases (TurnFrameQueueState.push_cases h.opened frame).2 with ⟨-, hmark⟩ | ⟨hframes, -⟩
      · exact .inr hmark
      · refine .inl (mem_held.2 ?_)
        rw [hframes, ← append_assoc]
        rcases mem_held.1 hheld with hqueue | harr
        · exact .inl (mem_append_left _ hqueue)
        · rcases h.rest other held harr with hstill | ⟨-, rfl⟩
          · exact .inr hstill
          · exact .inl (mem_append_right _ (mem_singleton_self _))
  · refine ⟨before, ?_, id, fun held hheld => .inl (mem_held.2 ?_)⟩
    · rw [h.receivers, update_of_ne heq]
      exact hpre
    · refine (mem_held.1 hheld).imp_right fun harr => ?_
      rcases h.rest other held harr with hstill | ⟨hsame, -⟩
      · exact hstill
      · exact absurd hsame heq

lemma Kept.of_replaced {after} (hrecvs : next.receivers =
      Function.update world.receivers number (some after))
    (harr : ∀ number, ∀ frame ∈ world.arriving number, frame ∈ next.arriving number)
    (hsame : ∀ receiver, world.receivers number = some receiver →
      after.given ++ after.queue.frames = receiver.given ++ receiver.queue.frames ∧
        (receiver.queue.truncated → after.queue.truncated)) :
    world.Kept next := by
  intro other before hpre
  rw [hrecvs]
  by_cases heq : other = number
  · obtain rfl := heq
    obtain ⟨hframes, hmark⟩ := hsame before hpre
    refine ⟨after, update_self .., hmark, fun frame hfrm => .inl (mem_held.2 ?_)⟩
    rw [hframes]
    exact (mem_held.1 hfrm).imp_right (harr other frame)
  · refine ⟨before, (update_of_ne heq ..).trans hpre, id, fun frame hfrm => .inl (mem_held.2 ?_)⟩
    exact (mem_held.1 hfrm).imp_right (harr other frame)

/-- **A step loses nothing that a receiver has without a mark.** -/
theorem Custody.kept (h : world.Custody) (hstepped : Stepped world next) : world.Kept next := by
  have hnothing {frame} (hidle : world.inFlight = none) (hfree : world.moving = [])
      number (hfrm : frame ∈ world.arriving number) : False := by
    rw [arriving_idle hidle hfree] at hfrm
    cases hfrm
  cases hstepped with
  | same => exact Kept.refl world
  | flying threadId frame bytes number hidle hfree hrt =>
    exact .of_receivers rfl fun other later hlat => (hnothing hidle hfree other hlat).elim
  | orphaned threadId frame bytes failure hidle hfree hrt hfail =>
    exact .of_receivers rfl fun other later hlat => (hnothing hidle hfree other hlat).elim
  | pushed number frame hfl =>
    obtain ⟨receiver, hdel⟩ := delivered_of_push h hfl
    exact hdel.kept
  | refused number threads hnone hfree hths =>
    refine .of_replaced rfl (fun _ _ => id) fun receiver hrecv => ?_
    cases hnone.symm.trans hrecv
  | takenOver number threadId receiver hfree hrt hroom hmay =>
    refine .of_replaced rfl (fun other frame hfrm => ?_) fun before hpre => ?_
    · rcases mem_arriving.1 hfrm with ⟨-, hmove⟩ | hfl
      · rw [hfree] at hmove
        cases hmove
      · exact mem_arriving.2 (.inr hfl)
    · cases hmay with
      | fresh hnone => cases hnone.symm.trans hpre
      | living receiver hrecv hliv hnew hfew hopen =>
        obtain rfl := some.inj (hrecv.symm.trans hpre)
        exact ⟨rfl, fun htrue => Bool.or_eq_true_iff.2 (.inl htrue)⟩
  | moved frame rest hmove =>
    obtain ⟨receiver, hdel⟩ := delivered_of_move h hmove
    exact hdel.kept
  | received number receiver frame queue hrecv hliv hqueue =>
    obtain ⟨hframes, hmark, -, -⟩ := TurnFrameQueueState.tryRecv_spec hqueue
    refine .of_replaced rfl (fun _ _ => id) fun before hpre => ?_
    obtain rfl := some.inj (hrecv.symm.trans hpre)
    refine ⟨?_, fun htrue => hmark.trans htrue⟩
    rw [hframes, append_assoc, singleton_append]
  | dropped number receiver hrecv hliv hfree =>
    refine .of_replaced rfl (fun _ _ => id) fun before hpre => ?_
    obtain rfl := some.inj (hrecv.symm.trans hpre)
    exact ⟨rfl, id⟩

/-- **What is lost is marked, and the bounds hold.** -/
structure Accounted (world : World φ) : Prop where
  queues : ∀ number receiver, world.receivers number = some receiver →
    receiver.queue.Ok ∧ receiver.threads.length ≤ maxSubagentThreadsPerTurn + 1
  orphans : world.table.OrphansOk
  routes : world.table.routes.size ≤ maxTransportRoutes
  loss : world.failure = none → world.table.orphanLoss.card ≤ maxOrphanFramesPerThread
  waiting : ∀ threadId, world.table.routes.get? threadId = none →
    ∀ frame ∈ world.wire, frame.thread = threadId → world.since threadId ≤ frame.number →
      frame ∈ (world.table.orphans.get? threadId).getD [] ∨ threadId ∈ world.table.orphanLoss
  routed : ∀ threadId number receiver, world.table.routes.get? threadId = some number →
    world.receivers number = some receiver →
      ∀ frame ∈ world.wire, frame.thread = threadId → world.since threadId ≤ frame.number →
        frame ∈ world.held number receiver ∨ receiver.queue.truncated

lemma accounted_new : (new : World φ).Accounted where
  queues := nofun
  orphans := RouteTable.orphansOk_new
  routes := Nat.zero_le _
  loss := fun _ => Nat.zero_le _
  waiting := fun _ _ => nofun
  routed := nofun

lemma Accounted.routed_kept (h : world.Accounted) (hcust : world.Custody) (hkept : world.Kept next)
    (hrt : world.table.routes.get? threadId = some number)
    (hrecv : next.receivers number = some receiver) {frame} (hfrm : frame ∈ world.wire)
    (hthr : frame.thread = threadId) (hsince : world.since threadId ≤ frame.number) :
    frame ∈ next.held number receiver ∨ receiver.queue.truncated := by
  obtain ⟨before, hpre, -⟩ := hcust.routed threadId number hrt
  obtain ⟨after, haft, hmark, hheld⟩ := hkept number before hpre
  obtain rfl := some.inj (haft.symm.trans hrecv)
  rcases h.routed threadId number before hrt hpre frame hfrm hthr hsince with hin | hmarked
  · exact hheld frame hin
  · exact .inr (hmark hmarked)

lemma Accounted.of_kept (h : world.Accounted) (hcust : world.Custody) (hkept : world.Kept next)
    (htable : next.table = world.table) (hwire : next.wire = world.wire) (hsince : next.since = world.since)
    (hfail : next.failure = world.failure)
    (hqueues : ∀ number receiver, next.receivers number = some receiver →
      receiver.queue.Ok ∧ receiver.threads.length ≤ maxSubagentThreadsPerTurn + 1) : next.Accounted := by
  refine ⟨hqueues, ?_, ?_, ?_, ?_, ?_⟩
  · rw [htable]
    exact h.orphans
  · rw [htable]
    exact h.routes
  · rw [htable, hfail]
    exact h.loss
  · rw [htable, hwire, hsince]
    exact h.waiting
  · rw [htable, hwire, hsince]
    exact fun threadId number receiver hrt hrecv frame hfrm =>
      h.routed_kept hcust hkept hrt hrecv hfrm

lemma size_foldl_delete (owned : List String) (routes : OrderedMap String ℕ) :
    (owned.foldl OrderedMap.delete routes).size ≤ routes.size := by
  induction owned generalizing routes with
  | nil => exact le_rfl
  | cons first owned ih =>
    exact (ih _).trans (size_delete_le routes first)

section

variable (h : world.Accounted)
include h

lemma Accounted.queues_update (after) (hok : after.queue.Ok)
    (hths : after.threads.length ≤ maxSubagentThreadsPerTurn + 1) {other}
    (hoth : Function.update world.receivers number (some after) other = some receiver) :
    receiver.queue.Ok ∧ receiver.threads.length ≤ maxSubagentThreadsPerTurn + 1 := by
  rcases receivers_setReceiver hoth with ⟨-, rfl⟩ | ⟨-, hsame⟩
  · exact ⟨hok, hths⟩
  · exact h.queues other receiver hsame

lemma Accounted.delivered (hcust : world.Custody) {frame}
    (hdel : Delivered world next number frame receiver) : next.Accounted := by
  refine h.of_kept hcust hdel.kept hdel.table hdel.wire hdel.since
    hdel.failure fun other after hoth => ?_
  rw [hdel.receivers] at hoth
  obtain ⟨hok, hths⟩ := h.queues number receiver hdel.target
  exact h.queues_update { receiver with queue := receiver.queue.push frame } (hok.push frame) hths hoth

lemma Accounted.flying (hcust : world.Custody) (frame)
    (hrt : world.table.routes.get? frame.thread = some number)
    (hkept : world.Kept { world with wire := world.wire ++ [frame], inFlight := some (number, frame) }) :
    Accounted { world with wire := world.wire ++ [frame], inFlight := some (number, frame) } := by
  refine ⟨h.queues, h.orphans, h.routes, h.loss, fun threadId hnone later hlat hthr hsince => ?_,
    fun threadId other receiver hsome hrecv later hlat hthr hsince => ?_⟩
  · rcases mem_append.1 hlat with hold | hnew
    · exact h.waiting threadId hnone later hold hthr hsince
    · rw [mem_singleton.1 hnew] at hthr
      cases (hthr ▸ hnone).symm.trans hrt
  · rcases mem_append.1 hlat with hold | hnew
    · exact h.routed_kept hcust hkept hsome hrecv hold hthr hsince
    · obtain rfl := mem_singleton.1 hnew
      obtain rfl := some.inj ((hthr ▸ hsome).symm.trans hrt)
      exact .inl (mem_held.2 (.inr (mem_arriving.2 (.inr rfl))))

lemma Accounted.orphaned (frame)
    (hrt : world.table.routes.get? frame.thread = none) (failure)
    (hfail : failure = none → (world.table.retainOrphan frame.thread frame).orphanLoss.card ≤
      maxOrphanFramesPerThread) :
    Accounted { world with
      wire := world.wire ++ [frame]
      table := world.table.retainOrphan frame.thread frame
      failure := failure } := by
  obtain ⟨hok, hroutes, hloss, ⟨buffer, hat, -, hall⟩, hoths⟩ :=
    RouteTable.retainOrphan_spec h.orphans frame.thread frame
  refine ⟨h.queues, hok, ?_, hfail, fun threadId hnone later hlat hthr hsince => ?_,
    fun threadId number receiver hsome hrecv later hlat hthr hsince => ?_⟩
  · dsimp only
    rw [hroutes]
    exact h.routes
  · dsimp only at hnone ⊢
    rw [hroutes] at hnone
    by_cases heq : threadId = frame.thread
    · by_cases hmarked : threadId ∈ (world.table.retainOrphan frame.thread frame).orphanLoss
      · exact .inr hmarked
      · left
        rw [heq] at hmarked ⊢
        rw [hat, hall hmarked, getD_some]
        rcases mem_append.1 hlat with hold | hnew
        · rw [heq] at hnone hthr hsince
          rcases h.waiting frame.thread hnone later hold hthr hsince with hbuf | hlost
          · exact mem_append_left _ hbuf
          · exact absurd (hloss hlost) hmarked
        · exact mem_append_right _ hnew
    · have hold : later ∈ world.wire := by
        rcases mem_append.1 hlat with hold | hnew
        · exact hold
        · rw [mem_singleton.1 hnew] at hthr
          exact absurd hthr.symm heq
      rcases h.waiting threadId hnone later hold hthr hsince with hbuf | hlost
      · rcases hoths threadId heq with hsame | ⟨-, hmarked⟩
        · exact .inl (hsame ▸ hbuf)
        · exact .inr hmarked
      · exact .inr (hloss hlost)
  · dsimp only at hsome
    rw [hroutes] at hsome
    rcases mem_append.1 hlat with hold | hnew
    · exact h.routed threadId number receiver hsome hrecv later hold hthr hsince
    · rw [mem_singleton.1 hnew] at hthr
      cases (hthr ▸ hsome).symm.trans hrt

/-- **A receiver that takes over a thread has what is buffered, or is marked.** -/
theorem Accounted.takenOver (hcust : world.Custody)
    (hkept : world.Kept (world.takeOver number receiver threadId))
    (hrt : world.table.routes.get? threadId = none)
    (hroom : world.table.routes.size < maxTransportRoutes) (hok : receiver.queue.Ok)
    (hths : receiver.threads.length ≤ maxSubagentThreadsPerTurn + 1) :
    (world.takeOver number receiver threadId).Accounted := by
  obtain ⟨horph, hbuffers⟩ := RouteTable.takeOrphans_spec h.orphans threadId
  refine ⟨fun other after hoth => ?_, ⟨horph.nodup, horph.listed, horph.few, horph.buffers⟩, ?_,
    fun hnone => ?_, fun thread hnone frame hfrm hthr hsince => ?_,
    fun thread other after hsome haft frame hfrm hthr hsince => ?_⟩
  · rcases receivers_setReceiver hoth with ⟨-, rfl⟩ | ⟨-, hsame⟩
    · exact ⟨⟨hok.count, hok.bytes, hok.bound⟩, hths⟩
    · exact h.queues other after hsame
  · change (world.table.routes.set threadId number).size ≤ maxTransportRoutes
    rw [size_set]
    split_ifs
    · exact hroom.le
    · exact hroom
  · exact (Finset.card_erase_le).trans (h.loss hnone)
  · change (world.table.routes.set threadId number).get? thread = none at hnone
    change frame ∈ ((world.table.orphans.delete threadId).get? thread).getD [] ∨
      thread ∈ world.table.orphanLoss.erase threadId
    rw [get?_set] at hnone
    split_ifs at hnone with hne
    rw [get?_delete, if_neg hne, Finset.mem_erase]
    exact (h.waiting thread hnone frame hfrm hthr hsince).imp_right fun hlost => ⟨hne, hlost⟩
  · change (world.table.routes.set threadId number).get? thread = some other at hsome
    rw [get?_set] at hsome
    split_ifs at hsome with heq
    · cases hsome
      obtain rfl := heq
      rcases receivers_setReceiver haft with ⟨-, rfl⟩ | ⟨hne, -⟩
      · rcases h.waiting thread hrt frame hfrm hthr hsince with hbuf | hlost
        · exact .inl (mem_held.2 (.inr (mem_arriving.2 (.inl ⟨rfl, hbuf⟩))))
        · exact .inr (Bool.or_eq_true_iff.2 (.inr (decide_eq_true hlost)))
      · exact absurd rfl hne
    · exact h.routed_kept hcust hkept hsome haft hfrm hthr hsince

lemma Accounted.dropped (hcust : world.Custody)
    (hkept : world.Kept (world.dropReceiver number receiver))
    (hrecv : world.receivers number = some receiver) :
    (world.dropReceiver number receiver).Accounted := by
  obtain ⟨hok, hths⟩ := h.queues number receiver hrecv
  refine ⟨fun other after hoth =>
      h.queues_update { receiver with dropped := true } hok hths hoth,
    ⟨h.orphans.nodup, h.orphans.listed, h.orphans.few, h.orphans.buffers⟩, ?_, h.loss,
    fun threadId hnone frame hfrm hthr hsince => ?_,
    fun threadId other after hsome haft frame hfrm hthr hsince => ?_⟩
  · refine le_trans ?_ h.routes
    exact size_foldl_delete _ _
  · change (List.foldl OrderedMap.delete world.table.routes _).get? threadId = none at hnone
    rw [get?_foldl_delete] at hnone
    unfold dropReceiver at hsince
    dsimp only at hsince
    split_ifs at hnone hsince with hown
    · exact absurd (hcust.numbers frame hfrm) (not_lt.2 hsince)
    · exact h.waiting threadId hnone frame hfrm hthr hsince
  · obtain ⟨hold, -⟩ := hcust.ne_of_left hrecv hsome
    change (List.foldl OrderedMap.delete world.table.routes _).get? threadId = some other at hsome
    rw [get?_foldl_delete] at hsome
    unfold dropReceiver at hsince
    dsimp only at hsince
    split_ifs at hsome hsince with hown
    exact h.routed_kept hcust hkept hold haft hfrm hthr hsince

theorem Accounted.step (hcust : world.Custody) (hstepped : Stepped world next) :
    next.Accounted := by
  have hkept := hcust.kept hstepped
  cases hstepped with
  | same => exact h
  | flying threadId frame bytes number hidle hfree hrt =>
    exact h.flying hcust ⟨frame, bytes, threadId, world.wire.length⟩ hrt hkept
  | orphaned threadId frame bytes failure hidle hfree hrt hfail =>
    exact h.orphaned ⟨frame, bytes, threadId, world.wire.length⟩ hrt failure hfail
  | pushed number frame hfl =>
    obtain ⟨receiver, hdel⟩ := delivered_of_push hcust hfl
    exact h.delivered hcust hdel
  | refused number threads hnone hfree hths =>
    refine h.of_kept hcust hkept rfl rfl rfl rfl fun other after hoth => ?_
    refine h.queues_update _ ⟨Nat.zero_le _, rfl, Nat.zero_le _⟩ (hths.trans ?_) hoth
    exact Nat.succ_le_succ (Nat.zero_le _)
  | takenOver number threadId receiver hfree hrt hroom hmay =>
    cases hmay with
    | fresh hnone =>
      exact h.takenOver hcust hkept hrt hroom TurnFrameQueueState.ok_new (Nat.succ_le_succ (Nat.zero_le _))
    | living receiver hrecv hliv hnew hfew hopen =>
      refine h.takenOver hcust hkept hrt hroom (h.queues number receiver hrecv).1 ?_
      rw [length_append, length_singleton]
      exact Nat.succ_le_succ hfew
  | moved frame rest hmove =>
    obtain ⟨receiver, hdel⟩ := delivered_of_move hcust hmove
    exact h.delivered hcust hdel
  | received number receiver frame queue hrecv hliv hqueue =>
    obtain ⟨-, -, -, hok⟩ := TurnFrameQueueState.tryRecv_spec hqueue
    refine h.of_kept hcust hkept rfl rfl rfl rfl fun other after hoth => ?_
    obtain ⟨hpre, hths⟩ := h.queues number receiver hrecv
    exact h.queues_update { receiver with queue := queue, given := receiver.given ++ [frame] } (hok hpre)
      hths hoth
  | dropped number receiver hrecv hliv hfree => exact h.dropped hcust hkept hrecv

end

end World

end CodevoEditor.CodexAppServer
