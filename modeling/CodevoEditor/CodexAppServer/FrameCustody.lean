/-
# Who has a frame

A frame that has come over the wire is with one receiver at most, or in the buffer of its thread
(`Custody`): a step moves it on, or loses it.
-/

import CodevoEditor.CodexAppServer.OrphanBuffers

namespace CodevoEditor.CodexAppServer

open Js List Option OrderedMap Function

variable {φ : Type}

/-- Frames of one thread are in the order of the wire. -/
def Precedes (frame later : BufferedFrame φ) : Prop :=
  frame.thread = later.thread → frame.number < later.number

namespace World

variable {world next : World φ} {number : ℕ} {receiver : TurnFrameReceiver φ} {threadId : String}

/-- A receiver may take over a thread: it is new, or it lives and does not have it. -/
inductive MayTake (world : World φ) (number : ℕ) (threadId : String) : TurnFrameReceiver φ → Prop
  | fresh (hnone : world.receivers number = none) :
      MayTake world number threadId ⟨.new, [threadId], false, []⟩
  | living (receiver : TurnFrameReceiver φ) (hreceiver : world.receivers number = some receiver)
      (hlives : receiver.dropped = false) (hnew : threadId ∉ receiver.threads)
      (hfew : receiver.threads.length ≤ maxSubagentThreadsPerTurn) (hopen : receiver.queue.closed = none) :
      MayTake world number threadId { receiver with threads := receiver.threads ++ [threadId] }

/-- **What a step can do.** -/
inductive Stepped (world : World φ) : World φ → Prop
  | same : Stepped world world
  | flying (threadId : String) (frame : φ) (bytes number : ℕ) (hidle : world.inFlight = none)
      (hfree : world.moving = []) (hroute : world.table.routes.get? threadId = some number) :
      Stepped world { world with
        wire := world.wire ++ [⟨frame, bytes, threadId, world.wire.length⟩]
        inFlight := some (number, ⟨frame, bytes, threadId, world.wire.length⟩) }
  | orphaned (threadId : String) (frame : φ) (bytes : ℕ) (failure : Option String)
      (hidle : world.inFlight = none) (hfree : world.moving = [])
      (hroute : world.table.routes.get? threadId = none)
      (hfail : failure = none → (world.table.retainOrphan threadId
        ⟨frame, bytes, threadId, world.wire.length⟩).orphanLoss.card ≤ maxOrphanFramesPerThread) :
      Stepped world { world with
        wire := world.wire ++ [⟨frame, bytes, threadId, world.wire.length⟩]
        table := world.table.retainOrphan threadId ⟨frame, bytes, threadId, world.wire.length⟩
        failure := failure }
  | pushed (number : ℕ) (frame : BufferedFrame φ) (hflight : world.inFlight = some (number, frame)) :
      Stepped world { world.pushTo number frame with inFlight := none }
  | refused (number : ℕ) (threads : List String) (hnone : world.receivers number = none)
      (hfree : world.moving = []) (hthreads : threads.length ≤ 1) :
      Stepped world (world.setReceiver number ⟨TurnFrameQueueState.new.close routeUnavailable, threads, false, []⟩)
  | takenOver (number : ℕ) (threadId : String) (receiver : TurnFrameReceiver φ)
      (hfree : world.moving = []) (hroute : world.table.routes.get? threadId = none)
      (hroom : world.table.routes.size < maxTransportRoutes) (hmay : MayTake world number threadId receiver) :
      Stepped world (world.takeOver number receiver threadId)
  | moved (frame : BufferedFrame φ) (rest : List (BufferedFrame φ)) (hmove : world.moving = frame :: rest) :
      Stepped world { world.pushTo world.movingTo frame with moving := rest }
  | received (number : ℕ) (receiver : TurnFrameReceiver φ) (frame : BufferedFrame φ)
      (queue : TurnFrameQueueState φ) (hreceiver : world.receivers number = some receiver)
      (hlives : receiver.dropped = false) (hqueue : receiver.queue.tryRecv = some (frame, queue)) :
      Stepped world (world.setReceiver number { receiver with queue := queue, given := receiver.given ++ [frame] })
  | dropped (number : ℕ) (receiver : TurnFrameReceiver φ) (hreceiver : world.receivers number = some receiver)
      (hlives : receiver.dropped = false) (hfree : world.moving = []) :
      Stepped world (world.dropReceiver number receiver)

lemma living_spec (h : world.living number = some receiver) :
    world.receivers number = some receiver ∧ receiver.dropped = false := by
  obtain ⟨hrec, hliv⟩ := filter_eq_some_iff.1 h
  exact ⟨hrec, by simpa using hliv⟩

lemma isTaken_eq_false (h : ¬world.isTaken threadId) :
    world.table.routes.get? threadId = none ∧ world.table.routes.size < maxTransportRoutes := by
  unfold isTaken at h
  rw [Bool.or_eq_true, not_or, has_eq, decide_eq_true_iff, not_le] at h
  exact ⟨by simpa using h.1, h.2⟩

lemma stepped_of_step {event} (h : world.step event = some next) : Stepped world next := by
  unfold step at h
  by_cases hfailed : world.failure.isSome
  · rw [if_pos hfailed] at h
    cases h
  rw [if_neg hfailed] at h
  cases event with
  | route threadId frame bytes =>
    dsimp only at h
    split_ifs at h with hbusy
    cases h
    rw [not_or, not_not, Bool.not_eq_true, isSome_eq_false_iff, isNone_iff_eq_none] at hbusy
    unfold route
    dsimp only
    split
    · exact .flying threadId frame bytes _ hbusy.1 hbusy.2 ‹_›
    · split_ifs with hloss
      · exact .orphaned threadId frame bytes _ hbusy.1 hbusy.2 ‹_› nofun
      · exact .orphaned threadId frame bytes _ hbusy.1 hbusy.2 ‹_› fun _ => not_lt.1 hloss
  | push =>
    obtain ⟨⟨number, frame⟩, hfl, rfl⟩ := map_eq_some_iff.1 h
    exact .pushed number frame hfl
  | subscribe number threadId =>
    dsimp only at h
    split_ifs at h with hbusy
    cases h
    rw [not_or, not_not, Bool.not_eq_true, isSome_eq_false_iff, isNone_iff_eq_none] at hbusy
    unfold subscribe
    dsimp only
    split_ifs with hrefuse hlen hlen
    · exact .refused number [threadId] hbusy.1 hbusy.2 le_rfl
    · exact .refused number [] hbusy.1 hbusy.2 (Nat.zero_le _)
    · rw [Bool.or_eq_true, not_or] at hrefuse
      obtain ⟨hrt, hroom⟩ := isTaken_eq_false hrefuse.2
      exact .takenOver number threadId _ hbusy.2 hrt hroom (.fresh hbusy.1)
    · rw [Bool.or_eq_true, not_or] at hrefuse
      have hlong : isUnusable threadId := by
        unfold isUnusable
        rw [decide_eq_true (not_le.1 hlen), Bool.or_true]
      exact absurd hlong hrefuse.1
  | attachThread number threadId =>
    dsimp only at h
    split_ifs at h with hbusy
    rw [not_not] at hbusy
    obtain ⟨receiver, hliving, rfl⟩ := map_eq_some_iff.1 h
    obtain ⟨hrec, hliv⟩ := living_spec hliving
    unfold attachThread
    split_ifs with hunusable hhas hmany hcl htkn
    · exact .same
    · exact .same
    · exact .same
    · exact .same
    · exact .same
    · obtain ⟨hrt, hroom⟩ := isTaken_eq_false htkn
      have hopen : receiver.queue.closed = none := by simpa using hcl
      exact .takenOver number threadId _ hbusy hrt hroom
        (.living receiver hrec hliv hhas (not_lt.1 hmany) hopen)
  | move =>
    dsimp only at h
    split at h
    · cases h
    · cases h
      exact .moved _ _ ‹_›
  | receive number =>
    obtain ⟨receiver, hliving, hrecv⟩ := bind_eq_some_iff.1 h
    obtain ⟨⟨frame, queue⟩, hqueue, rfl⟩ := map_eq_some_iff.1 hrecv
    obtain ⟨hrec, hliv⟩ := living_spec hliving
    exact .received number receiver frame queue hrec hliv hqueue
  | drop number =>
    dsimp only at h
    split_ifs at h with hbusy
    rw [not_not] at hbusy
    obtain ⟨receiver, hliving, rfl⟩ := map_eq_some_iff.1 h
    obtain ⟨hrec, hliv⟩ := living_spec hliving
    exact .dropped number receiver hrec hliv hbusy

variable {frame : BufferedFrame φ}

lemma mem_arriving : frame ∈ world.arriving number ↔
    world.movingTo = number ∧ frame ∈ world.moving ∨ world.inFlight = some (number, frame) := by
  unfold arriving
  rw [mem_append]
  refine or_congr ?_ ?_
  · split_ifs with h
    · exact (and_iff_right h).symm
    · exact iff_of_false not_mem_nil fun hand => h hand.1
  · rw [mem_toList, map_eq_some_iff]
    constructor
    · rintro ⟨flight, hfl, rfl⟩
      obtain ⟨hin, hnum⟩ := filter_eq_some_iff.1 hfl
      rw [hin, ← of_decide_eq_true hnum]
    · intro hin
      exact ⟨(number, frame), filter_eq_some_iff.2 ⟨hin, decide_eq_true rfl⟩, rfl⟩

lemma mem_held : frame ∈ world.held number receiver ↔
    frame ∈ receiver.given ++ receiver.queue.frames ∨ frame ∈ world.arriving number := mem_append

/-- **Who has a frame, and in what order.** -/
structure Custody (world : World φ) : Prop where
  wire : world.wire.Pairwise fun frame later => frame.number < later.number
  numbers : ∀ frame ∈ world.wire, frame.number < world.wire.length
  held : ∀ number receiver, world.receivers number = some receiver →
    ∀ frame ∈ world.held number receiver, frame ∈ world.wire ∧ frame.thread ∈ receiver.threads
  ordered : ∀ number receiver, world.receivers number = some receiver →
    (receiver.given ++ receiver.queue.frames).Pairwise Precedes ∧
      ∀ frame ∈ receiver.given ++ receiver.queue.frames, ∀ later ∈ world.arriving number, Precedes frame later
  moving : world.moving.Pairwise fun frame later => frame.number < later.number
  crossing : ∀ frame ∈ world.moving, ∀ flight, world.inFlight = some (world.movingTo, flight) →
    frame.thread ≠ flight.thread
  apart : ∀ number receiver other receiver', world.receivers number = some receiver →
    world.receivers other = some receiver' → number ≠ other →
      ∀ frame ∈ world.held number receiver, ∀ frame' ∈ world.held other receiver', frame.number ≠ frame'.number
  orphans : ∀ threadId buffered, world.table.orphans.get? threadId = some buffered →
    world.table.routes.get? threadId = none ∧
      buffered.Pairwise (fun frame later => frame.number < later.number) ∧
      ∀ frame ∈ buffered, frame ∈ world.wire ∧ frame.thread = threadId ∧
        ∀ number receiver, world.receivers number = some receiver →
          ∀ other ∈ world.held number receiver, other.number ≠ frame.number
  routed : ∀ threadId number, world.table.routes.get? threadId = some number →
    ∃ receiver, world.receivers number = some receiver ∧ receiver.dropped = false ∧
      threadId ∈ receiver.threads ∧ receiver.queue.closed = none
  flight : ∀ number frame, world.inFlight = some (number, frame) →
    ∃ receiver, world.receivers number = some receiver ∧ receiver.queue.closed = none
  movingTo : world.moving ≠ [] →
    ∃ receiver, world.receivers world.movingTo = some receiver ∧ receiver.queue.closed = none

lemma custody_new : (new : World φ).Custody where
  wire := .nil
  numbers := nofun
  held := nofun
  ordered := nofun
  moving := .nil
  crossing := nofun
  apart := nofun
  orphans := nofun
  routed := nofun
  flight := nofun
  movingTo := fun h => absurd rfl h

namespace Custody

variable (h : world.Custody)
include h

lemma arriving_fresh (hnone : world.receivers number = none) : world.arriving number = [] := by
  rw [eq_nil_iff_forall_not_mem]
  intro frame hfrm
  rcases mem_arriving.1 hfrm with ⟨rfl, hmove⟩ | hfl
  · obtain ⟨receiver, hrec, -⟩ := h.movingTo (ne_nil_of_mem hmove)
    cases hnone.symm.trans hrec
  · obtain ⟨receiver, hrec, -⟩ := h.flight number frame hfl
    cases hnone.symm.trans hrec

lemma eq_of_number {other} (hfrm : frame ∈ world.wire)
    (hoth : other ∈ world.wire) (hnum : frame.number = other.number) : frame = other := by
  have hnd : (world.wire.map BufferedFrame.number).Nodup := pairwise_map.2 (h.wire.imp fun hlt => hlt.ne)
  exact inj_on_of_nodup_map hnd hfrm hoth hnum

end Custody

/-- **A frame that was on its way comes to the queue of its receiver.** -/
structure Delivered (world next : World φ) (number : ℕ) (frame : BufferedFrame φ)
    (receiver : TurnFrameReceiver φ) : Prop where
  target : world.receivers number = some receiver
  opened : receiver.queue.closed = none
  receivers : next.receivers = Function.update world.receivers number
    (some { receiver with queue := receiver.queue.push frame })
  table : next.table = world.table
  wire : next.wire = world.wire
  since : next.since = world.since
  failure : next.failure = world.failure
  was : frame ∈ world.arriving number
  arriving : ∀ other later, later ∈ next.arriving other → later ∈ world.arriving other
  rest : ∀ other later, later ∈ world.arriving other → later ∈ next.arriving other ∨ other = number ∧ later = frame
  before : ∀ later ∈ next.arriving number, Precedes frame later
  moving : next.moving.Sublist world.moving
  movingTo : next.movingTo = world.movingTo
  inFlight : next.inFlight = none ∨ next.inFlight = world.inFlight

lemma pushTo_of_receiver (h : world.receivers number = some receiver) (frame) :
    world.pushTo number frame = world.setReceiver number { receiver with queue := receiver.queue.push frame } := by
  unfold pushTo
  rw [h]

lemma delivered_of_push (h : world.Custody) (hfl : world.inFlight = some (number, frame)) :
    ∃ receiver, Delivered world { world.pushTo number frame with inFlight := none } number frame receiver := by
  obtain ⟨receiver, hrec, hopen⟩ := h.flight number frame hfl
  rw [pushTo_of_receiver hrec]
  refine ⟨receiver, ⟨hrec, hopen, rfl, rfl, rfl, rfl, rfl, mem_arriving.2 (.inr hfl),
    fun other later hlat => ?_, fun other later hlat => ?_, fun later hlat => ?_, .refl _,
    rfl, .inl rfl⟩⟩
  · rcases mem_arriving.1 hlat with hmove | hnone
    · exact mem_arriving.2 (.inl hmove)
    · cases hnone
  · rcases mem_arriving.1 hlat with hmove | hsame
    · exact .inl (mem_arriving.2 (.inl hmove))
    · obtain ⟨rfl, rfl⟩ := Prod.mk.inj (some.inj (hfl.symm.trans hsame))
      exact .inr ⟨rfl, rfl⟩
  · rcases mem_arriving.1 hlat with ⟨hto, hmove⟩ | hnone
    · change world.movingTo = number at hto
      rw [← hto] at hfl
      exact fun hthr => absurd hthr.symm (h.crossing later hmove frame hfl)
    · cases hnone

lemma delivered_of_move (h : world.Custody) {rest}
    (hmove : world.moving = frame :: rest) :
    ∃ receiver, Delivered world { world.pushTo world.movingTo frame with moving := rest }
      world.movingTo frame receiver := by
  obtain ⟨receiver, hrec, hopen⟩ := h.movingTo (hmove ▸ cons_ne_nil frame rest)
  have hord := h.moving
  rw [hmove, pairwise_cons] at hord
  rw [pushTo_of_receiver hrec]
  refine ⟨receiver, ⟨hrec, hopen, rfl, rfl, rfl, rfl, rfl,
    mem_arriving.2 (.inl ⟨rfl, hmove ▸ mem_cons_self⟩), fun other later hlat => ?_,
    fun other later hlat => ?_, fun later hlat => ?_, ?_, rfl, .inr rfl⟩⟩
  · rcases mem_arriving.1 hlat with ⟨hto, hrest⟩ | hfl
    · exact mem_arriving.2 (.inl ⟨hto, hmove ▸ mem_cons_of_mem frame hrest⟩)
    · exact mem_arriving.2 (.inr hfl)
  · rcases mem_arriving.1 hlat with ⟨hto, hin⟩ | hfl
    · rw [hmove] at hin
      rcases mem_cons.1 hin with rfl | hrest
      · exact .inr ⟨hto.symm, rfl⟩
      · exact .inl (mem_arriving.2 (.inl ⟨hto, hrest⟩))
    · exact .inl (mem_arriving.2 (.inr hfl))
  · rcases mem_arriving.1 hlat with ⟨-, hrest⟩ | hfl
    · exact fun _ => hord.1 later hrest
    · exact fun hthr => absurd hthr (h.crossing frame (hmove ▸ mem_cons_self) later hfl)
  · change rest.Sublist world.moving
    rw [hmove]
    exact sublist_cons_self _ _

variable {receiver' : TurnFrameReceiver φ} {other : ℕ}

lemma Delivered.receivers_cases (h : Delivered world next number frame receiver)
    (hoth : next.receivers other = some receiver') :
    other = number ∧ receiver' = { receiver with queue := receiver.queue.push frame } ∨
      other ≠ number ∧ world.receivers other = some receiver' := by
  rw [h.receivers] at hoth
  by_cases heq : other = number
  · rw [heq, update_self] at hoth
    exact .inl ⟨heq, (some.inj hoth).symm⟩
  · rw [update_of_ne heq] at hoth
    exact .inr ⟨heq, hoth⟩

lemma Delivered.held (h : Delivered world next number frame receiver)
    (hoth : next.receivers other = some receiver') :
    ∃ before, world.receivers other = some before ∧ receiver'.threads = before.threads ∧
      receiver'.dropped = before.dropped ∧ receiver'.queue.closed = before.queue.closed ∧
      ∀ later ∈ next.held other receiver', later ∈ world.held other before := by
  rcases h.receivers_cases hoth with ⟨rfl, rfl⟩ | ⟨hne, hsame⟩
  · obtain ⟨hcl, hpush⟩ := TurnFrameQueueState.push_cases h.opened frame
    refine ⟨receiver, h.target, rfl, rfl, hcl.trans h.opened.symm, fun later hlat => ?_⟩
    rcases mem_held.1 hlat with hqueue | harr
    · dsimp only at hqueue
      rcases hpush with ⟨hframes, -⟩ | ⟨hframes, -⟩
      · rw [hframes] at hqueue
        exact mem_held.2 (.inl hqueue)
      · rw [hframes, ← append_assoc] at hqueue
        rcases mem_append.1 hqueue with hold | hnew
        · exact mem_held.2 (.inl hold)
        · rw [mem_singleton.1 hnew]
          exact mem_held.2 (.inr h.was)
    · exact mem_held.2 (.inr (h.arriving _ later harr))
  · refine ⟨receiver', hsame, rfl, rfl, rfl, fun later hlat => ?_⟩
    exact mem_held.2 ((mem_held.1 hlat).imp_right fun harr => h.arriving other later harr)

lemma Custody.delivered (h : world.Custody)
    (hdel : Delivered world next number frame receiver) : next.Custody := by
  have hrec {other} {before} (hoth : world.receivers other = some before) :
      ∃ after, next.receivers other = some after ∧ after.threads = before.threads ∧
        after.dropped = before.dropped ∧ after.queue.closed = before.queue.closed := by
    rw [hdel.receivers]
    by_cases heq : other = number
    · obtain rfl := heq
      obtain rfl := some.inj (hdel.target.symm.trans hoth)
      refine ⟨_, update_self .., rfl, rfl, ?_⟩
      exact (TurnFrameQueueState.push_cases hdel.opened frame).1.trans hdel.opened.symm
    · exact ⟨before, (update_of_ne heq ..).trans hoth, rfl, rfl, rfl⟩
  refine ⟨?_, ?_, fun other receiver' hoth later hlat => ?_, fun other receiver' hoth => ?_,
    h.moving.sublist hdel.moving, fun later hlat flight hfl => ?_,
    fun one receiver₁ two receiver₂ hone htwo hne => ?_, fun threadId buffered hbuf => ?_,
    fun threadId other hrt => ?_, fun other later hfl => ?_, fun hmove => ?_⟩
  · rw [hdel.wire]
    exact h.wire
  · rw [hdel.wire]
    exact h.numbers
  · obtain ⟨before, hpre, hths, -, -, hheld⟩ := hdel.held hoth
    rw [hdel.wire, hths]
    exact h.held other before hpre later (hheld later hlat)
  · rcases hdel.receivers_cases hoth with ⟨rfl, rfl⟩ | ⟨hne, hsame⟩
    · obtain ⟨hpair, hpre⟩ := h.ordered other receiver hdel.target
      rcases (TurnFrameQueueState.push_cases hdel.opened frame).2 with ⟨hframes, -⟩ | ⟨hframes, -⟩
      · dsimp only
        rw [hframes]
        exact ⟨hpair, fun earlier hearlier later hlat =>
          hpre earlier hearlier later (hdel.arriving _ later hlat)⟩
      · dsimp only
        rw [hframes, ← append_assoc]
        refine ⟨pairwise_append.2 ⟨hpair, pairwise_singleton _ _,
          fun earlier hearlier later hlat => ?_⟩, fun earlier hearlier later hlat => ?_⟩
        · rw [mem_singleton.1 hlat]
          exact hpre earlier hearlier frame hdel.was
        · rcases mem_append.1 hearlier with hold | hnew
          · exact hpre earlier hold later (hdel.arriving _ later hlat)
          · rw [mem_singleton.1 hnew]
            exact hdel.before later hlat
    · obtain ⟨hpair, hpre⟩ := h.ordered other receiver' hsame
      exact ⟨hpair, fun earlier hearlier later hlat =>
        hpre earlier hearlier later (hdel.arriving other later hlat)⟩
  · rw [hdel.movingTo] at hfl
    rcases hdel.inFlight with hnone | hsame
    · cases hnone.symm.trans hfl
    · exact h.crossing later (hdel.moving.subset hlat) flight (hsame ▸ hfl)
  · obtain ⟨before₁, hpre₁, -, -, -, hheld₁⟩ := hdel.held hone
    obtain ⟨before₂, hpre₂, -, -, -, hheld₂⟩ := hdel.held htwo
    exact fun first hfst second hsnd =>
      h.apart one before₁ two before₂ hpre₁ hpre₂ hne first (hheld₁ first hfst) second (hheld₂ second hsnd)
  · rw [hdel.table] at hbuf ⊢
    rw [hdel.wire]
    obtain ⟨hrt, hpair, hframes⟩ := h.orphans threadId buffered hbuf
    refine ⟨hrt, hpair, fun later hlat => ?_⟩
    obtain ⟨hwire, hthr, hapart⟩ := hframes later hlat
    refine ⟨hwire, hthr, fun other receiver' hoth held hheld => ?_⟩
    obtain ⟨before, hpre, -, -, -, hsub⟩ := hdel.held hoth
    exact hapart other before hpre held (hsub held hheld)
  · rw [hdel.table] at hrt
    obtain ⟨before, hpre, hliv, hmem, hopen⟩ := h.routed threadId other hrt
    obtain ⟨after, haft, hths, hdrop, hcl⟩ := hrec hpre
    exact ⟨after, haft, hdrop.trans hliv, hths ▸ hmem, hcl.trans hopen⟩
  · rcases hdel.inFlight with hnone | hsame
    · cases hnone.symm.trans hfl
    · obtain ⟨before, hpre, hopen⟩ := h.flight other later (hsame ▸ hfl)
      obtain ⟨after, haft, -, -, hcl⟩ := hrec hpre
      exact ⟨after, haft, hcl.trans hopen⟩
  · obtain ⟨before, hpre, hopen⟩ := h.movingTo fun hnil =>
      hmove (sublist_nil.1 (hnil ▸ hdel.moving))
    obtain ⟨after, haft, -, -, hcl⟩ := hrec hpre
    rw [hdel.movingTo]
    exact ⟨after, haft, hcl.trans hopen⟩

lemma arriving_idle (hidle : world.inFlight = none) (hfree : world.moving = []) (number : ℕ) :
    world.arriving number = [] := by
  rw [eq_nil_iff_forall_not_mem]
  intro frame hfrm
  rcases mem_arriving.1 hfrm with ⟨-, hmove⟩ | hfl
  · rw [hfree] at hmove
    cases hmove
  · cases hidle.symm.trans hfl

lemma Custody.wire_append (h : world.Custody) (hnum : frame.number = world.wire.length) :
    (world.wire ++ [frame]).Pairwise (fun frame later => frame.number < later.number) ∧
      ∀ other ∈ world.wire ++ [frame], other.number < (world.wire ++ [frame]).length := by
  constructor
  · refine pairwise_append.2 ⟨h.wire, pairwise_singleton _ _, fun earlier hearlier later hlat => ?_⟩
    rw [mem_singleton.1 hlat, hnum]
    exact h.numbers earlier hearlier
  · intro other hoth
    rw [length_append, length_singleton]
    rcases mem_append.1 hoth with hold | hnew
    · exact Nat.lt_succ_of_lt (h.numbers other hold)
    · rw [mem_singleton.1 hnew, hnum]
      exact Nat.lt_succ_self _

lemma Custody.flying (h : world.Custody) (frame) (hnum : frame.number = world.wire.length)
    (hfree : world.moving = []) (hrt : world.table.routes.get? frame.thread = some number) :
    Custody { world with wire := world.wire ++ [frame], inFlight := some (number, frame) } := by
  obtain ⟨target, htarg, -, hmem, hopen⟩ := h.routed frame.thread number hrt
  obtain ⟨hwire, hnums⟩ := h.wire_append hnum
  have hlt {other} (hoth : other ∈ world.wire) : other.number < frame.number := by
    rw [hnum]
    exact h.numbers other hoth
  generalize hnext : ({ world with wire := world.wire ++ [frame], inFlight := some (number, frame) } : World φ) = next
  have harr {other} {later} (hlat : later ∈ next.arriving other) : other = number ∧ later = frame := by
    rw [← hnext] at hlat
    rcases mem_arriving.1 hlat with ⟨-, hmove⟩ | hfl
    · rw [hfree] at hmove
      cases hmove
    · cases hfl
      exact ⟨rfl, rfl⟩
  have hheld {other} {receiver} (hoth : world.receivers other = some receiver)
      {later} (hlat : later ∈ next.held other receiver) :
      (later ∈ world.held other receiver ∧ later ∈ world.wire) ∨ other = number ∧ later = frame := by
    rcases mem_held.1 hlat with hqueue | harrives
    · have hin : later ∈ world.held other receiver := mem_held.2 (.inl hqueue)
      exact .inl ⟨hin, (h.held other receiver hoth later hin).1⟩
    · exact .inr (harr harrives)
  subst hnext
  refine ⟨hwire, hnums, fun other receiver hoth later hlat => ?_, fun other receiver hoth => ?_,
    h.moving, fun later hlat => ?_, fun one receiver₁ two receiver₂ hone htwo hne first hfst second hsnd => ?_,
    fun threadId buffered hbuf => ?_, h.routed, fun other later hfl => ?_, h.movingTo⟩
  · rcases hheld hoth hlat with ⟨hin, -⟩ | ⟨rfl, rfl⟩
    · exact ⟨mem_append_left _ (h.held other receiver hoth later hin).1, (h.held other receiver hoth later hin).2⟩
    · obtain rfl := some.inj (htarg.symm.trans hoth)
      exact ⟨mem_append_right _ (mem_singleton_self _), hmem⟩
  · refine ⟨(h.ordered other receiver hoth).1, fun earlier hearlier later hlat _ => ?_⟩
    rw [(harr hlat).2]
    exact hlt (h.held other receiver hoth earlier (mem_held.2 (.inl hearlier))).1
  · change later ∈ world.moving at hlat
    rw [hfree] at hlat
    cases hlat
  · rcases hheld hone hfst with ⟨hin₁, hwire₁⟩ | ⟨rfl, rfl⟩
    · rcases hheld htwo hsnd with ⟨hin₂, -⟩ | ⟨rfl, rfl⟩
      · exact h.apart one receiver₁ two receiver₂ hone htwo hne first hin₁ second hin₂
      · exact (hlt hwire₁).ne
    · rcases hheld htwo hsnd with ⟨-, hwire₂⟩ | ⟨rfl, rfl⟩
      · exact (hlt hwire₂).ne'
      · exact absurd rfl hne
  · obtain ⟨hunrouted, hpair, hframes⟩ := h.orphans threadId buffered hbuf
    refine ⟨hunrouted, hpair, fun later hlat => ?_⟩
    obtain ⟨hin, hthr, hapart⟩ := hframes later hlat
    refine ⟨mem_append_left _ hin, hthr, fun other receiver hoth held hheld' => ?_⟩
    rcases hheld hoth hheld' with ⟨hold, -⟩ | ⟨-, rfl⟩
    · exact hapart other receiver hoth held hold
    · exact (hlt hin).ne'
  · cases hfl
    exact ⟨target, htarg, hopen⟩

lemma Custody.orphaned (h : world.Custody) (hok : world.table.OrphansOk) (frame)
    (hnum : frame.number = world.wire.length) (hrt : world.table.routes.get? frame.thread = none)
    (failure) :
    Custody { world with
      wire := world.wire ++ [frame]
      table := world.table.retainOrphan frame.thread frame
      failure := failure } := by
  obtain ⟨hwire, hnums⟩ := h.wire_append hnum
  obtain ⟨-, hroutes, -, ⟨buffer, hat, hsub, -⟩, hoths⟩ := RouteTable.retainOrphan_spec hok frame.thread frame
  have hlt {other} (hoth : other ∈ world.wire) : other.number < frame.number := by
    rw [hnum]
    exact h.numbers other hoth
  refine ⟨hwire, hnums, fun other receiver hoth later hlat => ?_, h.ordered, h.moving, h.crossing, h.apart,
    fun threadId buffered hbuf => ?_, fun threadId number hthr => ?_, h.flight, h.movingTo⟩
  · obtain ⟨hin, hthr⟩ := h.held other receiver hoth later hlat
    exact ⟨mem_append_left _ hin, hthr⟩
  · dsimp only at hbuf ⊢
    rw [hroutes]
    by_cases heq : threadId = frame.thread
    · rw [heq, hat] at hbuf
      cases hbuf
      rw [heq]
      have hold : ((world.table.orphans.get? frame.thread).getD []).Pairwise
            (fun frame later => frame.number < later.number) ∧
          ∀ later ∈ (world.table.orphans.get? frame.thread).getD [], later ∈ world.wire ∧
            later.thread = frame.thread ∧ ∀ number receiver, world.receivers number = some receiver →
              ∀ other ∈ world.held number receiver, other.number ≠ later.number := by
        cases hget : world.table.orphans.get? frame.thread with
        | none => exact ⟨.nil, nofun⟩
        | some before => exact (h.orphans frame.thread before hget).2
      refine ⟨hrt, List.Pairwise.sublist hsub (pairwise_append.2 ⟨hold.1, pairwise_singleton _ _,
        fun earlier hearlier later hlat => ?_⟩), fun later hlat => ?_⟩
      · rw [mem_singleton.1 hlat]
        exact hlt (hold.2 earlier hearlier).1
      · rcases mem_append.1 (hsub.subset hlat) with hin | hnew
        · obtain ⟨hinWire, hthr, hapart⟩ := hold.2 later hin
          exact ⟨mem_append_left _ hinWire, hthr, hapart⟩
        · rw [mem_singleton.1 hnew]
          refine ⟨mem_append_right _ (mem_singleton_self _), rfl, fun number receiver hrec other hoth => ?_⟩
          exact (hlt (h.held number receiver hrec other hoth).1).ne
    · rcases hoths threadId heq with hsame | ⟨hnone, -⟩
      · obtain ⟨hunrouted, hpair, hframes⟩ := h.orphans threadId buffered (hsame.symm.trans hbuf)
        refine ⟨hunrouted, hpair, fun later hlat => ?_⟩
        obtain ⟨hin, hrest⟩ := hframes later hlat
        exact ⟨mem_append_left _ hin, hrest⟩
      · cases hnone.symm.trans hbuf
  · dsimp only at hthr
    rw [hroutes] at hthr
    exact h.routed threadId number hthr

lemma receivers_setReceiver
    (hoth : Function.update world.receivers number (some receiver) other = some receiver') :
    other = number ∧ receiver' = receiver ∨ other ≠ number ∧ world.receivers other = some receiver' := by
  by_cases heq : other = number
  · rw [heq, update_self] at hoth
    exact .inl ⟨heq, (some.inj hoth).symm⟩
  · rw [update_of_ne heq] at hoth
    exact .inr ⟨heq, hoth⟩

/-- **A receiver that has the same frames keeps custody**, where it keeps its routes or loses them
all. -/
theorem Custody.replaced (h : world.Custody) (receiver')
    (hrec : world.receivers number = some receiver)
    (hframes : receiver'.given ++ receiver'.queue.frames = receiver.given ++ receiver.queue.frames)
    (hths : receiver'.threads = receiver.threads) (hcl : receiver'.queue.closed = receiver.queue.closed)
    {routes} (since : String → ℕ)
    (hroutes : ∀ threadId other, routes.get? threadId = some other →
      world.table.routes.get? threadId = some other ∧ (other = number → receiver'.dropped = receiver.dropped)) :
    Custody { world.setReceiver number receiver' with
      table := { world.table with routes := routes }, since := since } := by
  have hheld {other} {after}
      (hoth : Function.update world.receivers number (some receiver') other = some after) :
      ∃ before, world.receivers other = some before ∧ after.threads = before.threads ∧
        after.given ++ after.queue.frames = before.given ++ before.queue.frames ∧
        world.held other after = world.held other before := by
    rcases receivers_setReceiver hoth with ⟨rfl, rfl⟩ | ⟨-, hsame⟩
    · exact ⟨receiver, hrec, hths, hframes, congrArg (· ++ world.arriving _) hframes⟩
    · exact ⟨after, hsame, rfl, rfl, rfl⟩
  have hstill {other} {before} (hoth : world.receivers other = some before) :
      ∃ after, Function.update world.receivers number (some receiver') other = some after ∧
        after.threads = before.threads ∧ after.queue.closed = before.queue.closed ∧
        (other ≠ number → after = before) ∧ (other = number → after = receiver' ∧ before = receiver) := by
    by_cases heq : other = number
    · obtain rfl := heq
      obtain rfl := some.inj (hrec.symm.trans hoth)
      exact ⟨receiver', update_self .., hths, hcl, fun hne => absurd rfl hne, fun _ => ⟨rfl, rfl⟩⟩
    · exact ⟨before, (update_of_ne heq ..).trans hoth, rfl, rfl, fun _ => rfl, fun h => absurd h heq⟩
  refine ⟨h.wire, h.numbers, fun other after hoth => ?_, fun other after hoth => ?_, h.moving, h.crossing,
    fun one after₁ two after₂ hone htwo hne => ?_, fun threadId buffered hbuf => ?_,
    fun threadId other hrt => ?_, fun other frame hfl => ?_, fun hmove => ?_⟩
  · obtain ⟨before, hpre, hsame, -, heq⟩ := hheld hoth
    change ∀ frame ∈ world.held other after, frame ∈ world.wire ∧ frame.thread ∈ after.threads
    rw [heq, hsame]
    exact h.held other before hpre
  · obtain ⟨before, hpre, -, hsame, -⟩ := hheld hoth
    rw [hsame]
    exact h.ordered other before hpre
  · obtain ⟨before₁, hpre₁, -, -, heq₁⟩ := hheld hone
    obtain ⟨before₂, hpre₂, -, -, heq₂⟩ := hheld htwo
    change ∀ frame ∈ world.held one after₁, ∀ frame' ∈ world.held two after₂, frame.number ≠ frame'.number
    rw [heq₁, heq₂]
    exact h.apart one before₁ two before₂ hpre₁ hpre₂ hne
  · obtain ⟨hunrouted, hpair, hframes⟩ := h.orphans threadId buffered hbuf
    refine ⟨?_, hpair, fun frame hfrm => ?_⟩
    · refine eq_none_iff_forall_not_mem.2 fun other hoth => ?_
      cases hunrouted.symm.trans (hroutes threadId other hoth).1
    · obtain ⟨hin, hthr, hapart⟩ := hframes frame hfrm
      refine ⟨hin, hthr, fun other after hoth => ?_⟩
      obtain ⟨before, hpre, -, -, heq⟩ := hheld hoth
      change ∀ held ∈ world.held other after, held.number ≠ frame.number
      rw [heq]
      exact hapart other before hpre
  · obtain ⟨hold, hliv⟩ := hroutes threadId other hrt
    obtain ⟨before, hpre, hdrop, hmem, hopen⟩ := h.routed threadId other hold
    obtain ⟨after, haft, hsame, hclosed', hne, heq⟩ := hstill hpre
    refine ⟨after, haft, ?_, hsame ▸ hmem, hclosed'.trans hopen⟩
    by_cases hnum : other = number
    · obtain ⟨rfl, rfl⟩ := heq hnum
      exact (hliv hnum).trans hdrop
    · rw [hne hnum]
      exact hdrop
  · obtain ⟨before, hpre, hopen⟩ := h.flight other frame hfl
    obtain ⟨after, haft, -, hclosed', -⟩ := hstill hpre
    exact ⟨after, haft, hclosed'.trans hopen⟩
  · obtain ⟨before, hpre, hopen⟩ := h.movingTo hmove
    obtain ⟨after, haft, -, hclosed', -⟩ := hstill hpre
    exact ⟨after, haft, hclosed'.trans hopen⟩

/-- A receiver that is to take over a thread, with what it has before. -/
structure Taker (world : World φ) (number : ℕ) (threadId : String) (receiver : TurnFrameReceiver φ) : Prop where
  mem : threadId ∈ receiver.threads
  lives : receiver.dropped = false
  opened : receiver.queue.closed = none
  held : ∀ frame ∈ world.held number receiver,
    frame ∈ world.wire ∧ frame.thread ∈ receiver.threads ∧ frame.thread ≠ threadId
  ordered : (receiver.given ++ receiver.queue.frames).Pairwise Precedes ∧
    ∀ frame ∈ receiver.given ++ receiver.queue.frames, ∀ later ∈ world.arriving number, Precedes frame later
  apart : ∀ other receiver', world.receivers other = some receiver' → number ≠ other →
    ∀ frame ∈ world.held number receiver, ∀ frame' ∈ world.held other receiver', frame.number ≠ frame'.number
  orphans : ∀ threadId buffered, world.table.orphans.get? threadId = some buffered →
    ∀ frame ∈ buffered, ∀ held ∈ world.held number receiver, held.number ≠ frame.number
  threads : ∀ before, world.receivers number = some before → ∀ thread ∈ before.threads, thread ∈ receiver.threads

lemma taker_of_mayTake (h : world.Custody) (hmay : MayTake world number threadId receiver) :
    Taker world number threadId receiver := by
  cases hmay with
  | fresh hnone =>
    have hemp : world.held number (⟨.new, [threadId], false, []⟩ : TurnFrameReceiver φ) = [] :=
      h.arriving_fresh hnone
    refine ⟨mem_singleton_self _, rfl, rfl, ?_, ⟨.nil, nofun⟩, ?_, ?_, fun before hpre => ?_⟩
    · rw [hemp]
      exact nofun
    · rw [hemp]
      exact fun _ _ _ _ => nofun
    · rw [hemp]
      exact fun _ _ _ _ _ => nofun
    · cases hnone.symm.trans hpre
  | living receiver hrec hliv hnew hfew hopen =>
    refine ⟨mem_append_right _ (mem_singleton_self _), hliv, hopen, fun frame hfrm => ?_,
      h.ordered number receiver hrec, fun other receiver' hoth hne =>
        h.apart number receiver other receiver' hrec hoth hne,
      fun thread buffered hbuf frame hfrm => ?_, fun before hpre thread hthr => ?_⟩
    · obtain ⟨hwire, hthr⟩ := h.held number receiver hrec frame hfrm
      exact ⟨hwire, mem_append_left _ hthr, fun heq => hnew (heq ▸ hthr)⟩
    · obtain ⟨-, -, hframes⟩ := h.orphans thread buffered hbuf
      exact (hframes frame hfrm).2.2 number receiver hrec
    · obtain rfl := some.inj (hrec.symm.trans hpre)
      exact mem_append_left _ hthr

/-- **What a receiver has after it has taken over a thread**: what it had, and what is buffered. -/
theorem held_takeOver
    (hoth : (world.takeOver number receiver threadId).receivers other = some receiver')
    (hfrm : frame ∈ (world.takeOver number receiver threadId).held other receiver') :
    other ≠ number ∧ world.receivers other = some receiver' ∧ frame ∈ world.held other receiver' ∨
      other = number ∧ (frame ∈ world.held number receiver ∨
        frame ∈ (world.table.orphans.get? threadId).getD []) := by
  rcases receivers_setReceiver hoth with ⟨rfl, rfl⟩ | ⟨hne, hsame⟩
  · refine .inr ⟨rfl, ?_⟩
    rcases mem_held.1 hfrm with hqueue | harr
    · exact .inl (mem_held.2 (.inl hqueue))
    · rcases mem_arriving.1 harr with ⟨-, hmove⟩ | hfl
      · exact .inr hmove
      · exact .inl (mem_held.2 (.inr (mem_arriving.2 (.inr hfl))))
  · refine .inl ⟨hne, hsame, ?_⟩
    rcases mem_held.1 hfrm with hqueue | harr
    · exact mem_held.2 (.inl hqueue)
    · rcases mem_arriving.1 harr with ⟨hto, -⟩ | hfl
      · exact absurd hto.symm hne
      · exact mem_held.2 (.inr (mem_arriving.2 (.inr hfl)))

lemma threads_takeOver
    (hoth : (world.takeOver number receiver threadId).receivers number = some receiver') :
    receiver'.threads = receiver.threads := by
  rcases receivers_setReceiver hoth with ⟨-, rfl⟩ | ⟨hne, -⟩
  · rfl
  · exact absurd rfl hne

lemma Custody.takenOver (h : world.Custody) (htaker : Taker world number threadId receiver) :
    (world.takeOver number receiver threadId).Custody := by
  have hbuf : ((world.table.orphans.get? threadId).getD []).Pairwise
        (fun frame later => frame.number < later.number) ∧
      ∀ frame ∈ (world.table.orphans.get? threadId).getD [], frame ∈ world.wire ∧ frame.thread = threadId ∧
        (∀ other receiver', world.receivers other = some receiver' →
          ∀ held ∈ world.held other receiver', held.number ≠ frame.number) ∧
        ∀ held ∈ world.held number receiver, held.number ≠ frame.number := by
    cases hget : world.table.orphans.get? threadId with
    | none => exact ⟨.nil, nofun⟩
    | some buffered =>
      obtain ⟨-, hpair, hframes⟩ := h.orphans threadId buffered hget
      refine ⟨hpair, fun frame hfrm => ?_⟩
      obtain ⟨hwire, hthr, hapart⟩ := hframes frame hfrm
      exact ⟨hwire, hthr, hapart, htaker.orphans threadId buffered hget frame hfrm⟩
  have hstill {other} {before} (hoth : world.receivers other = some before)
      (hopen : before.queue.closed = none) :
      ∃ after, (world.takeOver number receiver threadId).receivers other = some after ∧
        (∀ thread ∈ before.threads, thread ∈ after.threads) ∧
        (before.dropped = false → after.dropped = false) ∧ after.queue.closed = none := by
    by_cases heq : other = number
    · obtain rfl := heq
      exact ⟨_, update_self .., htaker.threads before hoth, fun _ => htaker.lives, htaker.opened⟩
    · exact ⟨before, (update_of_ne heq ..).trans hoth, fun _ hthr => hthr, id, hopen⟩
  refine ⟨h.wire, h.numbers, fun other receiver' hoth frame hfrm => ?_, fun other receiver' hoth => ?_,
    hbuf.1, fun frame hfrm flight hfl => ?_,
    fun one receiver₁ two receiver₂ hone htwo hne first hfst second hsnd => ?_,
    fun thread buffered hat => ?_, fun thread other hroute' => ?_, fun other frame hfl => ?_, fun _ => ?_⟩
  · rcases held_takeOver hoth hfrm with ⟨-, hsame, hold⟩ | ⟨rfl, hold | hnew⟩
    · exact h.held other receiver' hsame frame hold
    · rw [threads_takeOver hoth]
      exact ⟨(htaker.held frame hold).1, (htaker.held frame hold).2.1⟩
    · rw [threads_takeOver hoth, (hbuf.2 frame hnew).2.1]
      exact ⟨(hbuf.2 frame hnew).1, htaker.mem⟩
  · rcases receivers_setReceiver hoth with ⟨rfl, rfl⟩ | ⟨hne, hsame⟩
    · refine ⟨htaker.ordered.1, fun frame hfrm later hlat => ?_⟩
      rcases mem_arriving.1 hlat with ⟨-, hmove⟩ | hfl
      · have hheld := htaker.held frame (mem_held.2 (.inl hfrm))
        exact fun hthr => absurd (hthr.trans (hbuf.2 later hmove).2.1) hheld.2.2
      · exact htaker.ordered.2 frame hfrm later (mem_arriving.2 (.inr hfl))
    · refine ⟨(h.ordered other receiver' hsame).1, fun frame hfrm later hlat => ?_⟩
      rcases mem_arriving.1 hlat with ⟨hto, -⟩ | hfl
      · exact absurd hto.symm hne
      · exact (h.ordered other receiver' hsame).2 frame hfrm later (mem_arriving.2 (.inr hfl))
  · have hheld := htaker.held flight (mem_held.2 (.inr (mem_arriving.2 (.inr hfl))))
    rw [(hbuf.2 frame hfrm).2.1]
    exact hheld.2.2.symm
  · rcases held_takeOver hone hfst with ⟨hne₁, hsame₁, hold₁⟩ | ⟨rfl, hcases₁⟩
    · rcases held_takeOver htwo hsnd with ⟨-, hsame₂, hold₂⟩ | ⟨rfl, hold₂ | hnew₂⟩
      · exact h.apart one receiver₁ two receiver₂ hsame₁ hsame₂ hne first hold₁ second hold₂
      · exact (htaker.apart one receiver₁ hsame₁ hne.symm second hold₂ first hold₁).symm
      · exact (hbuf.2 second hnew₂).2.2.1 one receiver₁ hsame₁ first hold₁
    · rcases held_takeOver htwo hsnd with ⟨-, hsame₂, hold₂⟩ | ⟨rfl, -⟩
      · rcases hcases₁ with hold₁ | hnew₁
        · exact htaker.apart two receiver₂ hsame₂ hne first hold₁ second hold₂
        · exact ((hbuf.2 first hnew₁).2.2.1 two receiver₂ hsame₂ second hold₂).symm
      · exact absurd rfl hne
  · change (world.table.orphans.delete threadId).get? thread = some buffered at hat
    rw [get?_delete] at hat
    split_ifs at hat with hne
    obtain ⟨hunrouted, hpair, hframes⟩ := h.orphans thread buffered hat
    refine ⟨?_, hpair, fun frame hfrm => ?_⟩
    · change (world.table.routes.set threadId number).get? thread = none
      rw [get?_set, if_neg hne]
      exact hunrouted
    · obtain ⟨hwire, hthr, hapart⟩ := hframes frame hfrm
      refine ⟨hwire, hthr, fun other receiver' hoth held hheld => ?_⟩
      rcases held_takeOver hoth hheld with ⟨-, hsame, hold⟩ | ⟨rfl, hold | hnew⟩
      · exact hapart other receiver' hsame held hold
      · exact htaker.orphans thread buffered hat frame hfrm held hold
      · intro hnum
        have hsame := h.eq_of_number (hbuf.2 held hnew).1 hwire hnum
        exact hne (hthr.symm.trans (hsame ▸ (hbuf.2 held hnew).2.1))
  · change (world.table.routes.set threadId number).get? thread = some other at hroute'
    rw [get?_set] at hroute'
    split_ifs at hroute' with heq
    · cases hroute'
      exact ⟨_, update_self .., htaker.lives, heq ▸ htaker.mem, htaker.opened⟩
    · obtain ⟨before, hpre, hliv, hmem, hopen⟩ := h.routed thread other hroute'
      obtain ⟨after, haft, hths, hdrop, hopen'⟩ := hstill hpre hopen
      exact ⟨after, haft, hdrop hliv, hths thread hmem, hopen'⟩
  · obtain ⟨before, hpre, hopen⟩ := h.flight other frame hfl
    obtain ⟨after, haft, -, -, hopen'⟩ := hstill hpre hopen
    exact ⟨after, haft, hopen'⟩
  · exact ⟨_, update_self .., htaker.opened⟩

lemma Custody.refused (h : world.Custody) (hnone : world.receivers number = none)
    {receiver} (hemp : receiver.given ++ receiver.queue.frames = []) :
    (world.setReceiver number receiver).Custody := by
  have hheld {other} {after}
      (hoth : Function.update world.receivers number (some receiver) other = some after) :
      world.held other after = [] ∨ world.receivers other = some after := by
    rcases receivers_setReceiver hoth with ⟨rfl, rfl⟩ | ⟨-, hsame⟩
    · unfold World.held
      rw [hemp, h.arriving_fresh hnone]
      exact .inl rfl
    · exact .inr hsame
  have hstill {other} {before} (hoth : world.receivers other = some before) :
      Function.update world.receivers number (some receiver) other = some before := by
    rw [update_of_ne, hoth]
    rintro rfl
    cases hnone.symm.trans hoth
  refine ⟨h.wire, h.numbers, fun other after hoth => ?_, fun other after hoth => ?_, h.moving, h.crossing,
    fun one after₁ two after₂ hone htwo hne => ?_, fun threadId buffered hbuf => ?_,
    fun threadId other hrt => ?_, fun other frame hfl => ?_, fun hmove => ?_⟩
  · change ∀ frame ∈ world.held other after, frame ∈ world.wire ∧ frame.thread ∈ after.threads
    rcases hheld hoth with hnil | hsame
    · rw [hnil]
      exact nofun
    · exact h.held other after hsame
  · rcases receivers_setReceiver hoth with ⟨rfl, rfl⟩ | ⟨-, hsame⟩
    · rw [hemp]
      exact ⟨.nil, nofun⟩
    · exact h.ordered other after hsame
  · change ∀ frame ∈ world.held one after₁, ∀ frame' ∈ world.held two after₂, frame.number ≠ frame'.number
    rcases hheld hone with hnil | hsame₁
    · rw [hnil]
      exact nofun
    · rcases hheld htwo with hnil | hsame₂
      · rw [hnil]
        exact fun _ _ => nofun
      · exact h.apart one after₁ two after₂ hsame₁ hsame₂ hne
  · obtain ⟨hunrouted, hpair, hframes⟩ := h.orphans threadId buffered hbuf
    refine ⟨hunrouted, hpair, fun frame hfrm => ?_⟩
    obtain ⟨hwire, hthr, hapart⟩ := hframes frame hfrm
    refine ⟨hwire, hthr, fun other after hoth => ?_⟩
    change ∀ held ∈ world.held other after, held.number ≠ frame.number
    rcases hheld hoth with hnil | hsame
    · rw [hnil]
      exact nofun
    · exact hapart other after hsame
  · obtain ⟨before, hpre, hrest⟩ := h.routed threadId other hrt
    exact ⟨before, hstill hpre, hrest⟩
  · obtain ⟨before, hpre, hopen⟩ := h.flight other frame hfl
    exact ⟨before, hstill hpre, hopen⟩
  · obtain ⟨before, hpre, hopen⟩ := h.movingTo hmove
    exact ⟨before, hstill hpre, hopen⟩

lemma Custody.ne_of_left (h : world.Custody) (hrec : world.receivers number = some receiver)
    (hrt : ((receiver.threads.filter fun threadId => world.table.routes.get? threadId = some number).foldl
      OrderedMap.delete world.table.routes).get? threadId = some other) :
    world.table.routes.get? threadId = some other ∧ other ≠ number := by
  rw [get?_foldl_delete] at hrt
  split_ifs at hrt with hown
  refine ⟨hrt, ?_⟩
  rintro rfl
  obtain ⟨before, hpre, -, hmem, -⟩ := h.routed threadId other hrt
  obtain rfl := some.inj (hrec.symm.trans hpre)
  exact hown (mem_filter.2 ⟨hmem, decide_eq_true hrt⟩)

theorem Custody.step (h : world.Custody) (hok : world.table.OrphansOk) (hstepped : Stepped world next) :
    next.Custody := by
  cases hstepped with
  | same => exact h
  | flying threadId frame bytes number hidle hfree hrt =>
    exact h.flying ⟨frame, bytes, threadId, world.wire.length⟩ rfl hfree hrt
  | orphaned threadId frame bytes failure hidle hfree hrt hfail =>
    exact h.orphaned hok ⟨frame, bytes, threadId, world.wire.length⟩ rfl hrt failure
  | pushed number frame hfl =>
    obtain ⟨receiver, hdel⟩ := delivered_of_push h hfl
    exact h.delivered hdel
  | refused number threads hnone hfree hths => exact h.refused hnone rfl
  | takenOver number threadId receiver hfree hrt hroom hmay =>
    exact h.takenOver (taker_of_mayTake h hmay)
  | moved frame rest hmove =>
    obtain ⟨receiver, hdel⟩ := delivered_of_move h hmove
    exact h.delivered hdel
  | received number receiver frame queue hrec hliv hqueue =>
    obtain ⟨hframes, -, hcl, -⟩ := TurnFrameQueueState.tryRecv_spec hqueue
    refine h.replaced { receiver with queue := queue, given := receiver.given ++ [frame] } hrec ?_ rfl
      hcl world.since fun threadId other hrt => ⟨hrt, fun _ => rfl⟩
    rw [hframes, append_assoc, singleton_append]
  | dropped number receiver hrec hliv hfree =>
    refine h.replaced { receiver with dropped := true } hrec rfl rfl rfl _ fun threadId other hrt => ?_
    obtain ⟨hold, hne⟩ := h.ne_of_left hrec hrt
    exact ⟨hold, fun heq => absurd heq hne⟩

end World

end CodevoEditor.CodexAppServer
