/-
# Runs of the transport

What holds after any events: frames come in order, none to two receivers, and one that got lost has
left a mark.
-/

import CodevoEditor.CodexAppServer.FrameLoss
import Mathlib.Data.List.Sort

namespace CodevoEditor.CodexAppServer

open Js

variable {φ : Type}

namespace World

variable {world : World φ} {number : ℕ} {receiver : TurnFrameReceiver φ}

variable (events : List (Event φ))

lemma after_kept (hcust : world.Custody) (hacc : world.Accounted) :
    (world.after events).Custody ∧ (world.after events).Accounted ∧ world.Kept (world.after events) := by
  unfold after
  induction events generalizing world with
  | nil => exact ⟨hcust, hacc, .refl world⟩
  | cons event events ih =>
    rw [List.foldl_cons]
    cases hstep : world.step event with
    | none => exact ih hcust hacc
    | some next =>
      have hstepped := stepped_of_step hstep
      obtain ⟨hcust', hacc', hkept⟩ :=
        ih (hcust.step hacc.orphans hstepped) (hacc.step hcust hstepped)
      exact ⟨hcust', hacc', (hcust.kept hstepped).trans hkept⟩

lemma after_new : (new.after events).Custody ∧ (new.after events).Accounted := by
  obtain ⟨hcust, hacc, -⟩ := after_kept events custody_new accounted_new
  exact ⟨hcust, hacc⟩

lemma sublist_of_numbers {frames wire : List (BufferedFrame φ)} (hsubset : frames ⊆ wire)
    (hframes : frames.Pairwise fun frame later => frame.number < later.number)
    (hwire : wire.Pairwise fun frame later => frame.number < later.number) : frames.Sublist wire := by
  have hanti : Std.Antisymm fun frame later : BufferedFrame φ => frame.number < later.number :=
    ⟨fun frame later hlt hgt => absurd hlt hgt.asymm⟩
  have hnd : frames.Nodup := hframes.imp fun hlt heq => hlt.ne (congrArg BufferedFrame.number heq)
  exact List.sublist_of_subperm_of_pairwise (List.subperm_of_subset hnd hsubset) hframes hwire

lemma Custody.given_held (hfrm : frame ∈ receiver.given) : frame ∈ world.held number receiver :=
  mem_held.2 (.inl (List.mem_append_left _ hfrm))

/-- **A receiver was given the frames of a thread in the order of the wire.** -/
theorem Custody.given_sublist (h : world.Custody) (hrecv : world.receivers number = some receiver)
    (threadId : String) : (ofThread threadId receiver.given).Sublist (ofThread threadId world.wire) := by
  refine sublist_of_numbers (fun frame hfrm => ?_) ?_ (h.wire.filter _)
  · obtain ⟨hgiv, hthr⟩ := List.mem_filter.1 hfrm
    exact List.mem_filter.2 ⟨(h.held number receiver hrecv frame (given_held hgiv)).1, hthr⟩
  · have hord := (List.pairwise_append.1 (h.ordered number receiver hrecv).1).1
    refine List.Pairwise.imp_of_mem (fun hfrm hlat hprecedes => ?_) (hord.filter _)
    have hthr := of_decide_eq_true (List.mem_filter.1 hfrm).2
    exact hprecedes (hthr.trans (of_decide_eq_true (List.mem_filter.1 hlat).2).symm)

/-- **Frames keep their order, and what is lost is marked**: the frames of a thread come in the
order of the wire, each to one receiver, and a receiver that misses one is marked. -/
theorem frames_keep_order (events later : List (Event φ)) :
    ((new.after events).wire.Pairwise fun frame next => frame.number < next.number) ∧
    (∀ number receiver, (new.after events).receivers number = some receiver →
      (∀ threadId, (ofThread threadId receiver.given).Sublist (ofThread threadId (new.after events).wire)) ∧
      (∀ other receiver', (new.after events).receivers other = some receiver' → number ≠ other →
        ∀ frame ∈ receiver.given, ∀ frame' ∈ receiver'.given, frame.number ≠ frame'.number) ∧
      (∀ threadId, (new.after events).table.routes.get? threadId = some number →
        ∀ frame ∈ ofThread threadId (new.after events).wire, (new.after events).since threadId ≤ frame.number →
          frame ∈ (new.after events).held number receiver ∨ receiver.queue.truncated) ∧
      (∃ receiver', ((new.after events).after later).receivers number = some receiver' ∧
        (receiver.queue.truncated → receiver'.queue.truncated) ∧
        ∀ frame ∈ (new.after events).held number receiver,
          frame ∈ ((new.after events).after later).held number receiver' ∨ receiver'.queue.truncated) ∧
      receiver.queue.frames.length ≤ maxTurnInboundFrames ∧
      receiver.queue.bytes = bytesOf receiver.queue.frames ∧ receiver.queue.bytes ≤ maxTurnInboundBytes ∧
      receiver.threads.length ≤ maxSubagentThreadsPerTurn + 1) ∧
    (new.after events).table.orphanOrder.Nodup ∧
    (∀ threadId, threadId ∈ (new.after events).table.orphanOrder ↔
      (new.after events).table.orphans.get? threadId ≠ none) ∧
    (new.after events).table.orphanOrder.length ≤ maxOrphanThreads ∧
    (∀ threadId buffered, (new.after events).table.orphans.get? threadId = some buffered →
      buffered.length ≤ maxOrphanFramesPerThread ∧ bytesOf buffered ≤ maxOrphanInboundBytes) ∧
    (new.after events).table.routes.size ≤ maxTransportRoutes ∧
    ((new.after events).failure = none → (new.after events).table.orphanLoss.card ≤ maxOrphanFramesPerThread) := by
  obtain ⟨hcust, hacc⟩ := after_new events
  obtain ⟨-, -, hkept⟩ := after_kept later hcust hacc
  have horph := hacc.orphans
  refine ⟨hcust.wire, fun number receiver hrecv => ⟨hcust.given_sublist hrecv,
    fun other receiver' hother hne frame hframe frame' hframe' => ?_,
    fun threadId hroute frame hframe hsince => ?_, ?_, ?_⟩, horph.nodup, horph.listed, horph.few,
    horph.buffers, hacc.routes, hacc.loss⟩
  · exact hcust.apart number receiver other receiver' hrecv hother hne frame
      (Custody.given_held hframe) frame' (Custody.given_held hframe')
  · obtain ⟨hwire, hthread⟩ := List.mem_filter.1 hframe
    exact hacc.routed threadId number receiver hroute hrecv frame hwire (of_decide_eq_true hthread) hsince
  · exact hkept number receiver hrecv
  · obtain ⟨hok, hthreads⟩ := hacc.queues number receiver hrecv
    exact ⟨hok.count, hok.bytes, hok.bound, hthreads⟩

/-- What was buffered for a thread goes to the receiver that takes the thread over.  When that one
is dropped, the next neither gets it nor is told. -/
theorem frame_of_another_receiver :
    ¬∀ (before events : List (Event Unit)) (number : ℕ) (receiver : TurnFrameReceiver Unit),
      (new.after before).table.routes.get? "t" = none →
      (new.after (before ++ .route "t" () 1 :: events)).failure = none →
      (new.after (before ++ .route "t" () 1 :: events)).table.routes.get? "t" = some number →
      (new.after (before ++ .route "t" () 1 :: events)).receivers number = some receiver →
      (⟨(), 1, "t", (new.after before).wire.length⟩ : BufferedFrame Unit) ∈
          (new.after (before ++ .route "t" () 1 :: events)).held number receiver ∨
        receiver.queue.truncated := by
  intro h
  have hlost := h [] [.subscribe 0 "t", .move, .drop 0, .subscribe 1 "t"] 1 ⟨.new, ["t"], false, []⟩
    (by decide) (by decide) (by decide) rfl
  revert hlost
  decide

end World

end CodevoEditor.CodexAppServer
