/-
# The bytes that a window counts

`totalBytes` and `pendingBytes` are kept by differences: of a row that is rewritten, the bytes
of what it was taken to hold are given back.
-/

import CodevoEditor.AgentEvents.NoSilentLoss
import CodevoEditor.TurnLog.WindowRetention
import Mathlib.Algebra.BigOperators.Intervals

namespace CodevoEditor.TurnLog

open Js AgentEvents List Option OrderedMap Function

variable {δ : Type} {policy : AgentTurnWindowPolicy}

def rowBytes (policy : AgentTurnWindowPolicy) (content : ℕ → Option AgentTurnEvent) (seq : ℕ) : ℤ :=
  ((content seq).map policy.eventBytes).getD 0

variable {object marked : EventObject} {seq : ℕ}

namespace WindowState

/-- The bytes of the rows. -/
def heldBytes (policy : AgentTurnWindowPolicy) (firstSeq : ℕ) (content : ℕ → Option AgentTurnEvent)
    (state : WindowState δ) : ℤ :=
  ∑ seq ∈ Finset.Ico firstSeq state.nextSeq, rowBytes policy content seq

/-- The bytes of the operations of the dirty rows. -/
def dirtyBytes (policy : AgentTurnWindowPolicy) (state : WindowState δ) : ℤ :=
  (state.dirty.entries.map fun entry => policy.opBytes entry.1 entry.2.event).sum

lemma dirtyBytes_of_get? {state : WindowState δ} (h : state.dirty.get? seq = some object) :
    state.dirtyBytes policy = policy.opBytes seq object.event +
      ((state.dirty.delete seq).entries.map fun entry => policy.opBytes entry.1 entry.2.event).sum := by
  unfold dirtyBytes
  rw [((perm_of_get? h).map fun entry => policy.opBytes entry.1 entry.2.event).sum_eq, map_cons, sum_cons]

variable {state next : WindowState δ}

lemma dirtyBytes_set (hdrt : next.dirty = state.dirty.set seq object) :
    next.dirtyBytes policy = state.dirtyBytes policy + (policy.opBytes seq object.event -
      ((state.dirty.get? seq).map fun replaced => policy.opBytes seq replaced.event).getD 0) := by
  have hset : next.dirty.get? seq = some object := by rw [hdrt, get?_set, if_pos rfl]
  rw [dirtyBytes_of_get? hset, hdrt, delete_set]
  cases hget : state.dirty.get? seq with
  | none =>
    rw [delete_of_get?_none hget, map_none, getD_none, sub_zero, add_comm]
    rfl
  | some replaced =>
    rw [dirtyBytes_of_get? hget, map_some, getD_some]
    omega

def PendingExact (policy : AgentTurnWindowPolicy) (state : WindowState δ) : Prop :=
  state.pendingBytes = state.dirtyBytes policy

/-- A row is marked, and the bytes `given` back are those of what it was taken to hold. -/
structure Rewrites (policy : AgentTurnWindowPolicy) (state next : WindowState δ) (seq : ℕ)
    (given : ℤ) (marked : EventObject) : Prop where
  dirty : next.dirty = state.dirty.set seq marked
  pendingBytes : next.pendingBytes = (state.markDirty policy seq marked).pendingBytes
  totalBytes : next.totalBytes = state.totalBytes + (policy.eventBytes marked.event - given)

lemma Rewrites.pendingExact {given}
    (h : Rewrites policy state next seq given marked) (hexact : PendingExact policy state) :
    PendingExact policy next := by
  unfold PendingExact at hexact ⊢
  rw [dirtyBytes_set h.dirty, ← hexact]
  exact h.pendingBytes

lemma pendingExact_commitOp {state : WindowState δ} (hexact : PendingExact policy state)
    (op) : PendingExact policy (state.commitOp policy op) := by
  unfold PendingExact at hexact ⊢
  unfold commitOp
  cases hget : state.dirty.get? op.seq with
  | none => exact hexact
  | some current =>
    dsimp only
    split
    · exact hexact
    · rw [dirtyBytes_of_get? hget] at hexact
      rw [hexact, add_sub_cancel_left]
      rfl

lemma pendingExact_commitBatch {state : WindowState δ} (hexact : PendingExact policy state)
    (batch) : PendingExact policy (state.commitBatch policy batch) := by
  have hfold : ∀ ops : List AgentTurnLogEntry, PendingExact policy (ops.foldl (commitOp policy) state) := by
    intro ops
    induction ops using List.reverseRecOn with
    | nil => exact hexact
    | append_singleton ops op ih =>
      rw [foldl_concat]
      exact pendingExact_commitOp ih op
  unfold commitBatch
  dsimp only
  split
  case isTrue hnone =>
    have hents := length_eq_zero_iff.1 hnone
    unfold PendingExact dirtyBytes
    rw [hents]
    rfl
  case isFalse => exact hfold batch.ops

/-- Nothing is counted, and of the live snapshots there are no more. -/
structure Trims (state next : WindowState δ) : Prop where
  totalBytes : next.totalBytes = state.totalBytes
  pendingBytes : next.pendingBytes = state.pendingBytes
  live : ∀ seq event, next.live.get? seq = some event → state.live.get? seq = some event

lemma Trims.refl (state : WindowState δ) : Trims state state := ⟨rfl, rfl, fun _ _ => id⟩

lemma Trims.trans {first second third : WindowState δ} (h : Trims first second)
    (h' : Trims second third) : Trims first third :=
  ⟨h'.totalBytes.trans h.totalBytes, h'.pendingBytes.trans h.pendingBytes,
    fun seq event hget => h.live seq event (h'.live seq event hget)⟩

lemma trimLive_trims (seqs : List ℕ) (state : WindowState δ) : Trims state (state.trimLive policy seqs) := by
  induction seqs generalizing state with
  | nil => exact .refl state
  | cons oldest seqs ih =>
    rw [trimLive]
    split
    · exact .refl state
    · obtain ⟨htot, hpend, hlive⟩ :=
        ih { state with live := state.live.delete oldest, bounded := true }
      refine ⟨htot, hpend, fun seq event hget => ?_⟩
      have hdel := hlive seq event hget
      rw [get?_delete] at hdel
      split at hdel
      · cases hdel
      · exact hdel

lemma retainLiveSnapshot_trims (state : WindowState δ) (seq : ℕ) (event : AgentTurnEvent) :
    Trims (state.withLive seq event) (state.retainLiveSnapshot policy seq event) := trimLive_trims _ _

lemma trackIdentities_trims (state : WindowState δ) (event : AgentTurnEvent) :
    Trims state (state.trackIdentities policy event) := by
  unfold trackIdentities
  dsimp only
  split
  · exact ⟨rfl, rfl, fun _ _ => id⟩
  · exact ⟨rfl, rfl, fun _ _ hget => nomatch hget⟩

/-- The row that an event renews when it is accepted. -/
structure Renewed (policy : AgentTurnWindowPolicy) (state : WindowState δ) (object : EventObject)
    (seq : ℕ) (previous merged : AgentTurnEvent) : Prop where
  renews : Renews state object seq previous merged
  fits : ¬ policy.maxEventBytes < policy.eventBytes object.event
  opFits : overOpBound policy state.nextSeq object.event = false
  apart : state.coalesceIntoTail policy object.event = none
  mergedFits : overOpBound policy seq merged = false

/-- The ways in which an event is counted. -/
inductive Booked (policy : AgentTurnWindowPolicy) (state : WindowState δ) (object : EventObject)
    (next : WindowState δ) : Prop
  | refused (hnone : ∀ seq previous merged, ¬ Renewed policy state object seq previous merged)
      (hnext : next = { state with loss := .supervisorGap })
  | joined (hnone : ∀ seq previous merged, ¬ Renewed policy state object seq previous merged)
      {tail : WindowRow} (marked : EventObject) (htail : state.tail = some tail)
      (hfused : policy.coalesceText tail.event object.event = some marked.event)
      (hrew : Rewrites policy state next tail.seq (policy.eventBytes tail.event) marked)
      (hnextTail : next.tail = some ⟨tail.seq, marked.event⟩) (hnextSeq : next.nextSeq = state.nextSeq)
      (hlive : next.live = state.live)
  | renewed (seq : ℕ) (previous : AgentTurnEvent) (marked : EventObject)
      (hrenew : Renewed policy state object seq previous marked.event)
      (hrew : Rewrites policy state next seq (policy.eventBytes previous) marked)
      (hnextTail : next.tail = state.tail) (hnextSeq : next.nextSeq = state.nextSeq)
      (hlive : ∀ other event, next.live.get? other = some event →
        (state.withLive seq marked.event).live.get? other = some event)
  | appended (hnone : ∀ seq previous merged, ¬ Renewed policy state object seq previous merged)
      {marked : EventObject}
      (hrew : Rewrites policy state next state.nextSeq 0 marked)
      (hnextTail : next.tail = some ⟨state.nextSeq, marked.event⟩)
      (hnextSeq : next.nextSeq = state.nextSeq + 1)
      (hlive : ∀ other event, next.live.get? other = some event →
        (state.withRow state.nextSeq marked.event).live.get? other = some event)

lemma booked_coalesceIntoTail (h : state.coalesceIntoTail policy object.event = some next) :
    Booked policy state object next := by
  have hnone : ∀ seq previous merged, ¬ Renewed policy state object seq previous merged := by
    rintro seq previous merged hrenew
    rw [hrenew.apart] at h
    cases h
  unfold coalesceIntoTail at h
  cases htail : state.tail with
  | none =>
    rw [htail] at h
    cases h
  | some tail =>
    rw [htail] at h
    dsimp only at h
    cases hfu : policy.coalesceText tail.event object.event with
    | none =>
      rw [hfu] at h
      cases h
    | some fused =>
      rw [hfu] at h
      dsimp only at h
      split at h
      · cases h
      · cases h
        exact .joined hnone (state.made fused) htail hfu ⟨rfl, rfl, rfl⟩ rfl rfl rfl

lemma rewrites_renewRow (state : WindowState δ) (seq : ℕ) (previous : AgentTurnEvent)
    (object) :
    Rewrites policy state (state.renewRow policy seq previous object) seq (policy.eventBytes previous) object ∧
      ∀ other event, (state.renewRow policy seq previous object).live.get? other = some event →
        (state.withLive seq object.event).live.get? other = some event := by
  have hrow := renewRow_spec policy state seq previous object
  obtain ⟨htot, hpend, hlive⟩ := @retainLiveSnapshot_trims _ policy
    { state.replaceRow policy seq previous object with objects := state.objects + 1 } seq object.event
  exact ⟨⟨hrow.1, hpend, htot⟩, hlive⟩

lemma rewrites_appendRow (state : WindowState δ) (object : EventObject) :
    Rewrites policy state (state.appendRow policy object) state.nextSeq 0 object ∧
      ∀ other event, (state.appendRow policy object).live.get? other = some event →
        (state.withRow state.nextSeq object.event).live.get? other = some event := by
  have hrow := appendRow_spec policy state object
  have hentered : Trims ((state.enterRow policy object).withRow state.nextSeq object.event)
      (state.appendRow policy object) := by
    refine .trans ?_ (trackIdentities_trims _ _)
    unfold withRow
    split
    · exact retainLiveSnapshot_trims _ _ _
    · exact .refl _
  have hcnt : ((state.enterRow policy object).withRow state.nextSeq object.event).totalBytes =
        state.totalBytes + policy.eventBytes object.event ∧
      ((state.enterRow policy object).withRow state.nextSeq object.event).pendingBytes =
        (state.markDirty policy state.nextSeq object).pendingBytes := by
    unfold withRow
    split
    · exact ⟨rfl, rfl⟩
    · exact ⟨rfl, rfl⟩
  obtain ⟨htot, hpend, hlive⟩ := hentered
  rw [live_withRow_congr (show (state.enterRow policy object).live = state.live from rfl)] at hlive
  refine ⟨⟨hrow.1, hpend.trans hcnt.2, htot.trans ?_⟩, hlive⟩
  rw [hcnt.1, sub_zero]

lemma supersedeInPlace_fits {placed}
    {liveSlot} (h : state.supersedeInPlace policy placed liveSlot = (next, true))
    {previous merged} (hslot : liveSlot = some seq)
    (hlive : state.live.get? seq = some previous)
    (hmrg : mergeSupersededAgentTurnEvent previous placed.event = some merged) :
    overOpBound policy seq merged = false := by
  subst hslot
  unfold supersedeInPlace at h
  dsimp only at h
  split at h
  · cases h
  · rw [hlive] at h
    dsimp only at h
    rw [hmrg] at h
    dsimp only at h
    split at h
    · cases h
    · rename_i hover
      exact Bool.eq_false_iff.2 hover

lemma booked_acceptEvent (policy) (state : WindowState δ)
    (object) : Booked policy state object (state.acceptEvent policy object) := by
  unfold acceptEvent
  split
  case isTrue hby => exact .refused (fun _ _ _ hrenew => hrenew.fits hby) rfl
  case isFalse hby =>
  split
  case isTrue hop =>
    refine .refused (fun _ _ _ hrenew => ?_) rfl
    rw [hrenew.opFits] at hop
    cases hop
  case isFalse hop =>
  cases hcoald : state.coalesceIntoTail policy object.event with
  | some next => exact booked_coalesceIntoTail hcoald
  | none =>
    have hplc : state.snapshots.place object.event = state.placed object := rfl
    unfold placeEvent
    rw [hplc]
    dsimp only
    have hpl := placedObject_event state object (state.placed object).event
    split
    case h_1 next hsuper =>
      obtain ⟨seq, previous, merged, hslot, htext, hlive, hmrg, rfl⟩ := supersedeInPlace_true hsuper
      have hover := supersedeInPlace_fits hsuper hslot hlive hmrg
      have hev := mergedObject_event { state with objects := state.objects + 1 }
        (state.placedObject object (state.placed object).event) merged
      generalize mergedObject { state with objects := state.objects + 1 }
        (state.placedObject object (state.placed object).event) merged = marked at hev ⊢
      have hrow := renewRow_spec policy { state with objects := state.objects + 1 } seq previous marked
      obtain ⟨⟨hdrt, hpend, htot⟩, hnextLive⟩ := @rewrites_renewRow _ policy
        { state with objects := state.objects + 1 } seq previous marked
      rw [hpl] at hmrg
      subst hev
      exact .renewed seq previous marked ⟨⟨hslot, htext, hlive, hmrg⟩, hby, Bool.eq_false_iff.2 hop,
        hcoald, hover⟩
        ⟨hdrt, hpend, htot⟩ hrow.2.1 hrow.2.2.1 hnextLive
    case h_2 next hsuper =>
      obtain ⟨hnone, bounded, rfl, -, -⟩ := supersedeInPlace_false hsuper
      change Booked policy state object
        (({ state with objects := state.objects + 1, bounded } : WindowState δ).appendRow policy
          (state.placedObject object (state.placed object).event))
      have hrow := appendRow_spec policy { state with objects := state.objects + 1, bounded }
        (state.placedObject object (state.placed object).event)
      obtain ⟨⟨hdrt, hpend, htot⟩, hlive⟩ := @rewrites_appendRow _ policy
        { state with objects := state.objects + 1, bounded }
        (state.placedObject object (state.placed object).event)
      have hwithRow := @live_withRow_congr δ state { state with objects := state.objects + 1, bounded } rfl
        state.nextSeq (state.placedObject object (state.placed object).event).event
      refine .appended ?_ ⟨hdrt, hpend, htot⟩ hrow.2.1 hrow.2.2.1 (hwithRow ▸ hlive)
      rintro seq previous merged ⟨⟨hslot, htext, hprev, hmrg⟩, -, -, -, hfits⟩
      rw [hnone seq previous merged hslot htext hprev (by rw [hpl]; exact hmrg)] at hfits
      cases hfits

end WindowState

open WindowState

/-- What `content` has for the rows that are marked, for the text at the tail and, if they have not been
clipped, for the live snapshots. -/
structure Tracked (firstSeq : ℕ) (content : ℕ → Option AgentTurnEvent) (state : WindowState δ) : Prop where
  started : firstSeq ≤ state.nextSeq
  dirty : ∀ seq object, state.dirty.get? seq = some object →
    seq ∈ Finset.Ico firstSeq state.nextSeq ∧ content seq = some object.event
  tail : ∀ tail, state.tail = some tail → isAgentTurnCoalescibleTextEvent tail.event →
    tail.seq ∈ Finset.Ico firstSeq state.nextSeq ∧ content tail.seq = some tail.event
  live : ∀ seq event, state.live.get? seq = some event →
    seq ∈ Finset.Ico firstSeq state.nextSeq ∧ isAgentTurnCoalescibleTextEvent event = false ∧
      (content seq = some event ∨ content seq = some clippedAgentTurnLogRow.event)

variable {firstSeq : ℕ} {content : ℕ → Option AgentTurnEvent} {state next : WindowState δ}

lemma Tracked.overlay_set (h : Tracked firstSeq content state)
    (hdrt : next.dirty = state.dirty.set seq marked) :
    overlay next.dirty content = Function.update content seq (some marked.event) := by
  funext other
  unfold overlay
  rw [hdrt, get?_set]
  by_cases heq : other = seq
  · rw [if_pos heq, heq, update_self]
    rfl
  · rw [if_neg heq, update_of_ne heq]
    cases hget : state.dirty.get? other with
    | none => rfl
    | some object => exact (h.dirty other object hget).2.symm

lemma Tracked.overlay_self (h : Tracked firstSeq content state) : overlay state.dirty content = content := by
  funext other
  unfold overlay
  cases hget : state.dirty.get? other with
  | none => rfl
  | some object => exact (h.dirty other object hget).2.symm

/-- What is counted too much. -/
def drift (policy : AgentTurnWindowPolicy) (firstSeq : ℕ) (content : ℕ → Option AgentTurnEvent)
    (state : WindowState δ) : ℤ :=
  state.totalBytes - state.heldBytes policy firstSeq content

lemma rowBytes_update (content : ℕ → Option AgentTurnEvent) (seq : ℕ) (event) :
    rowBytes policy (Function.update content seq (some event)) =
      Function.update (rowBytes policy content) seq (policy.eventBytes event) := by
  funext other
  unfold rowBytes
  by_cases heq : other = seq
  · rw [heq, update_self, update_self]
    rfl
  · rw [update_of_ne heq, update_of_ne heq]

lemma drift_of_rewrites {given} (h : Tracked firstSeq content state)
    (hrew : Rewrites policy state next seq given marked)
    (hseq : seq ∈ Finset.Ico firstSeq state.nextSeq) (hnextSeq : next.nextSeq = state.nextSeq) :
    drift policy firstSeq (overlay next.dirty content) next =
      drift policy firstSeq content state + (rowBytes policy content seq - given) := by
  unfold drift heldBytes
  rw [h.overlay_set hrew.dirty, hnextSeq, rowBytes_update, hrew.totalBytes,
    Finset.sum_update_of_mem hseq, ← Finset.add_sum_erase _ _ hseq, Finset.sdiff_singleton_eq_erase]
  omega

lemma drift_of_appended (h : Tracked firstSeq content state)
    (hrew : Rewrites policy state next state.nextSeq 0 marked)
    (hseq : next.nextSeq = state.nextSeq + 1) :
    drift policy firstSeq (overlay next.dirty content) next = drift policy firstSeq content state := by
  unfold drift heldBytes
  rw [h.overlay_set hrew.dirty, hseq, rowBytes_update, hrew.totalBytes,
    Finset.sum_Ico_succ_top h.started, update_self,
    Finset.sum_update_of_notMem Finset.right_notMem_Ico]
  omega

lemma Tracked.write (h : Tracked firstSeq content state)
    (hdrt : next.dirty = state.dirty.set seq marked) (hgrows : state.nextSeq ≤ next.nextSeq)
    (hseq : seq ∈ Finset.Ico firstSeq next.nextSeq)
    (htail : ∀ tail, next.tail = some tail → isAgentTurnCoalescibleTextEvent tail.event →
      tail = ⟨seq, marked.event⟩ ∨ state.tail = some tail ∧ tail.seq ≠ seq)
    (hlive : ∀ other event, next.live.get? other = some event → other = seq ∧
      isAgentTurnCoalescibleTextEvent event = false ∧ (marked.event = event ∨
      marked.event = clippedAgentTurnLogRow.event) ∨ other ≠ seq ∧ state.live.get? other = some event) :
    Tracked firstSeq (overlay next.dirty content) next := by
  have hwider {other} (hmem : other ∈ Finset.Ico firstSeq state.nextSeq) :
      other ∈ Finset.Ico firstSeq next.nextSeq := Finset.Ico_subset_Ico_right hgrows hmem
  rw [h.overlay_set hdrt]
  refine ⟨h.started.trans hgrows, ?_, ?_, ?_⟩
  · intro other object hget
    rw [hdrt, get?_set] at hget
    by_cases heq : other = seq
    · rw [if_pos heq] at hget
      rw [heq, update_self, some.inj hget]
      exact ⟨hseq, rfl⟩
    · rw [if_neg heq] at hget
      rw [update_of_ne heq]
      exact ⟨hwider (h.dirty other object hget).1, (h.dirty other object hget).2⟩
  · intro tail hnextTail htext
    rcases htail tail hnextTail htext with rfl | ⟨hstate, hne⟩
    · rw [update_self]
      exact ⟨hseq, rfl⟩
    · rw [update_of_ne hne]
      exact ⟨hwider (h.tail tail hstate htext).1, (h.tail tail hstate htext).2⟩
  · intro other event hget
    rcases hlive other event hget with ⟨rfl, htext, hmark⟩ | ⟨hne, hstate⟩
    · rw [update_self]
      exact ⟨hseq, htext, hmark.imp (congrArg some) (congrArg some)⟩
    · obtain ⟨hmem, htext, hcontent⟩ := h.live other event hstate
      rw [update_of_ne hne]
      exact ⟨hwider hmem, htext, hcontent⟩

variable {event : AgentTurnEvent}

lemma not_text_of_merged {previous merged}
    (h : mergeSupersededAgentTurnEvent previous event = some merged) :
    isAgentTurnCoalescibleTextEvent merged = false := by
  cases mergeSuperseded_eq_some_iff.1 h with
  | backgroundTask _ => rfl
  | subagent _ => rfl
  | subagentUsage _ => rfl
  | contextUsage _ => rfl

lemma not_text_of_snapshot (h : isAgentTurnSnapshotEvent event) : isAgentTurnCoalescibleTextEvent event = false := by
  obtain ⟨target, htarg⟩ := isAgentTurnSnapshotEvent_iff.1 h
  exact htarg.not_text

lemma Tracked.held_of_fused (hcoal : policy.coalesceText = coalesceAgentTextEvents)
    (h : Tracked firstSeq content state) {tail} (htail : state.tail = some tail)
    {fused} (hfu : policy.coalesceText tail.event event = some fused) :
    isAgentTurnCoalescibleTextEvent tail.event ∧ tail.seq ∈ Finset.Ico firstSeq state.nextSeq ∧
      content tail.seq = some tail.event := by
  rw [hcoal] at hfu
  obtain ⟨channel, lastText, -, -, hlast, -⟩ := coalesceAgentTextEvents_eq_some_iff.1 hfu
  have htext : isAgentTurnCoalescibleTextEvent tail.event := by
    rw [hlast]
    exact isAgentTurnCoalescibleTextEvent_channelEvent channel lastText
  exact ⟨htext, h.tail tail htail htext⟩

lemma Tracked.accept (hcoal : policy.coalesceText = coalesceAgentTextEvents)
    (h : Tracked firstSeq content state) (hbooked : Booked policy state object next) :
    Tracked firstSeq (overlay next.dirty content) next := by
  cases hbooked with
  | refused _ hnext =>
    subst hnext
    rw [h.overlay_self]
    exact ⟨h.started, h.dirty, h.tail, h.live⟩
  | joined _ marked htail hfu hrew hnextTail hseq hlive =>
    obtain ⟨htext, hmem, hcontent⟩ := h.held_of_fused hcoal htail hfu
    refine h.write hrew.dirty hseq.ge (hseq ▸ hmem) (fun other hoth _ => ?_) fun other event hget => ?_
    · rw [hnextTail] at hoth
      exact .inl (some.inj hoth).symm
    · rw [hlive] at hget
      obtain ⟨-, hnot, hheld⟩ := h.live other event hget
      refine .inr ⟨?_, hget⟩
      rintro rfl
      -- A live snapshot is not the text at the tail.
      rcases hheld with hheld | hheld
      · rw [hcontent, some.injEq] at hheld
        rw [hheld, hnot] at htext
        cases htext
      · rw [hcontent, some.injEq] at hheld
        rw [hheld] at htext
        cases htext
  | renewed seq _ _ hrenew hrew hnextTail hseq hlive =>
    obtain ⟨-, hopen, hprev, hmrg⟩ := hrenew.renews
    refine h.write hrew.dirty hseq.ge (hseq ▸ (h.live _ _ hprev).1)
      (fun tail htail htext => ?_) fun other event hget => ?_
    · rw [hnextTail] at htail
      unfold tailIsText at hopen
      rw [htail, any_some, htext] at hopen
      cases hopen
    · have hwith := hlive other event hget
      rw [get?_withLive] at hwith
      by_cases heq : other = seq
      · rw [if_pos heq, some.injEq] at hwith
        rw [← hwith]
        exact .inl ⟨heq, not_text_of_merged hmrg, .inl rfl⟩
      · rw [if_neg heq] at hwith
        exact .inr ⟨heq, hwith⟩
  | appended _ hrew hnextTail hseq hlive =>
    have hmem : state.nextSeq ∈ Finset.Ico firstSeq next.nextSeq := Finset.mem_Ico.2 ⟨h.started, by omega⟩
    refine h.write hrew.dirty (by omega) hmem (fun other hoth _ => ?_) fun other event hget => ?_
    · rw [hnextTail] at hoth
      exact .inl (some.inj hoth).symm
    · have hwith := hlive other event hget
      have hold (hget : state.live.get? other = some event) : other ≠ state.nextSeq :=
        (Finset.mem_Ico.1 (h.live other event hget).1).2.ne
      unfold withRow at hwith
      split at hwith
      case isTrue hsnap =>
        rw [get?_withLive] at hwith
        by_cases heq : other = state.nextSeq
        · rw [if_pos heq, some.injEq] at hwith
          rw [← hwith]
          exact .inl ⟨heq, not_text_of_snapshot hsnap, .inl rfl⟩
        · rw [if_neg heq] at hwith
          exact .inr ⟨heq, hwith⟩
      case isFalse => exact .inr ⟨hold hwith, hwith⟩

/-- A snapshot would renew a row that has been clipped, and not give back what the row has. -/
def RenewsClipped (policy : AgentTurnWindowPolicy) (content : ℕ → Option AgentTurnEvent)
    (state : WindowState δ) (object : EventObject) : Prop :=
  ∃ seq previous merged, Renewed policy state object seq previous merged ∧
    content seq = some clippedAgentTurnLogRow.event ∧
    policy.eventBytes previous ≠ policy.eventBytes clippedAgentTurnLogRow.event

/-- **An event is counted right unless it renews a clipped row.** -/
theorem drift_eq_iff (hcoal : policy.coalesceText = coalesceAgentTextEvents)
    (h : Tracked firstSeq content state) (hbooked : Booked policy state object next) :
    drift policy firstSeq (overlay next.dirty content) next = drift policy firstSeq content state ↔
      ¬ RenewsClipped policy content state object := by
  have hby {seq} {event} (hcontent : content seq = some event) :
      rowBytes policy content seq = policy.eventBytes event := by
    rw [rowBytes, hcontent]
    rfl
  have hnever (hnone : ∀ seq previous merged, ¬ Renewed policy state object seq previous merged) :
      ¬ RenewsClipped policy content state object := by
    rintro ⟨seq, previous, merged, hrenew, -⟩
    exact hnone seq previous merged hrenew
  cases hbooked with
  | refused hnone hnext =>
    subst hnext
    refine iff_of_true ?_ (hnever hnone)
    rw [h.overlay_self]
    rfl
  | joined hnone marked htail hfu hrew _ hseq _ =>
    obtain ⟨-, hmem, hcontent⟩ := h.held_of_fused hcoal htail hfu
    refine iff_of_true ?_ (hnever hnone)
    rw [drift_of_rewrites h hrew hmem hseq, hby hcontent, sub_self, add_zero]
  | renewed seq previous marked hrenew hrew _ hseq _ =>
    obtain ⟨hmem, -, hheld⟩ := h.live seq previous hrenew.renews.live
    rw [drift_of_rewrites h hrew hmem hseq, add_eq_left, sub_eq_zero]
    constructor
    · rintro heq ⟨seq', previous', merged', hrenew', hclip, hne⟩
      obtain rfl : seq = seq' := some.inj (hrenew.renews.slot.symm.trans hrenew'.renews.slot)
      obtain rfl : previous = previous' := some.inj (hrenew.renews.live.symm.trans hrenew'.renews.live)
      exact hne (heq.symm.trans (hby hclip))
    · intro hnot
      rcases hheld with hheld | hheld
      · exact hby hheld
      · by_contra hne
        refine hnot ⟨seq, previous, _, hrenew, hheld, fun heq => hne ?_⟩
        rw [hby hheld, heq]
  | appended hnone hrew _ hseq _ =>
    exact iff_of_true (drift_of_appended h hrew hseq) (hnever hnone)

lemma clipRow_cases (policy) (state : WindowState δ) (seq : ℕ) :
    (state.clipRow policy seq).1 = state ∨
      ∃ current next, state.dirty.get? seq = some current ∧ (state.clipRow policy seq).1 = next ∧
        Rewrites policy state next seq (policy.eventBytes current.event) clippedAgentTurnLogRow ∧
        next.nextSeq = state.nextSeq ∧ next.live = state.live ∧
        ∀ tail, next.tail = some tail → tail.event = clippedAgentTurnLogRow.event ∨
          state.tail = some tail ∧ tail.seq ≠ seq := by
  unfold clipRow
  cases hget : state.dirty.get? seq with
  | none => exact .inl rfl
  | some current =>
    dsimp only
    split
    · exact .inl rfl
    · refine .inr ⟨current, _, rfl, rfl, ⟨rfl, rfl, rfl⟩, rfl, rfl, fun tail htail => ?_⟩
      obtain ⟨before, hpre, htail⟩ := map_eq_some_iff.1 htail
      split at htail
      case isTrue =>
        subst htail
        exact .inl rfl
      case isFalse hne =>
        subst htail
        exact .inr ⟨hpre, hne⟩

lemma Tracked.clip (h : Tracked firstSeq content state) (hexact : PendingExact policy state) (seq : ℕ) :
    Tracked firstSeq (overlay (state.clipRow policy seq).1.dirty content) (state.clipRow policy seq).1 ∧
      PendingExact policy (state.clipRow policy seq).1 ∧
      drift policy firstSeq (overlay (state.clipRow policy seq).1.dirty content) (state.clipRow policy seq).1
        = drift policy firstSeq content state := by
  rcases clipRow_cases policy state seq with
    hsame | ⟨current, next, hget, hclip, hrew, hseq, hlive, htail⟩
  · rw [hsame, h.overlay_self]
    exact ⟨h, hexact, rfl⟩
  · obtain ⟨hmem, hcontent⟩ := h.dirty seq current hget
    rw [hclip]
    refine ⟨h.write hrew.dirty hseq.ge (hseq ▸ hmem) (fun tail hnextTail htext => ?_)
      fun other event hget => ?_, hrew.pendingExact hexact, ?_⟩
    · rcases htail tail hnextTail with hev | hpre
      · rw [hev] at htext
        cases htext
      · exact .inr hpre
    · rw [hlive] at hget
      by_cases heq : other = seq
      · exact .inl ⟨heq, (h.live other event hget).2.1, .inr rfl⟩
      · exact .inr ⟨heq, hget⟩
    · rw [drift_of_rewrites h hrew hmem hseq, rowBytes, hcontent, map_some, getD_some, sub_self, add_zero]

lemma commitBatch_frame (state : WindowState δ) (batch) :
    ∃ dirty pendingBytes, state.commitBatch policy batch = { state with dirty, pendingBytes } := by
  have hfold : ∀ ops : List AgentTurnLogEntry, ∃ dirty pendingBytes,
      ops.foldl (commitOp policy) state = { state with dirty, pendingBytes } := by
    intro ops
    induction ops using List.reverseRecOn with
    | nil => exact ⟨state.dirty, state.pendingBytes, rfl⟩
    | append_singleton ops op ih =>
      obtain ⟨dirty, pendingBytes, hops⟩ := ih
      rw [foldl_concat, hops]
      unfold commitOp
      cases dirty.get? op.seq with
      | none => exact ⟨dirty, pendingBytes, rfl⟩
      | some current =>
        dsimp only
        split
        · exact ⟨dirty, pendingBytes, rfl⟩
        · exact ⟨_, _, rfl⟩
  obtain ⟨dirty, pendingBytes, hops⟩ := hfold batch.ops
  unfold commitBatch
  dsimp only
  rw [hops]
  split
  · exact ⟨dirty, 0, rfl⟩
  · exact ⟨dirty, pendingBytes, rfl⟩

lemma Tracked.commit (h : Tracked firstSeq content state) (batch) :
    Tracked firstSeq content (state.commitBatch policy batch) ∧
      drift policy firstSeq content (state.commitBatch policy batch) = drift policy firstSeq content state := by
  have hget := @get?_commitBatch _ policy state batch
  obtain ⟨dirty, pendingBytes, hcommit⟩ := @commitBatch_frame _ policy state batch
  rw [hcommit] at hget ⊢
  refine ⟨⟨h.started, fun seq object hobj => h.dirty seq object ?_, h.tail, h.live⟩, rfl⟩
  rcases hget seq with hsame | ⟨hnone, -⟩
  · rw [← hsame]
    exact hobj
  · rw [hnone] at hobj
    cases hobj

variable {foldDigest : δ → List AgentTurnEvent → δ} {given : ℕ → AgentTurnEvent}

/-- No event renews a clipped row, one after the other. -/
def SparesClipped (policy : AgentTurnWindowPolicy) (content : ℕ → Option AgentTurnEvent)
    (state : WindowState δ) : List EventObject → Prop
  | [] => True
  | object :: objects =>
      ¬ RenewsClipped policy content state object ∧
        let next := state.acceptEvent policy object
        SparesClipped policy (overlay next.dirty content) next objects

/-- No event of an action renews a clipped row. -/
def WindowRun.SparesClipped (policy : AgentTurnWindowPolicy) (given : ℕ → AgentTurnEvent)
    (run : WindowRun δ) : WindowAction → Prop
  | .accept objects => TurnLog.SparesClipped policy run.content run.window (objects.map (givenObject given))
  | _ => True

/-- What is true of a window in every run. -/
structure Counted (policy : AgentTurnWindowPolicy) (firstSeq : ℕ) (content : ℕ → Option AgentTurnEvent)
    (state : WindowState δ) : Prop where
  tracked : Tracked firstSeq content state
  pending : PendingExact policy state

lemma Counted.acceptEvent (hcoal : policy.coalesceText = coalesceAgentTextEvents)
    (h : Counted policy firstSeq content state) (object : EventObject) :
    let next := state.acceptEvent policy object
    Counted policy firstSeq (overlay next.dirty content) next ∧
      (drift policy firstSeq (overlay next.dirty content) next = drift policy firstSeq content state ↔
        ¬ RenewsClipped policy content state object) := by
  have hbooked := booked_acceptEvent policy state object
  refine ⟨⟨h.tracked.accept hcoal hbooked, ?_⟩, drift_eq_iff hcoal h.tracked hbooked⟩
  cases hbooked with
  | refused _ hnext =>
    rw [hnext]
    exact h.pending
  | joined _ _ _ _ hrew _ _ _ => exact hrew.pendingExact h.pending
  | renewed _ _ _ _ hrew _ _ _ => exact hrew.pendingExact h.pending
  | appended _ hrew _ _ _ => exact hrew.pendingExact h.pending

lemma overlay_overlay {dirty dirty'}
    (h : ∀ seq, dirty'.get? seq = none → dirty.get? seq = none) (content : ℕ → Option AgentTurnEvent) :
    overlay dirty' (overlay dirty content) = overlay dirty' content := by
  funext seq
  cases hget : dirty'.get? seq with
  | some object => rw [overlay_of_some hget, overlay_of_some hget]
  | none => rw [overlay_of_none hget, overlay_of_none hget, overlay_of_none (h seq hget)]

lemma Counted.acceptEvents (hcoal : policy.coalesceText = coalesceAgentTextEvents)
    (numbers : List ℕ) (h : Counted policy firstSeq content state) :
    let next := (numbers.map (givenObject given)).foldl (WindowState.acceptEvent policy) state
    Counted policy firstSeq (overlay next.dirty content) next ∧
      (TurnLog.SparesClipped policy content state (numbers.map (givenObject given)) →
        drift policy firstSeq (overlay next.dirty content) next = drift policy firstSeq content state) := by
  dsimp only
  induction numbers generalizing state content with
  | nil =>
    rw [map_nil, foldl_nil, h.tracked.overlay_self]
    exact ⟨h, fun _ => rfl⟩
  | cons number numbers ih =>
    obtain ⟨hcnt, hdrift⟩ := h.acceptEvent hcoal (givenObject given number)
    obtain ⟨hlat, hdriftLater⟩ := ih hcnt
    have hkept := (marked_acceptEvents policy (fun digest _ => digest) given
      (state.acceptEvent policy (givenObject given number)) numbers).kept
    have hcontent := overlay_overlay hkept content
    unfold WindowState.acceptEvents at hcontent
    rw [hcontent] at hlat hdriftLater
    exact ⟨hlat, fun hspares => (hdriftLater hspares.2).trans (hdrift.2 hspares.1)⟩

lemma Counted.step (hcoal : policy.coalesceText = coalesceAgentTextEvents) {run : WindowRun δ}
    (h : Counted policy firstSeq run.content run.window) (action) :
    let next := run.step policy foldDigest given action
    Counted policy firstSeq next.content next.window ∧
      (run.SparesClipped policy given action →
        drift policy firstSeq next.content next.window = drift policy firstSeq run.content run.window) := by
  cases action with
  | accept numbers =>
    have hacc := @Counted.acceptEvents _ _ _ _ _ given hcoal numbers h
    obtain ⟨⟨⟨hst, hdrt, htail, hlive⟩, hpend⟩, hdrift⟩ := hacc
    exact ⟨⟨⟨hst, hdrt, htail, hlive⟩, hpend⟩, hdrift⟩
  | take maxOps maxBytes => exact ⟨h, fun _ => rfl⟩
  | commit number =>
    rw [WindowRun.step]
    cases run.taken[number]? with
    | none => exact ⟨h, fun _ => rfl⟩
    | some batch =>
      obtain ⟨htrack, hdrift⟩ := @Tracked.commit _ policy _ _ _ h.tracked batch
      exact ⟨⟨htrack, pendingExact_commitBatch h.pending batch⟩, fun _ => hdrift⟩
  | clip seq =>
    obtain ⟨htrack, hpend, hdrift⟩ := h.tracked.clip h.pending seq
    exact ⟨⟨htrack, hpend⟩, fun _ => hdrift⟩

lemma counted_create (policy) (firstSeq : ℕ) (digest : δ) :
    Counted policy firstSeq (fun _ => none) (.create firstSeq digest) ∧
      drift policy firstSeq (fun _ => none) (.create firstSeq digest) = 0 := by
  refine ⟨⟨⟨le_refl firstSeq, ?_, ?_, ?_⟩, rfl⟩, ?_⟩
  · rintro seq object ⟨⟩
  · rintro tail ⟨⟩
  · rintro seq event ⟨⟩
  · show (0 : ℤ) - ∑ seq ∈ Finset.Ico firstSeq firstSeq, rowBytes policy (fun _ => none) seq = 0
    rw [Finset.Ico_self, Finset.sum_empty, sub_zero]

lemma counted_windowRun (hcoal : policy.coalesceText = coalesceAgentTextEvents) (firstSeq : ℕ)
    (digest : δ) (actions) :
    let run := windowRun policy foldDigest given firstSeq digest actions
    Counted policy firstSeq run.content run.window ∧
      ((∀ before action, before ++ [action] <+: actions →
          (windowRun policy foldDigest given firstSeq digest before).SparesClipped policy given action) →
        drift policy firstSeq run.content run.window = 0) := by
  induction actions using List.reverseRecOn with
  | nil =>
    obtain ⟨hcnt, hdrift⟩ := counted_create policy firstSeq digest
    exact ⟨hcnt, fun _ => hdrift⟩
  | append_singleton actions action ih =>
    obtain ⟨hcnt, hdrift⟩ := ih
    obtain ⟨hnext, hdriftNext⟩ := @Counted.step _ _ _ foldDigest given hcoal _ hcnt action
    rw [windowRun, foldl_concat]
    refine ⟨hnext, fun hspares => (hdriftNext (hspares actions action prefix_rfl)).trans (hdrift ?_)⟩
    exact fun before earlier hpre =>
      hspares before earlier (hpre.trans (prefix_append _ _))

/-- **What a window counts.** The pending bytes are always those of the operations of the dirty
rows. -/
theorem windowRun_bytes (policy : AgentTurnWindowPolicy) (foldDigest : δ → List AgentTurnEvent → δ)
    (given : ℕ → AgentTurnEvent) (firstSeq : ℕ) (digest : δ) (actions : List WindowAction)
    (hcoal : policy.coalesceText = coalesceAgentTextEvents) :
    let run := windowRun policy foldDigest given firstSeq digest actions
    run.window.pendingBytes = run.window.dirtyBytes policy ∧
    ((∀ before action, before ++ [action] <+: actions →
        (windowRun policy foldDigest given firstSeq digest before).SparesClipped policy given action) →
      run.window.totalBytes = run.window.heldBytes policy firstSeq run.content) ∧
    (run.window.totalBytes = run.window.heldBytes policy firstSeq run.content → ∀ number,
      let next := run.step policy foldDigest given (.accept [number])
      next.window.totalBytes = next.window.heldBytes policy firstSeq next.content ↔
        ¬ RenewsClipped policy run.content run.window (givenObject given number)) := by
  obtain ⟨hcount, hdrift⟩ := @counted_windowRun _ _ foldDigest given hcoal firstSeq digest actions
  generalize windowRun policy foldDigest given firstSeq digest actions = run at *
  refine ⟨hcount.pending, fun hspares => sub_eq_zero.1 (hdrift hspares), fun hright number => ?_⟩
  have hnext := (hcount.acceptEvent hcoal (givenObject given number)).2
  rw [show drift policy firstSeq run.content run.window = 0 from sub_eq_zero.2 hright] at hnext
  exact sub_eq_zero.symm.trans hnext

/-- A policy under which a clipped row has fewer bytes than any other. -/
def clippingPolicy : AgentTurnWindowPolicy :=
  { sampleWindowPolicy with eventBytes := fun event => if event = clippedAgentTurnLogRow.event then 4 else 10 }

/-- A text that grows, handed out and stored in between, and is clipped at last. -/
theorem windowRun_bytes_sample :
    let run := windowRun clippingPolicy (fun _ _ => ()) sampleText 1 ()
      [.accept [0], .take 16 4096, .accept [1], .commit 0, .clip 1]
    run.window.pendingBytes = run.window.dirtyBytes clippingPolicy :=
  (windowRun_bytes clippingPolicy (fun _ _ => ()) sampleText 1 ()
    [.accept [0], .take 16 4096, .accept [1], .commit 0, .clip 1] rfl).1

/-- **The total drifts.**  The usage of a child thread is clipped and then renewed: the row has ten bytes
again, but ten were given back for the four that it had. -/
theorem totalBytes_drifts :
    ¬ ∀ (policy : AgentTurnWindowPolicy) (given : ℕ → AgentTurnEvent) (firstSeq : ℕ)
        (actions : List WindowAction), policy.coalesceText = coalesceAgentTextEvents →
      let run := windowRun policy (fun _ _ => ()) given firstSeq () actions
      run.window.totalBytes = run.window.heldBytes policy firstSeq run.content ∧
        run.window.pendingBytes = run.window.dirtyBytes policy := by
  intro h
  have hrun := (h clippingPolicy sampleEvent 1 [.accept [2], .clip 1, .accept [2]] rfl).1
  revert hrun
  decide +kernel

end CodevoEditor.TurnLog
