/-
# What accepting an event does

An event is refused, joins the row of the text before it, renews the row of an earlier snapshot
or gets a row of its own (`acceptance_acceptEvent`).
-/

import CodevoEditor.TurnLog.Batches

namespace CodevoEditor.TurnLog

open Js AgentEvents

namespace WindowState

variable {δ : Type} {policy : AgentTurnWindowPolicy}

/-- Nothing but the memory of earlier snapshots has changed. -/
structure Forgets (state next : WindowState δ) : Prop where
  dirty : next.dirty = state.dirty
  tail : next.tail = state.tail
  nextSeq : next.nextSeq = state.nextSeq
  objects : next.objects = state.objects
  kept : next.bounded = false → state.bounded = false ∧ next.live = state.live ∧ next.snapshots = state.snapshots

variable (state : WindowState δ)

lemma Forgets.refl : Forgets state state :=
  ⟨rfl, rfl, rfl, rfl, fun hbd => ⟨hbd, rfl, rfl⟩⟩

lemma trimLive_forgets (seqs : List ℕ) (state : WindowState δ) : Forgets state (state.trimLive policy seqs) := by
  induction seqs generalizing state with
  | nil => exact .refl state
  | cons oldest seqs ih =>
    rw [trimLive]
    split_ifs
    · exact .refl state
    · obtain ⟨hdrt, htail, hseq, hobjs, hkept⟩ :=
        ih { state with live := state.live.delete oldest, bounded := true }
      exact ⟨hdrt, htail, hseq, hobjs, fun hbd => absurd (hkept hbd).1 (by simp)⟩

/-- What a renewed or new snapshot leaves in `live`, unless the window forgets. -/
def withLive (seq : ℕ) (event : AgentTurnEvent) : WindowState δ :=
  { state with live := (state.live.delete seq).set seq event }

variable (seq : ℕ) (event : AgentTurnEvent)

lemma retainLiveSnapshot_forgets : Forgets (state.withLive seq event) (state.retainLiveSnapshot policy seq event) :=
  trimLive_forgets _ _

lemma get?_withLive (other : ℕ) :
    (state.withLive seq event).live.get? other =
      if other = seq then some event else state.live.get? other := by
  unfold withLive
  rw [OrderedMap.get?_set]
  split_ifs with hoth
  · rfl
  · rw [OrderedMap.get?_delete, if_neg hoth]

/-- What a new row leaves in `live`, unless the window forgets. -/
def withRow (seq : ℕ) (event : AgentTurnEvent) : WindowState δ :=
  if isAgentTurnSnapshotEvent event then state.withLive seq event else state

lemma live_withRow_congr {state other : WindowState δ} (h : other.live = state.live) (seq : ℕ)
    (event) : (other.withRow seq event).live = (state.withRow seq event).live := by
  unfold withRow withLive
  split_ifs
  · dsimp only
    rw [h]
  · exact h

lemma trimLive_of_le {state : WindowState δ} (h : state.live.size ≤ policy.maxLiveSnapshots)
    (seqs : List ℕ) : state.trimLive policy seqs = state := by
  cases seqs with
  | nil => rfl
  | cons oldest seqs => rw [trimLive, if_pos h]

lemma retainLiveSnapshot_of_le {state : WindowState δ} {seq : ℕ} {event : AgentTurnEvent}
    (h : (state.withLive seq event).live.size ≤ policy.maxLiveSnapshots) :
    state.retainLiveSnapshot policy seq event = state.withLive seq event :=
  trimLive_of_le h _

lemma trackIdentities_forgets : Forgets state (state.trackIdentities policy event) := by
  unfold trackIdentities
  dsimp only
  split_ifs
  · exact ⟨rfl, rfl, rfl, rfl, fun hbd => ⟨hbd, rfl, rfl⟩⟩
  · exact ⟨rfl, rfl, rfl, rfl, nofun⟩

lemma Forgets.trans {first second third : WindowState δ} (h : Forgets first second)
    (h' : Forgets second third) : Forgets first third := by
  refine ⟨h'.dirty.trans h.dirty, h'.tail.trans h.tail, h'.nextSeq.trans h.nextSeq,
    h'.objects.trans h.objects, fun hbd => ?_⟩
  obtain ⟨hbound', hlive', hsnaps'⟩ := h'.kept hbd
  obtain ⟨hbound'', hlive, hsnaps⟩ := h.kept hbound'
  exact ⟨hbound'', hlive'.trans hlive, hsnaps'.trans hsnaps⟩

/-- An object that a row is marked with: the one that was given or a new one. -/
def Fresh (state next : WindowState δ) (object marked : EventObject) : Prop :=
  marked = object ∨ ∃ number, marked.id = .made number ∧ state.objects ≤ number ∧ number < next.objects

/-- The row `seq` is marked, and holds `event`. -/
structure Marks (state next : WindowState δ) (object : EventObject) (seq : ℕ)
    (event : AgentTurnEvent) : Prop where
  objects : state.objects ≤ next.objects
  dirty : ∃ marked, next.dirty = state.dirty.set seq marked ∧ marked.event = event ∧ Fresh state next object marked

/-- What an event is placed as, and the row it may renew. -/
def placed (object : EventObject) : AgentTurnSnapshotPlacement :=
  state.snapshots.place object.event

/-- The last row is text that may still grow. -/
def tailIsText : Bool :=
  state.tail.any fun tail => isAgentTurnCoalescibleTextEvent tail.event

/-- The row that an event renews, with what is in it and will be. -/
structure Renews (state : WindowState δ) (object : EventObject) (seq : ℕ)
    (previous merged : AgentTurnEvent) : Prop where
  slot : (state.placed object).liveSlot = some seq
  tail : state.tailIsText = false
  live : state.live.get? seq = some previous
  merged : mergeSupersededAgentTurnEvent previous (state.placed object).event = some merged

/-- The text that an event makes of the tail. -/
def joined (policy : AgentTurnWindowPolicy) (state : WindowState δ) (object : EventObject) :
    Option (ℕ × AgentTurnEvent) :=
  state.tail.bind fun tail => (policy.coalesceText tail.event object.event).map (tail.seq, ·)

/-- The ways in which an event is accepted. -/
inductive Acceptance (policy : AgentTurnWindowPolicy) (state : WindowState δ)
    (object : EventObject) (next : WindowState δ) : Prop
  | refused (hover : policy.maxEventBytes < policy.eventBytes object.event ∨
        overOpBound policy state.nextSeq object.event)
      (hnext : next = { state with loss := .supervisorGap })
  | joined {seq : ℕ} {fused : AgentTurnEvent} (hjoined : joined policy state object = some (seq, fused))
      (hmarks : Marks state next object seq fused)
      (htail : next.tail = some ⟨seq, fused⟩) (hnextSeq : next.nextSeq = state.nextSeq)
      (hlive : next.live = state.live) (hsnaps : next.snapshots = state.snapshots)
      (hbound : next.bounded = state.bounded)
  | renewed {seq : ℕ} {previous merged : AgentTurnEvent}
      (hjoined : ∀ join ∈ joined policy state object, overOpBound policy join.1 join.2)
      (hrenews : Renews state object seq previous merged)
      (hmarks : Marks state next object seq merged)
      (htail : next.tail = state.tail) (hnextSeq : next.nextSeq = state.nextSeq)
      (hkept : next.bounded = false → state.bounded = false ∧
        next.snapshots = state.snapshots ∧ next.live = (state.withLive seq merged).live)
      (hbound : (state.withLive seq merged).live.size ≤ policy.maxLiveSnapshots → next.bounded = state.bounded)
  | appended
      (hjoined : ∀ join ∈ joined policy state object, overOpBound policy join.1 join.2)
      (hrenews : ∀ seq previous merged, Renews state object seq previous merged → overOpBound policy seq merged)
      (hmarks : Marks state next object state.nextSeq (state.placed object).event)
      (htail : next.tail = some ⟨state.nextSeq, (state.placed object).event⟩)
      (hnextSeq : next.nextSeq = state.nextSeq + 1)
      (hkept : next.bounded = false → state.bounded = false ∧
        next.snapshots = state.snapshots.adopt (state.placed object).event state.nextSeq ∧
        next.live = (state.withRow state.nextSeq (state.placed object).event).live)
      (hbound : (∀ seq, (state.placed object).liveSlot = some seq → state.tailIsText = false →
          (state.live.get? seq).isSome) →
        (state.withRow state.nextSeq (state.placed object).event).live.size ≤ policy.maxLiveSnapshots →
        (state.identities ∪ (identitiesOf (state.placed object).event).toFinset).card ≤
            policy.maxIdentities → next.bounded = state.bounded)

lemma coalesceIntoTail_eq_none {state : WindowState δ} {object : EventObject}
    (h : state.coalesceIntoTail policy object.event = none) :
    ∀ join ∈ joined policy state object, overOpBound policy join.1 join.2 := by
  intro join hjoin
  obtain ⟨tail, htail, hfu⟩ := Option.bind_eq_some_iff.1 hjoin
  obtain ⟨fused, hjoined, rfl⟩ := Option.map_eq_some_iff.1 hfu
  unfold coalesceIntoTail at h
  rw [htail] at h
  dsimp only at h ⊢
  rw [hjoined] at h
  dsimp only at h
  split_ifs at h with hover
  exact hover

lemma coalesceIntoTail_acceptance {state next : WindowState δ} {object : EventObject}
    (h : state.coalesceIntoTail policy object.event = some next) :
    Acceptance policy state object next := by
  unfold coalesceIntoTail at h
  cases htail : state.tail with
  | none =>
    rw [htail] at h
    cases h
  | some tail =>
    rw [htail] at h
    dsimp only at h
    cases hfu : policy.coalesceText tail.event object.event with
    | none =>
      rw [hfu] at h
      cases h
    | some fused =>
      rw [hfu] at h
      dsimp only at h
      split_ifs at h with hover
      cases h
      have hjoined : joined policy state object = some (tail.seq, fused) := by
        unfold joined
        rw [htail, Option.bind_some, hfu]
        rfl
      refine .joined hjoined ⟨Nat.le_succ _, state.made fused, rfl, rfl, .inr ?_⟩ rfl rfl rfl rfl rfl
      exact ⟨state.objects, rfl, le_rfl, Nat.lt_succ_self _⟩

variable (object : EventObject)

lemma placedObject_event (event) : (state.placedObject object event).event = event := by
  unfold placedObject
  split_ifs with hsame
  · exact hsame.symm
  · rfl

lemma placedObject_fresh (event)
    {next} (hobjs : state.objects < next.objects) :
    Fresh state next object (state.placedObject object event) := by
  unfold placedObject
  split_ifs
  · exact .inl rfl
  · exact .inr ⟨state.objects, rfl, le_rfl, hobjs⟩

variable (placed : EventObject)

lemma mergedObject_event (merged) : (state.mergedObject placed merged).event = merged := by
  unfold mergedObject
  split <;> rfl

lemma mergedObject_cases
    {previous merged}
    (h : mergeSupersededAgentTurnEvent previous placed.event = some merged) :
    state.mergedObject placed merged = placed ∨ state.mergedObject placed merged = state.made merged := by
  obtain ⟨id, event⟩ := placed
  have hsupersedes := mergeSuperseded_eq_some_iff.1 h
  cases hsupersedes with
  | backgroundTask _ => exact .inr rfl
  | subagent _ => exact .inr rfl
  | subagentUsage _ => exact .inl rfl
  | contextUsage _ => exact .inl rfl

/-- What `supersedeInPlace` leaves when it renews a row. -/
def renewRow (policy : AgentTurnWindowPolicy) (state : WindowState δ) (seq : ℕ)
    (previous : AgentTurnEvent) (object : EventObject) : WindowState δ :=
  { state.replaceRow policy seq previous object with
    objects := state.objects + 1 }.retainLiveSnapshot policy seq object.event

lemma supersedeInPlace_true {state next : WindowState δ} {placed : EventObject}
    {liveSlot : Option ℕ} (h : state.supersedeInPlace policy placed liveSlot = (next, true)) :
    ∃ seq previous merged, liveSlot = some seq ∧ state.tailIsText = false ∧
      state.live.get? seq = some previous ∧
      mergeSupersededAgentTurnEvent previous placed.event = some merged ∧
      next = state.renewRow policy seq previous (state.mergedObject placed merged) := by
  unfold supersedeInPlace at h
  split at h
  · cases h
  rename_i seq
  split_ifs at h with htext
  · cases h
  split at h
  · cases h
  rename_i previous hlive
  split at h
  · cases h
  rename_i merged hmrg
  split_ifs at h with hover
  · cases h
  · refine ⟨seq, previous, merged, rfl, Bool.eq_false_iff.2 htext, hlive, hmrg, ?_⟩
    rw [renewRow, mergedObject_event]
    exact (congrArg Prod.fst h).symm

lemma supersedeInPlace_false {state next : WindowState δ} {placed : EventObject}
    {liveSlot : Option ℕ} (h : state.supersedeInPlace policy placed liveSlot = (next, false)) :
    (∀ seq previous merged, liveSlot = some seq → state.tailIsText = false →
      state.live.get? seq = some previous →
        mergeSupersededAgentTurnEvent previous placed.event = some merged → overOpBound policy seq merged) ∧
    ∃ bounded, next = { state with bounded } ∧ (bounded = false → state.bounded = false) ∧
      ((∀ seq, liveSlot = some seq → state.tailIsText = false →
        (state.live.get? seq).isSome) → bounded = state.bounded) := by
  unfold supersedeInPlace at h
  split at h
  · cases h
    exact ⟨fun _ _ _ hslot => (by cases hslot), state.bounded, rfl, id, fun _ => rfl⟩
  rename_i slot
  split_ifs at h with htext
  · cases h
    have hcl : state.tailIsText := htext
    rw [hcl]
    exact ⟨fun _ _ _ _ hopen => (by cases hopen), state.bounded, rfl, id, fun _ => rfl⟩
  split at h
  · rename_i hlive
    cases h
    refine ⟨fun seq previous merged hslot _ hprev => ?_, true, rfl,
      fun hfalse => Bool.noConfusion hfalse, fun hheld => ?_⟩
    · cases hslot
      rw [hlive] at hprev
      cases hprev
    · have hsome := hheld slot rfl (Bool.eq_false_iff.2 htext)
      rw [hlive] at hsome
      cases hsome
  rename_i held hlive
  split at h
  · rename_i hmrg
    cases h
    refine ⟨fun seq previous merged hslot _ hprev hmerge => ?_, state.bounded, rfl, id, fun _ => rfl⟩
    cases hslot
    rw [hlive] at hprev
    cases hprev
    rw [hmrg] at hmerge
    cases hmerge
  rename_i merged' hmrg
  split_ifs at h with hover
  · cases h
    refine ⟨fun seq previous merged hslot _ hprev hmerge => ?_, state.bounded, rfl, id, fun _ => rfl⟩
    cases hslot
    rw [hlive] at hprev
    cases hprev
    rw [hmrg] at hmerge
    cases hmerge
    exact hover
  · cases h

lemma renewRow_spec (policy) (state : WindowState δ) (seq : ℕ)
    (previous : AgentTurnEvent) (object : EventObject) :
    (state.renewRow policy seq previous object).dirty = state.dirty.set seq object ∧
      (state.renewRow policy seq previous object).tail = state.tail ∧
      (state.renewRow policy seq previous object).nextSeq = state.nextSeq ∧
      (state.renewRow policy seq previous object).objects = state.objects + 1 ∧
      ((state.renewRow policy seq previous object).bounded = false → state.bounded = false ∧
        (state.renewRow policy seq previous object).snapshots = state.snapshots ∧
        (state.renewRow policy seq previous object).live = (state.withLive seq object.event).live) ∧
      ((state.withLive seq object.event).live.size ≤ policy.maxLiveSnapshots →
        (state.renewRow policy seq previous object).bounded = state.bounded) := by
  obtain ⟨hdrt, htail, hseq, hobjs, hkept⟩ := @retainLiveSnapshot_forgets _ policy
    { state.replaceRow policy seq previous object with objects := state.objects + 1 } seq object.event
  refine ⟨hdrt, htail, hseq, hobjs, fun hbd => ?_, fun hsize => ?_⟩
  · obtain ⟨hbd, hlive, hsnaps⟩ := hkept hbd
    exact ⟨hbd, hsnaps, hlive⟩
  · have hsize' : (({ state.replaceRow policy seq previous object with
      objects := state.objects + 1 } : WindowState δ).withLive seq object.event).live.size ≤
        policy.maxLiveSnapshots := hsize
    rw [renewRow, retainLiveSnapshot_of_le hsize']
    rfl

/-- A new row before earlier snapshots and identities are counted. -/
def enterRow (policy : AgentTurnWindowPolicy) (state : WindowState δ) (object : EventObject) : WindowState δ :=
  { ({ state with
        nextSeq := state.nextSeq + 1
        tail := some ⟨state.nextSeq, object.event⟩
        totalBytes := state.totalBytes + policy.eventBytes object.event
        }.markDirty policy state.nextSeq object) with
    snapshots := state.snapshots.adopt object.event state.nextSeq }

lemma appendRow_eq (policy) (state : WindowState δ)
    (object : EventObject) :
    state.appendRow policy object =
      (if isAgentTurnSnapshotEvent object.event then
        (state.enterRow policy object).retainLiveSnapshot policy state.nextSeq object.event
      else state.enterRow policy object).trackIdentities policy object.event := rfl

lemma appendRow_spec (policy) (state : WindowState δ)
    (object : EventObject) :
    (state.appendRow policy object).dirty = state.dirty.set state.nextSeq object ∧
      (state.appendRow policy object).tail = some ⟨state.nextSeq, object.event⟩ ∧
      (state.appendRow policy object).nextSeq = state.nextSeq + 1 ∧
      (state.appendRow policy object).objects = state.objects ∧
      ((state.appendRow policy object).bounded = false → state.bounded = false ∧
        (state.appendRow policy object).snapshots = state.snapshots.adopt object.event state.nextSeq ∧
        (state.appendRow policy object).live = (state.withRow state.nextSeq object.event).live) ∧
      ((state.withRow state.nextSeq object.event).live.size ≤ policy.maxLiveSnapshots →
        (state.identities ∪ (identitiesOf object.event).toFinset).card ≤ policy.maxIdentities →
          (state.appendRow policy object).bounded = state.bounded) := by
  rw [appendRow_eq]
  unfold withRow
  have htrack := @trackIdentities_forgets δ policy
  cases isAgentTurnSnapshotEvent object.event with
  | true =>
    have hretained := @retainLiveSnapshot_forgets _ policy (state.enterRow policy object) state.nextSeq object.event
    obtain ⟨hdrt, htail, hseq, hobjs, hkept⟩ := hretained.trans (htrack _ object.event)
    refine ⟨hdrt, htail, hseq, hobjs, fun hbd => ?_, fun hsize hcard => ?_⟩
    · obtain ⟨hbd, hlive, hsnaps⟩ := hkept hbd
      exact ⟨hbd, hsnaps, hlive⟩
    · have hsize' : ((state.enterRow policy object).withLive state.nextSeq object.event).live.size ≤
        policy.maxLiveSnapshots := hsize
      rw [retainLiveSnapshot_of_le hsize', trackIdentities, if_pos (by exact hcard)]
      rfl
  | false =>
    obtain ⟨hdrt, htail, hseq, hobjs, hkept⟩ := htrack (state.enterRow policy object) object.event
    refine ⟨hdrt, htail, hseq, hobjs, fun hbd => ?_, fun hsize hcard => ?_⟩
    · obtain ⟨hbd, hlive, hsnaps⟩ := hkept hbd
      exact ⟨hbd, hsnaps, hlive⟩
    · rw [trackIdentities, if_pos (by exact hcard)]
      rfl

/-- **An event is accepted in one of four ways.** -/
theorem acceptance_acceptEvent (policy) (state : WindowState δ)
    (object : EventObject) : Acceptance policy state object (state.acceptEvent policy object) := by
  unfold acceptEvent
  split_ifs with hby hop
  · exact .refused (.inl hby) rfl
  · exact .refused (.inr hop) rfl
  cases hcoal : state.coalesceIntoTail policy object.event with
  | some next => exact coalesceIntoTail_acceptance hcoal
  | none =>
    have hjoined := coalesceIntoTail_eq_none hcoal
    have hplc : state.snapshots.place object.event = state.placed object := rfl
    unfold placeEvent
    rw [hplc]
    dsimp only
    have hpl := placedObject_event state object (state.placed object).event
    have hnew := @placedObject_fresh _ state object (state.placed object).event
    split
    · rename_i next hsuper
      obtain ⟨seq, previous, merged, hslot, htext, hlive, hmrg, rfl⟩ := supersedeInPlace_true hsuper
      have hobj := mergedObject_cases { state with objects := state.objects + 1 } _ hmrg
      have hev := mergedObject_event { state with objects := state.objects + 1 }
        (state.placedObject object (state.placed object).event) merged
      generalize mergedObject { state with objects := state.objects + 1 }
        (state.placedObject object (state.placed object).event) merged = marked at hobj hev ⊢
      have hrow := renewRow_spec policy { state with objects := state.objects + 1 } seq previous marked
      generalize renewRow policy _ seq previous marked = next at hrow ⊢
      obtain ⟨hdrt, htail, hseq, hobjs, hkept, hopen⟩ := hrow
      have hcnt : next.objects = state.objects + 2 := hobjs
      rw [hev] at hkept hopen
      rw [hpl] at hmrg
      have hrenews : Renews state object seq previous merged := ⟨hslot, htext, hlive, hmrg⟩
      refine .renewed hjoined hrenews ⟨by omega, marked, hdrt, hev, ?_⟩ htail hseq hkept hopen
      rcases hobj with hsame | hmade
      · rw [hsame]
        exact hnew (by omega)
      · exact .inr ⟨state.objects + 1, by rw [hmade]; rfl, by omega, by omega⟩
    · rename_i next hsuper
      obtain ⟨hnone, bounded, rfl, hpre, hheld⟩ := supersedeInPlace_false hsuper
      have hrow := appendRow_spec policy { state with objects := state.objects + 1, bounded }
        (state.placedObject object (state.placed object).event)
      change Acceptance policy state object
        (({ state with objects := state.objects + 1, bounded } : WindowState δ).appendRow policy
          (state.placedObject object (state.placed object).event))
      have hwithRow := @live_withRow_congr δ state
        { state with objects := state.objects + 1, bounded } rfl state.nextSeq (state.placed object).event
      generalize appendRow policy _ _ = next at hrow ⊢
      obtain ⟨hdrt, htail, hseq, hobjs, hkept, hopen⟩ := hrow
      rw [hpl] at htail hkept hopen
      have hcnt : next.objects = state.objects + 1 := hobjs
      refine .appended hjoined ?_ ⟨by omega, _, hdrt, hpl, hnew (by omega)⟩ htail hseq
        (fun hbd => ?_) fun hlive hsize hcard => ?_
      · rintro seq previous merged ⟨hslot, htext, hlive, hmrg⟩
        exact hnone seq previous merged hslot htext hlive (by rw [hpl]; exact hmrg)
      · obtain ⟨hbd, hsnaps, hnextLive⟩ := hkept hbd
        exact ⟨hpre hbd, hsnaps, hnextLive.trans hwithRow⟩
      · rw [← hwithRow] at hsize
        rw [hopen hsize hcard]
        exact hheld hlive

end WindowState

end CodevoEditor.TurnLog
