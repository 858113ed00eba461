/-
# The accounts of the persistence cap

`capAgentThreadForPersistence` works on slots with a running total.
-/

import CodevoEditor.Persistence.PromptClipping
import CodevoEditor.Persistence.TailBoundaries

namespace CodevoEditor.Persistence

open Js AgentEvents Threads List

/-! ### What is left of a slot -/

/-- One of the texts of an event is clipped. -/
def ClipStep (before after : AgentTurnEvent) : Prop :=
  ∃ limitBytes, clipEventText limitBytes before = some after

/-- What is left of an event whose text is clipped any number of times. -/
def Cut (after before : AgentTurnEvent) : Prop := Relation.ReflTransGen ClipStep before after

instance : Std.Refl Cut := ⟨fun _ => .refl⟩

instance : IsTrans AgentTurnEvent Cut := ⟨fun _ _ _ h h' => h'.trans h⟩

/-- A slot for a turn: its bytes are those of its events, which are events of the turn in order, the
same unless it is marked. -/
structure Derived (json : Json) (turn : AgentTurn) (slot : TailSlot) : Prop where
  source_eq : slot.source = turn
  bytes_eq : slot.bytes = persistedAgentEventsBytes json slot.events
  cut : SublistForall₂ Cut slot.events turn.events
  whole : slot.clipped = false → slot.events.Sublist turn.events

/-- What the running total holds besides the slots. -/
def owed (progress : ℤ × List TailSlot) : ℤ := progress.1 - (progress.2.map (·.bytes)).sum

variable {json : Json} {turn : AgentTurn} {slot : TailSlot} {turns : List AgentTurn} {slots slots' : List TailSlot}
  {budgetBytes total : ℤ}

/-- A phase: the slots that it leaves are for the turns, and what it takes from them it takes off
the total. -/
structure Phase (json : Json) (turns : List AgentTurn) (progress next : ℤ × List TailSlot) : Prop where
  derived : Forall₂ (Derived json) turns next.2
  owed_eq : owed next = owed progress

lemma capTurnTail_sublist (events) (budget : AgentTurnTailBudget) :
    (capTurnTail events budget).Sublist events := by
  unfold capTurnTail
  split_ifs
  · exact .refl _
  · exact filterIndex_sublist _ _

lemma derived_openSlot (turn : AgentTurn) : Derived json turn (openSlot json turn) :=
  ⟨rfl, rfl, (capTurnTail_sublist ..).sublistForall₂, fun _ => capTurnTail_sublist ..⟩

lemma Derived.replaceEvents (h : Derived json turn slot) {events} (hsub : events.Sublist slot.events) :
    Derived json turn (replaceEvents json slot events) :=
  ⟨h.source_eq, rfl, IsTrans.trans _ _ _ hsub.sublistForall₂ h.cut, fun hclip => hsub.trans (h.whole hclip)⟩

lemma persistedAgentEventsBytes_cons (event) (events) : persistedAgentEventsBytes json (event :: events) =
    persistedAgentEventBytes json event + persistedAgentEventsBytes json events := by
  rw [persistedAgentEventsBytes, map_cons, sum_cons, persistedAgentEventsBytes]

lemma Phase.cons {left : ℤ} {slot' : TailSlot} {next} (h : Phase json turns (left, slots) next)
    (hslot : Derived json turn slot') (hleft : total - left = slot.bytes - slot'.bytes) :
    Phase json (turn :: turns) (total, slot :: slots) (next.1, slot' :: next.2) := by
  refine ⟨.cons hslot h.derived, ?_⟩
  have howed := h.owed_eq
  simp only [owed, map_cons, sum_cons] at howed ⊢
  omega

/-! ### The phases -/

variable (json budgetBytes) in
lemma shrinkSettled_spec (h : Forall₂ (Derived json) turns slots) (total) :
    Phase json turns (total, slots) (shrinkSettled json budgetBytes total slots) := by
  induction h generalizing total with
  | nil => exact ⟨.nil, rfl⟩
  | @cons turn slot turns slots hslot hsl ih =>
    rw [shrinkSettled]
    split_ifs with hfits hopen
    · exact ⟨.cons hslot hsl, rfl⟩
    · exact (ih total).cons hslot (by omega)
    · exact (ih _).cons (hslot.replaceEvents (filterIndex_sublist _ _)) (sub_sub_cancel _ _)

variable (json budgetBytes) in
lemma retainEvents_spec (guarded : ℕ → Bool) (sacrificePinned : Bool) (total : ℤ) (index : ℕ) (events) :
    (retainEvents json budgetBytes guarded sacrificePinned total index events).2.Sublist events ∧
      (retainEvents json budgetBytes guarded sacrificePinned total index events).1 -
        persistedAgentEventsBytes json
          (retainEvents json budgetBytes guarded sacrificePinned total index events).2 =
        total - persistedAgentEventsBytes json events := by
  induction events generalizing total index with
  | nil => exact ⟨.refl _, rfl⟩
  | cons event events ih =>
    rw [retainEvents, persistedAgentEventsBytes_cons]
    split_ifs
    · obtain ⟨hsub, hby⟩ := ih (total - persistedAgentEventBytes json event) (index + 1)
      refine ⟨hsub.cons _, hby.trans ?_⟩
      push_cast
      omega
    · obtain ⟨hsub, hby⟩ := ih total (index + 1)
      refine ⟨hsub.cons_cons _, ?_⟩
      rw [persistedAgentEventsBytes_cons]
      push_cast
      omega

variable (json budgetBytes) in
lemma dropOldestEvents_spec (sacrificePinned : Bool) (h : Forall₂ (Derived json) turns slots) (total) :
    Phase json turns (total, slots) (dropOldestEvents json budgetBytes sacrificePinned total slots) := by
  induction h generalizing total with
  | nil => exact ⟨.nil, rfl⟩
  | @cons turn slot turns slots hslot hsl ih =>
    rw [dropOldestEvents]
    by_cases hfits : total ≤ budgetBytes
    · rw [if_pos hfits]
      exact ⟨.cons hslot hsl, rfl⟩
    rw [if_neg hfits]
    dsimp only
    generalize (if slots.isEmpty then finalAnswerIndices slot.events else fun _ => false) = guarded
    obtain ⟨hsub, hby⟩ := retainEvents_spec json budgetBytes guarded sacrificePinned total 0 slot.events
    generalize retainEvents json budgetBytes guarded sacrificePinned total 0 slot.events = left at hsub hby ⊢
    have hbooks := hslot.bytes_eq
    split_ifs with hlen
    · rw [hsub.eq_of_length hlen] at hby
      exact (ih left.1).cons hslot (by omega)
    · refine (ih left.1).cons (hslot.replaceEvents hsub) ?_
      simp only [replaceEvents]
      omega

lemma forall₂_set {α β : Type*} {R : α → β → Prop} {xs : List α} {ys : List β} (h : Forall₂ R xs ys)
    {index} {old new} (hget : ys[index]? = some old) (hnew : ∀ x, R x old → R x new) :
    Forall₂ R xs (ys.set index new) := by
  induction h generalizing index with
  | nil => exact .nil
  | cons hhead htail ih =>
    cases index with
    | zero =>
      cases hget
      exact .cons (hnew _ hhead) htail
    | succ index => exact .cons hhead (ih hget)

lemma sum_map_set {α : Type*} (f : α → ℤ) {values : List α} {index} {old} (hget : values[index]? = some old)
    (new) : ((values.set index new).map f).sum = (values.map f).sum - f old + f new := by
  induction values generalizing index with
  | nil => cases hget
  | cons value values ih =>
    cases index with
    | zero =>
      cases hget
      rw [set_cons_zero, map_cons, map_cons, sum_cons, sum_cons]
      omega
    | succ index =>
      rw [set_cons_succ, map_cons, map_cons, sum_cons, sum_cons, ih hget]
      omega

lemma map_set_of_eq {α β : Type*} (f : α → β) {values : List α} {index} {old new}
    (hget : values[index]? = some old) (h : f new = f old) : (values.set index new).map f = values.map f := by
  induction values generalizing index with
  | nil => rfl
  | cons value values ih =>
    cases index with
    | zero =>
      cases hget
      rw [set_cons_zero, map_cons, map_cons, h]
    | succ index => rw [set_cons_succ, map_cons, map_cons, ih hget]

variable (json) in
lemma persistedAgentEventsBytes_set {events} {index} {event} (hget : events[index]? = some event) (clipped) :
    (persistedAgentEventsBytes json (events.set index clipped) : ℤ) = persistedAgentEventsBytes json events -
      persistedAgentEventBytes json event + persistedAgentEventBytes json clipped := by
  have hsum := sum_map_set (fun event => (persistedAgentEventBytes json event : ℤ)) hget clipped
  have hcast (events : List AgentTurnEvent) : (persistedAgentEventsBytes json events : ℤ) =
      (events.map fun event => (persistedAgentEventBytes json event : ℤ)).sum := by
    induction events with
    | nil => rfl
    | cons event events ih =>
      rw [persistedAgentEventsBytes_cons, map_cons, sum_cons, ← ih]
      push_cast
      rfl
  rw [hcast, hcast, hsum]

lemma clipCandidate_spec (limitBytes : ℕ) {progress} (h : Forall₂ (Derived json) turns progress.2) (candidate) :
    Phase json turns progress (clipCandidate json limitBytes progress candidate) ∧
      (clipCandidate json limitBytes progress candidate).2.map (·.events.length) =
        progress.2.map (·.events.length) := by
  unfold clipCandidate
  split
  · exact ⟨⟨h, rfl⟩, rfl⟩
  rename_i slot hslot
  split
  · exact ⟨⟨h, rfl⟩, rfl⟩
  rename_i event hev
  dsimp only
  split_ifs with hsmall
  · exact ⟨⟨h, rfl⟩, rfl⟩
  split
  · exact ⟨⟨h, rfl⟩, rfl⟩
  rename_i clipped hclip
  split_ifs with hgain
  · exact ⟨⟨h, rfl⟩, rfl⟩
  have hby := persistedAgentEventsBytes_set json hev clipped
  refine ⟨⟨forall₂_set h hslot fun turn hturn => ⟨hturn.source_eq, ?_, ?_, nofun⟩, ?_⟩,
    map_set_of_eq _ hslot length_set⟩
  · have hbooks := hturn.bytes_eq
    dsimp only
    omega
  · have hcut : Forall₂ (fun before after => Cut after before) slot.events
        (slot.events.set candidate.index clipped) := by
      refine forall₂_set (forall₂_same.2 fun event _ => .refl) hev fun before hbefore => ?_
      exact hbefore.tail ⟨limitBytes, hclip⟩
    exact IsTrans.trans _ _ _ (sublistForall₂_iff.2 ⟨_, hcut.flip, .refl _⟩) hturn.cut
  · simp only [owed]
    rw [sum_map_set _ hslot]
    dsimp only
    omega

variable (json budgetBytes) in
lemma clipRetainedText_spec (candidates) {progress} (h : Forall₂ (Derived json) turns progress.2) :
    Phase json turns progress (clipRetainedText json budgetBytes candidates progress) ∧
      (clipRetainedText json budgetBytes candidates progress).2.map (·.events.length) =
        progress.2.map (·.events.length) := by
  let Kept (next : ℤ × List TailSlot) := Phase json turns progress next ∧
    next.2.map (·.events.length) = progress.2.map (·.events.length)
  refine foldlRecOn (motive := Kept) _ _ ⟨⟨h, rfl⟩, rfl⟩ fun next hnext tier _ => ?_
  refine foldlRecOn (motive := Kept) _ _ hnext fun next hnext limitBytes _ => ?_
  refine foldlRecOn (motive := Kept) _ _ hnext fun next hnext candidate _ => ?_
  split_ifs
  · exact hnext
  · obtain ⟨⟨hsl, howed⟩, hlens⟩ := clipCandidate_spec limitBytes hnext.1.derived candidate
    exact ⟨⟨hsl, howed.trans hnext.1.owed_eq⟩, hlens.trans hnext.2⟩

/-! ### The events that are sacrificed -/

/-- The places of the events of slots. -/
def cells : ℕ → List TailSlot → List (ℕ × ℕ)
  | _, [] => []
  | position, slot :: slots => (List.range slot.events.length).map (position, ·) ++ cells (position + 1) slots

def key (candidate : SacrificeCandidate) : ℕ × ℕ := (candidate.position, candidate.index)

variable (json) in
/-- The bytes of what is at a place. -/
def weight (slots : List TailSlot) (cell : ℕ × ℕ) : ℕ :=
  ((slots[cell.1]?.bind (·.events[cell.2]?)).map (persistedAgentEventBytes json)).getD 0

lemma le_of_mem_cells {start} {cell} (h : cell ∈ cells start slots) : start ≤ cell.1 := by
  induction slots generalizing start with
  | nil => cases h
  | cons slot slots ih =>
    rcases mem_append.1 h with h | h
    · obtain ⟨index, -, rfl⟩ := mem_map.1 h
      exact le_rfl
    · exact (Nat.le_succ _).trans (ih h)

lemma nodup_cells (start) (slots) : (cells start slots).Nodup := by
  induction slots generalizing start with
  | nil => exact nodup_nil
  | cons slot slots ih =>
    refine Nodup.append (nodup_range.map fun _ _ heq => (Prod.mk.inj heq).2) (ih _) fun cell hcell hrest => ?_
    obtain ⟨index, -, rfl⟩ := mem_map.1 hcell
    exact absurd (le_of_mem_cells hrest) (Nat.not_succ_le_self _)

lemma cells_congr (h : slots.map (·.events.length) = slots'.map (·.events.length)) (start) :
    cells start slots = cells start slots' := by
  induction slots generalizing start slots' with
  | nil =>
    cases slots' with
    | nil => rfl
    | cons slot' slots' => cases h
  | cons slot slots ih =>
    cases slots' with
    | nil => cases h
    | cons slot' slots' =>
      obtain ⟨hlen, hrest⟩ := cons.inj h
      rw [cells, cells, ih hrest, show slot.events.length = slot'.events.length from hlen]

variable (json) in
lemma key_rankSacrifice_perm (slots) : ((rankSacrifice json slots).map key).Perm (cells 0 slots) := by
  have hcells (tier : TailSlot → ℕ → AgentTurnEvent → ℕ → SacrificeTier) (start) (slots : List TailSlot) :
      ((slots.zipIdx start).flatMap fun place => place.1.events.zipIdx.map fun entry =>
        (⟨place.2, entry.2, tier place.1 place.2 entry.1 entry.2, persistedAgentEventBytes json entry.1⟩ :
          SacrificeCandidate)).map key = cells start slots := by
    induction slots generalizing start with
    | nil => rfl
    | cons slot slots ih =>
      rw [zipIdx_cons, flatMap_cons, map_append, ih, cells, range_eq_range', ← zipIdx_map_snd, map_map, map_map]
      rfl
  refine ((mergeSort_perm _ _).map key).trans (.of_eq (hcells (fun slot position event index =>
    sacrificeTier slot event ((if position + 1 = slots.length then finalAnswerIndices slot.events
      else fun _ => false) index)) 0 slots))

lemma keepFrom_eq_self {keep : ℕ → Bool} (h : ∀ index, keep index) (start) (events : List AgentTurnEvent) :
    keepFrom keep start events = events := by
  induction events generalizing start with
  | nil => rfl
  | cons event events ih => rw [keepFrom, if_pos (h _), ih]

variable (json) in
lemma persistedAgentEventsBytes_filterIndex (keep) (events) :
    persistedAgentEventsBytes json (filterIndex keep events) =
      (((List.range events.length).filter keep).map fun index =>
        (events[index]?.map (persistedAgentEventBytes json)).getD 0).sum := by
  rw [filterIndex_eq]
  generalize (List.range events.length).filter keep = indices
  induction indices with
  | nil => rfl
  | cons index indices ih =>
    rw [filterMap_cons, map_cons, sum_cons, ← ih]
    cases events[index]? with
    | none => exact (Nat.zero_add _).symm
    | some event => exact persistedAgentEventsBytes_cons event _

variable (json) in
/-- What `dropSacrificedEvents` makes of a slot. -/
def thinned (keeps : ℕ × ℕ → Bool) (gone : List (ℕ × ℕ)) (position : ℕ) (slot : TailSlot) : TailSlot :=
  if gone.any (·.1 = position) then
    replaceEvents json slot (filterIndex (fun index => keeps (position, index)) slot.events)
  else slot

lemma Derived.thinned (h : Derived json turn slot) (gone) (position) :
    Derived json turn (thinned json (· ∉ gone) gone position slot) ∧
      (thinned json (· ∉ gone) gone position slot).events =
        filterIndex (fun index => (position, index) ∉ gone) slot.events := by
  unfold Persistence.thinned
  split_ifs with hany
  · exact ⟨h.replaceEvents (filterIndex_sublist _ _), rfl⟩
  · refine ⟨h, (keepFrom_eq_self (fun index => ?_) _ _).symm⟩
    rw [decide_eq_true_eq]
    intro hmem
    exact hany (any_eq_true.2 ⟨_, hmem, decide_eq_true rfl⟩)

lemma thinned_spec (gone) (h : Forall₂ (Derived json) turns slots) (start) (all : List TailSlot)
    (hall : ∀ position : ℕ, all[start + position]? = slots[position]?) :
    Forall₂ (Derived json) turns
        ((slots.zipIdx start).map fun place => thinned json (· ∉ gone) gone place.2 place.1) ∧
      (((slots.zipIdx start).map fun place => thinned json (· ∉ gone) gone place.2 place.1).map (·.bytes)).sum =
        (((cells start slots).filter (· ∉ gone)).map (weight json all)).sum := by
  induction h generalizing start with
  | nil => exact ⟨.nil, rfl⟩
  | @cons turn slot turns slots hslot hsl ih =>
    obtain ⟨hrest, hsum⟩ := ih (start + 1) fun position => by
      rw [Nat.add_assoc, Nat.add_comm 1, hall, getElem?_cons_succ]
    obtain ⟨hthin, hevs⟩ := hslot.thinned gone start
    refine ⟨.cons hthin hrest, ?_⟩
    rw [zipIdx_cons, map_cons, map_cons, sum_cons, hsum, hthin.bytes_eq, hevs,
      persistedAgentEventsBytes_filterIndex, cells, filter_append, map_append, sum_append, filter_map, map_map]
    rw [Nat.cast_add]
    congr 2
    refine congrArg sum (map_congr_left fun index _ => ?_)
    rw [Function.comp_apply, weight, ← Nat.add_zero start, hall]
    rfl

lemma sum_weight_cells (h : Forall₂ (Derived json) turns slots) :
    (slots.map (·.bytes)).sum = ((cells 0 slots).map (weight json slots)).sum := by
  obtain ⟨-, hsum⟩ := thinned_spec [] h 0 slots fun position => by rw [Nat.zero_add]
  have hsame : ((slots.zipIdx 0).map fun place => thinned json (· ∉ []) [] place.2 place.1) = slots :=
    zipIdx_map_fst 0 slots
  rw [hsame, filter_eq_self.2 fun cell _ => ?_] at hsum
  · exact hsum
  · exact decide_eq_true not_mem_nil

variable (json budgetBytes) in
lemma sacrificed_spec (slots) (candidates) (total : ℤ) :
    (sacrificed json budgetBytes slots total candidates).Sublist candidates ∧
      (total - ((sacrificed json budgetBytes slots total candidates).map fun candidate =>
          weight json slots (key candidate)).sum ≤ budgetBytes ∨
        ∀ candidate ∈ candidates, candidate ∈ sacrificed json budgetBytes slots total candidates ∨
          weight json slots (key candidate) = 0) := by
  induction candidates generalizing total with
  | nil => exact ⟨.refl _, .inr nofun⟩
  | cons candidate candidates ih =>
    rw [sacrificed]
    split_ifs with hfits
    · refine ⟨nil_sublist _, .inl ?_⟩
      rw [map_nil, sum_nil]
      omega
    cases hev : eventAt slots candidate with
    | none =>
      have hzero : weight json slots (key candidate) = 0 :=
        congrArg (fun found : Option AgentTurnEvent => (found.map (persistedAgentEventBytes json)).getD 0) hev
      obtain ⟨hsub, hrest⟩ := ih total
      exact ⟨hsub.cons _, hrest.imp_right fun hall => forall_mem_cons.2 ⟨.inr hzero, hall⟩⟩
    | some event =>
      have hweight : weight json slots (key candidate) = persistedAgentEventBytes json event :=
        congrArg (fun found : Option AgentTurnEvent => (found.map (persistedAgentEventBytes json)).getD 0) hev
      obtain ⟨hsub, hrest⟩ := ih (total - persistedAgentEventBytes json event)
      refine ⟨hsub.cons_cons _, ?_⟩
      rcases hrest with hrest | hall
      · refine .inl ?_
        rw [map_cons, sum_cons, hweight]
        rw [Nat.cast_add]
        omega
      · exact .inr (forall_mem_cons.2 ⟨.inl mem_cons_self, fun candidate hmem =>
          (hall candidate hmem).imp_left (mem_cons_of_mem _)⟩)

lemma dropSacrificedEvents_spec (h : Forall₂ (Derived json) turns slots) {candidates}
    (hkeys : (candidates.map key).Perm (cells 0 slots)) (hbudget : 0 ≤ budgetBytes)
    (hpaid : total = (slots.map (·.bytes)).sum) :
    Forall₂ (Derived json) turns (dropSacrificedEvents json budgetBytes candidates (total, slots)) ∧
      ((dropSacrificedEvents json budgetBytes candidates (total, slots)).map (·.bytes)).sum ≤ budgetBytes := by
  obtain ⟨hsub, hleft⟩ := sacrificed_spec json budgetBytes slots candidates total
  set gone := (sacrificed json budgetBytes slots total candidates).map key with hgone
  obtain ⟨hsl, hsum⟩ := thinned_spec gone h 0 slots fun position => by rw [Nat.zero_add]
  refine ⟨hsl, (le_of_eq hsum).trans ?_⟩
  have hnd : gone.Nodup := (hkeys.nodup_iff.2 (nodup_cells 0 slots)).sublist (hsub.map key)
  have hperm : ((cells 0 slots).filter (· ∈ gone)).Perm gone := by
    refine (perm_ext_iff_of_nodup ((nodup_cells 0 slots).filter _) hnd).2 fun cell => ?_
    rw [mem_filter, decide_eq_true_eq, and_iff_right_iff_imp]
    exact fun hcell => hkeys.mem_iff.1 ((hsub.map key).subset hcell)
  have hspl := ((filter_append_perm (· ∈ gone) (cells 0 slots)).map (weight json slots)).sum_eq
  rw [map_append, sum_append, (hperm.map _).sum_eq, hgone, map_map, ← hgone] at hspl
  rw [sum_weight_cells h] at hpaid
  have hnot : (fun cell => decide (cell ∉ gone)) = fun cell => !decide (cell ∈ gone) :=
    funext fun cell => decide_not
  rw [hnot]
  rcases hleft with hleft | hall
  · have hcomp : ((sacrificed json budgetBytes slots total candidates).map (weight json slots ∘ key)).sum =
      ((sacrificed json budgetBytes slots total candidates).map fun candidate =>
        weight json slots (key candidate)).sum := rfl
    omega
  · rw [sum_eq_zero fun bytes hmem => ?_]
    · exact hbudget
    obtain ⟨cell, hcell, rfl⟩ := mem_map.1 hmem
    obtain ⟨hcell, hkept⟩ := mem_filter.1 hcell
    obtain ⟨candidate, hcand, rfl⟩ := mem_map.1 (hkeys.mem_iff.2 hcell)
    refine (hall candidate hcand).resolve_left fun hmem => ?_
    rw [Bool.not_eq_true', decide_eq_false_iff_not] at hkept
    exact hkept (mem_map_of_mem hmem)

/-! ### The whole thread -/

lemma fitThreadBudget_spec (h : Forall₂ (Derived json) turns slots) (hbudget : 0 ≤ budgetBytes) :
    Forall₂ (Derived json) turns (fitThreadBudget json slots budgetBytes) ∧
      ((fitThreadBudget json slots budgetBytes).map (·.bytes)).sum ≤ budgetBytes := by
  unfold fitThreadBudget
  dsimp only
  by_cases hfits : (slots.map (·.bytes)).sum ≤ budgetBytes
  · rw [if_pos hfits]
    exact ⟨h, hfits⟩
  rw [if_neg hfits]
  obtain ⟨h₁, howed₁⟩ := shrinkSettled_spec json budgetBytes h (slots.map (·.bytes)).sum
  generalize shrinkSettled json budgetBytes (slots.map (·.bytes)).sum slots = first at h₁ howed₁ ⊢
  obtain ⟨h₂, howed₂⟩ := dropOldestEvents_spec json budgetBytes false h₁ first.1
  generalize dropOldestEvents json budgetBytes false first.1 first.2 = second at h₂ howed₂ ⊢
  obtain ⟨h₃, howed₃⟩ := dropOldestEvents_spec json budgetBytes true h₂ second.1
  generalize dropOldestEvents json budgetBytes true second.1 second.2 = third at h₃ howed₃ ⊢
  have hpaid : owed third = 0 := by
    rw [howed₃]
    exact howed₂.trans (howed₁.trans (sub_self _))
  by_cases hthird : third.1 ≤ budgetBytes
  · rw [if_pos hthird]
    refine ⟨h₃, ?_⟩
    rw [owed] at hpaid
    omega
  rw [if_neg hthird]
  obtain ⟨⟨h₄, howed₄⟩, hlens⟩ := clipRetainedText_spec json budgetBytes (rankSacrifice json third.2) h₃
  generalize clipRetainedText json budgetBytes (rankSacrifice json third.2) third = last at h₄ howed₄ hlens ⊢
  have hlast : last.1 = (last.2.map (·.bytes)).sum := by
    rw [hpaid, owed] at howed₄
    omega
  split_ifs with hfour
  · exact ⟨h₄, hlast ▸ hfour⟩
  · refine dropSacrificedEvents_spec h₄ ?_ hbudget hlast
    rw [cells_congr hlens]
    exact key_rankSacrifice_perm json third.2

lemma releaseTurns_spec (release : AgentTurn → Option (AgentTurn × ℤ)) (scaffold) (turns) :
    Forall₂ (fun before after => after = before ∨ ∃ released, release before = some (after, released)) turns
      (releaseTurns budgetBytes release scaffold turns).1 := by
  induction turns generalizing scaffold with
  | nil => exact .nil
  | cons turn turns ih =>
    rw [releaseTurns]
    split_ifs
    · exact forall₂_same.2 fun turn _ => .inl rfl
    cases hrelease : release turn with
    | none => exact .cons (.inl rfl) (ih scaffold)
    | some smaller => exact .cons (.inr ⟨_, hrelease⟩) (ih (scaffold - smaller.2))

/-- What the cap makes of a turn: events in order, with texts that may be clipped, the same unless
it says that it is truncated; prompt and lifecycle are cut where the log has them. -/
structure Capped (json : Json) (loggedPromptTurnIds : List JsString)
    (loggedLifecycles : OrderedMap JsString AgentSubagentLifecycle) (before after : AgentTurn) : Prop where
  rest : { after with
    prompt := before.prompt
    subagentLifecycle := before.subagentLifecycle
    events := before.events
    eventsTruncated := before.eventsTruncated } = before
  prompt : after.prompt = before.prompt ∨ isTerminalAgentTurnStatus before.status ∧
    before.turnId ∈ loggedPromptTurnIds ∧ clipAgentPromptForPersistence before.prompt = some after.prompt
  lifecycle : after.subagentLifecycle = before.subagentLifecycle ∨ isTerminalAgentTurnStatus before.status ∧
    ∃ lifecycle logged, before.subagentLifecycle = some lifecycle ∧
      loggedLifecycles.get? before.turnId = some logged ∧ json.lifecycle lifecycle = json.lifecycle logged ∧
      after.subagentLifecycle = compactPersistedAgentSubagentLifecycle lifecycle
  events : SublistForall₂ Cut after.events before.events
  whole : after.eventsTruncated = false → after.events = before.events
  truncated : before.eventsTruncated → after.eventsTruncated

lemma Capped.restored {logged lifecycles before after} (h : Capped json logged lifecycles before after) :
    (restorablePrompt after.prompt before.prompt).getD after.prompt = before.prompt := by
  rcases h.prompt with heq | ⟨-, -, hclip⟩
  · rw [heq]
    unfold restorablePrompt restoreAgentPromptFromLog
    dsimp only
    split_ifs <;> rfl
  · unfold clipAgentPromptForPersistence at hclip
    split_ifs at hclip with hlong
    have hfront := clipUtf8Text_prefix before.prompt clippedAgentPromptPrefixBytes
    have hbytes := utf8ByteLength_clipUtf8Text_le before.prompt clippedAgentPromptPrefixBytes
    have hsum := utf8ByteLength_append_le (clipUtf8Text before.prompt clippedAgentPromptPrefixBytes)
      clippedAgentPromptMarker
    have hsome := (restore_body _ before.prompt).trans (if_pos ⟨hfront, by omega⟩)
    rw [← Option.some.inj hclip, restorablePrompt, hsome, agentPromptLooksClipped,
      isSuffixOf_iff_suffix.2 (suffix_append _ _)]
    rfl

lemma events_closeSlot (h : Derived json turn slot) : (closeSlot slot).events = slot.events := by
  unfold closeSlot
  dsimp only
  split_ifs with hintact
  · rw [Bool.and_eq_true, Bool.and_eq_true, decide_eq_true_eq, Bool.not_eq_true'] at hintact
    rw [h.source_eq] at hintact ⊢
    exact ((h.whole hintact.1.1).eq_of_length hintact.1.2).symm
  · rfl

lemma closeSlot_spec (h : Derived json turn slot) :
    { closeSlot slot with events := turn.events, eventsTruncated := turn.eventsTruncated } = turn ∧
      ((closeSlot slot).eventsTruncated = false → slot.events = turn.events) ∧
      (turn.eventsTruncated → (closeSlot slot).eventsTruncated) := by
  obtain rfl := h.source_eq
  unfold closeSlot
  dsimp only
  split_ifs with hintact
  · rw [Bool.and_eq_true, Bool.and_eq_true, decide_eq_true_eq, Bool.not_eq_true'] at hintact
    exact ⟨rfl, fun _ => (h.whole hintact.1.1).eq_of_length hintact.1.2, id⟩
  · refine ⟨rfl, fun hwh => ?_, fun htr => ?_⟩
    · rw [Bool.or_eq_false_iff, Bool.or_eq_false_iff, decide_eq_false_iff_not, not_lt] at hwh
      exact (h.whole hwh.1.2).eq_of_length_le hwh.2
    · rw [htr, Bool.true_or, Bool.true_or]

lemma forall₂_comp {α β γ : Type*} {R : α → β → Prop} {S : β → γ → Prop} {T : α → γ → Prop} {xs ys zs}
    (h : Forall₂ R xs ys) (h' : Forall₂ S ys zs) (hstep : ∀ x y z, R x y → S y z → T x z) :
    Forall₂ T xs zs := by
  induction h generalizing zs with
  | nil =>
    cases h'
    exact .nil
  | cons hhead _ ih =>
    cases h' with
    | cons hhead' htail' => exact .cons (hstep _ _ _ hhead hhead') (ih htail')

lemma sum_closeSlot (h : Forall₂ (Derived json) turns slots) :
    (((slots.map closeSlot).map fun turn => persistedAgentEventsBytes json turn.events).sum : ℤ) =
      (slots.map (·.bytes)).sum := by
  induction h with
  | nil => rfl
  | cons hslot _ ih =>
    rw [map_cons, map_cons, map_cons, sum_cons, sum_cons, ← ih, events_closeSlot hslot, hslot.bytes_eq]
    push_cast
    rfl

lemma compactLoggedLifecycle_eq_some {loggedLifecycles} {before after : AgentTurn} {released}
    (h : compactLoggedLifecycle json loggedLifecycles before = some (after, released)) :
    isTerminalAgentTurnStatus before.status ∧ ∃ lifecycle logged,
      before.subagentLifecycle = some lifecycle ∧ loggedLifecycles.get? before.turnId = some logged ∧
      json.lifecycle lifecycle = json.lifecycle logged ∧
      after = { before with subagentLifecycle := compactPersistedAgentSubagentLifecycle lifecycle } := by
  unfold compactLoggedLifecycle at h
  split_ifs at h with hopen
  split at h
  · rename_i lifecycle logged hlifecycle hlogged
    split_ifs at h with hsame
    split at h
    · cases h
    · rename_i compact hcompact
      dsimp only at h
      split_ifs at h
      cases h
      refine ⟨by simpa using hopen, lifecycle, logged, hlifecycle, hlogged, not_not.1 hsame, ?_⟩
      rw [hcompact]
  · cases h

variable (json budgetBytes) in
lemma compactLoggedLifecycles_spec (thread : AgentThread) (loggedLifecycles) :
    { compactLoggedLifecycles json thread budgetBytes loggedLifecycles with turns := thread.turns } = thread ∧
      Forall₂ (fun before after => after = before ∨
        ∃ released, compactLoggedLifecycle json loggedLifecycles before = some (after, released)) thread.turns
        (compactLoggedLifecycles json thread budgetBytes loggedLifecycles).turns := by
  unfold compactLoggedLifecycles
  split_ifs
  · exact ⟨rfl, forall₂_same.2 fun turn _ => .inl rfl⟩
  · exact ⟨rfl, releaseTurns_spec _ _ _⟩

variable (json budgetBytes) in
lemma clipLoggedPrompts_spec (thread : AgentThread) (loggedPromptTurnIds) :
    { (clipLoggedPrompts json thread budgetBytes loggedPromptTurnIds).thread with turns := thread.turns } = thread ∧
      Forall₂ (fun before after => after = before ∨
        ∃ released, clipLoggedPrompt json loggedPromptTurnIds before = some (after, released)) thread.turns
        (clipLoggedPrompts json thread budgetBytes loggedPromptTurnIds).thread.turns := by
  unfold clipLoggedPrompts
  dsimp only
  split_ifs
  · exact ⟨rfl, forall₂_same.2 fun turn _ => .inl rfl⟩
  · refine ⟨rfl, ?_⟩
    have htrn : thread.turns = thread.turns.dropLast ++ thread.turns.getLast?.toList := by
      cases hlast : thread.turns.getLast? with
      | none => rw [getLast?_eq_none_iff.1 hlast]; rfl
      | some turn => exact (dropLast_append_getLast? turn hlast).symm
    nth_rewrite 1 [htrn]
    exact rel_append (releaseTurns_spec _ _ _) (forall₂_same.2 fun turn _ => .inl rfl)

variable (json budgetBytes) in
lemma projectLogged_spec (thread : AgentThread) (loggedPromptTurnIds) (loggedLifecycles) :
    { (projectLogged json thread budgetBytes loggedPromptTurnIds loggedLifecycles).thread with
      turns := thread.turns } = thread ∧
      Forall₂ (fun before after => Capped json loggedPromptTurnIds loggedLifecycles before after ∧
        after.events = before.events ∧ after.eventsTruncated = before.eventsTruncated) thread.turns
        (projectLogged json thread budgetBytes loggedPromptTurnIds loggedLifecycles).thread.turns := by
  obtain ⟨hthr, hcompact⟩ := compactLoggedLifecycles_spec json budgetBytes thread loggedLifecycles
  obtain ⟨hthread', hclip⟩ := clipLoggedPrompts_spec json budgetBytes
    (compactLoggedLifecycles json thread budgetBytes loggedLifecycles) loggedPromptTurnIds
  refine ⟨?_, forall₂_comp hcompact hclip fun before mid after hmid haft => ?_⟩
  · rw [← hthread'] at hthr
    exact hthr
  have hlife : mid = { before with subagentLifecycle := mid.subagentLifecycle } ∧
      (mid.subagentLifecycle = before.subagentLifecycle ∨ isTerminalAgentTurnStatus before.status ∧
        ∃ lifecycle logged, before.subagentLifecycle = some lifecycle ∧
          loggedLifecycles.get? before.turnId = some logged ∧ json.lifecycle lifecycle = json.lifecycle logged ∧
          mid.subagentLifecycle = compactPersistedAgentSubagentLifecycle lifecycle) := by
    rcases hmid with rfl | ⟨released, hmid⟩
    · exact ⟨rfl, .inl rfl⟩
    · obtain ⟨hterm, lifecycle, logged, hlife, hlog, hsame, rfl⟩ := compactLoggedLifecycle_eq_some hmid
      exact ⟨rfl, .inr ⟨hterm, lifecycle, logged, hlife, hlog, hsame, rfl⟩⟩
  have hprompt : after = { mid with prompt := after.prompt } ∧ (after.prompt = mid.prompt ∨
      isTerminalAgentTurnStatus mid.status ∧ mid.turnId ∈ loggedPromptTurnIds ∧
        clipAgentPromptForPersistence mid.prompt = some after.prompt) := by
    rcases haft with rfl | ⟨released, haft⟩
    · exact ⟨rfl, .inl rfl⟩
    · unfold clipLoggedPrompt isClippablePromptTurn at haft
      split_ifs at haft with hopen
      rw [Bool.not_eq_true', Bool.not_eq_false, Bool.and_eq_true, Bool.and_eq_true, decide_eq_true_eq] at hopen
      obtain ⟨prompt, hclip, haft⟩ := Option.map_eq_some_iff.1 haft
      cases haft
      exact ⟨rfl, .inr ⟨hopen.1.1, hopen.1.2, hclip⟩⟩
  obtain ⟨hmid, hlife⟩ := hlife
  obtain ⟨haft, hprompt⟩ := hprompt
  generalize mid.subagentLifecycle = lifecycle at hmid hlife
  generalize after.prompt = prompt at haft hprompt
  subst hmid haft
  exact ⟨⟨rfl, hprompt, hlife, (Sublist.refl _).sublistForall₂, fun _ => rfl, id⟩, rfl, rfl⟩

/-- **The persistence cap keeps to its budget and invents nothing**: the events that are kept fit in
what the scaffold leaves, and the rest is as it was but for what is clipped, marked or logged; the
log gives back every prompt. -/
theorem capAgentThreadForPersistence_spec (json : Json) (thread : AgentThread) (eventBudgetBytes : ℤ)
    (loggedPromptTurnIds : List JsString) (loggedLifecycles : OrderedMap JsString AgentSubagentLifecycle) :
    let capped := capAgentThreadForPersistence json thread eventBudgetBytes loggedPromptTurnIds loggedLifecycles
    ((capped.turns.map fun turn => persistedAgentEventsBytes json turn.events).sum : ℤ) ≤ max (eventBudgetBytes -
        (projectLogged json thread eventBudgetBytes loggedPromptTurnIds loggedLifecycles).scaffoldBytes) 0 ∧
      { capped with turns := thread.turns } = thread ∧
      Forall₂ (fun before after => Capped json loggedPromptTurnIds loggedLifecycles before after ∧
        (restorablePrompt after.prompt before.prompt).getD after.prompt = before.prompt)
        thread.turns capped.turns := by
  obtain ⟨hthr, hlogged⟩ := projectLogged_spec json eventBudgetBytes thread loggedPromptTurnIds loggedLifecycles
  unfold capAgentThreadForPersistence
  dsimp only
  generalize projectLogged json thread eventBudgetBytes loggedPromptTurnIds loggedLifecycles = projection
    at hthr hlogged ⊢
  have hopen : Forall₂ (Derived json) projection.thread.turns (projection.thread.turns.map (openSlot json)) :=
    forall₂_map_right_iff.2 (forall₂_same.2 fun turn _ => derived_openSlot turn)
  obtain ⟨hsl, hsum⟩ := fitThreadBudget_spec hopen (le_max_right (eventBudgetBytes - projection.scaffoldBytes) 0)
  generalize fitThreadBudget json (projection.thread.turns.map (openSlot json))
    (max (eventBudgetBytes - projection.scaffoldBytes) 0) = slots at hsl hsum ⊢
  refine ⟨?_, hthr, ?_⟩
  · rw [sum_closeSlot hsl]
    exact hsum
  · refine forall₂_map_right_iff.2 (forall₂_comp hlogged hsl fun before mid slot hbefore hslot => ?_)
    obtain ⟨hbefore, hevs, htr⟩ := hbefore
    obtain ⟨hmid, hwh, hmark⟩ := closeSlot_spec hslot
    have hprompt : (closeSlot slot).prompt = mid.prompt := congrArg (·.prompt) hmid
    have hlife : (closeSlot slot).subagentLifecycle = mid.subagentLifecycle :=
      congrArg (·.subagentLifecycle) hmid
    suffices hcapped : Capped json loggedPromptTurnIds loggedLifecycles before (closeSlot slot) from
      ⟨hcapped, hcapped.restored⟩
    refine ⟨?_, hprompt ▸ hbefore.prompt, hlife ▸ hbefore.lifecycle, ?_, ?_, ?_⟩
    · have hrest := hbefore.rest
      rw [← hmid] at hrest
      exact hrest
    · rw [events_closeSlot hslot, ← hevs]
      exact hslot.cut
    · rw [events_closeSlot hslot, ← hevs]
      exact hwh
    · rw [← htr]
      exact hmark

end CodevoEditor.Persistence
