/-
# The planner and the store agree

Every edit of a plan names events: a copy those of a range of the stored ones, an insertion its
own (`editEvents`).
-/

import CodevoEditor.History.TurnDelta
import Mathlib.Data.List.Induction

namespace CodevoEditor.History

open Js List Option

variable {ι β : Type}

def AgentHistoryEventEdit.isCopy : AgentHistoryEventEdit ι → Bool
  | .copy _ _ => true
  | .insert _ => false

/-- The events that an edit names. -/
def editEvents (base : List ι) : AgentHistoryEventEdit ι → List ι
  | .copy start count => (base.drop start).take count
  | .insert events => events

/-- The edit names events, and these are there. -/
def Fits (base : List ι) : AgentHistoryEventEdit ι → Prop
  | .copy start count => 0 < count ∧ start + count ≤ base.length
  | .insert events => events ≠ []

def planEvents (base : List ι) (edits : List (AgentHistoryEventEdit ι)) : List ι :=
  edits.flatMap (editEvents base)

/-- The stored events that a plan copies. -/
def copiedEvents (base : List ι) (edits : List (AgentHistoryEventEdit ι)) : List ι :=
  planEvents base (edits.filter (·.isCopy))

/-- The events that a plan inserts. -/
def newEvents (base : List ι) (edits : List (AgentHistoryEventEdit ι)) : List ι :=
  planEvents base (edits.filter fun edit => !edit.isCopy)

variable {edit : AgentHistoryEventEdit ι}

lemma Fits.length_pos {base} (h : Fits base edit) : 0 < (editEvents base edit).length := by
  cases edit with
  | copy start count =>
    obtain ⟨hcnt, hle⟩ := h
    rw [editEvents, length_take, length_drop]
    omega
  | insert events => exact length_pos_iff.2 h

variable {edits : List (AgentHistoryEventEdit ι)}

lemma length_le_planEvents {base} (h : ∀ edit ∈ edits, Fits base edit) :
    edits.length ≤ (planEvents base edits).length := by
  induction edits with
  | nil => exact Nat.zero_le _
  | cons edit edits ih =>
    have hpos := (h edit mem_cons_self).length_pos
    have hrest := ih fun other hoth => h other (mem_cons_of_mem _ hoth)
    rw [planEvents, flatMap_cons, length_append, length_cons]
    rw [planEvents] at hrest
    omega

lemma insertEvent_cases (edits) (event : ι) :
    (∃ front events, edits = front ++ [.insert events] ∧
        insertEvent edits event = front ++ [.insert (events ++ [event])]) ∨
      insertEvent edits event = edits ++ [.insert [event]] := by
  unfold insertEvent
  rcases eq_nil_or_concat edits with rfl | ⟨front, last, rfl⟩
  · exact .inr rfl
  · rw [concat_eq_append, getLast?_concat, dropLast_concat]
    cases last with
    | copy start count => exact .inr rfl
    | insert events => exact .inl ⟨front, events, rfl, rfl⟩

lemma copyEvent_cases (edits : List (AgentHistoryEventEdit ι)) (position : ℕ) :
    (∃ front start count, edits = front ++ [.copy start count] ∧ start + count = position ∧
        copyEvent edits position = front ++ [.copy start (count + 1)]) ∨
      copyEvent edits position = edits ++ [.copy position 1] := by
  unfold copyEvent
  rcases eq_nil_or_concat edits with rfl | ⟨front, last, rfl⟩
  · exact .inr rfl
  · rw [concat_eq_append, getLast?_concat, dropLast_concat]
    cases last with
    | copy start count =>
      dsimp only
      split_ifs with hnext
      · exact .inl ⟨front, start, count, rfl, hnext, rfl⟩
      · exact .inr rfl
    | insert events => exact .inr rfl

variable {event : ι}

lemma take_drop_succ {base : List ι} {start count : ℕ} (h : base[start + count]? = some event) :
    (base.drop start).take (count + 1) = (base.drop start).take count ++ [event] := by
  rw [take_add_one, getElem?_drop, h]
  rfl

section Planner

variable {bytes : ι → ℕ} {base : List ι}

/-- What holds of a plan once the events `rows` are planned. -/
structure Planned (bytes : ι → ℕ) (base rows : List ι) (plan : AgentHistoryTurnDeltaPlan ι) :
    Prop where
  baseEventCount : plan.baseEventCount = base.length
  fits : ∀ edit ∈ plan.edits, Fits base edit
  events : planEvents base plan.edits = rows
  retained : plan.retainedBytes = ((copiedEvents base plan.edits).map bytes).sum
  inserted : plan.insertedBytes = ((newEvents base plan.edits).map bytes).sum

variable {plan : AgentHistoryTurnDeltaPlan ι} {rows : List ι}

lemma Planned.insertEvent (h : Planned bytes base rows plan) (event : ι) :
    Planned bytes base (rows ++ [event])
      { plan with
        insertedBytes := plan.insertedBytes + bytes event
        edits := History.insertEvent plan.edits event } := by
  obtain ⟨hcnt, hfits, hevs, hretained, hins⟩ := h
  rcases insertEvent_cases plan.edits event with ⟨front, events, hedits, hnew⟩ | hnew
  · rw [hedits] at hfits hevs hretained hins
    rw [hnew]
    refine ⟨hcnt, ?_, ?_, ?_, ?_⟩
    · intro edit hedit
      rcases mem_append.1 hedit with hedit | hedit
      · exact hfits edit (mem_append_left _ hedit)
      · rw [mem_singleton.1 hedit]
        exact append_ne_nil_of_right_ne_nil _ (cons_ne_nil _ _)
    · rw [← hevs]
      simp [planEvents, editEvents]
    · rw [hretained]
      simp [copiedEvents, planEvents, AgentHistoryEventEdit.isCopy]
    · rw [hins]
      simp [newEvents, planEvents, AgentHistoryEventEdit.isCopy, editEvents, Nat.add_assoc]
  · rw [hnew]
    refine ⟨hcnt, ?_, ?_, ?_, ?_⟩
    · intro edit hedit
      rcases mem_append.1 hedit with hedit | hedit
      · exact hfits edit hedit
      · rw [mem_singleton.1 hedit]
        exact cons_ne_nil _ _
    · rw [← hevs]
      simp [planEvents, editEvents]
    · rw [hretained]
      simp [copiedEvents, planEvents, AgentHistoryEventEdit.isCopy]
    · rw [hins]
      simp [newEvents, planEvents, AgentHistoryEventEdit.isCopy, editEvents]

lemma Planned.copyEvent (h : Planned bytes base rows plan) {position : ℕ}
    (hposn : base[position]? = some event) :
    Planned bytes base (rows ++ [event])
      { plan with
        retainedBytes := plan.retainedBytes + bytes event
        edits := History.copyEvent plan.edits position } := by
  obtain ⟨hcnt, hfits, hevs, hretained, hins⟩ := h
  have hlt : position < base.length := by
    by_contra hge
    rw [getElem?_eq_none (by omega)] at hposn
    cases hposn
  rcases copyEvent_cases plan.edits position with ⟨front, start, count, hedits, rfl, hnew⟩ | hnew
  · have hrun := take_drop_succ hposn
    rw [hedits] at hfits hevs hretained hins
    rw [hnew]
    refine ⟨hcnt, ?_, ?_, ?_, ?_⟩
    · intro edit hedit
      rcases mem_append.1 hedit with hedit | hedit
      · exact hfits edit (mem_append_left _ hedit)
      · rw [mem_singleton.1 hedit]
        exact ⟨Nat.succ_pos _, hlt⟩
    · rw [← hevs]
      simp [planEvents, editEvents, hrun]
    · rw [hretained]
      simp [copiedEvents, planEvents, AgentHistoryEventEdit.isCopy, editEvents, hrun, Nat.add_assoc]
    · rw [hins]
      simp [newEvents, planEvents, AgentHistoryEventEdit.isCopy]
  · have hrun : (base.drop position).take 1 = [event] := by
      rw [take_drop_succ (by exact hposn), take_zero, nil_append]
    rw [hnew]
    refine ⟨hcnt, ?_, ?_, ?_, ?_⟩
    · intro edit hedit
      rcases mem_append.1 hedit with hedit | hedit
      · exact hfits edit hedit
      · rw [mem_singleton.1 hedit]
        exact ⟨Nat.one_pos, hlt⟩
    · rw [← hevs]
      simp [planEvents, editEvents, hrun]
    · rw [hretained]
      simp [copiedEvents, planEvents, AgentHistoryEventEdit.isCopy, editEvents, hrun]
    · rw [hins]
      simp [newEvents, planEvents, AgentHistoryEventEdit.isCopy]

variable [DecidableEq ι]

/-- **A position is one of the object itself.** -/
theorem getElem?_of_positionsOf {position} (h : (positionsOf base).get? event = some position) :
    base[position]? = some event := by
  induction base using List.reverseRecOn with
  | nil => cases h
  | append_singleton base last ih =>
    rw [positionsOf, zipIdx_append, foldl_append] at h
    change ((positionsOf base).set last (0 + base.length)).get? event = some position at h
    rw [OrderedMap.get?_set, Nat.zero_add] at h
    split_ifs at h with hlast
    · rw [← some.inj h, hlast, getElem?_concat_length]
    · have hpre := ih h
      have hlt : position < base.length := by
        by_contra hge
        rw [getElem?_eq_none (by omega)] at hpre
        cases hpre
      rw [getElem?_append_left hlt, hpre]

theorem planned_planEvent (h : Planned bytes base rows plan) (event : ι) :
    Planned bytes base (rows ++ [event]) (planEvent bytes (positionsOf base) plan event) := by
  unfold planEvent
  cases hposn : (positionsOf base).get? event with
  | none => exact h.insertEvent event
  | some position => exact h.copyEvent (getElem?_of_positionsOf hposn)

lemma planned_foldl (bytes : ι → ℕ) (base next : List ι) :
    Planned bytes base next (next.foldl (planEvent bytes (positionsOf base)) ⟨base.length, [], 0, 0⟩) := by
  induction next using List.reverseRecOn with
  | nil =>
    refine ⟨rfl, ?_, rfl, rfl, rfl⟩
    rintro edit ⟨⟩
  | append_singleton next event ih =>
    rw [foldl_concat]
    exact planned_planEvent ih event

/-- **The planner refuses nothing but its limits.** -/
theorem planAgentHistoryTurnDelta_eq_some_iff {next} :
    planAgentHistoryTurnDelta bytes base next = some plan ↔
      (next ≠ [] ∧ base.length ≤ maxPersistedAgentEventsPerTurn ∧ next.length ≤ maxPersistedAgentEventsPerTurn) ∧
      plan = next.foldl (planEvent bytes (positionsOf base)) ⟨base.length, [], 0, 0⟩ := by
  have hplanned := planned_foldl bytes base next
  have hedits := length_le_planEvents hplanned.fits
  rw [hplanned.events] at hedits
  unfold planAgentHistoryTurnDelta
  rw [← length_pos_iff]
  have hlimit : maxAgentHistoryDeltaEdits = maxPersistedAgentEventsPerTurn := rfl
  constructor
  · intro h
    dsimp only at h
    split_ifs at h with hlimits hcnt
    refine ⟨?_, (some.inj h).symm⟩
    omega
  · rintro ⟨⟨hne, hbase, hnext⟩, rfl⟩
    rw [if_neg (by omega), if_neg (by omega)]

end Planner

section Store

variable {stored : ι → β} {base : List ι}

/-- An edit of a plan as the store has read it. -/
inductive Decodes (stored : ι → β) : AgentHistoryEventEdit ι → HistoryEventEdit β → Prop
  | copy (start count : UInt32) : Decodes stored (.copy start.toNat count.toNat) (.copy start count)
  | insert (events : List ι) : Decodes stored (.insert events) (.insert (events.map stored))

lemma decodeU32_of_lt {number} (h : number < 2 ^ 32) :
    ∃ decoded, decodeU32 number = some decoded ∧ decoded.toNat = number := by
  refine ⟨.ofNat number, if_pos h, ?_⟩
  exact Nat.mod_eq_of_lt h

lemma decodes_decodeEdit (stored : ι → β) (hfits : Fits base edit) (hbase : base.length < 2 ^ 32) :
    ∃ decoded, decodeEdit stored edit = some decoded ∧ Decodes stored edit decoded := by
  cases edit with
  | copy start count =>
    obtain ⟨hcnt, hle⟩ := hfits
    obtain ⟨start', hst, rfl⟩ := @decodeU32_of_lt start (by omega)
    obtain ⟨count', hcount', rfl⟩ := @decodeU32_of_lt count (by omega)
    refine ⟨.copy start' count', ?_, .copy start' count'⟩
    rw [decodeEdit, hst, hcount']
    rfl
  | insert events => exact ⟨_, rfl, .insert events⟩

lemma decodes_mapM (stored : ι → β) (hfits : ∀ edit ∈ edits, Fits base edit)
    (hbase : base.length < 2 ^ 32) :
    ∃ decoded, edits.mapM (decodeEdit stored) = some decoded ∧ List.Forall₂ (Decodes stored) edits decoded := by
  induction edits with
  | nil => exact ⟨[], rfl, .nil⟩
  | cons edit edits ih =>
    obtain ⟨first, hfst, hdecodes⟩ := decodes_decodeEdit stored (hfits edit mem_cons_self) hbase
    obtain ⟨rest, hrest, hall⟩ := ih fun other hoth => hfits other (mem_cons_of_mem _ hoth)
    refine ⟨first :: rest, ?_, .cons hdecodes hall⟩
    rw [mapM_cons, hfst, hrest]
    rfl

lemma editSize_of_decodes {decoded} (h : Decodes stored edit decoded)
    (hfits : Fits base edit) :
    editSize decoded = some (editEvents base edit).length := by
  cases h with
  | copy start count =>
    obtain ⟨hcnt, hle⟩ := hfits
    have hpos : 0 < count := UInt32.lt_iff_toNat_lt.2 hcnt
    rw [editSize, if_pos hpos, editEvents, length_take, length_drop, Nat.min_eq_left (by omega)]
  | insert events =>
    have hne : (events.map stored).isEmpty = false := by
      rw [isEmpty_map]
      exact isEmpty_eq_false_iff.2 hfits
    rw [editSize, hne, if_neg Bool.false_ne_true, length_map, editEvents]

variable {decoded : List (HistoryEventEdit β)}

lemma totalEvents_of_decodes (h : List.Forall₂ (Decodes stored) edits decoded)
    (hfits : ∀ edit ∈ edits, Fits base edit) (total : ℕ)
    (hsmall : total + (planEvents base edits).length < 2 ^ 64) :
    totalEvents decoded total = some (total + (planEvents base edits).length) := by
  induction h generalizing total with
  | nil => rfl
  | @cons edit first edits decoded hfst _ ih =>
    rw [planEvents, flatMap_cons, length_append] at hsmall ⊢
    have hrest : totalEvents decoded (total + (editEvents base edit).length) =
        some (total + (editEvents base edit).length + (planEvents base edits).length) := by
      refine ih (fun other hoth => hfits other (mem_cons_of_mem _ hoth)) _ ?_
      rw [planEvents]
      omega
    rw [totalEvents, editSize_of_decodes hfst (hfits edit mem_cons_self), bind_some,
      checkedAdd, if_pos (by omega), bind_some, hrest, planEvents, Nat.add_assoc]

/-- **The store builds the events that are named.** -/
theorem applyEditsFrom_of_decodes (h : List.Forall₂ (Decodes stored) edits decoded)
    (hfits : ∀ edit ∈ edits, Fits base edit) (events : List β) :
    applyEditsFrom (base.map stored) decoded events = some (events ++ (planEvents base edits).map stored) := by
  induction h generalizing events with
  | nil =>
    rw [applyEditsFrom]
    simp [planEvents]
  | @cons edit first edits decoded hfst _ ih =>
    have hrest := ih fun other hoth => hfits other (mem_cons_of_mem _ hoth)
    have hspl : (planEvents base (edit :: edits)).map stored =
        (editEvents base edit).map stored ++ (planEvents base edits).map stored := by
      rw [planEvents, flatMap_cons, map_append]
      rfl
    rw [hspl, ← append_assoc]
    cases hfst with
    | insert inserted => exact hrest _
    | copy start count =>
      obtain ⟨-, hle⟩ := hfits _ mem_cons_self
      have hst := start.toNat_lt
      have hcnt := count.toNat_lt
      have hrng : getRange (base.map stored) start.toNat (start.toNat + count.toNat) =
          some ((editEvents base (.copy start.toNat count.toNat)).map stored) := by
        rw [getRange, if_pos ⟨by omega, by rwa [length_map]⟩, Nat.add_sub_cancel_left, editEvents, map_take, map_drop]
      rw [applyEditsFrom, checkedAdd, if_pos (by omega), bind_some, hrng, bind_some]
      exact hrest _

lemma deltaTurn_of_total {thread : AgentThread β} {turn : AgentTurn β}
    {delta} {total} (hthr : thread.turns = [turn])
    (hturn : turn.events = [])
    (hlen : delta.baseEventsDigest.length = historyEventsDigestHexLength)
    (hdigits : delta.baseEventsDigest.all isHexDigit)
    (hbase : delta.baseEventCount.toNat ≤ maxAgentEventsPerTurn) (hne : delta.edits ≠ [])
    (hedits : delta.edits.length ≤ maxHistoryDeltaEdits)
    (htot : totalEvents delta.edits 0 = some total) (hle : total ≤ maxAgentEventsPerTurn) :
    deltaTurn thread delta = some turn := by
  have hopen : delta.edits.isEmpty = false := isEmpty_eq_false_iff.2 hne
  rw [deltaTurn, hthr]
  dsimp only
  rw [if_neg, htot, bind_some, if_pos hle]
  rw [hturn, hdigits, hopen]
  simp only [isEmpty_nil, not_true_eq_false, Bool.false_eq_true, false_or, not_or, Nat.not_lt, ne_eq, not_not]
  exact ⟨hlen, hbase, hedits⟩

/-- The copies of a delta. -/
def HistoryEventEdit.isCopy : HistoryEventEdit β → Bool
  | .copy _ _ => true
  | .insert _ => false

lemma forall₂_copies (h : List.Forall₂ (Decodes stored) edits decoded) :
    List.Forall₂ (Decodes stored) (edits.filter (·.isCopy)) (decoded.filter (·.isCopy)) := by
  refine rel_filter (fun edit first hfst => ?_) h
  cases hfst <;> rfl

lemma insertedEvents_of_decodes (h : List.Forall₂ (Decodes stored) edits decoded) :
    insertedEvents decoded = (newEvents base edits).map stored := by
  induction h with
  | nil => rfl
  | @cons edit first edits decoded hfst _ ih =>
    unfold insertedEvents at ih ⊢
    rw [flatMap_cons, ih]
    cases hfst with
    | copy start count => rfl
    | insert events =>
      unfold newEvents planEvents
      rw [filter_cons_of_pos rfl, flatMap_cons, map_append]
      rfl

end Store

/-- **The store accepts a plan and builds the next events.** The planner makes a plan for all
events within its limits. -/
theorem plan_accepted_and_applied [DecidableEq ι] (bytes : ι → ℕ) (stored : ι → β)
    (base next : List ι) (thread : AgentThread β) (turn : AgentTurn β) (digest : List UInt8)
    (hthread : thread.turns = [turn]) (hturn : turn.events = [])
    (hlen : digest.length = historyEventsDigestHexLength)
    (hdigits : digest.all isHexDigit) :
    ((planAgentHistoryTurnDelta bytes base next).isSome ↔
      next ≠ [] ∧ base.length ≤ maxPersistedAgentEventsPerTurn ∧ next.length ≤ maxPersistedAgentEventsPerTurn) ∧
    ∀ plan, planAgentHistoryTurnDelta bytes base next = some plan →
      ∃ delta, decodeDelta stored digest plan = some delta ∧
        deltaTurn thread delta = some turn ∧
        delta.baseEventCount.toNat = (base.map stored).length ∧
        applyEdits (base.map stored) delta.edits = some (next.map stored) ∧
        applyEdits (base.map stored) (delta.edits.filter (·.isCopy)) =
          some ((copiedEvents base plan.edits).map stored) ∧
        insertedEvents delta.edits = (newEvents base plan.edits).map stored ∧
        plan.retainedBytes = ((copiedEvents base plan.edits).map bytes).sum ∧
        plan.insertedBytes = ((newEvents base plan.edits).map bytes).sum := by
  have hlimit : maxPersistedAgentEventsPerTurn = 512 := rfl
  constructor
  · rw [isSome_iff_exists]
    constructor
    · rintro ⟨plan, hplan⟩
      exact (planAgentHistoryTurnDelta_eq_some_iff.1 hplan).1
    · exact fun hlimits => ⟨_, planAgentHistoryTurnDelta_eq_some_iff.2 ⟨hlimits, rfl⟩⟩
  intro plan hplan
  obtain ⟨⟨hne, hbase, hnext⟩, hmade⟩ := planAgentHistoryTurnDelta_eq_some_iff.1 hplan
  obtain ⟨hcount, hfits, hevs, hretained, hins⟩ := hmade ▸ planned_foldl bytes base next
  have hedits := length_le_planEvents hfits
  rw [hevs] at hedits
  obtain ⟨count, hcount', hsame⟩ := @decodeU32_of_lt plan.baseEventCount (by omega)
  obtain ⟨edits, hdecoded, hall⟩ := decodes_mapM stored hfits (by omega)
  have htotal := totalEvents_of_decodes hall hfits 0 (by rw [hevs]; omega)
  rw [hevs, Nat.zero_add] at htotal
  have hedits' := hall.length_eq
  have hopen : edits ≠ [] := by
    rintro rfl
    rw [totalEvents, some_inj] at htotal
    exact hne (length_eq_zero_iff.1 htotal.symm)
  refine ⟨⟨count, digest, edits⟩, ?_, ?_, ?_, ?_, ?_, ?_, hretained, hins⟩
  · rw [decodeDelta, hcount', bind_some, hdecoded]
    rfl
  · refine deltaTurn_of_total hthread hturn hlen hdigits ?_ hopen ?_ htotal ?_
    · change count.toNat ≤ 512
      omega
    · change edits.length ≤ 512
      omega
    · change next.length ≤ 512
      omega
  · change count.toNat = (base.map stored).length
    rw [length_map]
    omega
  · rw [applyEdits, applyEditsFrom_of_decodes hall hfits, hevs, nil_append]
  · rw [applyEdits, applyEditsFrom_of_decodes (forall₂_copies hall)
      fun edit hedit => hfits edit (mem_filter.1 hedit).1]
    rfl
  · exact insertedEvents_of_decodes hall

/-- Objects that the store knows by number: one is dropped, one comes twice, one is new. -/
theorem plan_accepted_and_applied_of_repeated :
    ∃ delta, decodeDelta id (List.replicate 64 48)
        ⟨4, [.copy 1 2, .insert [7], .copy 3 1, .copy 1 1], 47, 17⟩ = some delta ∧
      deltaTurn ⟨[⟨"turn", []⟩]⟩ delta = some ⟨"turn", []⟩ ∧
      applyEdits [0, 1, 2, 3] delta.edits = some [1, 2, 7, 3, 1] := by
  obtain ⟨-, h⟩ := plan_accepted_and_applied (fun object : ℕ => 10 + object) id [0, 1, 2, 3]
    [1, 2, 7, 3, 1] ⟨[⟨"turn", []⟩]⟩ ⟨"turn", []⟩ (List.replicate 64 48) rfl rfl (by decide)
    (by decide)
  obtain ⟨delta, hdecoded, hturn, -, happ, -⟩ :=
    h ⟨4, [.copy 1 2, .insert [7], .copy 3 1, .copy 1 1], 47, 17⟩ (by decide)
  exact ⟨delta, hdecoded, hturn, happ⟩

end CodevoEditor.History
