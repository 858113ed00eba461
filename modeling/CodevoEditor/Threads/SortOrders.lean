/-
# Threads sorted by hand, with exact sort orders

The planner of `src/domain/agentThreadOrganization.ts` with rationals for its doubles: in each case
one segment of the intended order is numbered, above all in front of it and below all behind.
-/

import CodevoEditor.Js.Sorting
import CodevoEditor.Threads.Organization
import Mathlib.Data.Rat.Floor

namespace CodevoEditor.Threads
namespace Exact

open Js List Option

/-- A thread, with a rational for its sort order. -/
structure PlacedThread where
  thread : AgentThread
  sortOrder : Option ℚ

namespace PlacedThread

def threadId (placed : PlacedThread) : JsString := placed.thread.threadId

def withOrder (placed : PlacedThread) (sortOrder : ℚ) : PlacedThread :=
  { placed with sortOrder := some sortOrder }

end PlacedThread

/-! ### The planner -/

def compareAgentThreadOrder (localeCompare : JsString → JsString → Ordering) (left right : PlacedThread) : Ordering :=
  let leftManual := left.sortOrder.isSome
  let rightManual := right.sortOrder.isSome
  if leftManual ≠ rightManual then if leftManual then .gt else .lt
  else
    let difference := left.sortOrder.getD 0 - right.sortOrder.getD 0
    if difference < 0 then .lt
    else if 0 < difference then .gt
    else
      (compare right.thread.updatedAtEpochMs left.thread.updatedAtEpochMs).then
        (localeCompare left.threadId right.threadId)

def validThreadSortOrder (value : ℚ) : Bool := |value| ≤ maxSafeInteger

def validSortOrderOrNull (value : ℚ) : Option ℚ :=
  if validThreadSortOrder value then some value else none

def sortOrderBetween (previous next : Option ℚ) : Option ℚ :=
  match previous, next with
  | none, none => some 0
  | none, some next => validSortOrderOrNull (next - 1)
  | some previous, none => validSortOrderOrNull (previous + 1)
  | some previous, some next =>
      let integer : ℚ := ⌊previous / 2 + next / 2⌋
      if previous < integer ∧ integer < next then some integer
      else
        let fraction := previous + (next - previous) / 2
        if previous < fraction ∧ fraction < next then validSortOrderOrNull fraction else none

structure AgentThreadSortOrderAssignment where
  threadId : JsString
  sortOrder : ℚ

/-- `threads.map((thread, index) => ({ threadId, sortOrder: number(index) }))`. -/
def numbered (number : ℕ → ℚ) (threads : List PlacedThread) : List AgentThreadSortOrderAssignment :=
  threads.mapIdx fun index placed => ⟨placed.threadId, number index⟩

def renumberFrom (ordered : List PlacedThread) (position : ℕ) : List AgentThreadSortOrderAssignment :=
  let start :=
    match ordered.findIdx? (·.sortOrder.isSome) with
    | none => position
    | some firstManual => min position firstManual
  numbered (fun index => index) (ordered.drop start)

def numberThrough (ordered : List PlacedThread) (position : ℕ) : List AgentThreadSortOrderAssignment :=
  let firstManual := ((ordered.drop (position + 1)).findIdx? (·.sortOrder.isSome)).map (· + (position + 1))
  let stop := firstManual.getD ordered.length
  let count := stop - position
  let base : ℚ := (firstManual.bind fun index => ordered[index]?.bind (·.sortOrder)).getD count
  let assignments := numbered (fun index => base - count + index) ((ordered.take stop).drop position)
  if assignments.all fun assignment => validThreadSortOrder assignment.sortOrder then assignments
  else renumberFrom ordered position

def minimalSortOrderPlan (ordered : List PlacedThread) (position : ℕ) : List AgentThreadSortOrderAssignment :=
  match ordered[position]? with
  | none => []
  | some moved =>
      let next := ordered[position + 1]?
      if next.any fun next => next.sortOrder.isNone then numberThrough ordered position
      else
        let previous := if position = 0 then none else ordered[position - 1]?
        match sortOrderBetween (previous.bind (·.sortOrder)) (next.bind (·.sortOrder)) with
        | none => renumberFrom ordered position
        | some value => [⟨moved.threadId, value⟩]

/-- The threads of one owner and section. -/
def peer (now : ℤ) (moved placed : PlacedThread) : Bool :=
  sameThreadOrganizationOwner placed.thread.owner moved.thread.owner &&
    threadSection placed.thread now = threadSection moved.thread now

def agentThreadReorderPlan (localeCompare : JsString → JsString → Ordering)
    (threads : List PlacedThread) (threadId targetThreadId : JsString)
    (placement : AgentThreadPlacement) (now : ℤ) : List AgentThreadSortOrderAssignment :=
  if threadId = targetThreadId ∨ !validThreadOrganizationValue (some now) then []
  else
    match threads.find? (·.threadId = threadId), threads.find? (·.threadId = targetThreadId) with
    | some moved, some target =>
        if !sameThreadOrganizationOwner moved.thread.owner target.thread.owner ||
            threadSection moved.thread now ≠ threadSection target.thread now then []
        else
          let remaining := sort (compareAgentThreadOrder localeCompare) (threads.filter fun placed =>
            placed.threadId ≠ threadId && peer now moved placed)
          let position := remaining.findIdx (·.threadId = targetThreadId) +
            if placement = .after then 1 else 0
          minimalSortOrderPlan (remaining.take position ++ [moved] ++ remaining.drop position) position
    | _, _ => []

/-- A thread after a plan. -/
def PlacedThread.assigned (plan : List AgentThreadSortOrderAssignment) (placed : PlacedThread) : PlacedThread :=
  match plan.find? (·.threadId = placed.threadId) with
  | none => placed
  | some assignment => placed.withOrder assignment.sortOrder

/-- How two sort orders compare, and what comes after them where they agree. -/
def compareSortOrders (left right : Option ℚ) (rest : Ordering) : Ordering :=
  if left.isSome ≠ right.isSome then if left.isSome then .gt else .lt
  else
    let difference := left.getD 0 - right.getD 0
    if difference < 0 then .lt else if 0 < difference then .gt else rest

/-- A sort order that is missing is below all others. -/
def placeOf (sortOrder : Option ℚ) : WithBot ℚ := sortOrder

@[simp] lemma placeOf_none : placeOf none = ⊥ := rfl

variable (value : ℚ)

@[simp] lemma placeOf_some : placeOf (some value) = (value : WithBot ℚ) := rfl

lemma compareSortOrders_ne_gt_iff (left right) (rest : Ordering) :
    compareSortOrders left right rest ≠ .gt ↔
      placeOf left < placeOf right ∨ placeOf left = placeOf right ∧ rest ≠ .gt := by
  cases left with
  | none =>
    cases right with
    | none => simp [compareSortOrders]
    | some right => exact iff_of_true (by simp [compareSortOrders]) (.inl (WithBot.bot_lt_coe right))
  | some left =>
    cases right with
    | none => simp [compareSortOrders]
    | some right =>
      rw [placeOf_some, placeOf_some, WithBot.coe_lt_coe, WithBot.coe_inj]
      simp only [compareSortOrders, isSome_some, ne_eq, not_true_eq_false, if_false, getD_some, sub_neg, sub_pos]
      rcases lt_trichotomy left right with hbelow | rfl | habove
      · rw [if_pos hbelow]
        exact iff_of_true (by simp) (.inl hbelow)
      · simp
      · rw [if_neg habove.not_gt, if_pos habove]
        refine iff_of_false (by simp) ?_
        rintro (hbelow | ⟨hsame, -⟩)
        · exact lt_asymm hbelow habove
        · exact habove.ne' hsame

/-- What threads are sorted by: their sort order, then the newest first, then their ids. -/
def rankOf {β : Type} (collation : JsString → β) (placed : PlacedThread) : WithBot ℚ ×ₗ ℤᵒᵈ ×ₗ β :=
  toLex (placeOf placed.sortOrder, toLex (OrderDual.toDual placed.thread.updatedAtEpochMs, collation placed.threadId))

section

variable {β : Type} [LinearOrder β] {localeCompare : JsString → JsString → Ordering} {collation : JsString → β}

lemma compares_compareAgentThreadOrder (h : Compares localeCompare collation) :
    Compares (compareAgentThreadOrder localeCompare) (rankOf collation) := by
  intro left right
  unfold rankOf
  rw [Prod.Lex.toLex_le_toLex, Prod.Lex.toLex_le_toLex, OrderDual.toDual_lt_toDual, OrderDual.toDual_inj,
    ← h left.threadId right.threadId, eq_comm (a := left.thread.updatedAtEpochMs), ← then_ne_gt_iff]
  exact compareSortOrders_ne_gt_iff left.sortOrder right.sortOrder _

end

variable {number : ℕ → ℚ} {front middle rear : List PlacedThread} {placed : PlacedThread}

variable (plan : List AgentThreadSortOrderAssignment)

@[simp] lemma threadId_assigned (placed : PlacedThread) : (placed.assigned plan).threadId = placed.threadId := by
  unfold PlacedThread.assigned
  split <;> rfl

lemma find?_numbered (hids : (middle.map (·.threadId)).Nodup) {index}
    (hget : middle[index]? = some placed) :
    (numbered number middle).find? (·.threadId = placed.threadId) = some ⟨placed.threadId, number index⟩ := by
  unfold numbered
  induction middle generalizing number index with
  | nil => cases hget
  | cons first middle ih =>
    obtain ⟨hfst, hids⟩ := nodup_cons.1 hids
    rw [mapIdx_cons]
    cases index with
    | zero =>
      obtain rfl := some.inj hget
      exact find?_cons_of_pos (by simp)
    | succ index =>
      have hmem : placed ∈ middle := mem_of_getElem? (i := index) hget
      rw [find?_cons_of_neg]
      · exact @ih (fun index => number (index + 1)) hids index hget
      · rw [decide_eq_true_iff]
        intro heq
        exact hfst (mem_map.2 ⟨placed, hmem, heq.symm⟩)

lemma assigned_eq_self (h : ∀ other ∈ middle, other.threadId ≠ placed.threadId) :
    placed.assigned (numbered number middle) = placed := by
  have hnone : (numbered number middle).find? (·.threadId = placed.threadId) = none := by
    refine find?_eq_none.2 fun assignment hmem => ?_
    obtain ⟨index, hlt, rfl⟩ := mem_mapIdx.1 hmem
    rw [decide_eq_true_iff]
    exact h _ (getElem_mem hlt)
  unfold PlacedThread.assigned
  rw [hnone]

lemma map_assigned_eq_self {others : List PlacedThread}
    (h : ∀ placed ∈ others, ∀ other ∈ middle, other.threadId ≠ placed.threadId) :
    others.map (·.assigned (numbered number middle)) = others :=
  (map_congr_left fun placed hmem => assigned_eq_self (h placed hmem)).trans (map_id _)

lemma map_assigned_segment (hids : ((front ++ middle ++ rear).map (·.threadId)).Nodup) :
    (front ++ middle ++ rear).map (·.assigned (numbered number middle)) =
      front ++ (middle.mapIdx fun index placed => placed.withOrder (number index)) ++ rear := by
  rw [map_append, map_append] at hids
  obtain ⟨hleft, -, hrear⟩ := nodup_append.1 hids
  obtain ⟨-, hmid, hfr⟩ := nodup_append.1 hleft
  rw [map_append, map_append]
  congr 1
  · congr 1
    · exact map_assigned_eq_self fun placed hmem other hoth heq =>
        hfr _ (mem_map_of_mem hmem) _ (mem_map_of_mem hoth) heq.symm
    · refine ext_getElem? fun index => ?_
      rw [getElem?_map, getElem?_mapIdx]
      cases hget : middle[index]? with
      | none => rfl
      | some placed =>
        rw [map_some, map_some, PlacedThread.assigned, find?_numbered hmid hget]
  · exact map_assigned_eq_self fun placed hmem other hoth heq =>
      hrear _ (mem_append_right _ (mem_map_of_mem hoth)) _ (mem_map_of_mem hmem) heq

/-- A segment is numbered upwards, above what is in front of it and below what is behind. -/
structure Segment (front middle rear : List PlacedThread) (number : ℕ → ℚ) : Prop where
  ascending : StrictMono number
  above : ∀ placed ∈ front, placeOf placed.sortOrder < number 0
  below : ∀ placed ∈ rear, ∀ index < middle.length, (number index : WithBot ℚ) < placeOf placed.sortOrder

section

variable {β : Type} [LinearOrder β] {localeCompare : JsString → JsString → Ordering} {collation : JsString → β}
  {stand : JsString → ℕ}

/-- Two threads are in order, or alike and as they stand. -/
def Standing (collation : JsString → β) (stand : JsString → ℕ) (left right : PlacedThread) : Prop :=
  toLex (rankOf collation left, stand left.threadId) ≤ toLex (rankOf collation right, stand right.threadId)

lemma standing_of_lt {left right} (h : placeOf left.sortOrder < placeOf right.sortOrder) :
    Standing collation stand left right :=
  (Prod.Lex.toLex_lt_toLex.2 (.inl (Prod.Lex.toLex_lt_toLex.2 (.inl h)))).le

theorem Segment.sort_eq (h : Segment front middle rear number) (hlocale : Compares localeCompare collation)
    {items}
    (hstand : items.Pairwise fun left right => stand left.threadId < stand right.threadId)
    (hperm : (front ++ middle ++ rear).Perm items) (houter : (front ++ rear).Pairwise (Standing collation stand)) :
    sort (compareAgentThreadOrder localeCompare) (items.map (·.assigned (numbered number middle))) =
      (front ++ middle ++ rear).map (·.assigned (numbered number middle)) := by
  have hids : ((front ++ middle ++ rear).map (·.threadId)).Nodup := by
    refine (hperm.map _).nodup_iff.2 (pairwise_map.2 (hstand.imp fun hlt heq => ?_))
    rw [heq] at hlt
    exact lt_irrefl _ hlt
  have hplc : (items.map (·.assigned (numbered number middle))).Pairwise fun left right =>
      stand left.threadId < stand right.threadId := by
    rw [pairwise_map]
    simpa only [threadId_assigned] using hstand
  refine sort_eq_of_standing (compares_compareAgentThreadOrder hlocale) hplc (hperm.map _) ?_
  obtain ⟨hfr, hrear, houter⟩ := pairwise_append.1 houter
  have hpl {index : ℕ} {placed : PlacedThread}
      (hmem : placed ∈ middle.mapIdx fun index placed => placed.withOrder (number index)) :
      ∃ index < middle.length, placeOf placed.sortOrder = number index := by
    obtain ⟨index, hlt, rfl⟩ := mem_mapIdx.1 hmem
    exact ⟨index, hlt, rfl⟩
  rw [map_assigned_segment hids]
  refine pairwise_append.2 ⟨pairwise_append.2 ⟨hfr, ?_, ?_⟩, hrear, ?_⟩
  · refine pairwise_iff_getElem.2 fun index later hidx hlat hlt => standing_of_lt ?_
    rw [getElem_mapIdx, getElem_mapIdx]
    exact WithBot.coe_lt_coe.2 (h.ascending hlt)
  · intro left hleft right hrt
    obtain ⟨index, -, hidx⟩ := @hpl 0 _ hrt
    refine standing_of_lt (hidx ▸ (h.above left hleft).trans_le ?_)
    exact WithBot.coe_le_coe.2 (h.ascending.monotone (Nat.zero_le index))
  · intro left hleft right hrt
    rcases mem_append.1 hleft with hleft | hleft
    · exact houter left hleft right hrt
    · obtain ⟨index, hlt, hidx⟩ := @hpl 0 _ hleft
      exact standing_of_lt (hidx ▸ h.below right hrt index hlt)

end

lemma sortOrderBetween_spec {previous next} {value}
    (h : sortOrderBetween previous next = some value) :
    placeOf previous < value ∧ ∀ bound, next = some bound → value < bound := by
  have hval {value'} (hvalue : validSortOrderOrNull value' = some value) : value' = value := by
    unfold validSortOrderOrNull at hvalue
    split at hvalue
    · exact some.inj hvalue
    · cases hvalue
  cases previous with
  | none =>
    refine ⟨WithBot.bot_lt_coe value, ?_⟩
    rintro bound rfl
    rw [← hval h]
    linarith
  | some previous =>
    rw [placeOf_some, WithBot.coe_lt_coe]
    cases next with
    | none =>
      refine ⟨?_, nofun⟩
      rw [← hval h]
      linarith
    | some next =>
      simp only [sortOrderBetween] at h
      split at h
      case isTrue hint =>
        rw [← some.inj h]
        exact ⟨hint.1, fun bound hbd => some.inj hbd ▸ hint.2⟩
      case isFalse =>
        split at h
        case isTrue hfraction =>
          rw [← hval h]
          exact ⟨hfraction.1, fun bound hbd => some.inj hbd ▸ hfraction.2⟩
        case isFalse => cases h

lemma numbered_singleton (moved) (value : ℚ) :
    numbered (fun index => value + index) [moved] = [⟨moved.threadId, value⟩] := by
  simp [numbered]

lemma strictMono_add : StrictMono fun index : ℕ => value + index :=
  fun _ _ hlt => by simpa using hlt

lemma placeOf_of_isNone {sortOrder} (h : sortOrder.isSome = false) : placeOf sortOrder = ⊥ := by
  cases sortOrder with
  | none => rfl
  | some => cases h

/-- What a plan does to the intended order. -/
def Plans (before after : List PlacedThread) (moved : PlacedThread)
    (plan : List AgentThreadSortOrderAssignment) : Prop :=
  ∃ front middle rear number, plan = numbered number middle ∧ before ++ moved :: after = front ++ middle ++ rear ∧
    (front ++ rear).Sublist (before ++ after) ∧ Segment front middle rear number

lemma renumberFrom_plans (before after) (moved) :
    Plans before after moved (renumberFrom (before ++ moved :: after) before.length) := by
  obtain ⟨start, hst, hplan, hnone⟩ : ∃ start ≤ before.length,
      renumberFrom (before ++ moved :: after) before.length =
        numbered (fun index => index) ((before ++ moved :: after).drop start) ∧
      ∀ placed ∈ before.take start, placed.sortOrder.isSome = false := by
    unfold renumberFrom
    cases hfst : (before ++ moved :: after).findIdx? (·.sortOrder.isSome) with
    | none =>
      refine ⟨before.length, le_rfl, rfl, fun placed hmem => ?_⟩
      exact Bool.eq_false_iff.2 fun hsome => by
        have := findIdx?_eq_none_iff.1 hfst placed (mem_append_left _ (mem_of_mem_take hmem))
        rw [hsome] at this
        cases this
    | some first =>
      refine ⟨min before.length first, min_le_left _ _, rfl, fun placed hmem => ?_⟩
      obtain ⟨index, hlt, rfl⟩ := mem_take_iff_getElem.1 hmem
      obtain ⟨hbd, -, hpre⟩ := findIdx?_eq_some_iff_getElem.1 hfst
      have := hpre index (by omega)
      rw [getElem_append_left (by omega)] at this
      exact Bool.eq_false_iff.2 this
  have hfr : (before ++ moved :: after).take start = before.take start := take_append_of_le_length hst
  refine ⟨before.take start, _, [], _, hplan, ?_, ?_, ⟨Nat.strictMono_cast, fun placed hmem => ?_, fun _ hmem =>
    absurd hmem not_mem_nil⟩⟩
  · rw [append_nil, ← hfr, take_append_drop]
  · rw [append_nil]
    exact (take_sublist start before).trans (sublist_append_left _ _)
  · rw [placeOf_of_isNone (hnone placed hmem)]
    exact WithBot.bot_lt_coe _

/-- Sort orders that do not fall. -/
def Ascending (threads : List PlacedThread) : Prop :=
  threads.Pairwise fun left right => placeOf left.sortOrder ≤ placeOf right.sortOrder

lemma numberThrough_cases (ordered) (position : ℕ) :
    numberThrough ordered position = renumberFrom ordered position ∨
      numberThrough ordered position =
        let firstManual := ((ordered.drop (position + 1)).findIdx? (·.sortOrder.isSome)).map (· + (position + 1))
        let stop := firstManual.getD ordered.length
        let base : ℚ := (firstManual.bind fun index => ordered[index]?.bind (·.sortOrder)).getD (stop - position : ℕ)
        numbered (fun index => base - (stop - position : ℕ) + index) ((ordered.take stop).drop position) := by
  unfold numberThrough
  dsimp only
  split
  · exact .inr rfl
  · exact .inl rfl

lemma numberThrough_plans {before after} (moved) {next}
    (hsort : Ascending (before ++ next :: after)) (hnext : next.sortOrder = none) :
    Plans before (next :: after) moved (numberThrough (before ++ moved :: next :: after) before.length) := by
  obtain ⟨-, haft, hcross⟩ := pairwise_append.1 hsort
  have hnone : ∀ placed ∈ before, placeOf placed.sortOrder = ⊥ := by
    intro placed hmem
    have hle := hcross placed hmem next mem_cons_self
    rw [hnext] at hle
    exact le_bot_iff.1 hle
  have hdrop : (before ++ moved :: next :: after).drop (before.length + 1) = next :: after := by
    simp
  rcases numberThrough_cases (before ++ moved :: next :: after) before.length with hplan | hplan
  · rw [hplan]
    exact renumberFrom_plans before (next :: after) moved
  have habove (value : ℚ) : ∀ placed ∈ before, placeOf placed.sortOrder < value := fun placed hmem => by
    rw [hnone placed hmem]
    exact WithBot.bot_lt_coe _
  rw [hdrop] at hplan
  cases hfst : (next :: after).findIdx? (·.sortOrder.isSome) with
  | none =>
    rw [hfst, map_none] at hplan
    dsimp only [getD_none, bind_none] at hplan
    rw [take_length, drop_left] at hplan
    refine ⟨before, _, [], _, hplan, (append_nil _).symm, ?_, strictMono_add _, habove _, fun _ hmem =>
      absurd hmem not_mem_nil⟩
    rw [append_nil]
    exact sublist_append_left _ _
  | some first =>
    obtain ⟨hlt, hmanual, -⟩ := findIdx?_eq_some_iff_getElem.1 hfst
    obtain ⟨base, hbase⟩ := isSome_iff_exists.1 hmanual
    have hbaseAt : ((before ++ moved :: next :: after)[first + (before.length + 1)]?.bind (·.sortOrder)) =
        some base := by
      rw [Nat.add_comm, ← getElem?_drop, hdrop, getElem?_eq_getElem hlt]
      exact hbase
    have hmid : ((before ++ moved :: next :: after).take (first + (before.length + 1))).drop before.length =
        moved :: (next :: after).take first := by
      rw [drop_take, drop_left, show first + (before.length + 1) - before.length = first + 1 by omega]
      rfl
    rw [hfst, map_some] at hplan
    dsimp only [getD_some, bind_some] at hplan
    rw [hbaseAt, hmid, getD_some,
      show first + (before.length + 1) - before.length = first + 1 by omega] at hplan
    refine ⟨before, _, (next :: after).drop first, _, hplan, ?_, (drop_sublist first _).append_left before,
      strictMono_add _, habove _, fun placed hmem index hidx => ?_⟩
    · rw [append_assoc, cons_append, take_append_drop]
    · have hge : (base : WithBot ℚ) ≤ placeOf placed.sortOrder := by
        obtain ⟨offset, hoffset, rfl⟩ := mem_drop_iff_getElem.1 hmem
        rcases Nat.eq_zero_or_pos offset with rfl | hpos
        · exact (congrArg placeOf hbase).ge
        · have := pairwise_iff_getElem.1 haft first (first + offset) hlt (by omega) (by omega)
          rw [hbase] at this
          exact this
      refine lt_of_lt_of_le (WithBot.coe_lt_coe.2 ?_) hge
      rw [length_cons, length_take] at hidx
      have hcast : (index : ℚ) < (first + 1 : ℕ) := by
        exact_mod_cast (by omega : index < first + 1)
      linarith

/-- **A plan numbers one segment of the intended order.** -/
theorem minimalSortOrderPlan_plans {before after} (moved)
    (hsort : Ascending (before ++ after)) :
    Plans before after moved (minimalSortOrderPlan (before ++ moved :: after) before.length) := by
  have hmov : (before ++ moved :: after)[before.length]? = some moved := by simp
  have hnext : (before ++ moved :: after)[before.length + 1]? = after.head? := by
    rw [getElem?_append_right (by omega), show before.length + 1 - before.length = 0 + 1 by omega,
      getElem?_cons_succ, head?_eq_getElem?]
  have hprev : (if before.length = 0 then none else (before ++ moved :: after)[before.length - 1]?) =
      before.getLast? := by
    split
    case isTrue hnil => rw [length_eq_zero_iff.1 hnil, getLast?_nil]
    case isFalse hpos => rw [getElem?_append_left (by omega), getLast?_eq_getElem?]
  have hsingle {value} (hbetween : sortOrderBetween (before.getLast?.bind (·.sortOrder))
      (after.head?.bind (·.sortOrder)) = some value)
      (hmanual : ∀ next ∈ after.head?, next.sortOrder.isSome) :
      Plans before after moved [⟨moved.threadId, value⟩] := by
    obtain ⟨habove, hbelow⟩ := sortOrderBetween_spec hbetween
    obtain ⟨hpre, haft, -⟩ := pairwise_append.1 hsort
    refine ⟨before, [moved], after, fun index => value + index, (numbered_singleton moved value).symm, ?_,
      .refl _, ⟨strictMono_add value, fun placed hmem => ?_, fun placed hmem index hidx => ?_⟩⟩
    · rw [append_assoc, singleton_append]
    · rcases eq_nil_or_concat before with rfl | ⟨front, last, rfl⟩
      · cases hmem
      · rw [concat_eq_append] at hmem hpre habove
        rw [getLast?_concat, bind_some] at habove
        rw [add_comm, Nat.cast_zero, zero_add]
        rcases mem_append.1 hmem with hfr | hlast
        · exact ((pairwise_append.1 hpre).2.2 placed hfr last mem_cons_self).trans_lt habove
        · exact mem_singleton.1 hlast ▸ habove
    · cases after with
      | nil => cases hmem
      | cons next after =>
        obtain ⟨bound, hbd⟩ := isSome_iff_exists.1 (hmanual next rfl)
        have hge : (bound : WithBot ℚ) ≤ placeOf placed.sortOrder := by
          have hself : placeOf next.sortOrder = bound := congrArg placeOf hbd
          rcases mem_cons.1 hmem with rfl | hmem
          · exact hself.ge
          · exact hself ▸ (pairwise_cons.1 haft).1 placed hmem
        obtain rfl : index = 0 := by simpa using hidx
        rw [Nat.cast_zero, add_zero]
        exact (WithBot.coe_lt_coe.2 (hbelow bound hbd)).trans_le hge
  unfold minimalSortOrderPlan
  rw [hmov]
  dsimp only
  rw [hnext, hprev]
  split
  case isTrue hmiss =>
    cases after with
    | nil => cases hmiss
    | cons next after => exact numberThrough_plans moved hsort (isNone_iff_eq_none.1 hmiss)
  case isFalse hmanual =>
    cases hbetween : sortOrderBetween (before.getLast?.bind (·.sortOrder)) (after.head?.bind (·.sortOrder)) with
    | none => exact renumberFrom_plans before after moved
    | some value =>
      refine hsingle hbetween fun next hhead => ?_
      rw [mem_def.1 hhead, any_some] at hmanual
      exact isSome_iff_ne_none.2 fun hnone => hmanual (isNone_iff_eq_none.2 hnone)

lemma sameThreadOrganizationOwner_comm (left right) :
    sameThreadOrganizationOwner left right = sameThreadOrganizationOwner right left := by
  unfold sameThreadOrganizationOwner
  simp only [eq_comm]

lemma thread_assigned (placed : PlacedThread) : (placed.assigned plan).thread = placed.thread := by
  unfold PlacedThread.assigned
  split <;> rfl

section

variable {β : Type} [LinearOrder β] {localeCompare : JsString → JsString → Ordering} {collation : JsString → β}
  {threads : List PlacedThread} {moved target : PlacedThread} {now : ℤ}

lemma find?_threadId (hids : (threads.map (·.threadId)).Nodup) (hmem : placed ∈ threads) :
    threads.find? (·.threadId = placed.threadId) = some placed := by
  cases hget : threads.find? (·.threadId = placed.threadId) with
  | none =>
    have := find?_eq_none.1 hget placed hmem
    exact absurd (decide_eq_true rfl) this
  | some other =>
    have hsame : other.threadId = placed.threadId := by simpa using find?_some hget
    rw [inj_on_of_nodup_map hids (mem_of_find?_eq_some hget) hmem hsame]

/-- Where a thread stands in the list. -/
def standOf (threads : List PlacedThread) (threadId : JsString) : ℕ :=
  (threads.map (·.threadId)).idxOf threadId

lemma pairwise_standOf (hids : (threads.map (·.threadId)).Nodup) :
    threads.Pairwise fun left right => standOf threads left.threadId < standOf threads right.threadId := by
  have hat {index} (hlt : index < threads.length) : standOf threads threads[index].threadId = index := by
    have hbd : index < (threads.map (·.threadId)).length := by rwa [length_map]
    have hget : threads[index].threadId = (threads.map (·.threadId))[index] := by rw [getElem_map]
    rw [standOf, hget]
    exact hids.idxOf_getElem index hbd
  refine pairwise_iff_getElem.2 fun index later hidx hlat hlt => ?_
  rw [hat hidx, hat hlat]
  exact hlt

/-- The threads that the moved one goes among, in order. -/
def remainingThreads (localeCompare : JsString → JsString → Ordering) (threads : List PlacedThread)
    (moved : PlacedThread) (now : ℤ) : List PlacedThread :=
  (sort (compareAgentThreadOrder localeCompare) (threads.filter (peer now moved))).filter
    (·.threadId ≠ moved.threadId)

lemma agentThreadReorderPlan_eq (hlocale : Compares localeCompare collation)
    (hids : (threads.map (·.threadId)).Nodup) (hmov : moved ∈ threads) (htarg : target ∈ threads)
    (hne : moved.threadId ≠ target.threadId) (hnow : validThreadOrganizationValue (some now))
    (hpeer : peer now moved target) (placement) :
    let remaining := remainingThreads localeCompare threads moved now
    let position := remaining.findIdx (·.threadId = target.threadId) + if placement = .after then 1 else 0
    agentThreadReorderPlan localeCompare threads moved.threadId target.threadId placement now =
      minimalSortOrderPlan (remaining.take position ++ [moved] ++ remaining.drop position) position := by
  have hrest : remainingThreads localeCompare threads moved now =
      sort (compareAgentThreadOrder localeCompare) (threads.filter fun placed =>
        placed.threadId ≠ moved.threadId && peer now moved placed) := by
    rw [remainingThreads, ← sort_filter (compares_compareAgentThreadOrder hlocale)
      ((pairwise_standOf hids).filter _), List.filter_filter]
  obtain ⟨howner, hsection⟩ := Bool.and_eq_true_iff.1 hpeer
  dsimp only
  rw [hrest, agentThreadReorderPlan, if_neg, find?_threadId hids hmov, find?_threadId hids htarg]
  · dsimp only
    rw [sameThreadOrganizationOwner_comm, howner, of_decide_eq_true hsection]
    simp
  · simp [hne, hnow]

lemma remainingThreads_standing (hlocale : Compares localeCompare collation)
    (hids : (threads.map (·.threadId)).Nodup) :
    (remainingThreads localeCompare threads moved now).Pairwise (Standing collation (standOf threads)) :=
  (pairwise_sort_standing (compares_compareAgentThreadOrder hlocale) ((pairwise_standOf hids).filter _)).filter _

lemma placeOf_le_of_standing {stand : JsString → ℕ} {left right}
    (h : Standing collation stand left right) : placeOf left.sortOrder ≤ placeOf right.sortOrder :=
  Prod.Lex.monotone_fst _ _ (Prod.Lex.monotone_fst _ _ h)

lemma placed_beside {remaining : List PlacedThread} (htarg : target ∈ remaining)
    (hids : (remaining.map (·.threadId)).Nodup) (placement : AgentThreadPlacement) :
    let position := remaining.findIdx (·.threadId = target.threadId) + if placement = .after then 1 else 0
    position ≤ remaining.length ∧
      match placement with
      | .before => (remaining.drop position).head? = some target
      | .after => (remaining.take position).getLast? = some target := by
  have hlt : remaining.findIdx (·.threadId = target.threadId) < remaining.length :=
    findIdx_lt_length_of_exists ⟨target, htarg, by simp⟩
  have hsame := findIdx_getElem (w := hlt)
  have hget : remaining[remaining.findIdx (·.threadId = target.threadId)] = target :=
    inj_on_of_nodup_map hids (getElem_mem hlt) htarg (of_decide_eq_true hsame)
  cases placement with
  | before =>
    refine ⟨hlt.le, ?_⟩
    rw [if_neg nofun, Nat.add_zero, head?_drop, getElem?_eq_getElem hlt, hget]
  | after =>
    refine ⟨hlt, ?_⟩
    rw [if_pos rfl, getLast?_take, if_neg (Nat.succ_ne_zero _), Nat.add_sub_cancel, getElem?_eq_getElem hlt, hget]
    rfl

/-- **The plan reaches the intended order**: the threads that there were in their order, with the
moved one directly before or behind the target. -/
theorem reordered_spec (hlocale : Compares localeCompare collation)
    (hids : (threads.map (·.threadId)).Nodup) (hmoved : moved ∈ threads) (htarg : target ∈ threads)
    (hne : moved.threadId ≠ target.threadId) (hnow : validThreadOrganizationValue (some now))
    (hpeer : peer now moved target) (placement : AgentThreadPlacement) :
    let plan := agentThreadReorderPlan localeCompare threads moved.threadId target.threadId placement now
    let order := sort (compareAgentThreadOrder localeCompare)
    ∃ before after,
      (order (threads.filter (peer now moved))).filter (·.threadId ≠ moved.threadId) = before ++ after ∧
      (match placement with
        | .before => after.head? = some target
        | .after => before.getLast? = some target) ∧
      order ((threads.map (·.assigned plan)).filter (peer now moved)) =
        (before ++ moved :: after).map (·.assigned plan) := by
  have hsub : (threads.filter (peer now moved)).Sublist threads := filter_sublist
  have hperm := sort_perm (compareAgentThreadOrder localeCompare) (threads.filter (peer now moved))
  have hpeers : (threads.filter (peer now moved)).Nodup := (Nodup.of_map _ hids).sublist hsub
  have hrest : (remainingThreads localeCompare threads moved now).Perm
      ((threads.filter (peer now moved)).filter (·.threadId ≠ moved.threadId)) := hperm.filter _
  have hremainingIds : ((remainingThreads localeCompare threads moved now).map (·.threadId)).Nodup :=
    (hrest.map _).nodup_iff.2 (hids.sublist ((filter_sublist.trans hsub).map _))
  have hmem : target ∈ remainingThreads localeCompare threads moved now := by
    rw [hrest.mem_iff, mem_filter, mem_filter, decide_eq_true_iff]
    exact ⟨⟨htarg, hpeer⟩, hne.symm⟩
  obtain ⟨hposn, hbeside⟩ := placed_beside hmem hremainingIds placement
  have hplan := agentThreadReorderPlan_eq hlocale hids hmoved htarg hne hnow hpeer placement
  dsimp only at hplan ⊢
  set remaining := remainingThreads localeCompare threads moved now
  set position := remaining.findIdx (·.threadId = target.threadId) + if placement = .after then 1 else 0
  have hwhole : remaining = remaining.take position ++ remaining.drop position :=
    (take_append_drop position remaining).symm
  have hstanding : remaining.Pairwise (Standing collation (standOf threads)) := remainingThreads_standing hlocale hids
  have hasc : Ascending (remaining.take position ++ remaining.drop position) := by
    rw [← hwhole]
    exact hstanding.imp placeOf_le_of_standing
  obtain ⟨front, middle, rear, number, hnum, hsegs, houter, hseg⟩ :=
    minimalSortOrderPlan_plans moved hasc
  rw [append_assoc, singleton_append] at hplan
  rw [length_take, min_eq_left hposn, ← hplan] at hnum
  refine ⟨remaining.take position, remaining.drop position, hwhole, hbeside, ?_⟩
  have hassigned : (threads.map (·.assigned (numbered number middle))).filter (peer now moved) =
      (threads.filter (peer now moved)).map (·.assigned (numbered number middle)) := by
    rw [List.filter_map]
    congr 1
    refine filter_congr fun placed _ => ?_
    show peer now moved (placed.assigned _) = _
    unfold peer
    rw [thread_assigned]
  rw [hnum, hassigned, hsegs]
  refine hseg.sort_eq hlocale ((pairwise_standOf hids).sublist hsub) ?_ ?_
  · rw [← hsegs]
    refine perm_middle.trans ?_
    rw [← hwhole]
    refine (hrest.cons moved).trans ((perm_ext_iff_of_nodup ?_ hpeers).2 fun placed => ?_)
    · exact nodup_cons.2 ⟨fun hin => of_decide_eq_true (mem_filter.1 hin).2 rfl, hpeers.filter _⟩
    · rw [mem_cons, mem_filter, decide_eq_true_iff]
      have hown : moved ∈ threads.filter (peer now moved) :=
        mem_filter.2 ⟨hmoved, by simp [peer, sameThreadOrganizationOwner]⟩
      constructor
      · rintro (rfl | ⟨hin, -⟩)
        · exact hown
        · exact hin
      · intro hin
        by_cases hsame : placed.threadId = moved.threadId
        · exact .inl (inj_on_of_nodup_map (hids.sublist (hsub.map _)) hin hown hsame)
        · exact .inr ⟨hin, hsame⟩
  · rw [← hwhole] at houter
    exact hstanding.sublist houter

end

/-- A thread of one owner; a pinned one is in another section. -/
def sampleThread (threadId : String) (pinned : Bool) (sortOrder : Option ℚ) : PlacedThread where
  thread :=
    { threadId := js threadId, owner := ⟨js "root", js "owner", js "/"⟩, target := ⟨.inPlace, none⟩
      provider := ⟨.claudeCode, none⟩, title := [], pinned := pinned, archived := false, createdAtEpochMs := 0
      updatedAtEpochMs := 0, turns := [], turnsTruncated := false, integration := none
      viewedAtEpochMs := none, externalOrigin := none }
  sortOrder := sortOrder

def sampleThreads : List PlacedThread :=
  [sampleThread "moved" false none, sampleThread "pinned" true (some (9 / 2)),
    sampleThread "target" false (some 5)]

theorem reordered_spec_sample :
    let plan := agentThreadReorderPlan compareText sampleThreads (js "moved") (js "target") .before 0
    ∃ before after,
      (sort (compareAgentThreadOrder compareText) (sampleThreads.filter
        (peer 0 (sampleThread "moved" false none)))).filter (·.threadId ≠ js "moved") = before ++ after ∧
      after.head? = some (sampleThread "target" false (some 5)) ∧
      sort (compareAgentThreadOrder compareText) ((sampleThreads.map (·.assigned plan)).filter
          (peer 0 (sampleThread "moved" false none))) =
        (before ++ sampleThread "moved" false none :: after).map (·.assigned plan) :=
  @reordered_spec _ _ _ units sampleThreads (sampleThread "moved" false none) (sampleThread "target" false (some 5))
    0 (compares_text id) (by decide +kernel) (.head _) (.tail _ (.tail _ (.head _))) (by decide +kernel)
    (by decide) (by decide +kernel) .before

/-- A thread of another section stays between the moved one and the target. -/
theorem reordered_around_pinned :
    let plan := agentThreadReorderPlan compareText sampleThreads (js "moved") (js "target") .before 0
    (sort (compareAgentThreadOrder compareText) sampleThreads).map (·.threadId) =
        [js "moved", js "pinned", js "target"] ∧
      (sort (compareAgentThreadOrder compareText) (sampleThreads.map (·.assigned plan))).map (·.threadId) =
        [js "moved", js "pinned", js "target"] := by
  have hpre : sort (compareAgentThreadOrder compareText) sampleThreads = sampleThreads :=
    mergeSort_of_pairwise (by decide +kernel)
  have hafter : sort (compareAgentThreadOrder compareText) (sampleThreads.map
      (·.assigned (agentThreadReorderPlan compareText sampleThreads (js "moved") (js "target") .before 0))) =
        sampleThreads.map
          (·.assigned (agentThreadReorderPlan compareText sampleThreads (js "moved") (js "target") .before 0)) :=
    mergeSort_of_pairwise (by decide +kernel)
  dsimp only
  rw [hpre, hafter]
  decide +kernel

end Exact
end CodevoEditor.Threads
