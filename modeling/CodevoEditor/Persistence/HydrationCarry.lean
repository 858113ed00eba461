/-
# What a turn carries over when it is hydrated

`src/domain/agentTurnHydrationCarry.ts`. The events of a turn are read back from its log.
-/

import CodevoEditor.Persistence.TailBudget

namespace CodevoEditor.Persistence

open Js AgentEvents List

def maxCarriedAgentTurnSteers : ℕ := 64
def maxCarriedAgentTurnSnapshots : ℕ := 64
def maxCarriedAgentTurnSnapshotBytes : ℕ := 256 * 1024
def maxAgentSteerBytesPerTurn : ℕ := 512 * 1024

/-! ### Steers -/

def steer? : AgentTurnEvent → Option UserMessageEvent
  | .userMessage event => some event
  | _ => none

/-- `events.filter(isAgentTurnSteer)`. -/
def agentTurnSteers (events : List AgentTurnEvent) : List UserMessageEvent := events.filterMap steer?

def sameSteer (left right : UserMessageEvent) : Bool :=
  match left.remoteMessageId, right.remoteMessageId with
  | some leftId, some rightId => leftId = rightId
  | _, _ => left.text = right.text

/-- The first loop of `carriedAgentTurnSteers`, down both lists from the last. -/
def alignedSteers : List UserMessageEvent → List UserMessageEvent → ℕ
  | pinned :: morePinned, represented :: moreRepresented =>
      if sameSteer pinned represented then alignedSteers morePinned moreRepresented + 1 else 0
  | _, _ => 0

def steerBytes (steer : UserMessageEvent) : ℕ := agentTurnEventUtf8Bytes (.userMessage steer)

/-- The second loop of `carriedAgentTurnSteers`, with the newest first. -/
def carrySteers (carried : List UserMessageEvent) (bytes : ℕ) :
    List UserMessageEvent → List UserMessageEvent
  | [] => carried
  | steer :: earlier =>
      if maxCarriedAgentTurnSteers ≤ carried.length then carried
      else if maxAgentSteerBytesPerTurn < bytes + steerBytes steer then carried
      else carrySteers (steer :: carried) (bytes + steerBytes steer) earlier

section

variable (current hydrated : List AgentTurnEvent)

def alignedCount : ℕ := alignedSteers (agentTurnSteers current).reverse (agentTurnSteers hydrated).reverse

/-- `unaligned`. -/
def unalignedSteers : List UserMessageEvent :=
  (agentTurnSteers hydrated).take ((agentTurnSteers hydrated).length - alignedCount current hydrated)

/-- `earlier`. -/
def earlierSteers : List UserMessageEvent :=
  ((agentTurnSteers current).take
    ((agentTurnSteers current).length - alignedCount current hydrated)).filter fun steer =>
      !(unalignedSteers current hydrated).any fun candidate => sameSteer candidate steer

def carriedAgentTurnSteers : List UserMessageEvent :=
  carrySteers [] 0 (earlierSteers current hydrated).reverse

end

def keyedScopeText : AgentTurnKeyedSnapshotScope → JsString
  | .backgroundTask => js "backgroundTask"
  | .subagentUsage => js "subagentUsage"
  | .contextUsage => js "contextUsage"

def identitySeparator : JsString := [0]

/-- `targetIdentities` of a snapshot. -/
def snapshotTargetIdentities : AgentTurnSnapshotTarget → List JsString
  | .identity scope identity => [keyedScopeText scope ++ identitySeparator ++ identity]
  | .subagentIds ids =>
      (ids.toolId.map (js "subagentTool" ++ identitySeparator ++ ·)).toList ++
        (ids.taskId.map (js "subagentTask" ++ identitySeparator ++ ·)).toList

def targetIdentities : AgentTurnBarrierTarget → List JsString
  | .target target => snapshotTargetIdentities target
  | .scope _ => []

def snapshotIdentitiesOf (event : AgentTurnEvent) : List JsString :=
  match agentTurnEventSupersession event with
  | .snapshot target => snapshotTargetIdentities target
  | _ => []

def coveredSnapshotIdentities (events : List AgentTurnEvent) : List JsString :=
  events.flatMap fun event =>
    match agentTurnEventSupersession event with
    | .snapshot target => snapshotTargetIdentities target
    | .barrier targets => targets.flatMap targetIdentities
    | .content => []

/-- The loop of `carriedAgentTurnSnapshots`, with the newest first. -/
def carrySnapshots (covered : List JsString) (carried : List AgentTurnEvent) (claimed : List JsString)
    (bytes : ℕ) : List AgentTurnEvent → List AgentTurnEvent
  | [] => carried
  | event :: earlier =>
      let keys := snapshotIdentitiesOf event
      if keys.isEmpty then carrySnapshots covered carried claimed bytes earlier
      else if keys.any fun key => key ∈ covered || key ∈ claimed then
        carrySnapshots covered carried claimed bytes earlier
      else if maxCarriedAgentTurnSnapshots ≤ carried.length then carried
      else if maxCarriedAgentTurnSnapshotBytes < bytes + agentTurnEventUtf8Bytes event then carried
      else
        carrySnapshots covered (event :: carried) (claimed ++ keys) (bytes + agentTurnEventUtf8Bytes event) earlier

def carriedAgentTurnSnapshots (current hydrated : List AgentTurnEvent) : List AgentTurnEvent :=
  carrySnapshots (coveredSnapshotIdentities hydrated) [] [] 0 current.reverse

/-- `none` for `-1`. -/
def lastClosingIndex (events : List AgentTurnEvent) : Option ℕ := lastIndexWhere events isResult

def planHydratedAgentTurnEvents (current hydrated : List AgentTurnEvent) : List AgentTurnEvent :=
  let steers := (carriedAgentTurnSteers current hydrated).map AgentTurnEvent.userMessage
  let snapshots := carriedAgentTurnSnapshots current hydrated
  if steers.isEmpty && snapshots.isEmpty then hydrated
  else
    match lastClosingIndex hydrated with
    | none => steers ++ hydrated ++ snapshots
    | some closing => steers ++ hydrated.take closing ++ snapshots ++ hydrated.drop closing

variable {current hydrated : List AgentTurnEvent}

lemma sameSteer_self (steer) : sameSteer steer steer := by
  unfold sameSteer
  cases steer.remoteMessageId with
  | none => exact decide_eq_true rfl
  | some id => exact decide_eq_true rfl

lemma sameSteer_comm (left right) : sameSteer left right = sameSteer right left := by
  unfold sameSteer
  cases left.remoteMessageId with
  | none => cases right.remoteMessageId <;> exact decide_eq_decide.2 eq_comm
  | some leftId => cases right.remoteMessageId <;> exact decide_eq_decide.2 eq_comm

/-- The steers of two lists are the same, one by one. -/
def SameSteers (left right : List UserMessageEvent) : Prop :=
  List.Forall₂ (fun steer steer' => sameSteer steer steer') left right

lemma alignedSteers_le (pinned represented) :
    alignedSteers pinned represented ≤ pinned.length ∧
      alignedSteers pinned represented ≤ represented.length ∧
      SameSteers (pinned.take (alignedSteers pinned represented))
        (represented.take (alignedSteers pinned represented)) := by
  induction pinned generalizing represented with
  | nil => exact ⟨Nat.zero_le _, Nat.zero_le _, .nil⟩
  | cons steer pinned ih =>
    cases represented with
    | nil => exact ⟨Nat.zero_le _, Nat.zero_le _, .nil⟩
    | cons steer' represented =>
      obtain ⟨hpinned, hrepr, hsame⟩ := ih represented
      rw [alignedSteers]
      split
      case isTrue hown => exact ⟨Nat.succ_le_succ hpinned, Nat.succ_le_succ hrepr, .cons hown hsame⟩
      case isFalse => exact ⟨Nat.zero_le _, Nat.zero_le _, .nil⟩

lemma alignedSteers_of_same {pinned represented} (h : SameSteers pinned represented)
    {more more'} (hsht : more = [] ∨ more' = []) :
    alignedSteers (pinned ++ more) (represented ++ more') = pinned.length := by
  induction h with
  | nil =>
    rcases hsht with rfl | rfl
    · rfl
    · cases more <;> rfl
  | cons hown _ ih =>
    rw [cons_append, cons_append, alignedSteers, if_pos hown, ih]
    rfl

/-- What may be carried. -/
def Carriable (steers : List UserMessageEvent) : Prop :=
  steers.length ≤ maxCarriedAgentTurnSteers ∧ (steers.map steerBytes).sum ≤ maxAgentSteerBytesPerTurn

lemma carrySteers_spec (earlier carried) (h : Carriable carried) :
    (∃ taken : List UserMessageEvent, taken.Sublist earlier ∧
        carrySteers carried (carried.map steerBytes).sum earlier = taken.reverse ++ carried) ∧
      Carriable (carrySteers carried (carried.map steerBytes).sum earlier) ∧
      (Carriable (earlier.reverse ++ carried) →
        carrySteers carried (carried.map steerBytes).sum earlier = earlier.reverse ++ carried) := by
  induction earlier generalizing carried with
  | nil => exact ⟨⟨[], .slnil, rfl⟩, h, fun _ => rfl⟩
  | cons steer earlier ih =>
    have hwh : (steer :: earlier).reverse ++ carried = earlier.reverse ++ steer :: carried := by
      rw [reverse_cons, append_assoc, singleton_append]
    have hsum : ((steer :: carried).map steerBytes).sum = (carried.map steerBytes).sum + steerBytes steer := by
      rw [map_cons, sum_cons, Nat.add_comm]
    rw [carrySteers, hwh]
    split
    case isTrue hfull =>
      refine ⟨⟨[], nil_sublist _, rfl⟩, h, fun hfits => ?_⟩
      have hlen := hfits.1
      rw [length_append, length_cons] at hlen
      omega
    case isFalse hroom =>
    split
    case isTrue hheavy =>
      refine ⟨⟨[], nil_sublist _, rfl⟩, h, fun hfits => ?_⟩
      have hby := hfits.2
      rw [map_append, sum_append, hsum] at hby
      omega
    case isFalse hlight =>
    have hnext : Carriable (steer :: carried) := by
      refine ⟨?_, ?_⟩
      · rw [length_cons]
        omega
      · rw [hsum]
        omega
    obtain ⟨⟨taken, hsub, heq⟩, hfits, hall⟩ := ih (steer :: carried) hnext
    rw [← hsum]
    refine ⟨⟨steer :: taken, hsub.cons_cons steer, ?_⟩, hfits, hall⟩
    rw [heq, reverse_cons, append_assoc, singleton_append]

lemma carriable_nil : Carriable [] := ⟨Nat.zero_le _, Nat.zero_le _⟩

lemma carriedAgentTurnSteers_spec (current hydrated) :
    (carriedAgentTurnSteers current hydrated).Sublist (earlierSteers current hydrated) ∧
      Carriable (carriedAgentTurnSteers current hydrated) ∧
      (Carriable (earlierSteers current hydrated) →
        carriedAgentTurnSteers current hydrated = earlierSteers current hydrated) := by
  obtain ⟨⟨taken, hsub, heq⟩, hfits, hall⟩ :=
    carrySteers_spec (earlierSteers current hydrated).reverse [] carriable_nil
  rw [append_nil, reverse_reverse] at hall
  refine ⟨?_, hfits, hall⟩
  unfold carriedAgentTurnSteers
  rw [append_nil] at heq
  rw [show (0 : ℕ) = (([] : List UserMessageEvent).map steerBytes).sum from rfl, heq]
  exact reverse_sublist.1 (by rw [reverse_reverse]; exact hsub)

lemma earlierSteers_sublist (current hydrated) : (earlierSteers current hydrated).Sublist (agentTurnSteers current) :=
  filter_sublist.trans (take_sublist _ _)

lemma carrySnapshots_identified (covered) {carried}
    (h : ∀ event ∈ carried, snapshotIdentitiesOf event ≠ []) (claimed) (bytes : ℕ)
    (earlier) :
    ∀ event ∈ carrySnapshots covered carried claimed bytes earlier, snapshotIdentitiesOf event ≠ [] := by
  induction earlier generalizing carried claimed bytes with
  | nil => exact h
  | cons event earlier ih =>
    rw [carrySnapshots]
    split
    · exact ih h claimed bytes
    case isFalse hkeys =>
    split
    · exact ih h claimed bytes
    split
    · exact h
    split
    · exact h
    refine ih (fun other hmem => ?_) _ _
    rcases mem_cons.1 hmem with rfl | hmem
    · exact fun hnone => hkeys (isEmpty_iff.2 hnone)
    · exact h other hmem

lemma agentTurnSteers_snapshots (current hydrated) :
    agentTurnSteers (carriedAgentTurnSnapshots current hydrated) = [] := by
  refine filterMap_eq_nil_iff.2 fun event hmem => ?_
  have hkeys := carrySnapshots_identified _ (fun _ hnone => absurd hnone not_mem_nil) _ _ _ event hmem
  cases event with
  | userMessage => exact absurd rfl hkeys
  | _ => rfl

lemma agentTurnSteers_map (steers) : agentTurnSteers (steers.map .userMessage) = steers := by
  unfold agentTurnSteers
  rw [filterMap_map]
  exact filterMap_some

lemma agentTurnSteers_append (events events') :
    agentTurnSteers (events ++ events') = agentTurnSteers events ++ agentTurnSteers events' :=
  filterMap_append

lemma planHydratedAgentTurnEvents_eq (current hydrated) :
    ∃ before after, hydrated = before ++ after ∧
      planHydratedAgentTurnEvents current hydrated =
        (carriedAgentTurnSteers current hydrated).map .userMessage ++ before ++
          carriedAgentTurnSnapshots current hydrated ++ after := by
  unfold planHydratedAgentTurnEvents
  dsimp only
  split
  case isTrue hnone =>
    rw [Bool.and_eq_true, List.isEmpty_iff, List.isEmpty_iff] at hnone
    refine ⟨hydrated, [], (append_nil _).symm, ?_⟩
    rw [hnone.1, hnone.2, append_nil, append_nil, nil_append]
  case isFalse =>
    cases lastClosingIndex hydrated with
    | none => exact ⟨hydrated, [], (append_nil _).symm, (append_nil _).symm⟩
    | some closing => exact ⟨_, _, (take_append_drop closing hydrated).symm, rfl⟩

lemma agentTurnSteers_planned (current hydrated) :
    agentTurnSteers (planHydratedAgentTurnEvents current hydrated) =
      carriedAgentTurnSteers current hydrated ++ agentTurnSteers hydrated := by
  obtain ⟨before, after, hhydr, hplan⟩ := planHydratedAgentTurnEvents_eq current hydrated
  rw [hplan, agentTurnSteers_append, agentTurnSteers_append, agentTurnSteers_append, agentTurnSteers_map,
    agentTurnSteers_snapshots, append_nil, append_assoc, ← agentTurnSteers_append, ← hhydr]

lemma hydrated_sublist_planned (current hydrated : List AgentTurnEvent) :
    hydrated.Sublist (planHydratedAgentTurnEvents current hydrated) := by
  obtain ⟨before, after, hhydr, hplan⟩ := planHydratedAgentTurnEvents_eq current hydrated
  rw [hplan]
  conv_lhs => rw [hhydr]
  refine Sublist.append_right ?_ after
  exact (sublist_append_right _ before).trans (sublist_append_left _ _)

lemma sameSteers_aligned (current hydrated) :
    SameSteers ((agentTurnSteers current).drop ((agentTurnSteers current).length - alignedCount current hydrated))
      ((agentTurnSteers hydrated).drop ((agentTurnSteers hydrated).length - alignedCount current hydrated)) := by
  obtain ⟨-, -, hsame⟩ := alignedSteers_le (agentTurnSteers current).reverse (agentTurnSteers hydrated).reverse
  rw [take_reverse, take_reverse] at hsame
  exact forall₂_reverse_iff.1 hsame

lemma exists_sameSteer (h : Carriable (earlierSteers current hydrated)) {steer}
    (hmem : steer ∈ agentTurnSteers current) :
    ∃ other ∈ carriedAgentTurnSteers current hydrated ++ agentTurnSteers hydrated, sameSteer other steer := by
  rw [← take_append_drop ((agentTurnSteers current).length - alignedCount current hydrated)
    (agentTurnSteers current), mem_append] at hmem
  rcases hmem with hfr | haligned
  · cases hrepr : (unalignedSteers current hydrated).any fun candidate => sameSteer candidate steer with
    | true =>
      obtain ⟨other, hoth, hsame⟩ := any_eq_true.1 hrepr
      exact ⟨other, mem_append_right _ (mem_of_mem_take hoth), hsame⟩
    | false =>
      refine ⟨steer, mem_append_left _ ?_, sameSteer_self steer⟩
      rw [(carriedAgentTurnSteers_spec current hydrated).2.2 h]
      exact mem_filter.2 ⟨hfr, by rw [hrepr]; rfl⟩
  · obtain ⟨index, hidx⟩ := getElem?_of_mem haligned
    have hsame := sameSteers_aligned current hydrated
    obtain ⟨hlt, heq⟩ := List.getElem?_eq_some_iff.1 hidx
    have hlt' := hsame.length_eq ▸ hlt
    refine ⟨_, mem_append_right _ (mem_of_mem_drop (getElem_mem hlt')), ?_⟩
    rw [sameSteer_comm, ← heq]
    exact hsame.get hlt hlt'

lemma not_sameSteer_of_mem_carried {steer other}
    (h : steer ∈ carriedAgentTurnSteers current hydrated) (hoth : other ∈ unalignedSteers current hydrated) :
    sameSteer other steer = false := by
  have hearlier := (carriedAgentTurnSteers_spec current hydrated).1.subset h
  have hnone := (mem_filter.1 hearlier).2
  rw [Bool.not_eq_true', any_eq_false] at hnone
  exact Bool.eq_false_iff.2 (hnone other hoth)

lemma alignedCount_of_same {front tail front' tail'}
    (hcur : agentTurnSteers current = front ++ tail) (hhydr : agentTurnSteers hydrated = front' ++ tail')
    (hsame : SameSteers tail tail') (hsht : front = [] ∨ front' = []) :
    alignedCount current hydrated = tail.length := by
  unfold alignedCount
  rw [hcur, hhydr, reverse_append, reverse_append,
    alignedSteers_of_same (forall₂_reverse_iff.2 hsame), length_reverse]
  rcases hsht with rfl | rfl
  · exact .inl rfl
  · exact .inr rfl

lemma earlierSteers_of_same {front tail}
    (hcur : agentTurnSteers current = front ++ tail) (hsame : SameSteers tail (agentTurnSteers hydrated)) :
    earlierSteers current hydrated = front := by
  have hcnt := alignedCount_of_same hcur (nil_append _).symm hsame (.inr rfl)
  have hnone : unalignedSteers current hydrated = [] := by
    unfold unalignedSteers
    rw [hcnt, hsame.length_eq, Nat.sub_self, take_zero]
  unfold earlierSteers
  rw [hnone, hcnt, hcur, length_append, Nat.add_sub_cancel, take_left]
  exact filter_eq_self.2 fun steer _ => rfl

lemma earlierSteers_of_represented {front tail}
    (hhydr : agentTurnSteers hydrated = front ++ tail) (hsame : SameSteers (agentTurnSteers current) tail) :
    earlierSteers current hydrated = [] := by
  have hcnt := alignedCount_of_same (nil_append _).symm hhydr hsame (.inl rfl)
  unfold earlierSteers
  rw [hcnt, Nat.sub_self, take_zero, filter_nil]

/-- **The steers of a hydrated turn.**  What is hydrated stays; in front of its steers come as many
as may be that it does not represent, in order. -/
theorem planHydratedAgentTurnEvents_spec (current hydrated : List AgentTurnEvent) :
    let carried := carriedAgentTurnSteers current hydrated
    let planned := planHydratedAgentTurnEvents current hydrated
    (hydrated.Sublist planned ∧ agentTurnSteers planned = carried ++ agentTurnSteers hydrated) ∧
      (carried.Sublist (agentTurnSteers current) ∧ Carriable carried ∧
        ∀ steer ∈ carried, ∀ other ∈ unalignedSteers current hydrated, sameSteer other steer = false) ∧
      (Carriable (earlierSteers current hydrated) → ∀ steer ∈ agentTurnSteers current,
        ∃ other ∈ agentTurnSteers planned, sameSteer other steer) ∧
      (∀ front tail, agentTurnSteers current = front ++ tail → SameSteers tail (agentTurnSteers hydrated) →
        Carriable front → agentTurnSteers planned = front ++ agentTurnSteers hydrated) ∧
      (∀ front tail, agentTurnSteers hydrated = front ++ tail → SameSteers (agentTurnSteers current) tail →
        agentTurnSteers planned = agentTurnSteers hydrated) := by
  dsimp only
  obtain ⟨hsub, hcarriable, hall⟩ := carriedAgentTurnSteers_spec current hydrated
  rw [agentTurnSteers_planned]
  refine ⟨⟨hydrated_sublist_planned current hydrated, rfl⟩,
    ⟨hsub.trans (earlierSteers_sublist current hydrated), hcarriable, fun steer hmem other hother =>
      not_sameSteer_of_mem_carried hmem hother⟩, fun hfits steer hmem => exists_sameSteer hfits hmem,
    fun front tail hcur hsame hfits => ?_, fun front tail hhydr hsame => ?_⟩
  · have hearlier := earlierSteers_of_same hcur hsame
    rw [hall (hearlier ▸ hfits), hearlier]
  · have hearlier := earlierSteers_of_represented hhydr hsame
    rw [hearlier] at hsub
    rw [sublist_nil.1 hsub, nil_append]

/-- A steer behind the one that is hydrated comes in front of it. -/
theorem planned_reordered :
    agentTurnSteers (planHydratedAgentTurnEvents
        [.userMessage { text := js "first" }, .userMessage { text := js "second" }]
        [.userMessage { text := js "first" }]) =
      [{ text := js "second" }, { text := js "first" }] := by
  decide

end CodevoEditor.Persistence
