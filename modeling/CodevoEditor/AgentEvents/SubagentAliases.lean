/-
# Which tool id runs which task

`packages/agent-events/src/agentTurnSubagentAliases.ts`. Every retained subagent event that
carries both ids links them; the index counts the links from both sides.
-/

import CodevoEditor.Js.OrderedMap
import CodevoEditor.AgentEvents.Supersession

namespace CodevoEditor.AgentEvents

open Js Option OrderedMap

/-- `Map<string, Map<string, number>>`. -/
abbrev AliasLinks := OrderedMap JsString (OrderedMap JsString ℤ)

structure AgentTurnSubagentAliasIndex where
  tasksByTool : AliasLinks
  toolsByTask : AliasLinks

structure AgentTurnSubagentResolution where
  ids : AgentTurnSubagentIds
  canonical : Bool

def unresolved : AgentTurnSubagentResolution := ⟨{}, false⟩

def createAgentTurnSubagentAliasIndex : AgentTurnSubagentAliasIndex := ⟨.empty, .empty⟩

/-- `links.get(id) ?? new Map()`: the partners an id is linked with. -/
def partnersOf (links : AliasLinks) (id : JsString) : OrderedMap JsString ℤ :=
  (links.get? id).getD .empty

def countPartner (links : AliasLinks) (id partner : JsString) (delta : ℤ) : AliasLinks :=
  let partners := partnersOf links id
  let count := (partners.get? partner).getD 0 + delta
  if 0 < count then links.set id (partners.set partner count)
  else
    let partners := partners.delete partner
    if partners.size = 0 then links.delete id else links.set id partners

def retainAgentTurnSubagentAlias (index : AgentTurnSubagentAliasIndex)
    (link : JsString × JsString) (delta : ℤ) : AgentTurnSubagentAliasIndex where
  tasksByTool := countPartner index.tasksByTool link.1 link.2 delta
  toolsByTask := countPartner index.toolsByTask link.2 link.1 delta

def onlyPartner (partners : Option (OrderedMap JsString ℤ)) (expected : JsString) : Bool :=
  match partners with
  | none => true
  | some partners =>
      if partners.size = 0 then true else partners.size = 1 && partners.has expected

def solePartner (partners : OrderedMap JsString ℤ) : Option JsString :=
  if partners.size ≠ 1 then none else partners.keys.head?

def resolvePair (index : AgentTurnSubagentAliasIndex) (toolId taskId : JsString) :
    AgentTurnSubagentResolution where
  ids := ⟨some toolId, some taskId⟩
  canonical := onlyPartner (index.tasksByTool.get? toolId) taskId &&
    onlyPartner (index.toolsByTask.get? taskId) toolId

/-- `resolveTool` and `resolveTask`: an id alone stands for itself while it has no partner, and for
the pair once its one partner has no other. -/
def resolveAlone (own other : AliasLinks) (id : JsString) (alone : AgentTurnSubagentIds)
    (pair : JsString → AgentTurnSubagentIds) : AgentTurnSubagentResolution :=
  match own.get? id with
  | none => ⟨alone, true⟩
  | some partners =>
      if partners.size = 0 then ⟨alone, true⟩
      else match solePartner partners with
        | none => ⟨alone, false⟩
        | some partner =>
            if onlyPartner (other.get? partner) id then ⟨pair partner, true⟩ else ⟨alone, false⟩

def resolveTool (index : AgentTurnSubagentAliasIndex) (toolId : JsString) : AgentTurnSubagentResolution :=
  resolveAlone index.tasksByTool index.toolsByTask toolId ⟨some toolId, none⟩ fun taskId => ⟨some toolId, some taskId⟩

def resolveTask (index : AgentTurnSubagentAliasIndex) (taskId : JsString) : AgentTurnSubagentResolution :=
  resolveAlone index.toolsByTask index.tasksByTool taskId ⟨none, some taskId⟩ fun toolId => ⟨some toolId, some taskId⟩

def resolveAgentTurnSubagentIds (index : AgentTurnSubagentAliasIndex)
    (ids : AgentTurnSubagentIds) : AgentTurnSubagentResolution :=
  match ids.toolId, ids.taskId with
  | some toolId, some taskId => resolvePair index toolId taskId
  | some toolId, none => resolveTool index toolId
  | none, some taskId => resolveTask index taskId
  | none, none => unresolved

variable (links : AliasLinks)

lemma partnersOf_countPartner (id partner : JsString) (delta : ℤ)
    (id' : JsString) :
    partnersOf (countPartner links id partner delta) id' =
      if id' = id then
        if 0 < ((partnersOf links id).get? partner).getD 0 + delta then
          (partnersOf links id).set partner (((partnersOf links id).get? partner).getD 0 + delta)
        else (partnersOf links id).delete partner
      else partnersOf links id' := by
  simp only [countPartner]
  by_cases hid : id' = id
  · subst hid
    rw [if_pos rfl]
    split_ifs with hcnt hsize
    · rw [partnersOf, get?_set, if_pos rfl, getD_some]
    · -- the last link of the id is gone, and with it the id
      rw [partnersOf, get?_delete, if_pos rfl, getD_none]
      exact OrderedMap.ext (List.length_eq_zero_iff.1 hsize).symm
    · rw [partnersOf, get?_set, if_pos rfl, getD_some]
  · rw [if_neg hid]
    unfold partnersOf
    split_ifs <;> simp [hid]

/-- The counts of `index` are `count`: a link counted zero times is absent. -/
structure RepresentsLinks (index : AgentTurnSubagentAliasIndex)
    (count : JsString → JsString → ℕ) : Prop where
  tasks : ∀ toolId taskId, (partnersOf index.tasksByTool toolId).get? taskId =
    if count toolId taskId = 0 then none else some (count toolId taskId : ℤ)
  tools : ∀ toolId taskId, (partnersOf index.toolsByTask taskId).get? toolId =
    if count toolId taskId = 0 then none else some (count toolId taskId : ℤ)

lemma representsLinks_create : RepresentsLinks createAgentTurnSubagentAliasIndex fun _ _ => 0 :=
  ⟨fun _ _ => rfl, fun _ _ => rfl⟩

lemma get?_partnersOf_countPartner {links} {count : JsString → JsString → ℕ}
    (count' : JsString → JsString → ℕ) {id partner} {delta}
    (h : ∀ i p, (partnersOf links i).get? p = if count i p = 0 then none else some (count i p : ℤ))
    (hat : (count' id partner : ℤ) = count id partner + delta)
    (hoth : ∀ i p, ¬ (i = id ∧ p = partner) → count' i p = count i p) (i p : JsString) :
    (partnersOf (countPartner links id partner delta) i).get? p =
      if count' i p = 0 then none else some (count' i p : ℤ) := by
  have hget : ((partnersOf links id).get? partner).getD 0 = (count id partner : ℤ) := by
    rw [h]; split_ifs with h0 <;> simp [h0]
  rw [partnersOf_countPartner, hget, ← hat]
  by_cases hi : i = id
  · subst hi
    rw [if_pos rfl]
    by_cases hp : p = partner
    · subst hp
      split_ifs with hpos h0 h0
      · omega
      · simp
      · simp
      · omega
    · rw [hoth i p fun hc => hp hc.2, ← h]
      split_ifs with hpos
      · rw [get?_set, if_neg hp]
      · rw [get?_delete, if_neg hp]
  · rw [if_neg hi, h, hoth i p fun hc => hi hc.1]

variable {index : AgentTurnSubagentAliasIndex}

theorem RepresentsLinks.retain
    {count count' : JsString → JsString → ℕ} (h : RepresentsLinks index count)
    {link} {delta}
    (hat : (count' link.1 link.2 : ℤ) = count link.1 link.2 + delta)
    (hoth : ∀ toolId taskId, (toolId, taskId) ≠ link → count' toolId taskId = count toolId taskId) :
    RepresentsLinks (retainAgentTurnSubagentAlias index link delta) count' where
  tasks := get?_partnersOf_countPartner count' h.tasks hat fun i p hip =>
    hoth i p fun hc => hip (Prod.ext_iff.1 hc)
  tools toolId taskId := get?_partnersOf_countPartner (fun i p => count' p i)
    (fun i p => h.tools p i) hat
    (fun i p hip => hoth p i fun hc => hip (Prod.ext_iff.1 hc).symm) taskId toolId

/-- No link contradicts that `toolId` runs `taskId`. -/
def Matched (count : JsString → JsString → ℕ) (toolId taskId : JsString) : Prop :=
  (∀ taskId', count toolId taskId' ≠ 0 → taskId' = taskId) ∧ ∀ toolId', count toolId' taskId ≠ 0 → toolId' = toolId

lemma onlyPartner_eq_true_iff (id expected : JsString) :
    onlyPartner (links.get? id) expected ↔
      ∀ partner, ((partnersOf links id).get? partner).isSome → partner = expected := by
  unfold onlyPartner partnersOf
  cases links.get? id with
  | none => simp
  | some partners =>
    simp only [getD_some]
    split_ifs with h0
    · rw [size_eq_zero_iff] at h0
      simp [h0]
    · rw [Bool.and_eq_true, decide_eq_true_iff, has_eq]
      constructor
      · rintro ⟨h1, hex⟩ partner hp
        obtain ⟨key, hkey⟩ := size_eq_one_iff.1 h1
        rw [← mem_keys_iff, hkey, List.mem_singleton] at hex hp
        rw [hex, hp]
      · intro hall
        -- every key is the expected one, and there is at least one
        have hkeys : ∀ key ∈ partners.keys, key = expected := fun key hk =>
          hall key (mem_keys_iff.1 hk)
        obtain ⟨key, hkey⟩ : ∃ key, key ∈ partners.keys := by
          refine List.exists_mem_of_ne_nil _ fun hnil => h0 ?_
          rw [← length_keys, hnil, List.length_nil]
        have hone := partners.keys_eq_singleton (hkeys key hkey ▸ hkey) hkeys
        rw [← mem_keys_iff, size_eq_one_iff]
        exact ⟨⟨expected, hone⟩, by simp [hone]⟩

lemma solePartner_eq_some_iff (partners) (partner : JsString) :
    solePartner partners = some partner ↔ partners.keys = [partner] := by
  unfold solePartner
  rw [← length_keys]
  split_ifs with h
  · constructor
    · intro hc; cases hc
    · intro hc; simp [hc] at h
  · rw [not_not, List.length_eq_one_iff] at h
    obtain ⟨key, hkey⟩ := h
    simp [hkey]

section Resolution

variable {index : AgentTurnSubagentAliasIndex} {count : JsString → JsString → ℕ}

lemma onlyPartner_tasks (h : RepresentsLinks index count) (toolId taskId : JsString) :
    onlyPartner (index.tasksByTool.get? toolId) taskId ↔ ∀ taskId', count toolId taskId' ≠ 0 → taskId' = taskId := by
  rw [onlyPartner_eq_true_iff]
  refine forall_congr' fun taskId' => imp_congr_left ?_
  rw [h.tasks]; split_ifs with h0 <;> simp [h0]

lemma onlyPartner_tools (h : RepresentsLinks index count) (toolId taskId : JsString) :
    onlyPartner (index.toolsByTask.get? taskId) toolId ↔ ∀ toolId', count toolId' taskId ≠ 0 → toolId' = toolId := by
  rw [onlyPartner_eq_true_iff]
  refine forall_congr' fun toolId' => imp_congr_left ?_
  rw [h.tools]; split_ifs with h0 <;> simp [h0]

end Resolution

/-- What ids resolve to under the links `count`: themselves alone, the pair when the one partner
matches, or nothing canonical when the links conflict. -/
inductive Resolves (count : JsString → JsString → ℕ) :
    AgentTurnSubagentIds → AgentTurnSubagentResolution → Prop
  | pair {toolId taskId} (h : Matched count toolId taskId) :
      Resolves count ⟨some toolId, some taskId⟩ ⟨⟨some toolId, some taskId⟩, true⟩
  | pairConflict {toolId taskId} (h : ¬ Matched count toolId taskId) :
      Resolves count ⟨some toolId, some taskId⟩ ⟨⟨some toolId, some taskId⟩, false⟩
  | tool {toolId} (h : ∀ taskId, count toolId taskId = 0) :
      Resolves count ⟨some toolId, none⟩ ⟨⟨some toolId, none⟩, true⟩
  | toolLinked {toolId taskId} (hlink : count toolId taskId ≠ 0) (h : Matched count toolId taskId) :
      Resolves count ⟨some toolId, none⟩ ⟨⟨some toolId, some taskId⟩, true⟩
  | toolConflict {toolId} (hlink : ∃ taskId, count toolId taskId ≠ 0)
      (h : ∀ taskId, count toolId taskId ≠ 0 → ¬ Matched count toolId taskId) :
      Resolves count ⟨some toolId, none⟩ ⟨⟨some toolId, none⟩, false⟩
  | task {taskId} (h : ∀ toolId, count toolId taskId = 0) :
      Resolves count ⟨none, some taskId⟩ ⟨⟨none, some taskId⟩, true⟩
  | taskLinked {toolId taskId} (hlink : count toolId taskId ≠ 0) (h : Matched count toolId taskId) :
      Resolves count ⟨none, some taskId⟩ ⟨⟨some toolId, some taskId⟩, true⟩
  | taskConflict {taskId} (hlink : ∃ toolId, count toolId taskId ≠ 0)
      (h : ∀ toolId, count toolId taskId ≠ 0 → ¬ Matched count toolId taskId) :
      Resolves count ⟨none, some taskId⟩ ⟨⟨none, some taskId⟩, false⟩
  | neither : Resolves count ⟨none, none⟩ unresolved

lemma resolves_pair {count : JsString → JsString → ℕ}
    (h : RepresentsLinks index count) (toolId taskId : JsString) :
    Resolves count ⟨some toolId, some taskId⟩ (resolvePair index toolId taskId) := by
  have hm : (resolvePair index toolId taskId).canonical ↔ Matched count toolId taskId := by
    rw [resolvePair, Bool.and_eq_true, onlyPartner_tasks h, onlyPartner_tools h, Matched]
  by_cases hc : (resolvePair index toolId taskId).canonical
  · have he : resolvePair index toolId taskId = ⟨⟨some toolId, some taskId⟩, true⟩ :=
      congrArg (AgentTurnSubagentResolution.mk _) hc
    rw [he]
    exact .pair (hm.1 hc)
  · have he : resolvePair index toolId taskId = ⟨⟨some toolId, some taskId⟩, false⟩ :=
      congrArg (AgentTurnSubagentResolution.mk _) (Bool.eq_false_iff.2 hc)
    rw [he]
    exact .pairConflict fun hm' => hc (hm.2 hm')

lemma resolveAlone_cases {links} (other) {id} {own : JsString → ℕ}
    {only : JsString → Prop} (alone) (pair : JsString → AgentTurnSubagentIds)
    (hown : ∀ partner, (partnersOf links id).get? partner =
      if own partner = 0 then none else some (own partner : ℤ))
    (hoth : ∀ partner, onlyPartner (other.get? partner) id ↔ only partner) :
    (∀ partner, own partner = 0) ∧ resolveAlone links other id alone pair = ⟨alone, true⟩ ∨
      (∃ partner, own partner ≠ 0 ∧ (∀ p, own p ≠ 0 → p = partner) ∧ only partner ∧
        resolveAlone links other id alone pair = ⟨pair partner, true⟩) ∨
      (∃ partner, own partner ≠ 0) ∧
        (∀ partner, own partner ≠ 0 → ¬ ((∀ p, own p ≠ 0 → p = partner) ∧ only partner)) ∧
        resolveAlone links other id alone pair = ⟨alone, false⟩ := by
  have hkeys : ∀ partner, partner ∈ (partnersOf links id).keys ↔ own partner ≠ 0 := by
    intro partner
    rw [mem_keys_iff, hown]; split_ifs with h0 <;> simp [h0]
  have hzero : (partnersOf links id).size = 0 ↔ ∀ partner, own partner = 0 := by
    rw [size_eq_zero_iff]
    refine forall_congr' fun partner => ?_
    rw [hown]; split_ifs with h0 <;> simp [h0]
  unfold resolveAlone
  unfold partnersOf at hkeys hzero
  cases hget : links.get? id with
  | none => exact .inl ⟨hzero.1 (by rw [hget]; rfl), rfl⟩
  | some partners =>
    rw [hget, getD_some] at hzero
    simp only [hget, getD_some] at hkeys
    simp only
    split_ifs with h0
    · exact .inl ⟨hzero.1 h0, rfl⟩
    have hlink : ∃ partner, own partner ≠ 0 := by
      by_contra hc
      exact h0 (hzero.2 (by simpa using hc))
    refine .inr ?_
    cases hs : solePartner partners with
    | none =>
      refine .inr ⟨hlink, fun partner hne hm => ?_, rfl⟩
      -- a partner without a rival would be the only key
      have hone := partners.keys_eq_singleton ((hkeys partner).2 hne) fun key hk => hm.1 key ((hkeys key).1 hk)
      rw [(solePartner_eq_some_iff partners partner).2 hone] at hs
      cases hs
    | some partner =>
      have hks := (solePartner_eq_some_iff partners partner).1 hs
      have hne : own partner ≠ 0 := (hkeys partner).1 (by simp [hks])
      have hall : ∀ p, own p ≠ 0 → p = partner := fun p hp => by
        simpa [hks] using (hkeys p).2 hp
      simp only
      split_ifs with hback
      · exact .inl ⟨partner, hne, hall, (hoth partner).1 hback, rfl⟩
      · refine .inr ⟨hlink, fun p hp hm => hback ?_, rfl⟩
        rw [hoth, ← hall p hp]
        exact hm.2

lemma resolves_tool {count : JsString → JsString → ℕ}
    (h : RepresentsLinks index count) (toolId : JsString) :
    Resolves count ⟨some toolId, none⟩ (resolveTool index toolId) := by
  rcases resolveAlone_cases index.toolsByTask ⟨some toolId, none⟩
    (fun taskId => ⟨some toolId, some taskId⟩) (h.tasks toolId)
    (onlyPartner_tools h toolId) with ⟨h0, he⟩ | ⟨taskId, hne, hall, hback, he⟩ | ⟨hlink, hm, he⟩
  · exact (show resolveTool index toolId = _ from he) ▸ .tool h0
  · exact (show resolveTool index toolId = _ from he) ▸ .toolLinked hne ⟨hall, hback⟩
  · exact (show resolveTool index toolId = _ from he) ▸ .toolConflict hlink hm

lemma resolves_task {count : JsString → JsString → ℕ}
    (h : RepresentsLinks index count) (taskId : JsString) :
    Resolves count ⟨none, some taskId⟩ (resolveTask index taskId) := by
  rcases resolveAlone_cases index.tasksByTool ⟨none, some taskId⟩
    (fun toolId => ⟨some toolId, some taskId⟩) (fun toolId => h.tools toolId taskId)
    (fun toolId => onlyPartner_tasks h toolId taskId)
    with ⟨h0, he⟩ | ⟨toolId, hne, hall, hback, he⟩ | ⟨hlink, hm, he⟩
  · exact (show resolveTask index taskId = _ from he) ▸ .task h0
  · exact (show resolveTask index taskId = _ from he) ▸ .taskLinked hne ⟨hback, hall⟩
  · exact (show resolveTask index taskId = _ from he) ▸
      .taskConflict hlink fun toolId hne hc => hm toolId hne ⟨hc.2, hc.1⟩

/-- **Resolution is a question about the links.** -/
theorem resolves {count : JsString → JsString → ℕ}
    (h : RepresentsLinks index count) (ids) :
    Resolves count ids (resolveAgentTurnSubagentIds index ids) := by
  obtain ⟨_ | toolId, _ | taskId⟩ := ids
  · exact .neither
  · exact resolves_task h taskId
  · exact resolves_tool h toolId
  · exact resolves_pair h toolId taskId

namespace Resolves

variable {count count' : JsString → JsString → ℕ} {ids : AgentTurnSubagentIds}
  {resolution resolution' : AgentTurnSubagentResolution}

lemma functional (h : Resolves count ids resolution) (h' : Resolves count ids resolution') :
    resolution = resolution' := by
  cases h with
  | pair hm =>
    cases h' with
    | pair => rfl
    | pairConflict hm' => exact absurd hm hm'
  | pairConflict hm =>
    cases h' with
    | pair hm' => exact absurd hm' hm
    | pairConflict => rfl
  | tool hnone =>
    cases h' with
    | tool => rfl
    | toolLinked hlink => exact absurd (hnone _) hlink
    | toolConflict hlink => exact absurd (hnone _) hlink.choose_spec
  | toolLinked hlink hm =>
    cases h' with
    | tool hnone => exact absurd (hnone _) hlink
    | toolLinked hlink' hm' => rw [hm'.1 _ hlink]
    | toolConflict _ hm' => exact absurd hm (hm' _ hlink)
  | toolConflict hlink hm =>
    cases h' with
    | tool hnone => exact absurd (hnone _) hlink.choose_spec
    | toolLinked hlink' hm' => exact absurd hm' (hm _ hlink')
    | toolConflict => rfl
  | task hnone =>
    cases h' with
    | task => rfl
    | taskLinked hlink => exact absurd (hnone _) hlink
    | taskConflict hlink => exact absurd (hnone _) hlink.choose_spec
  | taskLinked hlink hm =>
    cases h' with
    | task hnone => exact absurd (hnone _) hlink
    | taskLinked hlink' hm' => rw [hm'.2 _ hlink]
    | taskConflict _ hm' => exact absurd hm (hm' _ hlink)
  | taskConflict hlink hm =>
    cases h' with
    | task hnone => exact absurd (hnone _) hlink.choose_spec
    | taskLinked hlink' hm' => exact absurd hm' (hm _ hlink')
    | taskConflict => rfl
  | neither => cases h'; rfl

lemma ids_of_not_canonical (h : Resolves count ids resolution)
    (hc : resolution.canonical = false) : resolution.ids = ids := by
  cases h <;> first | rfl | cases hc

lemma ids_of_pair {toolId taskId}
    (h : Resolves count ⟨some toolId, some taskId⟩ resolution) :
    resolution.ids = ⟨some toolId, some taskId⟩ := by
  cases h <;> rfl

lemma again (h : Resolves count ids resolution) (hc : resolution.canonical) :
    Resolves count resolution.ids ⟨resolution.ids, true⟩ := by
  cases h with
  | pair hm => exact .pair hm
  | tool hnone => exact .tool hnone
  | task hnone => exact .task hnone
  | toolLinked hlink hm => exact .pair hm
  | taskLinked hlink hm => exact .pair hm
  | pairConflict | toolConflict | taskConflict | neither => cases hc

lemma mono (h : Resolves count ids ⟨ids, true⟩)
    (hle : ∀ toolId taskId, count' toolId taskId ≠ 0 → count toolId taskId ≠ 0) :
    Resolves count' ids ⟨ids, true⟩ := by
  cases h with
  | pair hm =>
    exact .pair ⟨fun taskId hne => hm.1 taskId (hle _ _ hne), fun toolId hne => hm.2 toolId (hle _ _ hne)⟩
  | tool hnone => exact .tool fun taskId => by_contra fun hne => hle _ _ hne (hnone taskId)
  | task hnone => exact .task fun toolId => by_contra fun hne => hle _ _ hne (hnone toolId)

lemma keeps_ids (h : Resolves count ids resolution) :
    (ids.toolId = none ∨ resolution.ids.toolId = ids.toolId) ∧
      (ids.taskId = none ∨ resolution.ids.taskId = ids.taskId) := by
  cases h <;> simp [unresolved]

lemma link_of_ne (h : Resolves count ids resolution) (hne : resolution.ids ≠ ids) :
    ∃ toolId taskId, resolution = ⟨⟨some toolId, some taskId⟩, true⟩ ∧ count toolId taskId ≠ 0 ∧
      Matched count toolId taskId ∧ (ids = ⟨some toolId, none⟩ ∨ ids = ⟨none, some taskId⟩) := by
  cases h with
  | toolLinked hlink hm => exact ⟨_, _, rfl, hlink, hm, .inl rfl⟩
  | taskLinked hlink hm => exact ⟨_, _, rfl, hlink, hm, .inr rfl⟩
  | pair | pairConflict | tool | toolConflict | task | taskConflict | neither =>
    exact absurd rfl hne

lemma ids_of_link (h : Resolves count ids ⟨ids, true⟩) {toolId taskId}
    (hlink : count toolId taskId ≠ 0) (hid : ids.toolId = some toolId ∨ ids.taskId = some taskId) :
    ids = ⟨some toolId, some taskId⟩ := by
  cases h with
  | pair hm =>
    rcases hid with hid | hid
    · cases hid
      rw [hm.1 _ hlink]
    · cases hid
      rw [hm.2 _ hlink]
  | tool hnone =>
    rcases hid with hid | hid
    · cases hid
      exact absurd (hnone _) hlink
    · cases hid
  | task hnone =>
    rcases hid with hid | hid
    · cases hid
    · cases hid
      exact absurd (hnone _) hlink

end Resolves

lemma resolve_congr {index index'}
    {count : JsString → JsString → ℕ} (h : RepresentsLinks index count)
    (h' : RepresentsLinks index' count) (ids) :
    resolveAgentTurnSubagentIds index ids = resolveAgentTurnSubagentIds index' ids :=
  (resolves h ids).functional (resolves h' ids)

end CodevoEditor.AgentEvents
