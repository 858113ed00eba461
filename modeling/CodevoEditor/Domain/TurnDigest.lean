/-
# The digest of a turn

`src/domain/agentTurnDigest.ts`: what the context meter needs of the events of a turn, as a
record that is kept while the events go to the log.
-/

import CodevoEditor.Domain.ContextWindow

namespace CodevoEditor.Domain

open Js AgentEvents Window List OrderedMap Bool

def agentTurnDigestVersion : ℕ := 1
def maxAgentTurnDigestCapacities : ℕ := 16
def maxAgentTurnDigestModelBytes : ℕ := 256

structure AgentTurnDigestCapacity where
  model : JsString
  contextWindow : JsNumber
  deriving DecidableEq

/-- `primary` is an `AgentTurnDigestOccupancy`, which is what the meter's reading is. -/
structure AgentTurnDigestContext where
  provider : AgentCliKind
  capacities : List AgentTurnDigestCapacity
  primary : Option PrimaryReading
  current : Option AgentContextWindow
  bounded : Bool
  deriving DecidableEq

structure AgentTurnDigestWire where
  version : ℕ
  context : AgentTurnDigestContext
  deriving DecidableEq

structure DigestFold where
  provider : AgentCliKind
  capacities : OrderedMap JsString JsNumber
  primary : Option PrimaryReading
  current : Option AgentContextWindow
  bounded : Bool

def emptyAgentTurnDigest (provider : AgentCliKind) : AgentTurnDigestWire :=
  ⟨agentTurnDigestVersion, ⟨provider, [], none, none, false⟩⟩

def openFold (digest : AgentTurnDigestWire) : DigestFold where
  provider := digest.context.provider
  capacities := digest.context.capacities.foldl
    (fun capacities entry => capacities.set entry.model entry.contextWindow) .empty
  primary := digest.context.primary
  current := digest.context.current
  bounded := digest.context.bounded

def oversizedModel (model : JsString) : Bool := maxAgentTurnDigestModelBytes < utf8ByteLength model

namespace DigestFold

variable (fold : DigestFold)

def retainCapacity (model : JsString) (contextWindow : JsNumber) : DigestFold :=
  let fold :=
    if !fold.capacities.has model && maxAgentTurnDigestCapacities ≤ fold.capacities.size then
      { fold with
        capacities := match fold.capacities.keys.head? with
          | some oldest => fold.capacities.delete oldest
          | none => fold.capacities
        bounded := true }
    else fold
  { fold with capacities := fold.capacities.set model contextWindow }

/-- The capacity of a reading. -/
def acceptCapacity (event : ContextUsageEvent) : DigestFold :=
  match event.contextWindow with
  | some contextWindow =>
      if positive (some contextWindow) then fold.retainCapacity event.model contextWindow else fold
  | none => fold

/-- The occupancy of a reading. -/
def acceptOccupancy (event : ContextUsageEvent) : DigestFold :=
  match event.inputTokens with
  | some inputTokens =>
      if nonnegative (some inputTokens) then
        { fold with
          primary := some ⟨event.model, inputTokens, observationTimestamp event.observedAtEpochMs⟩ }
      else fold
  | none => fold

def acceptContextUsage (event : ContextUsageEvent) : DigestFold :=
  let fold := (fold.acceptCapacity event).acceptOccupancy event
  { fold with
    current := fold.primary.bind fun primary => (fold.capacities.get? primary.model).map fun capacity =>
      { usedTokens := primary.inputTokens
        contextWindow := capacity
        observedAtEpochMs := observationTimestamp primary.observedAtEpochMs } }

def acceptResult (event : ResultEvent) : DigestFold :=
  match event.usage.bind (·.appServerUsage) with
  | none => fold
  | some usage =>
      { fold with
        current := usage.contextWindow.bind fun contextWindow =>
          if positive (some contextWindow) && nonnegative (some usage.last.totalTokens) then
            some { usedTokens := usage.last.totalTokens, contextWindow }
          else none }

def acceptDigestEvent (event : AgentTurnEvent) : DigestFold :=
  if invalidatesContext fold.provider event then
    { fold with current := none, primary := none, capacities := .empty }
  else
    match event with
    | .contextUsage event => fold.acceptContextUsage event
    | .result event => if fold.provider = .codex then fold.acceptResult event else fold
    | _ => fold

end DigestFold

def closeFold (fold : DigestFold) : AgentTurnDigestWire :=
  let capacities := fold.capacities.entries.filter fun entry => !oversizedModel entry.1
  let primary := fold.primary.filter fun primary => !oversizedModel primary.model
  ⟨agentTurnDigestVersion,
    { provider := fold.provider
      capacities := capacities.map fun entry => ⟨entry.1, entry.2⟩
      primary := primary
      current := fold.current
      bounded := fold.bounded || fold.capacities.entries.any (fun entry => oversizedModel entry.1) ||
        (primary.isNone && fold.primary.isSome) }⟩

def foldAgentTurnDigest (digest : AgentTurnDigestWire) (events : List AgentTurnEvent) : AgentTurnDigestWire :=
  if events.isEmpty then digest
  else closeFold (events.foldl DigestFold.acceptDigestEvent (openFold digest))

def agentTurnDigestContextWindow (digest : Option AgentTurnDigestWire) : Option AgentContextWindow :=
  match digest with
  | none => none
  | some digest => digest.context.current

/-- No name that the fold holds is too long. -/
structure DigestFold.Small (fold : DigestFold) : Prop where
  capacities : ∀ model ∈ fold.capacities.keys, oversizedModel model = false
  primary : ∀ primary ∈ fold.primary, oversizedModel primary.model = false

variable {fold : DigestFold}

theorem openFold_closeFold (h : fold.Small) : openFold (closeFold fold) = fold := by
  have hkept : (fold.capacities.entries.filter fun entry => !oversizedModel entry.1) =
      fold.capacities.entries := by
    refine filter_eq_self.2 fun entry hent => ?_
    rw [h.capacities entry.1 (mem_map_of_mem hent)]
    rfl
  have hany : fold.capacities.entries.any (fun entry => oversizedModel entry.1) = false := by
    refine any_eq_false.2 fun entry hent => ?_
    rw [h.capacities entry.1 (mem_map_of_mem hent)]
    exact false_ne_true
  have hprim : (fold.primary.filter fun primary => !oversizedModel primary.model) = fold.primary := by
    cases hfold : fold.primary with
    | none => rfl
    | some primary =>
      rw [Option.filter_some, h.primary primary hfold]
      rfl
  have hents : ((fold.capacities.entries.map fun entry =>
        (⟨entry.1, entry.2⟩ : AgentTurnDigestCapacity)).foldl
      (fun capacities entry => capacities.set entry.model entry.contextWindow) .empty) =
      fold.capacities := by
    rw [foldl_map]
    refine OrderedMap.ext ?_
    rw [entries_foldl_set Prod.fst Prod.snd fold.capacities.entries .empty fold.capacities.nodup]
    exact map_id _
  unfold openFold closeFold
  rw [hkept, hany, hprim, hents]
  cases fold with
  | mk provider capacities primary current bounded =>
    cases primary with
    | none => simp only [Bool.or_false, Option.isNone_none, Option.isSome_none, Bool.and_false]
    | some primary => simp only [Bool.or_false, Option.isNone_some, Bool.false_and]

lemma small_openFold_closeFold (fold) : (openFold (closeFold fold)).Small := by
  have hnd : ((fold.capacities.entries.filter fun entry => !oversizedModel entry.1).map
      Prod.fst).Nodup := fold.capacities.nodup.sublist (filter_sublist.map _)
  constructor
  · intro model hmodel
    unfold openFold closeFold at hmodel
    rw [foldl_map, OrderedMap.keys, entries_foldl_set Prod.fst Prod.snd _ .empty hnd] at hmodel
    obtain ⟨entry, hent, rfl⟩ := mem_map.1 hmodel
    obtain ⟨entry', hentry', rfl⟩ := mem_map.1 ((nil_append _) ▸ hent)
    have hsmall := (mem_filter.1 hentry').2
    rwa [not_eq_true'] at hsmall
  · intro primary hprim
    have hsmall := (Option.filter_eq_some_iff.1 hprim).2
    rwa [not_eq_true'] at hsmall

lemma DigestFold.Small.retainCapacity (h : fold.Small) {model}
    (hmodel : oversizedModel model = false) (contextWindow : JsNumber) :
    (fold.retainCapacity model contextWindow).Small := by
  have hset : ∀ capacities : OrderedMap JsString JsNumber,
      (∀ key ∈ capacities.keys, key ∈ fold.capacities.keys) →
      ∀ key ∈ (capacities.set model contextWindow).keys, oversizedModel key = false := by
    intro capacities hkeys key hkey
    rw [mem_keys_iff, get?_set] at hkey
    split_ifs at hkey with heq
    · rw [heq]
      exact hmodel
    · exact h.capacities key (hkeys key (mem_keys_iff.2 hkey))
  unfold DigestFold.retainCapacity
  split_ifs
  · refine ⟨hset _ fun key hkey => ?_, h.primary⟩
    cases hhead : fold.capacities.keys.head? with
    | none =>
      rw [hhead] at hkey
      exact hkey
    | some oldest =>
      rw [hhead, keys_delete] at hkey
      exact (mem_filter.1 hkey).1
  · exact ⟨hset _ fun key hkey => hkey, h.primary⟩

/-- An event whose model has a name that can be kept. -/
def SmallModel (event : AgentTurnEvent) : Prop :=
  ∀ model, contextModel event = some model → utf8ByteLength model ≤ maxAgentTurnDigestModelBytes

lemma DigestFold.Small.acceptContextUsage (h : fold.Small) {event}
    (hmodel : oversizedModel event.model = false) :
    (fold.acceptContextUsage event).Small := by
  have hcap : (fold.acceptCapacity event).Small := by
    unfold DigestFold.acceptCapacity
    cases event.contextWindow with
    | none => exact h
    | some contextWindow =>
      dsimp only
      split_ifs
      · exact h.retainCapacity hmodel contextWindow
      · exact h
  have hocc : ((fold.acceptCapacity event).acceptOccupancy event).Small := by
    unfold DigestFold.acceptOccupancy
    cases event.inputTokens with
    | none => exact hcap
    | some inputTokens =>
      dsimp only
      split_ifs
      · refine ⟨hcap.capacities, fun primary hprim => ?_⟩
        cases hprim
        exact hmodel
      · exact hcap
  exact ⟨hocc.capacities, hocc.primary⟩

theorem DigestFold.Small.acceptDigestEvent (h : fold.Small) {event}
    (hmodel : SmallModel event) : (fold.acceptDigestEvent event).Small := by
  unfold DigestFold.acceptDigestEvent
  by_cases hinv : invalidatesContext fold.provider event
  · rw [if_pos hinv]
    refine ⟨fun model hmem => ?_, fun primary hmem => ?_⟩
    · cases hmem
    · cases hmem
  · rw [if_neg hinv]
    cases event with
    | contextUsage event => exact h.acceptContextUsage (decide_eq_false (Nat.not_lt.2 (hmodel _ rfl)))
    | result event =>
      dsimp only
      split_ifs
      · unfold DigestFold.acceptResult
        cases event.usage.bind (·.appServerUsage) with
        | none => exact h
        | some usage => exact ⟨h.capacities, h.primary⟩
      · exact h
    | _ => exact h

variable {events : List AgentTurnEvent}

lemma DigestFold.Small.foldl (h : fold.Small) (hevs : ∀ event ∈ events, SmallModel event) :
    (events.foldl DigestFold.acceptDigestEvent fold).Small := by
  induction events generalizing fold with
  | nil => exact h
  | cons event events ih =>
    rw [forall_mem_cons] at hevs
    exact ih (h.acceptDigestEvent hevs.1) hevs.2

/-- What the meter reads of a fold. -/
def DigestFold.state (fold : DigestFold) : ContextState := ⟨fold.current, fold.primary, fold.capacities⟩

lemma state_retainCapacity (fold : DigestFold) (model : JsString) (contextWindow : JsNumber) :
    (fold.retainCapacity model contextWindow).capacities =
        retainCapacity fold.capacities model contextWindow ∧
      (fold.retainCapacity model contextWindow).primary = fold.primary ∧
      (fold.retainCapacity model contextWindow).provider = fold.provider := by
  unfold DigestFold.retainCapacity retainCapacity maxAgentTurnDigestCapacities
  split_ifs
  · refine ⟨?_, rfl, rfl⟩
    cases fold.capacities.keys.head? with
    | none => rfl
    | some oldest => rfl
  · exact ⟨rfl, rfl, rfl⟩

lemma state_acceptContextUsage (fold : DigestFold) (event) :
    (fold.acceptContextUsage event).state = readUsage retainCapacity fold.state event ∧
      (fold.acceptContextUsage event).provider = fold.provider := by
  obtain ⟨hcapacities, hprim, hprov⟩ :
      (fold.acceptCapacity event).capacities = (match event.contextWindow with
        | some contextWindow => if positive (some contextWindow) then
            retainCapacity fold.capacities event.model contextWindow else fold.capacities
        | none => fold.capacities) ∧
      (fold.acceptCapacity event).primary = fold.primary ∧
      (fold.acceptCapacity event).provider = fold.provider := by
    unfold DigestFold.acceptCapacity
    cases event.contextWindow with
    | none => exact ⟨rfl, rfl, rfl⟩
    | some contextWindow =>
      dsimp only
      split_ifs
      · exact state_retainCapacity fold event.model contextWindow
      · exact ⟨rfl, rfl, rfl⟩
  obtain ⟨hcapacities', hprim', hprov'⟩ :
      ((fold.acceptCapacity event).acceptOccupancy event).capacities =
          (fold.acceptCapacity event).capacities ∧
        ((fold.acceptCapacity event).acceptOccupancy event).primary = (match event.inputTokens with
          | some inputTokens => if nonnegative (some inputTokens) then
              some ⟨event.model, inputTokens, observationTimestamp event.observedAtEpochMs⟩
              else (fold.acceptCapacity event).primary
          | none => (fold.acceptCapacity event).primary) ∧
        ((fold.acceptCapacity event).acceptOccupancy event).provider = (fold.acceptCapacity event).provider := by
    unfold DigestFold.acceptOccupancy
    cases event.inputTokens with
    | none => exact ⟨rfl, rfl, rfl⟩
    | some inputTokens =>
      dsimp only
      split_ifs
      · exact ⟨rfl, rfl, rfl⟩
      · exact ⟨rfl, rfl, rfl⟩
  unfold DigestFold.acceptContextUsage DigestFold.state readUsage currentOf
  dsimp only
  rw [hcapacities', hprim', hprov', hcapacities, hprim, hprov]
  exact ⟨rfl, rfl⟩

/-- **One event is read as the meter reads it.** -/
theorem state_acceptDigestEvent (fold : DigestFold) (event : AgentTurnEvent) :
    (fold.acceptDigestEvent event).state =
        contextStep retainCapacity fold.provider fold.state event ∧
      (fold.acceptDigestEvent event).provider = fold.provider := by
  unfold DigestFold.acceptDigestEvent contextStep
  by_cases hinv : invalidatesContext fold.provider event
  · rw [if_pos hinv, if_pos hinv]
    exact ⟨rfl, rfl⟩
  · rw [if_neg hinv, if_neg hinv]
    cases event with
    | contextUsage event => exact state_acceptContextUsage fold event
    | result event =>
      dsimp only
      split_ifs
      · unfold DigestFold.acceptResult readResult
        cases event.usage.bind (·.appServerUsage) with
        | none => exact ⟨rfl, rfl⟩
        | some usage => exact ⟨rfl, rfl⟩
      · exact ⟨rfl, rfl⟩
    | _ => exact ⟨rfl, rfl⟩

lemma state_foldl (fold : DigestFold) (events : List AgentTurnEvent) :
    (events.foldl DigestFold.acceptDigestEvent fold).state =
      events.foldl (contextStep retainCapacity fold.provider) fold.state := by
  induction events generalizing fold with
  | nil => rfl
  | cons event events ih =>
    obtain ⟨hstate, hprov⟩ := state_acceptDigestEvent fold event
    rw [foldl_cons, foldl_cons, ih, hstate, hprov]

/-- A record that comes from folding streams one after the other. -/
def Folded (provider : AgentCliKind) (batches : List (List AgentTurnEvent)) : AgentTurnDigestWire :=
  batches.foldl foldAgentTurnDigest (emptyAgentTurnDigest provider)

variable (provider : AgentCliKind)

lemma small_folded (batches) : (openFold (Folded provider batches)).Small := by
  unfold Folded
  induction batches using List.reverseRecOn with
  | nil =>
    refine ⟨fun model hmem => ?_, fun primary hmem => ?_⟩
    · cases hmem
    · cases hmem
  | append_singleton batches batch ih =>
    rw [foldl_append, foldl_cons, foldl_nil]
    unfold foldAgentTurnDigest
    split_ifs
    · exact ih
    · exact small_openFold_closeFold _

variable {digest : AgentTurnDigestWire}

lemma openFold_foldAgentTurnDigest (h : (openFold digest).Small)
    (hevs : ∀ event ∈ events, SmallModel event) :
    openFold (foldAgentTurnDigest digest events) =
      events.foldl DigestFold.acceptDigestEvent (openFold digest) := by
  unfold foldAgentTurnDigest
  split_ifs with hemp
  · rw [isEmpty_iff.1 hemp, foldl_nil]
  · exact openFold_closeFold (h.foldl hevs)

/-- **Folding over two streams one after the other is folding over both.** -/
theorem foldAgentTurnDigest_append (h : (openFold digest).Small) {first}
    (hfst : ∀ event ∈ first, SmallModel event) (second) :
    foldAgentTurnDigest (foldAgentTurnDigest digest first) second = foldAgentTurnDigest digest (first ++ second) := by
  have hopen := openFold_foldAgentTurnDigest h hfst
  by_cases hsnd : second = []
  · rw [hsnd, append_nil]
    rfl
  · have hne : ¬ second.isEmpty := fun hemp => hsnd (isEmpty_iff.1 hemp)
    have hne' : ¬ (first ++ second).isEmpty := fun hemp =>
      hsnd (append_eq_nil_iff.1 (isEmpty_iff.1 hemp)).2
    calc foldAgentTurnDigest (foldAgentTurnDigest digest first) second
        = closeFold (second.foldl DigestFold.acceptDigestEvent
            (openFold (foldAgentTurnDigest digest first))) := if_neg hne
      _ = closeFold ((first ++ second).foldl DigestFold.acceptDigestEvent (openFold digest)) := by
          rw [hopen, foldl_append]
      _ = foldAgentTurnDigest digest (first ++ second) := (if_neg hne').symm

lemma state_folded {batches}
    (h : ∀ event ∈ batches.flatten, SmallModel event) :
    (openFold (Folded provider batches)).state =
        batches.flatten.foldl (contextStep retainCapacity provider) {} ∧
      (openFold (Folded provider batches)).provider = provider := by
  induction batches using List.reverseRecOn with
  | nil => exact ⟨rfl, rfl⟩
  | append_singleton batches batch ih =>
    rw [flatten_concat, forall_mem_append] at h
    obtain ⟨hstate, hprov⟩ := ih h.1
    have hfolded : Folded provider (batches ++ [batch]) = foldAgentTurnDigest (Folded provider batches) batch := by
      unfold Folded
      rw [foldl_append, foldl_cons, foldl_nil]
    have hkept : ∀ (events : List AgentTurnEvent) (fold : DigestFold),
        (events.foldl DigestFold.acceptDigestEvent fold).provider = fold.provider := by
      intro events
      induction events with
      | nil => exact fun _ => rfl
      | cons event events ihevents =>
        intro fold
        rw [foldl_cons, ihevents, (state_acceptDigestEvent fold event).2]
    rw [hfolded, openFold_foldAgentTurnDigest (small_folded provider batches) h.2, state_foldl, hkept,
      hstate, hprov, flatten_concat, foldl_append]
    exact ⟨rfl, rfl⟩

/-- **Folding is a homomorphism, and the record agrees with the meter**, as long as the names
of the models can be kept. -/
theorem digest_is_homomorphism :
    (∀ (provider : AgentCliKind) (batches : List (List AgentTurnEvent)) (first second : List AgentTurnEvent),
      (∀ event ∈ first, SmallModel event) →
      foldAgentTurnDigest (foldAgentTurnDigest (Folded provider batches) first) second =
        foldAgentTurnDigest (Folded provider batches) (first ++ second)) ∧
    ∀ (provider : AgentCliKind) (batches : List (List AgentTurnEvent)) (earlier : List AgentTurn)
      (loggedWindow : Option AgentContextWindow),
      (∀ event ∈ batches.flatten, SmallModel event) →
      agentTurnDigestContextWindow (some (Folded provider batches)) =
        agentContextWindow (some (threadWith provider earlier .running batches.flatten)) loggedWindow := by
  refine ⟨fun provider batches first second hfirst =>
    foldAgentTurnDigest_append (small_folded provider batches) hfirst second,
    fun provider batches earlier loggedWindow h => ?_⟩
  have hcur := congrArg ContextState.current (state_folded provider h).1
  change (Folded provider batches).context.current = _ at hcur
  unfold agentTurnDigestContextWindow agentContextWindow threadWith
  dsimp only
  rw [getLast?_concat, hcur]
  unfold settledContextWindow
  dsimp only
  rw [if_neg Bool.false_ne_true, ite_self]

/-- A reading of a capacity, and of an occupancy, of one model. -/
def capacityOf (model : JsString) (contextWindow : ℤ) : AgentTurnEvent :=
  .contextUsage { model, inputTokens := none, contextWindow := some (.int contextWindow) }

def occupancyOf (model : JsString) (inputTokens : ℤ) : AgentTurnEvent :=
  .contextUsage { model, inputTokens := some (.int inputTokens), contextWindow := none }

theorem digest_is_homomorphism_codex :
    foldAgentTurnDigest (foldAgentTurnDigest (Folded .codex []) [occupancyOf (js "codex") 10])
        [capacityOf (js "codex") 1000] =
      foldAgentTurnDigest (Folded .codex []) [occupancyOf (js "codex") 10, capacityOf (js "codex") 1000] ∧
    agentTurnDigestContextWindow (some (Folded .codex
        [[occupancyOf (js "codex") 10, capacityOf (js "codex") 1000]])) =
      agentContextWindow (some (threadWith .codex [] .running
        [occupancyOf (js "codex") 10, capacityOf (js "codex") 1000])) none := by
  have hsmall : ∀ event ∈ [occupancyOf (js "codex") 10, capacityOf (js "codex") 1000], SmallModel event := by
    intro event hmem model hmodel
    rcases mem_cons.1 hmem with rfl | hmem
    · cases hmodel
      decide
    · rw [mem_singleton.1 hmem] at hmodel
      cases hmodel
      decide
  refine ⟨digest_is_homomorphism.1 .codex [] [occupancyOf (js "codex") 10] [capacityOf (js "codex") 1000]
    fun event hmem => hsmall event (mem_cons.2 (.inl (mem_singleton.1 hmem))), ?_⟩
  exact digest_is_homomorphism.2 .codex [[occupancyOf (js "codex") 10, capacityOf (js "codex") 1000]] []
    none hsmall

/-- A name of 257 bytes. -/
def longModel : JsString := List.replicate 257 97

/-- **A name that is too long is forgotten between two folds**: the meter of one fold over both
readings is not the meter of two. -/
theorem long_model_is_forgotten :
    foldAgentTurnDigest (foldAgentTurnDigest (emptyAgentTurnDigest .claudeCode) [occupancyOf longModel 10])
        [capacityOf longModel 1000] ≠
      foldAgentTurnDigest (emptyAgentTurnDigest .claudeCode)
        ([occupancyOf longModel 10] ++ [capacityOf longModel 1000]) := by
  decide +kernel

end CodevoEditor.Domain
