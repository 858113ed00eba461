/-
# The context meter

`src/domain/agentContextWindow.ts`: the occupancy of the context window that the last turn
measured. Of `AgentThread` and `AgentTurn` the model has the fields that are read.
-/

import CodevoEditor.AgentEvents.UntruncatedRun

namespace CodevoEditor.Domain

open Js AgentEvents Window List Option OrderedMap

inductive AgentTurnStatus
  | pending
  | running
  | exited (exitCode : ℤ)
  | failed (message : JsString)
  | stopped
  | interrupted

structure AgentTurn where
  status : AgentTurnStatus
  events : List AgentTurnEvent
  eventsTruncated : Bool

/-- `providerKind` is `provider.kind`. -/
structure AgentThread where
  providerKind : AgentCliKind
  turns : List AgentTurn

structure AgentContextWindow where
  observedAtEpochMs : Option JsNumber := none
  usedTokens : JsNumber
  contextWindow : JsNumber
  deriving DecidableEq

/-- What `primary` holds: the occupancy that was read last. -/
structure PrimaryReading where
  model : JsString
  inputTokens : JsNumber
  observedAtEpochMs : Option JsNumber
  deriving DecidableEq

/-- The variables of the loop over a turn's events. -/
structure ContextState where
  current : Option AgentContextWindow := none
  primary : Option PrimaryReading := none
  capacities : OrderedMap JsString JsNumber := .empty

def nonnegative (value : Option JsNumber) : Bool := value.any (JsNumber.safeAtLeast 0)

def positive (value : Option JsNumber) : Bool :=
  nonnegative value && value.any fun number =>
    match number with
    | .int value => 0 < value
    | .nonInteger _ => false

def observationTimestamp (observedAtEpochMs : Option JsNumber) : Option JsNumber :=
  if nonnegative observedAtEpochMs then observedAtEpochMs else none

def invalidatesContext (provider : AgentCliKind) : AgentTurnEvent → Bool
  | .contextCompaction _ => true
  | .error _ => true
  | .result event => event.isError && provider ≠ .codex
  | .contextCompactionStatus event => event.status ≠ .idle
  | _ => false

/-- A capacity is kept for 16 models at most, the first one makes way. -/
def retainCapacity (capacities : OrderedMap JsString JsNumber) (model : JsString)
    (contextWindow : JsNumber) : OrderedMap JsString JsNumber :=
  if !capacities.has model && 16 ≤ capacities.size then
    match capacities.keys.head? with
    | some first => (capacities.delete first).set model contextWindow
    | none => capacities.set model contextWindow
  else capacities.set model contextWindow

/-- The meter of an occupancy and the capacity of its model. -/
def currentOf (primary : Option PrimaryReading) (capacities : OrderedMap JsString JsNumber) :
    Option AgentContextWindow :=
  primary.bind fun primary => (capacities.get? primary.model).map fun capacity =>
    { usedTokens := primary.inputTokens
      contextWindow := capacity
      observedAtEpochMs := observationTimestamp primary.observedAtEpochMs }

/-- A `contextUsage` event; `retain` is how a capacity is kept. -/
def readUsage
    (retain : OrderedMap JsString JsNumber → JsString → JsNumber → OrderedMap JsString JsNumber)
    (state : ContextState) (event : ContextUsageEvent) : ContextState :=
  let capacities :=
    match event.contextWindow with
    | some contextWindow =>
        if positive (some contextWindow) then retain state.capacities event.model contextWindow
        else state.capacities
    | none => state.capacities
  let primary :=
    match event.inputTokens with
    | some inputTokens =>
        if nonnegative (some inputTokens) then
          some ⟨event.model, inputTokens, observationTimestamp event.observedAtEpochMs⟩
        else state.primary
    | none => state.primary
  ⟨currentOf primary capacities, primary, capacities⟩

/-- A Codex `result`. -/
def readResult (state : ContextState) (event : ResultEvent) : ContextState :=
  match event.usage.bind (·.appServerUsage) with
  | none => state
  | some usage =>
      { state with
        current := usage.contextWindow.bind fun contextWindow =>
          if positive (some contextWindow) && nonnegative (some usage.last.totalTokens) then
            some { usedTokens := usage.last.totalTokens, contextWindow }
          else none }

def contextStep
    (retain : OrderedMap JsString JsNumber → JsString → JsNumber → OrderedMap JsString JsNumber)
    (provider : AgentCliKind) (state : ContextState) (event : AgentTurnEvent) : ContextState :=
  if invalidatesContext provider event then {}
  else
    match event with
    | .contextUsage event => readUsage retain state event
    | .result event => if provider = .codex then readResult state event else state
    | _ => state

def settledContextWindow (provider : AgentCliKind) (status : AgentTurnStatus)
    (current : Option AgentContextWindow) : Option AgentContextWindow :=
  if provider = .codex then current
  else
    match status with
    | .failed _ => none
    | .interrupted => none
    | .stopped => none
    | .exited exitCode => if exitCode ≠ 0 then none else current
    | _ => current

def agentContextWindow (thread : Option AgentThread) (loggedWindow : Option AgentContextWindow) :
    Option AgentContextWindow :=
  match thread with
  | none => none
  | some thread =>
      match thread.turns.getLast? with
      | none => none
      | some turn =>
          if turn.eventsTruncated then
            settledContextWindow thread.providerKind turn.status loggedWindow
          else
            settledContextWindow thread.providerKind turn.status
              (turn.events.foldl (contextStep retainCapacity thread.providerKind) {}).current

/-- The model of a reading. -/
def contextModel : AgentTurnEvent → Option JsString
  | .contextUsage event => some event.model
  | _ => none

/-- The distinct models of the readings of a stream. -/
def contextModels (stream : List AgentTurnEvent) : List JsString :=
  (stream.filterMap contextModel).dedup

variable {models : List JsString} {model : JsString}

lemma retainCapacity_eq_set {capacities}
    (hkeys : capacities.keys ⊆ models) (hmodel : model ∈ models) (hmodels : models.length ≤ 16)
    (contextWindow : JsNumber) :
    retainCapacity capacities model contextWindow = capacities.set model contextWindow := by
  suffices model ∈ capacities.keys ∨ capacities.size < 16 by
    rw [retainCapacity, if_neg]
    rcases this with hmem | hlt
    · simp [mem_keys_iff.1 hmem]
    · rw [Bool.and_eq_true, decide_eq_true_iff]
      omega
  by_cases hmem : model ∈ capacities.keys
  · exact .inl hmem
  · have hnd : (model :: capacities.keys).Nodup := nodup_cons.2 ⟨hmem, capacities.nodup⟩
    have hle := (hnd.subperm (cons_subset.2 ⟨hmodel, hkeys⟩)).length_le
    rw [length_cons, length_keys] at hle
    exact .inr (by omega)

variable {state : ContextState} {event : AgentTurnEvent}

lemma contextStep_eq_set (provider) (hkeys : state.capacities.keys ⊆ models)
    (hmodel : ∀ model, contextModel event = some model → model ∈ models)
    (hmodels : models.length ≤ 16) :
    contextStep retainCapacity provider state event =
        contextStep OrderedMap.set provider state event ∧
      (contextStep OrderedMap.set provider state event).capacities.keys ⊆ models := by
  unfold contextStep
  by_cases hinv : invalidatesContext provider event
  · rw [if_pos hinv, if_pos hinv]
    exact ⟨rfl, nil_subset _⟩
  · rw [if_neg hinv, if_neg hinv]
    cases event with
    | contextUsage event =>
      have hmem := hmodel event.model rfl
      dsimp only [readUsage]
      cases event.contextWindow with
      | none => exact ⟨rfl, hkeys⟩
      | some contextWindow =>
        dsimp only
        split_ifs with hpos
        · refine ⟨by rw [retainCapacity_eq_set hkeys hmem hmodels], fun key hkey => ?_⟩
          rw [mem_keys_iff, get?_set] at hkey
          split_ifs at hkey with hk
          · exact hk ▸ hmem
          · exact hkeys (mem_keys_iff.2 hkey)
        · exact ⟨rfl, hkeys⟩
    | result event =>
      dsimp only
      split_ifs with hcodex
      · unfold readResult
        cases event.usage.bind (·.appServerUsage) with
        | none => exact ⟨rfl, hkeys⟩
        | some usage => exact ⟨rfl, hkeys⟩
      · exact ⟨rfl, hkeys⟩
    | _ => exact ⟨rfl, hkeys⟩

lemma foldl_contextStep_eq_set (provider) {events : List AgentTurnEvent}
    (hmodel : ∀ event ∈ events, ∀ model, contextModel event = some model → model ∈ models)
    (hmodels : models.length ≤ 16) :
    events.foldl (contextStep retainCapacity provider) {} =
      events.foldl (contextStep OrderedMap.set provider) {} := by
  suffices h : events.foldl (contextStep retainCapacity provider) {} =
        events.foldl (contextStep OrderedMap.set provider) {} ∧
      (events.foldl (contextStep OrderedMap.set provider) {}).capacities.keys ⊆ models from h.1
  induction events using List.reverseRecOn with
  | nil => exact ⟨rfl, nil_subset _⟩
  | append_singleton events event ih =>
    obtain ⟨hstate, hkeys⟩ := ih fun other hmem => hmodel other (mem_append_left _ hmem)
    obtain ⟨hstep, hkeys'⟩ := contextStep_eq_set provider hkeys (hmodel event (by simp)) hmodels
    rw [foldl_append, foldl_append, hstate]
    exact ⟨hstep, hkeys'⟩

variable {reading : ContextUsageEvent}

lemma next_of_supersedes_reading {previous next}
    (h : Supersedes previous next (.contextUsage reading)) : next = .contextUsage reading := by
  cases h
  rfl

variable {batches : List (List AgentTurnEvent)}

lemma contextUsage_mem_of_mem (h : (mergeBatches batches).truncated = false)
    (hmem : .contextUsage reading ∈ (mergeBatches batches).events) :
    .contextUsage reading ∈ batches.flatten := by
  refine untruncated_induct (P := fun stream rows =>
      .contextUsage reading ∈ rows → .contextUsage reading ∈ stream) id
    (fun stream rows event rows' ih hstep hmem => ?_) h hmem
  have hpl : (placement rows event).1 = .contextUsage reading → .contextUsage reading ∈ stream ++ [event] := by
    intro heq
    rcases placement_cases rows event with hsame | ⟨_, _, hpl, -, -, tick, -, rfl, -⟩
    · rw [← heq, hsame]; simp
    · rw [hpl] at heq; cases heq
  have hold : .contextUsage reading ∈ rows → .contextUsage reading ∈ stream ++ [event] :=
    fun hmem => mem_append_left _ (ih hmem)
  rcases hstep with ⟨rfl, hfu⟩ | ⟨-, -, -, rfl, -, hmrg⟩ | -
  · rcases mem_append.1 hmem with hmem | hmem
    · exact hold (mem_append_left _ hmem)
    · obtain ⟨channel, -, -, fusedText, -, -, rfl, -⟩ :=
        coalesceAgentTextEvents_eq_some_iff.1 hfu
      cases channel <;> cases mem_singleton.1 hmem
  · rcases mem_append.1 hmem with hmem | hmem
    · exact hold (mem_append_left _ hmem)
    rcases mem_cons.1 hmem with hrow | hmem
    · exact hpl (next_of_supersedes_reading (hrow ▸ hmrg))
    · exact hold (mem_append_right _ (mem_cons_of_mem _ hmem))
  · rcases mem_append.1 hmem with hmem | hmem
    · exact hold hmem
    · exact hpl (mem_singleton.1 hmem).symm

lemma contextModel_eq_some_iff :
    contextModel event = some model ↔
      ∃ reading : ContextUsageEvent, event = .contextUsage reading ∧ reading.model = model := by
  constructor
  · intro h
    cases event with
    | contextUsage reading => exact ⟨reading, rfl, some.inj h⟩
    | _ => cases h
  · rintro ⟨reading, rfl, rfl⟩
    rfl

lemma mem_contextModels (h : (mergeBatches batches).truncated = false)
    (hmem : event ∈ batches.flatten ∨ event ∈ (mergeBatches batches).events)
    (hmodel : contextModel event = some model) : model ∈ contextModels batches.flatten := by
  obtain ⟨reading, rfl, rfl⟩ := contextModel_eq_some_iff.1 hmodel
  rw [contextModels, mem_dedup]
  refine mem_filterMap.2 ⟨.contextUsage reading, ?_, rfl⟩
  rcases hmem with hmem | hmem
  · exact hmem
  · exact contextUsage_mem_of_mem h hmem

/-- What a snapshot reading measures: the occupancy, or the capacity of one
model. -/
inductive IsReading (event : ContextUsageEvent) : JsString → Prop
  | occupancy {inputTokens : JsNumber} (hwin : event.contextWindow = none)
      (htokens : event.inputTokens = some inputTokens)
      (hvalid : nonnegative (some inputTokens)) : IsReading event (js "occupancy")
  | capacity {contextWindow : JsNumber} (htokens : event.inputTokens = none)
      (hwin : event.contextWindow = some contextWindow)
      (hvalid : positive (some contextWindow)) :
      IsReading event (js "capacity:" ++ event.model)

lemma positive_of_validCount {value} (h : validCount (some value) 1) : positive (some value) := by
  cases value with
  | int value =>
    simp only [validCount, positive, nonnegative, any_some, JsNumber.safeAtLeast,
      Bool.and_eq_true, decide_eq_true_iff] at h ⊢
    omega
  | nonInteger => cases h

variable {event : ContextUsageEvent} {identity : JsString}

lemma isReading_of_identity (h : contextUsageIdentity event = some identity) : IsReading event identity := by
  unfold contextUsageIdentity at h
  split_ifs at h with hocc hcap
  · obtain ⟨hwin, hval⟩ := hocc
    obtain ⟨inputTokens, htokens, -⟩ := (any_eq_true _ _).1 hval
    rw [htokens] at hval
    exact some.inj h ▸ .occupancy hwin htokens hval
  · obtain ⟨htokens, hval⟩ := hcap
    obtain ⟨contextWindow, hwin, -⟩ := (any_eq_true _ _).1 hval
    rw [hwin] at hval
    exact some.inj h ▸ .capacity htokens hwin (positive_of_validCount hval)

lemma occupancy_ne_capacity (model : JsString) : js "occupancy" ≠ js "capacity:" ++ model := by
  intro h
  have hhead := congrArg List.head? h
  rw [head?_append_of_ne_nil _ (by decide)] at hhead
  exact absurd hhead (by decide)

/-- The state that an occupancy and capacities make. -/
def ContextState.of (primary : Option PrimaryReading) (capacities : OrderedMap JsString JsNumber) :
    ContextState := ⟨currentOf primary capacities, primary, capacities⟩

lemma readUsage_occupancy {inputTokens} (hwin : event.contextWindow = none)
    (htokens : event.inputTokens = some inputTokens)
    (hval : nonnegative (some inputTokens)) (state) :
    readUsage OrderedMap.set state event = .of (some ⟨event.model, inputTokens,
      observationTimestamp event.observedAtEpochMs⟩) state.capacities := by
  simp only [readUsage, hwin, htokens, if_pos hval, ContextState.of]

lemma readUsage_capacity {contextWindow} (htokens : event.inputTokens = none)
    (hwin : event.contextWindow = some contextWindow)
    (hval : positive (some contextWindow)) (state) :
    readUsage OrderedMap.set state event = .of state.primary (state.capacities.set event.model contextWindow) := by
  simp only [readUsage, hwin, htokens, if_pos hval, ContextState.of]

/-- The reading has been read: the model of a capacity has its place. -/
def HasPlace (identity : JsString) (state : ContextState) : Prop :=
  ∀ model, identity = js "capacity:" ++ model → model ∈ state.capacities.keys

lemma hasPlace_readUsage (h : IsReading event identity) (state) :
    HasPlace identity (readUsage OrderedMap.set state event) := by
  intro model hmodel
  rcases h with ⟨-, -, -⟩ | ⟨htokens, hwin, hval⟩
  · exact absurd hmodel (occupancy_ne_capacity model)
  · obtain rfl := append_cancel_left hmodel
    rw [readUsage_capacity htokens hwin hval, mem_keys_iff]
    simp [ContextState.of]

variable {other : ContextUsageEvent} {identity' : JsString}

lemma HasPlace.readUsage (h : HasPlace identity state) (hoth : IsReading other identity') :
    HasPlace identity (readUsage OrderedMap.set state other) := by
  intro model hmodel
  have hmem := h model hmodel
  rcases hoth with ⟨hwin, htokens, hval⟩ | ⟨htokens, hwin, hval⟩
  · rw [readUsage_occupancy hwin htokens hval]
    exact hmem
  · rw [readUsage_capacity htokens hwin hval, mem_keys_iff]
    rw [mem_keys_iff] at hmem
    simp only [ContextState.of, get?_set]
    split_ifs
    · rfl
    · exact hmem

variable {previous : ContextUsageEvent}

lemma readUsage_again (hprev : IsReading previous identity)
    (hev : IsReading event identity) (state) :
    readUsage OrderedMap.set (readUsage OrderedMap.set state previous) event =
      readUsage OrderedMap.set state event := by
  rcases hprev with ⟨hwin, htokens, hval⟩ | ⟨htokens, hwin, hval⟩
  · generalize hid : js "occupancy" = identity at hev
    rcases hev with ⟨hwin', htokens', hvalid'⟩ | -
    · rw [readUsage_occupancy hwin htokens hval, readUsage_occupancy hwin' htokens' hvalid',
        readUsage_occupancy hwin' htokens' hvalid']
      rfl
    · exact absurd hid (occupancy_ne_capacity _)
  · generalize hid : js "capacity:" ++ previous.model = identity at hev
    rcases hev with - | ⟨htokens', hwin', hvalid'⟩
    · exact absurd hid.symm (occupancy_ne_capacity _)
    · rw [readUsage_capacity htokens hwin hval, readUsage_capacity htokens' hwin' hvalid',
        readUsage_capacity htokens' hwin' hvalid', append_cancel_left hid]
      exact congrArg (ContextState.of _) (set_set ..)

/-- Readings of different identities change places, once the one that moves has
its place. -/
lemma readUsage_comm (hev : IsReading event identity) (hoth : IsReading other identity')
    (hne : identity ≠ identity') (hplc : HasPlace identity state) :
    readUsage OrderedMap.set (readUsage OrderedMap.set state event) other =
      readUsage OrderedMap.set (readUsage OrderedMap.set state other) event := by
  rcases hev with ⟨hwin, htokens, hval⟩ | ⟨htokens, hwin, hval⟩
  · rcases hoth with ⟨-, -, -⟩ | ⟨htokens', hwin', hvalid'⟩
    · exact absurd rfl hne
    · simp only [readUsage_occupancy hwin htokens hval,
        readUsage_capacity htokens' hwin' hvalid']
      rfl
  · rcases hoth with ⟨hwin', htokens', hvalid'⟩ | ⟨htokens', hwin', hvalid'⟩
    · simp only [readUsage_capacity htokens hwin hval,
        readUsage_occupancy hwin' htokens' hvalid']
      rfl
    · have hmodels : event.model ≠ other.model := fun hc => hne (by rw [hc])
      simp only [readUsage_capacity htokens hwin hval, readUsage_capacity htokens' hwin' hvalid']
      exact congrArg (ContextState.of _) (set_comm_of_mem (hplc _ rfl) hmodels _ _)

/-- The usage that a result carries of its own. -/
def resultUsage : AgentTurnEvent → Option AgentAppServerUsage
  | .result event => event.usage.bind (·.appServerUsage)
  | _ => none

/-- A Codex reading renews no row before a result with usage of its own. -/
def ReadingKeepsUsage (provider : AgentCliKind) (rows : List AgentTurnEvent) (event : AgentTurnEvent) : Prop :=
  provider = .codex → contextModel event ≠ none → ∀ place ∈ renewal rows event,
    ∀ row ∈ place.2.2, resultUsage row = none

instance (provider : AgentCliKind) (rows : List AgentTurnEvent) (event : AgentTurnEvent) :
    Decidable (ReadingKeepsUsage provider rows event) :=
  inferInstanceAs (Decidable (_ → _ → ∀ place ∈ renewal rows event, _))

variable {row : AgentTurnEvent}

lemma touches_contextBarrier (h : agentTurnEventSupersession row = contextBarrier) :
    touches (.identity .contextUsage identity) row := by
  rw [touches, slotKeys, any_cons, touchesKey, h]
  rfl

variable {provider : AgentCliKind}

/-- A row that a reading may pass does nothing to the meter, or is a reading of
something else. -/
lemma contextStep_of_untouched (h : touches (.identity .contextUsage identity) row = false)
    (husage : provider = .codex → resultUsage row = none) :
    (∀ state, contextStep OrderedMap.set provider state row = state) ∨
      ∃ other identity', row = .contextUsage other ∧ IsReading other identity' ∧ identity ≠ identity' := by
  have hbarrier : agentTurnEventSupersession row ≠ contextBarrier := fun hc => by
    rw [touches_contextBarrier hc] at h
    cases h
  cases row with
  | contextCompaction | error => exact absurd rfl hbarrier
  | result event =>
    cases herror : event.isError with
    | true => exact absurd (by rw [agentTurnEventSupersession, herror]; rfl) hbarrier
    | false =>
      refine .inl fun state => ?_
      rw [contextStep, if_neg (by simp [invalidatesContext, herror])]
      by_cases hcodex : provider = .codex
      · have hnone : event.usage.bind (·.appServerUsage) = none := husage hcodex
        simp only [hcodex, if_true, readResult, hnone]
      · exact if_neg hcodex
  | contextCompactionStatus event =>
    by_cases hidle : event.status = .idle
    · refine .inl fun state => ?_
      exact if_neg (by simp [invalidatesContext, hidle])
    · exact absurd (by rw [agentTurnEventSupersession, if_neg hidle]) hbarrier
  | contextUsage other =>
    cases hoth : contextUsageIdentity other with
    | none =>
      exact absurd (by rw [agentTurnEventSupersession, contextUsageSupersession, hoth]) hbarrier
    | some identity' =>
      refine .inr ⟨other, identity', rfl, isReading_of_identity hoth, fun hc => ?_⟩
      rw [touches, slotKeys, any_cons, touchesKey, agentTurnEventSupersession,
        contextUsageSupersession, hoth, ← hc] at h
      simp [slotKeys] at h
  | _ => exact .inl fun state => rfl

lemma contextStep_reading (provider) (state)
    (reading) : contextStep OrderedMap.set provider state (.contextUsage reading) =
      readUsage OrderedMap.set state reading := rfl

/-- **A reading moves back** past rows that it may pass to the place of the
reading it renews. -/
theorem foldl_contextStep_renewed (hprev : IsReading previous identity)
    (hev : IsReading event identity) {after : List AgentTurnEvent}
    (haft : ∀ row ∈ after, touches (.identity .contextUsage identity) row = false)
    (husage : provider = .codex → ∀ row ∈ after, resultUsage row = none) (state) :
    after.foldl (contextStep OrderedMap.set provider) (readUsage OrderedMap.set state event) =
      readUsage OrderedMap.set (after.foldl (contextStep OrderedMap.set provider)
        (readUsage OrderedMap.set state previous)) event := by
  refine @And.left _ (HasPlace identity (after.foldl (contextStep OrderedMap.set provider)
    (readUsage OrderedMap.set state previous))) ?_
  induction after using List.reverseRecOn with
  | nil =>
    exact ⟨(readUsage_again hprev hev state).symm, hasPlace_readUsage hprev state⟩
  | append_singleton after row ih =>
    obtain ⟨hmov, hplc⟩ := ih (fun row hmem => haft row (mem_append_left _ hmem))
      fun hcodex row hmem => husage hcodex row (mem_append_left _ hmem)
    rw [foldl_append, foldl_append, foldl_cons, foldl_cons, foldl_nil, foldl_nil, hmov]
    rcases contextStep_of_untouched (haft row (by simp))
      (fun hcodex => husage hcodex row (by simp)) with hqt | ⟨other, identity', rfl, hoth, hne⟩
    · rw [hqt, hqt]
      exact ⟨rfl, hplc⟩
    · rw [contextStep_reading, contextStep_reading]
      exact ⟨readUsage_comm hev hoth hne hplc, hplc.readUsage hoth⟩

lemma contextStep_placement (provider) (state)
    (rows) (event) :
    contextStep OrderedMap.set provider state (placement rows event).1 =
      contextStep OrderedMap.set provider state event := by
  rcases placement_cases rows event with hsame | ⟨_, _, hpl, -, -, tick, -, rfl, -⟩
  · rw [hsame]
  · rw [hpl]; rfl

lemma foldl_contextStep_mergeBatches (h : (mergeBatches batches).truncated = false)
    (hkeeps : Along (ReadingKeepsUsage provider) batches.flatten) :
    (mergeBatches batches).events.foldl (contextStep OrderedMap.set provider) {} =
      batches.flatten.foldl (contextStep OrderedMap.set provider) {} := by
  refine foldl_mergeBatches (fun state last event fused hfu => ?_)
    (fun rows event _ _ => contextStep_placement provider _ rows event)
    (fun before previous after event merged target hkeep hplc htarg haft hmrg => ?_)
    h hkeeps
  · obtain ⟨channel, lastText, nextText, fusedText, rfl, rfl, rfl, -⟩ :=
      coalesceAgentTextEvents_eq_some_iff.1 hfu
    cases channel <;> rfl
  · obtain ⟨hsnap, -, -⟩ := placement_target htarg
    rw [← contextStep_placement provider _ (before ++ previous :: after) event]
    have hcases := placement_cases (before ++ previous :: after) event
    generalize (placement (before ++ previous :: after) event).1 = placed at *
    cases hmrg with
    | backgroundTask | subagent | subagentUsage => rfl
    | @contextUsage previous next hident =>
      obtain rfl : .contextUsage next = event := by
        rcases hcases with hsame | ⟨_, _, hpl, -, -, tick, -, rfl, -⟩
        · exact hsame
        · cases hpl
      cases hsnap with
      | contextUsage hnext =>
        exact foldl_contextStep_renewed (isReading_of_identity (hident.trans hnext))
          (isReading_of_identity hnext) haft
          (fun hcodex => hkeep hcodex (by simp [contextModel]) _ hplc) _

/-- A thread whose last turn holds `events`. -/
def threadWith (provider : AgentCliKind) (earlier : List AgentTurn) (status : AgentTurnStatus)
    (events : List AgentTurnEvent) : AgentThread :=
  ⟨provider, earlier ++ [⟨status, events, false⟩]⟩

/-- **The meter reads the rows as the stream**, where nothing was truncated and no Codex reading was
moved before a result with usage of its own. -/
theorem agentContextWindow_mergeBatches {provider : AgentCliKind} {earlier : List AgentTurn}
    {status : AgentTurnStatus} {batches : List (List AgentTurnEvent)}
    {loggedWindow : Option AgentContextWindow}
    (hmodels : (contextModels batches.flatten).length ≤ 16)
    (h : (mergeBatches batches).truncated = false)
    (hkeeps : Along (ReadingKeepsUsage provider) batches.flatten) :
    agentContextWindow (some (threadWith provider earlier status (mergeBatches batches).events))
        loggedWindow =
      agentContextWindow (some (threadWith provider earlier status batches.flatten))
        loggedWindow := by
  have hrows := foldl_contextStep_eq_set provider
    (fun event hmem _ hmodel => mem_contextModels h (.inr hmem) hmodel) hmodels
  have hstream := foldl_contextStep_eq_set provider
    (fun event hmem _ hmodel => mem_contextModels h (.inl hmem) hmodel) hmodels
  simp only [agentContextWindow, threadWith, getLast?_concat, hrows, hstream, foldl_contextStep_mergeBatches h hkeeps]

def codexCapacity (contextWindow : ℤ) : AgentTurnEvent :=
  .contextUsage
    { model := js "codex"
      inputTokens := none
      contextWindow := some (.int contextWindow) }

def codexOccupancy (inputTokens : ℤ) : AgentTurnEvent :=
  .contextUsage
    { model := js "codex"
      inputTokens := some (.int inputTokens)
      contextWindow := none }

/-- A breakdown of which only the total counts. -/
def totalOf (totalTokens : ℤ) : AgentAppServerTokenBreakdown :=
  ⟨.int 0, .int 0, .int 0, .int 0, .int 0, .int totalTokens⟩

/-- The end of a Codex turn that measured `totalTokens`. -/
def codexResult (totalTokens contextWindow : ℤ) : AgentTurnEvent :=
  .result
    { text := []
      isError := false
      usage := some
        { appServerUsage := some ⟨totalOf totalTokens, totalOf totalTokens, some (.int contextWindow)⟩
          inputTokens := .int 0
          outputTokens := .int 0
          contextTokens := none } }

/-- A reading on either side of a result. -/
def overruledReading : List (List AgentTurnEvent) :=
  [[codexCapacity 1000, codexOccupancy 10], [codexResult 10 1000, codexOccupancy 400]]

/-- **A moved reading is overruled**: the stream ends at 400 tokens, the rows at
the 10 of the result. -/
theorem codex_meter_ne :
    (mergeBatches overruledReading).truncated = false ∧
      (contextModels overruledReading.flatten).length ≤ 16 ∧
      agentContextWindow (some (threadWith .codex [] .running (mergeBatches overruledReading).events))
          none ≠
        agentContextWindow (some (threadWith .codex [] .running overruledReading.flatten)) none := by
  decide +kernel

/-- Readings before the result are renewed and keep the meter. -/
theorem agentContextWindow_mergeBatches_of_result :
    let batches := [[codexCapacity 1000, codexOccupancy 10], [codexOccupancy 400, codexResult 400 1000]]
    agentContextWindow (some (threadWith .codex [] .running (mergeBatches batches).events)) none =
      agentContextWindow (some (threadWith .codex [] .running batches.flatten)) none :=
  agentContextWindow_mergeBatches (by decide +kernel) (by decide +kernel) (by decide +kernel)

end CodevoEditor.Domain
