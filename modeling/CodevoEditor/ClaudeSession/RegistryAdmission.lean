/-
# One session per thread

What the registry holds under every interleaving of its callers.
-/

import CodevoEditor.ClaudeSession.SessionRegistry
import Mathlib.Data.Finset.Card

namespace CodevoEditor.ClaudeSession
namespace SessionRegistry

open Js List Option OrderedMap Function Finset

variable {χ ω : Type}

variable {session : ThreadSession χ ω}

namespace Stage

/-- The call holds a slot. -/
def held : Stage χ ω → Bool
  | spawning => true
  | drawing => true
  | assigning _ => true
  | starting _ => true
  | inserting _ => true
  | releasing _ => true
  | _ => false

/-- The session of the call, once it has been started and as long as it may be inserted. -/
def live : Stage χ ω → Option (ThreadSession χ ω)
  | starting session => some session
  | inserting session => some session
  | _ => none

lemma held_of_live {stage : Stage χ ω} (h : stage.live = some session) : stage.held := by
  cases stage <;> first | rfl | cases h

end Stage

namespace World

/-- The keys of which there is a session or a slot. -/
def taken (world : World χ ω) : Finset ClaudeSessionKey :=
  world.registry.sessions.keys.toFinset ∪ world.registry.starting.keys.toFinset

lemma mem_taken {world : World χ ω} {key : ClaudeSessionKey} : key ∈ world.taken ↔
    (world.registry.sessions.get? key).isSome ∨ (world.registry.starting.get? key).isSome := by
  unfold taken
  rw [mem_union, List.mem_toFinset, List.mem_toFinset, mem_keys_iff, mem_keys_iff]

section Steps

variable [DecidableEq χ] [DecidableEq ω] {max id : ℕ} {world next : World χ ω} {acquire : Acquire χ ω}

/-- **What a call may do when it goes on.** -/
inductive Advanced (max : ℕ) (world : World χ ω) (id : ℕ) (acquire : Acquire χ ω) : World χ ω → Prop
  | moved (stage : Stage χ ω) (registry : RegistryState χ ω) (hpre : acquire.stage.held = false)
      (hstage : stage.held = false)
      (hreg : registry = world.registry ∨
        ∃ session, session ∈ world.ended ∧ registry = world.registry.remove session) :
      Advanced max world id acquire ({ world with registry := registry }.goTo id acquire stage)
  | reserved (attempts : ℕ) (registry : RegistryState χ ω) (hpre : acquire.stage = .reserving (attempts + 1))
      (hreg : world.registry.reserveSlot max acquire.request.key = .ok (.reserved registry)) :
      Advanced max world id acquire ({ world with registry := registry }.goTo id acquire .spawning)
  | spawned (hpre : acquire.stage = .spawning) :
      Advanced max world id acquire (world.goTo id acquire .drawing)
  | failed (outcome : Except String (SessionLease χ ω)) (hpre : acquire.stage.held) :
      Advanced max world id acquire (world.goTo id acquire (.releasing outcome))
  | drew (session : ThreadSession χ ω) (hpre : acquire.stage = .drawing)
      (hnum : session.number = world.drawn) (hkey : session.key = acquire.request.key) :
      Advanced max world id acquire ({ world with drawn := world.drawn + 1 }.goTo id acquire (.assigning session))
  | assigned (session : ThreadSession χ ω) (hpre : acquire.stage = .assigning session) :
      Advanced max world id acquire ({ world with
        registry := world.registry.assign acquire.request.key session.generation
        started := session :: world.started }.goTo id acquire (.starting session))
  | started (session : ThreadSession χ ω) (hpre : acquire.stage = .starting session) :
      Advanced max world id acquire (world.goTo id acquire (.inserting session))
  | inserted (session : ThreadSession χ ω) (outcome : Except String (SessionLease χ ω))
      (hpre : acquire.stage = .inserting session) :
      Advanced max world id acquire ({ world with
        registry := (world.registry.insert acquire.request.key session).1 }.goTo id acquire (.releasing outcome))
  | released (outcome : Except String (SessionLease χ ω)) (hpre : acquire.stage = .releasing outcome) :
      Advanced max world id acquire ({ world with
        registry := world.registry.release acquire.request.key }.goTo id acquire (.finished outcome))

omit [DecidableEq χ] [DecidableEq ω] in
lemma held_afterDisplacing (existing : Option (ThreadSession χ ω)) (max : ℕ) :
    (afterDisplacing existing max).held = false := by
  cases existing <;> rfl

variable (request : SessionRequest χ ω)

omit [DecidableEq χ] [DecidableEq ω] in
lemma held_restartStage (session)
    (reason) (termination) (ending : Bool) :
    (restartStage request session reason termination ending).held = false := by
  unfold restartStage
  dsimp only
  split_ifs <;> rfl

lemma held_decideStage (session)
    (attempts max : ℕ) (facts) (pinned : Bool) (termination)
    (ending : Bool) : (decideStage request session attempts max facts pinned termination ending).held = false := by
  unfold decideStage
  split
  · split_ifs <;> rfl
  · rfl
  · rfl
  · exact held_restartStage request session _ termination ending

lemma Advanced.of_removed {stage} (hpre : acquire.stage.held = false)
    (hstg : stage.held = false) {done}
    (h : (if !done then some (world.goTo id acquire (.finished (.error stopTimeoutError))) else if session ∉
      world.ended then none else some ({ world with registry := world.registry.remove session }.goTo id acquire
      stage)) = some next) :
    Advanced max world id acquire next := by
  split_ifs at h with hdone hend
  · cases h
    exact .moved (.finished (.error stopTimeoutError)) world.registry hpre rfl (.inl rfl)
  · cases h
    exact .moved stage _ hpre hstg (.inr ⟨session, hend, rfl⟩)

lemma advanced_of_advance {answer} (h : world.advance max id acquire answer = some next) :
    Advanced max world id acquire next := by
  have hmov {stage} (hpre : acquire.stage.held = false) (hstg : stage.held = false)
      (hnext : some (world.goTo id acquire stage) = some next) : Advanced max world id acquire next := by
    cases hnext
    exact .moved stage world.registry hpre hstg (.inl rfl)
  unfold advance at h
  dsimp only at h
  split at h
  · rename_i hstg
    exact hmov (by rw [hstg]; rfl) (held_afterDisplacing _ _) h
  · rename_i hstg
    exact .of_removed (by rw [hstg]; rfl) rfl h
  · rename_i hstg
    exact hmov (by rw [hstg]; rfl) (held_decideStage _ _ _ _ _ _ _ _) h
  · rename_i hstg
    exact .of_removed (by rw [hstg]; rfl) rfl h
  · rename_i hstg
    split at h
    · exact hmov (by rw [hstg]; rfl) rfl h
    · exact hmov (by rw [hstg]; rfl) rfl h
  · rename_i hstg
    exact hmov (by rw [hstg]; rfl) rfl h
  · rename_i attempts hstg
    split at h
    · exact hmov (by rw [hstg]; rfl) rfl h
    · rename_i registry hreserve
      cases h
      exact .reserved attempts registry hstg hreserve
    · exact hmov (by rw [hstg]; rfl) rfl h
  · rename_i hstg
    split at h
    · exact hmov (by rw [hstg]; rfl) rfl h
    · split_ifs at h
      · exact hmov (by rw [hstg]; rfl) rfl h
      · exact hmov (by rw [hstg]; rfl) rfl h
  · rename_i hstg
    exact .of_removed (by rw [hstg]; rfl) rfl h
  · rename_i hstg
    split at h
    · cases h
      exact .failed _ (by rw [hstg]; rfl)
    · cases h
      exact .spawned hstg
  · rename_i hstg
    cases h
    exact .drew _ hstg rfl rfl
  · rename_i session hstg
    cases h
    exact .assigned session hstg
  · rename_i session _ hstg
    split at h
    · cases h
      exact .failed _ (by rw [hstg]; rfl)
    · cases h
      exact .started session hstg
  · rename_i session hstg
    cases h
    exact .inserted session _ hstg
  · rename_i outcome hstg
    cases h
    exact .released outcome hstg
  · cases h

/-- **What an event may do.** -/
inductive Stepped (max : ℕ) (world : World χ ω) : Event χ ω → World χ ω → Prop
  | acquired (id : ℕ) (request : SessionRequest χ ω) (stage : Stage χ ω) (hstage : stage.held = false) :
      Stepped max world (.acquire id request) (world.put id ⟨request, stage⟩)
  | advanced (id : ℕ) (answer : Answer χ ω) (acquire : Acquire χ ω) (next : World χ ω)
      (hid : world.acquires id = some acquire) (hnext : Advanced max world id acquire next) :
      Stepped max world (.advance id answer) next
  | ended (session : ThreadSession χ ω) (hstart : session ∈ world.started) :
      Stepped max world (.ended session) { world with
        registry := world.registry.sessionEnded session.key session.generation
        ended := session :: world.ended }
  | closed : Stepped max world .close { world with registry := world.registry.closeAdmission }

lemma stepped_of_step {event} (h : world.step max event = some next) : Stepped max world event next := by
  cases event with
  | acquire id request =>
    unfold step at h
    dsimp only at h
    split at h
    · cases h
    split at h
    · cases h
      exact .acquired id request _ rfl
    · cases h
      exact .acquired id request _ rfl
  | advance id answer =>
    unfold step at h
    dsimp only at h
    split at h
    · cases h
    · rename_i acquire hid
      exact .advanced id answer acquire next hid (advanced_of_advance h)
  | ended session =>
    unfold step at h
    dsimp only at h
    split_ifs at h with hst
    cases h
    exact .ended session hst
  | close =>
    cases h
    exact .closed

end Steps

end World

/-! ### Each look -/

namespace RegistryState

variable {state registry : RegistryState χ ω} {key : ClaudeSessionKey}

lemma reserveSlot_spec {max} (h : state.reserveSlot max key = .ok (.reserved registry)) :
    state.starting.get? key = none ∧ state.sessions.get? key = none ∧
      state.sessions.size + state.starting.size < max ∧
      registry = { state with starting := state.starting.set key ⟨none, false⟩ } := by
  unfold reserveSlot at h
  split_ifs at h with hcl hbusy hroom
  · rw [Bool.or_eq_true, not_or, has_eq, has_eq, Bool.not_eq_true,
      Bool.not_eq_true, isSome_eq_false_iff, isSome_eq_false_iff, isNone_iff_eq_none,
      isNone_iff_eq_none] at hbusy
    cases h
    exact ⟨hbusy.1, hbusy.2, hroom, rfl⟩
  · cases h

lemma starting_remove (session) : (state.remove session).starting = state.starting := by
  unfold remove
  split_ifs <;> rfl

variable {other : ThreadSession χ ω}

lemma sessions_remove (h : (state.remove session).sessions.get? key = some other) :
    state.sessions.get? key = some other := by
  unfold remove at h
  split_ifs at h
  · dsimp only at h
    rw [get?_delete] at h
    split_ifs at h
    exact h
  · exact h

lemma assign_of_get? {slot} (h : state.starting.get? key = some slot) (generation : ℕ) :
    state.assign key generation =
      { state with starting := state.starting.set key { slot with generation := some generation } } := by
  unfold assign
  rw [h]

lemma starting_insert (session) : (state.insert key session).1.starting = state.starting := by
  unfold insert
  dsimp only
  split_ifs <;> rfl

/-- **A session is inserted** while admission is open, where it has not ended. -/
theorem sessions_insert {place}
    (h : (state.insert key session).1.sessions.get? place = some other) :
    state.sessions.get? place = some other ∨
      place = key ∧ other = session ∧ state.closed = false ∧ state.sessions.get? key = none ∧
        (state.starting.get? key).any StartingSlot.ended = false := by
  unfold insert at h
  dsimp only at h
  split_ifs at h with hcl hend hbusy
  · exact .inl h
  · exact .inl h
  · exact .inl h
  · dsimp only at h
    rw [get?_set] at h
    split_ifs at h with heq
    · rw [has_eq, Bool.not_eq_true, isSome_eq_false_iff, isNone_iff_eq_none] at hbusy
      exact .inr ⟨heq, (some.inj h).symm, Bool.not_eq_true _ ▸ hcl, hbusy, Bool.not_eq_true _ ▸ hend⟩
    · exact .inl h

/-- **An end that is reported**: the session is registered no more, and its slot says so. -/
theorem sessions_sessionEnded {generation} {place}
    (h : (state.sessionEnded key generation).sessions.get? place = some other) :
    state.sessions.get? place = some other ∧ (place = key → other.generation ≠ generation) := by
  unfold sessionEnded at h
  dsimp only at h
  split_ifs at h with hadmitted
  · rw [get?_delete] at h
    split_ifs at h with heq
    exact ⟨h, fun hkey => absurd hkey heq⟩
  · refine ⟨h, fun hkey hgen => hadmitted ?_⟩
    rw [← hkey, h]
    exact decide_eq_true hgen

lemma starting_sessionEnded (generation : ℕ) (place) :
    (state.sessionEnded key generation).starting.get? place =
      if place = key then (state.starting.get? key).map fun slot =>
        if slot.generation = some generation then { slot with ended := true } else slot
      else state.starting.get? place := by
  unfold sessionEnded
  cases hslot : state.starting.get? key with
  | none =>
    by_cases heq : place = key
    · rw [if_pos heq, heq, map_none]
      exact hslot
    · rw [if_neg heq]
  | some slot =>
    dsimp only
    rw [map_some]
    split_ifs with hgen heq heq
    · rw [heq, get?_set, if_pos rfl]
    · rw [get?_set, if_neg heq]
    · rw [heq]
      exact hslot
    · rfl

end RegistryState

namespace World

/-- **What holds of the registry and of the calls under way.** -/
structure Ok (world : World χ ω) : Prop where
  /-- A call that holds a slot holds the one of its key. -/
  slot : ∀ id acquire, world.acquires id = some acquire → acquire.stage.held →
    (world.registry.starting.get? acquire.request.key).isSome
  /-- No other call holds it. -/
  alone : ∀ id acquire other acquire', world.acquires id = some acquire →
    world.acquires other = some acquire' → acquire.stage.held → acquire'.stage.held →
    acquire.request.key = acquire'.request.key → id = other
  /-- The slot says whether the session that is started in it has ended. -/
  live : ∀ id acquire session, world.acquires id = some acquire → acquire.stage.live = some session →
    session.key = acquire.request.key ∧ session ∈ world.started ∧
      ∃ slot, world.registry.starting.get? acquire.request.key = some slot ∧
        slot.generation = some session.generation ∧ (session ∈ world.ended → slot.ended)
  fresh : ∀ id acquire session, world.acquires id = some acquire → acquire.stage = .assigning session →
    session.key = acquire.request.key ∧ session.number < world.drawn ∧
      ∀ started ∈ world.started, started.number ≠ session.number
  apart : ∀ id acquire session other acquire' session', world.acquires id = some acquire →
    acquire.stage = .assigning session → world.acquires other = some acquire' →
    acquire'.stage = .assigning session' → session.number = session'.number → id = other
  started_lt : ∀ session ∈ world.started, session.number < world.drawn
  ended_started : ∀ session ∈ world.ended, session ∈ world.started
  /-- A session that is registered has not reported its end. -/
  registered : ∀ key session, world.registry.sessions.get? key = some session →
    session.key = key ∧ session ∈ world.started ∧ session ∉ world.ended

lemma ok_new : (new : World χ ω).Ok where
  slot := fun _ _ h => by cases h
  alone := fun _ _ _ _ h => by cases h
  live := fun _ _ _ h => by cases h
  fresh := fun _ _ _ h => by cases h
  apart := fun _ _ _ _ _ _ h => by cases h
  started_lt := nofun
  ended_started := nofun
  registered := fun _ _ h => by cases h

section Frame

variable {world next : World χ ω} {id : ℕ} {acquire : Acquire χ ω} {stage : Stage χ ω}

lemma Ok.others_ne (h : world.Ok) (hid : world.acquires id = some acquire)
    (hheld : acquire.stage.held) {other} {acquire'} (hne : other ≠ id)
    (hoth : world.acquires other = some acquire') (hheld' : acquire'.stage.held) :
    acquire'.request.key ≠ acquire.request.key := fun heq =>
  hne (h.alone other acquire' id acquire hoth hid hheld' hheld heq)

variable (stage) in
lemma Ok.frame (h : world.Ok) (hid : world.acquires id = some acquire)
    (hacquires : next.acquires = Function.update world.acquires id (some { acquire with stage := stage }))
    (hoths : ∀ other acquire', other ≠ id → world.acquires other = some acquire' →
      acquire'.stage.held → next.registry.starting.get? acquire'.request.key =
        world.registry.starting.get? acquire'.request.key)
    (hslot : stage.held → (next.registry.starting.get? acquire.request.key).isSome ∧
      ∀ other acquire', other ≠ id → world.acquires other = some acquire' → acquire'.stage.held →
        acquire'.request.key ≠ acquire.request.key)
    (hlive : ∀ session, stage.live = some session → session.key = acquire.request.key ∧
      session ∈ next.started ∧ ∃ slot, next.registry.starting.get? acquire.request.key = some slot ∧
        slot.generation = some session.generation ∧ (session ∈ next.ended → slot.ended))
    (hfresh : ∀ session, stage = .assigning session → session.key = acquire.request.key ∧
      session.number < next.drawn ∧ (∀ started ∈ next.started, started.number ≠ session.number) ∧
      ∀ other acquire' session', world.acquires other = some acquire' →
        acquire'.stage = .assigning session' → session'.number ≠ session.number)
    (hst : ∀ session ∈ next.started, session ∈ world.started ∨ acquire.stage = .assigning session)
    (hmono : ∀ session ∈ world.started, session ∈ next.started) (hdrawn : world.drawn ≤ next.drawn)
    (hend : next.ended = world.ended)
    (hregistered : ∀ key session, next.registry.sessions.get? key = some session →
      world.registry.sessions.get? key = some session ∨
        session.key = key ∧ session ∈ next.started ∧ session ∉ next.ended) : next.Ok := by
  have hat {other} {acquire'} (hoth : next.acquires other = some acquire') :
      other = id ∧ acquire' = { acquire with stage := stage } ∨
        other ≠ id ∧ world.acquires other = some acquire' := by
    rw [hacquires] at hoth
    by_cases heq : other = id
    · rw [heq, update_self] at hoth
      exact .inl ⟨heq, (some.inj hoth).symm⟩
    · rw [update_of_ne heq] at hoth
      exact .inr ⟨heq, hoth⟩
  refine ⟨fun other acquire' hoth hheld => ?_, fun first a second a' hfst hsnd hheld hheld' hkey => ?_,
    fun other acquire' session hoth hsess => ?_, fun other acquire' session hoth hsess => ?_,
    fun first a session second a' session' hfst hassg hsnd hassg' hnum => ?_,
    fun session hsess => ?_, fun session hsess => ?_, fun key session hsess => ?_⟩
  · rcases hat hoth with ⟨-, rfl⟩ | ⟨hne, hpre⟩
    · exact (hslot hheld).1
    · rw [hoths other acquire' hne hpre hheld]
      exact h.slot other acquire' hpre hheld
  · rcases hat hfst with ⟨rfl, rfl⟩ | ⟨hne, hpre⟩
    · rcases hat hsnd with ⟨rfl, -⟩ | ⟨hne', hpre'⟩
      · rfl
      · exact absurd hkey.symm ((hslot hheld).2 second a' hne' hpre' hheld')
    · rcases hat hsnd with ⟨rfl, rfl⟩ | ⟨hne', hpre'⟩
      · exact absurd hkey ((hslot hheld').2 first a hne hpre hheld)
      · exact h.alone first a second a' hpre hpre' hheld hheld' hkey
  · rcases hat hoth with ⟨-, rfl⟩ | ⟨hne, hpre⟩
    · exact hlive session hsess
    · obtain ⟨hkey, hmem, slot, hget, hgen, hslotEnded⟩ := h.live other acquire' session hpre hsess
      refine ⟨hkey, hmono session hmem, slot, ?_, hgen, ?_⟩
      · rw [hoths other acquire' hne hpre (Stage.held_of_live hsess), hget]
      · rw [hend]
        exact hslotEnded
  · rcases hat hoth with ⟨-, rfl⟩ | ⟨hne, hpre⟩
    · obtain ⟨hkey, hlt, hnums, -⟩ := hfresh session hsess
      exact ⟨hkey, hlt, hnums⟩
    · obtain ⟨hkey, hlt, hnums⟩ := h.fresh other acquire' session hpre hsess
      refine ⟨hkey, by omega, fun started hmem heq => ?_⟩
      rcases hst started hmem with hold | hassg
      · exact hnums started hold heq
      · exact hne (h.apart other acquire' session id acquire started hpre hsess hid hassg heq.symm)
  · rcases hat hfst with ⟨rfl, rfl⟩ | ⟨hne, hpre⟩
    · rcases hat hsnd with ⟨rfl, -⟩ | ⟨hne', hpre'⟩
      · rfl
      · exact absurd hnum.symm ((hfresh session hassg).2.2.2 second a' session' hpre' hassg')
    · rcases hat hsnd with ⟨rfl, rfl⟩ | ⟨hne', hpre'⟩
      · exact absurd hnum ((hfresh session' hassg').2.2.2 first a session hpre hassg)
      · exact h.apart first a session second a' session' hpre hassg hpre' hassg' hnum
  · rcases hst session hsess with hold | hassg
    · have hlt := h.started_lt session hold
      omega
    · have hlt := (h.fresh id acquire session hid hassg).2.1
      omega
  · rw [hend] at hsess
    exact hmono session (h.ended_started session hsess)
  · rcases hregistered key session hsess with hold | hnew
    · obtain ⟨hkey, hmem, hnot⟩ := h.registered key session hold
      rw [hend]
      exact ⟨hkey, hmono session hmem, hnot⟩
    · exact hnew

end Frame

section Advanced

variable {world next : World χ ω} {max id : ℕ} {acquire : Acquire χ ω}

lemma Ok.frame_quiet (h : world.Ok) (hid : world.acquires id = some acquire) {stage}
    {registry} (hstarting : registry.starting = world.registry.starting)
    (hregistered : ∀ key session, registry.sessions.get? key = some session →
      world.registry.sessions.get? key = some session ∨
        session.key = key ∧ session ∈ world.started ∧ session ∉ world.ended)
    (hheld : stage.held → acquire.stage.held)
    (hlive : ∀ session, stage.live = some session → acquire.stage.live = some session)
    (hassg : ∀ session, stage ≠ .assigning session) :
    ({ world with registry := registry }.goTo id acquire stage).Ok := by
  refine h.frame stage hid rfl (fun other acquire' _ _ _ => ?_) (fun hheld' => ?_)
    (fun session hsess => ?_) (fun session heq => absurd heq (hassg session))
    (fun session hmem => .inl hmem) (fun session hmem => hmem) le_rfl rfl hregistered
  · change registry.starting.get? acquire'.request.key = _
    rw [hstarting]
  · refine ⟨?_, fun other acquire' hne hoth hother' => h.others_ne hid (hheld hheld') hne hoth hother'⟩
    change (registry.starting.get? acquire.request.key).isSome
    rw [hstarting]
    exact h.slot id acquire hid (hheld hheld')
  · obtain ⟨hkey, hmem, slot, hget, hrest⟩ := h.live id acquire session hid (hlive session hsess)
    refine ⟨hkey, hmem, slot, ?_, hrest⟩
    change registry.starting.get? acquire.request.key = some slot
    rw [hstarting, hget]

theorem Ok.advanced (h : world.Ok) (hid : world.acquires id = some acquire)
    (hnext : Advanced max world id acquire next) : next.Ok := by
  cases hnext with
  | moved stage registry hpre hstg hreg =>
    have hlive {session} (hsess : stage.live = some session) : False := by
      rw [Stage.held_of_live hsess] at hstg
      cases hstg
    have hassg session : stage ≠ .assigning session := fun heq => by
      rw [heq] at hstg
      cases hstg
    refine h.frame_quiet hid ?_ (fun key session hsess => ?_) (fun hheld => ?_)
      (fun session hsess => (hlive hsess).elim) hassg
    · rcases hreg with rfl | ⟨session, -, rfl⟩
      · rfl
      · exact RegistryState.starting_remove session
    · rcases hreg with rfl | ⟨removed, -, rfl⟩
      · exact .inl hsess
      · exact .inl (RegistryState.sessions_remove hsess)
    · rw [hstg] at hheld
      cases hheld
  | reserved attempts registry hpre hreg =>
    obtain ⟨hstarting, hsessions, -, rfl⟩ := RegistryState.reserveSlot_spec hreg
    have hoths other acquire' (hoth : world.acquires other = some acquire')
        (hheld : acquire'.stage.held) : acquire'.request.key ≠ acquire.request.key := fun heq => by
      have hslot := h.slot other acquire' hoth hheld
      rw [heq, hstarting] at hslot
      cases hslot
    refine h.frame .spawning hid rfl (fun other acquire' _ hoth hheld => ?_) (fun _ => ?_)
      (fun session hsess => by cases hsess) (fun session heq => by cases heq)
      (fun session hmem => .inl hmem) (fun session hmem => hmem) le_rfl rfl
      (fun key session hsess => .inl hsess)
    · change (world.registry.starting.set acquire.request.key ⟨none, false⟩).get? acquire'.request.key = _
      rw [get?_set, if_neg (hoths other acquire' hoth hheld)]
    · refine ⟨?_, fun other acquire' _ hoth hheld => hoths other acquire' hoth hheld⟩
      change ((world.registry.starting.set acquire.request.key ⟨none, false⟩).get? acquire.request.key).isSome
      rw [get?_set, if_pos rfl]
      rfl
  | spawned hpre =>
    exact h.frame_quiet hid rfl (fun key session hsess => .inl hsess)
      (fun _ => by rw [hpre]; rfl) (fun session hsess => by cases hsess)
      (fun session heq => by cases heq)
  | failed outcome hpre =>
    exact h.frame_quiet hid rfl (fun key session hsess => .inl hsess) (fun _ => hpre)
      (fun session hsess => by cases hsess) (fun session heq => by cases heq)
  | drew session hpre hnum hkey =>
    have hheld : acquire.stage.held := by
      rw [hpre]
      rfl
    refine h.frame (.assigning session) hid rfl (fun _ _ _ _ _ => rfl)
      (fun _ => ⟨h.slot id acquire hid hheld, fun other acquire' hne hoth hother' =>
        h.others_ne hid hheld hne hoth hother'⟩)
      (fun session hsess => by cases hsess) (fun drawn heq => ?_) (fun session hmem => .inl hmem)
      (fun session hmem => hmem) (Nat.le_succ _) rfl (fun key session hsess => .inl hsess)
    obtain rfl : session = drawn := by
      cases heq
      rfl
    refine ⟨hkey, ?_, fun started hmem => ?_, fun other acquire' other' hoth hassg => ?_⟩
    · change session.number < world.drawn + 1
      omega
    · have hlt := h.started_lt started hmem
      omega
    · have hlt := (h.fresh other acquire' other' hoth hassg).2.1
      omega
  | assigned session hpre =>
    have hheld : acquire.stage.held := by
      rw [hpre]
      rfl
    obtain ⟨hkey, hlt, hnums⟩ := h.fresh id acquire session hid hpre
    obtain ⟨slot, hslot⟩ := isSome_iff_exists.1 (h.slot id acquire hid hheld)
    have hassign := RegistryState.assign_of_get? hslot session.generation
    have hget : (world.registry.assign acquire.request.key session.generation).starting.get?
        acquire.request.key = some { slot with generation := some session.generation } := by
      rw [hassign]
      rw [get?_set, if_pos rfl]
    refine h.frame (.starting session) hid rfl (fun other acquire' hne hoth hother' => ?_)
      (fun _ => ⟨?_, fun other acquire' hne hoth hother' => h.others_ne hid hheld hne hoth hother'⟩)
      (fun started hst => ?_) (fun session heq => by cases heq) (fun started hmem => ?_)
      (fun started hmem => mem_cons_of_mem _ hmem) le_rfl rfl (fun key other hoth => .inl ?_)
    · change (world.registry.assign acquire.request.key session.generation).starting.get? _ = _
      rw [hassign]
      rw [get?_set, if_neg (h.others_ne hid hheld hne hoth hother')]
    · change ((world.registry.assign acquire.request.key session.generation).starting.get? _).isSome
      rw [hget]
      rfl
    · obtain rfl : session = started := some.inj hst
      refine ⟨hkey, mem_cons_self, _, hget, rfl, fun hend => ?_⟩
      exact absurd rfl (hnums session (h.ended_started session hend))
    · rcases mem_cons.1 hmem with rfl | hold
      · exact .inr hpre
      · exact .inl hold
    · change (world.registry.assign acquire.request.key session.generation).sessions.get? key = _ at hoth
      rw [hassign] at hoth
      exact hoth
  | started session hpre =>
    exact h.frame_quiet hid rfl (fun key session hsess => .inl hsess)
      (fun _ => by rw [hpre]; rfl) (fun other hoth => by rw [hpre]; exact hoth)
      (fun session heq => by cases heq)
  | inserted session outcome hpre =>
    have hlive : acquire.stage.live = some session := by
      rw [hpre]
      rfl
    obtain ⟨hkey, hmem, slot, hslot, -, hend⟩ := h.live id acquire session hid hlive
    refine h.frame_quiet hid (RegistryState.starting_insert session) (fun key other hoth => ?_)
      (fun _ => Stage.held_of_live hlive) (fun session hsess => by cases hsess)
      (fun session heq => by cases heq)
    rcases RegistryState.sessions_insert hoth with hold | ⟨rfl, rfl, -, -, hopen⟩
    · exact .inl hold
    · refine .inr ⟨hkey, hmem, fun hmem' => ?_⟩
      rw [hslot, any_some, hend hmem'] at hopen
      cases hopen
  | released outcome hpre =>
    have hheld : acquire.stage.held := by
      rw [hpre]
      rfl
    refine h.frame (.finished outcome) hid rfl (fun other acquire' hne hoth hother' => ?_)
      (fun hheld' => by cases hheld') (fun session hsess => by cases hsess)
      (fun session heq => by cases heq) (fun session hmem => .inl hmem) (fun session hmem => hmem) le_rfl rfl
      (fun key session hsess => .inl hsess)
    change (world.registry.starting.delete acquire.request.key).get? acquire'.request.key = _
    rw [get?_delete, if_neg (h.others_ne hid hheld hne hoth hother')]

end Advanced

section Steps

variable [DecidableEq χ] [DecidableEq ω] {max : ℕ} {world next : World χ ω} {event : Event χ ω}

theorem Ok.step (h : world.Ok) (hstep : world.step max event = some next) : next.Ok := by
  cases stepped_of_step hstep with
  | acquired id request stage hstg =>
    have hat {other} {acquire} (hoth : (world.put id ⟨request, stage⟩).acquires other =
        some acquire) : world.acquires other = some acquire ∨ acquire.stage = stage := by
      change Function.update world.acquires id (some ⟨request, stage⟩) other = some acquire at hoth
      by_cases heq : other = id
      · rw [heq, update_self] at hoth
        cases hoth
        exact .inr rfl
      · rw [update_of_ne heq] at hoth
        exact .inl hoth
    have hold {other} {acquire} (hoth : (world.put id ⟨request, stage⟩).acquires other =
        some acquire) (hheld : acquire.stage.held) : world.acquires other = some acquire := by
      rcases hat hoth with hpre | rfl
      · exact hpre
      · rw [hstg] at hheld
        cases hheld
    have hassg {acquire : Acquire χ ω} {session : ThreadSession χ ω}
        (heq : acquire.stage = .assigning session) : acquire.stage.held := by
      rw [heq]
      rfl
    exact {
      slot := fun other acquire hoth hheld => h.slot other acquire (hold hoth hheld) hheld
      alone := fun first acquire second acquire' hfst hsnd hheld hheld' hkey =>
        h.alone first acquire second acquire' (hold hfst hheld) (hold hsnd hheld') hheld hheld' hkey
      live := fun other acquire session hoth hsess =>
        h.live other acquire session (hold hoth (Stage.held_of_live hsess)) hsess
      fresh := fun other acquire session hoth heq =>
        h.fresh other acquire session (hold hoth (hassg heq)) heq
      apart := fun first acquire session second acquire' session' hfst heq hsnd heq' =>
        h.apart first acquire session second acquire' session' (hold hfst (hassg heq)) heq
          (hold hsnd (hassg heq')) heq'
      started_lt := h.started_lt
      ended_started := h.ended_started
      registered := h.registered }
  | advanced id answer acquire _ hid hnext => exact h.advanced hid hnext
  | ended session hst =>
    refine ⟨fun id acquire hid hheld => ?_, h.alone, fun id acquire other hid hoth => ?_, h.fresh, h.apart,
      h.started_lt, fun other hoth => ?_, fun key other hoth => ?_⟩
    · dsimp only
      rw [RegistryState.starting_sessionEnded]
      have hslot := h.slot id acquire hid hheld
      split_ifs with heq
      · rw [isSome_map, ← heq]
        exact hslot
      · exact hslot
    · obtain ⟨hkey, hmem, slot, hget, hgen, hend⟩ := h.live id acquire other hid hoth
      rw [RegistryState.starting_sessionEnded]
      refine ⟨hkey, hmem, ?_⟩
      by_cases heq : acquire.request.key = session.key
      · rw [if_pos heq, ← heq, hget, map_some]
        refine ⟨_, rfl, ?_, fun hmem' => ?_⟩
        · split_ifs <;> exact hgen
        · rcases mem_cons.1 hmem' with rfl | hold
          · rw [if_pos hgen]
          · split_ifs
            · rfl
            · exact hend hold
      · rw [if_neg heq]
        refine ⟨slot, hget, hgen, fun hmem' => ?_⟩
        rcases mem_cons.1 hmem' with rfl | hold
        · exact absurd hkey.symm heq
        · exact hend hold
    · rcases mem_cons.1 hoth with rfl | hold
      · exact hst
      · exact h.ended_started other hold
    · obtain ⟨hpre, hgen⟩ := RegistryState.sessions_sessionEnded hoth
      obtain ⟨hkey, hmem, hnot⟩ := h.registered key other hpre
      refine ⟨hkey, hmem, fun hmem' => ?_⟩
      rcases mem_cons.1 hmem' with rfl | hold
      · exact hgen hkey.symm rfl
      · exact hnot hold
  | closed =>
    exact ⟨h.slot, h.alone, h.live, h.fresh, h.apart, h.started_lt, h.ended_started, h.registered⟩

/-- The slot that an event reserves, where it happens. -/
def reserves (max : ℕ) (world : World χ ω) : Event χ ω → Option ClaudeSessionKey
  | .advance id _ =>
    match world.acquires id with
    | none => none
    | some acquire =>
      match acquire.stage, world.registry.reserveSlot max acquire.request.key with
      | .reserving (_ + 1), .ok (.reserved _) => some acquire.request.key
      | _, _ => none
  | _ => none

omit [DecidableEq χ] [DecidableEq ω] in
lemma taken_subset (hsessions : ∀ key session, next.registry.sessions.get? key = some session →
      key ∈ world.taken)
    (hstarting : ∀ key slot, next.registry.starting.get? key = some slot → key ∈ world.taken) :
    next.taken ⊆ world.taken := fun key hkey => by
  rcases mem_taken.1 hkey with hsess | hslot
  · obtain ⟨session, hsess⟩ := isSome_iff_exists.1 hsess
    exact hsessions key session hsess
  · obtain ⟨slot, hslot⟩ := isSome_iff_exists.1 hslot
    exact hstarting key slot hslot

omit [DecidableEq χ] [DecidableEq ω] in
lemma mem_taken_of_session {key : ClaudeSessionKey}
    (h : world.registry.sessions.get? key = some session) : key ∈ world.taken :=
  mem_taken.2 (.inl (by rw [h]; rfl))

omit [DecidableEq χ] [DecidableEq ω] in
lemma mem_taken_of_slot {key : ClaudeSessionKey} {slot : StartingSlot}
    (h : world.registry.starting.get? key = some slot) : key ∈ world.taken :=
  mem_taken.2 (.inr (by rw [h]; rfl))

/-- **Only a reservation takes a key**, and only while there is room. -/
theorem taken_step (h : world.Ok) (hstep : world.step max event = some next) :
    next.taken ⊆ world.taken ∨ ∃ key, world.reserves max event = some key ∧
      next.taken = insert key world.taken ∧
      world.registry.sessions.size + world.registry.starting.size < max := by
  cases stepped_of_step hstep with
  | acquired => exact .inl (Finset.Subset.refl _)
  | advanced id answer acquire _ hid hadv =>
    have hsame {held : World χ ω} (hreg : held.registry = world.registry) : held.taken ⊆ world.taken := by
      unfold taken
      rw [hreg]
    cases hadv with
    | moved stage registry hpre hstg hreg =>
      refine .inl (taken_subset (fun key session hsess => ?_) fun key slot hslot => ?_)
      · rcases hreg with rfl | ⟨removed, -, rfl⟩
        · exact mem_taken_of_session hsess
        · exact mem_taken_of_session (RegistryState.sessions_remove hsess)
      · rcases hreg with rfl | ⟨removed, -, rfl⟩
        · exact mem_taken_of_slot hslot
        · change (world.registry.remove removed).starting.get? key = some slot at hslot
          rw [RegistryState.starting_remove] at hslot
          exact mem_taken_of_slot hslot
    | reserved attempts registry hpre hreg =>
      obtain ⟨hstarting, hsessions, hroom, rfl⟩ := RegistryState.reserveSlot_spec hreg
      refine .inr ⟨acquire.request.key, ?_, ?_, hroom⟩
      · unfold reserves
        dsimp only
        rw [hid]
        dsimp only
        rw [hpre, hreg]
      · refine Finset.ext fun key => ?_
        rw [mem_insert, mem_taken, mem_taken]
        change _ ∨ ((world.registry.starting.set acquire.request.key ⟨none, false⟩).get? key).isSome ↔ _
        rw [get?_set]
        split_ifs with heq
        · exact ⟨fun _ => .inl heq, fun _ => .inr rfl⟩
        · exact ⟨fun h => .inr h, fun h => h.resolve_left heq⟩
    | spawned hpre => exact .inl (hsame rfl)
    | failed outcome hpre => exact .inl (hsame rfl)
    | drew session hpre hnum hkey => exact .inl (hsame rfl)
    | started session hpre => exact .inl (hsame rfl)
    | assigned session hpre =>
      have hheld : acquire.stage.held := by
        rw [hpre]
        rfl
      obtain ⟨slot, hslot⟩ := isSome_iff_exists.1 (h.slot id acquire hid hheld)
      have hassign := RegistryState.assign_of_get? hslot session.generation
      refine .inl (taken_subset (fun key other hoth => ?_) fun key other hoth => ?_)
      · change (world.registry.assign acquire.request.key session.generation).sessions.get? key = _ at hoth
        rw [hassign] at hoth
        exact mem_taken_of_session hoth
      · change (world.registry.assign acquire.request.key session.generation).starting.get? key = _ at hoth
        rw [hassign] at hoth
        rw [get?_set] at hoth
        split_ifs at hoth with heq
        · rw [heq]
          exact mem_taken_of_slot hslot
        · exact mem_taken_of_slot hoth
    | inserted session outcome hpre =>
      have hheld : acquire.stage.held := by
        rw [hpre]
        rfl
      obtain ⟨slot, hslot⟩ := isSome_iff_exists.1 (h.slot id acquire hid hheld)
      refine .inl (taken_subset (fun key other hoth => ?_) fun key other hoth => ?_)
      · rcases RegistryState.sessions_insert hoth with hold | ⟨rfl, -⟩
        · exact mem_taken_of_session hold
        · exact mem_taken_of_slot hslot
      · change (world.registry.insert acquire.request.key session).1.starting.get? key = some other at hoth
        rw [RegistryState.starting_insert] at hoth
        exact mem_taken_of_slot hoth
    | released outcome hpre =>
      refine .inl (taken_subset (fun key other hoth => mem_taken_of_session hoth) fun key other hoth => ?_)
      change (world.registry.starting.delete acquire.request.key).get? key = some other at hoth
      rw [get?_delete] at hoth
      split_ifs at hoth
      exact mem_taken_of_slot hoth
  | ended session =>
    refine .inl (taken_subset (fun key other hoth => ?_) fun key slot hslot => ?_)
    · exact mem_taken_of_session (RegistryState.sessions_sessionEnded hoth).1
    · dsimp only at hslot
      rw [RegistryState.starting_sessionEnded] at hslot
      split_ifs at hslot with heq
      · obtain ⟨before, hpre, -⟩ := map_eq_some_iff.1 hslot
        rw [heq]
        exact mem_taken_of_slot hpre
      · exact mem_taken_of_slot hslot
  | closed => exact .inl (Finset.Subset.refl _)

/-- **A session is registered while admission is open only.** -/
theorem sessions_step (hstep : world.step max event = some next) {key}
    (h : next.registry.sessions.get? key = some session) :
    world.registry.sessions.get? key = some session ∨ world.registry.closed = false := by
  cases stepped_of_step hstep with
  | acquired => exact .inl h
  | advanced id answer acquire _ hid hadv =>
    cases hadv with
    | moved stage registry hpre hstg hreg =>
      rcases hreg with rfl | ⟨removed, -, rfl⟩
      · exact .inl h
      · exact .inl (RegistryState.sessions_remove h)
    | reserved attempts registry hpre hreg =>
      obtain ⟨-, -, -, rfl⟩ := RegistryState.reserveSlot_spec hreg
      exact .inl h
    | assigned other hpre =>
      unfold RegistryState.assign at h
      split at h
      · exact .inl h
      · exact .inl h
    | inserted other outcome hpre =>
      rcases RegistryState.sessions_insert h with hold | ⟨-, -, hopen, -, -⟩
      · exact .inl hold
      · exact .inr hopen
    | _ => exact .inl h
  | ended other =>
    exact .inl (RegistryState.sessions_sessionEnded h).1
  | closed => exact .inl h

lemma closed_step (hstep : world.step max event = some next) (h : world.registry.closed) :
    next.registry.closed := by
  cases stepped_of_step hstep with
  | acquired => exact h
  | advanced id answer acquire _ hid hadv =>
    cases hadv with
    | moved stage registry hpre hstg hreg =>
      rcases hreg with rfl | ⟨removed, -, rfl⟩
      · exact h
      · change (world.registry.remove removed).closed
        unfold RegistryState.remove
        split_ifs <;> exact h
    | reserved attempts registry hpre hreg =>
      obtain ⟨-, -, -, rfl⟩ := RegistryState.reserveSlot_spec hreg
      exact h
    | assigned other hpre =>
      unfold RegistryState.assign
      split <;> exact h
    | inserted other outcome hpre =>
      unfold RegistryState.insert
      rw [if_pos h]
      exact h
    | _ => exact h
  | ended other =>
    exact h
  | closed => exact rfl

/-- **No other workspace holds the thread of a slot that is reserved.** -/
def Free (max : ℕ) (world : World χ ω) (event : Event χ ω) : Prop :=
  ∀ key, world.reserves max event = some key → ∀ other ∈ world.taken, other.threadId = key.threadId → other = key

/-- A thread has one key. -/
def OneEach (world : World χ ω) : Prop :=
  ∀ key ∈ world.taken, ∀ other ∈ world.taken, key.threadId = other.threadId → key = other

omit [DecidableEq χ] [DecidableEq ω] in
lemma card_taken_le (world : World χ ω) :
    world.taken.card ≤ world.registry.sessions.size + world.registry.starting.size := by
  refine (card_union_le _ _).trans ?_
  rw [← length_keys, ← length_keys]
  exact Nat.add_le_add (toFinset_card_le _) (toFinset_card_le _)

lemma card_taken_step (h : world.Ok) (hstep : world.step max event = some next)
    (hcard : world.taken.card ≤ max) : next.taken.card ≤ max := by
  rcases taken_step h hstep with hsubset | ⟨key, -, htkn, hroom⟩
  · exact (card_le_card hsubset).trans hcard
  · have hle := card_taken_le world
    have hinsert := card_insert_le key world.taken
    rw [htkn]
    omega

lemma OneEach.step (h : world.OneEach) (hok : world.Ok) (hstep : world.step max event = some next)
    (hfree : world.Free max event) : next.OneEach := by
  rcases taken_step hok hstep with hsubset | ⟨reserved, hreserves, htkn, -⟩
  · exact fun key hkey other hoth => h key (hsubset hkey) other (hsubset hoth)
  · intro key hkey other hoth hthr
    rw [htkn, mem_insert] at hkey hoth
    rcases hkey with rfl | hkey
    · rcases hoth with rfl | hoth
      · rfl
      · exact (hfree key hreserves other hoth hthr.symm).symm
    · rcases hoth with rfl | hoth
      · exact hfree other hreserves key hkey hthr
      · exact h key hkey other hoth hthr

variable (max) in
/-- **What each event that happens keeps, a run keeps.** -/
theorem after_invariant {P : World χ ω → Prop} {Q : World χ ω → Event χ ω → Prop}
    (hstep : ∀ world event next, P world → Q world event → World.step max world event = some next → P next)
    {world} (h : P world) (events)
    (hevs : ∀ front event back, events = front ++ event :: back → Q (world.after max front) event) :
    P (world.after max events) := by
  induction events generalizing world with
  | nil => exact h
  | cons event events ih =>
    have hrest : P ((world.step max event).getD world) := by
      cases hnext : world.step max event with
      | none => exact h
      | some next => exact hstep world event next h (hevs [] event events rfl) hnext
    exact ih hrest fun front other back hspl =>
      hevs (event :: front) other back (by rw [hspl]; rfl)

lemma after_append (world : World χ ω) (front back) :
    world.after max (front ++ back) = (world.after max front).after max back := foldl_append

lemma ok_after (max : ℕ) (events) : (World.new.after max events : World χ ω).Ok :=
  after_invariant max (P := Ok) (Q := fun _ _ => True) (fun _ _ _ hok _ hstep => hok.step hstep) ok_new events
    fun _ _ _ _ => trivial

/-- **Sessions are admitted.** Where each slot is reserved while no other workspace holds the
thread, a thread has one session at most. -/
theorem sessions_are_admitted (max : ℕ) (events : List (Event χ ω)) :
    ((∀ front event back, events = front ++ event :: back → (World.new.after max front).Free max event) →
      ∀ session ∈ (World.new.after max events).registry.sessions.values,
      ∀ other ∈ (World.new.after max events).registry.sessions.values,
        session.key.threadId = other.key.threadId → session = other) ∧
    (World.new.after max events).registry.sessions.size ≤ max ∧
    (∀ session ∈ (World.new.after max events).registry.sessions.values,
      session ∉ (World.new.after max events).ended) ∧
    ∀ front back, events = front ++ .close :: back →
      ∀ key session, (World.new.after max events).registry.sessions.get? key = some session →
        (World.new.after max front).registry.sessions.get? key = some session := by
  have hok := ok_after max events
  refine ⟨fun hfree session hsess other hother hthread => ?_, ?_, fun session hsess => ?_,
    fun front back hsplit key session hsess => ?_⟩
  · have hnew : (World.new : World χ ω).OneEach := fun _ hkey => by cases hkey
    have hone := (after_invariant max (P := fun world : World χ ω => world.OneEach ∧ world.Ok)
      (fun world event next hworld hevent hstep =>
        ⟨hworld.1.step hworld.2 hstep hevent, hworld.2.step hstep⟩)
      ⟨hnew, ok_new⟩ events hfree).1
    obtain ⟨key, hkey⟩ := mem_values_iff.1 hsess
    obtain ⟨key', hkey'⟩ := mem_values_iff.1 hother
    have heq : key = key' := by
      refine hone key (mem_taken_of_session hkey) key' (mem_taken_of_session hkey') ?_
      rw [← (hok.registered key session hkey).1, ← (hok.registered key' other hkey').1]
      exact hthread
    rw [heq, hkey'] at hkey
    exact (some.inj hkey).symm
  · have hcard := (after_invariant max (P := fun world : World χ ω => world.taken.card ≤ max ∧ world.Ok)
      (Q := fun _ _ => True) (fun world event next hworld _ hstep =>
        ⟨card_taken_step hworld.2 hstep hworld.1, hworld.2.step hstep⟩) ⟨Nat.zero_le _, ok_new⟩ events
      fun _ _ _ _ => trivial).1
    refine le_trans ?_ hcard
    have hnodup : (World.new.after max events : World χ ω).registry.sessions.keys.Nodup := OrderedMap.nodup _
    rw [← length_keys, ← toFinset_card_of_nodup hnodup]
    exact card_le_card subset_union_left
  · obtain ⟨key, hkey⟩ := mem_values_iff.1 hsess
    exact (hok.registered key session hkey).2.2
  · rw [hsplit, after_append] at hsess
    let before : World χ ω := World.new.after max front
    let closing : World χ ω := { before with registry := before.registry.closeAdmission }
    have hclose : closing.registry.closed ∧
        ∀ key session, closing.registry.sessions.get? key = some session →
          before.registry.sessions.get? key = some session := ⟨rfl, fun _ _ h => h⟩
    have hclosed := after_invariant max
      (P := fun world : World χ ω => world.registry.closed ∧
        ∀ key session, world.registry.sessions.get? key = some session →
          before.registry.sessions.get? key = some session)
      (Q := fun _ _ => True)
      (fun world event next hworld _ hstep => ⟨closed_step hstep hworld.1, fun key session h => by
        rcases sessions_step hstep h with hold | hopen
        · exact hworld.2 key session hold
        · rw [hworld.1] at hopen
          cases hopen⟩)
      hclose back fun _ _ _ _ => trivial
    exact hclosed.2 key session hsess

end Steps

end World

/-- The request of a workspace for a thread. -/
def requestOf (workspaceId : String) : SessionRequest Unit Unit :=
  ⟨⟨workspaceId, "thread"⟩, ⟨(), 0, ()⟩, none, .refuseIfBackground⟩

/-- A call that has reserved its slot goes on to the end. -/
def startedBy (id : ℕ) : List (Event Unit Unit) :=
  [.advance id (.spawned none), .advance id .go, .advance id .go, .advance id (.started none),
    .advance id .go, .advance id .go]

/-- Two workspaces ask for one thread at the same time. -/
def racingEvents : List (Event Unit Unit) :=
  [.acquire 0 (requestOf "first"), .acquire 1 (requestOf "second"), .advance 0 .go, .advance 1 .go,
    .advance 0 .go, .advance 1 .go] ++ startedBy 0 ++ startedBy 1

/-- **Two workspaces share a thread**: each has a session of it. -/
theorem two_workspaces_share_a_thread :
    ¬ ∀ events : List (Event Unit Unit),
      ∀ session ∈ (World.new.after maxLiveClaudeSessions events).registry.sessions.values,
      ∀ other ∈ (World.new.after maxLiveClaudeSessions events).registry.sessions.values,
        session.key.threadId = other.key.threadId → session = other := by
  intro h
  have hsessions : (World.new.after maxLiveClaudeSessions racingEvents).registry.sessions.values =
      [⟨0, ⟨"first", "thread"⟩, 1, ⟨(), 0, ()⟩⟩, ⟨1, ⟨"second", "thread"⟩, 2, ⟨(), 0, ()⟩⟩] := by decide
  have hsame := h racingEvents ⟨0, ⟨"first", "thread"⟩, 1, ⟨(), 0, ()⟩⟩ (by rw [hsessions]; decide)
    ⟨1, ⟨"second", "thread"⟩, 2, ⟨(), 0, ()⟩⟩ (by rw [hsessions]; decide) rfl
  cases hsame

end SessionRegistry
end CodevoEditor.ClaudeSession
