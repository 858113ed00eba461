/-
# The cache of byte states

`agentTextEventByteState` and the cache of `coalesceAgentTextEvents` in
`packages/agent-events/src/agentTurnEventMerge.ts`: the size of a text is remembered by the event
that has it, and the size of joined text is put together from the two that are remembered.
-/

import CodevoEditor.AgentEvents.Merge

namespace CodevoEditor.AgentEvents

open Js

/-- The event that holds a text, by which the cache knows it. -/
structure TextObject where
  id : ℕ
  channel : TextChannel
  event : AgentTextEvent

/-- `AgentTextByteState`, with the text that it is of. -/
structure CachedByteState extends AgentTextByteState where
  text : JsString

abbrev ByteStateCache := ℕ → Option CachedByteState

def ByteStateCache.set (cache : ByteStateCache) (id : ℕ) (state : CachedByteState) : ByteStateCache :=
  Function.update cache id (some state)

def agentTextEventByteState (cache : ByteStateCache) (object : TextObject) :
    CachedByteState × ByteStateCache :=
  match (cache object.id).filter (·.text = object.event.text) with
  | some cached => (cached, cache)
  | none =>
    let state : CachedByteState := { agentTextByteState object.event.text with text := object.event.text }
    (state, cache.set object.id state)

/-- A call of `coalesceAgentTextEvents`; an event without a text of its own is `none`.  The event
that it makes is known by `made`. -/
structure CoalesceCall where
  last : Option TextObject
  next : Option TextObject
  made : ℕ

def coalesceObjects (cache : ByteStateCache) (made : ℕ) (last next : TextObject) :
    Option TextObject × ByteStateCache :=
  if last.channel ≠ next.channel ∨ last.event.parentToolId ≠ next.event.parentToolId then (none, cache)
  else
    let (lastState, cache) := agentTextEventByteState cache last
    let (nextState, cache) := agentTextEventByteState cache next
    let repairsSplitScalar := lastState.trailingHighSurrogate && startsWithLowSurrogate next.event.text
    let byteLength := lastState.byteLength + nextState.byteLength - (if repairsSplitScalar then 2 else 0)
    if maxAgentEventTextBytes < byteLength then (none, cache)
    else
      let text := last.event.text ++ next.event.text
      (some ⟨made, next.channel, { next.event with text }⟩, cache.set made
        { byteLength, text, trailingHighSurrogate :=
            if next.event.text = [] then lastState.trailingHighSurrogate
            else endsWithHighSurrogate next.event.text })

def CoalesceCall.run (cache : ByteStateCache) (call : CoalesceCall) : Option TextObject × ByteStateCache :=
  match call.last, call.next with
  | some last, some next => coalesceObjects cache call.made last next
  | _, _ => (none, cache)

/-- What each of some calls returns, and the cache that it leaves. -/
def runCalls : ByteStateCache → List CoalesceCall → List (Option TextObject × ByteStateCache)
  | _, [] => []
  | cache, call :: calls => call.run cache :: runCalls (call.run cache).2 calls

def CachedByteState.Exact (state : CachedByteState) : Prop :=
  state.toAgentTextByteState = agentTextByteState state.text

def ByteStateCache.Exact (cache : ByteStateCache) : Prop := ∀ id state, cache id = some state → state.Exact

variable {cache : ByteStateCache}

lemma ByteStateCache.Exact.set (h : cache.Exact) {state} (hstate : state.Exact) (id) :
    (cache.set id state).Exact := by
  intro id' state' hget
  unfold ByteStateCache.set at hget
  rcases eq_or_ne id' id with rfl | hne
  · rw [Function.update_self] at hget
    exact Option.some.inj hget ▸ hstate
  · rw [Function.update_of_ne hne] at hget
    exact h id' state' hget

lemma agentTextEventByteState_spec (h : cache.Exact) (object) :
    ∃ cache' : ByteStateCache, cache'.Exact ∧ agentTextEventByteState cache object =
      (⟨agentTextByteState object.event.text, object.event.text⟩, cache') := by
  unfold agentTextEventByteState
  split
  case h_1 cached hcached =>
    obtain ⟨hget, htext⟩ := Option.filter_eq_some_iff.1 hcached
    have hexact := h _ _ hget
    obtain ⟨state, text⟩ := cached
    obtain rfl : text = object.event.text := of_decide_eq_true htext
    obtain rfl : state = agentTextByteState object.event.text := hexact
    exact ⟨cache, h, rfl⟩
  case h_2 => exact ⟨_, h.set (by rfl) _, rfl⟩

/-- What a call that returns an event has remembered of it. -/
def Remembered (outcome : Option TextObject × ByteStateCache) : Prop :=
  ∀ object ∈ outcome.1, utf8ByteLength object.event.text ≤ maxAgentEventTextBytes ∧
    outcome.2 object.id = some
      ⟨⟨utf8ByteLength object.event.text, endsWithHighSurrogate object.event.text⟩, object.event.text⟩

lemma coalesceObjects_spec (h : cache.Exact) (made last next) :
    Remembered (coalesceObjects cache made last next) ∧ (coalesceObjects cache made last next).2.Exact := by
  obtain ⟨cache₁, hcache₁, hlast⟩ := agentTextEventByteState_spec h last
  obtain ⟨cache₂, hcache₂, hnext⟩ := agentTextEventByteState_spec hcache₁ next
  have hlen := utf8ByteLength_coalesced last.event.text next.event.text
  have htrailing : (if next.event.text = [] then endsWithHighSurrogate last.event.text
      else endsWithHighSurrogate next.event.text) =
        endsWithHighSurrogate (last.event.text ++ next.event.text) := by
    split_ifs with hemp
    · rw [hemp, List.append_nil]
    · rw [endsWithHighSurrogate, endsWithHighSurrogate, List.getLast?_append_of_ne_nil _ hemp]
  unfold coalescedByteLength at hlen
  unfold coalesceObjects
  rw [hlast]
  dsimp only [agentTextByteState] at *
  rw [hnext]
  dsimp only
  rw [htrailing, hlen]
  split_ifs with hapart hover
  · exact ⟨by rintro _ ⟨⟩, h⟩
  · exact ⟨by rintro _ ⟨⟩, hcache₂⟩
  · refine ⟨?_, hcache₂.set (by rfl) _⟩
    intro object hobj
    obtain rfl := Option.some.inj hobj
    exact ⟨not_lt.1 hover, Function.update_self ..⟩

/-- **The bytes of joined text** that the cache holds are those of the text. -/
theorem coalesced_bytes_exact (calls : List CoalesceCall) :
    ∀ outcome ∈ runCalls (fun _ => none) calls, Remembered outcome := by
  suffices ∀ cache : ByteStateCache, cache.Exact → ∀ outcome ∈ runCalls cache calls, Remembered outcome from
    this _ nofun
  induction calls with
  | nil => exact fun _ _ => nofun
  | cons call calls ih =>
    intro cache h
    have hcall : Remembered (call.run cache) ∧ (call.run cache).2.Exact := by
      unfold CoalesceCall.run
      split
      · exact coalesceObjects_spec h _ _ _
      · exact ⟨nofun, h⟩
    exact List.forall_mem_cons.2 ⟨hcall.1, ih _ hcall.2⟩

/-- The halves of a surrogate pair. -/
def joinedHalves : CoalesceCall where
  last := some ⟨0, .assistantText, { text := [0xD83D] }⟩
  next := some ⟨1, .assistantText, { text := [0xDE00] }⟩
  made := 2

theorem joinedHalves_remembered : Remembered (joinedHalves.run fun _ => none) :=
  coalesced_bytes_exact [joinedHalves] _ List.mem_cons_self

end CodevoEditor.AgentEvents
