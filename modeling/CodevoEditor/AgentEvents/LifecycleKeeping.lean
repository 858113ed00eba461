/-
# No entry of a lifecycle is lost

What an event does to the entries that are there (`LifecycleEntries.Keeps`): an entry stays with its
end, or goes over into one that the event names.
-/

import CodevoEditor.AgentEvents.LifecycleRetention

namespace CodevoEditor.AgentEvents

open Js List Option OrderedMap

/-- The report that a child thread was given more to do. -/
def AgentTurnEvent.reopens : AgentTurnEvent → Bool
  | .subagentActivity event => event.activity = .interacted
  | _ => false

/-- A state that says that the subagent has ended. -/
def Terminal (state : Option AgentSubagentLifecycleState) : Prop :=
  state ≠ none ∧ state ≠ some .running

/-- What is recorded of the end of an entry is recorded in another. -/
structure AgentSubagentLifecycleEntry.Outlasts (reopens : Bool)
    (before after : AgentSubagentLifecycleEntry) : Prop where
  telemetry : before.telemetryState ≠ none → after.telemetryState ≠ none
  terminal : reopens = false → Terminal before.telemetryState → Terminal after.telemetryState
  result : before.resultState ≠ none → after.resultState ≠ none

section Outlasts

variable {reopens : Bool} {before middle after : AgentSubagentLifecycleEntry}

lemma AgentSubagentLifecycleEntry.Outlasts.refl (entry : AgentSubagentLifecycleEntry) :
    entry.Outlasts reopens entry := ⟨fun h => h, fun _ h => h, fun h => h⟩

lemma AgentSubagentLifecycleEntry.Outlasts.trans (h : before.Outlasts reopens middle)
    (h' : middle.Outlasts reopens after) : before.Outlasts reopens after where
  telemetry hpre := h'.telemetry (h.telemetry hpre)
  terminal hreopens hpre := h'.terminal hreopens (h.terminal hreopens hpre)
  result hpre := h'.result (h.result hpre)

lemma AgentSubagentLifecycleEntry.Outlasts.of_eq
    (htelem : after.telemetryState = before.telemetryState)
    (hres : after.resultState = before.resultState) : before.Outlasts reopens after where
  telemetry := htelem.symm ▸ fun h => h
  terminal := htelem.symm ▸ fun _ h => h
  result := hres.symm ▸ fun h => h

lemma AgentSubagentLifecycleEntry.Outlasts.of_terminal (h : Terminal after.telemetryState)
    (hres : after.resultState = before.resultState) : before.Outlasts reopens after where
  telemetry _ := h.1
  terminal _ _ := h
  result := hres.symm ▸ fun h => h

end Outlasts

variable {a b : Option AgentSubagentLifecycleState}

lemma terminal_terminalOf (h : Terminal a ∨ Terminal b) : Terminal (terminalOf a b) := by
  unfold terminalOf
  split_ifs with hfail hintr hdone
  · exact ⟨nofun, nofun⟩
  · exact ⟨nofun, nofun⟩
  · exact ⟨nofun, nofun⟩
  · have hnot (state : Option AgentSubagentLifecycleState) (hstate : Terminal state)
        (hfail : state ≠ some .failed) (hintr : state ≠ some .interrupted)
        (hdone : state ≠ some .completed) : False := by
      rcases state with _ | _ | _ | _ | _
      · exact hstate.1 rfl
      · exact hstate.2 rfl
      · exact hdone rfl
      · exact hfail rfl
      · exact hintr rfl
    rw [not_or] at hfail hintr hdone
    rcases h with h | h
    · exact (hnot a h hfail.1 hintr.1 hdone.1).elim
    · exact (hnot b h hfail.2 hintr.2 hdone.2).elim

lemma terminalOf_ne_none (h : a ≠ none ∨ b ≠ none) : terminalOf a b ≠ none := by
  unfold terminalOf
  split_ifs
  · exact nofun
  · exact nofun
  · exact nofun
  · intro hnone
    rw [or_eq_none_iff] at hnone
    exact h.elim (fun h => h hnone.1) (fun h => h hnone.2)

variable {entry : AgentSubagentLifecycleEntry}

lemma outlasts_mergeAliases (reopens : Bool) (first second)
    (h : entry = first ∨ entry = second) :
    entry.Outlasts reopens (mergeAliases first second) := by
  refine ⟨fun hent => terminalOf_ne_none ?_, fun _ hent => terminal_terminalOf ?_, fun hent hnone => ?_⟩
  · rcases h with rfl | rfl
    · exact .inl hent
    · exact .inr hent
  · rcases h with rfl | rfl
    · exact .inl hent
    · exact .inr hent
  · change (if _ then some AgentSubagentResultState.failed else _) = none at hnone
    split_ifs at hnone
    rw [or_eq_none_iff] at hnone
    rcases h with rfl | rfl
    · exact hent hnone.1
    · exact hent hnone.2

lemma outlasts_absorbAliases (reopens : Bool) (entries)
    (found : AgentSubagentLifecycleEntry) (aliases : List AgentSubagentLifecycleEntry)
    (h : entry ∈ found :: aliases) :
    entry.Outlasts reopens (absorbAliases entries found aliases).2 := by
  induction aliases generalizing entries found entry with
  | nil =>
    rw [mem_singleton.1 h]
    exact .refl found
  | cons second aliases ih =>
    have hmrg := ih (entries.delete second.id) (mergeAliases found second) mem_cons_self
    rcases mem_cons.1 h with heq | h
    · exact (outlasts_mergeAliases reopens found second (.inl heq)).trans hmrg
    · rcases mem_cons.1 h with heq | h
      · exact (outlasts_mergeAliases reopens found second (.inr heq)).trans hmrg
      · exact ih (entries.delete second.id) (mergeAliases found second) (mem_cons_of_mem _ h)

lemma outlasts_entryAfter (event : AgentTurnEvent) (entry : AgentSubagentLifecycleEntry)
    (openBatchKey : Option JsString) :
    entry.Outlasts event.reopens (entryAfter event entry openBatchKey).1 := by
  cases event with
  | toolResult event =>
    change entry.Outlasts false (afterToolResult entry event)
    unfold afterToolResult
    by_cases hres : entry.resultState = none
    · rw [if_pos hres]
      exact ⟨fun h => h, fun _ h => h, fun h => absurd hres h⟩
    · rw [if_neg hres]
      exact .refl entry
  | backgroundTask event =>
    change entry.Outlasts false (afterBackgroundTask entry event)
    have htitled : entry.Outlasts false
        (if event.status = .starting then withStartTitle entry event.description else entry) := by
      split_ifs
      · exact .of_eq rfl rfl
      · exact .refl entry
    unfold afterBackgroundTask
    refine htitled.trans ?_
    generalize (if event.status = .starting then _ else entry) = titled
    dsimp only
    split_ifs
    · exact .of_terminal ⟨nofun, nofun⟩ rfl
    · exact .refl titled
  | subagent event =>
    change entry.Outlasts false (afterSubagent entry event)
    have htitled : entry.Outlasts false
        (if event.status = .starting then withStartTitle entry event.description else entry) := by
      split_ifs
      · exact .of_eq rfl rfl
      · exact .refl entry
    unfold afterSubagent
    refine htitled.trans ?_
    generalize (if event.status = .starting then _ else entry) = titled
    dsimp only
    split_ifs with hfail hend
    · exact .of_terminal ⟨nofun, nofun⟩ rfl
    · exact .of_eq rfl rfl
    · refine ⟨fun _ => nofun, fun _ hterm => ⟨nofun, fun hnext => ?_⟩, fun h => h⟩
      -- a running report leaves a state that has ended
      have hended' : titled.telemetryState = some .completed ∨ titled.telemetryState = some .interrupted := by
        rcases hstate : titled.telemetryState with _ | _ | _ | _ | _
        · exact absurd hstate hterm.1
        · exact absurd hstate hterm.2
        · exact .inl rfl
        · exact absurd hstate hfail
        · exact .inr rfl
      exact hend ⟨hended', some.inj hnext⟩
  | subagentActivity event =>
    change entry.Outlasts (decide (event.activity = .interacted)) (afterActivity entry event)
    unfold afterActivity
    dsimp only
    by_cases hlive : event.activity = .interacted ∨ entry.telemetryState = none ∨ entry.telemetryState = some .running
    · rw [if_pos hlive]
      refine ⟨fun _ => nofun, fun hreopens hterm => ?_, fun h => h⟩
      rw [decide_eq_false_iff_not] at hreopens
      rcases hlive with hlive | hlive | hlive
      · exact absurd hlive hreopens
      · exact absurd hlive hterm.1
      · exact absurd hlive hterm.2
    · rw [if_neg hlive]
      exact .of_eq rfl rfl
  | subagentTurnDone event =>
    change entry.Outlasts false (afterTurnDone entry event)
    refine .of_terminal ⟨nofun, ?_⟩ rfl
    unfold afterTurnDone
    split_ifs <;> exact nofun
  | _ => exact .of_eq rfl rfl

/-! ### What becomes of the entries -/

/-- Each entry is under its id. -/
def Keyed (entries : LifecycleEntries) : Prop :=
  ∀ key entry, entries.get? key = some entry → entry.id = key

variable {entries : LifecycleEntries}

lemma Keyed.get?_of_mem (h : Keyed entries) (hent : entry ∈ entries.values) :
    entries.get? entry.id = some entry := by
  obtain ⟨key, hget⟩ := mem_values_iff.1 hent
  rw [h key entry hget, hget]

variable {key : JsString}

lemma Keyed.set (h : Keyed entries) (hid : entry.id = key) : Keyed (entries.set key entry) := by
  intro key' entry' hget
  rw [get?_set] at hget
  split_ifs at hget with hkey
  · rw [← some.inj hget, hid, hkey]
  · exact h key' entry' hget

/-- What becomes of an entry: it stays under its id, or it has an id of the
event, and is in an entry that has one, too. -/
def LivesOn (reopens : Bool) (identities : List SubagentEventIdentity) (after : LifecycleEntries)
    (entry : AgentSubagentLifecycleEntry) : Prop :=
  ∃ entry', after.get? entry'.id = some entry' ∧ entry.Outlasts reopens entry' ∧
    (entry'.id = entry.id ∧ entry'.alias = entry.alias ∨
      (∃ identity ∈ identities, identity.hits entry) ∧ ∃ identity ∈ identities, identity.hits entry')

/-- The entries after a step: each under its id, and, if nothing was in the way,
with all that there were. -/
structure Keeps (free : Prop) (reopens : Bool) (identities : List SubagentEventIdentity)
    (before after : LifecycleEntries) : Prop where
  keyed : Keyed after
  lives : free → ∀ key entry, before.get? key = some entry → LivesOn reopens identities after entry

variable {identity : SubagentEventIdentity}

section Keeps

variable {free free' : Prop} {reopens : Bool} {identities identities' : List SubagentEventIdentity}
  {before middle after : LifecycleEntries} {entry : AgentSubagentLifecycleEntry}

lemma LivesOn.of_get? (hget : after.get? entry.id = some entry) :
    LivesOn reopens identities after entry := ⟨entry, hget, .refl entry, .inl ⟨rfl, rfl⟩⟩

lemma Keeps.refl (h : Keyed before) : Keeps free reopens identities before before where
  keyed := h
  lives _ key entry hget := .of_get? ((h key entry hget).symm ▸ hget)

variable {entry' : AgentSubagentLifecycleEntry}

lemma hits_congr (h : entry'.alias = entry.alias) (hhit : identity.hits entry') : identity.hits entry := by
  obtain ⟨kind, id, hid, hal⟩ := hits_iff.1 hhit
  exact hits_iff.2 ⟨kind, id, hid, by rw [← h, hal]⟩

lemma Keeps.trans (h : Keeps free reopens identities before middle)
    (h' : Keeps free' reopens identities' middle after) :
    Keeps (free ∧ free') reopens (identities ++ identities') before after where
  keyed := h'.keyed
  lives hfree key entry hget := by
    have hleft {entry} :
        (∃ identity ∈ identities, identity.hits entry) →
          ∃ identity ∈ identities ++ identities', identity.hits entry :=
      fun ⟨identity, hident, hhit⟩ => ⟨identity, mem_append_left _ hident, hhit⟩
    have hrt {entry} :
        (∃ identity ∈ identities', identity.hits entry) →
          ∃ identity ∈ identities ++ identities', identity.hits entry :=
      fun ⟨identity, hident, hhit⟩ => ⟨identity, mem_append_right _ hident, hhit⟩
    obtain ⟨entry', hget', hlasts, hfate⟩ := h.lives hfree.1 key entry hget
    obtain ⟨entry'', hget'', hlasts', hfate'⟩ := h'.lives hfree.2 entry'.id entry' hget'
    refine ⟨entry'', hget'', hlasts.trans hlasts', ?_⟩
    rcases hfate' with ⟨hid, hal⟩ | ⟨⟨identity, hident, hhit⟩, hhits⟩
    · rcases hfate with ⟨hid', halias'⟩ | ⟨hhit, identity, hident, hhit'⟩
      · exact .inl ⟨hid.trans hid', hal.trans halias'⟩
      · exact .inr ⟨hleft hhit, hleft ⟨identity, hident, hits_congr hal.symm hhit'⟩⟩
    · refine .inr ⟨?_, hrt hhits⟩
      rcases hfate with ⟨-, hal⟩ | ⟨hhit, -⟩
      · exact hrt ⟨identity, hident, hits_congr hal hhit⟩
      · exact hleft hhit

lemma Keeps.mono (h : Keeps free reopens identities before after) (hfree : free' → free)
    (hsub : identities ⊆ identities') : Keeps free' reopens identities' before after where
  keyed := h.keyed
  lives hfree' key entry hget := by
    obtain ⟨entry', hget', hlasts, hfate⟩ := h.lives (hfree hfree') key entry hget
    refine ⟨entry', hget', hlasts, hfate.imp_right ?_⟩
    rintro ⟨⟨identity, hident, hhit⟩, identity', hident', hhit'⟩
    exact ⟨⟨identity, hsub hident, hhit⟩, identity', hsub hident', hhit'⟩

lemma Keeps.replace (h : Keyed before) (hget : before.get? entry.id = some entry)
    (hid : entry'.id = entry.id) (hal : entry'.alias = entry.alias)
    (hlasts : entry.Outlasts reopens entry') :
    Keeps True reopens identities before (before.set entry.id entry') where
  keyed := h.set hid
  lives _ key other hoth := by
    have hotherId := h key other hoth
    by_cases hkey : key = entry.id
    · rw [hkey, hget, some_inj] at hoth
      refine ⟨entry', ?_, hoth ▸ hlasts, .inl ⟨hoth ▸ hid, hoth ▸ hal⟩⟩
      rw [get?_set, if_pos hid]
    · refine .of_get? ?_
      rw [get?_set, hotherId, if_neg hkey, hoth]

lemma Keeps.create (h : Keyed before) (hid : entry.id = key) (hfree : free → key ∉ before.keys) :
    Keeps free reopens identities before (before.set key entry) where
  keyed := h.set hid
  lives hfree' key' other hoth := by
    refine .of_get? ?_
    rw [get?_set, h key' other hoth, if_neg fun hkey => ?_, hoth]
    refine hfree hfree' (mem_keys_iff.2 ?_)
    rw [← hkey, hoth]
    rfl

end Keeps

/-- The entries that are hit have become one. -/
structure Joined (entries : LifecycleEntries) (identity : SubagentEventIdentity)
    (entries' : LifecycleEntries) (found : AgentSubagentLifecycleEntry) : Prop where
  keyed : Keyed entries'
  hit : identity.hits found
  stored : entries'.get? found.id = some found
  fate : ∀ key entry, entries.get? key = some entry →
    identity.hits entry ∧ (∀ reopens, entry.Outlasts reopens found) ∨ key ≠ found.id ∧ entries'.get? key = some entry

/-- **The aliases of an event** name no entry, or one. -/
theorem Keyed.resolveAlias (h : Keyed entries) (identity) :
    (AgentEvents.resolveAlias entries identity = (entries, none) ∧
        ∀ entry ∈ entries.values, identity.hits entry = false) ∨
      ∃ entries' found, AgentEvents.resolveAlias entries identity = (entries', some found) ∧
        Joined entries identity entries' found := by
  have hmem entry :
      entry ∈ entries.values.filter identity.hits ↔ entry ∈ entries.values ∧ identity.hits entry := mem_filter
  unfold AgentEvents.resolveAlias
  cases hhits : entries.values.filter identity.hits with
  | nil =>
    refine .inl ⟨rfl, fun entry hent => ?_⟩
    by_contra hhit
    rw [Bool.not_eq_false] at hhit
    have hin := (hmem entry).2 ⟨hent, hhit⟩
    rw [hhits] at hin
    exact not_mem_nil hin
  | cons first aliases =>
    rw [hhits] at hmem
    have hfst := (hmem first).1 mem_cons_self
    have hid := absorbAliases_id entries first aliases
    have hget := absorbAliases_get? entries first aliases
    refine .inr ⟨_, _, rfl, ?_, ?_, ?_, fun key entry hent => ?_⟩
    · refine Keyed.set (fun key entry hent => ?_) rfl
      rw [hget] at hent
      split_ifs at hent
      exact h key entry hent
    · obtain ⟨kind, id, hkind, hal⟩ := hits_iff.1 hfst.2
      exact hits_iff.2 ⟨kind, id, hkind, absorbAliases_alias entries first aliases hal⟩
    · rw [get?_set, if_pos rfl]
    · by_cases hhit : identity.hits entry
      · have hin := (hmem entry).2 ⟨mem_values_iff.2 ⟨key, hent⟩, hhit⟩
        exact .inl ⟨hhit, fun reopens => outlasts_absorbAliases reopens entries first aliases hin⟩
      · refine .inr ?_
        -- what was not hit is under a key of its own
        have hoth other (hoth : other ∈ first :: aliases) : other.id ≠ key := by
          intro heq
          have hin := (hmem other).1 hoth
          have hget' := h.get?_of_mem hin.1
          rw [heq, hent, some_inj] at hget'
          exact hhit (hget' ▸ hin.2)
        have hne : key ≠ (absorbAliases entries first aliases).2.id := hid ▸ (hoth first mem_cons_self).symm
        refine ⟨hne, ?_⟩
        rw [get?_set, if_neg hne, hget, if_neg, hent]
        intro hkey
        obtain ⟨other, hin, heq⟩ := mem_map.1 hkey
        exact hoth other (mem_cons_of_mem _ hin) heq

variable {found : AgentSubagentLifecycleEntry} {entries' : LifecycleEntries}

/-- **The entry that is found is brought up to date**: it has an id of the event
still, and the others are where they were. -/
theorem Joined.write {next} {free : Prop} {reopens}
    (hkey : Keyed entries) (h : Joined entries identity entries' found) (hid : next.id = found.id)
    (hlasts : found.Outlasts reopens next) (hhit : identity.hits next) :
    Keeps free reopens [identity] entries (entries'.set found.id next) where
  keyed := h.keyed.set hid
  lives _ key entry hget := by
    rcases h.fate key entry hget with ⟨hent, houtlasts⟩ | ⟨hne, hget'⟩
    · refine ⟨next, ?_, (houtlasts reopens).trans hlasts, .inr
        ⟨⟨identity, mem_singleton_self identity, hent⟩, identity, mem_singleton_self identity, hhit⟩⟩
      rw [get?_set, if_pos hid]
    · refine .of_get? ?_
      rw [get?_set, hkey key entry hget, if_neg hne, hget']

lemma Joined.keeps {free : Prop} {reopens} (hkey : Keyed entries)
    (h : Joined entries identity entries' found) :
    Keeps free reopens [identity] entries entries' := by
  have hwrite : Keeps free reopens _ _ _ := h.write hkey rfl (.refl found) h.hit
  rw [set_of_get? h.stored] at hwrite
  exact hwrite

/-- No entry is hit, there is room for a new one, and the id that it gets is
taken. -/
def takesId (entries : LifecycleEntries) (identity : SubagentEventIdentity) (key : Option JsString) : Bool :=
  !entries.values.any identity.hits && entries.size < maxRetainedSubagents && key.any entries.has

lemma not_mem_keys_of_takesId (h : takesId entries identity (some key) = false)
    (hmiss : ∀ entry ∈ entries.values, identity.hits entry = false)
    (hroom : entries.size < maxRetainedSubagents) : key ∉ entries.keys := by
  intro hkey
  have hany : entries.values.any identity.hits = false := any_eq_false.2 fun entry hent =>
    Bool.eq_false_iff.1 (hmiss entry hent)
  unfold takesId at h
  rw [hany, any_some, has_eq, mem_keys_iff.1 hkey,
    decide_eq_true hroom] at h
  cases h

variable {table : LifecycleTable}

/-- An event about one subagent: an entry that is found is brought up to date,
and a new one takes no id from another. -/
lemma LifecycleTable.retainIdentified_keeps (h : Keyed table.entries) (event : AgentTurnEvent)
    (identity : SubagentEventIdentity) :
    Keeps ((!startsNoEntry event && takesId table.entries identity (newEntryKey identity)) = false)
      event.reopens [identity] table.entries (table.retainIdentified event identity).entries := by
  have hids entry := entryAfter_ids event (withValidIds entry identity) table.openBatchKey
  unfold LifecycleTable.retainIdentified
  rcases h.resolveAlias identity with ⟨hresolve, hmiss⟩ | ⟨entries, found, hresolve, hjoin⟩
  · rw [hresolve]
    by_cases hst : startsNoEntry event
    · rw [if_pos ⟨rfl, hst⟩]
      exact .refl h
    · rw [if_neg fun hc => hst hc.2]
      cases hkey : newEntryKey identity with
      | none => exact .refl h
      | some key =>
        split_ifs with hfull
        · exact .refl h
        · refine .create h (hids _).1 fun hfree => ?_
          rw [Bool.not_eq_true] at hst
          rw [hst, Bool.not_false, Bool.true_and] at hfree
          refine not_mem_keys_of_takesId hfree hmiss (Nat.lt_of_not_le fun hsize => hfull ⟨rfl, hsize⟩)
  · rw [hresolve]
    refine hjoin.write h (hids found).1 ?_ ?_
    · have hval : found.Outlasts event.reopens (withValidIds found identity) := .of_eq rfl rfl
      exact (hval.trans (outlasts_entryAfter event _ table.openBatchKey)).trans (.of_eq rfl rfl)
    · obtain ⟨kind, id, hkind, hal⟩ := hits_iff.1 hjoin.hit
      refine hits_iff.2 ⟨kind, id, hkind, ?_⟩
      change (entryAfter event (withValidIds found identity) table.openBatchKey).1.alias kind = _
      rw [(hids found).2, withValidIds_alias]
      split_ifs
      · exact hkind
      · exact hal

lemma outlasts_spawnDetails (reopens : Bool) (entry : AgentSubagentLifecycleEntry)
    (event : AgentSubagentSpawnEvent) (batchKey : Option JsString) (receiverless : Bool) :
    entry.Outlasts reopens (spawnDetails entry event batchKey receiverless) := by
  unfold spawnDetails
  dsimp only
  by_cases hfail : event.status = .failed
  · rw [if_pos hfail]
    exact .of_terminal ⟨nofun, nofun⟩ rfl
  · rw [if_neg hfail]
    by_cases hintr : event.status = .interrupted ∧
        decide (entry.telemetryState.getD .running = .running)
    · rw [if_pos hintr]
      exact .of_terminal ⟨nofun, nofun⟩ rfl
    · rw [if_neg hintr]
      by_cases hdone : event.status = .completed ∧ receiverless ∧ entry.agentThreadId = none ∧
          decide (entry.telemetryState.getD .running = .running)
      · rw [if_pos hdone]
        exact .of_terminal ⟨nofun, nofun⟩ rfl
      · rw [if_neg hdone]
        exact .of_eq rfl rfl

/-- The id of an entry that a target of a spawn starts. -/
def spawnTargetKey (event : AgentSubagentSpawnEvent) (identity : SubagentEventIdentity) : JsString :=
  match identity.agentThreadId with
  | none => js "tool:" ++ event.callId
  | some agentThreadId => js "thread:" ++ agentThreadId

variable {retained : LifecycleEntries × Bool}

lemma retainSpawnTarget_keeps (h : Keyed retained.1) (event : AgentSubagentSpawnEvent)
    (batchKey : Option JsString) (receiverless reopens : Bool) (identity : SubagentEventIdentity) :
    Keeps (takesId retained.1 identity (some (spawnTargetKey event identity)) = false) reopens [identity]
      retained.1 (retainSpawnTarget event batchKey receiverless retained identity).1 := by
  unfold retainSpawnTarget
  generalize (identity.agentThreadId.bind fun agentThreadId =>
      (retained.1.values.find? fun entry => entry.agentThreadId = some agentThreadId).map (·.name)) = childName
  rcases h.resolveAlias identity with ⟨hresolve, hmiss⟩ | ⟨entries, found, hresolve, hjoin⟩
  · rw [hresolve]
    dsimp only [getD_none]
    split_ifs with hfull
    · exact .refl h
    · refine .create h rfl fun hfree => ?_
      exact not_mem_keys_of_takesId hfree hmiss (Nat.lt_of_not_le fun hsize => hfull ⟨rfl, hsize⟩)
  · rw [hresolve]
    have hlasts named (htelem : named.telemetryState = found.telemetryState)
        (hres : named.resultState = found.resultState) :
        found.Outlasts reopens (spawnDetails named event batchKey receiverless) :=
      .trans (.of_eq htelem hres) (outlasts_spawnDetails reopens named event batchKey receiverless)
    change Keeps _ _ _ _ (entries.set found.id _)
    refine hjoin.write h rfl ?_ ?_
    · exact hlasts _ rfl rfl
    · obtain ⟨kind, id, hkind, -⟩ := hits_iff.1 hjoin.hit
      refine hits_iff.2 ⟨kind, id, hkind, ?_⟩
      rcases kind with _ | _ | _
      · exact or_eq_some_iff.2 (.inl hkind)
      · exact or_eq_some_iff.2 (.inl hkind)
      · exact or_eq_some_iff.2 (.inl hkind)

/-- A target of a spawn starts an entry under an id that is taken. -/
def spawnTakesId (event : AgentSubagentSpawnEvent) (batchKey : Option JsString) (receiverless : Bool) :
    List SubagentEventIdentity → LifecycleEntries × Bool → Bool
  | [], _ => false
  | identity :: identities, retained =>
      takesId retained.1 identity (some (spawnTargetKey event identity)) ||
        spawnTakesId event batchKey receiverless identities
          (retainSpawnTarget event batchKey receiverless retained identity)

lemma foldl_retainSpawnTarget_keeps (event) (batchKey)
    (receiverless reopens : Bool) (identities) (h : Keyed retained.1) :
    Keeps (spawnTakesId event batchKey receiverless identities retained = false) reopens identities
      retained.1 (identities.foldl (retainSpawnTarget event batchKey receiverless) retained).1 := by
  induction identities generalizing retained with
  | nil => exact .refl h
  | cons identity identities ih =>
    have htarg := retainSpawnTarget_keeps h event batchKey receiverless reopens identity
    refine (htarg.trans (ih htarg.keyed)).mono (fun hfree => ?_) (List.Subset.refl _)
    exact Bool.or_eq_false_iff.1 hfree

/-- The start of a nested spawn's own entry takes an id. -/
def nestedTakesId (entries : LifecycleEntries) (counted : OrderedMap JsString Unit)
    (event : ToolCallEvent) (parentToolId : JsString) : Bool :=
  validId (some event.toolId) && validId (some parentToolId) && !counted.has event.toolId &&
    (nestedRoot entries parentToolId).isSome &&
      takesId entries { toolId := some event.toolId } (some (js "tool:" ++ event.toolId))

lemma retainNestedSpawn_keeps (h : Keyed entries) (counted)
    (event) (parentToolId : JsString) (reopens : Bool) :
    Keeps (nestedTakesId entries counted event parentToolId = false) reopens
      [{ toolId := some event.toolId }] entries
      (retainNestedSpawn entries counted event parentToolId).1 := by
  unfold retainNestedSpawn
  by_cases hinv : (!validId (some event.toolId) || !validId (some parentToolId))
  · rw [if_pos hinv]
    exact .refl h
  rw [if_neg hinv]
  rw [Bool.or_eq_true, not_or, Bool.not_eq_true', Bool.not_eq_false, Bool.not_eq_true', Bool.not_eq_false] at hinv
  -- the count of the root is written first
  have hroot {entries} h {root}
      (hroot : nestedRoot entries parentToolId = some root) nestedCount :
      Keeps True reopens [{ toolId := some event.toolId }] entries (entries.set root.id { root with nestedCount }) :=
    .replace h (h.get?_of_mem (nestedRootFrom_mem hroot)) rfl rfl (.of_eq rfl rfl)
  rcases h.resolveAlias { toolId := some event.toolId } with
    ⟨hresolve, hmiss⟩ | ⟨entries', found, hresolve, hjoin⟩
  · rw [hresolve]
    dsimp only [bind_none, map_none, none_or]
    rw [if_neg (not_not_intro rfl)]
    by_cases hcnt : counted.has event.toolId
    · rw [if_pos hcnt]
      exact .refl h
    · rw [if_neg hcnt]
      cases hnested : nestedRoot entries parentToolId with
      | none => exact .refl h
      | some root =>
        dsimp only
        rw [if_neg (some_ne_none root.id).symm]
        have hmem := mem_keys_iff.2 (isSome_of_eq_some (h.get?_of_mem (nestedRootFrom_mem hnested)))
        have hkeep := hroot h hnested (some (min maxSubagentNestedCount (root.nestedCount.getD 0 + 1)))
        split_ifs with hfull
        · exact hkeep.mono (fun _ => trivial) (List.Subset.refl _)
        · rw [size_set, if_pos hmem] at hfull
          refine (hkeep.trans (.create hkeep.keyed (by rfl) fun hfree => ?_)).mono
            (fun hfree => ⟨trivial, hfree⟩) (append_subset.2 ⟨List.Subset.refl _, List.Subset.refl _⟩)
          rw [keys_set_of_has hmem]
          refine not_mem_keys_of_takesId ?_ hmiss (Nat.lt_of_not_le hfull)
          rw [nestedTakesId, hinv.1, hinv.2, hnested, Bool.eq_false_iff.2 hcnt] at hfree
          exact hfree
  · rw [hresolve]
    dsimp only [bind_some, map_some]
    have hkeeps : Keeps True reopens _ _ _ := hjoin.keeps h
    by_cases hparent : found.parentToolId ≠ none
    · rw [if_pos hparent]
      exact hkeeps.mono (fun _ => trivial) (List.Subset.refl _)
    rw [if_neg hparent]
    by_cases hcnt : counted.has event.toolId
    · rw [if_pos hcnt]
      exact hkeeps.mono (fun _ => trivial) (List.Subset.refl _)
    rw [if_neg hcnt]
    cases hnested : nestedRoot entries' parentToolId with
    | none => exact hkeeps.mono (fun _ => trivial) (List.Subset.refl _)
    | some root =>
      dsimp only
      by_cases hsame : some found.id = some root.id
      · rw [if_pos hsame]
        exact hkeeps.mono (fun _ => trivial) (List.Subset.refl _)
      · rw [if_neg hsame]
        have hne : found.id ≠ root.id := fun hid => hsame (congrArg some hid)
        have hkeep := hroot hjoin.keyed hnested (some (min maxSubagentNestedCount (root.nestedCount.getD 0 + 1)))
        have hstore : (entries'.set root.id { root with
            nestedCount := some (min maxSubagentNestedCount (root.nestedCount.getD 0 + 1)) }).get? found.id
              = some found := by
          rw [get?_set, if_neg hne, hjoin.stored]
        have hboth : [({ toolId := some event.toolId } : SubagentEventIdentity)]
            ++ [{ toolId := some event.toolId }] ⊆ [{ toolId := some event.toolId }] :=
          append_subset.2 ⟨List.Subset.refl _, List.Subset.refl _⟩
        exact (((hkeeps.trans hkeep).mono (fun _ => ⟨trivial, trivial⟩) hboth).trans
          (.replace hkeep.keyed hstore (by rfl) (by rfl) (.of_eq (by rfl) (by rfl)))).mono
            (fun _ => ⟨trivial, trivial⟩) hboth

/-- A child thread speaks for itself. -/
def isChildTelemetry : AgentTurnEvent → Bool
  | .subagentActivity _ => true
  | .subagentTurnDone _ => true
  | _ => false

/-- The entries without those of spawn tools, once a child thread speaks. -/
def entriesAbout (entries : LifecycleEntries) (event : AgentTurnEvent) : LifecycleEntries :=
  if isChildTelemetry event then LifecycleTable.dropSpawnTools entries else entries

/-- The ids that an event names. -/
def identitiesOf (event : AgentTurnEvent) : List SubagentEventIdentity :=
  match event with
  | .subagentSpawn event => spawnTargets event (event.agentThreadIds.filter fun id => validId (some id))
  | event =>
      match LifecycleTable.nestedSpawnOf event with
      | some (event, _) => [{ toolId := some event.toolId }]
      | none => (subagentEventIdentity event).toList

/-- An event about one subagent starts an entry under an id that is taken. -/
def aboutTakesId (entries : LifecycleEntries) (event : AgentTurnEvent) : Bool :=
  !LifecycleTable.acknowledgesSpawn entries event && !startsNoEntry event &&
    (subagentEventIdentity event).any fun identity => takesId entries identity (newEntryKey identity)

/-- **An event starts an entry under an id that is taken**: the aliases that the
event names are no entry's, and the id made from them is. -/
def LifecycleTable.takesId (table : LifecycleTable) (event : AgentTurnEvent) : Bool :=
  match event with
  | .subagentSpawn spawnEvent =>
      let receivers := spawnEvent.agentThreadIds.filter fun id => validId (some id)
      validId (some spawnEvent.callId) &&
        spawnTakesId spawnEvent
          ((table.closeBatch event).openBatchKey.or (spawnBatchKey (some spawnEvent.callId)))
          (receivers.length = 0) (spawnTargets spawnEvent receivers) (table.entries, false)
  | event =>
      match nestedSpawnOf event with
      | some (event, parentToolId) => nestedTakesId table.entries table.counted event parentToolId
      | none => aboutTakesId (entriesAbout table.entries event) event

lemma closeBatch_entries (table : LifecycleTable) (event : AgentTurnEvent) :
    (table.closeBatch event).entries = table.entries ∧ (table.closeBatch event).counted = table.counted := by
  unfold LifecycleTable.closeBatch
  split_ifs <;> exact ⟨rfl, rfl⟩

lemma get?_dropSpawnTools (hget : entries.get? key = some entry)
    (hname : isSpawnAgent entry.name = false) :
    (LifecycleTable.dropSpawnTools entries).get? key = some entry := by
  have hloop (pairs : List (JsString × AgentSubagentLifecycleEntry)) (kept : LifecycleEntries)
      (hpairs : ∀ pair ∈ pairs, pair.1 = key → pair.2 = entry) (hkept : kept.get? key = some entry) :
      (pairs.foldl (fun kept pair =>
        if isSpawnAgent pair.2.name then kept.delete pair.1 else kept) kept).get? key = some entry := by
    induction pairs generalizing kept with
    | nil => exact hkept
    | cons pair pairs ih =>
      refine ih _ (fun other hoth => hpairs other (mem_cons_of_mem pair hoth)) ?_
      dsimp only
      split_ifs with hspawn
      · rw [get?_delete, if_neg, hkept]
        intro hkey
        rw [hpairs pair mem_cons_self hkey.symm, hname] at hspawn
        cases hspawn
      · exact hkept
  refine hloop entries.entries entries (fun pair hpair hkey => ?_) hget
  have hfound := get?_eq_some_iff.2 (hkey ▸ hpair : (key, pair.2) ∈ entries.entries)
  rw [hget] at hfound
  exact (some.inj hfound).symm

lemma Keyed.entriesAbout (h : Keyed entries) (event) : Keyed (entriesAbout entries event) := by
  unfold AgentEvents.entriesAbout
  split_ifs
  · exact fun key entry hget => h key entry (dropSpawnTools_subset entries key entry hget)
  · exact h

lemma LifecycleTable.retainAbout_eq (table : LifecycleTable) (event : AgentTurnEvent) :
    table.retainAbout event =
      if acknowledgesSpawn (entriesAbout table.entries event) event then
        { table with entries := entriesAbout table.entries event }
      else
        match subagentEventIdentity event with
        | none => { table with entries := entriesAbout table.entries event }
        | some identity =>
            retainIdentified { table with entries := entriesAbout table.entries event } event identity := by
  cases event <;> rfl

lemma LifecycleTable.retainAbout_keeps (h : Keyed table.entries) (event : AgentTurnEvent) :
    Keeps (aboutTakesId (entriesAbout table.entries event) event = false) event.reopens
      (subagentEventIdentity event).toList (entriesAbout table.entries event)
      (table.retainAbout event).entries := by
  have habout := h.entriesAbout event
  rw [LifecycleTable.retainAbout_eq]
  unfold aboutTakesId
  split_ifs with hspawn
  · exact .refl habout
  · rw [Bool.not_eq_true] at hspawn
    rw [hspawn]
    cases hident : subagentEventIdentity event with
    | none => exact .refl habout
    | some identity =>
      have hkeeps (other : LifecycleTable) (hents : Keyed other.entries) :=
        LifecycleTable.retainIdentified_keeps hents event identity
      exact hkeeps { table with entries := entriesAbout table.entries event } habout

theorem LifecycleTable.step_keeps (h : Keyed table.entries) (event : AgentTurnEvent) :
    Keeps (table.takesId event = false) event.reopens (identitiesOf event)
      (entriesAbout table.entries event) (table.step event).entries := by
  obtain ⟨hents, hcnt⟩ := closeBatch_entries table event
  have hcl : Keyed (table.closeBatch event).entries := hents.symm ▸ h
  -- an event that is no spawn
  have hoth (htakes : table.takesId event = aboutTakesId (entriesAbout table.entries event) event)
      (hids : identitiesOf event = (subagentEventIdentity event).toList)
      (hstep : table.step event = (table.closeBatch event).retainAbout event) :
      Keeps (table.takesId event = false) event.reopens (identitiesOf event)
        (entriesAbout table.entries event) (table.step event).entries := by
    have hkeeps := retainAbout_keeps hcl event
    rw [hents] at hkeeps
    rw [htakes, hids, hstep]
    exact hkeeps
  cases event with
  | subagentSpawn event =>
    change Keeps _ _ _ table.entries (retainSpawn (table.closeBatch _).entries event _).1
    unfold retainSpawn
    rw [hents]
    by_cases hinv : (!validId (some event.callId))
    · rw [if_pos hinv]
      exact .refl h
    · rw [if_neg hinv]
      rw [Bool.not_eq_true', Bool.not_eq_false] at hinv
      have hst : Keyed ((table.entries, false) : LifecycleEntries × Bool).1 := h
      refine (foldl_retainSpawnTarget_keeps event _ _ _ _ hst).mono (fun hfree => ?_) (List.Subset.refl _)
      unfold LifecycleTable.takesId at hfree
      dsimp only at hfree
      rw [hinv, Bool.true_and] at hfree
      exact hfree
  | toolCall event =>
    cases hev : nestedSpawnOf (.toolCall event) with
    | none =>
      refine hoth ?_ ?_ ?_
      · unfold LifecycleTable.takesId
        dsimp only
        rw [hev]
      · unfold identitiesOf
        dsimp only
        rw [hev]
      · unfold LifecycleTable.step
        dsimp only
        rw [hev]
    | some nested =>
      obtain ⟨nested, parentToolId⟩ := nested
      have hkeeps := retainNestedSpawn_keeps h table.counted nested parentToolId false
      unfold LifecycleTable.takesId identitiesOf LifecycleTable.step
      dsimp only
      rw [hev]
      change Keeps _ false _ table.entries
        (retainNestedSpawn (table.closeBatch _).entries (table.closeBatch _).counted nested parentToolId).1
      rw [hents, hcnt]
      exact hkeeps
  | _ => exact hoth rfl rfl rfl

lemma resolveAlias_none (h : (AgentEvents.resolveAlias entries identity).2 = none) :
    (AgentEvents.resolveAlias entries identity).1 = entries := by
  unfold AgentEvents.resolveAlias at h ⊢
  split at h
  · rfl
  · cases h

lemma LifecycleTable.retainIdentified_changed (table : LifecycleTable) (event : AgentTurnEvent)
    (identity) :
    (table.retainIdentified event identity).changed ∨
      startsNoEntry event ∧ table.retainIdentified event identity = table := by
  unfold LifecycleTable.retainIdentified
  by_cases hst : (AgentEvents.resolveAlias table.entries identity).2 = none ∧ startsNoEntry event
  · rw [if_pos hst, resolveAlias_none hst.1]
    exact .inr ⟨hst.2, rfl⟩
  · rw [if_neg hst]
    refine .inl ?_
    split
    · rfl
    · split_ifs <;> rfl

lemma LifecycleTable.step_changed (table : LifecycleTable) (event : AgentTurnEvent) :
    (table.step event).changed ∨
      (table.step event).entries = table.entries ∧ (table.step event).changed = table.changed := by
  have habout (table : LifecycleTable) : (table.retainAbout event).changed ∨
      (table.retainAbout event).entries = table.entries ∧ (table.retainAbout event).changed = table.changed := by
    rw [LifecycleTable.retainAbout_eq]
    by_cases hchild : isChildTelemetry event
    · -- the event of a child names an entry
      refine .inl ?_
      have hident : ∃ identity, subagentEventIdentity event = some identity ∧
          acknowledgesSpawn (entriesAbout table.entries event) event = false ∧ startsNoEntry event = false := by
        cases event <;> first | exact ⟨_, rfl, rfl, rfl⟩ | cases hchild
      obtain ⟨identity, hident, hspawn, hst⟩ := hident
      rw [hspawn, if_neg Bool.false_ne_true, hident]
      refine (retainIdentified_changed _ event identity).resolve_right fun hc => ?_
      rw [hst] at hc
      cases hc.1
    · have hents : entriesAbout table.entries event = table.entries := if_neg hchild
      rw [hents]
      split_ifs
      · exact .inr ⟨rfl, rfl⟩
      · cases subagentEventIdentity event with
        | none => exact .inr ⟨rfl, rfl⟩
        | some identity =>
          refine (retainIdentified_changed table event identity).imp_right fun hsame => ?_
          exact ⟨congrArg entries hsame.2, congrArg changed hsame.2⟩
  obtain ⟨hents, -⟩ := closeBatch_entries table event
  have hcl : (table.closeBatch event).changed ∨ (table.closeBatch event).changed = table.changed := by
    unfold LifecycleTable.closeBatch
    split_ifs
    · exact .inl rfl
    · exact .inr rfl
  unfold LifecycleTable.step
  split
  · exact .inl rfl
  · split
    · exact .inl rfl
    · rcases habout (table.closeBatch event) with hchg | ⟨hsame, hchg⟩
      · exact .inl hchg
      · rcases hcl with hcl | hcl
        · exact .inl (hchg.trans hcl)
        · exact .inr ⟨hsame.trans hents, hchg.trans hcl⟩

/-- The entries of a lifecycle, which may not be there yet. -/
def heldEntries (lifecycle : Option AgentSubagentLifecycle) : List AgentSubagentLifecycleEntry :=
  (lifecycle.map (·.entries)).getD []

/-- The lifecycle after batches of events. -/
def lifecycleAfter (batches : List (List AgentTurnEvent)) : Option AgentSubagentLifecycle :=
  batches.foldl retainAgentSubagentLifecycle none

/-- The loop's variables after some events of a batch. -/
def tableAfter (previous : Option AgentSubagentLifecycle) (events : List AgentTurnEvent) :
    LifecycleTable := events.foldl LifecycleTable.step (.start previous)

variable (events : List AgentTurnEvent)

lemma foldl_step_keyed (h : Keyed table.entries) : Keyed (events.foldl LifecycleTable.step table).entries := by
  induction events generalizing table with
  | nil => exact h
  | cons event events ih => exact ih (LifecycleTable.step_keeps h event).keyed

lemma foldl_step_changed (table : LifecycleTable) :
    (events.foldl LifecycleTable.step table).changed ∨
      (events.foldl LifecycleTable.step table).entries = table.entries ∧
        (events.foldl LifecycleTable.step table).changed = table.changed := by
  induction events generalizing table with
  | nil => exact .inr ⟨rfl, rfl⟩
  | cons event events ih =>
    rcases ih (table.step event) with hchg | ⟨hents, hchg⟩
    · exact .inl hchg
    · rcases table.step_changed event with hstep | ⟨hstep, hstep'⟩
      · exact .inl (hchg.trans hstep)
      · exact .inr ⟨hents.trans hstep, hchg.trans hstep'⟩

variable {previous : Option AgentSubagentLifecycle}

lemma start_entries (h : ((heldEntries previous).map (·.id)).Nodup) :
    (LifecycleTable.start previous).entries.entries = (heldEntries previous).map fun entry => (entry.id, entry) := by
  have hst := entries_foldl_set (fun entry : AgentSubagentLifecycleEntry => entry.id)
    id (heldEntries previous) .empty h
  exact hst

lemma start_keyed (previous)
    (h : ((heldEntries previous).map (·.id)).Nodup) :
    Keyed (LifecycleTable.start previous).entries := by
  intro key entry hget
  have hmem := get?_eq_some_iff.1 hget
  rw [start_entries h] at hmem
  obtain ⟨other, -, heq⟩ := mem_map.1 hmem
  cases heq
  rfl

/-- **What is written out after a batch** is what the loop has. -/
theorem heldEntries_retain (h : ((heldEntries previous).map (·.id)).Nodup)
    (events) :
    heldEntries (retainAgentSubagentLifecycle previous events) = (tableAfter previous events).entries.values := by
  change heldEntries (if !(tableAfter previous events).changed then _ else _) = _
  rcases foldl_step_changed events (.start previous) with hchg | ⟨hents, hchg⟩
  · change (tableAfter previous events).changed at hchg
    rw [hchg, Bool.not_true, if_neg Bool.false_ne_true]
    rfl
  · change (tableAfter previous events).changed = false at hchg
    change (tableAfter previous events).entries = _ at hents
    rw [hchg, Bool.not_false, if_pos rfl, hents, OrderedMap.values, start_entries h, List.map_map]
    exact (map_id _).symm

lemma nodup_lifecycleAfter (batches) : ((heldEntries (lifecycleAfter batches)).map (·.id)).Nodup := by
  induction batches using List.reverseRecOn with
  | nil => exact nodup_nil
  | append_singleton batches events ih =>
    rw [lifecycleAfter, foldl_append, foldl_cons, foldl_nil]
    change ((heldEntries (retainAgentSubagentLifecycle (lifecycleAfter batches) events)).map _).Nodup
    have hkey : Keyed (tableAfter (lifecycleAfter batches) events).entries :=
      foldl_step_keyed events (start_keyed _ ih)
    rw [heldEntries_retain ih]
    have hids : (tableAfter (lifecycleAfter batches) events).entries.values.map (·.id)
        = (tableAfter (lifecycleAfter batches) events).entries.keys := by
      rw [OrderedMap.values, OrderedMap.keys, List.map_map]
      refine map_congr_left fun pair hpair => ?_
      exact hkey pair.1 pair.2 (get?_eq_some_iff.2 hpair)
    rw [hids]
    exact (tableAfter (lifecycleAfter batches) events).entries.nodup

/-- What is recorded of an entry is in one under its id or one that the event names with it; or it
was the call of a spawn tool and a child thread has spoken. -/
def EntryKept (event : AgentTurnEvent) (after : List AgentSubagentLifecycleEntry)
    (entry : AgentSubagentLifecycleEntry) : Prop :=
  (∃ entry' ∈ after, entry.Outlasts event.reopens entry' ∧
    (entry'.id = entry.id ∨ (∃ identity ∈ identitiesOf event, identity.hits entry) ∧
      ∃ identity ∈ identitiesOf event, identity.hits entry')) ∨
    isChildTelemetry event ∧ isSpawnAgent entry.name

/-- Two reports of one task, the second under another tool. -/
def movedReports : List AgentTurnEvent :=
  [.subagent { status := .running, toolId := some (js "a"), taskId := some (js "k") },
   .subagent { status := .completed, toolId := some (js "b"), taskId := some (js "k") }]

/-- A call under the tool id that the task had first. -/
def firstCall : AgentTurnEvent :=
  .toolCall { toolId := js "a", name := js "Task", inputSummary := js "more" }

end CodevoEditor.AgentEvents
