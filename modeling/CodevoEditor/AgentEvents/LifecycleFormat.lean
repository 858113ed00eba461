/-
# The format of the lifecycle

What the strict persistence format asks of a lifecycle (`LifecycleFormat`): ids and texts within
their limits, one entry for each id, no alias on two entries, states that follow from telemetry
and result.
-/

import CodevoEditor.AgentEvents.SubagentLifecycle

namespace CodevoEditor.AgentEvents

open Js List Option OrderedMap

inductive AliasKind
  | toolId
  | taskId
  | agentThreadId
  deriving DecidableEq

def AgentSubagentLifecycleEntry.alias (entry : AgentSubagentLifecycleEntry) :
    AliasKind → Option JsString
  | .toolId => entry.toolId
  | .taskId => entry.taskId
  | .agentThreadId => entry.agentThreadId

def SubagentEventIdentity.alias (identity : SubagentEventIdentity) : AliasKind → Option JsString
  | .toolId => identity.toolId
  | .taskId => identity.taskId
  | .agentThreadId => identity.agentThreadId

variable {entry : AgentSubagentLifecycleEntry} {identity : SubagentEventIdentity}

lemma hits_iff : identity.hits entry ↔ ∃ kind id, identity.alias kind = some id ∧ entry.alias kind = some id := by
  have hkind (own other : Option JsString) : (decide (own ≠ none) && decide (other = own)) ↔
      ∃ id, own = some id ∧ other = some id := by
    cases own with
    | none => simp
    | some id => simp
  rw [SubagentEventIdentity.hits, Bool.or_eq_true, Bool.or_eq_true, hkind, hkind, hkind]
  constructor
  · rintro ((⟨id, hid⟩ | ⟨id, hid⟩) | ⟨id, hid⟩)
    · exact ⟨.toolId, id, hid⟩
    · exact ⟨.taskId, id, hid⟩
    · exact ⟨.agentThreadId, id, hid⟩
  · rintro ⟨_ | _ | _, id, hid⟩
    · exact .inl (.inl ⟨id, hid⟩)
    · exact .inl (.inr ⟨id, hid⟩)
    · exact .inr ⟨id, hid⟩

/-- Text that is there, of at most so many bytes. -/
def Present (max : ℕ) (text : JsString) : Prop := text ≠ [] ∧ utf8ByteLength text ≤ max

lemma validId_some_iff {id} : validId (some id) ↔ Present 256 id := by
  rw [validId, any_some, Bool.and_eq_true, decide_eq_true_iff, decide_eq_true_iff, Present]

/-- The limits of an entry. -/
structure EntryBounds (entry : AgentSubagentLifecycleEntry) : Prop where
  id : Present 272 entry.id
  aliases : ∀ kind id, entry.alias kind = some id → Present 256 id
  name : utf8ByteLength entry.name ≤ 128
  description : utf8ByteLength entry.description ≤ 512
  durationMs : ∀ value ∈ entry.durationMs, value.safeAtLeast 0
  totalTokens : ∀ value ∈ entry.totalTokens, value.safeAtLeast 0
  steps : ∀ value ∈ entry.steps, value.safeAtLeast 0
  lastToolName : ∀ text ∈ entry.lastToolName, utf8ByteLength text ≤ 128
  taskTitle : ∀ text ∈ entry.taskTitle, Present maxSubagentTaskTitleBytes text
  batchKey : ∀ text ∈ entry.batchKey, Present maxSubagentBatchKeyBytes text
  nestedCount : ∀ count ∈ entry.nestedCount, 1 ≤ count ∧ count ≤ maxSubagentNestedCount
  parentToolId : ∀ text ∈ entry.parentToolId, Present maxSubagentParentToolIdBytes text
  model : ∀ text ∈ entry.model, Present maxSubagentModelBytes text

/-- An entry within its limits, under one alias at least, in the state that its
telemetry and result give it. -/
structure EntryFormat (entry : AgentSubagentLifecycleEntry) : Prop extends EntryBounds entry where
  known : ∃ kind id, entry.alias kind = some id
  state : entry.state = lifecycleState entry

/-- The entries of the loop: each under its id and in the format, and no alias on
two of them. -/
structure EntriesFormat (entries : LifecycleEntries) : Prop where
  keyed : ∀ key entry, entries.get? key = some entry → entry.id = key
  format : ∀ key entry, entries.get? key = some entry → EntryFormat entry
  apart : ∀ key key' entry entry' kind id, entries.get? key = some entry →
    entries.get? key' = some entry' → entry.alias kind = some id → entry'.alias kind = some id →
    key = key'
  size : entries.size ≤ maxRetainedSubagents

/-- **What the persistence format asks for.** -/
structure LifecycleFormat (lifecycle : AgentSubagentLifecycle) : Prop where
  length : lifecycle.entries.length ≤ maxRetainedSubagents
  ids : (lifecycle.entries.map (·.id)).Nodup
  apart : lifecycle.entries.Pairwise fun entry entry' =>
    ∀ kind id, entry.alias kind = some id → entry'.alias kind ≠ some id
  format : ∀ entry ∈ lifecycle.entries, EntryFormat entry
  openBatchKey : ∀ key ∈ lifecycle.openBatchKey, Present maxSubagentBatchKeyBytes key
  counted : ∀ ids ∈ lifecycle.countedNestedToolIds, ids ≠ [] ∧
    ids.length ≤ maxSubagentCountedNestedIds ∧ ids.Nodup ∧ ∀ id ∈ ids, Present 256 id

/-- The entries that an identity hits are gone, or merged into `found`. -/
structure Resolved (entries : LifecycleEntries) (identity : SubagentEventIdentity)
    (entries' : LifecycleEntries) (found : Option AgentSubagentLifecycleEntry) : Prop where
  others : ∀ key entry, (∀ merged ∈ found, merged.id ≠ key) → entries'.get? key = some entry →
    entries.get? key = some entry ∧ identity.hits entry = false
  bounds : ∀ merged ∈ found, EntryBounds merged
  known : ∀ merged ∈ found, ∃ kind id, merged.alias kind = some id
  stored : ∀ merged ∈ found, entries'.get? merged.id = some merged
  aliases : ∀ merged ∈ found, ∀ kind id, merged.alias kind = some id →
    ∃ key entry, entries.get? key = some entry ∧ identity.hits entry ∧ entry.alias kind = some id
  size : entries'.size ≤ entries.size

variable {entries : LifecycleEntries}

lemma EntriesFormat.get?_of_mem (h : EntriesFormat entries) (hmem : entry ∈ entries.values) :
    entries.get? entry.id = some entry := by
  obtain ⟨key, hget⟩ := mem_values_iff.1 hmem
  rw [h.keyed key entry hget, hget]

lemma EntriesFormat.map_id (h : EntriesFormat entries) : entries.values.map (·.id) = entries.keys := by
  rw [OrderedMap.values, OrderedMap.keys, List.map_map]
  refine map_congr_left fun pair hpair => ?_
  have hget : entries.get? pair.1 = some pair.2 := get?_eq_some_iff.2 hpair
  exact h.keyed pair.1 pair.2 hget

lemma Resolved.of_not_hit
    (h : ∀ key entry, entries.get? key = some entry → identity.hits entry = false) :
    Resolved entries identity entries none where
  others key entry _ hget := ⟨hget, h key entry hget⟩
  bounds := by rintro merged ⟨⟩
  known := by rintro merged ⟨⟩
  stored := by rintro merged ⟨⟩
  aliases := by rintro merged ⟨⟩
  size := le_rfl

lemma EntryBounds.mergeAliases {first second}
    (hfst : EntryBounds first) (hsnd : EntryBounds second) :
    EntryBounds (mergeAliases first second) := by
  have hor {α : Type} {P : α → Prop} {a b : Option α} (ha : ∀ value ∈ a, P value)
      (hb : ∀ value ∈ b, P value) : ∀ value ∈ a.or b, P value := by
    intro value hval
    rcases or_eq_some_iff.1 hval with h | ⟨-, h⟩
    · exact ha value h
    · exact hb value h
  refine ⟨hfst.id, ?_, hfst.name, ?_, hor hfst.durationMs hsnd.durationMs,
    hor hfst.totalTokens hsnd.totalTokens, hor hfst.steps hsnd.steps,
    hor hfst.lastToolName hsnd.lastToolName, hor hfst.taskTitle hsnd.taskTitle,
    hor hfst.batchKey hsnd.batchKey, hor hfst.nestedCount hsnd.nestedCount, ?_,
    hor hfst.model hsnd.model⟩
  · rintro (_ | _ | _)
    · exact hor (hfst.aliases .toolId) (hsnd.aliases .toolId)
    · exact hor (hfst.aliases .taskId) (hsnd.aliases .taskId)
    · exact hor (hfst.aliases .agentThreadId) (hsnd.aliases .agentThreadId)
  · change utf8ByteLength (if _ then _ else _) ≤ 512
    split_ifs
    · exact hsnd.description
    · exact hfst.description
  · intro text htext
    have hparent : (if first.parentToolId = second.parentToolId then first.parentToolId else none) =
        some text := htext
    split_ifs at hparent
    exact hfst.parentToolId text hparent

lemma mergeAliases_alias (first second) (kind) :
    (mergeAliases first second).alias kind = (first.alias kind).or (second.alias kind) := by
  cases kind <;> rfl

lemma absorbAliases_id (entries) (found)
    (aliases) :
    (absorbAliases entries found aliases).2.id = found.id := by
  induction aliases generalizing entries found with
  | nil => rfl
  | cons entry aliases ih => exact ih (entries.delete entry.id) (mergeAliases found entry)

lemma absorbAliases_alias (entries) (found)
    (aliases) {kind} {id}
    (h : found.alias kind = some id) : (absorbAliases entries found aliases).2.alias kind = some id := by
  induction aliases generalizing entries found with
  | nil => exact h
  | cons entry aliases ih =>
    refine ih (entries.delete entry.id) (mergeAliases found entry) ?_
    rw [mergeAliases_alias, h, some_or]

lemma absorbAliases_get? (entries) (found)
    (aliases) (key : JsString) :
    (absorbAliases entries found aliases).1.get? key =
      if key ∈ aliases.map (·.id) then none else entries.get? key := by
  induction aliases generalizing entries found with
  | nil => rfl
  | cons entry aliases ih =>
    change (absorbAliases (entries.delete entry.id) (mergeAliases found entry) aliases).1.get? key = _
    rw [ih, map_cons, get?_delete]
    by_cases hkey : key = entry.id
    · rw [if_pos hkey, if_pos (mem_cons.2 (.inl hkey)), ite_self]
    · rw [if_neg hkey]
      simp only [mem_cons, hkey, false_or]

lemma absorbAliases_spec (entries) (found)
    (aliases) (hget : EntryBounds found)
    (haliases : ∀ entry ∈ aliases, EntryBounds entry) :
    EntryBounds (absorbAliases entries found aliases).2 ∧
      (∀ kind id, (absorbAliases entries found aliases).2.alias kind = some id →
        ∃ entry ∈ found :: aliases, entry.alias kind = some id) ∧
      (absorbAliases entries found aliases).1.size ≤ entries.size := by
  induction aliases generalizing entries found with
  | nil => exact ⟨hget, fun kind id h => ⟨found, mem_cons_self, h⟩, le_rfl⟩
  | cons entry aliases ih =>
    obtain ⟨hbd, hfrom, hsize⟩ := ih (entries.delete entry.id)
      (mergeAliases found entry) (hget.mergeAliases (haliases entry mem_cons_self))
      (fun other hoth => haliases other (mem_cons_of_mem entry hoth))
    refine ⟨hbd, fun kind id h => ?_, hsize.trans (entries.size_delete_le entry.id)⟩
    obtain ⟨other, hoth, hal⟩ := hfrom kind id h
    rcases mem_cons.1 hoth with rfl | hoth
    · rw [mergeAliases_alias, or_eq_some_iff] at hal
      rcases hal with hal | ⟨-, hal⟩
      · exact ⟨found, mem_cons_self, hal⟩
      · exact ⟨entry, mem_cons_of_mem found mem_cons_self, hal⟩
    · exact ⟨other, mem_cons_of_mem found (mem_cons_of_mem entry hoth), hal⟩

section

variable (h : EntriesFormat entries)
include h

theorem EntriesFormat.resolveAlias (identity) :
    Resolved entries identity (resolveAlias entries identity).1 (resolveAlias entries identity).2 := by
  have hmem entry :
      entry ∈ entries.values.filter identity.hits ↔ entries.get? entry.id = some entry ∧ identity.hits entry := by
    rw [mem_filter]
    exact and_congr_left fun _ => ⟨h.get?_of_mem, fun hget => mem_values_iff.2 ⟨_, hget⟩⟩
  have hnd : ((entries.values.filter identity.hits).map (·.id)).Nodup := by
    have hkeys : (entries.values.map (·.id)).Nodup := h.map_id ▸ entries.nodup
    exact hkeys.sublist (filter_sublist.map _)
  unfold AgentEvents.resolveAlias
  cases hhits : entries.values.filter identity.hits with
  | nil =>
    refine Resolved.of_not_hit fun key entry hget => ?_
    by_contra hhit
    rw [Bool.not_eq_false] at hhit
    have hin := (hmem entry).2 ⟨(h.keyed key entry hget).symm ▸ hget, hhit⟩
    rw [hhits] at hin
    cases hin
  | cons first aliases =>
    rw [hhits] at hmem hnd
    rw [map_cons, nodup_cons] at hnd
    have hfst := (hmem first).1 mem_cons_self
    have hfmt entry (hin : entry ∈ first :: aliases) :
        EntryFormat entry := h.format entry.id entry ((hmem entry).1 hin).1
    have hid := absorbAliases_id entries first aliases
    have hget := absorbAliases_get? entries first aliases
    obtain ⟨hbd, hfrom, hsize⟩ := absorbAliases_spec entries first aliases
      (hfmt first mem_cons_self).toEntryBounds
      (fun entry hent => (hfmt entry (mem_cons_of_mem first hent)).toEntryBounds)
    refine ⟨fun key entry hne hstore => ?_, ?_, ?_, ?_, ?_, ?_⟩
    · have hkey := hne _ rfl
      rw [get?_set, if_neg (Ne.symm hkey), hget] at hstore
      split_ifs at hstore with hgone
      refine ⟨hstore, ?_⟩
      by_contra hhit
      rw [Bool.not_eq_false] at hhit
      have hent := h.keyed key entry hstore
      rcases mem_cons.1 ((hmem entry).2 ⟨hent.symm ▸ hstore, hhit⟩) with rfl | hin
      · exact hkey (hid.trans hent)
      · exact hgone (mem_map.2 ⟨entry, hin, hent⟩)
    · rintro merged ⟨⟩
      exact hbd
    · rintro merged ⟨⟩
      obtain ⟨kind, id, hkn⟩ := (hfmt first mem_cons_self).known
      exact ⟨kind, id, absorbAliases_alias entries first aliases hkn⟩
    · rintro merged ⟨⟩
      rw [get?_set, if_pos rfl]
    · rintro merged ⟨⟩ kind id hal
      obtain ⟨entry, hin, hent⟩ := hfrom kind id hal
      exact ⟨entry.id, entry, ((hmem entry).1 hin).1, ((hmem entry).1 hin).2, hent⟩
    · have hplc : (absorbAliases entries first aliases).2.id ∈ (absorbAliases entries first aliases).1.keys := by
        rw [mem_keys_iff, hget, hid, if_neg hnd.1, hfst.1]
        rfl
      rw [size_set, if_pos hplc]
      exact hsize

lemma EntriesFormat.resolveAlias_of_unique
    (hunique : ∀ entry ∈ entries.values, ∀ entry' ∈ entries.values, identity.hits entry → identity.hits entry' →
      entry = entry') :
    AgentEvents.resolveAlias entries identity = (entries, entries.values.find? identity.hits) := by
  unfold AgentEvents.resolveAlias
  rw [← head?_filter]
  have hmem entry
      (hin : entry ∈ entries.values.filter identity.hits) :
      entry ∈ entries.values ∧ identity.hits entry := mem_filter.1 hin
  have hnd : (entries.values.filter identity.hits).Nodup :=
    (Nodup.of_map (·.id) (h.map_id ▸ entries.nodup)).filter _
  cases hhits : entries.values.filter identity.hits with
  | nil => rfl
  | cons first aliases =>
    rw [hhits] at hmem hnd
    have hfst := hmem first mem_cons_self
    cases aliases with
    | nil =>
      change (entries.set first.id first, some first) = (entries, some first)
      rw [set_of_get? (h.get?_of_mem hfst.1)]
    | cons second aliases =>
      have hsnd := hmem second (mem_cons_of_mem first mem_cons_self)
      have hsame := hunique first hfst.1 second hsnd.1 hfst.2 hsnd.2
      rw [nodup_cons] at hnd
      exact absurd (hsame ▸ mem_cons_self) hnd.1

/-- **One entry in the place of all that are hit** keeps the format. -/
theorem EntriesFormat.write {entries'}
    {found}
    (hres : Resolved entries identity entries' found) (hfmt : EntryFormat entry)
    (hid : ∀ merged ∈ found, entry.id = merged.id)
    (hroom : found = none → entries'.size < maxRetainedSubagents)
    (hal : ∀ kind id, entry.alias kind = some id → identity.alias kind = some id ∨
      ∃ merged ∈ found, merged.alias kind = some id) :
    EntriesFormat (entries'.set entry.id entry) := by
  -- what stands under another key was there before, and was not hit
  have hoths : ∀ key other, key ≠ entry.id → (entries'.set entry.id entry).get? key = some other →
      entries.get? key = some other ∧ identity.hits other = false := by
    intro key other hne hget
    rw [get?_set, if_neg hne] at hget
    refine hres.others key other (fun merged hmrg heq => hne ?_) hget
    rw [hid merged hmrg, heq]
  -- so it has no alias of the new entry
  have hapart : ∀ key other kind id, key ≠ entry.id →
      (entries'.set entry.id entry).get? key = some other → entry.alias kind = some id →
      other.alias kind ≠ some id := by
    intro key other kind id hne hget hown hoth
    obtain ⟨hold, hmiss⟩ := hoths key other hne hget
    rcases hal kind id hown with hident | ⟨merged, hmrg, hmergedAlias⟩
    · rw [hits_iff.2 ⟨kind, id, hident, hoth⟩] at hmiss
      cases hmiss
    · obtain ⟨key', hit, hget', hhit, hhitAlias⟩ :=
        hres.aliases merged hmrg kind id hmergedAlias
      obtain rfl := h.apart key key' other hit kind id hold hget' hoth hhitAlias
      rw [hold, some_inj] at hget'
      rw [hget', hhit] at hmiss
      cases hmiss
  have hself : (entries'.set entry.id entry).get? entry.id = some entry := by
    rw [get?_set, if_pos rfl]
  refine ⟨fun key other hget => ?_, fun key other hget => ?_,
    fun key key' other other' kind id hget hget' hown hown' => ?_, ?_⟩
  · by_cases hkey : key = entry.id
    · rw [hkey, hself, some_inj] at hget
      rw [hkey, hget]
    · exact h.keyed key other (hoths key other hkey hget).1
  · by_cases hkey : key = entry.id
    · rw [hkey, hself, some_inj] at hget
      exact hget ▸ hfmt
    · exact h.format key other (hoths key other hkey hget).1
  · by_cases hkey : key = entry.id
    · rw [hkey, hself, some_inj] at hget
      by_contra hne
      exact hapart key' other' kind id (fun hc => hne (hkey.trans hc.symm)) hget' (hget ▸ hown) hown'
    · by_cases hkey' : key' = entry.id
      · rw [hkey', hself, some_inj] at hget'
        exact absurd hown (hapart key other kind id hkey hget (hget' ▸ hown'))
      · exact h.apart key key' other other' kind id (hoths key other hkey hget).1
          (hoths key' other' hkey' hget').1 hown hown'
  · rw [size_set]
    split_ifs with hmem
    · exact hres.size.trans h.size
    · cases hfound : found with
      | none => exact hroom hfound
      | some merged =>
        have hmrg := hres.stored merged (hfound ▸ rfl)
        rw [hid merged (hfound ▸ rfl)] at hmem
        exact absurd (mem_keys_iff.2 (by rw [hmrg]; rfl)) hmem

lemma EntriesFormat.replace {old} (hfmt : EntryFormat entry)
    (hold : entries.get? entry.id = some old) (hal : entry.alias = old.alias) :
    EntriesFormat (entries.set entry.id entry) := by
  have hcases : ∀ key other, (entries.set entry.id entry).get? key = some other →
      (key = entry.id ∧ other = entry) ∨ (key ≠ entry.id ∧ entries.get? key = some other) := by
    intro key other hget
    rw [get?_set] at hget
    split_ifs at hget with hkey
    · exact .inl ⟨hkey, (some.inj hget).symm⟩
    · exact .inr ⟨hkey, hget⟩
  -- every entry has the aliases of the one that was under its key
  have hpre : ∀ key other, (entries.set entry.id entry).get? key = some other →
      ∃ before, entries.get? key = some before ∧ before.alias = other.alias := by
    intro key other hget
    rcases hcases key other hget with ⟨rfl, rfl⟩ | ⟨-, hget⟩
    · exact ⟨old, hold, hal.symm⟩
    · exact ⟨other, hget, rfl⟩
  refine ⟨fun key other hget => ?_, fun key other hget => ?_,
    fun key key' other other' kind id hget hget' hown hown' => ?_, ?_⟩
  · rcases hcases key other hget with ⟨rfl, rfl⟩ | ⟨-, hget⟩
    · rfl
    · exact h.keyed key other hget
  · rcases hcases key other hget with ⟨rfl, rfl⟩ | ⟨-, hget⟩
    · exact hfmt
    · exact h.format key other hget
  · obtain ⟨before, hgetb, hal⟩ := hpre key other hget
    obtain ⟨before', hgetb', halias'⟩ := hpre key' other' hget'
    exact h.apart key key' before before' kind id hgetb hgetb' (hal ▸ hown) (halias' ▸ hown')
  · rw [size_set, if_pos (mem_keys_iff.2 (by rw [hold]; rfl))]
    exact h.size

lemma EntriesFormat.of_subset {entries'}
    (hget : ∀ key entry, entries'.get? key = some entry → entries.get? key = some entry)
    (hsize : entries'.size ≤ entries.size) : EntriesFormat entries' where
  keyed key entry hkey := h.keyed key entry (hget key entry hkey)
  format key entry hkey := h.format key entry (hget key entry hkey)
  apart key key' entry entry' kind id hkey hkey' :=
    h.apart key key' entry entry' kind id (hget key entry hkey) (hget key' entry' hkey')
  size := hsize.trans h.size

end

end CodevoEditor.AgentEvents
