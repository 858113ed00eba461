/-
# Retention keeps the format

Every event keeps the lifecycle in the persistence format.
-/

import CodevoEditor.AgentEvents.LifecycleFormat
import Mathlib.Data.List.Pairwise

namespace CodevoEditor.AgentEvents

open Js List Option OrderedMap Nat

/-- The metrics that a subagent reports are counts. -/
def SafeMetrics : AgentTurnEvent → Prop
  | .subagent event =>
      (∀ value ∈ event.durationMs, value.safeAtLeast 0) ∧
        (∀ value ∈ event.totalTokens, value.safeAtLeast 0) ∧
        ∀ value ∈ event.toolUses, value.safeAtLeast 0
  | .subagentTurnDone event => ∀ value ∈ event.durationMs, value.safeAtLeast 0
  | _ => True

lemma Present.key {text id} (hby : utf8ByteLength text ≤ 16)
    (hid : Present 256 id) : Present 272 (text ++ id) := by
  refine ⟨append_ne_nil_of_right_ne_nil text hid.1, ?_⟩
  have happend := utf8ByteLength_append_le text id
  have hidBytes := hid.2
  omega

variable {key : JsString}

lemma spawnBatchKey_present {toolId}
    (h : spawnBatchKey toolId = some key) : Present maxSubagentBatchKeyBytes key := by
  unfold spawnBatchKey at h
  split_ifs at h with hval
  obtain ⟨id, rfl, rfl⟩ := map_eq_some_iff.1 h
  exact (validId_some_iff.1 hval).key (by decide)

variable {identity : SubagentEventIdentity}

lemma newEntryKey_present (h : newEntryKey identity = some key) : Present 272 key := by
  unfold newEntryKey at h
  split_ifs at h with htool htask hthr
  · obtain ⟨id, hid, rfl⟩ := map_eq_some_iff.1 h
    exact (validId_some_iff.1 (hid ▸ htool)).key (by decide)
  · obtain ⟨id, hid, rfl⟩ := map_eq_some_iff.1 h
    exact (validId_some_iff.1 (hid ▸ htask)).key (by decide)
  · obtain ⟨id, hid, rfl⟩ := map_eq_some_iff.1 h
    exact (validId_some_iff.1 (hid ▸ hthr)).key (by decide)

lemma taskTitleOf_present {value} {title}
    (h : taskTitleOf value = some title) : Present maxSubagentTaskTitleBytes title := by
  obtain ⟨value, -, h⟩ := bind_eq_some_iff.1 h
  dsimp only at h
  split_ifs at h with hline
  cases h
  refine ⟨takeCodePoints_ne_nil (by decide) hline, ?_⟩
  have hby := utf8ByteLength_takeCodePoints_le maxRuntimeSubagentTitleCharacters
    (collapseWhiteSpace false (trim value))
  unfold maxSubagentTaskTitleBytes
  omega

/-! ### What an event makes of an entry -/

variable {event : AgentTurnEvent}

section Bounds

variable {entry : AgentSubagentLifecycleEntry}

lemma EntryBounds.settled (h : EntryBounds entry) : EntryBounds (settled entry) := { h with }

lemma EntryBounds.withValidIds (h : EntryBounds entry) (identity) : EntryBounds (withValidIds entry identity) := by
  have hval {own} {kept}
      (hkept : ∀ id, kept = some id → Present 256 id) id
      (hid : (if validId own then own else kept) = some id) : Present 256 id := by
    split_ifs at hid with hown
    · exact validId_some_iff.1 (hid ▸ hown)
    · exact hkept id hid
  refine { h with aliases := ?_ }
  rintro (_ | _ | _)
  · exact hval (h.aliases .toolId)
  · exact hval (h.aliases .taskId)
  · exact hval (h.aliases .agentThreadId)

lemma withValidIds_alias (entry) (identity)
    (kind) : (withValidIds entry identity).alias kind =
      if validId (identity.alias kind) then identity.alias kind else entry.alias kind := by
  cases kind <;> rfl

section

variable (h : EntryBounds entry)
include h

lemma EntryBounds.taskTitle_or (value) :
    ∀ text ∈ entry.taskTitle.or (taskTitleOf value), Present maxSubagentTaskTitleBytes text := by
  intro text htext
  rcases or_eq_some_iff.1 htext with htext | ⟨-, htext⟩
  · exact h.taskTitle text htext
  · exact taskTitleOf_present htext

lemma EntryBounds.withStartTitle (description) : EntryBounds (withStartTitle entry description) :=
  { h with taskTitle := h.taskTitle_or description }

lemma EntryBounds.withTelemetry (telemetryState) :
    EntryBounds { entry with telemetryState } := { h with }

lemma EntryBounds.afterBackgroundTask (event) : EntryBounds (afterBackgroundTask entry event) := by
  have htitled := h.withStartTitle event.description
  unfold AgentEvents.afterBackgroundTask
  dsimp only
  split_ifs
  · exact htitled.withTelemetry (some .interrupted)
  · exact htitled
  · exact h.withTelemetry (some .interrupted)
  · exact h

lemma EntryBounds.afterSubagent {event} (hmetrics : SafeMetrics (.subagent event)) :
    EntryBounds (afterSubagent entry event) := by
  have htitled : EntryBounds (if event.status = .starting
      then AgentEvents.withStartTitle entry event.description else entry) := by
    split_ifs
    · exact h.withStartTitle event.description
    · exact h
  have hor {own kept : Option JsNumber} (hown : ∀ value ∈ own, value.safeAtLeast 0)
      (hkept : ∀ value ∈ kept, value.safeAtLeast 0) :
      ∀ value ∈ own.or kept, value.safeAtLeast 0 := by
    intro value hval
    rcases or_eq_some_iff.1 hval with hval | ⟨-, hval⟩
    · exact hown value hval
    · exact hkept value hval
  have hclip {text : Option JsString} {kept : JsString} {bytes : ℕ} (hkept : utf8ByteLength kept ≤ bytes) :
      utf8ByteLength ((text.map fun text => clipUtf8 text bytes).getD kept) ≤ bytes := by
    cases text with
    | none => exact hkept
    | some text => exact utf8ByteLength_clipUtf8_le text bytes
  refine { htitled with
    name := hclip htitled.name
    description := hclip htitled.description
    durationMs := hor hmetrics.1 htitled.durationMs
    totalTokens := hor hmetrics.2.1 htitled.totalTokens
    steps := hor hmetrics.2.2 htitled.steps
    lastToolName := ?_ }
  intro text htext
  rcases or_eq_some_iff.1 htext with htext | ⟨-, htext⟩
  · obtain ⟨name, -, rfl⟩ := map_eq_some_iff.1 htext
    exact utf8ByteLength_clipUtf8_le name 128
  · exact htitled.lastToolName text htext

lemma EntryBounds.afterActivity (event) : EntryBounds (afterActivity entry event) :=
  { h with name := utf8ByteLength_clipUtf8_le _ 128 }

lemma EntryBounds.afterTurnDone {event}
    (hmetrics : SafeMetrics (.subagentTurnDone event)) :
    EntryBounds (afterTurnDone entry event) := by
  refine { h with durationMs := ?_ }
  intro value hval
  rcases or_eq_some_iff.1 hval with hval | ⟨-, hval⟩
  · exact hmetrics value hval
  · exact h.durationMs value hval

lemma EntryBounds.afterToolResult (event) : EntryBounds (afterToolResult entry event) := by
  have hresult resultState :
      EntryBounds { entry with resultState } := { h with }
  unfold AgentEvents.afterToolResult
  by_cases hnone : entry.resultState = none
  · rw [if_pos hnone]
    exact hresult _
  · rw [if_neg hnone]
    exact h

end

variable {openBatchKey : Option JsString}

lemma openBatchAfter_present {event}
    (hopen : ∀ key ∈ openBatchKey, Present maxSubagentBatchKeyBytes key) :
    ∀ key ∈ openBatchAfter entry event openBatchKey, Present maxSubagentBatchKeyBytes key := by
  intro key hkey
  unfold openBatchAfter at hkey
  split_ifs at hkey
  · rcases or_eq_some_iff.1 hkey with hkey | ⟨-, hkey⟩
    · exact hopen key hkey
    · exact spawnBatchKey_present hkey
  · exact hopen key hkey

lemma EntryBounds.batchKey_or (h : EntryBounds entry)
    (hopen : ∀ key ∈ openBatchKey, Present maxSubagentBatchKeyBytes key) :
    ∀ text ∈ entry.batchKey.or openBatchKey, Present maxSubagentBatchKeyBytes text := by
  intro text htext
  rcases or_eq_some_iff.1 htext with htext | ⟨-, htext⟩
  · exact h.batchKey text htext
  · exact hopen text htext

lemma EntryBounds.afterToolCall (h : EntryBounds entry) (event)
    (hopen : ∀ key ∈ openBatchKey, Present maxSubagentBatchKeyBytes key) :
    EntryBounds (afterToolCall entry event openBatchKey) :=
  { h with
    name := utf8ByteLength_clipUtf8_le event.name 128
    description := utf8ByteLength_clipUtf8_le event.summary 512
    taskTitle := h.taskTitle_or (some event.summary)
    batchKey := h.batchKey_or hopen }

/-- **An event leaves an entry within its limits**, and the key of the open batch. -/
theorem EntryBounds.entryAfter (h : EntryBounds entry) (hmetrics : SafeMetrics event)
    (hopen : ∀ key ∈ openBatchKey, Present maxSubagentBatchKeyBytes key) :
    EntryBounds (entryAfter event entry openBatchKey).1 ∧
      ∀ key ∈ (AgentEvents.entryAfter event entry openBatchKey).2, Present maxSubagentBatchKeyBytes key := by
  cases event with
  | toolCall event =>
    have haft : ∀ key ∈ openBatchAfter entry event openBatchKey,
        Present maxSubagentBatchKeyBytes key := openBatchAfter_present hopen
    exact ⟨h.afterToolCall event haft, haft⟩
  | toolResult event => exact ⟨h.afterToolResult event, hopen⟩
  | backgroundTask event => exact ⟨h.afterBackgroundTask event, hopen⟩
  | subagent event => exact ⟨h.afterSubagent hmetrics, hopen⟩
  | subagentActivity event => exact ⟨h.afterActivity event, hopen⟩
  | subagentTurnDone event => exact ⟨h.afterTurnDone hmetrics, hopen⟩
  | _ => exact ⟨h, hopen⟩

lemma entryAfter_ids (event) (entry)
    (openBatchKey) :
    (entryAfter event entry openBatchKey).1.id = entry.id ∧
      (entryAfter event entry openBatchKey).1.alias = entry.alias := by
  cases event with
  | toolResult event =>
    change (afterToolResult entry event).id = _ ∧ (afterToolResult entry event).alias = _
    unfold afterToolResult
    split_ifs <;> exact ⟨rfl, rfl⟩
  | backgroundTask event =>
    change (afterBackgroundTask entry event).id = _ ∧ (afterBackgroundTask entry event).alias = _
    unfold afterBackgroundTask
    dsimp only
    split_ifs <;> exact ⟨rfl, rfl⟩
  | subagent event =>
    change (afterSubagent entry event).id = _ ∧ (afterSubagent entry event).alias = _
    unfold afterSubagent
    by_cases hst : event.status = .starting
    · rw [if_pos hst]
      exact ⟨rfl, rfl⟩
    · rw [if_neg hst]
      exact ⟨rfl, rfl⟩
  | _ => exact ⟨rfl, rfl⟩

end Bounds

/-- The loop's variables, when they can be written out and read back. -/
structure TableFormat (table : LifecycleTable) : Prop where
  entries : EntriesFormat table.entries
  openBatchKey : ∀ key ∈ table.openBatchKey, Present maxSubagentBatchKeyBytes key
  counted : ∀ id ∈ table.counted.keys, Present 256 id
  countedSize : table.counted.size ≤ maxSubagentCountedNestedIds

variable {table : LifecycleTable}

lemma TableFormat.closeBatch (h : TableFormat table) (event) : TableFormat (table.closeBatch event) := by
  unfold LifecycleTable.closeBatch
  split_ifs
  · exact { h with openBatchKey := by rintro key ⟨⟩ }
  · exact h

lemma EntryBounds.blank (h : Present 272 key) :
    EntryBounds { id := key, name := js "subagent", description := [], state := .running } where
  id := h
  aliases := by rintro (_ | _ | _) id ⟨⟩
  name := by change utf8ByteLength (js "subagent") ≤ 128; decide
  description := zero_le 512
  durationMs := by rintro value ⟨⟩
  totalTokens := by rintro value ⟨⟩
  steps := by rintro value ⟨⟩
  lastToolName := by rintro text ⟨⟩
  taskTitle := by rintro text ⟨⟩
  batchKey := by rintro text ⟨⟩
  nestedCount := by rintro count ⟨⟩
  parentToolId := by rintro text ⟨⟩
  model := by rintro text ⟨⟩

lemma known_of_newEntryKey (h : newEntryKey identity = some key)
    (base) :
    ∃ kind id, (withValidIds base identity).alias kind = some id := by
  have hval kind (hkind : validId (identity.alias kind)) :
      ∃ kind id, (withValidIds base identity).alias kind = some id := by
    cases hid : identity.alias kind with
    | none =>
      rw [hid] at hkind
      cases hkind
    | some id => exact ⟨kind, id, by rw [withValidIds_alias, if_pos hkind, hid]⟩
  unfold newEntryKey at h
  split_ifs at h with htool htask hthr
  · exact hval .toolId htool
  · exact hval .taskId htask
  · exact hval .agentThreadId hthr

variable {entries : LifecycleEntries}

lemma EntriesFormat.resolveAlias_none (h : EntriesFormat entries)
    (hfound : (AgentEvents.resolveAlias entries identity).2 = none) :
    EntriesFormat (AgentEvents.resolveAlias entries identity).1 := by
  have hres := h.resolveAlias identity
  rw [hfound] at hres
  exact h.of_subset (fun key entry hget =>
    (hres.others key entry (by rintro merged ⟨⟩) hget).1) hres.size

theorem TableFormat.retainIdentified (h : TableFormat table) (hmetrics : SafeMetrics event)
    (identity) :
    TableFormat (table.retainIdentified event identity) := by
  have hres := h.entries.resolveAlias identity
  -- one entry is written, whether one is found or not
  have hwrite (base : AgentSubagentLifecycleEntry) (hbd : EntryBounds base)
      (hkn : ∃ kind id, (withValidIds base identity).alias kind = some id)
      (hid : ∀ merged ∈ (resolveAlias table.entries identity).2, base.id = merged.id)
      (hroom : (resolveAlias table.entries identity).2 = none →
        (resolveAlias table.entries identity).1.size < maxRetainedSubagents)
      (hal : ∀ kind id, base.alias kind = some id →
        ∃ merged ∈ (resolveAlias table.entries identity).2, merged.alias kind = some id) :
      TableFormat { table with
        entries := (resolveAlias table.entries identity).1.set base.id
          (settled (entryAfter event (withValidIds base identity) table.openBatchKey).1)
        openBatchKey := (entryAfter event (withValidIds base identity) table.openBatchKey).2
        changed := true } := by
    obtain ⟨haft, hopen⟩ := (hbd.withValidIds identity).entryAfter hmetrics h.openBatchKey
    obtain ⟨hidAfter, haliasAfter⟩ := entryAfter_ids event (withValidIds base identity) table.openBatchKey
    have haliasSettled : (settled (entryAfter event (withValidIds base identity)
        table.openBatchKey).1).alias = (withValidIds base identity).alias := haliasAfter
    refine { h with
      entries := ?_
      openBatchKey := hopen }
    have hidSettled : (settled (entryAfter event (withValidIds base identity)
        table.openBatchKey).1).id = base.id := hidAfter
    rw [← hidSettled]
    refine h.entries.write hres { haft.settled with known := haliasSettled ▸ hkn, state := rfl } ?_ hroom ?_
    · intro merged hmrg
      rw [hidSettled, hid merged hmrg]
    · intro kind id hown
      rw [haliasSettled, withValidIds_alias] at hown
      split_ifs at hown
      · exact .inl hown
      · exact .inr (hal kind id hown)
  have hnone : (resolveAlias table.entries identity).2 = none →
      EntriesFormat (resolveAlias table.entries identity).1 := h.entries.resolveAlias_none
  unfold LifecycleTable.retainIdentified
  generalize resolveAlias table.entries identity = resolved at hres hwrite hnone ⊢
  obtain ⟨entries, found⟩ := resolved
  cases found with
  | none =>
    have hents := hnone rfl
    dsimp only [map_none, none_or, getD_none] at hwrite ⊢
    by_cases hst : none = (none : Option AgentSubagentLifecycleEntry) ∧ startsNoEntry event
    · rw [if_pos hst]
      exact { h with entries := hents }
    · rw [if_neg hst]
      cases hkey : newEntryKey identity with
      | none => exact { h with entries := hents }
      | some key =>
        split_ifs with hfull
        · exact { h with entries := hents }
        · refine hwrite _ (EntryBounds.blank (newEntryKey_present hkey)) (known_of_newEntryKey hkey _)
            (by rintro merged ⟨⟩) (fun _ => ?_) ?_
          · simp only [true_and] at hfull
            omega
          · rintro (_ | _ | _) id ⟨⟩
  | some merged =>
    have hkn := hres.known merged rfl
    refine hwrite merged (hres.bounds merged rfl) ?_ ?_ ?_ ?_
    · obtain ⟨kind, id, hid⟩ := hkn
      by_cases hval : validId (identity.alias kind)
      · cases hown : identity.alias kind with
        | none =>
          rw [hown] at hval
          cases hval
        | some own => exact ⟨kind, own, by rw [withValidIds_alias, if_pos hval, hown]⟩
      · exact ⟨kind, id, by rw [withValidIds_alias, if_neg hval, hid]⟩
    · rintro _ ⟨⟩
      rfl
    · rintro ⟨⟩
    · intro kind id hid
      exact ⟨merged, rfl, hid⟩

variable {toolId : JsString}

variable {root : AgentSubagentLifecycleEntry}

lemma nestedRootFrom_mem {depth} (h : nestedRootFrom entries depth toolId = some root) : root ∈ entries.values := by
  induction depth generalizing toolId with
  | zero => cases h
  | succ depth ih =>
    obtain ⟨parent, hparent, h⟩ := bind_eq_some_iff.1 h
    cases hnested : parent.parentToolId with
    | none =>
      rw [hnested] at h
      cases h
      exact mem_of_find?_eq_some hparent
    | some parentToolId =>
      rw [hnested] at h
      exact ih h

lemma EntriesFormat.resolveAlias_toolId (h : EntriesFormat entries) (toolId : JsString) :
    AgentEvents.resolveAlias entries { toolId := some toolId } =
      (entries, entries.values.find? (SubagentEventIdentity.hits { toolId := some toolId })) := by
  refine h.resolveAlias_of_unique fun entry hent entry' hentry' hhit hhit' => ?_
  obtain ⟨kind, id, hkind, hid⟩ := hits_iff.1 hhit
  obtain ⟨kind', id', hkind', hid'⟩ := hits_iff.1 hhit'
  rcases kind with _ | _ | _ <;> cases hkind
  rcases kind' with _ | _ | _ <;> cases hkind'
  have hget := h.get?_of_mem hent
  have hget' := h.get?_of_mem hentry'
  rw [h.apart _ _ _ _ .toolId toolId hget hget' hid hid', hget', some_inj] at hget
  exact hget.symm

lemma counted_remember {counted}
    (hcnt : ∀ id ∈ counted.keys, Present 256 id)
    (hsize : counted.size ≤ maxSubagentCountedNestedIds) (htool : Present 256 toolId) :
    (∀ id ∈ (rememberCountedNested counted toolId).keys, Present 256 id) ∧
      (rememberCountedNested counted toolId).size ≤ maxSubagentCountedNestedIds := by
  have hset : ∀ id ∈ (counted.set toolId ()).keys, Present 256 id := by
    intro id hid
    rw [mem_keys_iff, get?_set] at hid
    split_ifs at hid with hsame
    · exact hsame ▸ htool
    · exact hcnt id (mem_keys_iff.2 hid)
  have hsizeSet : (counted.set toolId ()).size ≤ maxSubagentCountedNestedIds + 1 := by
    rw [size_set]
    split_ifs <;> omega
  -- the first of too many keys makes room
  have hloop (olds : List JsString) (counted : OrderedMap JsString Unit)
      (hkeys : ∀ id ∈ counted.keys, Present 256 id)
      (hsize : counted.size ≤ maxSubagentCountedNestedIds + 1)
      (hroom : counted.size ≤ maxSubagentCountedNestedIds ∨ ∃ old ∈ olds.head?, old ∈ counted.keys) :
      (∀ id ∈ (olds.foldl (fun counted oldest =>
          if counted.size ≤ maxSubagentCountedNestedIds then counted else counted.delete oldest)
          counted).keys, Present 256 id) ∧
        (olds.foldl (fun counted oldest =>
          if counted.size ≤ maxSubagentCountedNestedIds then counted else counted.delete oldest)
          counted).size ≤ maxSubagentCountedNestedIds := by
    induction olds generalizing counted with
    | nil =>
      rcases hroom with hroom | ⟨old, ⟨⟩, -⟩
      exact ⟨hkeys, hroom⟩
    | cons oldest olds ih =>
      rw [foldl_cons]
      by_cases hfits : counted.size ≤ maxSubagentCountedNestedIds
      · rw [if_pos hfits]
        exact ih counted hkeys hsize (.inl hfits)
      · rw [if_neg hfits]
        obtain hroom | ⟨old, ⟨⟩, hold⟩ := hroom
        · exact absurd hroom hfits
        · have hless : (counted.delete oldest).size + 1 = counted.size := by
            have hkeysDelete : (counted.delete oldest).keys = counted.keys.erase oldest := by
              have hnd : counted.keys.Nodup := counted.nodup
              rw [keys_delete, hnd.erase_eq_filter oldest]
              refine filter_congr fun id _ => ?_
              rw [bne, ← Bool.decide_coe (id == oldest)]
              simp
            have hpos := length_pos_of_mem hold
            rw [← length_keys, ← length_keys, hkeysDelete, length_erase_of_mem hold]
            omega
          refine ih (counted.delete oldest) (fun id hid => ?_) (by omega) (.inl (by omega))
          rw [mem_keys_iff, get?_delete] at hid
          split_ifs at hid
          · cases hid
          · exact hkeys id (mem_keys_iff.2 hid)
  refine hloop _ _ hset hsizeSet ?_
  cases hkeys : (counted.set toolId ()).keys with
  | nil =>
    rw [← length_keys, hkeys]
    exact .inl (zero_le _)
  | cons oldest olds => exact .inr ⟨oldest, rfl, mem_cons_self⟩

lemma EntryFormat.countNested (h : EntryFormat root) :
    EntryFormat { root with
      nestedCount := some (min maxSubagentNestedCount (root.nestedCount.getD 0 + 1)) } := by
  refine { h with nestedCount := ?_ }
  rintro count ⟨⟩
  have hmax : 1 ≤ maxSubagentNestedCount := by decide
  exact ⟨by omega, min_le_left _ _⟩

variable {parentToolId : JsString}

lemma EntryFormat.nestUnder {entry} (h : EntryFormat entry)
    (hparent : Present 256 parentToolId) (summary : JsString) :
    EntryFormat { entry with
      parentToolId := some parentToolId
      description := if entry.description = [] then clipUtf8 summary 512 else entry.description
      taskTitle := (entry.taskTitle.or (taskTitleOf (some summary))).or entry.taskTitle } := by
  refine { h with description := ?_, taskTitle := ?_, parentToolId := ?_ }
  · change utf8ByteLength (if _ then _ else _) ≤ 512
    split_ifs
    · exact utf8ByteLength_clipUtf8_le summary 512
    · exact h.description
  · intro text htext
    rcases or_eq_some_iff.1 htext with htext | ⟨-, htext⟩
    · exact h.taskTitle_or (some summary) text htext
    · exact h.taskTitle text htext
  · rintro text ⟨⟩
    exact hparent

lemma EntryFormat.nested (htool : Present 256 toolId) (hparent : Present 256 parentToolId)
    (name summary : JsString) :
    EntryFormat { id := js "tool:" ++ toolId
                  toolId := some toolId
                  parentToolId := some parentToolId
                  name := clipUtf8 name 128
                  description := clipUtf8 summary 512
                  state := .running
                  taskTitle := taskTitleOf (some summary) } := by
  have hkey : Present 272 (js "tool:" ++ toolId) := htool.key (by decide)
  have hblank := EntryBounds.blank hkey
  refine { hblank with
    aliases := ?_
    name := utf8ByteLength_clipUtf8_le name 128
    description := utf8ByteLength_clipUtf8_le summary 512
    taskTitle := fun text (htext : taskTitleOf (some summary) = some text) => taskTitleOf_present htext
    parentToolId := ?_
    known := ⟨.toolId, toolId, rfl⟩
    state := rfl }
  · rintro (_ | _ | _) id ⟨⟩
    exact htool
  · rintro text ⟨⟩
    exact hparent

/-- **A nested spawn**: it counts for its root, and is an entry of its own. -/
theorem TableFormat.retainNested (h : TableFormat table) (event)
    (parentToolId : JsString) : TableFormat (table.retainNested event parentToolId) := by
  suffices hretained : EntriesFormat
        (retainNestedSpawn table.entries table.counted event parentToolId).1 ∧
      (∀ id ∈ (retainNestedSpawn table.entries table.counted event parentToolId).2.1.keys, Present 256 id) ∧
      (retainNestedSpawn table.entries table.counted event parentToolId).2.1.size ≤ maxSubagentCountedNestedIds from
    ⟨hretained.1, h.openBatchKey, hretained.2.1, hretained.2.2⟩
  unfold retainNestedSpawn
  by_cases hinv : (!validId (some event.toolId) || !validId (some parentToolId))
  · rw [if_pos hinv]
    exact ⟨h.entries, h.counted, h.countedSize⟩
  rw [if_neg hinv]
  rw [Bool.or_eq_true, Bool.not_eq_true', Bool.not_eq_true', not_or, Bool.not_eq_false, Bool.not_eq_false] at hinv
  have htool := validId_some_iff.1 hinv.1
  have hparent := validId_some_iff.1 hinv.2
  rw [h.entries.resolveAlias_toolId event.toolId]
  have hfound entry
      (hent : table.entries.values.find?
        (SubagentEventIdentity.hits { toolId := some event.toolId }) = some entry) :
      table.entries.get? entry.id = some entry :=
    h.entries.get?_of_mem (mem_of_find?_eq_some hent)
  have hunknown (hnone : table.entries.values.find?
      (SubagentEventIdentity.hits { toolId := some event.toolId }) = none)
      entry (hent : entry ∈ table.entries.values) :
      SubagentEventIdentity.hits { toolId := some event.toolId } entry = false := by
    rw [← Bool.not_eq_true]
    exact find?_eq_none.1 hnone entry hent
  generalize table.entries.values.find?
    (SubagentEventIdentity.hits { toolId := some event.toolId }) = existing at hfound hunknown ⊢
  by_cases hnested : (existing.bind (·.parentToolId)) ≠ none
  · rw [if_pos hnested]
    exact ⟨h.entries, h.counted, h.countedSize⟩
  rw [if_neg hnested]
  by_cases hcnt : table.counted.has event.toolId
  · rw [if_pos hcnt]
    exact ⟨h.entries, h.counted, h.countedSize⟩
  rw [if_neg hcnt]
  cases hroot : nestedRoot table.entries parentToolId with
  | none => exact ⟨h.entries, h.counted, h.countedSize⟩
  | some root =>
    have hrootGet := h.entries.get?_of_mem (nestedRootFrom_mem hroot)
    have hrootFormat := h.entries.format root.id root hrootGet
    dsimp only
    by_cases hself : existing.map (·.id) = some root.id
    · rw [if_pos hself]
      exact ⟨h.entries, h.counted, h.countedSize⟩
    rw [if_neg hself]
    have hents := h.entries.replace hrootFormat.countNested hrootGet rfl
    have hget key := get?_set table.entries root.id key { root with
      nestedCount := some (min maxSubagentNestedCount (root.nestedCount.getD 0 + 1)) }
    cases existing with
    | some existing =>
      have hexist := hfound existing rfl
      have hfmt := h.entries.format existing.id existing hexist
      have hapart : existing.id ≠ root.id := fun hsame => hself (by rw [map_some, hsame])
      have hkept := (hget existing.id).trans ((if_neg hapart).trans hexist)
      exact ⟨hents.replace (hfmt.nestUnder hparent event.summary) hkept rfl, h.counted, h.countedSize⟩
    | none =>
      by_cases hfull : maxRetainedSubagents ≤ (table.entries.set root.id { root with
          nestedCount := some (min maxSubagentNestedCount (root.nestedCount.getD 0 + 1)) }).size
      · rw [if_pos hfull]
        exact ⟨hents, counted_remember h.counted h.countedSize htool⟩
      · rw [if_neg hfull]
        refine ⟨?_, h.counted, h.countedSize⟩
        -- the root has the ids that it had, so it is not hit either
        have hres := Resolved.of_not_hit fun key entry hent => by
          rw [hget] at hent
          split_ifs at hent with hkey
          · cases hent
            exact hunknown rfl root (nestedRootFrom_mem hroot)
          · exact hunknown rfl entry (mem_values_iff.2 ⟨key, hent⟩)
        refine hents.write hres (EntryFormat.nested htool hparent event.name event.summary)
          (by rintro merged ⟨⟩) (fun _ => not_le.1 hfull) ?_
        rintro (_ | _ | _) id ⟨⟩
        exact .inl rfl

variable {batchKey : Option JsString}

lemma EntryBounds.spawnDetails {entry} (h : EntryBounds entry)
    (event)
    (hbatch : ∀ key ∈ batchKey, Present maxSubagentBatchKeyBytes key) (receiverless : Bool) :
    EntryBounds (spawnDetails entry event batchKey receiverless) := by
  refine { h with
    taskTitle := h.taskTitle_or event.taskTitle
    batchKey := h.batchKey_or hbatch
    model := ?_ }
  intro text htext
  have hmodel : (if entry.model.or (event.model.map fun model =>
        clipUtf8 model maxSubagentModelBytes) = none ∨
      entry.model.or (event.model.map fun model => clipUtf8 model maxSubagentModelBytes) = some []
      then entry.model
      else entry.model.or (event.model.map fun model => clipUtf8 model maxSubagentModelBytes)) =
      some text := htext
  split_ifs at hmodel with hemp
  · exact h.model text hmodel
  · rw [not_or] at hemp
    rcases or_eq_some_iff.1 hmodel with hown | ⟨-, hown⟩
    · exact h.model text hown
    · obtain ⟨model, -, rfl⟩ := map_eq_some_iff.1 hown
      refine ⟨?_, utf8ByteLength_clipUtf8_le model maxSubagentModelBytes⟩
      rintro hnil
      exact hemp.2 (hmodel.trans (congrArg some hnil))

lemma mem_spawnTargets {event} {receivers}
    (hcall : Present 256 event.callId) (hrecvs : ∀ id ∈ receivers, Present 256 id)
    (h : identity ∈ spawnTargets event receivers) :
    (∀ kind id, identity.alias kind = some id → Present 256 id) ∧
      (identity.agentThreadId = none → identity.toolId = some event.callId) ∧
      (identity.toolId = none ∨ identity.toolId = some event.callId) ∧ identity.taskId = none := by
  unfold spawnTargets at h
  split_ifs at h with hnone
  · obtain rfl := mem_singleton.1 h
    refine ⟨?_, fun _ => rfl, .inr rfl, rfl⟩
    rintro (_ | _ | _) id ⟨⟩
    exact hcall
  · obtain ⟨⟨receiver, index⟩, hrecv, rfl⟩ := mem_map.1 h
    have hpres := hrecvs receiver (fst_mem_of_mem_zipIdx hrecv)
    split_ifs
    · refine ⟨?_, fun _ => rfl, .inr rfl, rfl⟩
      rintro (_ | _ | _) id ⟨⟩
      · exact hcall
      · exact hpres
    · refine ⟨?_, by rintro ⟨⟩, .inl rfl, rfl⟩
      rintro (_ | _ | _) id ⟨⟩
      exact hpres

theorem EntriesFormat.retainSpawnTarget {retained}
    (h : EntriesFormat retained.1) {event}
    (hbatch : ∀ key ∈ batchKey, Present maxSubagentBatchKeyBytes key)
    (hcall : Present 256 event.callId) (receiverless : Bool)
    (hval : ∀ kind id, identity.alias kind = some id → Present 256 id)
    (hcalled : identity.agentThreadId = none → identity.toolId = some event.callId) :
    EntriesFormat (retainSpawnTarget event batchKey receiverless retained identity).1 := by
  have hres := h.resolveAlias identity
  have hnone : (AgentEvents.resolveAlias retained.1 identity).2 = none →
      EntriesFormat (AgentEvents.resolveAlias retained.1 identity).1 := h.resolveAlias_none
  have hchild name (hname : (identity.agentThreadId.bind fun agentThreadId =>
      (retained.1.values.find? fun entry => entry.agentThreadId = some agentThreadId).map (·.name)) =
      some name) : utf8ByteLength name ≤ 128 := by
    obtain ⟨agentThreadId, -, hname⟩ := bind_eq_some_iff.1 hname
    obtain ⟨entry, hent, rfl⟩ := map_eq_some_iff.1 hname
    exact (h.format entry.id entry (h.get?_of_mem (mem_of_find?_eq_some hent))).name
  unfold AgentEvents.retainSpawnTarget
  generalize (identity.agentThreadId.bind fun agentThreadId =>
      (retained.1.values.find? fun entry => entry.agentThreadId = some agentThreadId).map (·.name)) =
    childName at hchild ⊢
  generalize AgentEvents.resolveAlias retained.1 identity = resolved at hres hnone ⊢
  obtain ⟨entries, found⟩ := resolved
  dsimp only at hres hnone ⊢
  split_ifs with hfull
  · exact hnone hfull.1
  · -- the entry that is written: the one found, or a new one
    generalize hnew : found.getD _ = base
    have hbase : EntryBounds base := by
      rw [← hnew]
      cases found with
      | some merged => exact hres.bounds merged rfl
      | none =>
        refine EntryBounds.blank ?_
        cases hthr : identity.agentThreadId with
        | none => exact hcall.key (by decide)
        | some agentThreadId => exact (hval .agentThreadId agentThreadId hthr).key (by decide)
    have hbaseAlias kind id (hid : base.alias kind = some id) :
        ∃ merged ∈ found, merged.alias kind = some id := by
      rw [← hnew] at hid
      cases found with
      | some merged => exact ⟨merged, rfl, hid⟩
      | none => rcases kind with _ | _ | _ <;> cases hid
    have hbaseId merged (hmrg : merged ∈ found) : base.id = merged.id := by
      cases hmrg
      rw [← hnew]
      rfl
    have hnamed : EntryBounds { base with
        name := childName.getD base.name
        toolId := identity.toolId.or base.toolId
        taskId := identity.taskId.or base.taskId
        agentThreadId := identity.agentThreadId.or base.agentThreadId } := by
      refine { hbase with aliases := ?_, name := ?_ }
      · rintro (_ | _ | _) id hid
        all_goals rcases or_eq_some_iff.1 hid with hid | ⟨-, hid⟩
        · exact hval .toolId id hid
        · exact hbase.aliases .toolId id hid
        · exact hval .taskId id hid
        · exact hbase.aliases .taskId id hid
        · exact hval .agentThreadId id hid
        · exact hbase.aliases .agentThreadId id hid
      · cases childName with
        | none => exact hbase.name
        | some name => exact hchild name rfl
    have hnext := hnamed.spawnDetails event hbatch receiverless
    refine h.write hres { hnext with known := ?_, state := rfl } (fun merged hmrg =>
      hbaseId merged hmrg) (fun hget => ?_) ?_
    · cases hthr : identity.agentThreadId with
      | some agentThreadId =>
        refine ⟨.agentThreadId, agentThreadId, ?_⟩
        rfl
      | none =>
        refine ⟨.toolId, event.callId, ?_⟩
        have hnamedTool : identity.toolId.or base.toolId = some event.callId := by
          rw [hcalled hthr, some_or]
        exact hnamedTool
    · rw [not_and, not_le] at hfull
      exact hfull hget
    · rintro (_ | _ | _) id hid
      all_goals rcases or_eq_some_iff.1 hid with hid | ⟨-, hid⟩
      · exact .inl hid
      · exact .inr (hbaseAlias .toolId id hid)
      · exact .inl hid
      · exact .inr (hbaseAlias .taskId id hid)
      · exact .inl hid
      · exact .inr (hbaseAlias .agentThreadId id hid)

theorem TableFormat.retainSpawnEvent (h : TableFormat table) (event) :
    TableFormat (table.retainSpawnEvent event) := by
  unfold LifecycleTable.retainSpawnEvent retainSpawn
  by_cases hinv : (!validId (some event.callId))
  · rw [if_pos hinv]
    exact { h with }
  · rw [if_neg hinv]
    rw [Bool.not_eq_true', Bool.not_eq_false] at hinv
    have hcall := validId_some_iff.1 hinv
    have hbatch : ∀ key ∈ table.openBatchKey.or (spawnBatchKey (some event.callId)),
        Present maxSubagentBatchKeyBytes key := by
      intro key hkey
      rcases or_eq_some_iff.1 hkey with hkey | ⟨-, hkey⟩
      · exact h.openBatchKey key hkey
      · exact spawnBatchKey_present hkey
    have hrecvs : ∀ id ∈ event.agentThreadIds.filter fun id => validId (some id),
        Present 256 id := fun id hid => validId_some_iff.1 (mem_filter.1 hid).2
    refine { h with
      entries := ?_
      openBatchKey := hbatch }
    have hloop (targets : List SubagentEventIdentity)
        (htargets : ∀ identity ∈ targets, identity ∈ spawnTargets event
          (event.agentThreadIds.filter fun id => validId (some id)))
        (retained : LifecycleEntries × Bool) (hretained : EntriesFormat retained.1)
        (receiverless : Bool) :
        EntriesFormat (targets.foldl (retainSpawnTarget event
          (table.openBatchKey.or (spawnBatchKey (some event.callId))) receiverless) retained).1 := by
      induction targets generalizing retained with
      | nil => exact hretained
      | cons identity targets ih =>
        obtain ⟨hval, hcalled, -, -⟩ := mem_spawnTargets hcall hrecvs (htargets identity mem_cons_self)
        exact ih (fun other hoth => htargets other (mem_cons_of_mem identity hoth)) _
          (hretained.retainSpawnTarget hbatch hcall receiverless hval hcalled)
    exact hloop _ (fun identity hidn => hidn) (table.entries, false) h.entries _

lemma dropSpawnTools_subset (entries) (key : JsString)
    (entry) (h : (LifecycleTable.dropSpawnTools entries).get? key = some entry) :
    entries.get? key = some entry := by
  have hloop (pairs : List (JsString × AgentSubagentLifecycleEntry)) (kept : LifecycleEntries)
      (h : (pairs.foldl (fun kept pair =>
        if isSpawnAgent pair.2.name then kept.delete pair.1 else kept) kept).get? key = some entry) :
      kept.get? key = some entry := by
    induction pairs generalizing kept with
    | nil => exact h
    | cons pair pairs ih =>
      have hrest := ih _ h
      dsimp only at hrest
      split_ifs at hrest
      · rw [get?_delete] at hrest
        split_ifs at hrest
        exact hrest
      · exact hrest
  exact hloop entries.entries entries h

lemma size_dropSpawnTools_le (entries) : (LifecycleTable.dropSpawnTools entries).size ≤ entries.size := by
  have hloop (pairs : List (JsString × AgentSubagentLifecycleEntry)) (kept : LifecycleEntries) :
      (pairs.foldl (fun kept pair =>
        if isSpawnAgent pair.2.name then kept.delete pair.1 else kept) kept).size ≤ kept.size := by
    induction pairs generalizing kept with
    | nil => exact le_rfl
    | cons pair pairs ih =>
      refine (ih _).trans ?_
      dsimp only
      split_ifs
      · exact kept.size_delete_le pair.1
      · exact le_rfl
  exact hloop entries.entries entries

lemma TableFormat.dropSpawnTools (h : TableFormat table) :
    TableFormat { table with entries := LifecycleTable.dropSpawnTools table.entries } :=
  { h with
    entries := h.entries.of_subset (dropSpawnTools_subset table.entries) (size_dropSpawnTools_le table.entries) }

lemma TableFormat.retainAbout (h : TableFormat table) (hmetrics : SafeMetrics event) :
    TableFormat (table.retainAbout event) := by
  unfold LifecycleTable.retainAbout
  extract_lets left
  have hleft : TableFormat left := by
    cases event with
    | subagentActivity _ => exact h.dropSpawnTools
    | subagentTurnDone _ => exact h.dropSpawnTools
    | _ => exact h
  split_ifs
  · exact hleft
  · split
    · exact hleft
    · exact hleft.retainIdentified hmetrics _

theorem TableFormat.step (h : TableFormat table) (hmetrics : SafeMetrics event) : TableFormat (table.step event) := by
  have hcl := h.closeBatch event
  unfold LifecycleTable.step
  dsimp only
  split
  · exact hcl.retainSpawnEvent _
  · split
    · exact hcl.retainNested _ _
    · exact hcl.retainAbout hmetrics

variable {events : List AgentTurnEvent}

lemma TableFormat.foldl (h : TableFormat table) (hmetrics : ∀ event ∈ events, SafeMetrics event) :
    TableFormat (events.foldl LifecycleTable.step table) := by
  induction events generalizing table with
  | nil => exact h
  | cons event events ih =>
    exact ih (h.step (hmetrics event mem_cons_self)) fun other hoth => hmetrics other (mem_cons_of_mem event hoth)

variable {previous : Option AgentSubagentLifecycle}

lemma TableFormat.start (h : ∀ lifecycle ∈ previous, LifecycleFormat lifecycle) :
    TableFormat (LifecycleTable.start previous) := by
  cases previous with
  | none =>
    exact ⟨⟨by rintro key entry ⟨⟩, by rintro key entry ⟨⟩, by rintro key key' entry entry' kind id ⟨⟩,
      zero_le _⟩, by rintro key ⟨⟩, by rintro id ⟨⟩, zero_le _⟩
  | some lifecycle =>
    have hfmt := h lifecycle rfl
    have hents : (LifecycleTable.start (some lifecycle)).entries.entries =
        lifecycle.entries.map fun entry => (entry.id, entry) :=
      entries_foldl_set (fun entry : AgentSubagentLifecycleEntry => entry.id)
        id lifecycle.entries OrderedMap.empty hfmt.ids
    have hget key entry
        (hkey : (LifecycleTable.start (some lifecycle)).entries.get? key = some entry) :
        entry ∈ lifecycle.entries ∧ entry.id = key := by
      have hmem := get?_eq_some_iff.1 hkey
      rw [hents] at hmem
      obtain ⟨stored, hstore, heq⟩ := mem_map.1 hmem
      cases heq
      exact ⟨hstore, rfl⟩
    have hcnt : (LifecycleTable.start (some lifecycle)).counted.keys =
        lifecycle.countedNestedToolIds.getD [] := by
      have hnd : (lifecycle.countedNestedToolIds.getD []).Nodup := by
        cases hids : lifecycle.countedNestedToolIds with
        | none => exact nodup_nil
        | some ids => exact (hfmt.counted ids hids).2.2.1
      have hset := entries_foldl_set (fun toolId : JsString => toolId) (fun _ => ())
        (lifecycle.countedNestedToolIds.getD []) OrderedMap.empty (by rwa [List.map_id'])
      refine (congrArg (List.map Prod.fst) hset).trans ?_
      rw [List.map_append, List.map_map]
      exact map_id' _
    refine ⟨⟨fun key entry hkey => (hget key entry hkey).2, fun key entry hkey =>
      hfmt.format entry (hget key entry hkey).1, ?_, ?_⟩, hfmt.openBatchKey, ?_, ?_⟩
    · intro key key' entry entry' kind id hkey hkey' hid hid'
      obtain ⟨hmem, rfl⟩ := hget key entry hkey
      obtain ⟨hmem', rfl⟩ := hget key' entry' hkey'
      by_contra hne
      have hsymm : Std.Symm fun entry entry' : AgentSubagentLifecycleEntry =>
          ∀ kind id, entry.alias kind = some id → entry'.alias kind ≠ some id :=
        ⟨fun _ _ hapart kind id hid hid' => hapart kind id hid' hid⟩
      exact hfmt.apart.forall hmem hmem' (fun hsame => hne (hsame ▸ rfl)) kind id hid hid'
    · rw [OrderedMap.size, hents, length_map]
      exact hfmt.length
    · rw [hcnt]
      cases hids : lifecycle.countedNestedToolIds with
      | none => rintro id ⟨⟩
      | some ids => exact (hfmt.counted ids hids).2.2.2
    · rw [← length_keys, hcnt]
      cases hids : lifecycle.countedNestedToolIds with
      | none => exact zero_le _
      | some ids => exact (hfmt.counted ids hids).2.1

lemma TableFormat.lifecycle (h : TableFormat table) : LifecycleFormat table.lifecycle := by
  refine ⟨?_, ?_, ?_, ?_, h.openBatchKey, ?_⟩
  · exact table.entries.length_values.trans_le h.entries.size
  · change (table.entries.values.map (·.id)).Nodup
    rw [h.entries.map_id]
    exact table.entries.nodup
  · have hids : (table.entries.values.map (·.id)).Nodup := h.entries.map_id ▸ table.entries.nodup
    rw [List.Nodup, pairwise_map] at hids
    refine hids.imp_of_mem ?_
    intro entry entry' hent hentry' hne kind id hid hid'
    exact hne (h.entries.apart entry.id entry'.id entry entry' kind id (h.entries.get?_of_mem hent)
      (h.entries.get?_of_mem hentry') hid hid')
  · intro entry hent
    exact h.entries.format entry.id entry (h.entries.get?_of_mem hent)
  · intro ids hids
    change ids ∈ (if table.counted.size = 0 then none else some table.counted.keys) at hids
    split_ifs at hids with hemp
    · cases hids
    cases hids
    refine ⟨fun hnil => hemp ?_, ?_, table.counted.nodup, h.counted⟩
    · rw [← table.counted.length_keys, hnil]
      rfl
    · rw [table.counted.length_keys]
      exact h.countedSize

/-- **Retention keeps the format**, over every run of events. -/
theorem retainAgentSubagentLifecycle_format (h : ∀ lifecycle ∈ previous, LifecycleFormat lifecycle)
    (hmetrics : ∀ event ∈ events, SafeMetrics event) :
    ∀ lifecycle ∈ retainAgentSubagentLifecycle previous events, LifecycleFormat lifecycle := by
  intro lifecycle hlife
  unfold retainAgentSubagentLifecycle at hlife
  dsimp only at hlife
  split_ifs at hlife
  · exact h lifecycle hlife
  · cases hlife
    exact ((TableFormat.start h).foldl hmetrics).lifecycle

end CodevoEditor.AgentEvents
