/-
# The lifecycle as it is persisted

`parseAgentSubagentLifecycle`, the strict reader of a stored lifecycle, against
`AgentSubagentLifecycle.toValue`, the lifecycle as an untyped value.
-/

import CodevoEditor.AgentEvents.LifecycleRetention
import CodevoEditor.AgentEvents.Merge
import CodevoEditor.Js.Records

namespace CodevoEditor.AgentEvents

open Js List Option

/-- What the reader throws, whatever is wrong. -/
def invalidLifecycle : JsString := js "Invalid retained subagent lifecycle metadata."

def lifecycleObject : JsValue → Except JsString (List (JsString × JsValue))
  | .object fields => .ok fields
  | _ => .error invalidLifecycle

def lifecycleText (max : ℕ) : JsValue → Except JsString JsString
  | .string text => if max < utf8ByteLength text then .error invalidLifecycle else .ok text
  | _ => .error invalidLifecycle

def presentText (max : ℕ) (item : JsValue) : Except JsString JsString := do
  let value ← lifecycleText max item
  if value = [] then .error invalidLifecycle else .ok value

def AgentSubagentLifecycleState.text : AgentSubagentLifecycleState → JsString
  | .running => js "running"
  | .completed => js "completed"
  | .failed => js "failed"
  | .interrupted => js "interrupted"

def readState : JsValue → Except JsString AgentSubagentLifecycleState
  | .string text =>
      match [.running, .completed, .failed, .interrupted].find?
          fun state : AgentSubagentLifecycleState => state.text = text with
      | some state => .ok state
      | none => .error invalidLifecycle
  | _ => .error invalidLifecycle

def AgentSubagentResultState.text : AgentSubagentResultState → JsString
  | .completed => js "completed"
  | .failed => js "failed"

/-- A result is no state of a subagent that is still there. -/
def readResultState (item : JsValue) : Except JsString AgentSubagentResultState := do
  match ← readState item with
  | .completed => .ok .completed
  | .failed => .ok .failed
  | _ => .error invalidLifecycle

def readMetric : JsValue → Except JsString JsNumber
  | .number value => if value.safeAtLeast 0 then .ok value else .error invalidLifecycle
  | _ => .error invalidLifecycle

def readNestedCount : JsValue → Except JsString ℕ
  | .number (.int count) =>
      if (JsNumber.int count).safeAtLeast 1 ∧ count ≤ maxSubagentNestedCount then .ok count.toNat
      else .error invalidLifecycle
  | _ => .error invalidLifecycle

def agentSubagentSpawnEfforts : List AgentSubagentSpawnEffort :=
  [.none, .minimal, .low, .medium, .high, .xhigh]

def readEffort : JsValue → Except JsString AgentSubagentSpawnEffort
  | .string text =>
      match agentSubagentSpawnEfforts.find? fun effort => effort.text = text with
      | some effort => .ok effort
      | none => .error invalidLifecycle
  | _ => .error invalidLifecycle

def countedIds : JsValue → Except JsString (List JsString)
  | .array items => do
      if items.length = 0 ∨ maxSubagentCountedNestedIds < items.length then .error invalidLifecycle
      else
        let ids ← items.mapM (presentText 256)
        if ids.Nodup then .ok ids else .error invalidLifecycle
  | _ => .error invalidLifecycle

/-! ### Entries -/

def AliasKind.name : AliasKind → JsString
  | .toolId => js "toolId"
  | .taskId => js "taskId"
  | .agentThreadId => js "agentThreadId"

/-- What the reader remembers of an alias. -/
def aliasKey (kind : AliasKind) (id : JsString) : JsString := kind.name ++ js ":" ++ id

def readAlias (fields : List (JsString × JsValue)) (kind : AliasKind) (aliases : List JsString) :
    Except JsString (Option JsString × List JsString) := do
  if (fieldOf fields kind.name).isUndefined then .ok (none, aliases)
  else
    let value ← lifecycleText 256 (fieldOf fields kind.name)
    if value = [] ∨ aliasKey kind value ∈ aliases then .error invalidLifecycle
    else .ok (some value, aliasKey kind value :: aliases)

def readIdentity (fields : List (JsString × JsValue)) (aliases : List JsString) :
    Except JsString (SubagentEventIdentity × List JsString) := do
  let (toolId, aliases) ← readAlias fields .toolId aliases
  let (taskId, aliases) ← readAlias fields .taskId aliases
  let (agentThreadId, aliases) ← readAlias fields .agentThreadId aliases
  if toolId = none ∧ taskId = none ∧ agentThreadId = none then .error invalidLifecycle
  else .ok ({ toolId, taskId, agentThreadId }, aliases)

def entryFields : List JsString :=
  [js "id", js "toolId", js "taskId", js "agentThreadId", js "name", js "description", js "state",
    js "telemetryState", js "resultState", js "durationMs", js "totalTokens", js "steps",
    js "lastToolName", js "taskTitle", js "batchKey", js "nestedCount", js "parentToolId",
    js "model", js "effort"]

/-- One entry, and what has been seen with it. -/
def readEntry (raw : JsValue) (seen aliases : List JsString) :
    Except JsString (AgentSubagentLifecycleEntry × List JsString × List JsString) := do
  let entry ← lifecycleObject raw
  if ∃ key ∈ entry.map Prod.fst, key ∉ entryFields then .error invalidLifecycle
  else
    let id ← lifecycleText 272 (fieldOf entry (js "id"))
    if id = [] ∨ id ∈ seen then .error invalidLifecycle
    else
      let (identity, aliases) ← readIdentity entry aliases
      let durationMs ← readOptional readMetric (fieldOf entry (js "durationMs"))
      let totalTokens ← readOptional readMetric (fieldOf entry (js "totalTokens"))
      let steps ← readOptional readMetric (fieldOf entry (js "steps"))
      let nestedCount ← readOptional readNestedCount (fieldOf entry (js "nestedCount"))
      let telemetryState ← readOptional readState (fieldOf entry (js "telemetryState"))
      let resultState ← readOptional readResultState (fieldOf entry (js "resultState"))
      let state ← readState (fieldOf entry (js "state"))
      let name ← lifecycleText 128 (fieldOf entry (js "name"))
      let description ← lifecycleText 512 (fieldOf entry (js "description"))
      let lastToolName ← readOptional (lifecycleText 128) (fieldOf entry (js "lastToolName"))
      let taskTitle ← readOptional (presentText maxSubagentTaskTitleBytes) (fieldOf entry (js "taskTitle"))
      let batchKey ← readOptional (presentText maxSubagentBatchKeyBytes) (fieldOf entry (js "batchKey"))
      let parentToolId ← readOptional (presentText maxSubagentParentToolIdBytes) (fieldOf entry (js "parentToolId"))
      let model ← readOptional (presentText maxSubagentModelBytes) (fieldOf entry (js "model"))
      let effort ← readOptional readEffort (fieldOf entry (js "effort"))
      let parsed : AgentSubagentLifecycleEntry :=
        { id
          toolId := identity.toolId
          taskId := identity.taskId
          agentThreadId := identity.agentThreadId
          name, description, state, telemetryState, resultState, durationMs, totalTokens, steps,
          lastToolName, taskTitle, batchKey, nestedCount, parentToolId, model, effort }
      if state ≠ lifecycleState parsed then .error invalidLifecycle
      else .ok (parsed, id :: seen, aliases)

def readEntries : List JsValue → List JsString → List JsString →
    Except JsString (List AgentSubagentLifecycleEntry)
  | [], _, _ => .ok []
  | raw :: rest, seen, aliases => do
      let (entry, seen, aliases) ← readEntry raw seen aliases
      let entries ← readEntries rest seen aliases
      .ok (entry :: entries)

def rootFields : List JsString :=
  [js "entries", js "truncated", js "openBatchKey", js "countedNestedToolIds"]

/-- The strict reader; an absent lifecycle is none. -/
def parseAgentSubagentLifecycle (value : JsValue) :
    Except JsString (Option AgentSubagentLifecycle) := do
  if value.isUndefined then .ok none
  else
    let record ← lifecycleObject value
    match fieldOf record (js "truncated"), fieldOf record (js "entries") with
    | .bool truncated, .array items =>
        if (∃ key ∈ record.map Prod.fst, key ∉ rootFields) ∨ maxRetainedSubagents < items.length then
          .error invalidLifecycle
        else
          let entries ← readEntries items [] []
          let openBatchKey ← readOptional (presentText maxSubagentBatchKeyBytes) (fieldOf record (js "openBatchKey"))
          let countedNestedToolIds ← readOptional countedIds (fieldOf record (js "countedNestedToolIds"))
          .ok (some { entries, truncated, openBatchKey, countedNestedToolIds })
    | _, _ => .error invalidLifecycle

def AgentSubagentLifecycleEntry.fields (entry : AgentSubagentLifecycleEntry) : List (JsString × JsValue) :=
  [(js "id", .string entry.id),
    (js "toolId", writeOptional .string entry.toolId),
    (js "taskId", writeOptional .string entry.taskId),
    (js "agentThreadId", writeOptional .string entry.agentThreadId),
    (js "name", .string entry.name),
    (js "description", .string entry.description),
    (js "state", .string entry.state.text),
    (js "telemetryState", writeOptional (fun state => .string state.text) entry.telemetryState),
    (js "resultState", writeOptional (fun state => .string state.text) entry.resultState),
    (js "durationMs", writeOptional .number entry.durationMs),
    (js "totalTokens", writeOptional .number entry.totalTokens),
    (js "steps", writeOptional .number entry.steps),
    (js "lastToolName", writeOptional .string entry.lastToolName),
    (js "taskTitle", writeOptional .string entry.taskTitle),
    (js "batchKey", writeOptional .string entry.batchKey),
    (js "nestedCount", writeOptional (fun count : ℕ => .number (.int count)) entry.nestedCount),
    (js "parentToolId", writeOptional .string entry.parentToolId),
    (js "model", writeOptional .string entry.model),
    (js "effort", writeOptional (fun effort => .string effort.text) entry.effort)]

def AgentSubagentLifecycleEntry.toValue (entry : AgentSubagentLifecycleEntry) : JsValue :=
  record entry.fields

def AgentSubagentLifecycle.fields (lifecycle : AgentSubagentLifecycle) : List (JsString × JsValue) :=
  [(js "entries", .array (lifecycle.entries.map (·.toValue))),
    (js "truncated", .bool lifecycle.truncated),
    (js "openBatchKey", writeOptional .string lifecycle.openBatchKey),
    (js "countedNestedToolIds",
      writeOptional (fun ids => .array (ids.map .string)) lifecycle.countedNestedToolIds)]

def AgentSubagentLifecycle.toValue (lifecycle : AgentSubagentLifecycle) : JsValue :=
  record lifecycle.fields

variable (max : ℕ)

lemma lifecycleText_codec :
    Codec (lifecycleText max) .string fun text => utf8ByteLength text ≤ max where
  sound value text hread := by
    cases value <;> try cases hread
    unfold lifecycleText at hread
    dsimp only at hread
    split_ifs at hread with hlong
    cases hread
    exact Nat.not_lt.1 hlong
  roundTrip text hfmt := if_neg (Nat.not_lt.2 hfmt)

lemma presentText_codec : Codec (presentText max) .string (Present max) where
  sound value text hread := by
    obtain ⟨read, htext, hread⟩ := bind_eq_ok.1 hread
    split_ifs at hread with hemp
    cases hread
    exact ⟨hemp, (lifecycleText_codec max).sound value text htext⟩
  roundTrip text hfmt := by
    refine bind_eq_ok.2 ⟨text, (lifecycleText_codec max).roundTrip text hfmt.2, ?_⟩
    rw [if_neg hfmt.1]

lemma readState_codec :
    Codec readState (fun state => .string state.text) fun _ => True where
  sound _ _ _ := trivial
  roundTrip state _ := by cases state <;> rfl

lemma readResultState_codec :
    Codec readResultState (fun state => .string state.text) fun _ => True where
  sound _ _ _ := trivial
  roundTrip state _ := by cases state <;> rfl

lemma readEffort_codec : Codec readEffort (fun effort => .string effort.text) fun _ => True where
  sound _ _ _ := trivial
  roundTrip effort _ := by cases effort <;> rfl

lemma readMetric_codec : Codec readMetric .number fun value => value.safeAtLeast 0 where
  sound value metric hread := by
    cases value <;> try cases hread
    unfold readMetric at hread
    dsimp only at hread
    split_ifs at hread with hsafe
    cases hread
    exact hsafe
  roundTrip metric hfmt := if_pos hfmt

lemma readNestedCount_codec :
    Codec readNestedCount (fun count : ℕ => .number (.int count))
      fun count => 1 ≤ count ∧ count ≤ maxSubagentNestedCount where
  sound value count hread := by
    cases value with
    | number value =>
      cases value with
      | nonInteger tag => cases hread
      | int value =>
        unfold readNestedCount at hread
        dsimp only at hread
        split_ifs at hread with hrng
        cases hread
        unfold JsNumber.safeAtLeast at hrng
        simp only [Bool.and_eq_true, decide_eq_true_eq] at hrng
        omega
    | _ => cases hread
  roundTrip count hfmt := by
    have hmax : (maxSubagentNestedCount : ℤ) ≤ maxSafeInteger := by decide
    have hrng : (JsNumber.int count).safeAtLeast 1 ∧ (count : ℤ) ≤ maxSubagentNestedCount := by
      unfold JsNumber.safeAtLeast
      simp only [Bool.and_eq_true, decide_eq_true_eq]
      omega
    exact (if_pos hrng).trans (congrArg Except.ok (Int.toNat_natCast count))

lemma countedIds_codec : Codec countedIds (fun ids => .array (ids.map .string)) fun ids =>
    ids ≠ [] ∧ ids.length ≤ maxSubagentCountedNestedIds ∧ ids.Nodup ∧ ∀ id ∈ ids, Present 256 id where
  sound value ids hread := by
    cases value <;> try cases hread
    unfold countedIds at hread
    dsimp only at hread
    split_ifs at hread with hlen
    obtain ⟨read, hids, hread⟩ := bind_eq_ok.1 hread
    split_ifs at hread with hnd
    cases hread
    obtain ⟨hsame, hpres⟩ := (presentText_codec 256).mapM_sound hids
    rw [hsame] at hlen
    refine ⟨?_, by omega, hnd, hpres⟩
    rintro rfl
    exact hlen (.inl rfl)
  roundTrip ids hfmt := by
    obtain ⟨hne, hlen, hnd, hpres⟩ := hfmt
    have hpos := length_pos_of_ne_nil hne
    unfold countedIds
    dsimp only
    rw [length_map, if_neg (by omega)]
    refine bind_eq_ok.2 ⟨ids, (presentText_codec 256).mapM_roundTrip hpres, ?_⟩
    rw [if_pos hnd]

variable {kind : AliasKind}

lemma aliasKey_inj {kind'} {id id'} (h : aliasKey kind id = aliasKey kind' id') : kind = kind' ∧ id = id' := by
  have hname kind id :
      (aliasKey kind id).take 7 = (kind.name ++ js ":").take 7 := by cases kind <;> rfl
  have hkind : kind = kind' := by
    have hunits := congrArg (List.take 7) h
    rw [hname, hname] at hunits
    cases kind <;> cases kind' <;> first | rfl | exact absurd hunits (by decide)
  subst hkind
  exact ⟨rfl, append_cancel_left h⟩

/-- What the reader remembers of an identity, the last alias first. -/
def SubagentEventIdentity.aliasKeys (identity : SubagentEventIdentity) : List JsString :=
  (identity.agentThreadId.map (aliasKey .agentThreadId)).toList ++
    (identity.taskId.map (aliasKey .taskId)).toList ++
    (identity.toolId.map (aliasKey .toolId)).toList

lemma mem_aliasKeys {identity : SubagentEventIdentity} {key : JsString} :
    key ∈ identity.aliasKeys ↔ ∃ kind id, identity.alias kind = some id ∧ key = aliasKey kind id := by
  unfold SubagentEventIdentity.aliasKeys
  rw [mem_append, mem_append, mem_toList, mem_toList, mem_toList, map_eq_some_iff, map_eq_some_iff, map_eq_some_iff]
  constructor
  · rintro ((⟨id, hid, rfl⟩ | ⟨id, hid, rfl⟩) | ⟨id, hid, rfl⟩)
    · exact ⟨.agentThreadId, id, hid, rfl⟩
    · exact ⟨.taskId, id, hid, rfl⟩
    · exact ⟨.toolId, id, hid, rfl⟩
  · rintro ⟨_ | _ | _, id, hid, rfl⟩
    · exact .inr ⟨id, hid, rfl⟩
    · exact .inl (.inr ⟨id, hid, rfl⟩)
    · exact .inl (.inl ⟨id, hid, rfl⟩)

variable {aliases aliases' : List JsString}

lemma readAlias_eq_ok {fields} {own} :
    readAlias fields kind aliases = .ok (own, aliases') ↔
      fieldOf fields kind.name = writeOptional .string own ∧
        (∀ id ∈ own, Present 256 id ∧ aliasKey kind id ∉ aliases) ∧
        aliases' = (own.map (aliasKey kind)).toList ++ aliases := by
  unfold readAlias
  constructor
  · intro hread
    split_ifs at hread with habsent
    · cases hread
      refine ⟨?_, by rintro id ⟨⟩, rfl⟩
      cases hval : fieldOf fields kind.name <;> rw [hval] at habsent <;>
        first | rfl | cases habsent
    · obtain ⟨value, hval, hread⟩ := bind_eq_ok.1 hread
      split_ifs at hread with hseen
      cases hread
      rw [not_or] at hseen
      have hby := (lifecycleText_codec 256).sound _ _ hval
      refine ⟨?_, ?_, rfl⟩
      · cases hfield : fieldOf fields kind.name <;> rw [hfield] at hval <;> try cases hval
        unfold lifecycleText at hval
        dsimp only at hval
        split_ifs at hval
        cases hval
        rfl
      · rintro _ ⟨⟩
        exact ⟨⟨hseen.1, hby⟩, hseen.2⟩
  · rintro ⟨hfield, hown, rfl⟩
    rw [hfield]
    cases own with
    | none => rfl
    | some id =>
      obtain ⟨hpres, hnew⟩ := hown id rfl
      refine bind_eq_ok.2 ⟨id, (lifecycleText_codec 256).roundTrip id hpres.2, ?_⟩
      rw [if_neg (not_or.2 ⟨hpres.1, hnew⟩)]
      rfl

/-- **An identity is read** when its fields are there, within their limits, new
and not all absent. -/
theorem readIdentity_eq_ok {fields} {identity} :
    readIdentity fields aliases = .ok (identity, aliases') ↔
      (∀ kind, fieldOf fields (AliasKind.name kind) = writeOptional .string (identity.alias kind)) ∧
        (∀ kind id, identity.alias kind = some id → Present 256 id ∧ aliasKey kind id ∉ aliases) ∧
        (∃ kind id, identity.alias kind = some id) ∧
        aliases' = identity.aliasKeys ++ aliases := by
  have hoth {kind kind' : AliasKind} (hne : kind ≠ kind') {own : Option JsString} {id : JsString}
      {rest : List JsString} : aliasKey kind id ∉ (own.map (aliasKey kind')).toList ++ rest ↔
        aliasKey kind id ∉ rest := by
    rw [mem_append, mem_toList, map_eq_some_iff, not_or]
    exact and_iff_right fun ⟨_, _, hkey⟩ => hne (aliasKey_inj hkey).1.symm
  constructor
  · intro hread
    obtain ⟨⟨toolId, toolAliases⟩, htool, hread⟩ := bind_eq_ok.1 hread
    obtain ⟨⟨taskId, taskAliases⟩, htask, hread⟩ := bind_eq_ok.1 hread
    obtain ⟨⟨agentThreadId, threadAliases⟩, hthr, hread⟩ := bind_eq_ok.1 hread
    dsimp only at htask hthr hread
    split_ifs at hread with hnone
    cases hread
    obtain ⟨htoolField, htoolOwn, rfl⟩ := readAlias_eq_ok.1 htool
    obtain ⟨htaskField, htaskOwn, rfl⟩ := readAlias_eq_ok.1 htask
    obtain ⟨hthreadField, hthreadOwn, rfl⟩ := readAlias_eq_ok.1 hthr
    refine ⟨?_, ?_, ?_, ?_⟩
    · rintro (_ | _ | _)
      · exact htoolField
      · exact htaskField
      · exact hthreadField
    · rintro (_ | _ | _) id hid
      · exact htoolOwn id hid
      · exact ⟨(htaskOwn id hid).1, (hoth (by decide)).1 (htaskOwn id hid).2⟩
      · exact ⟨(hthreadOwn id hid).1, (hoth (by decide)).1 ((hoth (by decide)).1 (hthreadOwn id hid).2)⟩
    · by_contra hall
      refine hnone ⟨?_, ?_, ?_⟩
      · exact eq_none_iff_forall_ne_some.2 fun id hid => hall ⟨.toolId, id, hid⟩
      · exact eq_none_iff_forall_ne_some.2 fun id hid => hall ⟨.taskId, id, hid⟩
      · exact eq_none_iff_forall_ne_some.2 fun id hid => hall ⟨.agentThreadId, id, hid⟩
    · unfold SubagentEventIdentity.aliasKeys
      rw [append_assoc, append_assoc]
  · rintro ⟨hfield, hown, ⟨kind, id, hid⟩, rfl⟩
    refine bind_eq_ok.2 ⟨_, readAlias_eq_ok.2 ⟨hfield .toolId, hown .toolId, rfl⟩, ?_⟩
    refine bind_eq_ok.2 ⟨_, readAlias_eq_ok.2 ⟨hfield .taskId, fun id hid =>
      ⟨(hown .taskId id hid).1, (hoth (by decide)).2 (hown .taskId id hid).2⟩, rfl⟩, ?_⟩
    refine bind_eq_ok.2 ⟨_, readAlias_eq_ok.2 ⟨hfield .agentThreadId, fun id hid =>
      ⟨(hown .agentThreadId id hid).1,
        (hoth (by decide)).2 ((hoth (by decide)).2 (hown .agentThreadId id hid).2)⟩, rfl⟩, ?_⟩
    have hnone : ¬ (identity.toolId = none ∧ identity.taskId = none ∧ identity.agentThreadId = none) := by
      rintro ⟨htool, htask, hthr⟩
      rcases kind with _ | _ | _
      · cases htool.symm.trans hid
      · cases htask.symm.trans hid
      · cases hthr.symm.trans hid
    refine (if_neg hnone).trans ?_
    unfold SubagentEventIdentity.aliasKeys
    rw [append_assoc, append_assoc]
    rfl

/-- The identity under which an entry is known. -/
def AgentSubagentLifecycleEntry.identity (entry : AgentSubagentLifecycleEntry) :
    SubagentEventIdentity where
  toolId := entry.toolId
  taskId := entry.taskId
  agentThreadId := entry.agentThreadId

lemma identity_alias (entry : AgentSubagentLifecycleEntry) (kind : AliasKind) :
    entry.identity.alias kind = entry.alias kind := by cases kind <;> rfl

variable {seen : List JsString} {entry : AgentSubagentLifecycleEntry}

/-- **An entry that is read is in the format**, and new. -/
theorem readEntry_sound {raw} {seen'}
    (hread : readEntry raw seen aliases = .ok (entry, seen', aliases')) :
    EntryFormat entry ∧ entry.id ∉ seen ∧ seen' = entry.id :: seen ∧
      (∀ kind id, entry.alias kind = some id → aliasKey kind id ∉ aliases) ∧
      aliases' = entry.identity.aliasKeys ++ aliases := by
  obtain ⟨fields, -, hread⟩ := bind_eq_ok.1 hread
  split_ifs at hread with hkeys
  obtain ⟨id, hid, hread⟩ := bind_eq_ok.1 hread
  split_ifs at hread with hseen
  obtain ⟨⟨identity, identityAliases⟩, hident, hread⟩ := bind_eq_ok.1 hread
  obtain ⟨durationMs, hdurationMs, hread⟩ := bind_eq_ok.1 hread
  obtain ⟨totalTokens, htotalTokens, hread⟩ := bind_eq_ok.1 hread
  obtain ⟨steps, hsteps, hread⟩ := bind_eq_ok.1 hread
  obtain ⟨nestedCount, hnestedCount, hread⟩ := bind_eq_ok.1 hread
  obtain ⟨telemetryState, -, hread⟩ := bind_eq_ok.1 hread
  obtain ⟨resultState, -, hread⟩ := bind_eq_ok.1 hread
  obtain ⟨state, -, hread⟩ := bind_eq_ok.1 hread
  obtain ⟨name, hname, hread⟩ := bind_eq_ok.1 hread
  obtain ⟨description, hdesc, hread⟩ := bind_eq_ok.1 hread
  obtain ⟨lastToolName, hlastToolName, hread⟩ := bind_eq_ok.1 hread
  obtain ⟨taskTitle, htaskTitle, hread⟩ := bind_eq_ok.1 hread
  obtain ⟨batchKey, hbatchKey, hread⟩ := bind_eq_ok.1 hread
  obtain ⟨parentToolId, hparentToolId, hread⟩ := bind_eq_ok.1 hread
  obtain ⟨model, hmodel, hread⟩ := bind_eq_ok.1 hread
  obtain ⟨effort, -, hread⟩ := bind_eq_ok.1 hread
  dsimp only at hread
  split_ifs at hread with hstate
  cases hread
  rw [not_or] at hseen
  obtain ⟨-, hown, hkn, rfl⟩ := readIdentity_eq_ok.1 hident
  have hmetric := readMetric_codec.optional fun _ => rfl
  have hpres max := (presentText_codec max).optional fun _ => rfl
  refine ⟨⟨⟨?_, ?_, (lifecycleText_codec 128).sound _ _ hname,
    (lifecycleText_codec 512).sound _ _ hdesc, hmetric.sound _ _ hdurationMs,
    hmetric.sound _ _ htotalTokens, hmetric.sound _ _ hsteps,
    ((lifecycleText_codec 128).optional fun _ => rfl).sound _ _ hlastToolName,
    (hpres _).sound _ _ htaskTitle, (hpres _).sound _ _ hbatchKey,
    (readNestedCount_codec.optional fun _ => rfl).sound _ _ hnestedCount,
    (hpres _).sound _ _ hparentToolId, (hpres _).sound _ _ hmodel⟩, ?_, ?_⟩,
    hseen.2, rfl, ?_, rfl⟩
  · exact ⟨hseen.1, (lifecycleText_codec 272).sound _ _ hid⟩
  · rintro (_ | _ | _) id hal
    · exact (hown .toolId id hal).1
    · exact (hown .taskId id hal).1
    · exact (hown .agentThreadId id hal).1
  · obtain ⟨_ | _ | _, id, hal⟩ := hkn
    · exact ⟨.toolId, id, hal⟩
    · exact ⟨.taskId, id, hal⟩
    · exact ⟨.agentThreadId, id, hal⟩
  · by_contra hne
    exact hstate hne
  · rintro (_ | _ | _) id hal
    · exact (hown .toolId id hal).2
    · exact (hown .taskId id hal).2
    · exact (hown .agentThreadId id hal).2

lemma fields_nodup (entry : AgentSubagentLifecycleEntry) : (entry.fields.map Prod.fst).Nodup := by
  change entryFields.Nodup
  decide

/-- **An entry in the format is read back**, when its id and aliases are new. -/
theorem readEntry_toValue (h : EntryFormat entry) (hid : entry.id ∉ seen)
    (haliases : ∀ kind id, entry.alias kind = some id → aliasKey kind id ∉ aliases) :
    readEntry entry.toValue seen aliases = .ok (entry, entry.id :: seen, entry.identity.aliasKeys ++ aliases) := by
  have hfld := @AgentSubagentLifecycleEntry.fields.eq_1 entry
  have hread {α : Type} {read : JsValue → Except JsString α} {write : α → JsValue}
      {format : α → Prop} (hcodec : Codec read write format) {key : JsString} {result : α}
      (hmem : (key, write result) ∈ entry.fields) (hfmt : format result) :
      read (fieldOf (present entry.fields) key) = .ok result := by
    rw [fieldOf_present (fields_nodup entry) hmem]
    exact hcodec.roundTrip result hfmt
  have hmetric := readMetric_codec.optional fun _ => rfl
  have hpres (max : ℕ) := (presentText_codec max).optional fun _ => rfl
  refine bind_eq_ok.2 ⟨present entry.fields, rfl, ?_⟩
  rw [if_neg (fun ⟨key, hkey, hunknown⟩ => hunknown (keys_present_subset entry.fields key hkey))]
  refine bind_eq_ok.2 ⟨entry.id, hread (lifecycleText_codec 272) (by simp [hfld]) h.id.2, ?_⟩
  rw [if_neg (not_or.2 ⟨h.id.1, hid⟩)]
  refine bind_eq_ok.2 ⟨(entry.identity, entry.identity.aliasKeys ++ aliases),
    readIdentity_eq_ok.2 ⟨?_, ?_, ?_, rfl⟩, ?_⟩
  · rintro (_ | _ | _)
    all_goals
      refine fieldOf_present (fields_nodup entry) ?_
      simp [hfld, AliasKind.name, SubagentEventIdentity.alias, AgentSubagentLifecycleEntry.identity]
  · intro kind id hal
    exact ⟨h.aliases kind id hal, haliases kind id hal⟩
  · obtain ⟨kind, id, hal⟩ := h.known
    exact ⟨kind, id, (identity_alias entry kind).trans hal⟩
  refine bind_eq_ok.2 ⟨entry.durationMs, hread hmetric (by simp [hfld]) h.durationMs, ?_⟩
  refine bind_eq_ok.2 ⟨entry.totalTokens, hread hmetric (by simp [hfld]) h.totalTokens, ?_⟩
  refine bind_eq_ok.2 ⟨entry.steps, hread hmetric (by simp [hfld]) h.steps, ?_⟩
  refine bind_eq_ok.2 ⟨entry.nestedCount, hread (readNestedCount_codec.optional fun _ => rfl)
    (by simp [hfld]) h.nestedCount, ?_⟩
  refine bind_eq_ok.2 ⟨entry.telemetryState, hread (readState_codec.optional fun _ => rfl) (by simp [hfld])
    (fun _ _ => trivial), ?_⟩
  refine bind_eq_ok.2 ⟨entry.resultState, hread (readResultState_codec.optional fun _ => rfl)
    (by simp [hfld]) (fun _ _ => trivial), ?_⟩
  refine bind_eq_ok.2 ⟨entry.state, hread readState_codec (by simp [hfld]) trivial, ?_⟩
  refine bind_eq_ok.2 ⟨entry.name, hread (lifecycleText_codec 128) (by simp [hfld]) h.name, ?_⟩
  refine bind_eq_ok.2 ⟨entry.description, hread (lifecycleText_codec 512) (by simp [hfld]) h.description, ?_⟩
  refine bind_eq_ok.2 ⟨entry.lastToolName, hread ((lifecycleText_codec 128).optional fun _ => rfl)
    (by simp [hfld]) h.lastToolName, ?_⟩
  refine bind_eq_ok.2 ⟨entry.taskTitle, hread (hpres _) (by simp [hfld]) h.taskTitle, ?_⟩
  refine bind_eq_ok.2 ⟨entry.batchKey, hread (hpres _) (by simp [hfld]) h.batchKey, ?_⟩
  refine bind_eq_ok.2 ⟨entry.parentToolId, hread (hpres _) (by simp [hfld]) h.parentToolId, ?_⟩
  refine bind_eq_ok.2 ⟨entry.model, hread (hpres _) (by simp [hfld]) h.model, ?_⟩
  refine bind_eq_ok.2 ⟨entry.effort, hread (readEffort_codec.optional fun _ => rfl) (by simp [hfld]) (fun _ _
    => trivial), ?_⟩
  exact if_neg (not_not.2 h.state)

variable {entries : List AgentSubagentLifecycleEntry}

lemma readEntries_sound {items : List JsValue}
    (hread : readEntries items seen aliases = .ok entries) :
    entries.length = items.length ∧ (entries.map (·.id)).Nodup ∧
      (∀ entry ∈ entries, EntryFormat entry ∧ entry.id ∉ seen ∧
        ∀ kind id, entry.alias kind = some id → aliasKey kind id ∉ aliases) ∧
      entries.Pairwise fun entry entry' =>
        ∀ kind id, entry.alias kind = some id → entry'.alias kind ≠ some id := by
  induction items generalizing seen aliases entries with
  | nil =>
    cases hread
    exact ⟨rfl, nodup_nil, by rintro entry ⟨⟩, .nil⟩
  | cons raw rest ih =>
    obtain ⟨⟨entry, seen', aliases'⟩, hent, hread⟩ := bind_eq_ok.1 hread
    obtain ⟨later, hrest, hread⟩ := bind_eq_ok.1 hread
    cases hread
    obtain ⟨hfmt, hid, rfl, haliases, rfl⟩ := readEntry_sound hent
    obtain ⟨hlen, hnd, hlat, hapart⟩ := ih hrest
    refine ⟨congrArg (· + 1) hlen, ?_, ?_, List.Pairwise.cons ?_ hapart⟩
    · rw [map_cons, nodup_cons]
      refine ⟨fun hmem => ?_, hnd⟩
      obtain ⟨other, hoth, hsame⟩ := mem_map.1 hmem
      exact (hlat other hoth).2.1 (hsame ▸ mem_cons_self)
    · intro other hoth
      rcases mem_cons.1 hoth with rfl | hoth
      · exact ⟨hfmt, hid, haliases⟩
      · obtain ⟨hoth, hseen, hown⟩ := hlat other hoth
        exact ⟨hoth, fun hmem => hseen (mem_cons_of_mem _ hmem), fun kind id hal hmem =>
          hown kind id hal (mem_append_right _ hmem)⟩
    · intro other hoth kind id hal halias'
      refine (hlat other hoth).2.2 kind id halias' (mem_append_left _ ?_)
      exact mem_aliasKeys.2 ⟨kind, id, (identity_alias entry kind).trans hal, rfl⟩

lemma readEntries_toValue (hnd : (entries.map (·.id)).Nodup)
    (hents : ∀ entry ∈ entries, EntryFormat entry ∧ entry.id ∉ seen ∧ ∀ kind id, entry.alias kind = some id →
      aliasKey kind id ∉ aliases)
    (hapart : entries.Pairwise fun entry entry' => ∀ kind id, entry.alias kind = some id →
      entry'.alias kind ≠ some id) :
    readEntries (entries.map (·.toValue)) seen aliases = .ok entries := by
  induction entries generalizing seen aliases with
  | nil => rfl
  | cons entry later ih =>
    rw [map_cons, nodup_cons] at hnd
    rw [pairwise_cons] at hapart
    obtain ⟨hfmt, hid, haliases⟩ := hents entry mem_cons_self
    refine bind_eq_ok.2 ⟨_, readEntry_toValue hfmt hid haliases, ?_⟩
    refine bind_eq_ok.2 ⟨later, ih hnd.2 (fun other hoth => ?_) hapart.2, rfl⟩
    obtain ⟨hother', hseen, hown⟩ := hents other (mem_cons_of_mem entry hoth)
    refine ⟨hother', ?_, fun kind id hal hmem => ?_⟩
    · rw [mem_cons, not_or]
      exact ⟨fun hsame => hnd.1 (mem_map.2 ⟨other, hoth, hsame⟩), hseen⟩
    · rcases mem_append.1 hmem with hmem | hmem
      · obtain ⟨kind', id', halias', hkey⟩ := mem_aliasKeys.1 hmem
        obtain ⟨rfl, rfl⟩ := aliasKey_inj hkey
        exact hapart.1 other hoth kind id halias' hal
      · exact hown kind id hal hmem

variable {lifecycle : AgentSubagentLifecycle}

theorem parseAgentSubagentLifecycle_sound {value}
    (hread : parseAgentSubagentLifecycle value = .ok (some lifecycle)) :
    LifecycleFormat lifecycle := by
  unfold parseAgentSubagentLifecycle at hread
  split_ifs at hread
  · cases hread
  obtain ⟨fields, -, hread⟩ := bind_eq_ok.1 hread
  cases htr : fieldOf fields (js "truncated") with
  | bool truncated =>
    cases hitems : fieldOf fields (js "entries") with
    | array items =>
      rw [htr, hitems] at hread
      dsimp only at hread
      split_ifs at hread with hunknown
      obtain ⟨entries, hents, hread⟩ := bind_eq_ok.1 hread
      obtain ⟨openBatchKey, hopen, hread⟩ := bind_eq_ok.1 hread
      obtain ⟨counted, hcnt, hread⟩ := bind_eq_ok.1 hread
      cases hread
      rw [not_or, Nat.not_lt] at hunknown
      obtain ⟨hlen, hnd, hfmt, hapart⟩ := readEntries_sound hents
      exact ⟨hlen.trans_le hunknown.2, hnd, hapart, fun entry hent => (hfmt entry hent).1,
        ((presentText_codec _).optional fun _ => rfl).sound _ _ hopen,
        (countedIds_codec.optional fun _ => rfl).sound _ _ hcnt⟩
    | _ =>
      rw [htr, hitems] at hread
      cases hread
  | _ =>
    rw [htr] at hread
    cases hread

theorem parseAgentSubagentLifecycle_toValue (h : LifecycleFormat lifecycle) :
    parseAgentSubagentLifecycle lifecycle.toValue = .ok (some lifecycle) := by
  have hfld := @AgentSubagentLifecycle.fields.eq_1 lifecycle
  have hfield key value (hmem : (key, value) ∈ lifecycle.fields) :
      fieldOf (present lifecycle.fields) key = value := by
    have hnd : (lifecycle.fields.map Prod.fst).Nodup := by
      change rootFields.Nodup
      decide
    exact fieldOf_present hnd hmem
  have hunknown : ¬ ((∃ key ∈ (present lifecycle.fields).map Prod.fst, key ∉ rootFields) ∨
      maxRetainedSubagents < (lifecycle.entries.map (·.toValue)).length) := by
    rintro (⟨key, hkey, hunknown⟩ | hlong)
    · exact hunknown (keys_present_subset lifecycle.fields key hkey)
    · rw [length_map] at hlong
      exact absurd h.length (Nat.not_le.2 hlong)
  unfold parseAgentSubagentLifecycle
  refine bind_eq_ok.2 ⟨present lifecycle.fields, rfl, ?_⟩
  rw [hfield (js "truncated") (.bool lifecycle.truncated) (by simp [hfld]),
    hfield (js "entries") (.array (lifecycle.entries.map (·.toValue))) (by simp [hfld]),
    hfield (js "openBatchKey") (writeOptional .string lifecycle.openBatchKey) (by simp [hfld]),
    hfield (js "countedNestedToolIds") (writeOptional (fun ids => .array (ids.map .string))
      lifecycle.countedNestedToolIds) (by simp [hfld])]
  dsimp only
  rw [if_neg hunknown]
  refine bind_eq_ok.2 ⟨lifecycle.entries, readEntries_toValue h.ids
    (fun entry hent => ⟨h.format entry hent, by simp, by simp⟩) h.apart, ?_⟩
  refine bind_eq_ok.2 ⟨lifecycle.openBatchKey,
    ((presentText_codec _).optional fun _ => rfl).roundTrip _ h.openBatchKey, ?_⟩
  exact bind_eq_ok.2 ⟨lifecycle.countedNestedToolIds,
    (countedIds_codec.optional fun _ => rfl).roundTrip _ h.counted, rfl⟩

/-- What retention gives, as the reader receives it. -/
def lifecycleValue : Option AgentSubagentLifecycle → JsValue := writeOptional (·.toValue)

/-- **Retention stays inside the strict persistence format**: the reader accepts what is retained
and returns it as it is. -/
theorem parseAgentSubagentLifecycle_retain {previous : Option AgentSubagentLifecycle}
    {stored : JsValue} (hstore : parseAgentSubagentLifecycle stored = .ok previous)
    {events : List AgentTurnEvent} (hmetrics : ∀ event ∈ events, SafeMetrics event) :
    parseAgentSubagentLifecycle (lifecycleValue (retainAgentSubagentLifecycle previous events)) =
        .ok (retainAgentSubagentLifecycle previous events) ∧
      ∀ lifecycle ∈ retainAgentSubagentLifecycle previous events, LifecycleFormat lifecycle := by
  have hprev : ∀ lifecycle ∈ previous, LifecycleFormat lifecycle := fun lifecycle hlife =>
    parseAgentSubagentLifecycle_sound (hstore.trans (congrArg Except.ok hlife))
  have hfmt := retainAgentSubagentLifecycle_format hprev hmetrics
  refine ⟨?_, hfmt⟩
  cases hretained : retainAgentSubagentLifecycle previous events with
  | none => rfl
  | some lifecycle => exact parseAgentSubagentLifecycle_toValue (hfmt lifecycle hretained)

/-- A lifecycle of one subagent, stored, and a turn that ends it and spawns another. -/
theorem parseAgentSubagentLifecycle_retain_of_spawn :
    let previous : AgentSubagentLifecycle :=
      { entries := [{ id := js "tool:t1"
                      toolId := some (js "t1")
                      name := js "Task"
                      description := js "look around"
                      state := .running
                      telemetryState := some .running }]
        truncated := false }
    let retained := retainAgentSubagentLifecycle (some previous)
      [.subagent { status := .completed, toolId := some (js "t1"), durationMs := some (.int 5) },
        .subagentSpawn { callId := js "c1", status := .inProgress, taskTitle := none, model := none
                         reasoningEffort := some .low, agentThreadIds := [js "a", js "b"] }]
    parseAgentSubagentLifecycle (lifecycleValue retained) = .ok retained ∧
      ∀ lifecycle ∈ retained, LifecycleFormat lifecycle := by
  intro previous retained
  refine parseAgentSubagentLifecycle_retain (show parseAgentSubagentLifecycle previous.toValue = _ from rfl) ?_
  simp [SafeMetrics, JsNumber.safeAtLeast, maxSafeInteger]

end CodevoEditor.AgentEvents
