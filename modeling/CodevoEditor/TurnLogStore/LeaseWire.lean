/-
# Reading what was sent

What a reader accepts of a value that was written, it reads as what was written, under every path
(`ReadsBack`).
-/

import CodevoEditor.TurnLogStore.ClientWire

namespace CodevoEditor.TurnLogStore

open Js AgentEvents Domain

variable {ε μ α β : Type}

/-- **What is accepted of a value is what was written.** -/
def ReadsBack (read : JsValue → JsString → Except ClientError β) (value : JsValue) (item : β) : Prop :=
  ∀ path result, read value path = .ok result → result = item ∧ ∀ other, read value other = .ok item

lemma exactKeys_path {fields} {keys} {path}
    (h : exactKeys fields keys path = .ok ()) (other : JsString) : exactKeys fields keys other = .ok () := by
  unfold exactKeys at h ⊢
  cases hextra : (fields.map Prod.fst).find? fun key => key ∉ keys with
  | some key =>
    rw [hextra] at h
    cases h
  | none =>
    rw [hextra] at h
    cases hmiss : keys.find? fun key => key ∉ fields.map Prod.fst with
    | some key =>
      rw [hmiss] at h
      cases h
    | none => rfl

lemma integer_eq_ok {value} {path} {minimum maximum result}
    (h : integer (.number value) path minimum maximum = .ok result) :
    value = .int result ∧ minimum ≤ result ∧ result ≤ maximum ∧
      ∀ other, integer (.number value) other minimum maximum = .ok result := by
  cases value with
  | nonInteger tag => cases h
  | int value =>
    unfold integer at h
    dsimp only at h
    split_ifs at h with hsafe hbounds
    · cases h
    · cases h
    · cases h
      refine ⟨rfl, by omega, by omega, fun other => ?_⟩
      unfold integer
      dsimp only
      rw [if_neg hsafe, if_neg hbounds]

lemma integer_of_bounds {value minimum} (hminimum : 0 ≤ minimum) (h : minimum ≤ value)
    (hmaximum : value ≤ Js.maxSafeInteger) (path : JsString) :
    integer (.number (.int value)) path minimum Js.maxSafeInteger = .ok value := by
  unfold integer Js.maxSafeInteger at *
  dsimp only
  rw [if_neg (by omega), if_neg (by omega)]

lemma readsBack_model (model : JsString) : ReadsBack modelName (.string model) model := by
  intro path result h
  unfold modelName at h ⊢
  dsimp only at h ⊢
  split_ifs at h with hemp hlong
  · cases h
  · cases h
  · cases h
    refine ⟨rfl, fun other => ?_⟩
    rw [if_neg hemp, if_neg hlong]

lemma readsBack_provider (provider) : ReadsBack providerChoice (.string (providerText provider)) provider := by
  have hread : ∀ path, providerChoice (.string (providerText provider)) path = .ok provider := by
    intro path
    cases provider with
    | claudeCode => rfl
    | codex => rfl
  intro path result h
  rw [hread path] at h
  exact ⟨(Except.ok.inj h).symm, hread⟩

section Timed

variable {time : Option JsNumber} {fields : List (JsString × JsValue)}

lemma timed_fields (time) {fields}
    (h : ∀ field ∈ fields, field.2.isUndefined = false) :
    present ((js "observedAtEpochMs", writeOptional .number time) :: fields) =
      (time.map fun time => (js "observedAtEpochMs", JsValue.number time)).toList ++ fields := by
  have hfld : present fields = fields := by
    refine List.filter_eq_self.2 fun field hfield => ?_
    rw [h field hfield]
    rfl
  unfold present at hfld ⊢
  cases time with
  | none =>
    rw [List.filter_cons_of_neg (by decide), hfld]
    rfl
  | some time =>
    rw [List.filter_cons_of_pos rfl, hfld]
    rfl

lemma timestamp_timed (hkeys : js "observedAtEpochMs" ∉ fields.map Prod.fst)
    (h : ∀ field ∈ fields, field.2.isUndefined = false) {path} {result}
    (hread : timestamp (present ((js "observedAtEpochMs", writeOptional .number time) :: fields)) path =
      .ok result) :
    result = time ∧ ∀ other, timestamp
      (present ((js "observedAtEpochMs", writeOptional .number time) :: fields)) other = .ok time := by
  rw [timed_fields time h] at hread ⊢
  unfold timestamp hasTimestamp at hread ⊢
  cases time with
  | none =>
    rw [if_neg (by rw [decide_eq_true_eq]; exact hkeys)] at hread
    refine ⟨(Except.ok.inj hread).symm, fun other => ?_⟩
    rw [if_neg (by rw [decide_eq_true_eq]; exact hkeys)]
  | some time =>
    have hthere : decide (js "observedAtEpochMs" ∈
        (((some time).map fun time => (js "observedAtEpochMs", JsValue.number time)).toList ++
          fields).map Prod.fst) := decide_eq_true List.mem_cons_self
    have hfield : fieldOf (((some time).map fun time =>
        (js "observedAtEpochMs", JsValue.number time)).toList ++ fields) (js "observedAtEpochMs") =
          .number time := rfl
    rw [if_pos hthere, hfield] at hread
    cases hint : integer (.number time) (path ++ js ".observedAtEpochMs") 0 Js.maxSafeInteger with
    | error error =>
      rw [hint] at hread
      cases hread
    | ok value =>
      rw [hint] at hread
      obtain ⟨rfl, -, -, hpath⟩ := integer_eq_ok hint
      refine ⟨(Except.ok.inj hread).symm, fun other => ?_⟩
      rw [if_pos hthere, hfield, hpath]
      rfl

lemma fieldOf_timed (h : ∀ field ∈ fields, field.2.isUndefined = false) {key}
    (hkey : key ≠ js "observedAtEpochMs") :
    fieldOf (present ((js "observedAtEpochMs", writeOptional .number time) :: fields)) key =
      fieldOf fields key := by
  rw [timed_fields time h]
  cases time with
  | none => rfl
  | some time =>
    unfold fieldOf
    change (Option.map Prod.snd (List.find? _ ((js "observedAtEpochMs", JsValue.number time) :: fields))).getD
      _ = _
    rw [List.find?_cons_of_neg]
    rw [decide_eq_true_eq]
    exact Ne.symm hkey

lemma observedAtEpochMs_notMem {first second : JsString} {value value' : JsValue}
    (hfst : js "observedAtEpochMs" ≠ first) (hsnd : js "observedAtEpochMs" ≠ second) :
    js "observedAtEpochMs" ∉ [(first, value), (second, value')].map Prod.fst := by
  simp [hfst, hsnd]

end Timed

lemma readsBack_primary (primary) : ReadsBack digestPrimary (nullable primaryValue primary) primary := by
  cases primary with
  | none =>
    intro path result h
    cases h
    exact ⟨rfl, fun _ => rfl⟩
  | some primary =>
    have hfld : ∀ field ∈ [(js "model", JsValue.string primary.model),
        (js "inputTokens", JsValue.number primary.inputTokens)], field.2.isUndefined = false := by
      simp [JsValue.isUndefined]
    intro path result h
    obtain ⟨fields, hfields', h⟩ := bind_eq_ok.1 h
    cases hfields'
    obtain ⟨⟨⟩, hkeys, h⟩ := bind_eq_ok.1 h
    obtain ⟨model, hmodel, h⟩ := bind_eq_ok.1 h
    obtain ⟨inputTokens, hinputTokens, h⟩ := bind_eq_ok.1 h
    obtain ⟨time, htime, h⟩ := bind_eq_ok.1 h
    cases h
    rw [fieldOf_timed hfld (by decide)] at hmodel hinputTokens
    obtain ⟨rfl, hmodel'⟩ := readsBack_model primary.model _ _ hmodel
    obtain ⟨hval, -, -, hinputTokens'⟩ := integer_eq_ok hinputTokens
    obtain ⟨rfl, htime'⟩ := timestamp_timed (observedAtEpochMs_notMem (by decide) (by decide)) hfld htime
    rw [← hval]
    refine ⟨rfl, fun other => ?_⟩
    refine bind_eq_ok.2 ⟨_, rfl, bind_eq_ok.2 ⟨_, exactKeys_path hkeys other, ?_⟩⟩
    refine bind_eq_ok.2 ⟨primary.model, ?_, bind_eq_ok.2 ⟨inputTokens, ?_, ?_⟩⟩
    · rw [fieldOf_timed hfld (by decide)]
      exact hmodel' _
    · rw [fieldOf_timed hfld (by decide)]
      exact hinputTokens' _
    · refine bind_eq_ok.2 ⟨_, htime' other, ?_⟩
      rw [← hval]

lemma readsBack_window (window) : ReadsBack digestWindow (nullable windowValue window) window := by
  cases window with
  | none =>
    intro path result h
    cases h
    exact ⟨rfl, fun _ => rfl⟩
  | some window =>
    have hfld : ∀ field ∈ [(js "usedTokens", JsValue.number window.usedTokens),
        (js "contextWindow", JsValue.number window.contextWindow)], field.2.isUndefined = false := by
      simp [JsValue.isUndefined]
    intro path result h
    obtain ⟨fields, hfields', h⟩ := bind_eq_ok.1 h
    cases hfields'
    obtain ⟨⟨⟩, hkeys, h⟩ := bind_eq_ok.1 h
    obtain ⟨usedTokens, husedTokens, h⟩ := bind_eq_ok.1 h
    obtain ⟨contextWindow, hcontextWindow, h⟩ := bind_eq_ok.1 h
    obtain ⟨time, htime, h⟩ := bind_eq_ok.1 h
    cases h
    rw [fieldOf_timed hfld (by decide)] at husedTokens hcontextWindow
    obtain ⟨hused, -, -, husedTokens'⟩ := integer_eq_ok husedTokens
    obtain ⟨hcap, -, -, hcontextWindow'⟩ := integer_eq_ok hcontextWindow
    obtain ⟨rfl, htime'⟩ := timestamp_timed (observedAtEpochMs_notMem (by decide) (by decide)) hfld htime
    rw [← hused, ← hcap]
    refine ⟨rfl, fun other => ?_⟩
    refine bind_eq_ok.2 ⟨_, rfl, bind_eq_ok.2 ⟨_, exactKeys_path hkeys other, ?_⟩⟩
    refine bind_eq_ok.2 ⟨usedTokens, ?_, bind_eq_ok.2 ⟨contextWindow, ?_, ?_⟩⟩
    · rw [fieldOf_timed hfld (by decide)]
      exact husedTokens' _
    · rw [fieldOf_timed hfld (by decide)]
      exact hcontextWindow' _
    · refine bind_eq_ok.2 ⟨_, htime' other, ?_⟩
      rw [← hused, ← hcap]

lemma digestCapacitiesFrom_map {capacities} {path}
    {index} {seen} {result}
    (h : digestCapacitiesFrom path (capacities.map capacityValue) index seen = .ok result) :
    result = capacities ∧
      ∀ other, digestCapacitiesFrom other (capacities.map capacityValue) index seen = .ok capacities := by
  induction capacities generalizing index seen result with
  | nil =>
    cases h
    exact ⟨rfl, fun _ => rfl⟩
  | cons capacity capacities ih =>
    obtain ⟨fields, hfld, h⟩ := bind_eq_ok.1 h
    cases hfld
    obtain ⟨⟨⟩, hkeys, h⟩ := bind_eq_ok.1 h
    obtain ⟨model, hmodel, h⟩ := bind_eq_ok.1 h
    obtain ⟨rfl, hmodel'⟩ := readsBack_model capacity.model _ _ hmodel
    split_ifs at h with hseen
    · cases h
    obtain ⟨contextWindow, hcontextWindow, h⟩ := bind_eq_ok.1 h
    obtain ⟨hval, -, -, hcontextWindow'⟩ := integer_eq_ok hcontextWindow
    obtain ⟨rest, hrest, h⟩ := bind_eq_ok.1 h
    cases h
    obtain ⟨rfl, hrest'⟩ := ih hrest
    rw [← hval]
    refine ⟨rfl, fun other => ?_⟩
    refine bind_eq_ok.2 ⟨_, rfl, bind_eq_ok.2 ⟨_, exactKeys_path hkeys _, ?_⟩⟩
    refine bind_eq_ok.2 ⟨capacity.model, hmodel' _, ?_⟩
    rw [if_neg hseen]
    refine bind_eq_ok.2 ⟨contextWindow, hcontextWindow' _, bind_eq_ok.2 ⟨rest, hrest' other, ?_⟩⟩
    rw [← hval]

lemma readsBack_capacities (capacities) :
    ReadsBack digestCapacities (.array (capacities.map capacityValue)) capacities := by
  intro path result h
  unfold digestCapacities at h ⊢
  dsimp only at h ⊢
  split_ifs at h with hlong
  · cases h
  obtain ⟨rfl, hread⟩ := digestCapacitiesFrom_map h
  refine ⟨rfl, fun other => ?_⟩
  rw [if_neg hlong]
  exact hread other

lemma readsBack_context (context) : ReadsBack digestContext (contextValue context) context := by
  intro path result h
  obtain ⟨fields, hfld, h⟩ := bind_eq_ok.1 h
  cases hfld
  obtain ⟨⟨⟩, hkeys, h⟩ := bind_eq_ok.1 h
  obtain ⟨provider, hprov, h⟩ := bind_eq_ok.1 h
  obtain ⟨capacities, hcapacities, h⟩ := bind_eq_ok.1 h
  obtain ⟨primary, hprim, h⟩ := bind_eq_ok.1 h
  obtain ⟨current, hcur, h⟩ := bind_eq_ok.1 h
  obtain ⟨bounded, hbd, h⟩ := bind_eq_ok.1 h
  cases h
  obtain ⟨rfl, hprov'⟩ := readsBack_provider context.provider _ _ hprov
  obtain ⟨rfl, hcapacities'⟩ := readsBack_capacities context.capacities _ _ hcapacities
  obtain ⟨rfl, hprim'⟩ := readsBack_primary context.primary _ _ hprim
  obtain ⟨rfl, hcur'⟩ := readsBack_window context.current _ _ hcur
  obtain rfl : context.bounded = bounded := Except.ok.inj hbd
  refine ⟨rfl, fun other => ?_⟩
  refine bind_eq_ok.2 ⟨_, rfl, bind_eq_ok.2 ⟨_, exactKeys_path hkeys other, ?_⟩⟩
  refine bind_eq_ok.2 ⟨_, hprov' _, bind_eq_ok.2 ⟨_, hcapacities' _, ?_⟩⟩
  exact bind_eq_ok.2 ⟨_, hprim' _, bind_eq_ok.2 ⟨_, hcur' _, bind_eq_ok.2 ⟨_, rfl, rfl⟩⟩⟩

variable (client : ClientCodec ε μ)

theorem readsBack_digest (digest) : ReadsBack (parseAgentTurnDigest client) (digestValue digest) digest := by
  intro path result h
  obtain ⟨fields, hfld, h⟩ := bind_eq_ok.1 h
  cases hfld
  obtain ⟨⟨⟩, hkeys, h⟩ := bind_eq_ok.1 h
  obtain ⟨version, hver, h⟩ := bind_eq_ok.1 h
  obtain ⟨context, hctx, h⟩ := bind_eq_ok.1 h
  obtain ⟨rfl, hctx'⟩ := readsBack_context digest.context _ _ hctx
  have hversions : version = digest.version ∧
      ∀ other, digestVersion (.number (.int digest.version)) other = .ok digest.version := by
    unfold digestVersion
    change (if (digest.version : ℤ) = agentTurnDigestVersion then _ else _) = _ at hver
    dsimp only
    split_ifs at hver with heq
    · cases hver
      have heq' : digest.version = agentTurnDigestVersion := by exact_mod_cast heq
      refine ⟨heq'.symm, fun other => ?_⟩
      rw [if_pos heq, heq']
    · cases hver
  obtain ⟨rfl, hver'⟩ := hversions
  split_ifs at h with hlong
  · cases h
  cases h
  refine ⟨rfl, fun other => ?_⟩
  refine bind_eq_ok.2 ⟨_, rfl, bind_eq_ok.2 ⟨_, exactKeys_path hkeys other, ?_⟩⟩
  refine bind_eq_ok.2 ⟨_, hver' _, bind_eq_ok.2 ⟨_, hctx' _, ?_⟩⟩
  rw [if_neg hlong]

lemma readsBack_optionalDigest (digest) : ReadsBack (optionalDigest client) (nullable digestValue digest) digest := by
  cases digest with
  | none =>
    intro path result h
    cases h
    exact ⟨rfl, fun _ => rfl⟩
  | some digest =>
    intro path result h
    change (parseAgentTurnDigest client (digestValue digest) path).map some = _ at h
    cases hparse : parseAgentTurnDigest client (digestValue digest) path with
    | error error =>
      rw [hparse] at h
      cases h
    | ok parsed =>
      rw [hparse] at h
      cases h
      obtain ⟨rfl, hread⟩ := readsBack_digest client digest _ _ hparse
      refine ⟨rfl, fun other => ?_⟩
      change (parseAgentTurnDigest client (digestValue parsed) other).map some = _
      rw [hread]
      rfl

theorem parseAgentTurnLogLease_leaseValue {lease}
    (hepoch : 1 ≤ lease.writerEpoch ∧ lease.writerEpoch ≤ Js.maxSafeInteger)
    (hseq : 1 ≤ lease.nextSeq ∧ lease.nextSeq ≤ Js.maxSafeInteger)
    (hdigest : ∀ path, optionalDigest client (nullable digestValue lease.digest) path = .ok lease.digest)
    (hthrough : lease.digestThroughSeq ≤ lease.nextSeq - 1)
    (hcover : if lease.digest = none then lease.digestThroughSeq = 0 else 1 ≤ lease.digestThroughSeq) :
    parseAgentTurnLogLease client (leaseValue lease) = .ok lease := by
  have hpos : 0 ≤ lease.digestThroughSeq := by
    split_ifs at hcover
    · omega
    · omega
  refine bind_eq_ok.2 ⟨_, rfl, bind_eq_ok.2 ⟨(), rfl, ?_⟩⟩
  refine bind_eq_ok.2 ⟨lease.nextSeq, integer_of_bounds (by decide) hseq.1 hseq.2 _, ?_⟩
  refine bind_eq_ok.2 ⟨lease.digest, hdigest _, ?_⟩
  refine bind_eq_ok.2 ⟨lease.digestThroughSeq, integer_of_bounds le_rfl hpos (by omega) _, ?_⟩
  split_ifs at hcover with hnone
  · rw [if_neg (fun h => h.2 hcover), if_neg (fun h => h.1 hnone), if_neg (by omega)]
    exact bind_eq_ok.2 ⟨lease.writerEpoch, integer_of_bounds (by decide) hepoch.1 hepoch.2 _, rfl⟩
  · rw [if_neg (fun h => hnone h.1), if_neg (fun h => by omega), if_neg (by omega)]
    exact bind_eq_ok.2 ⟨lease.writerEpoch, integer_of_bounds (by decide) hepoch.1 hepoch.2 _, rfl⟩

end CodevoEditor.TurnLogStore
