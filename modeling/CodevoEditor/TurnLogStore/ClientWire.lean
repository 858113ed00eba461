/-
# The client's side of the wire

`src/domain/agentTurnLogWire.ts`: what the client checks before it sends a request, and how it
reads what comes back.

What accepts a scope, an event or a lifecycle, and the bytes of what `JSON.stringify` writes,
are parameters (`ClientCodec`).
-/

import CodevoEditor.TurnLogStore.Model
import CodevoEditor.Domain.TurnDigest

namespace CodevoEditor.TurnLogStore

open Js AgentEvents Domain

inductive ClientError
  | invalid (path expectation : JsString)
  | batchTooLarge (path : JsString) (bytes maxBytes : ℕ)
  deriving DecidableEq

variable {ε μ α : Type}

def invalid (path : JsString) (expectation : String) : Except ClientError α :=
  .error (.invalid (path.take 160) ((js expectation).take 160))

/-- What the client takes from elsewhere. -/
structure ClientCodec (ε μ : Type) where
  acceptsScope : AgentTurnLogScope → Bool
  acceptsEvent : ε → Bool
  acceptsLifecycle : μ → Bool
  opsBytes : List (AgentTurnLogEntry ε) → ℕ
  digestBytes : AgentTurnDigestWire → ℕ

def recordOf (value : JsValue) (path : JsString) : Except ClientError (List (JsString × JsValue)) :=
  match value with
  | .object fields => .ok fields
  | _ => invalid path "an object"

variable (fields : List (JsString × JsValue))

def exactKeys (keys : List JsString) (path : JsString) : Except ClientError Unit :=
  match (fields.map Prod.fst).find? fun key => key ∉ keys with
  | some key => invalid (path ++ js "." ++ key) "not present"
  | none => match keys.find? fun key => key ∉ fields.map Prod.fst with
    | some key => invalid (path ++ js "." ++ key) "present"
    | none => .ok ()

def integer (value : JsValue) (path : JsString) (minimum maximum : ℤ) : Except ClientError ℤ :=
  match value with
  | .number (.int value) =>
    if value < -Js.maxSafeInteger ∨ Js.maxSafeInteger < value then invalid path "a safe integer"
    else if value < minimum ∨ maximum < value then
      invalid path (toString minimum ++ " to " ++ toString maximum)
    else .ok value
  | _ => invalid path "a safe integer"

def booleanValue (value : JsValue) (path : JsString) : Except ClientError Bool :=
  match value with
  | .bool value => .ok value
  | _ => invalid path "a boolean"

def providerText : AgentCliKind → JsString
  | .claudeCode => js "claudeCode"
  | .codex => js "codex"

/-- `choice(…, PROVIDERS, …)`. -/
def providerChoice (value : JsValue) (path : JsString) : Except ClientError AgentCliKind :=
  match value with
  | .string text =>
    if text = providerText .claudeCode then .ok .claudeCode
    else if text = providerText .codex then .ok .codex
    else invalid path "one of claudeCode, codex"
  | _ => invalid path "one of claudeCode, codex"

def modelName (value : JsValue) (path : JsString) : Except ClientError JsString :=
  match value with
  | .string text =>
    if text = [] then invalid path "a non-empty model name"
    else if maxAgentTurnDigestModelBytes < utf8ByteLength text then invalid path "at most 256 bytes"
    else .ok text
  | _ => invalid path "a model name"

/-- `"observedAtEpochMs" in value`. -/
def hasTimestamp : Bool :=
  js "observedAtEpochMs" ∈ fields.map Prod.fst

/-- The keys of a record with a time. -/
def timedKeys (keys : List JsString) : List JsString :=
  if hasTimestamp fields then keys ++ [js "observedAtEpochMs"] else keys

def timestamp (path : JsString) : Except ClientError (Option JsNumber) :=
  if hasTimestamp fields then
    (integer (fieldOf fields (js "observedAtEpochMs")) (path ++ js ".observedAtEpochMs") 0
      Js.maxSafeInteger).map fun time => some (.int time)
  else .ok none

/-- The loop of `digestCapacities`, with the models so far. -/
def digestCapacitiesFrom (path : JsString) :
    List JsValue → ℕ → List JsString → Except ClientError (List AgentTurnDigestCapacity)
  | [], _, _ => .ok []
  | entry :: entries, index, seen => do
    let entryPath := path ++ js "[" ++ js (toString index) ++ js "]"
    let capacity ← recordOf entry entryPath
    exactKeys capacity [js "model", js "contextWindow"] entryPath
    let model ← modelName (fieldOf capacity (js "model")) (entryPath ++ js ".model")
    if model ∈ seen then invalid (entryPath ++ js ".model") "a unique model"
    else
      let contextWindow ← integer (fieldOf capacity (js "contextWindow"))
        (entryPath ++ js ".contextWindow") 1 Js.maxSafeInteger
      let rest ← digestCapacitiesFrom path entries (index + 1) (model :: seen)
      .ok (⟨model, .int contextWindow⟩ :: rest)

def digestCapacities (value : JsValue) (path : JsString) : Except ClientError (List AgentTurnDigestCapacity) :=
  match value with
  | .array entries =>
    if maxAgentTurnDigestCapacities < entries.length then invalid path "at most 16 capacities"
    else digestCapacitiesFrom path entries 0 []
  | _ => invalid path "an array"

def digestPrimary (value : JsValue) (path : JsString) : Except ClientError (Option PrimaryReading) :=
  match value with
  | .null => .ok none
  | value => do
    let primary ← recordOf value path
    exactKeys primary (timedKeys primary [js "model", js "inputTokens"]) path
    let model ← modelName (fieldOf primary (js "model")) (path ++ js ".model")
    let inputTokens ← integer (fieldOf primary (js "inputTokens")) (path ++ js ".inputTokens") 0
      Js.maxSafeInteger
    let observedAtEpochMs ← timestamp primary path
    .ok (some ⟨model, .int inputTokens, observedAtEpochMs⟩)

def digestWindow (value : JsValue) (path : JsString) : Except ClientError (Option AgentContextWindow) :=
  match value with
  | .null => .ok none
  | value => do
    let window ← recordOf value path
    exactKeys window (timedKeys window [js "usedTokens", js "contextWindow"]) path
    let usedTokens ← integer (fieldOf window (js "usedTokens")) (path ++ js ".usedTokens") 0
      Js.maxSafeInteger
    let contextWindow ← integer (fieldOf window (js "contextWindow")) (path ++ js ".contextWindow") 1
      Js.maxSafeInteger
    let observedAtEpochMs ← timestamp window path
    .ok (some ⟨observedAtEpochMs, .int usedTokens, .int contextWindow⟩)

def digestContext (value : JsValue) (path : JsString) : Except ClientError AgentTurnDigestContext := do
  let context ← recordOf value path
  exactKeys context [js "provider", js "capacities", js "primary", js "current", js "bounded"] path
  let provider ← providerChoice (fieldOf context (js "provider")) (path ++ js ".provider")
  let capacities ← digestCapacities (fieldOf context (js "capacities")) (path ++ js ".capacities")
  let primary ← digestPrimary (fieldOf context (js "primary")) (path ++ js ".primary")
  let current ← digestWindow (fieldOf context (js "current")) (path ++ js ".current")
  let bounded ← booleanValue (fieldOf context (js "bounded")) (path ++ js ".bounded")
  .ok ⟨provider, capacities, primary, current, bounded⟩

variable (client : ClientCodec ε μ)

def maxDigestBytes : ℕ := 65536

/-- `digest.version !== AGENT_TURN_DIGEST_VERSION`. -/
def digestVersion (value : JsValue) (path : JsString) : Except ClientError ℕ :=
  match value with
  | .number (.int version) =>
    if version = agentTurnDigestVersion then .ok agentTurnDigestVersion else invalid path "version 1"
  | _ => invalid path "version 1"

def parseAgentTurnDigest (value : JsValue) (path : JsString) : Except ClientError AgentTurnDigestWire := do
  let digest ← recordOf value path
  exactKeys digest [js "version", js "context"] path
  let version ← digestVersion (fieldOf digest (js "version")) (path ++ js ".version")
  let context ← digestContext (fieldOf digest (js "context")) (path ++ js ".context")
  if maxDigestBytes < client.digestBytes ⟨version, context⟩ then invalid path "at most 65536 bytes"
  else .ok ⟨version, context⟩

def optionalDigest (value : JsValue) (path : JsString) : Except ClientError (Option AgentTurnDigestWire) :=
  match value with
  | .null => .ok none
  | value => (parseAgentTurnDigest client value path).map some

def parseAgentTurnLogLease (value : JsValue) :
    Except ClientError (AgentTurnLogLease AgentTurnDigestWire) := do
  let lease ← recordOf value (js "lease")
  exactKeys lease [js "writerEpoch", js "nextSeq", js "digest", js "digestThroughSeq"] (js "lease")
  let nextSeq ← integer (fieldOf lease (js "nextSeq")) (js "lease.nextSeq") agentTurnLogSeqBase
    Js.maxSafeInteger
  let digest ← optionalDigest client (fieldOf lease (js "digest")) (js "lease.digest")
  let digestThroughSeq ← integer (fieldOf lease (js "digestThroughSeq")) (js "lease.digestThroughSeq") 0
    Js.maxSafeInteger
  if digest = none ∧ digestThroughSeq ≠ 0 then
    invalid (js "lease.digestThroughSeq") "0 without a digest"
  else if digest ≠ none ∧ digestThroughSeq = 0 then
    invalid (js "lease.digestThroughSeq") "the sequence the digest covers"
  else if nextSeq - 1 < digestThroughSeq then
    invalid (js "lease.digestThroughSeq") "a sequence the log already holds"
  else
    let writerEpoch ← integer (fieldOf lease (js "writerEpoch")) (js "lease.writerEpoch") 1
      Js.maxSafeInteger
    .ok ⟨writerEpoch, nextSeq, digest, digestThroughSeq⟩

/-- A counter of a request. -/
def counter (value : ℤ) (path : JsString) (minimum : ℤ) : Except ClientError ℤ :=
  integer (.number (.int value)) path minimum Js.maxSafeInteger

def parseAgentTurnLogLoss (loss : AgentTurnLogLoss) (path : JsString) : Except ClientError Unit :=
  match loss.kind, loss.atEpochMs with
  | .diskBudget, some atEpochMs => (counter atEpochMs (path ++ js ".atEpochMs") 0).map fun _ => ()
  | .diskBudget, none => invalid (path ++ js ".atEpochMs") "present"
  | _, none => .ok ()
  | _, some _ => invalid (path ++ js ".atEpochMs") "not present"

/-- The loop of `appendOps`, with the last number and the next one that is new. -/
def appendOpsFrom (expectedNextSeq : ℤ) (path : JsString) :
    List (AgentTurnLogEntry ε) → ℕ → ℤ → ℤ → Except ClientError Unit
  | [], _, _, _ => .ok ()
  | op :: ops, index, previous, next => do
    let opPath := path ++ js "[" ++ js (toString index) ++ js "]"
    let seq ← counter op.seq (opPath ++ js ".seq") agentTurnLogSeqBase
    if seq ≤ previous then invalid (opPath ++ js ".seq") "a sequence above the previous entry"
    else if expectedNextSeq ≤ seq ∧ seq ≠ next then
      invalid (opPath ++ js ".seq") "a contiguous sequence from the expected next sequence"
    else if ¬ client.acceptsEvent op.event then invalid (opPath ++ js ".event") "a known event"
    else
      let following := if expectedNextSeq ≤ seq then next + 1 else next
      appendOpsFrom expectedNextSeq path ops (index + 1) seq following

def appendOps (ops : List (AgentTurnLogEntry ε)) (expectedNextSeq : ℤ) (path : JsString) :
    Except ClientError Unit := do
  if maxAppendOps < ops.length then invalid path "at most 256 operations"
  else
    appendOpsFrom client expectedNextSeq path ops 0 0 expectedNextSeq
    if maxAppendBytes < client.opsBytes ops then
      .error (.batchTooLarge path (client.opsBytes ops) maxAppendBytes)
    else .ok ()

/-- The value that a digest is sent, and comes back, as; an absent time is left out. -/
def timedRecord (time : Option JsNumber) (fields : List (JsString × JsValue)) : JsValue :=
  record ((js "observedAtEpochMs", writeOptional .number time) :: fields)

def capacityValue (capacity : AgentTurnDigestCapacity) : JsValue :=
  .object [(js "model", .string capacity.model), (js "contextWindow", .number capacity.contextWindow)]

def primaryValue (primary : PrimaryReading) : JsValue :=
  timedRecord primary.observedAtEpochMs
    [(js "model", .string primary.model), (js "inputTokens", .number primary.inputTokens)]

def windowValue (window : AgentContextWindow) : JsValue :=
  timedRecord window.observedAtEpochMs
    [(js "usedTokens", .number window.usedTokens), (js "contextWindow", .number window.contextWindow)]

def nullable (value : α → JsValue) : Option α → JsValue
  | none => .null
  | some item => value item

def contextValue (context : AgentTurnDigestContext) : JsValue :=
  .object [(js "provider", .string (providerText context.provider)),
    (js "capacities", .array (context.capacities.map capacityValue)),
    (js "primary", nullable primaryValue context.primary),
    (js "current", nullable windowValue context.current), (js "bounded", .bool context.bounded)]

def digestValue (digest : AgentTurnDigestWire) : JsValue :=
  .object [(js "version", .number (.int digest.version)), (js "context", contextValue digest.context)]

def leaseValue (lease : AgentTurnLogLease AgentTurnDigestWire) : JsValue :=
  .object [(js "writerEpoch", .number (.int lease.writerEpoch)), (js "nextSeq", .number (.int lease.nextSeq)),
    (js "digest", nullable digestValue lease.digest),
    (js "digestThroughSeq", .number (.int lease.digestThroughSeq))]

def validateAppendAgentTurnLogRequest (request : AppendAgentTurnLogRequest ε AgentTurnDigestWire μ) :
    Except ClientError Unit := do
  let expectedNextSeq ← counter request.expectedNextSeq (js "request.expectedNextSeq") agentTurnLogSeqBase
  appendOps client request.ops expectedNextSeq (js "request.ops")
  if ¬ client.acceptsScope request.scope then invalid (js "request.scope") "a scope"
  else
    let _ ← counter request.writerEpoch (js "request.writerEpoch") 1
    let _ ← optionalDigest client (nullable digestValue request.digest) (js "request.digest")
    parseAgentTurnLogLoss request.loss (js "request.loss")
    if ¬ request.lifecycle.all client.acceptsLifecycle then
      invalid (js "request.lifecycle") "a valid subagent lifecycle snapshot or null"
    else .ok ()

def validateOpenAgentTurnLogRequest (request : OpenAgentTurnLogRequest) : Except ClientError Unit := do
  if ¬ client.acceptsScope request.scope then invalid (js "request.scope") "a scope"
  else
    parseAgentTurnLogLoss request.priorLoss (js "request.priorLoss")
    match request.prompt with
    | none => .ok ()
    | some prompt =>
      if prompt.isEmpty then invalid (js "request.prompt") "a non-empty prompt"
      else if '\x00' ∈ prompt.toList then invalid (js "request.prompt") "a prompt without a NUL byte"
      else if maxTurnPromptBytes < prompt.utf8ByteSize then
        invalid (js "request.prompt") "at most 32768 bytes"
      else .ok ()

end CodevoEditor.TurnLogStore
