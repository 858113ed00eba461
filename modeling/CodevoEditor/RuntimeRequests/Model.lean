/-
# Runtime requests

`src-tauri/src/agent_runtime_requests/model.rs`, `observed.rs`, `scopes.rs` and `store.rs`: a
request that a provider asks of the user while a turn runs, the statuses it may take,
what is observed of the requests of a turn, and what the user answers.

What a question or an approval says is only written out and checked, never looked at
here, so it stands as its document (`payload`).  `u64` numbers are natural numbers.
-/

import Mathlib.Algebra.Ring.Nat
import Mathlib.Data.List.Basic

namespace CodevoEditor.RuntimeRequests

def maxSafeInteger : ℕ := 9007199254740991

inductive RequestStatus
  | pending
  | submitting
  | resolved
  | cancelled
  | expired
  | timedOut
  deriving DecidableEq

namespace RequestStatus

def successors : RequestStatus → List RequestStatus
  | pending => [submitting, cancelled, expired, timedOut]
  | submitting => [resolved, pending, expired]
  | resolved | cancelled | expired | timedOut => []

def isTerminal (status : RequestStatus) : Bool := status.successors.isEmpty

def mayBecome (status next : RequestStatus) : Bool := next ∈ status.successors

end RequestStatus

inductive CloseReason
  | turnEnded
  | providerCancelled
  | timedOut
  | deliveryFailed
  | appRestarted
  | answerUnconfirmed
  | runnerRestarted
  | runnerStopped
  | taskCancelled
  | unknown
  deriving DecidableEq

inductive RequestProvider
  | codex
  | claudeCode

inductive RequestKind
  | question
  | approval
  deriving DecidableEq

inductive RequestBody
  | question (payload : String)
  | approval (payload : String)

def RequestBody.kind : RequestBody → RequestKind
  | question _ => .question
  | approval _ => .approval

inductive RequestResolution
  | answers (payload : String)
  | decision (payload : String)
  deriving DecidableEq

def RequestResolution.kind : RequestResolution → RequestKind
  | answers _ => .question
  | decision _ => .approval

inductive ClosedStatus
  | cancelled
  | expired
  | timedOut
  deriving DecidableEq

def ClosedStatus.status : ClosedStatus → RequestStatus
  | cancelled => .cancelled
  | expired => .expired
  | timedOut => .timedOut

inductive ObservedState
  | pending
  | resolved (resolution : RequestResolution)
  | closed (status : ClosedStatus) (reason : CloseReason)
  deriving DecidableEq

structure ObservedRequest where
  id : String
  provider : RequestProvider
  body : RequestBody
  state : ObservedState
  revision : Option ℕ

inductive DigestedState
  | pending
  | resolved
  | closed (status : ClosedStatus) (reason : CloseReason)

structure DigestedRequest where
  id : String
  kind : RequestKind
  state : DigestedState
  revision : Option ℕ

structure ObservedTurn where
  sequence : ℕ
  requests : List ObservedRequest
  digested : List DigestedRequest
  rejected : List String

structure TurnKey where
  threadId : String
  turnId : String
  deriving DecidableEq

/-- Whose history a turn belongs to (`scopes.rs`). -/
structure HistoryScope where
  rootKey : String
  ownerId : String
  deriving DecidableEq

/-- A turn of one incarnation: what a later turn with the same ids never shares. -/
structure TurnAuthority where
  scope : HistoryScope
  key : TurnKey
  incarnation : ℕ
  deriving DecidableEq

def TurnAuthority.thread (turn : TurnAuthority) : HistoryScope × String :=
  (turn.scope, turn.key.threadId)

structure TurnObservation where
  key : TurnKey
  incarnation : ℕ
  revision : ℕ
  firstObservedAtEpochMs : ℕ
  observedAtEpochMs : ℕ
  turn : ObservedTurn

/-- Whether what the journal has taken in is saved. -/
inductive JournalState
  | saved
  | degraded
  deriving DecidableEq

structure ApplyReport where
  transitions : ℕ := 0
  skipped : ℕ := 0
  pruned : ℕ := 0
  lostAnswers : ℕ := 0
  tombstoned : Bool := false
  stale : Bool := false
  superseded : Bool := false

structure AnswerIntent where
  key : TurnKey
  incarnation : ℕ
  requestId : String
  resolution : RequestResolution
  version : ℕ
  atEpochMs : ℕ

inductive IntentReceipt
  | recorded
  | recordedWithoutAnswer
  | alreadyAnswered
  | threadDeleted
  | notJournaled
  | refused

inductive IntentSettlement
  | reverted
  | deliveryFailed
  | unconfirmed

structure IntentSettle where
  key : TurnKey
  incarnation : ℕ
  requestId : String
  intentVersion : ℕ
  settlement : IntentSettlement
  version : ℕ
  atEpochMs : ℕ

structure RecoveryReport where
  expired : ℕ
  unconfirmed : ℕ
  purged : ℕ
  swept : ℕ

def maxRequestsPerTurn : ℕ := 512
def maxRequestsPerThread : ℕ := 4096
def orphanRequestRetentionMs : ℕ := 30 * 24 * 60 * 60 * 1000
def maxRetainedAgentQuestions : ℕ := 32
def maxRetainedAgentApprovals : ℕ := 32

def jsonObjectAllowanceBytes : ℕ := 256

/-- `text`: a byte of text has six bytes of JSON at most. -/
def textBytes (bytes : ℕ) : ℕ := bytes * 6

def answerBytes : ℕ := jsonObjectAllowanceBytes + 128 + 12 * (128 + 3) + textBytes 8192

def maxRequestOutcomeBytes : ℕ := jsonObjectAllowanceBytes + 4 * answerBytes

def optionBytes : ℕ := jsonObjectAllowanceBytes + 128 + textBytes 512 + textBytes 2048

def questionBytes : ℕ :=
  jsonObjectAllowanceBytes + 128 + textBytes 128 + textBytes 8192 + 12 * optionBytes

def maxQuestionBodyBytes : ℕ := 2 * jsonObjectAllowanceBytes + 4 * questionBytes

def factBytes : ℕ := jsonObjectAllowanceBytes + textBytes 64 + textBytes 2048

def maxApprovalBodyBytes : ℕ :=
  3 * jsonObjectAllowanceBytes + textBytes 256 + textBytes (16 * 1024) + 8 * factBytes

def maxRequestBodyBytes : ℕ := max maxQuestionBodyBytes maxApprovalBodyBytes

end CodevoEditor.RuntimeRequests
