/-
# Evidence of open requests

`src-tauri/src/remote_runner/thread_requests_evidence.rs`: what reads of a task have shown of
its questions and approvals.

`reads` and `fences` are kept for the reader of the model: the reads a task has taken in and the
keys it has fenced since it has been tracked.
-/

import CodevoEditor.Js.OrderedMap
import CodevoEditor.RuntimeRequests.Model
import Mathlib.Data.Finset.Image
import Mathlib.Data.List.MinMax

namespace CodevoEditor.RemoteRunner

open Js RuntimeRequests

def maxTrackedTasks : ℕ := 256

def maxFencedPerTask : ℕ := 64

def maxSwitchDeferral : ℕ := 300 * 1000

inductive AgentQuestionStatus
  | pending
  | answered
  | cancelled
  | expired
  deriving DecidableEq

inductive AgentApprovalStatus
  | pending
  | approved
  | denied
  | cancelled
  | expired
  | timedOut
  deriving DecidableEq

inductive InteractionSource
  | snapshot
  | legacy
  deriving DecidableEq

structure QuestionInteraction where
  id : String
  status : AgentQuestionStatus

structure ApprovalInteraction where
  id : String
  status : AgentApprovalStatus

structure RemoteInteractions where
  taskId : String
  sequence : ℕ
  questions : List QuestionInteraction
  approvals : List ApprovalInteraction
  source : InteractionSource
  approvalsComplete : Bool

/-- A request as a page shows it. -/
structure RuntimeRequest where
  kind : RequestKind
  id : String
  status : RequestStatus

abbrev RequestKey := RequestKind × String

def RuntimeRequest.key (request : RuntimeRequest) : RequestKey := (request.kind, request.id)

def RuntimeRequest.isOpen (request : RuntimeRequest) : Bool :=
  request.status = .pending || request.status = .submitting

namespace RemoteInteractions

variable (read : RemoteInteractions)

/-- The rows of a read: their keys, and whether they are open. -/
def rows : List (RequestKey × Bool) :=
  (read.questions.map fun question => ((.question, question.id), decide (question.status = .pending))) ++
    read.approvals.map fun approval => ((.approval, approval.id), decide (approval.status = .pending))

/-- `listed`. -/
def present : Finset RequestKey := (read.rows.map Prod.fst).toFinset

def openNow : Finset RequestKey := ((read.rows.filter Prod.snd).map Prod.fst).toFinset

def isListedSection (key : RequestKey) : Bool := key.1 = .question || read.approvalsComplete

end RemoteInteractions

structure Marks where
  snapshot : Option ℕ
  legacy : Option ℕ

namespace Marks

variable (marks : Marks)

/-- `of`, read. -/
def of : InteractionSource → Option ℕ
  | .snapshot => marks.snapshot
  | .legacy => marks.legacy

/-- `of`, written. -/
def put (sequence : ℕ) : InteractionSource → Marks
  | .snapshot => { marks with snapshot := some sequence }
  | .legacy => { marks with legacy := some sequence }

def isNewerThan (read : RemoteInteractions) : Bool :=
  (marks.of read.source).any fun sequence => decide (read.sequence < sequence)

end Marks

inductive Verdict
  | stale
  | current
  | vanished

structure Evidence where
  marks : Marks
  opened : Finset RequestKey
  settled : List RequestKey
  invalidated : Bool
  unreadableSince : Option ℕ
  touched : ℕ
  reads : List RemoteInteractions
  fences : List RequestKey

namespace Evidence

def new : Evidence := ⟨⟨none, none⟩, ∅, [], false, none, 0, [], []⟩

variable (evidence : Evidence)

def hasOpenApproval : Bool := decide (∃ key ∈ evidence.opened, key.1 = .approval)

def fence (key : RequestKey) : Evidence :=
  if key ∈ evidence.settled then evidence
  else
    { evidence with
      settled := (if maxFencedPerTask ≤ evidence.settled.length then evidence.settled.tail
        else evidence.settled) ++ [key]
      fences := evidence.fences ++ [key] }

/-- The body of `observe`. -/
def observe (read : RemoteInteractions) : Evidence × Verdict :=
  if evidence.marks.isNewerThan read then (evidence, .stale)
  else
    let vanished := decide (∃ key ∈ evidence.opened, key ∉ read.present ∧ read.isListedSection key)
    let kept := evidence.opened.filter fun key => read.isListedSection key = false
    ({ evidence with
        opened := (read.openNow.filter fun key => key ∉ evidence.settled) ∪ kept
        marks := evidence.marks.put read.sequence read.source
        invalidated := evidence.invalidated || vanished
        unreadableSince := if read.approvalsComplete then none else evidence.unreadableSince
        reads := evidence.reads ++ [read] },
      if vanished then .vanished else .current)

/-- The body of `vanish`. -/
def vanish : Evidence × Verdict :=
  if evidence.opened = ∅ then (evidence, .current)
  else ({ evidence with opened := ∅, invalidated := true }, .vanished)

/-- The body of `published`. -/
def published (key : RequestKey) (isOpen : Bool) : Evidence :=
  if isOpen then { evidence with opened := insert key (evidence.opened.erase key) }
  else { evidence with opened := evidence.opened.erase key }.fence key

/-- The loop of `fence_settled`. -/
def fenceAll (keys : List RequestKey) : Evidence :=
  keys.foldl (fun evidence key => { evidence with opened := evidence.opened.erase key }.fence key) evidence

end Evidence

structure Tasks where
  maxTasks : ℕ
  clock : ℕ
  tasks : OrderedMap String Evidence
  openLost : Bool
  invalidationLost : Bool
  bumpDue : Bool

namespace Tasks

def withLimit (maxTasks : ℕ) : Tasks := ⟨max maxTasks 1, 0, .empty, false, false, false⟩

variable (tasks : Tasks) (task : String)

/-- The evidence of a task; none where the task is not tracked. -/
def evidenceOf : Evidence := (tasks.tasks.get? task).getD .new

/-- The task that was touched longest ago. -/
def oldest : Option (String × Evidence) := tasks.tasks.entries.argmin fun entry => entry.2.touched

/-- What is left when a task is evicted. -/
def without (evicted : Evidence) : Tasks :=
  let lostOpen := decide (evicted.opened ≠ ∅)
  { tasks with
    tasks := tasks.tasks.delete task
    openLost := tasks.openLost || lostOpen
    invalidationLost := tasks.invalidationLost || (evicted.invalidated || lostOpen)
    bumpDue := tasks.bumpDue || lostOpen }

/-- The loop of `evict_for_one_more`, so many times at most. -/
def evictTimes : ℕ → Tasks → Tasks
  | 0, tasks => tasks
  | times + 1, tasks =>
      if tasks.maxTasks ≤ tasks.tasks.size then
        match tasks.oldest with
        | none => tasks
        | some (task, evicted) => evictTimes times (tasks.without task evicted)
      else tasks

/-- A turn of the loop takes one task, so there are as many turns as tasks at most. -/
def evictForOneMore : Tasks := evictTimes tasks.tasks.size tasks

/-- `entry`, with what is done to the evidence it finds. -/
def update (change : Evidence → Evidence) : Tasks :=
  let clock := tasks.clock + 1
  let tasks := { tasks with clock := clock }
  let tasks := if tasks.tasks.has task then tasks else tasks.evictForOneMore
  { tasks with tasks := tasks.tasks.set task (change { tasks.evidenceOf task with touched := clock }) }

def observe (read : RemoteInteractions) : Tasks × Verdict :=
  (tasks.update read.taskId fun evidence => (evidence.observe read).1,
    ((tasks.evidenceOf read.taskId).observe read).2)

def isStale (read : RemoteInteractions) : Bool :=
  (tasks.tasks.get? read.taskId).any fun evidence => evidence.marks.isNewerThan read

def fenced (requests : List RuntimeRequest) : List RuntimeRequest :=
  match tasks.tasks.get? task with
  | none => requests
  | some evidence =>
      requests.filter fun request => !request.isOpen || !decide (request.key ∈ evidence.settled)

def defersSwitch (read : RemoteInteractions) (now : ℕ) : Tasks × Bool :=
  let tasks :=
    match tasks.tasks.get? read.taskId with
    | none => tasks
    | some evidence =>
        let since := if read.approvalsComplete then none else evidence.unreadableSince
        { tasks with
          tasks := tasks.tasks.set read.taskId
            { evidence with
              unreadableSince :=
                if !read.approvalsComplete && evidence.hasOpenApproval then some (since.getD now) else since } }
  (tasks, tasks.tasks.values.any fun evidence =>
    evidence.hasOpenApproval && evidence.unreadableSince.any fun since => decide (now - since < maxSwitchDeferral))

def fenceSettled (requests : List RuntimeRequest) : Tasks :=
  let settled := (requests.filter fun request => !request.isOpen).map RuntimeRequest.key
  if settled = [] then tasks else tasks.update task fun evidence => evidence.fenceAll settled

def takeBumpDue : Bool × Tasks := (tasks.bumpDue, { tasks with bumpDue := false })

def isConnectionIncomplete : Bool := tasks.invalidationLost

def vanish : Tasks × Verdict :=
  (tasks.update task fun evidence => evidence.vanish.1, (tasks.evidenceOf task).vanish.2)

def published (key : RequestKey) (isOpen : Bool) : Tasks :=
  tasks.update task fun evidence => evidence.published key isOpen

def hasOpenRequests : Bool := decide ((tasks.evidenceOf task).opened ≠ ∅)

def hasLostOpenEvidence : Bool := tasks.openLost

def isIncomplete : Bool := tasks.invalidationLost || (tasks.evidenceOf task).invalidated

/-- What is done to the evidence. -/
inductive Event
  | observe (read : RemoteInteractions)
  | defersSwitch (read : RemoteInteractions) (now : ℕ)
  | fenceSettled (task : String) (requests : List RuntimeRequest)
  | takeBumpDue
  | vanish (task : String)
  | published (task : String) (key : RequestKey) (isOpen : Bool)

def step : Event → Tasks
  | .observe read => (tasks.observe read).1
  | .defersSwitch read now => (tasks.defersSwitch read now).1
  | .fenceSettled task requests => tasks.fenceSettled task requests
  | .takeBumpDue => tasks.takeBumpDue.2
  | .vanish task => (tasks.vanish task).1
  | .published task key isOpen => tasks.published task key isOpen

def after (events : List Event) : Tasks := events.foldl step tasks

/-- An event publishes a request as settled, or fences it. -/
def Event.fences (key : RequestKey) : Event → Prop
  | .published task' key' isOpen => task' = task ∧ key' = key ∧ isOpen = false
  | .fenceSettled task' requests => task' = task ∧ ∃ request ∈ requests, request.isOpen = false ∧ request.key = key
  | _ => False

/-- A read that is not stale reports a request that is not open. -/
def reportsSettled (key : RequestKey) (read : RemoteInteractions) : Prop :=
  read.taskId = task ∧ tasks.isStale read = false ∧ key ∈ read.present ∧ key ∉ read.openNow

end Tasks

end CodevoEditor.RemoteRunner
