/-
# The requests of a turn, stored and live

`src-tauri/src/agent_runtime_requests/projection_overlay.rs`, the requests of `model.rs` that
are sent, and the reads of `agent_history_store/runtime_request_thread_rows.rs`.

What `serde_json` reads and writes and the checks of a body are a parameter (`Wire`).
-/

import CodevoEditor.RuntimeRequests.Store
import Mathlib.Data.List.Sort
import Mathlib.Data.Prod.Lex
import Mathlib.Data.String.Basic

namespace CodevoEditor.RuntimeRequests

open Sql List Option

def maxRequestIdBytes : ℕ := 128

def isIdentifier (value : String) : Bool :=
  match value.toList with
  | [] => false
  | first :: _ =>
      value.utf8ByteSize ≤ maxRequestIdBytes && first.isAlphanum &&
        value.toList.all fun letter => letter.isAlphanum || letter ∈ ['_', '.', ':', '-']

inductive RequestLifecycle
  | pending
  | submitting (reason : CloseReason) (resolution : Option RequestResolution)
  | resolved (reason : CloseReason) (resolvedAtEpochMs : ℕ) (resolution : RequestResolution)
  | cancelled (reason : CloseReason) (resolvedAtEpochMs : ℕ)
  | expired (reason : CloseReason) (resolvedAtEpochMs : ℕ) (resolution : Option RequestResolution)
  | timedOut (reason : CloseReason) (resolvedAtEpochMs : ℕ)

namespace RequestLifecycle

def status : RequestLifecycle → RequestStatus
  | pending => .pending
  | submitting _ _ => .submitting
  | resolved _ _ _ => .resolved
  | cancelled _ _ => .cancelled
  | expired _ _ _ => .expired
  | timedOut _ _ => .timedOut

def resolvedAtEpochMs : RequestLifecycle → Option ℕ
  | pending | submitting _ _ => none
  | resolved _ at_ _ | cancelled _ at_ | expired _ at_ _ | timedOut _ at_ => some at_

def resolution : RequestLifecycle → Option RequestResolution
  | pending | cancelled _ _ | timedOut _ _ => none
  | submitting _ resolution | expired _ _ resolution => resolution
  | resolved _ _ resolution => some resolution

def coherent : RequestLifecycle → Bool
  | expired reason _ resolution => resolution.isNone || reason = .answerUnconfirmed
  | _ => true

end RequestLifecycle

/-- `RequestParts`, without `anchor_tool_id`, which is never set. -/
structure RequestParts where
  id : String
  turnId : String
  provider : RequestProvider
  createdAtEpochMs : ℕ
  order : ℕ
  version : ℕ
  body : RequestBody
  lifecycle : RequestLifecycle

/-- What is written and read as JSON, how long it is, and the checks of what it says. -/
structure Wire extends Encoding where
  decodeOutcome : String → Option RequestResolution
  validBody : String → RequestProvider → RequestBody → Bool
  requestBytes : RequestParts → ℕ
  bodyBytes : RequestBody → ℕ
  resolutionBytes : RequestResolution → ℕ

/-- `RuntimeRequest::new`. -/
def newRequest (wire : Wire) (parts : RequestParts) : Option RequestParts :=
  if !isIdentifier parts.id || !isIdentifier parts.turnId then none
  else
    let resolvedAt := parts.lifecycle.resolvedAtEpochMs.getD 0
    if ([parts.createdAtEpochMs, parts.order, parts.version, resolvedAt].any fun value =>
        maxSafeInteger < value) || parts.version = 0 then none
    else if !wire.validBody parts.id parts.provider parts.body then none
    else if !parts.lifecycle.coherent then none
    else
      match parts.lifecycle.resolution with
      | some resolution =>
          if wire.validateFor resolution parts.id parts.provider parts.body then some parts else none
      | none => some parts

/-- `READABLE_HEADER`. -/
def isReadable (row : RequestRow) : Bool :=
  row.format = fullBodyFormat && row.kind.isSome && row.status.isSome &&
    decide (1 ≤ row.version ∧ row.version ≤ maxSafeInteger ∧ 0 ≤ row.regIndex) &&
    !(row.status = some .resolved && row.outcome.isNone)

structure StoredEntry where
  requestId : String
  kind : RequestKind
  status : RequestStatus
  order : ℕ
  version : ℕ
  bytes : ℕ

/-- `entry`. -/
def storedEntry (key : RequestKey) (row : RequestRow) : Option StoredEntry :=
  match row.kind, row.status with
  | some kind, some status =>
      some ⟨key.requestId, kind, status, row.regIndex.toNat, row.version.toNat,
        row.body.utf8ByteSize + row.outcome.elim 0 String.utf8ByteSize⟩
  | _, _ => none

/-- `ORDER BY reg_index,request_id`. -/
def indexedBefore (a b : RequestKey × RequestRow) : Prop :=
  toLex (a.2.regIndex, a.1.requestId) ≤ toLex (b.2.regIndex, b.1.requestId)

instance : DecidableRel indexedBefore := fun _ _ =>
  inferInstanceAs (Decidable (toLex (_, _) ≤ toLex (_, _)))

def entriesOf (database : RequestDatabase) (key : TurnKey) : List StoredEntry :=
  ((database.requests.selectWhere fun row stored =>
      row.threadId = key.threadId && row.turnId = key.turnId && isReadable stored).insertionSort
    indexedBefore).filterMap fun entry => storedEntry entry.1 entry.2

/-- `u64::try_from`. -/
def natural (value : ℤ) : Option ℕ := if 0 ≤ value then some value.toNat else none

/-- `StoredRow::lifecycle`. -/
def storedLifecycle (wire : Wire) (row : RequestRow) (status : RequestStatus) :
    Option RequestLifecycle := do
  let resolution ← match row.outcome with
    | some outcome => (wire.decodeOutcome outcome).map some
    | none => some none
  let resolvedAt ← match row.resolvedAt with
    | some resolvedAt => (natural resolvedAt).map some
    | none => some none
  match status, resolvedAt, resolution with
  | .pending, none, none => if row.reason.isNone then some .pending else none
  | .submitting, none, resolution => some (.submitting (row.reason.getD .unknown) resolution)
  | .resolved, some at_, some resolution =>
      some (.resolved (row.reason.getD .unknown) at_ resolution)
  | .expired, some at_, resolution => row.reason.map fun reason => .expired reason at_ resolution
  | .cancelled, some at_, none => row.reason.map fun reason => .cancelled reason at_
  | .timedOut, some at_, none => row.reason.map fun reason => .timedOut reason at_
  | _, _, _ => none

/-- `StoredRow::decode`. -/
def decodeRow (wire : Wire) (key : RequestKey) (row : RequestRow) : Option RequestParts :=
  if row.format ≠ fullBodyFormat then none
  else do
    let status ← row.status
    let lifecycle ← storedLifecycle wire row status
    let (provider, body) ← wire.decodeBody row.body
    if some body.kind ≠ row.kind then none
    else
      let createdAt ← natural row.createdAt
      let order ← natural row.regIndex
      let version ← natural row.version
      newRequest wire ⟨key.requestId, key.turnId, provider, createdAt, order, version, body, lifecycle⟩

/-- `load`. -/
def loadRequest (wire : Wire) (database : RequestDatabase) (key : TurnKey) (requestId : String) :
    Option RequestParts :=
  (database.requests.get? (key.request requestId)).bind (decodeRow wire (key.request requestId))

/-! ### The live session of a turn -/

structure SeenRequest where
  firstSeenAtEpochMs : ℕ
  changedAtSequence : ℕ

structure TurnLive where
  sequence : ℕ
  observedAtEpochMs : ℕ
  ended : Bool
  requests : List ObservedRequest
  unknown : List String
  seen : String → Option SeenRequest

inductive Held
  | pending
  | resolved (resolution : RequestResolution)
  | closed (status : RequestStatus) (reason : CloseReason)
  | unknown
  | absent

namespace TurnLive

variable (live : TurnLive)

def held (id : String) (kind : RequestKind) : Held :=
  match live.requests.find? fun request => request.id = id && request.body.kind = kind with
  | none => if id ∈ live.unknown then .unknown else .absent
  | some listed =>
      match listed.state with
      | .pending => .pending
      | .resolved resolution => .resolved resolution
      | .closed status reason => .closed status.status reason

def changedAt (id : String) : ℕ := max ((live.seen id).elim live.sequence (·.changedAtSequence)) 1

def firstSeenAt (id : String) : ℕ :=
  (live.seen id).elim live.observedAtEpochMs (·.firstSeenAtEpochMs)

end TurnLive

inductive Fate
  | keep
  | resolve (resolution : RequestResolution)
  | close (status : RequestStatus) (reason : CloseReason)

def Fate.closing (stored status : RequestStatus) (reason : CloseReason) : Fate :=
  if stored = .submitting then .close .expired .answerUnconfirmed else .close status reason

def Fate.abandoned (stored : RequestStatus) : Fate := Fate.closing stored .expired .turnEnded

structure Outcome where
  fate : Fate
  version : ℕ
  atEpochMs : ℕ
  abandoned : Bool

structure StoredState where
  id : String
  kind : RequestKind
  status : RequestStatus
  version : ℕ

def outcome (stored : StoredState) (live : Option TurnLive) (now : ℕ) : Outcome :=
  if stored.status.isTerminal then ⟨.keep, stored.version, now, false⟩
  else
    match live with
    | none => ⟨.abandoned stored.status, stored.version, now, true⟩
    | some live =>
        let at_ := live.observedAtEpochMs
        let abandon : Outcome := ⟨.abandoned stored.status, stored.version, at_, true⟩
        let kept : Outcome := ⟨.keep, stored.version, at_, false⟩
        let changed (fate : Fate) : Outcome := ⟨fate, max stored.version (live.changedAt stored.id), at_, false⟩
        match live.held stored.id stored.kind with
        | .pending | .unknown => if live.ended && stored.status ≠ .submitting then abandon else kept
        | .resolved resolution => changed (.resolve resolution)
        | .closed status reason => changed (.closing stored.status status reason)
        | .absent => abandon

def closedLifecycle (status : RequestStatus) (reason : CloseReason) (resolvedAtEpochMs : ℕ)
    (kept : Option RequestResolution) : RequestLifecycle :=
  match status with
  | .cancelled => .cancelled reason resolvedAtEpochMs
  | .timedOut => .timedOut reason resolvedAtEpochMs
  | _ => .expired reason resolvedAtEpochMs (kept.filter fun _ => reason = .answerUnconfirmed)

/-- A stored request as the session has left it. -/
def overlaid (wire : Wire) (stored : RequestParts) (live : Option TurnLive) (now : ℕ) : RequestParts :=
  let outcome := outcome ⟨stored.id, stored.body.kind, stored.lifecycle.status, stored.version⟩ live now
  match outcome.fate with
  | .keep => stored
  | .resolve resolution =>
      (newRequest wire { stored with
        lifecycle := .resolved .unknown outcome.atEpochMs resolution
        version := outcome.version }).getD stored
  | .close status reason =>
      (newRequest wire { stored with
        lifecycle := closedLifecycle status reason outcome.atEpochMs stored.lifecycle.resolution
        version := outcome.version }).getD stored

/-- A request of the session that is not stored. -/
def liveOnly (wire : Wire) (request : ObservedRequest) (turnId : String) (order : ℕ)
    (live : TurnLive) : Option RequestParts :=
  let at_ := live.observedAtEpochMs
  newRequest wire
    { id := request.id
      turnId := turnId
      provider := request.provider
      createdAtEpochMs := live.firstSeenAt request.id
      order := order
      version := live.changedAt request.id
      body := request.body
      lifecycle := match request.state with
        | .pending => if live.ended then closedLifecycle .expired .turnEnded at_ none else .pending
        | .resolved resolution => .resolved .unknown at_ resolution
        | .closed status reason => closedLifecycle status.status reason at_ none }

structure Candidate where
  id : String
  order : ℕ
  version : ℕ
  isOpen : Bool
  estimate : ℕ
  liveOnly : Option ℕ
  abandoned : Bool

/-- The place of a candidate in its turn. -/
def Candidate.place (candidate : Candidate) : ℕ ×ₗ String := toLex (candidate.order, candidate.id)

def Candidate.follows (candidate : Candidate) (after : Option (ℕ × String)) : Bool :=
  after.all fun after => toLex after < candidate.place

def storedCandidate (wire : Wire) (entry : StoredEntry) (live : Option TurnLive) (now : ℕ) : Candidate :=
  let outcome := outcome ⟨entry.requestId, entry.kind, entry.status, entry.version⟩ live now
  let (isOpen, answer) := match outcome.fate with
    | .keep => (!entry.status.isTerminal, 0)
    | .resolve resolution => (false, wire.resolutionBytes resolution)
    | .close _ _ => (false, 0)
  ⟨entry.requestId, entry.order, outcome.version, isOpen, entry.bytes + answer, none, outcome.abandoned⟩

def liveCandidate (wire : Wire) (index : ℕ) (request : ObservedRequest) (order : ℕ) (live : TurnLive) : Candidate :=
  let answer := match request.state with
    | .resolved resolution => wire.resolutionBytes resolution
    | .pending | .closed _ _ => 0
  ⟨request.id, order, live.changedAt request.id, request.state = .pending && !live.ended,
    wire.bodyBytes request.body + answer, some index, live.ended && request.state = .pending⟩

/-- The requests of a session that are not stored, with their positions. -/
def unsaved (entries : List StoredEntry) (live : TurnLive) : List (ObservedRequest × ℕ) :=
  live.requests.zipIdx.filter fun listed => listed.1.id ∉ entries.map (·.requestId)

def firstOrder (entries : List StoredEntry) : ℕ := (entries.map (·.order + 1)).max?.getD 0

/-- The requests of a session that are not stored, as they are listed after the stored ones. -/
def provisional (wire : Wire) (entries : List StoredEntry) (live : TurnLive) : List Candidate :=
  (unsaved entries live).zipIdx.map fun listed =>
    liveCandidate wire listed.1.2 listed.1.1 (firstOrder entries + listed.2) live

def candidates (wire : Wire) (entries : List StoredEntry) (live : Option TurnLive) (now : ℕ) : List Candidate :=
  (entries.map (fun entry => storedCandidate wire entry live now) ++
      live.elim [] (provisional wire entries)).insertionSort
    fun left right => left.place ≤ right.place

/-- `TurnView::record`. -/
def recordOf (wire : Wire) (database : RequestDatabase) (key : TurnKey) (live : Option TurnLive)
    (now : ℕ) (candidate : Candidate) : Option RequestParts :=
  match candidate.liveOnly with
  | some index =>
      live.bind fun live => live.requests[index]?.bind fun request =>
        liveOnly wire request key.turnId candidate.order live
  | none =>
      (loadRequest wire database key candidate.id).map fun stored => overlaid wire stored live now

variable {database : RequestDatabase} {key : TurnKey}

section Requests

variable {wire : Wire}

variable {request parts : RequestParts}

lemma newRequest_eq_some (h : newRequest wire parts = some request) : request = parts := by
  unfold newRequest at h
  dsimp only at h
  split_ifs at h
  split at h
  · split_ifs at h
    exact (some.inj h).symm
  · exact (some.inj h).symm

lemma decodeRow_ids {key} {row}
    (h : decodeRow wire key row = some request) :
    request.id = key.requestId ∧ request.turnId = key.turnId := by
  unfold decodeRow at h
  split_ifs at h
  obtain ⟨status, -, h⟩ := bind_eq_some_iff.1 h
  obtain ⟨lifecycle, -, h⟩ := bind_eq_some_iff.1 h
  obtain ⟨⟨provider, body⟩, -, h⟩ := bind_eq_some_iff.1 h
  dsimp only at h
  split_ifs at h
  obtain ⟨createdAt, -, h⟩ := bind_eq_some_iff.1 h
  obtain ⟨order, -, h⟩ := bind_eq_some_iff.1 h
  obtain ⟨version, -, h⟩ := bind_eq_some_iff.1 h
  obtain rfl := newRequest_eq_some h
  exact ⟨rfl, rfl⟩

lemma loadRequest_ids {requestId}
    (h : loadRequest wire database key requestId = some request) :
    request.id = requestId ∧ request.turnId = key.turnId := by
  obtain ⟨row, -, hrow⟩ := bind_eq_some_iff.1 h
  exact decodeRow_ids hrow

variable (wire) in
lemma overlaid_ids (stored) (live) (now : ℕ) :
    (overlaid wire stored live now).id = stored.id ∧ (overlaid wire stored live now).turnId = stored.turnId := by
  have hkept {parts} (hid : parts.id = stored.id) (hturn : parts.turnId = stored.turnId) :
      ((newRequest wire parts).getD stored).id = stored.id ∧
        ((newRequest wire parts).getD stored).turnId = stored.turnId := by
    cases hnew : newRequest wire parts with
    | none => exact ⟨rfl, rfl⟩
    | some request =>
      obtain rfl := newRequest_eq_some hnew
      exact ⟨hid, hturn⟩
  unfold overlaid
  dsimp only
  split
  · exact ⟨rfl, rfl⟩
  · exact hkept rfl rfl
  · exact hkept rfl rfl

lemma liveOnly_ids {request} {turnId} {order} {live}
    (h : liveOnly wire request turnId order live = some parts) :
    parts.id = request.id ∧ parts.turnId = turnId := by
  obtain rfl := newRequest_eq_some h
  exact ⟨rfl, rfl⟩

end Requests

section Listed

variable {wire : Wire} {entries : List StoredEntry} {live : Option TurnLive} {now : ℕ}

lemma storedCandidate_id (entry) :
    (storedCandidate wire entry live now).id = entry.requestId ∧
      (storedCandidate wire entry live now).order = entry.order ∧
      (storedCandidate wire entry live now).liveOnly = none :=
  ⟨rfl, rfl, rfl⟩

lemma ids_provisional (live : TurnLive) :
    (provisional wire entries live).map (·.id) =
      (live.requests.map (·.id)).filter fun id => id ∉ entries.map (·.requestId) := by
  unfold provisional unsaved
  rw [List.map_map]
  have hids : ((fun candidate : Candidate => candidate.id) ∘ fun listed : (ObservedRequest × ℕ) × ℕ =>
      liveCandidate wire listed.1.2 listed.1.1 (firstOrder entries + listed.2) live) =
        (fun listed : ObservedRequest × ℕ => listed.1.id) ∘ Prod.fst := rfl
  rw [hids, ← List.map_map, List.zipIdx_map_fst]
  have hfst : live.requests.map (·.id) = live.requests.zipIdx.map fun listed => listed.1.id := by
    rw [← List.zipIdx_map_fst 0 live.requests, List.map_map]
    exact congrArg _ (by rw [zipIdx_map_fst])
  rw [hfst, List.filter_map]
  rfl

lemma perm_candidates :
    (candidates wire entries live now).Perm
      (entries.map (fun entry => storedCandidate wire entry live now) ++ live.elim [] (provisional wire entries)) :=
  perm_insertionSort _ _

/-- The ids of what is listed: those that are stored, and those of the session that are not. -/
lemma ids_candidates :
    ((candidates wire entries live now).map (·.id)).Perm
      (entries.map (·.requestId) ++ (live.elim [] fun live =>
        (live.requests.map (·.id)).filter fun id => id ∉ entries.map (·.requestId))) := by
  refine (perm_candidates.map _).trans (Perm.of_eq ?_)
  rw [List.map_append, List.map_map]
  refine congrArg₂ _ (map_congr_left fun entry _ => (storedCandidate_id entry).1) ?_
  cases live with
  | none => rfl
  | some live => exact ids_provisional live

theorem nodup_candidates (hstore : (entries.map (·.requestId)).Nodup)
    (hlive : ∀ session, live = some session → (session.requests.map (·.id)).Nodup) :
    ((candidates wire entries live now).map (·.id)).Nodup := by
  rw [ids_candidates.nodup_iff]
  refine nodup_append.2 ⟨hstore, ?_, ?_⟩
  · cases live with
    | none => exact nodup_nil
    | some session => exact (hlive session rfl).filter _
  · intro id hid other hoth heq
    cases live with
    | none => cases hoth
    | some session =>
      obtain ⟨-, hnot⟩ := mem_filter.1 hoth
      rw [heq] at hid
      exact absurd hid (of_decide_eq_true hnot)

/-- **The candidates are listed by their places.** -/
theorem pairwise_candidates (hids : ((candidates wire entries live now).map (·.id)).Nodup) :
    (candidates wire entries live now).Pairwise fun left right => left.place < right.place := by
  have hle : (candidates wire entries live now).Pairwise fun left right => left.place ≤ right.place :=
    pairwise_insertionSort _ _
  have hne : (candidates wire entries live now).Pairwise fun left right => left.id ≠ right.id := pairwise_map.1 hids
  refine (hle.and hne).imp fun hboth => lt_of_le_of_ne hboth.1 fun heq => hboth.2 ?_
  exact congrArg (fun place => (ofLex place).2) heq

variable {candidate : Candidate}

lemma candidate_liveOnly (h : candidate ∈ candidates wire entries live now) {index}
    (hidx : candidate.liveOnly = some index) :
    ∃ session request, live = some session ∧ session.requests[index]? = some request ∧ request.id = candidate.id := by
  rcases mem_append.1 (perm_candidates.mem_iff.1 h) with hstore | hlive
  · obtain ⟨entry, -, rfl⟩ := mem_map.1 hstore
    cases hidx
  · cases live with
    | none => cases hlive
    | some session =>
      obtain ⟨⟨⟨request, position⟩, offset⟩, hmem, rfl⟩ := mem_map.1 hlive
      cases hidx
      have hunsaved := fst_mem_of_mem_zipIdx hmem
      have hlist := (mem_filter.1 hunsaved).1
      exact ⟨session, request, rfl, mem_zipIdx_iff_getElem?.1 hlist, rfl⟩

/-- **The record of a candidate is of its request and of the turn.** -/
theorem recordOf_ids (h : candidate ∈ candidates wire entries live now) {record}
    (hrecord : recordOf wire database key live now candidate = some record) :
    record.id = candidate.id ∧ record.turnId = key.turnId := by
  unfold recordOf at hrecord
  split at hrecord
  · rename_i index hidx
    obtain ⟨session, request, rfl, hreq, hid⟩ := candidate_liveOnly h hidx
    rw [bind_some, hreq, bind_some] at hrecord
    have hids := liveOnly_ids hrecord
    exact ⟨hids.1.trans hid, hids.2⟩
  · obtain ⟨stored, hstore, rfl⟩ := map_eq_some_iff.1 hrecord
    have hids := overlaid_ids wire stored live now
    have hload := loadRequest_ids hstore
    exact ⟨hids.1.trans hload.1, hids.2.trans hload.2⟩

end Listed

lemma nodup_entriesOf (database) (key : TurnKey) : ((entriesOf database key).map (·.requestId)).Nodup := by
  have hkeys : ((database.requests.selectWhere fun row stored =>
      row.threadId = key.threadId && row.turnId = key.turnId && isReadable stored).insertionSort
        indexedBefore).Pairwise fun left right => left.1.requestId ≠ right.1.requestId := by
    refine ((perm_insertionSort _ _).pairwise_iff fun hne heq => hne heq.symm).2 ?_
    have hnd := pairwise_map.1 database.requests.nodup
    refine (hnd.filter _).imp_of_mem fun {left right} hleft hrt hne heq => hne ?_
    have hof {entry : RequestKey × RequestRow} (hent : entry ∈ database.requests.selectWhere
        fun row stored => row.threadId = key.threadId && row.turnId = key.turnId && isReadable stored) :
        entry.1 = key.request entry.1.requestId := by
      have htest := (Table.mem_selectWhere.1 hent).2
      rw [Bool.and_eq_true, Bool.and_eq_true, decide_eq_true_iff, decide_eq_true_iff] at htest
      obtain ⟨⟨hthr, hturn⟩, -⟩ := htest
      obtain ⟨⟨threadId, turnId, requestId⟩, row⟩ := entry
      exact congrArg₂ (fun threadId turnId => (⟨threadId, turnId, requestId⟩ : RequestKey)) hthr hturn
    rw [hof hleft, hof hrt, heq]
  unfold entriesOf
  rw [List.Nodup, pairwise_map, pairwise_filterMap]
  refine hkeys.imp fun {left right} hne first hfst second hsnd => ?_
  have hid {entry : RequestKey × RequestRow} {listed : StoredEntry}
      (h : storedEntry entry.1 entry.2 = some listed) : listed.requestId = entry.1.requestId := by
    unfold storedEntry at h
    split at h
    · cases h
      rfl
    · cases h
  rw [hid hfst, hid hsnd]
  exact hne

end CodevoEditor.RuntimeRequests
