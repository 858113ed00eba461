/-
# Every lease is usable

A lease says which number its digest covers, and the client refuses a digest that covers none.
-/

import CodevoEditor.TurnLogStore.LeaseWire
import CodevoEditor.TurnLogStore.Counters

namespace CodevoEditor.TurnLogStore

open Js Sql Runs AgentEvents Domain TurnLogDatabase List Option

variable {ε μ : Type}

/-- What happens to a turn that its leases depend on. -/
inductive LeaseEvent
  | opened (turnId : String)
  | stored (turnId : String) (digest : AgentTurnDigestWire)
  deriving DecidableEq

def LeaseEvent.digestOf (turnId : String) : LeaseEvent → Option AgentTurnDigestWire
  | .opened _ => none
  | .stored other digest => if other = turnId then some digest else none

/-- The last digest of a turn that was stored. -/
def lastStored (turnId : String) (events : List LeaseEvent) : Option AgentTurnDigestWire :=
  (events.filterMap (LeaseEvent.digestOf turnId)).getLast?

def opensOf (turnId : String) (events : List LeaseEvent) : ℕ := events.count (.opened turnId)

lemma lastStored_append (turnId : String) (events more) :
    lastStored turnId (events ++ more) = (lastStored turnId more).or (lastStored turnId events) := by
  unfold lastStored
  rw [filterMap_append, getLast?_append]

lemma lastStored_stored (turnId other : String) (digest) :
    lastStored turnId [.stored other digest] = if other = turnId then some digest else none := by
  simp only [lastStored, filterMap_cons, filterMap_nil, LeaseEvent.digestOf]
  split_ifs
  · rfl
  · rfl

section Serves

variable [DecidableEq μ]

/-- A digest is stored by an append to a turn that is not sealed. -/
def storedBy (codec : LogCodec ε AgentTurnDigestWire μ) (db : TurnLogDatabase AgentTurnDigestWire μ)
    (request : AppendAgentTurnLogRequest ε AgentTurnDigestWire μ) : List LeaseEvent :=
  match (db.storeAppend codec request).1, db.turnMeta.get? request.scope.turnId, request.digest with
  | .ok _, some row, some digest =>
    if row.sealed then [] else [.stored request.scope.turnId digest]
  | _, _, _ => []

/-- An open or an append of a request that both sides find valid. -/
inductive ClientServes (client : ClientCodec ε μ) (codec : LogCodec ε AgentTurnDigestWire μ)
    (allowed : TurnLogDatabase AgentTurnDigestWire μ → AppendAgentTurnLogRequest ε AgentTurnDigestWire μ → Prop) :
    TurnLogDatabase AgentTurnDigestWire μ → List LeaseEvent → TurnLogDatabase AgentTurnDigestWire μ → Prop
  | opened (db : TurnLogDatabase AgentTurnDigestWire μ) (request : OpenAgentTurnLogRequest)
    (hclient : validateOpenAgentTurnLogRequest client request = .ok ())
    (hstore : validateOpenRequest codec request = .ok ()) :
    ClientServes client codec allowed db [.opened request.scope.turnId] (db.storeOpen codec request).2
  | appended (db : TurnLogDatabase AgentTurnDigestWire μ)
    (request : AppendAgentTurnLogRequest ε AgentTurnDigestWire μ)
    (hclient : validateAppendAgentTurnLogRequest client request = .ok ())
    (hstore : validateAppendRequest codec request = .ok ()) (hallow : allowed db request) :
    ClientServes client codec allowed db (storedBy codec db request) (db.storeAppend codec request).2

end Serves

/-- Not a digest without ops for a turn that has no events. -/
def Covers (db : TurnLogDatabase AgentTurnDigestWire μ)
    (request : AppendAgentTurnLogRequest ε AgentTurnDigestWire μ) : Prop :=
  request.digest.isSome → request.ops = [] →
    ∀ row, db.turnMeta.get? request.scope.turnId = some row → row.sealed = false → row.nextSeq ≠ agentTurnLogSeqBase

/-- **The digest of a turn covers what its number says**, and both sides find it valid. -/
structure DigestHeld (client : ClientCodec ε μ) (codec : LogCodec ε AgentTurnDigestWire μ)
    (digest : Option AgentTurnDigestWire) (throughSeq : ℤ) : Prop where
  covers : if digest = none then throughSeq = 0 else 1 ≤ throughSeq
  valid : ∀ found ∈ digest, validateDigest codec found = .ok ()
  read : ∀ path, optionalDigest client (nullable digestValue digest) path = .ok digest

/-- What is known of the row of a turn, by the events so far. -/
structure RowUsable (client : ClientCodec ε μ) (codec : LogCodec ε AgentTurnDigestWire μ)
    (events : List LeaseEvent) (turnId : String) (row : TurnMetaRow AgentTurnDigestWire μ) : Prop where
  held : DigestHeld client codec row.digest row.digestThroughSeq
  digest_eq : row.digest = lastStored turnId events
  epoch_le : row.writerEpoch ≤ opensOf turnId events

/-- **The invariant of a run.** -/
structure Usable (client : ClientCodec ε μ) (codec : LogCodec ε AgentTurnDigestWire μ)
    (events : List LeaseEvent) (db : TurnLogDatabase AgentTurnDigestWire μ) : Prop where
  sound : db.Sound
  countable : db.Countable
  rows : ∀ turnId row, db.turnMeta.get? turnId = some row → RowUsable client codec events turnId row
  absent : ∀ turnId, db.turnMeta.get? turnId = none → lastStored turnId events = none

section Steps

variable {client : ClientCodec ε μ} {codec : LogCodec ε AgentTurnDigestWire μ}
  {events : List LeaseEvent} {db next : TurnLogDatabase AgentTurnDigestWire μ}

lemma DigestHeld.none : DigestHeld client codec none 0 := by
  refine ⟨?_, fun found hget => ?_, fun _ => rfl⟩
  · rw [if_pos rfl]
  · cases hget

variable {row : TurnMetaRow AgentTurnDigestWire μ} {more : List LeaseEvent}

lemma RowUsable.append {turnId} (h : RowUsable client codec events turnId row)
    (hmore : lastStored turnId more = none) :
    RowUsable client codec (events ++ more) turnId row := by
  refine ⟨h.held, ?_, ?_⟩
  · rw [lastStored_append, hmore, none_or]
    exact h.digest_eq
  · have hle := h.epoch_le
    unfold opensOf at hle ⊢
    rw [count_append]
    omega

lemma opensOf_opened (turnId : String) (events) :
    opensOf turnId (events ++ [.opened turnId]) = opensOf turnId events + 1 := by
  unfold opensOf
  rw [count_append, count_singleton_self]

lemma Usable.opened (h : Usable client codec events db) (request)
    (hstore : validateOpenRequest codec request = .ok ()) :
    Usable client codec (events ++ [.opened request.scope.turnId]) (db.storeOpen codec request).2 := by
  have hnext : (db.storeOpen codec request).2 = db.putTurnMeta request.scope.turnId (db.openedRow request) := by
    rcases storeOpen_spec codec db request with ⟨error, heq⟩ | ⟨heq, -⟩
    · unfold storeOpen at heq
      rw [hstore] at heq
      have hrow : (db.openLease request).2 = db := (Prod.mk.inj heq).2
      unfold storeOpen
      rw [hstore]
      rfl
    · exact heq
  have hnone : ∀ turnId, lastStored turnId [.opened request.scope.turnId] = none := fun _ => rfl
  refine ⟨h.sound.storeOpen codec request, ?_, fun turnId row hrow => ?_, fun turnId habsent => ?_⟩
  · rw [hnext]
    exact h.countable.putTurnMeta (h.countable.openedRow request)
  · rw [hnext, get?_putTurnMeta] at hrow
    split_ifs at hrow with hturn
    · cases hrow
      rw [hturn]
      cases hget : db.turnMeta.get? request.scope.turnId with
      | none =>
        have hopen : db.openedRow request = freshRow request.priorLoss request.prompt := by
          unfold TurnLogDatabase.openedRow
          rw [hget]
        rw [hopen]
        refine ⟨.none, ?_, ?_⟩
        · rw [lastStored_append, hnone, none_or, h.absent _ hget]
          rfl
        · rw [opensOf_opened]
          change (1 : ℤ) ≤ _
          omega
      | some existing =>
        rw [openedRow_of_get? request hget]
        have hrow := h.rows _ existing hget
        refine ⟨hrow.held, (hrow.append (hnone _)).digest_eq, ?_⟩
        rw [opensOf_opened]
        change existing.writerEpoch + 1 ≤ _
        have hle := hrow.epoch_le
        omega
    · exact (h.rows turnId row hrow).append (hnone turnId)
  · rw [hnext, get?_putTurnMeta] at habsent
    split_ifs at habsent
    rw [lastStored_append, hnone, none_or]
    exact h.absent turnId habsent

variable {request : AppendAgentTurnLogRequest ε AgentTurnDigestWire μ}

lemma digestHeld_of_request (hclient : validateAppendAgentTurnLogRequest client request = .ok ())
    (hstore : validateAppendRequest codec request = .ok ()) {digest}
    (hdigest : request.digest = some digest) {throughSeq} (hpos : 1 ≤ throughSeq) :
    DigestHeld client codec (some digest) throughSeq := by
  obtain ⟨-, -, hstore⟩ := bind_eq_ok.1 hstore
  obtain ⟨-, -, hstore⟩ := bind_eq_ok.1 hstore
  obtain ⟨-, -, hstore⟩ := bind_eq_ok.1 hstore
  obtain ⟨-, -, hstore⟩ := bind_eq_ok.1 hstore
  obtain ⟨-, -, hstore⟩ := bind_eq_ok.1 hstore
  rw [hdigest] at hstore
  obtain ⟨expected, -, hclient⟩ := bind_eq_ok.1 hclient
  obtain ⟨checked, -, hclient⟩ := bind_eq_ok.1 hclient
  by_cases hscope : client.acceptsScope request.scope
  · rw [if_neg (not_not.2 hscope)] at hclient
    obtain ⟨epoch, -, hclient⟩ := bind_eq_ok.1 hclient
    obtain ⟨parsed, hparsed, -⟩ := bind_eq_ok.1 hclient
    rw [hdigest] at hparsed
    refine ⟨?_, fun found hget => ?_, (readsBack_optionalDigest client (some digest) _ _ hparsed).2⟩
    · rw [if_neg (some_ne_none digest)]
      exact hpos
    · cases hget
      exact hstore
  · rw [if_pos hscope] at hclient
    cases hclient

lemma nextSeq_of_covers {ops}
    (hrow : db.turnMeta.get? request.scope.turnId = some row) (hunseal : row.sealed = false)
    (hlog : db.LogOk request.scope.turnId row) (hcover : Covers db request)
    (hops : ops = request.ops.map fun entry => ⟨entry.seq, codec.eventKindCode entry.event,
      codec.encodeEvent entry.event⟩)
    (hpos : ∀ op ∈ request.ops, agentTurnLogSeqBase ≤ op.seq)
    (hdigest : request.digest.isSome) :
    1 ≤ row.nextSeq + (newOps ops row.nextSeq).length - 1 := by
  have hnextSeq := hlog.nextSeq_pos
  by_cases hemp : request.ops = []
  · have hne := hcover hdigest hemp row hrow hunseal
    unfold agentTurnLogSeqBase at hne
    omega
  · by_cases hfst : row.nextSeq = 1
    · obtain ⟨op, rest, hcons⟩ := exists_cons_of_ne_nil hemp
      have hseq := hpos op (hcons ▸ mem_cons_self)
      have hnew : (⟨op.seq, codec.eventKindCode op.event, codec.encodeEvent op.event⟩ : EncodedOp) ∈
          newOps ops row.nextSeq := by
        refine mem_filter.2 ⟨?_, decide_eq_true ?_⟩
        · rw [hops, hcons]
          exact mem_cons_self
        · rw [hfst]
          exact hseq
      have hlen := length_pos_of_mem hnew
      omega
    · omega

variable [DecidableEq μ]

lemma Usable.appended (h : Usable client codec events db)
    (hclient : validateAppendAgentTurnLogRequest client request = .ok ())
    (hstore : validateAppendRequest codec request = .ok ()) (hcover : Covers db request) :
    Usable client codec (events ++ storedBy codec db request) (db.storeAppend codec request).2 := by
  have hsound := h.sound.storeAppend codec request
  have hcountable := h.countable.storeAppend codec h.sound request
  rcases storeAppend_spec codec h.sound request with
    ⟨error, heq⟩ | ⟨receipt, row, next, heq, hrow, -, hstep⟩
  · have hnothing : storedBy codec db request = [] := by
      unfold storedBy
      rw [heq]
    rw [hnothing, append_nil, heq]
    exact h
  · have hoth : ∀ turnId ≠ request.scope.turnId, lastStored turnId (storedBy codec db request) = none := by
      intro turnId hne
      unfold storedBy
      rw [heq, hrow]
      cases request.digest with
      | none => rfl
      | some digest =>
        dsimp only
        split_ifs
        · rfl
        · rw [lastStored_stored, if_neg (Ne.symm hne)]
    have hrows : ∀ turnId ≠ request.scope.turnId, ∀ found, next.turnMeta.get? turnId = some found →
        RowUsable client codec (events ++ storedBy codec db request) turnId found := by
      intro turnId hne found hget
      rw [(hstep.frame hne).1] at hget
      exact (h.rows turnId found hget).append (hoth turnId hne)
    have habsent : ∀ turnId, next.turnMeta.get? turnId = none →
        lastStored turnId (events ++ storedBy codec db request) = none := by
      intro turnId hnone
      obtain ⟨after, haft, -⟩ := hstep.epoch hrow
      have hne : turnId ≠ request.scope.turnId := by
        rintro rfl
        rw [haft] at hnone
        cases hnone
      rw [(hstep.frame hne).1] at hnone
      rw [lastStored_append, hoth turnId hne, none_or]
      exact h.absent turnId hnone
    have hpre := h.rows _ row hrow
    rw [heq] at hsound hcountable ⊢
    refine ⟨hsound, hcountable, fun turnId found hget => ?_, habsent⟩
    by_cases hne : turnId = request.scope.turnId
    · subst hne
      rcases hstep with ⟨hsealed⟩ | ⟨lifecycle, hsealed⟩ | ⟨ops, after, _, hunseal, hops, hexpected, hok, happended⟩
      · obtain rfl := some.inj (hrow.symm.trans hget)
        refine hpre.append ?_
        unfold storedBy
        rw [heq, hrow]
        cases request.digest with
        | none => rfl
        | some digest =>
          dsimp only
          rw [if_pos hsealed]
          rfl
      · rw [get?_putTurnMeta, if_pos rfl] at hget
        cases hget
        have hnothing : lastStored request.scope.turnId (storedBy codec db request) = none := by
          unfold storedBy
          rw [heq, hrow]
          cases request.digest with
          | none => rfl
          | some digest =>
            dsimp only
            rw [if_pos hsealed]
            rfl
        have hkept := hpre.append hnothing
        exact ⟨hkept.held, hkept.digest_eq, hkept.epoch_le⟩
      · obtain ⟨middle, -, hmid⟩ := happended.wrote
        rw [hmid, get?_putTurnMeta, if_pos rfl] at hget
        cases hget
        obtain ⟨bytes, firstSeq, haft⟩ := happended.after_eq
        have hpos := (storeAppend_counters heq).1
        have hepoch : found.writerEpoch = row.writerEpoch := by
          rw [haft]
          rfl
        cases hdigest : request.digest with
        | none =>
          have hnothing : storedBy codec db request = [] := by
            unfold storedBy
            rw [heq, hrow, hdigest]
          rw [hnothing, append_nil]
          have hheld : found.digest = row.digest ∧ found.digestThroughSeq = row.digestThroughSeq := by
            rw [haft]
            unfold TurnLogDatabase.appended
            rw [hdigest]
            exact ⟨rfl, rfl⟩
          refine ⟨?_, ?_, ?_⟩
          · rw [hheld.1, hheld.2]
            exact hpre.held
          · rw [hheld.1]
            exact hpre.digest_eq
          · rw [hepoch]
            exact hpre.epoch_le
        | some digest =>
          have hstored : storedBy codec db request = [.stored request.scope.turnId digest] := by
            unfold storedBy
            rw [heq, hrow, hdigest]
            dsimp only
            rw [hunseal]
            rfl
          have hlast : lastStored request.scope.turnId [.stored request.scope.turnId digest] = some digest := by
            rw [lastStored_stored, if_pos rfl]
          have hthrough := nextSeq_of_covers hrow hunseal (h.sound.logs _ _ hrow) hcover hops hpos
            (by rw [hdigest]; rfl)
          have hheld : found.digest = some digest ∧
              found.digestThroughSeq = row.nextSeq + (newOps ops row.nextSeq).length - 1 := by
            rw [haft]
            unfold TurnLogDatabase.appended
            rw [hdigest]
            exact ⟨rfl, rfl⟩
          rw [hstored]
          refine ⟨?_, ?_, ?_⟩
          · rw [hheld.1, hheld.2]
            exact digestHeld_of_request hclient hstore hdigest hthrough
          · rw [hheld.1, lastStored_append, hlast]
            rfl
          · rw [hepoch]
            have hle := hpre.epoch_le
            unfold opensOf at hle ⊢
            rw [count_append]
            omega
    · exact hrows turnId hne found hget

lemma Usable.step (h : Usable client codec events db)
    (hstep : ClientServes client codec Covers db more next) :
    Usable client codec (events ++ more) next := by
  rcases hstep with ⟨request, -, hstore⟩ | ⟨request, hclient, hstore, hcover⟩
  · exact h.opened request hstore
  · exact h.appended hclient hstore hcover

end Steps

/-- **Every lease is usable** after every run that brings no digest without ops to a turn without
events: it can be read and holds the last digest. -/
theorem leases_are_usable [DecidableEq μ] (client : ClientCodec ε μ)
    (codec : LogCodec ε AgentTurnDigestWire μ) {events : List LeaseEvent}
    {db : TurnLogDatabase AgentTurnDigestWire μ}
    (h : Reaches (ClientServes client codec Covers) .empty events db)
    (request : OpenAgentTurnLogRequest) (hvalid : validateOpenRequest codec request = .ok ())
    (hopens : opensOf request.scope.turnId events < Js.maxSafeInteger) :
    (db.storeOpen codec request).1 = .ok (db.openLease request).1 ∧
      parseAgentTurnLogLease client (leaseValue (db.openLease request).1) = .ok (db.openLease request).1 ∧
      (db.openLease request).1.digest = lastStored request.scope.turnId events := by
  have husable := h.trace (P := Usable client codec) (fun _ _ _ _ hs hstep => hs.step hstep)
    ⟨.empty, .empty, fun _ _ hrow => (by cases hrow), fun _ _ => rfl⟩
  have hopen := husable.opened request hvalid
  have hrow : (db.storeOpen codec request).2.turnMeta.get? request.scope.turnId = some (db.openedRow request) := by
    unfold storeOpen
    rw [hvalid]
    unfold openLease
    rw [get?_putTurnMeta, if_pos rfl]
    rfl
  have hlease : (db.openLease request).1 = (db.openedRow request).lease := rfl
  have hfound := hopen.rows _ _ hrow
  have hlog := hopen.sound.logs _ _ hrow
  have hcounter := hopen.countable.nextSeq_le _ _ hrow
  have hepoch := hfound.epoch_le
  rw [opensOf_opened] at hepoch
  have hpos := hlog.nextSeq_pos
  have hthrough := hlog.digest_le
  refine ⟨?_, ?_, ?_⟩
  · have hcheck : validateLease codec (db.openedRow request).lease = .ok () := by
      have hcover := hfound.held.covers
      unfold validateLease TurnMetaRow.lease
      dsimp only
      rw [if_neg (by
        have := hlog.epoch_pos
        unfold agentTurnLogSeqBase
        omega)]
      cases hdigest : (db.openedRow request).digest with
      | none =>
        rw [if_pos hdigest] at hcover
        exact if_neg (not_not.2 hcover)
      | some digest =>
        rw [hdigest, if_neg (some_ne_none digest)] at hcover
        refine bind_eq_ok.2 ⟨(), hfound.held.valid digest hdigest, ?_⟩
        rw [if_neg (by
          unfold agentTurnLogSeqBase
          omega)]
    unfold storeOpen
    rw [hvalid]
    dsimp only
    rw [hlease, hcheck]
    rfl
  · have hmax : maxLogCounter = Js.maxSafeInteger := rfl
    refine parseAgentTurnLogLease_leaseValue client ⟨hlog.epoch_pos, ?_⟩ ⟨hpos, ?_⟩ hfound.held.read
      hthrough hfound.held.covers
    · change (db.openedRow request).writerEpoch ≤ _
      omega
    · change (db.openedRow request).nextSeq ≤ _
      omega
  · change (db.openedRow request).digest = _
    rw [hfound.digest_eq, lastStored_append]
    rfl

/-- Events are their JSON texts. -/
def sampleClient : ClientCodec String Unit where
  acceptsScope _ := true
  acceptsEvent _ := true
  acceptsLifecycle _ := true
  opsBytes ops := if ops.isEmpty then 2 else
    (ops.map fun op => op.event.utf8ByteSize + 17 + (toString op.seq).length).sum + ops.length + 1
  digestBytes _ := 106

def digestCodec : LogCodec String AgentTurnDigestWire Unit where
  encodeEvent event := event.toUTF8.toList
  eventKindCode _ := 8
  validEvent _ := true
  validScope _ := true
  validDigest _ := true
  validLifecycle _ := true

def sampleOpen : OpenAgentTurnLogRequest := ⟨sampleScope, noLoss, none⟩

def digestLog : TurnLogDatabase AgentTurnDigestWire Unit := (empty.storeOpen digestCodec sampleOpen).2

/-- One event, with the digest of a turn that has read nothing. -/
def firstAppend : AppendAgentTurnLogRequest String AgentTurnDigestWire Unit :=
  ⟨sampleScope, 1, 1, [⟨1, "one"⟩], some (emptyAgentTurnDigest .codex), false, noLoss, none⟩

/-- What the writer sends of a turn that has a lifecycle and no events. -/
def lifecycleAppend : AppendAgentTurnLogRequest String AgentTurnDigestWire Unit :=
  ⟨sampleScope, 1, 1, [], some (emptyAgentTurnDigest .codex), false, noLoss, some ()⟩

theorem leases_are_usable_after_one :
    parseAgentTurnLogLease sampleClient
      (leaseValue ((digestLog.storeAppend digestCodec firstAppend).2.openLease sampleOpen).1) =
        .ok ⟨2, 2, some (emptyAgentTurnDigest .codex), 1⟩ := by
  have hcover : Covers digestLog firstAppend := nofun
  have hrun : Reaches (ClientServes sampleClient digestCodec Covers) empty
      ([.opened "turn-1"] ++ storedBy digestCodec digestLog firstAppend)
      (digestLog.storeAppend digestCodec firstAppend).2 :=
    (Reaches.single (.opened empty sampleOpen rfl rfl)).trans
      (.single (.appended digestLog firstAppend (by decide +kernel) (by decide +kernel) hcover))
  have husable := leases_are_usable sampleClient digestCodec hrun sampleOpen rfl (by decide +kernel)
  refine husable.2.1.trans ?_
  decide +kernel

/-- **A digest that covers nothing.** -/
theorem append_without_ops_blocks_the_turn :
    (∃ events, Reaches (ClientServes sampleClient digestCodec fun _ _ => True) empty events
      (digestLog.storeAppend digestCodec lifecycleAppend).2) ∧
    ((digestLog.storeAppend digestCodec lifecycleAppend).2.storeOpen digestCodec sampleOpen).1 = .error .unreadable ∧
    parseAgentTurnLogLease sampleClient
      (leaseValue ((digestLog.storeAppend digestCodec lifecycleAppend).2.openLease sampleOpen).1) =
        .error (.invalid (js "lease.digestThroughSeq") (js "the sequence the digest covers")) := by
  refine ⟨⟨_, (Reaches.single (.opened empty sampleOpen rfl rfl)).trans
    (.single (.appended digestLog lifecycleAppend (by decide +kernel) (by decide +kernel) trivial))⟩, ?_, ?_⟩
  · decide +kernel
  · decide +kernel

end CodevoEditor.TurnLogStore
