/-
# The cache of request reads

`src-tauri/src/remote_runner/thread_requests_cache.rs`: the reads of tasks that are kept, and the
generation of the pages.  Each operation holds the lock, so it is one step.

`size` is the bytes of a read as JSON, if it can be written.  The threads that were rebuilt, which
share nothing with the rest but the clock, are left out.
-/

import CodevoEditor.RemoteRunner.TaskEvidence
import Mathlib.Algebra.Order.BigOperators.Group.List
import Mathlib.Algebra.Order.Group.Nat

namespace CodevoEditor.RemoteRunner

open Js List

/-- Instants are milliseconds. -/
def bumpInterval : ℕ := 30 * 1000

structure TurnDescriptor where
  turnId : String
  interactionSequence : Option ℕ
  terminal : Bool

structure TurnRead extends RemoteInteractions where
  afterEnd : Bool

namespace TurnRead

variable (read : TurnRead)

/-- `open`, which is what `holds_open_request` says of the read. -/
def isOpen : Bool :=
  (read.questions.any fun question => decide (question.status = .pending)) ||
    read.approvals.any fun approval => decide (approval.status = .pending)

def isCacheable : Bool :=
  match read.source, read.afterEnd with
  | .legacy, false => false
  | .snapshot, false => true
  | _, true => !read.isOpen

def serves (turn : TurnDescriptor) : Bool :=
  if turn.terminal && read.isOpen then false
  else
    match read.source, turn.interactionSequence with
    | .snapshot, some requested => decide (requested ≤ read.sequence)
    | _, _ => turn.terminal && read.afterEnd

end TurnRead

structure Entry where
  read : TurnRead
  bytes : ℕ
  touched : ℕ

structure Entries where
  maxTasks : ℕ
  maxBytes : ℕ
  clock : ℕ
  bytes : ℕ
  tasks : OrderedMap String Entry
  observed : Option InteractionSource
  generation : ℕ
  bumpRequested : Bool
  lastBump : Option ℕ

namespace Entries

def withLimits (maxTasks maxBytes : ℕ) : Entries := ⟨maxTasks, maxBytes, 0, 0, .empty, none, 0, false, none⟩

variable (size : RemoteInteractions → Option ℕ) (entries : Entries)

def bumpIsDue (now : ℕ) : Bool :=
  entries.bumpRequested && !(entries.lastBump.any fun last => decide (now - last < bumpInterval))

def remove (task : String) : Entries :=
  match entries.tasks.get? task with
  | none => entries
  | some entry => { entries with bytes := entries.bytes - entry.bytes, tasks := entries.tasks.delete task }

def observe (source : InteractionSource) : Entries :=
  let switched := entries.observed.any fun observed => decide (observed ≠ source)
  let tasks : OrderedMap String Entry :=
    ⟨entries.tasks.entries.filter fun entry => entry.2.read.source = source,
      entries.tasks.nodup.sublist (filter_sublist.map _)⟩
  { entries with
    generation := if switched then entries.generation + 1 else entries.generation
    bumpRequested := entries.bumpRequested && !switched
    observed := some source
    tasks := tasks
    bytes := tasks.total Entry.bytes }

def isOver : Bool := decide (entries.maxTasks < entries.tasks.size ∨ entries.maxBytes < entries.bytes)

/-- The loop of `evict`, so many times at most. -/
def evictTimes : ℕ → Entries → Entries
  | 0, entries => entries
  | times + 1, entries =>
      if entries.isOver then
        match entries.tasks.entries.argmin fun entry => entry.2.touched with
        | none => entries
        | some (task, _) => evictTimes times (entries.remove task)
      else entries

/-- A turn of the loop takes one task. -/
def evict : Entries := evictTimes entries.tasks.size entries

def serve (turn : TurnDescriptor) : Option TurnRead × Entries :=
  let touched := entries.clock + 1
  match (entries.tasks.get? turn.turnId).filter fun entry => entry.read.serves turn with
  | none => (none, { entries with clock := touched })
  | some entry =>
      (some entry.read,
        { entries with clock := touched, tasks := entries.tasks.set turn.turnId { entry with touched := touched } })

/-- A newer read of the task is kept. -/
def isNewerThan (read : TurnRead) : Bool :=
  (entries.tasks.get? read.taskId).any fun entry => decide (read.sequence < entry.read.sequence)

/-- The bytes of a read that may be kept. -/
def bytesOf (read : TurnRead) : Option ℕ :=
  (if read.isCacheable then size read.toRemoteInteractions else none).filter fun bytes =>
    decide (bytes ≤ entries.maxBytes)

/-- What a read leaves of the table, before the read is in it. -/
def cleared (read : TurnRead) : Entries := (entries.observe read.source).remove read.taskId

def insert (read : TurnRead) (bytes : ℕ) : Entries :=
  let touched := entries.clock + 1
  { entries with
    clock := touched
    bytes := entries.bytes + bytes
    tasks := entries.tasks.set read.taskId ⟨read, bytes, touched⟩ }

def retain (read : TurnRead) : Entries :=
  if (entries.observe read.source).isNewerThan read then entries.observe read.source
  else
    match entries.bytesOf size read with
    | none => entries.cleared read
    | some bytes => ((entries.cleared read).insert read bytes).evict

def rebuild (now : ℕ) : Entries :=
  if entries.bumpIsDue now then
    { entries with generation := entries.generation + 1, bumpRequested := false, lastBump := some now }
  else entries

def requestBump : Entries := { entries with bumpRequested := true }

/-! ### Runs -/

/-- What is done to the cache; `forget` is `remove`. -/
inductive Event
  | serve (turn : TurnDescriptor)
  | retain (read : TurnRead)
  | rebuild (now : ℕ)
  | requestBump
  | forget (task : String)

def step : Event → Entries
  | .serve turn => (entries.serve turn).2
  | .retain read => entries.retain size read
  | .rebuild now => entries.rebuild now
  | .requestBump => entries.requestBump
  | .forget task => entries.remove task

def after (events : List Event) : Entries := events.foldl (step size) entries

/-- What makes a read that is kept worthless. -/
def Event.Supersedes (read : TurnRead) : Event → Prop
  | .retain newer =>
      newer.source ≠ read.source ∨ newer.taskId = read.taskId ∧ read.sequence ≤ newer.sequence
  | .forget task => task = read.taskId
  | _ => False

/-- Events have retained a read that may be kept, and none of those since makes it worthless. -/
def Stands (events : List Event) (read : TurnRead) : Prop :=
  read.isCacheable ∧
    ∃ done later, events = done ++ .retain read :: later ∧ ∀ event ∈ later, ¬event.Supersedes read

/-- The entries that were touched no earlier are within the limits. -/
def FitsFrom (stamp : ℕ) : Prop :=
  let late := entries.tasks.entries.filter fun entry => decide (stamp ≤ entry.2.touched)
  late.length ≤ entries.maxTasks ∧ (late.map fun entry => entry.2.bytes).sum ≤ entries.maxBytes

/-- With a newer read in the table, what was touched no earlier than a read is too much. -/
def Evicts (newer read : TurnRead) : Prop :=
  ∃ bytes entry, ((entries.cleared newer).insert newer bytes).tasks.get? read.taskId = some entry ∧
    entry.read = read ∧ ¬((entries.cleared newer).insert newer bytes).FitsFrom entry.touched

/-! ### What goes -/

variable {size entries} {task : String} {entry : Entry}

lemma remove_of_get? (h : entries.tasks.get? task = some entry) : entries.remove task =
    { entries with bytes := entries.bytes - entry.bytes, tasks := entries.tasks.delete task } := by
  rw [remove, h]

lemma get?_remove (task other) :
    (entries.remove task).tasks.get? other = if other = task then none else entries.tasks.get? other := by
  cases hget : entries.tasks.get? task with
  | none =>
    rw [remove, hget]
    split_ifs with heq
    · exact heq ▸ hget
    · rfl
  | some entry => rw [remove_of_get? hget, OrderedMap.get?_delete]

lemma get?_observe {source} : (entries.observe source).tasks.get? task = some entry ↔
    entries.tasks.get? task = some entry ∧ entry.read.source = source := by
  rw [OrderedMap.get?_eq_some_iff, OrderedMap.get?_eq_some_iff, observe, mem_filter, decide_eq_true_iff]

/-- The counter of bytes is their sum. -/
def Counted (entries : Entries) : Prop := entries.bytes = entries.tasks.total Entry.bytes

lemma Counted.remove (h : entries.Counted) (task) : (entries.remove task).Counted := by
  cases hget : entries.tasks.get? task with
  | none =>
    rw [Entries.remove, hget]
    exact h
  | some entry =>
    rw [remove_of_get? hget]
    have := OrderedMap.total_of_get? Entry.bytes hget
    unfold Counted at h ⊢
    dsimp only
    omega

lemma Counted.insert (h : entries.Counted) {read : TurnRead} (hfree : entries.tasks.get? read.taskId = none) (bytes) :
    (entries.insert read bytes).Counted := by
  have htotal := OrderedMap.total_set Entry.bytes entries.tasks read.taskId ⟨read, bytes, entries.clock + 1⟩
  rw [OrderedMap.delete_of_get?_none hfree, ← h] at htotal
  exact (Nat.add_comm _ _).trans htotal.symm

lemma counted_cleared (read : TurnRead) : (entries.cleared read).Counted :=
  Counted.remove (rfl : (entries.observe read.source).Counted) _

def bumps (entries : Entries) : ℕ × Bool × Option ℕ :=
  (entries.generation, entries.bumpRequested, entries.lastBump)

/-- The generation goes up, a bump that is asked for stays asked for until it does, and the last
bump only moves on. -/
structure Advances (before after : ℕ × Bool × Option ℕ) : Prop where
  generation : before.1 ≤ after.1
  asked : before.2.1 → after.2.1 ∨ before.1 < after.1
  lastBump : ∀ last ∈ before.2.2, ∃ later ∈ after.2.2, last ≤ later

lemma Advances.refl {b} : Advances b b := ⟨le_rfl, .inl, fun last hmem => ⟨last, hmem, le_rfl⟩⟩

lemma Advances.trans {a b c} (h : Advances a b) (h' : Advances b c) : Advances a c := by
  refine ⟨h.generation.trans h'.generation, fun hasked => ?_, fun last hmem => ?_⟩
  · refine (h.asked hasked).elim (fun hstill => ?_) fun hlt => .inr (hlt.trans_le h'.generation)
    exact (h'.asked hstill).imp_right h.generation.trans_lt
  · obtain ⟨middle, hmid, hle⟩ := h.lastBump last hmem
    obtain ⟨later, hlat, hle'⟩ := h'.lastBump middle hmid
    exact ⟨later, hlat, hle.trans hle'⟩

/-- Entries go, and the limits stay. -/
structure Shrinks (before after : Entries) : Prop where
  maxTasks : after.maxTasks = before.maxTasks
  maxBytes : after.maxBytes = before.maxBytes
  sub : after.tasks.entries <+ before.tasks.entries
  advances : Advances before.bumps after.bumps

lemma Shrinks.refl : Shrinks entries entries := ⟨rfl, rfl, .refl _, .refl⟩

lemma shrinks_remove (task) : Shrinks entries (entries.remove task) := by
  unfold remove
  split
  · exact ⟨rfl, rfl, .refl _, .refl⟩
  · exact ⟨rfl, rfl, filter_sublist, .refl⟩

lemma shrinks_observe (source) : Shrinks entries (entries.observe source) := by
  refine ⟨rfl, rfl, filter_sublist, ?_⟩
  unfold observe bumps
  dsimp only
  split_ifs with hswitched
  · exact ⟨Nat.le_succ _, fun _ => .inr (Nat.lt_succ_self _), fun last hmem => ⟨last, hmem, le_rfl⟩⟩
  · refine ⟨le_rfl, fun hasked => .inl (Bool.and_eq_true_iff.2 ⟨hasked, ?_⟩), fun last hmem => ⟨last, hmem, le_rfl⟩⟩
    rw [Bool.eq_false_iff.2 hswitched]
    rfl

lemma le_of_bumpIsDue {now last} (hdue : entries.bumpIsDue now) (hmem : last ∈ entries.lastBump) :
    last + bumpInterval ≤ now := by
  rw [bumpIsDue, Option.mem_def.1 hmem, Option.any_some, Bool.and_eq_true, Bool.not_eq_true', decide_eq_false_iff_not]
    at hdue
  have hpos : 0 < bumpInterval := by decide
  omega

lemma shrinks_rebuild (now) : Shrinks entries (entries.rebuild now) := by
  unfold rebuild
  split_ifs with hdue
  · refine ⟨rfl, rfl, .refl _, Nat.le_succ _, fun _ => .inr (Nat.lt_succ_self _), fun last hmem => ⟨now, rfl, ?_⟩⟩
    exact (Nat.le_add_right _ _).trans (le_of_bumpIsDue hdue hmem)
  · exact ⟨rfl, rfl, .refl _, .refl⟩

lemma shrinks_requestBump : Shrinks entries entries.requestBump :=
  ⟨rfl, rfl, .refl _, le_rfl, fun _ => .inl rfl, fun last hmem => ⟨last, hmem, le_rfl⟩⟩

lemma Shrinks.trans {a b c : Entries} (h : Shrinks a b) (h' : Shrinks b c) : Shrinks a c :=
  ⟨h'.maxTasks.trans h.maxTasks, h'.maxBytes.trans h.maxBytes, h'.sub.trans h.sub, h.advances.trans h'.advances⟩

lemma weight_le {late kept : List (String × Entry)} (h : late <+ kept) :
    (late.map fun entry => entry.2.bytes).sum ≤ (kept.map fun entry => entry.2.bytes).sum :=
  (h.map fun entry => entry.2.bytes).sum_le_sum fun _ _ => Nat.zero_le _

lemma Shrinks.not_over {after} (h : Shrinks entries after) (hcnt : entries.Counted) (hcnt' : after.Counted)
    (hfits : entries.isOver = false) : after.isOver = false := by
  have hby : after.bytes ≤ entries.bytes := (hcnt'.trans_le (weight_le h.sub)).trans_eq hcnt.symm
  refine decide_eq_false fun hover => of_decide_eq_false hfits ?_
  rw [h.maxTasks, h.maxBytes] at hover
  exact hover.imp (·.trans_le h.sub.length_le) (·.trans_le hby)

lemma not_over_nil (hcnt : entries.Counted) (hnil : entries.tasks.entries = []) : entries.isOver = false := by
  unfold Counted OrderedMap.total at hcnt
  rw [isOver, OrderedMap.size, hcnt, hnil]
  exact decide_eq_false (not_or.2 ⟨Nat.not_lt_zero _, Nat.not_lt_zero _⟩)

/-- **Eviction ends within the limits, and takes what was touched before too much.** -/
theorem evictTimes_spec (times) (hcnt : entries.Counted) (h : entries.tasks.size ≤ times) :
    (evictTimes times entries).isOver = false ∧ (evictTimes times entries).Counted ∧
      Shrinks entries (evictTimes times entries) ∧ ∀ task entry, entries.tasks.get? task = some entry →
        (evictTimes times entries).tasks.get? task = some entry ∨ ¬entries.FitsFrom entry.touched := by
  induction times generalizing entries with
  | zero => exact ⟨not_over_nil hcnt (eq_nil_of_length_eq_zero (Nat.le_zero.1 h)), hcnt, .refl, fun _ _ => .inl⟩
  | succ times ih =>
    unfold evictTimes
    split_ifs with hover
    · split
      · rename_i hnone
        exact ⟨not_over_nil hcnt (argmin_eq_none.1 hnone), hcnt, .refl, fun _ _ => .inl⟩
      · rename_i oldest victim hmin
        have hget := OrderedMap.get?_eq_some_iff.2 (argmin_mem hmin)
        have hsize : (entries.remove oldest).tasks.size ≤ times := by
          rw [remove_of_get? hget]
          exact Nat.le_of_lt_succ ((OrderedMap.size_delete_lt (mem_map_of_mem (argmin_mem hmin))).trans_le h)
        obtain ⟨hfits, hcnt', hshr, hgone⟩ := ih (hcnt.remove oldest) hsize
        have hrem : Shrinks entries (entries.remove oldest) := shrinks_remove oldest
        refine ⟨hfits, hcnt', hrem.trans hshr, fun task entry hin => ?_⟩
        by_cases hkey : task = oldest
        · rw [hkey, hget] at hin
          cases hin
          -- all entries were touched no earlier than the one that goes
          refine .inr fun hall => ?_
          rw [FitsFrom, filter_eq_self.2 fun entry hmem => decide_eq_true (le_of_mem_argmin hmem hmin :)] at hall
          exact (of_decide_eq_true hover).elim hall.1.not_gt (hcnt.trans_le hall.2).not_gt
        · refine (hgone task entry (by rw [get?_remove, if_neg hkey, hin])).imp_right fun hnot hall => hnot ?_
          have hlate := hrem.sub.filter fun other => decide (entry.touched ≤ other.2.touched)
          exact ⟨hrem.maxTasks ▸ hlate.length_le.trans hall.1, hrem.maxBytes ▸ (weight_le hlate).trans hall.2⟩
    · exact ⟨Bool.eq_false_iff.2 hover, hcnt, .refl, fun _ _ => .inl⟩

/-! ### What is kept -/

/-- What holds of the cache after events. -/
structure Ok (size : RemoteInteractions → Option ℕ) (maxTasks maxBytes : ℕ) (events : List Event)
    (entries : Entries) : Prop where
  limits : entries.maxTasks = maxTasks ∧ entries.maxBytes = maxBytes
  counted : entries.Counted
  fits : entries.isOver = false
  held : ∀ {task entry}, entries.tasks.get? task = some entry →
    entry.read.taskId = task ∧ size entry.read.toRemoteInteractions = some entry.bytes ∧ Stands events entry.read

variable {maxTasks maxBytes : ℕ} {events : List Event} {event : Event}

lemma Stands.concat {read} (h : Stands events read) (hnot : ¬event.Supersedes read) :
    Stands (events ++ [event]) read := by
  obtain ⟨hcache, done, later, rfl, hlat⟩ := h
  refine ⟨hcache, done, later ++ [event], by rw [append_assoc, cons_append], fun other hoth => ?_⟩
  rcases mem_append.1 hoth with hin | hin
  · exact hlat other hin
  · exact mem_singleton.1 hin ▸ hnot

lemma Shrinks.get? {after} (h : Shrinks entries after) (hget : after.tasks.get? task = some entry) :
    entries.tasks.get? task = some entry :=
  OrderedMap.get?_eq_some_iff.2 (h.sub.mem (OrderedMap.get?_eq_some_iff.1 hget))

lemma Ok.shrink (h : Ok size maxTasks maxBytes events entries) {after} (hshr : Shrinks entries after)
    (hcnt : after.Counted)
    (hnot : ∀ {task entry}, after.tasks.get? task = some entry → entry.read.taskId = task →
      ¬event.Supersedes entry.read) : Ok size maxTasks maxBytes (events ++ [event]) after := by
  refine ⟨⟨hshr.maxTasks.trans h.limits.1, hshr.maxBytes.trans h.limits.2⟩, hcnt,
    hshr.not_over h.counted hcnt h.fits, fun hget => ?_⟩
  obtain ⟨hid, hsize, hstands⟩ := h.held (hshr.get? hget)
  exact ⟨hid, hsize, hstands.concat (hnot hget hid)⟩

lemma shrinks_cleared (read : TurnRead) : Shrinks entries (entries.cleared read) :=
  (shrinks_observe _).trans (shrinks_remove _)

lemma get?_cleared {read : TurnRead} : (entries.cleared read).tasks.get? task = some entry ↔
    task ≠ read.taskId ∧ entries.tasks.get? task = some entry ∧ entry.read.source = read.source := by
  rw [cleared, get?_remove]
  split_ifs with heq
  · exact ⟨False.elim, fun h => absurd heq h.1⟩
  · exact get?_observe.trans (and_iff_right heq).symm

lemma counted_insert (read : TurnRead) (bytes) : ((entries.cleared read).insert read bytes).Counted :=
  (counted_cleared read).insert (by rw [cleared, get?_remove, if_pos rfl]) bytes

/-- **A retained read supersedes what it takes out of the table.** -/
theorem Ok.retain (h : Ok size maxTasks maxBytes events entries) (read : TurnRead) :
    Ok size maxTasks maxBytes (events ++ [.retain read]) (entries.retain size read) := by
  have hcleared {task entry} (hget : (entries.cleared read).tasks.get? task = some entry)
      (hid : entry.read.taskId = task) : ¬(Event.retain read).Supersedes entry.read := by
    obtain ⟨hne, -, hsource⟩ := get?_cleared.1 hget
    exact not_or.2 ⟨not_not.2 hsource.symm, fun hsame => hne (hid.symm.trans hsame.1.symm)⟩
  unfold Entries.retain
  split_ifs with hnewer
  · refine h.shrink (shrinks_observe _) rfl fun {task entry} hget hid => ?_
    refine not_or.2 ⟨not_not.2 (get?_observe.1 hget).2.symm, fun hsame => ?_⟩
    obtain ⟨hsame, hle⟩ := hsame
    rw [isNewerThan, hsame, hid, hget] at hnewer
    exact (of_decide_eq_true hnewer).not_ge hle
  split
  · exact h.shrink (shrinks_cleared read) (counted_cleared read) hcleared
  · rename_i bytes hby
    obtain ⟨hsize, -⟩ := Option.filter_eq_some_iff.1 hby
    split_ifs at hsize with hcache
    obtain ⟨hover, hcnt, hshr, -⟩ := evictTimes_spec _ (counted_insert read bytes) le_rfl
    have hclr : Shrinks entries (entries.cleared read) := shrinks_cleared read
    refine ⟨⟨hshr.maxTasks.trans (hclr.maxTasks.trans h.limits.1), hshr.maxBytes.trans (hclr.maxBytes.trans h.limits.2)⟩,
      hcnt, hover, fun {task entry} hget => ?_⟩
    have hin := hshr.get? hget
    rw [Entries.insert, OrderedMap.get?_set] at hin
    split_ifs at hin with heq
    · cases hin
      exact ⟨heq.symm, hsize, hcache, events, [], rfl, fun _ hmem => absurd hmem not_mem_nil⟩
    · obtain ⟨hid, hsize, hstands⟩ := h.held (shrinks_cleared read |>.get? hin)
      exact ⟨hid, hsize, hstands.concat (hcleared hin hid)⟩

theorem Ok.step (h : Ok size maxTasks maxBytes events entries) (event) :
    Ok size maxTasks maxBytes (events ++ [event]) (entries.step size event) := by
  cases event with
  | serve turn =>
    cases hserved : (entries.tasks.get? turn.turnId).filter fun entry => entry.read.serves turn with
    | none =>
      rw [Entries.step, serve, hserved]
      exact h.shrink ⟨rfl, rfl, .refl _, .refl⟩ h.counted fun _ _ => id
    | some entry =>
      rw [Entries.step, serve, hserved]
      have hget := (Option.filter_eq_some_iff.1 hserved).1
      have htotal := OrderedMap.total_set Entry.bytes entries.tasks turn.turnId { entry with touched := entries.clock + 1 }
      have hcnt := h.counted.trans ((OrderedMap.total_of_get? Entry.bytes hget).trans htotal.symm)
      have hcount := OrderedMap.size_set entries.tasks turn.turnId { entry with touched := entries.clock + 1 }
      rw [if_pos (OrderedMap.mem_keys_iff.2 (by rw [hget, Option.isSome_some]))] at hcount
      refine ⟨h.limits, hcnt, ?_, fun {task found} hfnd => ?_⟩
      · have hfits := h.fits
        unfold isOver at hfits ⊢
        dsimp only
        rwa [hcount]
      · rw [OrderedMap.get?_set] at hfnd
        split_ifs at hfnd with heq
        · cases hfnd
          obtain ⟨hid, hsize, hstands⟩ := h.held hget
          exact ⟨hid.trans heq.symm, hsize, hstands.concat id⟩
        · obtain ⟨hid, hsize, hstands⟩ := h.held hfnd
          exact ⟨hid, hsize, hstands.concat id⟩
  | retain read => exact h.retain read
  | rebuild now =>
    refine h.shrink (shrinks_rebuild now) ?_ fun _ _ => id
    unfold Entries.step rebuild
    dsimp only
    split_ifs <;> exact h.counted
  | requestBump => exact h.shrink shrinks_requestBump h.counted fun _ _ => id
  | forget task =>
    refine h.shrink (shrinks_remove task) (h.counted.remove task) fun hget hid heq => ?_
    rw [Entries.step, get?_remove, if_pos (hid.symm.trans heq.symm)] at hget
    cases hget

lemma ok_after (events) : Ok size maxTasks maxBytes events ((withLimits maxTasks maxBytes).after size events) := by
  induction events using List.reverseRecOn with
  | nil => exact ⟨⟨rfl, rfl⟩, rfl, rfl, nofun⟩
  | append_singleton events event ih =>
    rw [after, foldl_append]
    exact ih.step event

/-- **What the cache serves is current.**  Within its limits the cache serves a read of the task that
was retained and is not superseded: none of the task that is as new has come since, nor any of
the other source. -/
theorem cache_serves_current_reads (size : RemoteInteractions → Option ℕ) (maxTasks maxBytes : ℕ) (events : List Event) :
    let entries := (withLimits maxTasks maxBytes).after size events
    entries.tasks.size ≤ maxTasks ∧ entries.bytes ≤ maxBytes ∧ entries.bytes = entries.tasks.total Entry.bytes ∧
      (∀ task entry, entries.tasks.get? task = some entry → size entry.read.toRemoteInteractions = some entry.bytes) ∧
      ∀ turn read, (entries.serve turn).1 = some read →
        read.taskId = turn.turnId ∧ read.serves turn ∧ Stands events read := by
  have h : Ok size maxTasks maxBytes events ((withLimits maxTasks maxBytes).after size events) := ok_after events
  have hfits := not_or.1 (of_decide_eq_false h.fits)
  rw [h.limits.1, h.limits.2, not_lt, not_lt] at hfits
  refine ⟨hfits.1, hfits.2, h.counted, fun task entry hget => (h.held hget).2.1, fun turn read hserve => ?_⟩
  unfold serve at hserve
  split at hserve
  · cases hserve
  · rename_i entry hserved
    obtain rfl := Option.some.inj hserve
    obtain ⟨hget, hserves⟩ := Option.filter_eq_some_iff.1 hserved
    exact ⟨(h.held hget).1, hserves, (h.held hget).2.2⟩

/-! ### What is not kept -/

lemma retain_keeps (newer : TurnRead) {read} (hget : entries.tasks.get? read.taskId = some entry)
    (hread : entry.read = read) (hnot : ¬(Event.retain newer).Supersedes read) :
    (∃ kept, (entries.retain size newer).tasks.get? read.taskId = some kept ∧ kept.read = read) ∨
      entries.Evicts newer read := by
  obtain ⟨hsource, hold⟩ := not_or.1 hnot
  have hobs := get?_observe.2 ⟨hget, hread ▸ (not_not.1 hsource).symm⟩
  unfold Entries.retain
  split_ifs with hnewer
  · exact .inl ⟨entry, hobs, hread⟩
  have hne : read.taskId ≠ newer.taskId := fun heq => hnewer (by
    rw [isNewerThan, ← heq, hobs, Option.any_some, hread]
    exact decide_eq_true (not_le.1 fun hle => hold ⟨heq.symm, hle⟩))
  have hclr := get?_cleared.2 ⟨hne, hget, hread ▸ (not_not.1 hsource).symm⟩
  split
  · exact .inl ⟨entry, hclr, hread⟩
  · rename_i bytes hby
    have hins : ((entries.cleared newer).insert newer bytes).tasks.get? read.taskId = some entry := by
      rw [Entries.insert, OrderedMap.get?_set, if_neg hne, hclr]
    exact ((evictTimes_spec _ (counted_insert newer bytes) le_rfl).2.2.2 _ _ hins).imp (fun hkept => ⟨entry, hkept, hread⟩)
      fun hfull => ⟨bytes, entry, hins, hread, hfull⟩

lemma step_keeps (event : Event) {read} (hget : entries.tasks.get? read.taskId = some entry) (hread : entry.read = read)
    (hnot : ¬event.Supersedes read) :
    (∃ kept, (entries.step size event).tasks.get? read.taskId = some kept ∧ kept.read = read) ∨
      ∃ newer, event = .retain newer ∧ entries.Evicts newer read := by
  cases event with
  | serve turn =>
    refine .inl ?_
    change ∃ kept, (entries.serve turn).2.tasks.get? _ = _ ∧ _
    unfold serve
    split
    · exact ⟨entry, hget, hread⟩
    · rename_i served hserved
      rw [OrderedMap.get?_set]
      split_ifs with heq
      · obtain rfl := Option.some.inj (((heq ▸ hget).symm).trans (Option.filter_eq_some_iff.1 hserved).1)
        exact ⟨_, rfl, hread⟩
      · exact ⟨entry, hget, hread⟩
  | retain newer => exact (retain_keeps newer hget hread hnot).imp_right fun hfull => ⟨newer, rfl, hfull⟩
  | rebuild now =>
    refine .inl ⟨entry, ?_, hread⟩
    change (entries.rebuild now).tasks.get? _ = _
    unfold rebuild
    split_ifs <;> exact hget
  | requestBump => exact .inl ⟨entry, hget, hread⟩
  | forget task =>
    refine .inl ⟨entry, ?_, hread⟩
    rw [Entries.step, get?_remove, if_neg (Ne.symm hnot), hget]

lemma advances_step (event) : Advances entries.bumps (entries.step size event).bumps := by
  cases event with
  | serve turn =>
    change Advances _ (entries.serve turn).2.bumps
    unfold serve
    split <;> exact .refl
  | retain read =>
    change Advances _ (entries.retain size read).bumps
    unfold retain
    split_ifs
    · exact (shrinks_observe _).advances
    · split
      · exact (shrinks_cleared read).advances
      · exact (shrinks_cleared read).advances.trans (evictTimes_spec _ (counted_insert read _) le_rfl).2.2.1.advances
  | rebuild now => exact (shrinks_rebuild now).advances
  | requestBump => exact shrinks_requestBump.advances
  | forget task => exact (shrinks_remove task).advances

lemma advances_after (events) : Advances entries.bumps (entries.after size events).bumps := by
  induction events using List.reverseRecOn with
  | nil => exact .refl
  | append_singleton events event ih =>
    rw [after, foldl_append]
    exact ih.trans (advances_step event)

/-- **A bump that is asked for is not lost, and bumps keep their distance**: until the generation goes
up it is still asked for, and when one is due again, the interval has passed since the last one. -/
theorem bumps_keep_their_distance (size : RemoteInteractions → Option ℕ) (entries : Entries) (events : List Event) (now : ℕ) :
    entries.generation ≤ (entries.after size events).generation ∧
      ((entries.requestBump.after size events).bumpRequested ∨
        entries.generation < (entries.requestBump.after size events).generation) ∧
      (entries.bumpIsDue now → entries.generation < ((entries.rebuild now).after size events).generation ∧
        ∀ next, ((entries.rebuild now).after size events).bumpIsDue next → now + bumpInterval ≤ next) := by
  refine ⟨(advances_after events).generation, (advances_after events).asked rfl, fun hdue => ?_⟩
  have h : Advances (entries.rebuild now).bumps ((entries.rebuild now).after size events).bumps :=
    advances_after events
  rw [rebuild, if_pos hdue] at h ⊢
  refine ⟨h.generation, fun next hnext => ?_⟩
  obtain ⟨later, hlat, hle⟩ := h.lastBump now rfl
  exact (Nat.add_le_add_right hle _).trans (le_of_bumpIsDue hnext hlat)

end Entries
end CodevoEditor.RemoteRunner
