/-
# Every action is a step

Whatever an action of `agentThreadsReducer` is, but for a load, it is one step of the store
(`agentThreadsReducer_step`).
-/

import CodevoEditor.Threads.StoreSteps

namespace CodevoEditor.Threads

open Js AgentEvents AgentOutput List Option OrderedMap

variable {supplied : List AgentThread} {state : AgentThreadsState}

variable {threadId : JsString} {location : TurnLocation}

lemma acceptedTaskStatusLocation_eq_some {event}
    (h : acceptedTaskStatusLocation state threadId event = some location) :
    findTurnInThread state threadId event.taskId = some location ∧
      isTerminalAgentTurnStatus location.turn.status = false ∧
      location.turn.lastStatusSequence < event.sequence := by
  obtain ⟨hget, hacc⟩ := filter_eq_some_iff.1 h
  simp only [Bool.and_eq_true, Bool.not_eq_true', decide_eq_true_eq] at hacc
  exact ⟨hget, hacc.1.2, hacc.2⟩

lemma acceptedOutputLocation_eq_some {action}
    (h : acceptedOutputLocation state action = some location) :
    findTurnInThread state action.threadId action.turnId = some location ∧
      isTerminalAgentTurnStatus location.turn.status = false ∧
      location.turn.lastOutputSequence < action.outputSequence := by
  obtain ⟨hget, hacc⟩ := filter_eq_some_iff.1 h
  simp only [Bool.and_eq_true, Bool.not_eq_true', decide_eq_true_eq] at hacc
  exact ⟨hget, hacc.1.2, hacc.2⟩

section

variable (hkeyed : Keyed state.threads)
include hkeyed

lemma applyTurnStatusEvent_step (threadId : JsString) (event)
    (nowEpochMs : ℤ) :
    StoreStep supplied state (applyTurnStatusEvent state threadId event nowEpochMs) := by
  unfold applyTurnStatusEvent
  cases hloc : acceptedTaskStatusLocation state threadId event with
  | none => exact .refl _ _
  | some location =>
    obtain ⟨hget, hlive, hseq⟩ := acceptedTaskStatusLocation_eq_some hloc
    refine (findTurnInThread_at hkeyed hget).1.replaceThread ?_ rfl rfl rfl
    exact ⟨rfl, fun hstl => absurd hstl (by rw [hlive]; decide), hseq.le, le_rfl⟩

lemma appendTurnEvents_step (action) : StoreStep supplied state (appendTurnEvents state action) := by
  unfold appendTurnEvents
  cases hloc : acceptedOutputLocation state action with
  | none => exact .refl _ _
  | some location =>
    obtain ⟨hget, -, hseq⟩ := acceptedOutputLocation_eq_some hloc
    refine (findTurnInThread_at hkeyed hget).1.replaceThread ?_ rfl rfl rfl
    exact ⟨rfl, fun _ => rfl, le_rfl, hseq.le⟩

lemma appendSteeredMessage_step (threadId turnId : JsString) (event) :
    StoreStep supplied state (appendSteeredMessage state threadId turnId event) := by
  unfold appendSteeredMessage
  cases hloc : findTurnInThread state threadId turnId with
  | none => exact .refl _ _
  | some location =>
    dsimp only
    by_cases hstl : isTerminalAgentTurnStatus location.turn.status
    · rw [if_pos hstl]
      exact .refl _ _
    by_cases hlong : maxAgentEventTextBytes < utf8ByteLength event.text
    · rw [if_neg hstl, if_pos hlong]
      exact .refl _ _
    by_cases hfull : (!agentTurnAcceptsSteerBytes location.turn (agentTurnEventUtf8Bytes (.userMessage event)))
    · rw [if_neg hstl, if_neg hlong, if_pos hfull]
      exact .refl _ _
    rw [if_neg hstl, if_neg hlong, if_neg hfull]
    exact (findTurnInThread_at hkeyed hloc).1.replaced ⟨rfl, fun _ => rfl, le_rfl, le_rfl⟩

lemma interruptTurn_step (turnId : JsString) (nowEpochMs : ℤ) :
    StoreStep supplied state (interruptTurn state turnId nowEpochMs) := by
  unfold interruptTurn
  cases hloc : findTurn state turnId with
  | none => exact .refl _ _
  | some location =>
    dsimp only
    split_ifs with hstl
    · exact .refl _ _
    · refine (findTurn_at hkeyed hloc).1.replaceThread ?_ rfl rfl rfl
      exact ⟨rfl, fun h => absurd h hstl, le_rfl, le_rfl⟩

lemma requestAgentTurnHalt_step (request) : StoreStep supplied state (requestAgentTurnHalt state request) := by
  unfold requestAgentTurnHalt
  cases hloc : findTurnInThread state request.threadId request.turnId with
  | none => exact .refl _ _
  | some location =>
    dsimp only
    split_ifs
    · exact .refl _ _
    · exact .refl _ _
    · exact .refl _ _
    · exact (findTurnInThread_at hkeyed hloc).1.replaced ⟨rfl, fun _ => rfl, le_rfl, le_rfl⟩

lemma findSettledTurn_at {turnId}
    (h : findSettledTurn state threadId turnId = some location) :
    At state.threads location :=
  (findTurnInThread_at hkeyed (filter_eq_some_iff.1 h).1).1

lemma hydrateTurn_step (threadId turnId : JsString) (events)
    (hasEarlier : Bool) :
    StoreStep supplied state (hydrateTurn state threadId turnId events hasEarlier) := by
  unfold hydrateTurn
  cases hloc : findSettledTurn state threadId turnId with
  | none => exact .refl _ _
  | some location =>
    exact (findSettledTurn_at hkeyed hloc).replaced ⟨rfl, fun _ => rfl, le_rfl, le_rfl⟩

lemma restoreTurnPrompt_step (threadId turnId prompt : JsString) :
    StoreStep supplied state (restoreTurnPrompt state threadId turnId prompt) := by
  unfold restoreTurnPrompt
  split_ifs
  · exact .refl _ _
  cases hloc : findSettledTurn state threadId turnId with
  | none => exact .refl _ _
  | some location =>
    exact (findSettledTurn_at hkeyed hloc).replaced ⟨rfl, fun _ => rfl, le_rfl, le_rfl⟩

lemma restoreTurnLifecycle_step (threadId turnId : JsString) (lifecycle) :
    StoreStep supplied state (restoreTurnLifecycle state threadId turnId lifecycle) := by
  unfold restoreTurnLifecycle
  cases hloc : findSettledTurn state threadId turnId with
  | none => exact .refl _ _
  | some location =>
    dsimp only
    cases restorableAgentTurnLifecycle location.turn.subagentLifecycle lifecycle with
    | none => exact .refl _ _
    | some restored =>
      exact (findSettledTurn_at hkeyed hloc).replaced ⟨rfl, fun _ => rfl, le_rfl, le_rfl⟩

lemma loadExternalHistory_step (threadId : JsString) (owner)
    (history : ExternalAgentSessionHistory) :
    StoreStep supplied state (loadExternalHistory state threadId owner history) := by
  unfold loadExternalHistory
  cases hthr : state.threads.get? threadId with
  | none => exact .refl _ _
  | some thread =>
    dsimp only
    cases thread.externalOrigin with
    | none => exact .refl _ _
    | some origin =>
      dsimp only
      split_ifs
      · exact .refl _ _
      · exact .replace hthr (hkeyed _ _ hthr) (.of_turns rfl rfl .inl)

lemma recordIntegration_step (threadId : JsString) (integration) :
    StoreStep supplied state (recordIntegration state threadId integration) := by
  refine .changeThread hkeyed threadId fun thread next hnext => ?_
  split_ifs at hnext
  cases hnext
  exact .of_turns rfl rfl .inl

lemma markThreadViewed_step (threadId : JsString) (atEpochMs : ℤ) :
    StoreStep supplied state (markThreadViewed state threadId atEpochMs) := by
  refine .changeThread hkeyed threadId fun thread next hnext => ?_
  split_ifs at hnext
  cases hnext
  exact .of_turns rfl rfl .inl

lemma markThreadUnread_step (threadId : JsString) : StoreStep supplied state (markThreadUnread state threadId) := by
  refine .changeThread hkeyed threadId fun thread next hnext => ?_
  split_ifs at hnext
  cases hnext
  exact .of_turns rfl rfl .inl

lemma renameThread_step (threadId raw : JsString) : StoreStep supplied state (renameThread state threadId raw) := by
  refine .changeThread hkeyed threadId fun thread next hnext => ?_
  cases htitle : normalizeAgentThreadTitle raw with
  | none =>
    rw [htitle] at hnext
    cases hnext
  | some title =>
    rw [htitle] at hnext
    dsimp only at hnext
    split_ifs at hnext
    cases hnext
    exact .of_turns rfl rfl .inl

lemma rebindOwner_step (threadId previousOwnerId : JsString) (owner) :
    StoreStep supplied state (rebindOwner state threadId previousOwnerId owner) := by
  refine .changeThread hkeyed threadId fun thread next hnext => ?_
  split_ifs at hnext
  cases hnext
  exact .of_turns rfl rfl .inl

lemma togglePin_step (threadId : JsString) : StoreStep supplied state (togglePin state threadId) := by
  refine .changeThread hkeyed threadId fun thread next hnext => ?_
  cases hnext
  exact .of_turns rfl rfl .inl

/-- **Only a thread without a running turn is archived.** -/
theorem archiveThread_step (threadId : JsString) : StoreStep supplied state (archiveThread state threadId) := by
  refine .changeThread hkeyed threadId fun thread next hnext => ?_
  split_ifs at hnext with harch hrun
  cases hnext
  exact .of_turns rfl rfl fun _ => .inr (by simpa using hrun)

lemma unarchiveThread_step (threadId : JsString) : StoreStep supplied state (unarchiveThread state threadId) := by
  refine .changeThread hkeyed threadId fun thread next hnext => ?_
  split_ifs at hnext
  cases hnext
  exact .of_turns rfl rfl nofun

lemma invalidateProviderSession_step (threadId : JsString) (owner)
    (sessionId : JsString) :
    StoreStep supplied state (invalidateProviderSession state threadId owner sessionId) := by
  refine .changeThread hkeyed threadId fun thread next hnext => ?_
  split_ifs at hnext
  cases hnext
  exact .of_turns rfl rfl .inl

/-! ### Organization -/

end

/-- A thread before and after a change of its place in the lists. -/
structure Organized (old new : AgentThread) : Prop where
  threadId : new.threadId = old.threadId
  turns : new.turns = old.turns
  archived : new.archived = old.archived

lemma Organized.sameThread {old new} (h : Organized old new) : SameThread old new :=
  .of_turns h.threadId h.turns fun harch => .inl (h.archived ▸ harch)

/-- Only the organization of the threads has changed. -/
def OrganizedThreads (threads next : OrderedMap JsString AgentThread) : Prop :=
  ∀ threadId, Option.Rel Organized (threads.get? threadId) (next.get? threadId)

lemma OrganizedThreads.refl (threads) :
    OrganizedThreads threads threads := fun threadId => by
  cases threads.get? threadId with
  | none => exact .none
  | some thread => exact .some ⟨rfl, rfl, rfl⟩

variable {threads next : OrderedMap JsString AgentThread} {thread : AgentThread}

lemma OrganizedThreads.set (h : OrganizedThreads threads next) {organized}
    (hthr : next.get? threadId = some thread) (horg : Organized thread organized) :
    OrganizedThreads threads (next.set threadId organized) := fun other => by
  rw [get?_set]
  split_ifs with hoth
  · have hrel := h threadId
    rw [hthr] at hrel
    rw [hoth]
    generalize threads.get? threadId = before at hrel ⊢
    cases hrel with
    | some hold =>
      exact .some ⟨horg.threadId.trans hold.threadId, horg.turns.trans hold.turns,
        horg.archived.trans hold.archived⟩
  · exact h other

lemma OrganizedThreads.step {next}
    (h : OrganizedThreads state.threads next.threads) : StoreStep supplied state next := by
  refine .update fun threadId => ?_
  have hrel := h threadId
  generalize state.threads.get? threadId = old at hrel ⊢
  generalize next.threads.get? threadId = new at hrel ⊢
  cases hrel with
  | none => exact .none
  | some horg => exact .some horg.sameThread

lemma OrganizedThreads.foldl (h : OrganizedThreads threads next)
    (plan : List AgentThreadSortOrderAssignment) :
    OrganizedThreads threads (plan.foldl assignSortOrder next) := by
  induction plan generalizing next with
  | nil => exact h
  | cons item plan ih =>
    refine ih ?_
    unfold assignSortOrder
    cases hthr : next.get? item.threadId with
    | none => exact h
    | some thread => exact h.set hthr ⟨rfl, rfl, rfl⟩

lemma updateAgentThreadOrganization_step (threadId : JsString) (owner)
    (patch) :
    StoreStep supplied state (updateAgentThreadOrganization state threadId owner patch) := by
  unfold updateAgentThreadOrganization
  cases hthr : state.threads.get? threadId with
  | none => exact .refl _ _
  | some thread =>
    dsimp only
    split_ifs
    · exact .refl _ _
    · exact .refl _ _
    · exact .refl _ _
    · exact .refl _ _
    · exact .refl _ _
    · exact .refl _ _
    · exact ((OrganizedThreads.refl state.threads).set hthr
        (⟨rfl, rfl, rfl⟩ : Organized thread (thread.patched patch))).step

variable (localeCompare : JsString → JsString → Ordering)

lemma reorderAgentThread_step
    (threadId : JsString) (owner) (targetThreadId : JsString)
    (placement : AgentThreadPlacement) (now : ℤ) (destination : Option AgentThreadDropSection) :
    StoreStep supplied state (reorderAgentThread localeCompare state threadId owner targetThreadId
      placement now destination) := by
  unfold reorderAgentThread
  cases hthr : state.threads.get? threadId with
  | none => exact .refl _ _
  | some thread =>
    cases state.threads.get? targetThreadId with
    | none => exact .refl _ _
    | some target =>
      dsimp only
      by_cases howner : (!sameThreadOrganizationOwner thread.owner owner ||
          !sameThreadOrganizationOwner thread.owner target.owner)
      · rw [if_pos howner]
        exact .refl _ _
      rw [if_neg howner]
      cases destination with
      | none => exact ((OrganizedThreads.refl _).foldl _).step
      | some destination =>
        dsimp only
        have hprep := (OrganizedThreads.refl state.threads).set hthr
          (⟨rfl, rfl, rfl⟩ : Organized thread (droppedThread thread destination now))
        split_ifs
        · exact .refl _ _
        · exact hprep.step
        · exact (hprep.foldl _).step

lemma kept_delete (h : ∀ thread ∈ threads.get? threadId, runningTurn thread = none)
    (other : JsString) :
    Kept threads (threads.delete threadId) other := by
  unfold Kept
  rw [get?_delete]
  split_ifs with hoth
  · exact .inr ⟨rfl, hoth ▸ h⟩
  · exact .inl rfl

lemma evictHistoryThread_step (threadId : JsString) :
    StoreStep supplied state (evictHistoryThread state threadId) := by
  unfold evictHistoryThread
  cases hthr : state.threads.get? threadId with
  | none => exact .refl _ _
  | some thread =>
    dsimp only
    split_ifs with hevict
    · exact .refl _ _
    · refine .remove (kept_delete fun other hoth => ?_)
      rw [hthr] at hoth
      cases hoth
      simp only [isEvictableThread, Bool.not_eq_true', Bool.not_eq_false, Bool.and_eq_true] at hevict
      exact isNone_iff_eq_none.1 hevict.2

lemma deleteThread_step (threadId : JsString) : StoreStep supplied state (deleteThread state threadId) := by
  unfold deleteThread
  cases hthr : state.threads.get? threadId with
  | none => exact .refl _ _
  | some thread =>
    dsimp only
    split_ifs with hrun
    · exact .refl _ _
    · refine .remove (kept_delete fun other hoth => ?_)
      rw [hthr] at hoth
      cases hoth
      simpa using hrun

lemma releaseOwner_step (ownerId : JsString) : StoreStep supplied state (releaseOwner state ownerId) := by
  unfold releaseOwner
  dsimp only
  split_ifs
  · exact .refl _ _
  refine .remove fun threadId => ?_
  have hfold := state.threads.get?_foldl_set_filter (fun entry =>
    !decide (entry.2.owner.ownerId = ownerId ∧ (runningTurn entry.2).isNone)) threadId
  simp only [Bool.not_eq_true', decide_eq_false_iff_not, ite_not] at hfold
  unfold Kept
  rw [hfold]
  cases hthr : state.threads.get? threadId with
  | none => exact .inl rfl
  | some thread =>
    by_cases hreleased : thread.owner.ownerId = ownerId ∧ (runningTurn thread).isNone
    · refine .inr ⟨?_, fun other hoth => ?_⟩
      · rw [filter_some, decide_eq_true hreleased]
        rfl
      · cases hoth
        exact isNone_iff_eq_none.1 hreleased.2
    · refine .inl ?_
      rw [filter_some, decide_eq_false hreleased]
      rfl

lemma evictThreads_kept {evictable} (count : ℕ)
    (h : ∀ thread ∈ evictable, ∀ other ∈ threads.get? thread.threadId, runningTurn other = none)
    (threadId : JsString) : Kept threads (evictThreads evictable count threads) threadId := by
  induction evictable generalizing count threads with
  | nil => exact .inl rfl
  | cons thread evictable ih =>
    rw [evictThreads]
    split_ifs
    · exact .inl rfl
    · refine (kept_delete (h thread mem_cons_self) threadId).trans (ih _ fun other hoth => ?_)
      intro next hnext
      rw [get?_delete] at hnext
      split_ifs at hnext
      · cases hnext
      · exact h other (mem_cons_of_mem _ hoth) next hnext

theorem evictThreadsForRoot_kept (hkeyed : Keyed threads) (rootKey threadId : JsString) :
    Kept threads (evictThreadsForRoot threads rootKey) threadId := by
  refine evictThreads_kept _ (fun thread hthr other hoth => ?_) threadId
  obtain ⟨hroot, hevict⟩ := mem_filter.1 (mem_mergeSort.1 hthr)
  obtain ⟨key, hkey⟩ := mem_values_iff.1 (mem_filter.1 hroot).1
  rw [hkeyed _ _ hkey, hkey] at hoth
  cases hoth
  rw [isEvictableThread, Bool.and_eq_true] at hevict
  exact isNone_iff_eq_none.1 hevict.2

lemma keyed_set (h : Keyed threads) (thread) : Keyed (threads.set thread.threadId thread) := by
  intro threadId other hoth
  rw [get?_set] at hoth
  split_ifs at hoth with hid
  · cases hoth
    exact hid.symm
  · exact h _ _ hoth

lemma Kept.of_some (h : Kept threads next threadId) (hthr : next.get? threadId = some thread) :
    threads.get? threadId = some thread := by
  rcases h with hsame | ⟨hnone, -⟩
  · rw [← hsame, hthr]
  · rw [hnone] at hthr
    cases hthr

variable (turn : AgentTurn)

lemma boundAgentTurnEvents_same : SameTurn turn (boundAgentTurnEvents turn) := by
  unfold boundAgentTurnEvents
  dsimp only
  split_ifs
  · exact .refl turn
  · exact ⟨rfl, fun _ => rfl, le_rfl, le_rfl⟩

lemma boundAgentTurnEvents_status : (boundAgentTurnEvents turn).status = turn.status := by
  unfold boundAgentTurnEvents
  dsimp only
  split_ifs <;> rfl

/-- **Making room takes the oldest turn that is over.** -/
theorem retainTurnsForNewTurn_eq_some {retained}
    (h : retainTurnsForNewTurn thread = some retained) :
    retained.1.Sublist thread.turns ∧
      (thread.turns.length ≤ maxAgentTurnsPerThread → retained.1.length < maxAgentTurnsPerThread) ∧
      ∀ running ∈ runningTurn thread, retained.1.getLast? = some running := by
  unfold retainTurnsForNewTurn at h
  split_ifs at h with hroom
  · cases h
    exact ⟨.refl _, fun _ => hroom, fun running hrun => (filter_eq_some_iff.1 hrun).1⟩
  cases holdest : thread.turns.findIdx? fun turn => isTerminalAgentTurnStatus turn.status with
  | none =>
    rw [holdest] at h
    cases h
  | some oldest =>
    rw [holdest] at h
    cases h
    obtain ⟨hlt, hterm, -⟩ := findIdx?_eq_some_iff_getElem.1 holdest
    refine ⟨eraseIdx_sublist _ _, fun hlen => ?_, fun running hrun => ?_⟩
    · rw [length_eraseIdx_of_lt hlt]
      omega
    · obtain ⟨hlast, hlive⟩ := filter_eq_some_iff.1 hrun
      obtain ⟨front, htrn⟩ := getLast?_eq_some_iff.1 hlast
      have hfr : oldest < front.length := by
        by_contra hnot
        have hidx : oldest = front.length := by
          rw [htrn, length_append, length_singleton] at hlt
          omega
        subst hidx
        have hat : thread.turns[front.length] = running := by
          simp only [htrn, getElem_concat_length]
        rw [hat] at hterm
        rw [hterm] at hlive
        cases hlive
      rw [htrn, eraseIdx_append_of_lt_length hfr, getLast?_concat]

/-- A way to place a turn: in front of the turn that runs, or at the end. -/
def PlacesBefore (thread : AgentThread) (turn : AgentTurn)
    (place : List AgentTurn → AgentTurn → List AgentTurn) : Prop :=
  ∀ turns : List AgentTurn, turns.Sublist thread.turns →
    (∀ running ∈ runningTurn thread, turns.getLast? = some running) →
    ∃ front back, turns = front ++ back ∧
      place turns (boundAgentTurnEvents turn) = front ++ boundAgentTurnEvents turn :: back ∧
      back.getLast? = runningTurn thread ∧
      (back ≠ [] → isTerminalAgentTurnStatus turn.status) ∧
      ((thread.turns.map (·.turnId)).Nodup → back.length ≤ 1)

lemma placeTurn_step {turn} {atEpochMs}
    {place : List AgentTurn → AgentTurn → List AgentTurn}
    (hthr : state.threads.get? thread.threadId = some thread)
    (hplc : PlacesBefore thread turn place) :
    StoreStep supplied state (placeTurn state thread turn atEpochMs place) := by
  unfold placeTurn
  split_ifs with harch hget
  · exact .refl _ _
  · exact .refl _ _
  cases hretained : retainTurnsForNewTurn thread with
  | none => exact .refl _ _
  | some retained =>
    obtain ⟨hsublist, hroom, hlast⟩ := retainTurnsForNewTurn_eq_some hretained
    obtain ⟨front, back, htrn, hpl, hrun, hstl, hsingle⟩ := hplc retained.1 hsublist hlast
    rw [htrn] at hsublist hroom
    rw [Bool.not_eq_true] at harch hget
    have hnew := freshTurn_of_findTurn hget
    rw [← (boundAgentTurnEvents_same turn).turnId] at hnew
    rw [← boundAgentTurnEvents_status turn] at hstl
    have hnext : PlacedTurn thread
        { thread with
          snoozedUntil := cleared thread.snoozedUntil
          settledAt := cleared thread.settledAt
          turns := place retained.1 (boundAgentTurnEvents turn)
          turnsTruncated := thread.turnsTruncated || retained.2
          updatedAtEpochMs := max thread.updatedAtEpochMs atEpochMs }
        (boundAgentTurnEvents turn) front back :=
      ⟨rfl, harch, hsublist, hroom, hpl, hrun, hstl, hsingle⟩
    exact .place hthr hnew hnext rfl

lemma appendTurn_step (atEpochMs : ℤ)
    (hthr : state.threads.get? thread.threadId = some thread) :
    StoreStep supplied state (appendTurn state thread turn atEpochMs) := by
  unfold appendTurn
  split_ifs with hrun
  · exact .refl _ _
  rw [Bool.not_eq_true, isSome_eq_false_iff, isNone_iff_eq_none] at hrun
  refine placeTurn_step hthr fun turns _ _ => ?_
  exact ⟨turns, [], (append_nil _).symm, rfl, hrun.symm, absurd rfl, fun _ => Nat.zero_le 1⟩

lemma insertTurnBefore_step {anchor} (turn) (atEpochMs : ℤ)
    (hthr : state.threads.get? thread.threadId = some thread)
    (hrun : runningTurn thread = some anchor)
    (hstl : isTerminalAgentTurnStatus turn.status) :
    StoreStep supplied state (insertTurnBefore state thread anchor turn atEpochMs) := by
  refine placeTurn_step hthr fun turns hsublist hlast => ?_
  obtain ⟨front, htrn⟩ := getLast?_eq_some_iff.1 (hlast anchor hrun)
  set index := turns.findIdx fun candidate : AgentTurn => candidate.turnId = anchor.turnId with hidx
  have hlt : index < turns.length := findIdx_lt_length_of_exists
    ⟨anchor, by rw [htrn]; exact mem_append_right _ (mem_singleton_self _),
      decide_eq_true rfl⟩
  refine ⟨turns.take index, turns.drop index, (take_append_drop _ _).symm, ?_, ?_,
    fun _ => hstl, fun hnd => ?_⟩
  · rw [append_assoc, singleton_append]
  · rw [getLast?_drop, if_neg (by omega), hlast anchor hrun, hrun]
  · -- the ids differ, so the first turn with the id is the last turn
    have hids : (turns.map (·.turnId)).Nodup := hnd.sublist (hsublist.map _)
    have hat : (turns.map (·.turnId))[index]? = (turns.map (·.turnId))[front.length]? := by
      have hget := findIdx_getElem (w := hlt)
      rw [decide_eq_true_eq] at hget
      have hlen : front.length < turns.length := by
        rw [htrn, length_append, length_singleton]
        omega
      have hend : turns[front.length] = anchor := by
        simp only [htrn, getElem_concat_length]
      rw [getElem?_map, getElem?_map, getElem?_eq_getElem hlt, getElem?_eq_getElem hlen, map_some, map_some, hend]
      exact congrArg some hget
    have hsame : index = front.length := (getElem?_inj (by rwa [length_map]) hids).1 hat
    rw [length_drop, htrn, length_append, length_singleton]
    omega

lemma startTurn_step (hkeyed : Keyed state.threads) (threadId : JsString) (turn) :
    StoreStep supplied state (startTurn state threadId turn) := by
  unfold startTurn
  cases hthr : state.threads.get? threadId with
  | none => exact .refl _ _
  | some thread => exact appendTurn_step turn _ (by rw [hkeyed _ _ hthr, hthr])

lemma recordBackgroundTurn_step (hkeyed : Keyed state.threads) (threadId workspaceId : JsString)
    (turn) :
    StoreStep supplied state (recordBackgroundTurn state threadId workspaceId turn) := by
  unfold recordBackgroundTurn
  cases hthr : state.threads.get? threadId with
  | none => exact .refl _ _
  | some thread =>
    have hplc : state.threads.get? thread.threadId = some thread := by
      rw [hkeyed _ _ hthr, hthr]
    dsimp only
    split_ifs with howner hturn
    · exact .refl _ _
    · exact .refl _ _
    rw [not_or, not_not, Bool.not_eq_true, Bool.not_eq_false'] at hturn
    cases hrun : runningTurn thread with
    | none => exact appendTurn_step turn _ hplc
    | some running => exact insertTurnBefore_step turn _ hplc hrun hturn.2

lemma boundAgentThreadEvents_taken (thread) : TakenThread thread (boundAgentThreadEvents thread) := by
  refine SameThread.taken ⟨rfl, ?_, .inl⟩
  unfold boundAgentThreadEvents
  rw [forall₂_map_right_iff]
  exact forall₂_same.2 fun turn _ => boundAgentTurnEvents_same turn

lemma lastEventStatus_terminal {events} {status}
    (h : lastEventStatus events = some status) : isTerminalAgentTurnStatus status := by
  induction events with
  | nil => cases h
  | cons event events ih =>
    cases event with
    | result event =>
      cases h
      split_ifs <;> rfl
    | contextUsage event => exact ih h
    | subagentUsage event => exact ih h
    | _ => cases h

lemma markInterruptedTurn_terminal : isTerminalAgentTurnStatus (markInterruptedTurn turn).status := by
  unfold markInterruptedTurn
  cases hrecov : recoverAgentTurnResultStatus turn with
  | some recovered =>
    unfold recoverAgentTurnResultStatus at hrecov
    split_ifs at hrecov
    exact lastEventStatus_terminal hrecov
  | none =>
    split_ifs with hterm
    · exact hterm
    · rfl

lemma markInterruptedTurn_turnId : (markInterruptedTurn turn).turnId = turn.turnId := by
  unfold markInterruptedTurn
  cases recoverAgentTurnResultStatus turn with
  | some recovered => rfl
  | none =>
    split_ifs <;> rfl

/-- A thread as the store takes it over from a file. -/
def storedThread (thread : AgentThread) : AgentThread :=
  boundAgentThreadEvents (markInterruptedTurns thread)

lemma storedThread_taken (thread) : TakenThread thread (storedThread thread) := by
  refine ⟨rfl, ?_, .inl⟩
  unfold storedThread boundAgentThreadEvents markInterruptedTurns
  rw [List.map_map, List.forall₂_map_right_iff]
  refine forall₂_same.2 fun turn _ => ⟨?_, fun _ => ?_⟩
  · exact (boundAgentTurnEvents_same _).turnId.trans (markInterruptedTurn_turnId turn)
  · rw [Function.comp_apply, boundAgentTurnEvents_status]
    exact markInterruptedTurn_terminal turn

lemma freshTurns_of_any {source}
    (h : (source.turns.any fun turn => (findTurn ⟨threads⟩ turn.turnId).isSome) = false)
    (htkn : TakenThread source thread) :
    ∀ turn ∈ thread.turns, FreshTurn threads turn.turnId := by
  intro turn hturn
  obtain ⟨index, hlt, rfl⟩ := getElem_of_mem hturn
  have hlt' : index < source.turns.length := htkn.turns.length_eq ▸ hlt
  have hid := (forall₂_iff_get.1 htkn.turns).2 index hlt' hlt
  rw [get_eq_getElem, get_eq_getElem] at hid
  rw [hid.turnId]
  refine freshTurn_of_findTurn (Bool.eq_false_iff.2 fun hget => ?_)
  exact Bool.eq_false_iff.1 h (any_eq_true.2 ⟨_, getElem_mem hlt', hget⟩)

lemma createThread_step (hkeyed : Keyed state.threads) (thread) :
    StoreStep [thread] state (createThread state thread) := by
  unfold createThread
  split_ifs with hpres hfound
  · exact .refl _ _
  · exact .refl _ _
  rw [Bool.not_eq_true] at hpres hfound
  rw [has_eq, isSome_eq_false_iff, isNone_iff_eq_none] at hpres
  have hkept threadId :
      Kept (state.threads.set thread.threadId (boundAgentThreadEvents thread))
        (evictThreadsForRoot (state.threads.set thread.threadId (boundAgentThreadEvents thread))
          thread.owner.rootKey) threadId :=
    evictThreadsForRoot_kept (keyed_set hkeyed (boundAgentThreadEvents thread)) _ threadId
  have hoth {threadId} (hne : threadId ≠ thread.threadId) : Kept state.threads
      (evictThreadsForRoot (state.threads.set thread.threadId (boundAgentThreadEvents thread))
        thread.owner.rootKey) threadId := by
    have hset := hkept threadId
    unfold Kept at hset ⊢
    rwa [get?_set, if_neg hne] at hset
  refine .insert (mem_singleton_self thread) (boundAgentThreadEvents_taken thread) hpres (fun _ => hoth) ?_ ?_
  · have hset := hkept thread.threadId
    unfold Kept at hset
    rw [get?_set, if_pos rfl] at hset
    exact hset.imp_right fun h => ⟨h.1, h.2 _ rfl⟩
  · intro turn hturn threadId other hne hget
    exact freshTurns_of_any hfound (boundAgentThreadEvents_taken thread) turn hturn threadId other
      ((hoth hne).of_some hget)

lemma withoutVictim_kept (hkeyed : Keyed state.threads) {evictThreadId}
    (h : withoutVictim state thread evictThreadId = some threads) (threadId : JsString) :
    Kept state.threads threads threadId := by
  unfold withoutVictim at h
  cases evictThreadId with
  | none =>
    cases h
    exact .inl rfl
  | some evictThreadId =>
    dsimp only at h
    cases hvictim : state.threads.get? evictThreadId with
    | none =>
      rw [hvictim] at h
      cases h
    | some victim =>
      rw [hvictim] at h
      dsimp only at h
      split_ifs at h with hroot hevict
      cases h
      refine kept_delete (fun other hoth => ?_) threadId
      rw [hkeyed _ _ hvictim, hvictim] at hoth
      cases hoth
      simp only [isEvictableThread, Bool.not_eq_true', Bool.not_eq_false, Bool.and_eq_true] at hevict
      exact isNone_iff_eq_none.1 hevict.2

lemma openHistoryThread_step (hkeyed : Keyed state.threads) (thread)
    (evictThreadId) :
    StoreStep [thread] state (openHistoryThread state thread evictThreadId) := by
  unfold openHistoryThread
  by_cases hpres : state.threads.has thread.threadId
  · rw [if_pos hpres]
    exact .refl _ _
  rw [if_neg hpres]
  rw [Bool.not_eq_true, has_eq, isSome_eq_false_iff, isNone_iff_eq_none] at hpres
  cases hths : withoutVictim state thread evictThreadId with
  | none => exact .refl _ _
  | some threads =>
    dsimp only
    split_ifs with hfull hfound
    · exact .refl _ _
    · exact .refl _ _
    rw [Bool.not_eq_true] at hfound
    have hkept := withoutVictim_kept hkeyed hths
    have hget {threadId} (hne : threadId ≠ thread.threadId) :
        (threads.set thread.threadId (storedThread thread)).get? threadId = threads.get? threadId := by
      rw [get?_set, if_neg hne]
    refine .insert (mem_singleton_self thread) (storedThread_taken thread) hpres (fun threadId hne => ?_)
      (.inl ?_) ?_
    · have hsame := hkept threadId
      unfold Kept at hsame ⊢
      rwa [← hget hne] at hsame
    · exact (get?_set ..).trans (if_pos rfl)
    · intro turn hturn threadId other hne hoth
      exact freshTurns_of_any hfound (storedThread_taken thread) turn hturn threadId other
        ((hget hne).symm.trans hoth)

lemma keptThreads_get? (threads) (rootKey : JsString)
    (retainedThreadIds) (threadId : JsString) :
    (keptThreads threads rootKey retainedThreadIds).get? threadId =
      (threads.get? threadId).filter fun thread => thread.owner.rootKey ≠ rootKey ||
        (runningTurn thread).isSome || decide (threadId ∈ retainedThreadIds) := by
  have hfold := threads.get?_foldl_set_filter (fun entry => entry.2.owner.rootKey ≠ rootKey ||
    (runningTurn entry.2).isSome || decide (entry.1 ∈ retainedThreadIds)) threadId
  rw [← hfold, keptThreads]
  congr 2
  funext kept entry
  by_cases hroot : entry.2.owner.rootKey = rootKey
  · simp [hroot]
  · simp [hroot]

lemma keptThreads_kept (threads) (rootKey : JsString)
    (retainedThreadIds) (threadId : JsString) :
    Kept threads (keptThreads threads rootKey retainedThreadIds) threadId := by
  unfold Kept
  rw [keptThreads_get?]
  cases threads.get? threadId with
  | none => exact .inl rfl
  | some thread =>
    rw [filter_some]
    split_ifs with hkept
    · exact .inl rfl
    · refine .inr ⟨rfl, fun other hoth => ?_⟩
      cases hoth
      simp only [Bool.or_eq_true, not_or] at hkept
      simpa using hkept.1.2

variable (owner : AgentThreadLoadOwner)

lemma takeLoadedThread_cases (threads) (thread) :
    takeLoadedThread owner threads thread = threads ∨
      threads.get? thread.threadId = none ∧
        takeLoadedThread owner threads thread = threads.set thread.threadId (storedThread thread) := by
  unfold takeLoadedThread
  split_ifs with hroot howner hpres
  · exact .inl rfl
  · exact .inl rfl
  · exact .inl rfl
  · rw [Bool.not_eq_true, has_eq, isSome_eq_false_iff,
      isNone_iff_eq_none] at hpres
    exact .inr ⟨hpres, rfl⟩

variable (loaded : List AgentThread)

lemma foldl_takeLoadedThread
    (threads) (threadId : JsString) (thread) :
    (threads.get? threadId = some thread →
        (loaded.foldl (takeLoadedThread owner) threads).get? threadId = some thread) ∧
      ((loaded.foldl (takeLoadedThread owner) threads).get? threadId = some thread →
        threads.get? threadId = some thread ∨
          ∃ source ∈ loaded, source.threadId = threadId ∧ thread = storedThread source) := by
  induction loaded generalizing threads with
  | nil => exact ⟨id, .inl⟩
  | cons source loaded ih =>
    rw [foldl_cons]
    obtain ⟨hstays, hfrom⟩ := ih (takeLoadedThread owner threads source)
    rcases takeLoadedThread_cases owner threads source with hsame | ⟨hnew, hset⟩
    · rw [hsame] at hstays hfrom ⊢
      refine ⟨hstays, fun h => (hfrom h).imp_right ?_⟩
      rintro ⟨other, hoth, hrest⟩
      exact ⟨other, mem_cons_of_mem _ hoth, hrest⟩
    · rw [hset, get?_set] at hstays hfrom
      rw [hset]
      by_cases hid : threadId = source.threadId
      · rw [if_pos hid] at hstays hfrom
        constructor
        · intro h
          rw [hid, hnew] at h
          cases h
        · intro h
          rcases hfrom h with heq | ⟨other, hoth, hrest⟩
          · exact .inr ⟨source, mem_cons_self, hid.symm, (some.inj heq).symm⟩
          · exact .inr ⟨other, mem_cons_of_mem _ hoth, hrest⟩
      · rw [if_neg hid] at hstays hfrom
        refine ⟨hstays, fun h => (hfrom h).imp_right ?_⟩
        rintro ⟨other, hoth, hrest⟩
        exact ⟨other, mem_cons_of_mem _ hoth, hrest⟩

lemma keyed_foldl_takeLoadedThread
    (h : Keyed threads) :
    Keyed (loaded.foldl (takeLoadedThread owner) threads) := by
  intro threadId thread hthr
  rcases (foldl_takeLoadedThread owner loaded threads threadId thread).2 hthr with
    hold | ⟨source, -, hid, rfl⟩
  · exact h _ _ hold
  · exact hid

/-- **A load keeps what runs and takes over only threads of the load**, none of
which runs. -/
theorem loadThreads_get? (hkeyed : Keyed state.threads) (owner)
    (loaded) (retainedThreadIds) (threadId : JsString)
    (thread) :
    (state.threads.get? threadId = some thread → runningTurn thread ≠ none →
        (loadThreads state owner loaded retainedThreadIds).threads.get? threadId = some thread) ∧
      ((loadThreads state owner loaded retainedThreadIds).threads.get? threadId = some thread →
        state.threads.get? threadId = some thread ∨
          ∃ source ∈ loaded, source.threadId = threadId ∧ thread = storedThread source) := by
  have hkept := keptThreads_kept state.threads owner.rootKey retainedThreadIds
  have hkeyedKept : Keyed (keptThreads state.threads owner.rootKey retainedThreadIds) :=
    fun threadId thread hthr => hkeyed _ _ ((hkept threadId).of_some hthr)
  have hevicted := evictThreadsForRoot_kept (keyed_foldl_takeLoadedThread owner loaded hkeyedKept)
    owner.rootKey threadId
  obtain ⟨hstays, hfrom⟩ := foldl_takeLoadedThread owner loaded
    (keptThreads state.threads owner.rootKey retainedThreadIds) threadId thread
  constructor
  · intro hthr hrun
    have hheld := hstays (((hkept threadId).resolve_right fun hgone =>
      hrun (hgone.2 thread hthr)).trans hthr)
    exact (hevicted.resolve_right fun hgone => hrun (hgone.2 thread hheld)).trans hheld
  · intro hthr
    exact (hfrom (hevicted.of_some hthr)).imp_left (hkept threadId).of_some

/-- **An action that is no load is a step of the store.** -/
theorem agentThreadsReducer_step
    (hkeyed : Keyed state.threads) (action) (h : action.isLoaded = false) :
    StoreStep action.supplied state (agentThreadsReducer localeCompare state action) := by
  cases action with
  | loaded owner threads retainedThreadIds => cases h
  | threadOrganizationUpdated threadId owner patch =>
    exact updateAgentThreadOrganization_step threadId owner patch
  | threadReordered threadId owner targetThreadId placement destination now =>
    exact reorderAgentThread_step localeCompare threadId owner targetThreadId placement now destination
  | threadCreated thread => exact createThread_step hkeyed thread
  | historyThreadEvicted threadId => exact evictHistoryThread_step threadId
  | historyThreadOpened thread evictThreadId =>
    exact openHistoryThread_step hkeyed thread evictThreadId
  | externalHistoryLoaded threadId owner history =>
    exact loadExternalHistory_step hkeyed threadId owner history
  | turnStarted threadId turn => exact startTurn_step hkeyed threadId turn
  | backgroundTurnRecorded threadId workspaceId turn =>
    exact recordBackgroundTurn_step hkeyed threadId workspaceId turn
  | taskStatusEvent threadId event nowEpochMs =>
    exact applyTurnStatusEvent_step hkeyed threadId event nowEpochMs
  | turnEventsAppended action => exact appendTurnEvents_step hkeyed action
  | turnSteered threadId turnId event => exact appendSteeredMessage_step hkeyed threadId turnId event
  | turnInterrupted turnId nowEpochMs => exact interruptTurn_step hkeyed turnId nowEpochMs
  | turnHaltRequested request => exact requestAgentTurnHalt_step hkeyed request
  | turnHydrated threadId turnId events hasEarlier =>
    exact hydrateTurn_step hkeyed threadId turnId events hasEarlier
  | turnPromptRestored threadId turnId prompt =>
    exact restoreTurnPrompt_step hkeyed threadId turnId prompt
  | turnLifecycleRestored threadId turnId lifecycle =>
    exact restoreTurnLifecycle_step hkeyed threadId turnId lifecycle
  | integrationRecorded threadId integration =>
    exact recordIntegration_step hkeyed threadId integration
  | threadViewed threadId atEpochMs => exact markThreadViewed_step hkeyed threadId atEpochMs
  | threadMarkedUnread threadId => exact markThreadUnread_step hkeyed threadId
  | threadRenamed threadId title => exact renameThread_step hkeyed threadId title
  | ownerRebound threadId previousOwnerId owner =>
    exact rebindOwner_step hkeyed threadId previousOwnerId owner
  | pinToggled threadId => exact togglePin_step hkeyed threadId
  | archived threadId => exact archiveThread_step hkeyed threadId
  | unarchived threadId => exact unarchiveThread_step hkeyed threadId
  | providerSessionInvalidated threadId owner sessionId =>
    exact invalidateProviderSession_step hkeyed threadId owner sessionId
  | deleted threadId => exact deleteThread_step threadId
  | ownerReleased ownerId => exact releaseOwner_step ownerId

/-- **The keys of the store stay the ids of its threads.** -/
theorem agentThreadsReducer_keyed (hkeyed : Keyed state.threads) (action) :
    Keyed (agentThreadsReducer localeCompare state action).threads := by
  by_cases hload : action.isLoaded
  · cases action with
    | loaded owner loaded retainedThreadIds =>
      intro threadId thread hthr
      rcases (loadThreads_get? hkeyed owner loaded retainedThreadIds threadId thread).2 hthr with
        hold | ⟨source, -, hid, rfl⟩
      · exact hkeyed _ _ hold
      · exact hid
    | _ => cases hload
  rw [Bool.not_eq_true] at hload
  have hstep := agentThreadsReducer_step localeCompare hkeyed action hload
  intro threadId thread hthr
  cases hstep with
  | update h =>
    have hrel := h threadId
    rw [hthr] at hrel
    generalize hold : state.threads.get? threadId = old at hrel
    cases hrel with
    | some hsame => exact hsame.threadId.trans (hkeyed _ _ hold)
  | remove h => exact hkeyed _ _ ((h threadId).of_some hthr)
  | @place old placed turn front back hold hfresh hpl hnext =>
    rw [hnext, replaceThread, get?_set] at hthr
    split_ifs at hthr with hid
    · cases hthr
      exact hid.symm
    · exact hkeyed _ _ hthr
  | @insert source inserted hsource htkn hnew hoths hself hfresh =>
    by_cases hid : threadId = inserted.threadId
    · rw [hid] at hthr ⊢
      rcases hself with hself | ⟨hself, -⟩
      · rw [hself] at hthr
        cases hthr
        rfl
      · rw [hself] at hthr
        cases hthr
    · exact hkeyed _ _ ((hoths threadId hid).of_some hthr)

end CodevoEditor.Threads
