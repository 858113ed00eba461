/-
# No update of a turn log is lost

A run interleaves accepting, taking, committing and clipping.
-/

import CodevoEditor.AgentEvents.Merge
import CodevoEditor.TurnLog.Acceptance

namespace CodevoEditor.TurnLog

open Js AgentEvents List Function

variable {δ : Type}

/-- What is done with a window; an object that is accepted is given by its number, a
batch that is committed by how many were taken after it. -/
inductive WindowAction
  | accept (objects : List ℕ)
  | take (maxOps : ℕ) (maxBytes : ℤ)
  | commit (batch : ℕ)
  | clip (seq : ℕ)

/-- A window, the batches that were taken from it, the last one first, what its rows
hold and what was last committed for them. -/
structure WindowRun (δ : Type) where
  window : WindowState δ
  taken : List (AgentTurnWindowBatch δ)
  content : ℕ → Option AgentTurnEvent
  committed : ℕ → Option AgentTurnEvent

/-- Rows with what the dirty ones hold now. -/
def overlay (dirty : OrderedMap ℕ EventObject) (content : ℕ → Option AgentTurnEvent) (seq : ℕ) :
    Option AgentTurnEvent :=
  ((dirty.get? seq).map (·.event)).or (content seq)

/-- Rows with what the entries of a batch hold. -/
def store (committed : ℕ → Option AgentTurnEvent) (ops : List AgentTurnLogEntry) : ℕ → Option AgentTurnEvent :=
  ops.foldl (fun committed op => Function.update committed op.seq (some op.event.event)) committed

/-- The object with a number, among those that hold `given`. -/
def givenObject (given : ℕ → AgentTurnEvent) (number : ℕ) : EventObject :=
  ⟨.given number, given number⟩

section Run

variable (policy : AgentTurnWindowPolicy) (foldDigest : δ → List AgentTurnEvent → δ)
  (given : ℕ → AgentTurnEvent)

def WindowRun.step (run : WindowRun δ) : WindowAction → WindowRun δ
  | .accept objects =>
      let window := (run.window.acceptEvents policy foldDigest (objects.map (givenObject given))).1
      { run with window, content := overlay window.dirty run.content }
  | .take maxOps maxBytes =>
      { run with taken := run.window.takeBatch policy maxOps maxBytes :: run.taken }
  | .commit batch =>
      match run.taken[batch]? with
      | none => run
      | some batch =>
          { run with
            window := run.window.commitBatch policy batch
            committed := store run.committed batch.ops }
  | .clip seq =>
      let window := (run.window.clipRow policy seq).1
      { run with window, content := overlay window.dirty run.content }

def WindowRun.start (firstSeq : ℕ) (digest : δ) : WindowRun δ :=
  ⟨.create firstSeq digest, [], fun _ => none, fun _ => none⟩

/-- The run of `actions` on a new window. -/
def windowRun (firstSeq : ℕ) (digest : δ) (actions : List WindowAction) : WindowRun δ :=
  actions.foldl (WindowRun.step policy foldDigest given) (.start firstSeq digest)

end Run

/-- Every row is dirty or holds what was last committed for it. -/
def NoLostUpdate (run : WindowRun δ) : Prop :=
  ∀ seq, (run.window.dirty.get? seq).isSome ∨ run.content seq = run.committed seq

variable {given made : ℕ → AgentTurnEvent}

/-- An object holds what is known of it, of `count` objects that were made. -/
def Recorded (given made : ℕ → AgentTurnEvent) (count : ℕ) (object : EventObject) : Prop :=
  match object.id with
  | .given number => object.event = given number
  | .made number => number < count ∧ object.event = made number
  | .clipped => object.event = clippedAgentTurnLogRow.event

variable {object : EventObject}

variable {count : ℕ}

/-- **Objects that are the same hold the same event.** -/
theorem Recorded.event_eq {other} (h : Recorded given made count object)
    (h' : Recorded given made count other) (hid : object.id = other.id) :
    object.event = other.event := by
  unfold Recorded at h h'
  rw [hid] at h
  cases hoth : other.id with
  | given number =>
    rw [hoth] at h h'
    exact h.trans h'.symm
  | made number =>
    rw [hoth] at h h'
    exact h.2.trans h'.2.symm
  | clipped =>
    rw [hoth] at h h'
    exact h.trans h'.symm

lemma Recorded.grow {made' : ℕ → AgentTurnEvent} {count'}
    (h : Recorded given made count object) (hcnt : count ≤ count')
    (hmade : ∀ number < count, made' number = made number) :
    Recorded given made' count' object := by
  unfold Recorded at h ⊢
  cases hid : object.id with
  | given number =>
    rw [hid] at h
    exact h
  | made number =>
    rw [hid] at h
    obtain ⟨hlt, hev⟩ := h
    exact ⟨by omega, hev.trans (hmade number hlt).symm⟩
  | clipped =>
    rw [hid] at h
    exact h

/-- What accepting and clipping do to the dirty rows. -/
structure Marked (given : ℕ → AgentTurnEvent) (state next : WindowState δ) : Prop where
  objects : state.objects ≤ next.objects
  kept : ∀ seq, next.dirty.get? seq = none → state.dirty.get? seq = none
  recorded : ∀ made : ℕ → AgentTurnEvent,
    (∀ seq object, state.dirty.get? seq = some object → Recorded given made state.objects object) →
    ∃ made' : ℕ → AgentTurnEvent, (∀ number < state.objects, made' number = made number) ∧
      ∀ seq object, next.dirty.get? seq = some object → Recorded given made' next.objects object

variable {state : WindowState δ}

variable {next : WindowState δ}

lemma Marked.of_dirty (hdrt : next.dirty = state.dirty)
    (hobjs : state.objects ≤ next.objects) : Marked given state next := by
  refine ⟨hobjs, fun seq hnone => hdrt ▸ hnone, fun made hmade => ⟨made, fun _ _ => rfl, ?_⟩⟩
  intro seq object hobj
  rw [hdrt] at hobj
  exact (hmade seq object hobj).grow hobjs fun _ _ => rfl

lemma Marked.trans {first second third : WindowState δ} (h : Marked given first second)
    (h' : Marked given second third) : Marked given first third := by
  refine ⟨h.objects.trans h'.objects, fun seq hnone => h.kept seq (h'.kept seq hnone), ?_⟩
  intro made hmade
  obtain ⟨made', hagree, hmade'⟩ := h.recorded made hmade
  obtain ⟨made'', hagree', hmade''⟩ := h'.recorded made' hmade'
  refine ⟨made'', fun number hlt => ?_, hmade''⟩
  have hobjs := h.objects
  exact (hagree' number (by omega)).trans (hagree number hlt)

variable {seq : ℕ}

lemma Marked.set (hdrt : next.dirty = state.dirty.set seq object)
    (hobjs : state.objects ≤ next.objects)
    (hobj : (∀ made, Recorded given made next.objects object) ∨ ∃ number, object.id = .made number ∧
      state.objects ≤ number ∧ number < next.objects) :
    Marked given state next := by
  refine ⟨hobjs, fun other hnone => ?_, fun made hmade => ?_⟩
  · rw [hdrt, OrderedMap.get?_set] at hnone
    split_ifs at hnone
    exact hnone
  · rcases hobj with hold | ⟨number, hid, hle, hlt⟩
    · refine ⟨made, fun _ _ => rfl, fun other found hget => ?_⟩
      rw [hdrt, OrderedMap.get?_set] at hget
      split_ifs at hget
      · cases hget
        exact hold made
      · exact (hmade other found hget).grow hobjs fun _ _ => rfl
    · have hagree : ∀ other < state.objects, Function.update made number object.event other = made other := by
        intro other hoth
        exact update_of_ne (by omega) _ _
      refine ⟨Function.update made number object.event, hagree, fun other found hget => ?_⟩
      rw [hdrt, OrderedMap.get?_set] at hget
      split_ifs at hget
      · cases hget
        unfold Recorded
        rw [hid]
        refine ⟨hlt, ?_⟩
        rw [update_self]
      · exact (hmade other found hget).grow hobjs hagree

lemma marked_acceptEvent (policy) (given : ℕ → AgentTurnEvent)
    (state : WindowState δ) (number : ℕ) :
    Marked given state (state.acceptEvent policy (givenObject given number)) := by
  have hacc := WindowState.acceptance_acceptEvent policy state (givenObject given number)
  generalize state.acceptEvent policy (givenObject given number) = next at hacc ⊢
  have hmark {seq : ℕ} {event : AgentTurnEvent}
      (hmarks : WindowState.Marks state next (givenObject given number) seq event) :
      Marked given state next := by
    obtain ⟨hobjs, marked, hdrt, -, hnew⟩ := hmarks
    refine .set hdrt hobjs (hnew.imp_left ?_)
    rintro rfl made
    rfl
  cases hacc with
  | refused _ hnext => exact .of_dirty (hnext ▸ rfl) (hnext ▸ le_rfl)
  | joined _ hmarks => exact hmark hmarks
  | renewed _ _ hmarks => exact hmark hmarks
  | appended _ _ hmarks => exact hmark hmarks

lemma marked_acceptEvents (policy)
    (foldDigest : δ → List AgentTurnEvent → δ) (given : ℕ → AgentTurnEvent)
    (state : WindowState δ) (numbers : List ℕ) :
    Marked given state (state.acceptEvents policy foldDigest (numbers.map (givenObject given))).1 := by
  have hfold : Marked given state
      ((numbers.map (givenObject given)).foldl (WindowState.acceptEvent policy) state) := by
    induction numbers generalizing state with
    | nil => exact .of_dirty rfl le_rfl
    | cons number numbers ih =>
      exact (marked_acceptEvent policy given state number).trans (ih _)
  exact hfold.trans (.of_dirty rfl le_rfl)

lemma marked_clipRow (policy) (given : ℕ → AgentTurnEvent)
    (state : WindowState δ) (seq : ℕ) : Marked given state (state.clipRow policy seq).1 := by
  unfold WindowState.clipRow
  cases state.dirty.get? seq with
  | none => exact .of_dirty rfl le_rfl
  | some current =>
    dsimp only
    split_ifs
    · exact .of_dirty rfl le_rfl
    · exact .set rfl le_rfl (.inl fun _ => rfl)

variable {ops : List AgentTurnLogEntry}

lemma store_of_not_mem (h : ∀ op ∈ ops, op.seq ≠ seq) (committed : ℕ → Option AgentTurnEvent) :
    store committed ops seq = committed seq := by
  unfold store
  induction ops generalizing committed with
  | nil => rfl
  | cons op ops ih =>
    rw [foldl_cons, ih fun other hoth => h other (mem_cons_of_mem _ hoth)]
    exact update_of_ne (h op mem_cons_self).symm _ _

variable {op : AgentTurnLogEntry}

lemma store_of_mem (hnd : (ops.map (·.seq)).Nodup) (hop : op ∈ ops)
    (committed : ℕ → Option AgentTurnEvent) :
    store committed ops op.seq = some op.event.event := by
  unfold store
  induction ops generalizing committed with
  | nil => cases hop
  | cons first ops ih =>
    rw [map_cons, nodup_cons] at hnd
    rw [foldl_cons]
    rcases mem_cons.1 hop with rfl | hop
    · refine (store_of_not_mem (fun other hoth hseq => hnd.1 ?_) _).trans ?_
      · exact hseq ▸ mem_map_of_mem hoth
      · rw [update_self]
    · exact ih hnd.2 hop _

section Invariants

variable {policy : AgentTurnWindowPolicy} {foldDigest : δ → List AgentTurnEvent → δ}
  {given : ℕ → AgentTurnEvent} {run : WindowRun δ}

/-- A dirty row holds what it is marked with, and objects that are the same, in the
window or in a batch, hold the same event. -/
structure RunInvariant (given : ℕ → AgentTurnEvent) (run : WindowRun δ) : Prop where
  content : ∀ seq object, run.window.dirty.get? seq = some object → run.content seq = some object.event
  recorded : ∃ made : ℕ → AgentTurnEvent,
    (∀ seq object, run.window.dirty.get? seq = some object → Recorded given made run.window.objects object) ∧
    ∀ batch ∈ run.taken, ∀ op ∈ batch.ops, Recorded given made run.window.objects op.event

variable {dirty : OrderedMap ℕ EventObject}

lemma overlay_of_some (h : dirty.get? seq = some object) (content : ℕ → Option AgentTurnEvent) :
    overlay dirty content seq = some object.event := by
  rw [overlay, h]
  rfl

lemma overlay_of_none (h : dirty.get? seq = none) (content : ℕ → Option AgentTurnEvent) :
    overlay dirty content seq = content seq := by
  rw [overlay, h]
  rfl

variable {window : WindowState δ}

lemma RunInvariant.marked (h : RunInvariant given run) (hmark : Marked given run.window window) :
    RunInvariant given { run with window, content := overlay window.dirty run.content } := by
  obtain ⟨made, hdrt, hbatches⟩ := h.recorded
  obtain ⟨made', hagree, hdirty'⟩ := hmark.recorded made hdrt
  refine ⟨fun seq object hobj => overlay_of_some hobj _, made', hdirty', ?_⟩
  exact fun batch hbatch op hop => (hbatches batch hbatch op hop).grow hmark.objects hagree

lemma mem_ops_takeBatch {maxOps} {maxBytes}
    (h : op ∈ (state.takeBatch policy maxOps maxBytes).ops) :
    state.dirty.get? op.seq = some op.event := by
  obtain ⟨hfst, -⟩ := @WindowState.takeBatch_spec _ policy state maxOps maxBytes
  exact WindowState.mem_dirtyRows.1 (hfst.subset h)

lemma nodup_ops_takeBatch (state : WindowState δ) (maxOps : ℕ) (maxBytes : ℤ) :
    ((state.takeBatch policy maxOps maxBytes).ops.map (·.seq)).Nodup := by
  obtain ⟨hfst, -⟩ := @WindowState.takeBatch_spec _ policy state maxOps maxBytes
  have hsort := WindowState.pairwise_sortedSeqs state
  rw [← WindowState.map_seq_dirtyRows] at hsort
  exact (hsort.sublist (hfst.sublist.map _)).imp fun h => Nat.ne_of_lt h

lemma objects_commitOp (state : WindowState δ) (op) : (state.commitOp policy op).objects = state.objects := by
  unfold WindowState.commitOp
  cases state.dirty.get? op.seq with
  | none => rfl
  | some current =>
    dsimp only
    split_ifs <;> rfl

lemma objects_commitBatch (state : WindowState δ) (batch) :
    (state.commitBatch policy batch).objects = state.objects := by
  have hfold : ∀ ops : List AgentTurnLogEntry,
      (ops.foldl (WindowState.commitOp policy) state).objects = state.objects := by
    intro ops
    induction ops using List.reverseRecOn with
    | nil => rfl
    | append_singleton ops op ih => rw [foldl_concat, objects_commitOp, ih]
  unfold WindowState.commitBatch
  dsimp only
  split_ifs
  · exact hfold batch.ops
  · exact hfold batch.ops

lemma RunInvariant.step (h : RunInvariant given run) (action : WindowAction) :
    RunInvariant given (run.step policy foldDigest given action) := by
  cases action with
  | accept objects => exact h.marked (marked_acceptEvents policy foldDigest given run.window objects)
  | clip seq => exact h.marked (marked_clipRow policy given run.window seq)
  | take maxOps maxBytes =>
    obtain ⟨made, hdrt, hbatches⟩ := h.recorded
    refine ⟨h.content, made, hdrt, fun batch hbatch op hop => ?_⟩
    rcases mem_cons.1 hbatch with rfl | hbatch
    · exact hdrt op.seq op.event (mem_ops_takeBatch hop)
    · exact hbatches batch hbatch op hop
  | commit number =>
    rw [WindowRun.step]
    cases hbatch : run.taken[number]? with
    | none => exact h
    | some batch =>
      obtain ⟨made, hdrt, hbatches⟩ := h.recorded
      have hkept {seq} {object}
          (hobj : (run.window.commitBatch policy batch).dirty.get? seq = some object) :
          run.window.dirty.get? seq = some object := by
        rcases @WindowState.get?_commitBatch _ policy run.window batch seq with hsame | ⟨hnone, -⟩
        · rw [← hsame, hobj]
        · rw [hnone] at hobj
          cases hobj
      refine ⟨fun seq object hobj => h.content seq object (hkept hobj), made, ?_, ?_⟩
      · intro seq object hobj
        rw [objects_commitBatch]
        exact hdrt seq object (hkept hobj)
      · dsimp only
        rw [objects_commitBatch]
        exact hbatches

lemma runInvariant_windowRun (policy)
    (foldDigest : δ → List AgentTurnEvent → δ) (given : ℕ → AgentTurnEvent) (firstSeq : ℕ)
    (digest : δ) (actions) :
    RunInvariant given (windowRun policy foldDigest given firstSeq digest actions) := by
  induction actions using List.reverseRecOn with
  | nil =>
    refine ⟨?_, fun _ => .error [], ?_, ?_⟩
    · rintro seq object ⟨⟩
    · rintro seq object ⟨⟩
    · rintro batch ⟨⟩
  | append_singleton actions action ih =>
    rw [windowRun, foldl_concat]
    exact ih.step action

variable {batch : AgentTurnWindowBatch δ}

lemma RunInvariant.content_of_committed (h : RunInvariant given run) (hbatch : batch ∈ run.taken)
    (hop : op ∈ batch.ops) (hholds : run.window.Holds op) :
    run.content op.seq = some op.event.event := by
  obtain ⟨current, hcur, hid⟩ := hholds
  obtain ⟨made, hdrt, hbatches⟩ := h.recorded
  rw [h.content op.seq current hcur, (hdrt op.seq current hcur).event_eq (hbatches batch hbatch op hop) hid]

/-- **A row that has been rewritten stays dirty** when an earlier batch is committed. -/
theorem commit_keeps_rewritten (h : RunInvariant given run) (hbatch : batch ∈ run.taken)
    (hobj : run.window.dirty.get? seq = some object)
    (hrewritten : ∀ op ∈ batch.ops, op.seq = seq → op.event.event ≠ object.event) :
    (run.window.commitBatch policy batch).dirty.get? seq = some object := by
  rcases @WindowState.get?_commitBatch _ policy run.window batch seq with
    hsame | ⟨-, op, hop, rfl, hholds⟩
  · rw [hsame, hobj]
  · have hcontent := h.content_of_committed hbatch hop hholds
    rw [h.content op.seq object hobj] at hcontent
    exact absurd (Option.some.inj hcontent).symm (hrewritten op hop rfl)

/-- A row of the last batch is dirty or holds what the batch does. -/
structure LastBatch (run : WindowRun δ) : Prop where
  nodup : ∀ batch ∈ run.taken.head?, (batch.ops.map (·.seq)).Nodup
  held : ∀ batch ∈ run.taken.head?, ∀ op ∈ batch.ops,
    (run.window.dirty.get? op.seq).isSome ∨ run.content op.seq = some op.event.event
  noLost : NoLostUpdate run

lemma LastBatch.marked (h : LastBatch run) (hmark : Marked given run.window window) :
    LastBatch { run with window, content := overlay window.dirty run.content } := by
  -- A row that is not dirty was not, and is as it was.
  have hrow {seq} {value}
      (hpre : (run.window.dirty.get? seq).isSome ∨ run.content seq = value) :
      (window.dirty.get? seq).isSome ∨ overlay window.dirty run.content seq = value := by
    cases haft : window.dirty.get? seq with
    | some object => exact .inl rfl
    | none =>
      rw [hmark.kept seq haft] at hpre
      refine .inr ((overlay_of_none haft _).trans ?_)
      simpa using hpre
  exact ⟨h.nodup, fun batch hbatch op hop => hrow (h.held batch hbatch op hop), fun seq => hrow (h.noLost seq)⟩

lemma LastBatch.step (h : LastBatch run) (hinv : RunInvariant given run)
    (action : WindowAction) (hcommit : ∀ number, action = .commit number → number = 0) :
    LastBatch (run.step policy foldDigest given action) := by
  cases action with
  | accept objects => exact h.marked (marked_acceptEvents policy foldDigest given run.window objects)
  | clip seq => exact h.marked (marked_clipRow policy given run.window seq)
  | take maxOps maxBytes =>
    refine ⟨?_, ?_, h.noLost⟩
    · rintro batch ⟨⟩
      exact nodup_ops_takeBatch run.window maxOps maxBytes
    · rintro batch ⟨⟩ op hop
      exact .inl (Option.isSome_iff_exists.2 ⟨op.event, mem_ops_takeBatch hop⟩)
  | commit number =>
    obtain rfl := hcommit number rfl
    rw [WindowRun.step]
    cases hbatch : run.taken[0]? with
    | none => exact h
    | some batch =>
      have hhead : batch ∈ run.taken.head? := by
        rw [head?_eq_getElem?, hbatch]
        rfl
      have hmem : batch ∈ run.taken := mem_of_getElem? hbatch
      -- A row of the batch is dirty after the commit, or holds what is stored.
      have hops : ∀ op ∈ batch.ops,
          ((run.window.commitBatch policy batch).dirty.get? op.seq).isSome ∨
            run.content op.seq = some op.event.event := by
        intro op hop
        rcases @WindowState.get?_commitBatch _ policy run.window batch op.seq with
          hsame | ⟨-, other, hoth, hseq, hholds⟩
        · rw [hsame]
          exact h.held batch hhead op hop
        · have heq : other = op := inj_on_of_nodup_map (h.nodup batch hhead) hoth hop hseq
          subst heq
          exact .inr (hinv.content_of_committed hmem hop hholds)
      refine ⟨h.nodup, ?_, fun seq => ?_⟩
      · intro batch' hbatch' op hop
        rw [Option.mem_def.1 hhead] at hbatch'
        cases hbatch'
        exact hops op hop
      · by_cases hrow : ∃ op ∈ batch.ops, op.seq = seq
        · obtain ⟨op, hop, rfl⟩ := hrow
          dsimp only
          rw [store_of_mem (h.nodup batch hhead) hop]
          exact hops op hop
        · have hnone : ∀ op ∈ batch.ops, op.seq ≠ seq := fun op hop hseq => hrow ⟨op, hop, hseq⟩
          dsimp only
          rw [store_of_not_mem hnone]
          rcases @WindowState.get?_commitBatch _ policy run.window batch seq with
            hsame | ⟨-, op, hop, hseq, -⟩
          · rw [hsame]
            exact h.noLost seq
          · exact absurd hseq (hnone op hop)

/-- **No update is lost** while only the batch that was taken last is committed. -/
theorem run_noLostUpdate (policy)
    (foldDigest : δ → List AgentTurnEvent → δ) (given : ℕ → AgentTurnEvent) (firstSeq : ℕ)
    (digest : δ) (actions)
    (hcommit : ∀ number, .commit number ∈ actions → number = 0) :
    NoLostUpdate (windowRun policy foldDigest given firstSeq digest actions) := by
  suffices h : LastBatch (windowRun policy foldDigest given firstSeq digest actions) from h.noLost
  induction actions using List.reverseRecOn with
  | nil =>
    refine ⟨?_, ?_, fun seq => .inr rfl⟩
    · rintro batch ⟨⟩
    · rintro batch ⟨⟩
  | append_singleton actions action ih =>
    have hpre := ih fun number hnum => hcommit number (mem_append_left _ hnum)
    rw [windowRun, foldl_concat]
    refine hpre.step (runInvariant_windowRun policy foldDigest given firstSeq digest actions)
      action fun number hnum => hcommit number ?_
    rw [hnum]
    exact mem_append_right _ mem_cons_self

/-- **No update of a window is lost**: every row is dirty or holds what was last committed for it,
while only the last batch is committed. -/
theorem windowRun_keeps_updates (policy : AgentTurnWindowPolicy)
    (foldDigest : δ → List AgentTurnEvent → δ) (given : ℕ → AgentTurnEvent) (firstSeq : ℕ)
    (digest : δ) (actions : List WindowAction) :
    let run := windowRun policy foldDigest given firstSeq digest actions
    ((∀ number, .commit number ∈ actions → number = 0) → NoLostUpdate run) ∧
    (∀ batch ∈ run.taken, ∀ seq object, run.window.dirty.get? seq = some object →
      (∀ op ∈ batch.ops, op.seq = seq → op.event.event ≠ object.event) →
        (run.window.commitBatch policy batch).dirty.get? seq = some object) ∧
    (run.window.dirtyRows.map (·.seq)).Pairwise (· < ·) ∧
    (∀ row, row ∈ run.window.dirtyRows ↔ run.window.dirty.get? row.seq = some row.event) ∧
    ∀ maxOps maxBytes,
      let batch := run.window.takeBatch policy maxOps maxBytes
      batch.ops <+: run.window.dirtyRows ∧
      WindowState.Fits policy maxOps maxBytes batch.ops ∧
      (batch.complete ↔ batch.ops = run.window.dirtyRows) ∧
      (0 < maxOps → (run.window.dirty.size ≠ 0 → batch.ops ≠ []) ∧
        (run.window.drain policy maxOps maxBytes run.window.dirty.size).dirty.size = 0) := by
  intro run
  refine ⟨run_noLostUpdate policy foldDigest given firstSeq digest actions, ?_, ?_,
    fun row => WindowState.mem_dirtyRows, fun maxOps maxBytes => ?_⟩
  · intro batch hbatch seq object hobj hrewritten
    exact commit_keeps_rewritten
      (runInvariant_windowRun policy foldDigest given firstSeq digest actions) hbatch hobj
      hrewritten
  · rw [WindowState.map_seq_dirtyRows]
    exact run.window.pairwise_sortedSeqs
  · obtain ⟨hfirst, hfits, hne, hcompl, -⟩ :=
      @WindowState.takeBatch_spec _ policy run.window maxOps maxBytes
    refine ⟨hfirst, hfits, hcompl, fun hmaxOps => ⟨hne hmaxOps, ?_⟩⟩
    exact WindowState.drain_dirty maxBytes hmaxOps _ run.window le_rfl

end Invariants

/-- A policy under which every row has ten bytes. -/
def sampleWindowPolicy : AgentTurnWindowPolicy where
  eventBytes := fun _ => 10
  opBytes := fun _ _ => 10
  coalesceText := coalesceAgentTextEvents
  maxEventBytes := 100
  maxOpBytes := 100

/-- The texts `one` and ` two`. -/
def sampleText (number : ℕ) : AgentTurnEvent :=
  .assistantText { text := js (if number = 0 then "one" else " two") }

/-- **An update is lost** when an older batch is committed after a newer one: the row is not dirty
any more, but its older text was stored last. -/
theorem windowRun_loses_update :
    (¬ ∀ (policy : AgentTurnWindowPolicy) (given : ℕ → AgentTurnEvent) (firstSeq : ℕ)
        (actions : List WindowAction),
      NoLostUpdate (windowRun policy (fun _ _ => ()) given firstSeq () actions)) ∧
    (¬ ∀ (policy : AgentTurnWindowPolicy) (given : ℕ → AgentTurnEvent) (firstSeq : ℕ)
        (actions : List WindowAction) (maxOps : ℕ) (maxBytes : ℤ),
      let window := (windowRun policy (fun _ _ => ()) given firstSeq () actions).window
      WindowState.batchBytes policy (window.takeBatch policy maxOps maxBytes).ops ≤ maxBytes) ∧
    ¬ ∀ (policy : AgentTurnWindowPolicy) (given : ℕ → AgentTurnEvent) (firstSeq : ℕ)
        (actions : List WindowAction) (maxOps : ℕ) (maxBytes : ℤ),
      let window := (windowRun policy (fun _ _ => ()) given firstSeq () actions).window
      window.dirty.size ≠ 0 → (window.takeBatch policy maxOps maxBytes).ops ≠ [] := by
  refine ⟨fun h => ?_, fun h => ?_, fun h => ?_⟩
  · have hrow := h sampleWindowPolicy sampleText 1
      [.accept [0], .take 16 4096, .accept [1], .take 16 4096, .commit 0, .commit 1] 1
    revert hrow
    decide +kernel
  · have hbytes := h sampleWindowPolicy sampleText 1 [.accept [0]] 1 5
    revert hbytes
    decide +kernel
  · have hops := h sampleWindowPolicy sampleText 1 [.accept [0]] 0 4096
    revert hops
    decide +kernel

end CodevoEditor.TurnLog
