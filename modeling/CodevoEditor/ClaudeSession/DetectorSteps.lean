/-
# What a line does to the tasks

A line ends the tasks that a listing has stopped naming, and then at most the one task that it names
is ended or started (`Moved`).
-/

import CodevoEditor.ClaudeSession.TaskBooks
import Mathlib.Data.Finset.Card

namespace CodevoEditor.ClaudeSession

open Js List Option OrderedMap Bool Finset

variable {ν φ : Type}

namespace ResultLineDetector

def books (detector : ResultLineDetector) : TaskBooks :=
  ⟨detector.live, detector.terminal, detector.buried, detector.inherited, detector.level⟩

variable {detector middle next : ResultLineDetector} {message : Json ν} {task : String}

/-- A change that is none of the books. -/
structure Quiet (detector next : ResultLineDetector) : Prop where
  books_eq : next.books = detector.books
  wakeUps_eq : next.wakeUps = detector.wakeUps

lemma Quiet.refl (detector) : Quiet detector detector := ⟨rfl, rfl⟩

lemma Quiet.trans (h : Quiet detector middle) (h' : Quiet middle next) : Quiet detector next :=
  ⟨h'.books_eq.trans h.books_eq, h'.wakeUps_eq.trans h.wakeUps_eq⟩

lemma Quiet.live_eq (h : Quiet detector next) : next.live = detector.live :=
  congrArg TaskBooks.live h.books_eq

lemma Quiet.terminal_eq (h : Quiet detector next) : next.terminal = detector.terminal :=
  congrArg TaskBooks.terminal h.books_eq

/-- A line that starts a task, which has not ended at once. -/
structure Restarts (message : Json ν) (task : String) : Prop where
  subtype_eq : message.strOf "subtype" = some "task_started"
  task_eq : message.strOf "task_id" = some task
  goes_on : terminalFrame "task_started" message = false

/-- A later line of an agent, under another tool than the run that has finished. -/
structure Resumes (message : Json ν) (task : String) (facts : TaskFacts) : Prop where
  task_eq : message.strOf "task_id" = some task
  agent : facts.kind = .agent
  not_inert : facts.inert = false
  other_run : ∃ run tool, facts.run = some run ∧ message.strOf "tool_use_id" = some tool ∧ tool ≠ run

/-- A line wakes up once, for a background run that it ends. -/
def WakesAtMostOnce (message : Json ν) (detector next : ResultLineDetector) : Prop :=
  next.wakeUps = detector.wakeUps ∨
    ∃ task run, message.strOf "task_id" = some task ∧ detector.live.get? task = some run ∧
      run.scope = .background ∧ next.live.get? task = none ∧
      next.wakeUps = wrappingSucc detector.wakeUps

/-- **What a line does to the tasks.** -/
structure Moved (message : Json ν) (detector next : ResultLineDetector) : Prop where
  sound : next.books.Sound
  wakes : WakesAtMostOnce message detector next
  revived : ∀ task ∈ detector.terminal.keys, task ∈ next.live.keys →
    ∃ facts, detector.terminal.get? task = some (.finished facts) ∧
      (Restarts message task ∨ Resumes message task facts)

/-- Tasks that have only ended, without a wake-up. -/
structure Narrows (detector next : ResultLineDetector) : Prop where
  sound : next.books.Sound
  live_sub : ∀ task run, next.live.get? task = some run → detector.live.get? task = some run
  terminal_sub : ∀ task tombstone, detector.terminal.get? task = some tombstone →
    next.terminal.get? task = some tombstone
  wakeUps_eq : next.wakeUps = detector.wakeUps

lemma Quiet.narrows (h : Quiet detector next) (hsound : detector.books.Sound) :
    Narrows detector next where
  sound := by
    rw [h.books_eq]
    exact hsound
  live_sub := fun task run hrun => by rwa [h.live_eq] at hrun
  terminal_sub := fun task tombstone htomb => by rwa [h.terminal_eq]
  wakeUps_eq := h.wakeUps_eq

lemma Narrows.trans (h : Narrows detector middle) (h' : Narrows middle next) :
    Narrows detector next where
  sound := h'.sound
  live_sub := fun task run hrun => h.live_sub task run (h'.live_sub task run hrun)
  terminal_sub := fun task tombstone htomb =>
    h'.terminal_sub task tombstone (h.terminal_sub task tombstone htomb)
  wakeUps_eq := h'.wakeUps_eq.trans h.wakeUps_eq

lemma Narrows.moved (h : Narrows detector next) (hsound : detector.books.Sound)
    (message : Json ν) : Moved message detector next where
  sound := h.sound
  wakes := .inl h.wakeUps_eq
  revived := fun task hterm hlive => by
    obtain ⟨run, hrun⟩ := isSome_iff_exists.1 (mem_keys_iff.1 hlive)
    have hmem := mem_keys_iff.2 (isSome_iff_exists.2 ⟨run, h.live_sub task run hrun⟩)
    exact absurd hterm (hsound.disjoint task hmem)

lemma Moved.of_narrows (h : Narrows detector middle) (h' : Moved message middle next) :
    Moved message detector next where
  sound := h'.sound
  wakes := by
    rcases h'.wakes with heq | ⟨task, run, htask, hrun, hscope, hgone, heq⟩
    · exact .inl (heq.trans h.wakeUps_eq)
    · exact .inr ⟨task, run, htask, h.live_sub task run hrun, hscope, hgone,
        heq.trans (congrArg wrappingSucc h.wakeUps_eq)⟩
  revived := fun task hterm hlive => by
    obtain ⟨tombstone, htomb⟩ := isSome_iff_exists.1 (mem_keys_iff.1 hterm)
    have hmid := h.terminal_sub task tombstone htomb
    obtain ⟨facts, hfacts, hagain⟩ := h'.revived task (mem_keys_iff.2 (by rw [hmid]; rfl)) hlive
    exact ⟨facts, by rw [htomb, ← hmid, hfacts], hagain⟩

lemma Moved.congr (h : Moved message detector middle) (hsound : next.books.Sound)
    (hlive : next.live = middle.live) (hwakeUps : next.wakeUps = middle.wakeUps) :
    Moved message detector next where
  sound := hsound
  wakes := by
    unfold WakesAtMostOnce
    rw [hlive, hwakeUps]
    exact h.wakes
  revived := by
    rw [hlive]
    exact h.revived

lemma Moved.quiet (h : Moved message detector middle) (hqt : Quiet middle next) : Moved message detector next :=
  h.congr (by rw [hqt.books_eq]; exact h.sound) hqt.live_eq hqt.wakeUps_eq

lemma quiet_acceptsRoot (detector) (message : Json ν) : Quiet detector (detector.acceptsRoot message).1 := by
  unfold acceptsRoot
  split_ifs
  · exact .refl _
  · exact ⟨rfl, rfl⟩

lemma quiet_noteMonitorCalls (detector) (message : Json ν) : Quiet detector (detector.noteMonitorCalls message) := by
  unfold noteMonitorCalls
  split_ifs
  · exact .refl _
  · induction monitorCallsOf message generalizing detector with
    | nil => exact .refl _
    | cons call calls ih =>
      have hfst : Quiet detector (detector.noteMonitorCall call) := ⟨rfl, rfl⟩
      exact hfst.trans (ih (detector.noteMonitorCall call))

lemma quiet_closeIfSettled (detector) : Quiet detector detector.closeIfSettled.1 := by
  unfold closeIfSettled
  cases detector.lifecycle with
  | none => exact .refl _
  | some lifecycle => exact ⟨rfl, rfl⟩

lemma quiet_settled (detector) : Quiet detector detector.settled.1 := by
  unfold settled
  split_ifs
  · exact quiet_closeIfSettled detector
  · exact .refl _

lemma quiet_fire {settled} (h : Quiet detector settled.1) :
    Quiet detector (fire settled).1 := ⟨h.books_eq, h.wakeUps_eq⟩

lemma quiet_settleInterrupted (detector) : Quiet detector detector.settleInterrupted.1 := by
  unfold settleInterrupted
  split_ifs
  · exact .refl _
  · exact quiet_fire (quiet_closeIfSettled detector)

lemma quiet_settleFinishedForeground (detector) : Quiet detector detector.settleFinishedForeground.1 := by
  unfold settleFinishedForeground
  split_ifs
  · exact .refl _
  · exact quiet_fire (quiet_closeIfSettled detector)

lemma quiet_settleIfReady (detector) : Quiet detector detector.settleIfReady.1 := by
  unfold settleIfReady
  split_ifs
  · exact .refl _
  · have hcand : Quiet detector { detector with resultCandidate := true } := ⟨rfl, rfl⟩
    exact quiet_fire (hcand.trans (quiet_settled _))
  · exact quiet_fire (quiet_settled detector)

lemma quiet_commandFinished (detector) : Quiet detector detector.commandFinished := by
  unfold commandFinished
  dsimp only
  split_ifs <;> exact ⟨rfl, rfl⟩

lemma quiet_observeLifecycle (detector) (message : Json ν) :
    Quiet detector (detector.observeLifecycle message).1 := by
  unfold observeLifecycle
  cases detector.lifecycle with
  | none => exact .refl _
  | some lifecycle => exact ⟨rfl, rfl⟩

lemma quiet_observeCommand (detector) (message : Json ν) : Quiet detector (detector.observeCommand message).1 := by
  unfold observeCommand
  split_ifs
  · exact .refl _
  · exact quiet_observeLifecycle detector message

lemma quiet_startedFacts (detector) (message : Json ν) : Quiet detector (detector.startedFacts message).1 := by
  unfold startedFacts
  dsimp only
  split
  · exact .refl _
  · split_ifs
    · exact ⟨rfl, rfl⟩
    · exact .refl _

lemma quiet_noteBackground (detector) (scope) : Quiet detector (detector.noteBackground scope) := by
  unfold noteBackground
  split_ifs
  · exact ⟨rfl, rfl⟩
  · exact .refl _

/-! ### Starts and ends -/

lemma books_bury (detector : ResultLineDetector) (task : String) (tombstone : Tombstone) :
    (detector.bury task tombstone).books = detector.books.bury task tombstone := by
  unfold bury TaskBooks.bury books
  split_ifs <;> rfl

lemma wakeUps_bury (detector : ResultLineDetector) (task : String) (tombstone : Tombstone) :
    (detector.bury task tombstone).wakeUps = detector.wakeUps := by
  unfold bury
  split_ifs <;> rfl

lemma start_spec (detector : ResultLineDetector) (task : String) (scope : TaskScope)
    (facts : TaskFacts) (message : Json ν) :
    ∃ run, (detector.start task scope facts message).books =
        detector.books.start task run (leveledTask message) ∧
      (detector.start task scope facts message).wakeUps = detector.wakeUps := by
  unfold start noteBackground
  split_ifs
  · exact ⟨_, rfl, rfl⟩
  · exact ⟨_, rfl, rfl⟩

theorem finish_spec (detector : ResultLineDetector) (task : String) (message : Json ν)
    (taskEnd : TaskEnd) :
    ∃ facts, (detector.finish task message taskEnd).books = detector.books.finish task facts ∧
      ((detector.finish task message taskEnd).wakeUps = detector.wakeUps ∨
        taskEnd = .finished ∧ ∃ run, detector.live.get? task = some run ∧ run.scope = .background ∧
          (detector.finish task message taskEnd).wakeUps = wrappingSucc detector.wakeUps) := by
  unfold finish
  cases hlive : detector.live.get? task with
  | none =>
    refine ⟨taskFacts message none, ?_, .inl (wakeUps_bury _ _ _)⟩
    rw [books_bury]
    unfold TaskBooks.finish TaskBooks.close books
    rw [delete_of_get?_none hlive]
  | some run =>
    have hback := quiet_noteBackground { detector with live := detector.live.delete task } run.scope
    dsimp only
    refine ⟨run.facts, ?_, ?_⟩
    · rw [books_bury]
      unfold noteWakeUp noteBackground
      split_ifs <;> rfl
    · rw [wakeUps_bury]
      unfold noteWakeUp
      split_ifs with hwakes
      · exact .inr ⟨hwakes.2, run, rfl, hwakes.1, congrArg wrappingSucc hback.wakeUps_eq⟩
      · exact .inl hback.wakeUps_eq

lemma live_finish (detector : ResultLineDetector) (task : String) (message : Json ν)
    (taskEnd : TaskEnd) :
    (detector.finish task message taskEnd).live = detector.live.delete task := by
  obtain ⟨facts, hbooks, -⟩ := detector.finish_spec task message taskEnd
  have hlive := congrArg TaskBooks.live hbooks
  unfold TaskBooks.finish at hlive
  rw [TaskBooks.live_bury] at hlive
  exact hlive

variable {taskEnd : TaskEnd} {run : LiveTask} {key : String}

lemma get?_live_finish (h : (detector.finish task message taskEnd).live.get? key = some run) :
    detector.live.get? key = some run := by
  rw [live_finish, get?_delete] at h
  split_ifs at h
  exact h

lemma get?_terminal_finish {tombstone}
    (h : detector.terminal.get? key = some tombstone) :
    (detector.finish task message taskEnd).terminal.get? key = some tombstone := by
  obtain ⟨facts, hbooks, -⟩ := detector.finish_spec task message taskEnd
  have hterm := congrArg TaskBooks.terminal hbooks
  change (detector.finish task message taskEnd).terminal = _ at hterm
  rw [hterm]
  have hcl : (detector.books.close task).terminal.get? key = some tombstone := h
  exact TaskBooks.get?_terminal_bury hcl

lemma mem_terminal_finish (detector : ResultLineDetector) (task : String) (message : Json ν)
    (taskEnd : TaskEnd) : task ∈ (detector.finish task message taskEnd).terminal.keys := by
  obtain ⟨facts, hbooks, -⟩ := detector.finish_spec task message taskEnd
  have hterm := congrArg TaskBooks.terminal hbooks
  change (detector.finish task message taskEnd).terminal = _ at hterm
  rw [hterm]
  unfold TaskBooks.finish
  by_cases hmem : task ∈ (detector.books.close task).terminal.keys
  · rwa [TaskBooks.bury_of_mem hmem]
  · rw [TaskBooks.bury_of_not_mem hmem]
    exact TaskBooks.mem_keys_set.2 (.inl rfl)

/-- **The tasks that a listing has stopped naming end without a wake-up.** -/
theorem narrows_finishEnded (message : Json ν) (tasks : List String) (hsound : detector.books.Sound)
    (htasks : ∀ task ∈ tasks, task ∈ detector.live.keys ∨ task ∈ detector.terminal.keys) :
    Narrows detector (detector.finishEnded message tasks) := by
  induction tasks generalizing detector with
  | nil => exact (Quiet.refl detector).narrows hsound
  | cons task tasks ih =>
    obtain ⟨facts, hbooks, hwakes⟩ := detector.finish_spec task message .unexplained
    have hfst : Narrows detector (detector.finish task message .unexplained) := by
      refine ⟨?_, fun _ _ h => get?_live_finish h, fun _ _ h => get?_terminal_finish h, ?_⟩
      · rw [hbooks]
        refine hsound.finish facts ?_
        rcases htasks task mem_cons_self with hlive | hterm
        · exact .inl hlive
        · exact .inr (.inl hterm)
      · rcases hwakes with heq | ⟨hend, -⟩
        · exact heq
        · cases hend
    refine hfst.trans (ih hfst.sound fun other hoth => ?_)
    by_cases heq : other = task
    · rw [heq]
      exact .inr (mem_terminal_finish detector task message .unexplained)
    · rcases htasks other (mem_cons_of_mem _ hoth) with hlive | hterm
      · rw [live_finish]
        exact .inl (TaskBooks.mem_keys_delete.2 ⟨hlive, heq⟩)
      · obtain ⟨tombstone, htomb⟩ :=
          isSome_iff_exists.1 (mem_keys_iff.1 hterm)
        have hkept : (detector.finish task message .unexplained).terminal.get? other = some tombstone :=
          get?_terminal_finish htomb
        exact .inr (mem_keys_iff.2 (by rw [hkept]; rfl))

variable (env : Platform ν φ)

lemma narrows_expireLevelEnded (message : Json ν)
    (hsound : detector.books.Sound) : Narrows detector (detector.expireLevelEnded env message).1 := by
  unfold expireLevelEnded
  split_ifs
  · exact (Quiet.refl detector).narrows hsound
  · have hend : { detector with level := { detector.level with ended := ∅ } }.books.Sound :=
      { hsound with ended_listed := empty_subset _ }
    have hnarrow := narrows_finishEnded message (env.listed detector.level.ended) hend
      fun task htask => .inl (hsound.tracked_live task (hsound.listed_tracked
        (hsound.ended_listed ((env.mem_listed _ _).1 htask))))
    exact ⟨hnarrow.sound, hnarrow.live_sub, hnarrow.terminal_sub, hnarrow.wakeUps_eq⟩

/-- What is forgotten for room. -/
structure Roomy (detector next : ResultLineDetector) : Prop where
  sound : next.books.Sound
  live_eq : next.live = detector.live
  inherited_eq : next.inherited = detector.inherited
  wakeUps_eq : next.wakeUps = detector.wakeUps
  terminal_sub : ∀ task ∈ next.terminal.keys, task ∈ detector.terminal.keys

lemma Roomy.refl (h : detector.books.Sound) : Roomy detector detector :=
  ⟨h, rfl, rfl, rfl, fun _ hmem => hmem⟩

lemma roomy_makeRoomFrom (buried) (hsound : detector.books.Sound)
    (hburied : detector.buried = buried) :
    Roomy detector (detector.makeRoomFrom buried).1 ∧
      ((detector.makeRoomFrom buried).2 = .ok () →
        (detector.makeRoomFrom buried).1.live.size + (detector.makeRoomFrom buried).1.terminal.size <
          maxObservedTasks) := by
  induction buried generalizing detector with
  | nil =>
    unfold makeRoomFrom
    split_ifs with hroom hpolicy
    · exact ⟨.refl hsound, fun _ => by dsimp only; omega⟩
    · exact ⟨.refl hsound, nofun⟩
    · exact ⟨.refl hsound, nofun⟩
  | cons oldest buried ih =>
    unfold makeRoomFrom
    split_ifs with hroom hpolicy
    · exact ⟨.refl hsound, fun _ => by dsimp only; omega⟩
    · exact ⟨.refl hsound, nofun⟩
    · have hforgot : { detector with
          terminal := detector.terminal.delete oldest, buried := buried }.books.Sound :=
        hsound.forgetOldest hburied
      obtain ⟨hrest, hok⟩ := ih hforgot rfl
      refine ⟨⟨hrest.sound, hrest.live_eq, hrest.inherited_eq, hrest.wakeUps_eq, fun task htask => ?_⟩, hok⟩
      exact (TaskBooks.mem_keys_delete.1 (hrest.terminal_sub task htask)).1

lemma roomy_makeRoom (hsound : detector.books.Sound) :
    Roomy detector detector.makeRoom.1 ∧
      (detector.makeRoom.2 = .ok () →
        detector.makeRoom.1.live.size + detector.makeRoom.1.terminal.size < maxObservedTasks) :=
  roomy_makeRoomFrom detector.buried hsound rfl

lemma Roomy.moved (h : Roomy detector next) (hsound : detector.books.Sound) (message : Json ν) :
    Moved message detector next where
  sound := h.sound
  wakes := .inl h.wakeUps_eq
  revived := fun task hterm hlive => by
    rw [h.live_eq] at hlive
    exact absurd hterm (hsound.disjoint task hlive)

variable {facts : TaskFacts}

section

variable (hsound : detector.books.Sound)
include hsound

/-- **A task that has finished is live again.** -/
theorem moved_of_startAgain {leveled} {inherited}
    (hterm : detector.terminal.get? task = some (.finished facts))
    (hlt : detector.live.size < maxLiveTasks)
    (hagain : Restarts message task ∨ Resumes message task facts)
    (hinher : ∀ other ∈ inherited, other = task ∨ other ∈ detector.inherited)
    (hbooks : next.books = { (detector.books.exhume task).start task run leveled with inherited := inherited })
    (hwakeUps : next.wakeUps = detector.wakeUps) : Moved message detector next where
  sound := by
    have hmem : task ∈ detector.books.terminal.keys := by
      refine mem_keys_iff.2 ?_
      change (detector.terminal.get? task).isSome
      rw [hterm]
      rfl
    rw [hbooks]
    refine (hsound.startAgain hmem hlt run leveled).inherit fun other hoth => ?_
    rcases hinher other hoth with rfl | hold
    · exact TaskBooks.mem_keys_set.2 (.inl rfl)
    · exact TaskBooks.mem_keys_set.2 (.inr (hsound.inherited_live other hold))
  wakes := .inl hwakeUps
  revived := fun other hoth hlive => by
    have heq : next.live = _ := congrArg TaskBooks.live hbooks
    rw [heq] at hlive
    rcases TaskBooks.mem_keys_set.1 hlive with rfl | hmem
    · exact ⟨facts, hterm, hagain⟩
    · exact absurd hoth (hsound.disjoint other hmem)

lemma moved_startAgain (hterm : detector.terminal.get? task = some (.finished facts))
    (hagain : Restarts message task) :
    Moved message detector (detector.startAgain task message).1 := by
  unfold startAgain
  split_ifs with hfull
  · exact ((Quiet.refl detector).narrows hsound).moved hsound message
  · dsimp only
    have hqt := quiet_startedFacts { detector.exhume task with
      inherited := (detector.exhume task).inherited.erase task } message
    obtain ⟨run, hst, hwakeUps⟩ := start_spec (startedFacts { detector.exhume task with
      inherited := (detector.exhume task).inherited.erase task } message).1 task (frameScope message)
      (startedFacts { detector.exhume task with
        inherited := (detector.exhume task).inherited.erase task } message).2 message
    rw [hqt.books_eq] at hst
    refine moved_of_startAgain hsound hterm (not_le.1 hfull) (.inl hagain)
      (fun other hoth => .inr (mem_of_mem_erase hoth)) hst
      (hwakeUps.trans hqt.wakeUps_eq)

lemma moved_reviveResumed (htask : message.strOf "task_id" = some task) :
    Moved message detector (detector.reviveResumed task message).1 := by
  have hsame := ((Quiet.refl detector).narrows hsound).moved hsound message
  unfold reviveResumed
  split
  · rename_i facts hterm
    split
    · exact hsame
    · rename_i run hrun
      dsimp only
      split_ifs with hstay hfull
      · exact hsame
      · exact hsame
      · rw [or_eq_true, or_eq_true, not_eq_true', decide_eq_true_eq] at hstay
        push Not at hstay
        obtain ⟨⟨hresume, hinert⟩, hagent⟩ := hstay
        rw [ne_eq, Bool.not_eq_false, Option.any_eq_true] at hresume
        obtain ⟨tool, htool, hne⟩ := hresume
        obtain ⟨run', hst, hwakeUps⟩ := (detector.exhume task).start_spec task .background
          (taskFacts message (some facts)) message
        refine moved_of_startAgain hsound hterm (not_le.1 hfull) (.inr ?_)
          (fun other hoth => mem_insert.1 hoth)
          (congrArg (fun books : TaskBooks =>
            { books with inherited := insert task books.inherited }) hst) hwakeUps
        exact ⟨htask, hagent, eq_false_iff.2 hinert, run, tool, hrun,
          (filter_eq_some_iff.1 htool).1, of_decide_eq_true hne⟩
  · exact hsame

lemma moved_startNew (hlive : task ∉ detector.live.keys)
    (hterm : task ∉ detector.terminal.keys) :
    Moved message detector (detector.startNew task message).1 := by
  unfold startNew
  split_ifs with hfull
  · exact ((Quiet.refl detector).narrows hsound).moved hsound message
  · obtain ⟨hroomy, hroom⟩ := roomy_makeRoom hsound
    split
    · rename_i roomy error heq
      rw [heq] at hroomy
      exact hroomy.moved hsound message
    · rename_i roomy heq
      rw [heq] at hroomy hroom
      have hqt := quiet_startedFacts roomy message
      obtain ⟨run, hst, hwakeUps⟩ := start_spec (roomy.startedFacts message).1 task
        (frameScope message) (roomy.startedFacts message).2 message
      rw [hqt.books_eq] at hst
      refine ⟨?_, .inl ((hwakeUps.trans hqt.wakeUps_eq).trans hroomy.wakeUps_eq), fun other hoth hmem => ?_⟩
      · have hlt : roomy.live.size < maxLiveTasks := by
          rw [hroomy.live_eq]
          exact not_le.1 hfull
        rw [hst]
        refine hroomy.sound.start ?_ (fun hmem => hterm (hroomy.terminal_sub task hmem)) hlt (hroom rfl) run _
        change task ∉ roomy.live.keys
        rwa [hroomy.live_eq]
      · have heq' : (ResultLineDetector.start _ _ _ _ _).live = _ := congrArg TaskBooks.live hst
        rw [heq'] at hmem
        rcases TaskBooks.mem_keys_set.1 hmem with rfl | hmem
        · exact absurd hoth hterm
        · change other ∈ roomy.live.keys at hmem
          rw [hroomy.live_eq] at hmem
          exact absurd hoth (hsound.disjoint other hmem)

theorem moved_finish (htask : message.strOf "task_id" = some task)
    (hroom : task ∈ detector.live.keys ∨ task ∈ detector.terminal.keys ∨
      detector.live.size + detector.terminal.size < maxObservedTasks)
    (taskEnd : TaskEnd) :
    Moved message detector (detector.finish task message taskEnd) := by
  obtain ⟨facts, hbooks, hwakes⟩ := detector.finish_spec task message taskEnd
  refine ⟨?_, ?_, fun other hoth hmem => ?_⟩
  · rw [hbooks]
    exact hsound.finish facts hroom
  · rcases hwakes with heq | ⟨-, run, hrun, hscope, heq⟩
    · exact .inl heq
    · refine .inr ⟨task, run, htask, hrun, hscope, ?_, heq⟩
      rw [live_finish, get?_delete, if_pos rfl]
  · rw [live_finish] at hmem
    exact absurd hoth (hsound.disjoint other (TaskBooks.mem_keys_delete.1 hmem).1)

lemma moved_endTask (htask : message.strOf "task_id" = some task) (subtype : String) :
    Moved message detector (detector.endTask task subtype message).1 := by
  unfold endTask
  dsimp only
  split_ifs with hnew
  · obtain ⟨hroomy, hroom⟩ := roomy_makeRoom hsound
    split
    · rename_i roomy error heq
      rw [heq] at hroomy
      exact hroomy.moved hsound message
    · rename_i roomy heq
      rw [heq] at hroomy hroom
      have hfinish := moved_finish hroomy.sound htask (.inr (.inr (hroom rfl)))
        (taskEnd (frameStatus subtype message))
      refine ⟨hfinish.sound, ?_, fun other hoth hmem => ?_⟩
      · rcases hfinish.wakes with heq' | ⟨other, run, hoth, hrun, hrest⟩
        · exact .inl (heq'.trans hroomy.wakeUps_eq)
        · rw [hroomy.live_eq] at hrun
          rw [hroomy.wakeUps_eq] at hrest
          exact .inr ⟨other, run, hoth, hrun, hrest⟩
      · dsimp only at hmem
        rw [live_finish, hroomy.live_eq] at hmem
        exact absurd hoth (hsound.disjoint other (TaskBooks.mem_keys_delete.1 hmem).1)
  · refine moved_finish hsound htask ?_ _
    rw [and_eq_true, not_eq_true', not_eq_true', not_and_or, not_eq_false,
      not_eq_false, OrderedMap.has, OrderedMap.has, decide_eq_true_eq, decide_eq_true_eq] at hnew
    rcases hnew with hterm | hlive
    · exact .inr (.inl hterm)
    · exact .inl hlive

lemma moved_consumeTaskFrame {subtype}
    (hsubtype : message.strOf "subtype" = some subtype)
    (htask : message.strOf "task_id" = some task) :
    Moved message detector (detector.consumeTaskFrame task subtype message).1 := by
  unfold consumeTaskFrame
  dsimp only
  split_ifs with hagain hlat hends hnew
  · rw [and_eq_true, and_eq_true, not_eq_true', decide_eq_true_eq] at hagain
    obtain ⟨⟨hgoes, rfl⟩, hfin⟩ := hagain
    split at hfin
    · rename_i facts hterm
      exact moved_startAgain hsound hterm ⟨hsubtype, htask, hgoes⟩
    · cases hfin
  · exact moved_reviveResumed hsound htask
  · exact moved_endTask hsound htask subtype
  · rw [and_eq_true, not_eq_true', not_eq_true', OrderedMap.has, OrderedMap.has,
      decide_eq_false_iff_not, decide_eq_false_iff_not] at hnew
    exact moved_startNew hsound hnew.2 hnew.1
  · exact ((Quiet.refl detector).narrows hsound).moved hsound message

theorem moved_consumeTask (message : Json ν) : Moved message detector (detector.consumeTask message).1 := by
  have hsame := ((Quiet.refl detector).narrows hsound).moved hsound message
  unfold consumeTask
  split
  · exact hsame
  · rename_i subtype hsubtype
    split_ifs with hlisting hoth
    · exact hsame.congr (hsound.replace message) rfl rfl
    · exact hsame
    · split
      · exact hsame
      · rename_i task htask
        exact moved_consumeTaskFrame hsound hsubtype (filter_eq_some_iff.1 htask).1

end

lemma sound_retireTasks (retired : List (String × LiveTask)) (hsound : detector.books.Sound)
    (hemp : detector.live = .empty)
    (hroom : detector.terminal.size + retired.length ≤ maxObservedTasks) :
    (retired.foldl retireTask detector).books.Sound ∧
      (retired.foldl retireTask detector).live = .empty ∧
      (retired.foldl retireTask detector).wakeUps = detector.wakeUps := by
  induction retired generalizing detector with
  | nil => exact ⟨hsound, hemp, rfl⟩
  | cons task retired ih =>
    rw [length_cons] at hroom
    have hqt := quiet_noteBackground detector task.2.scope
    have hbooks : (detector.retireTask task).books = detector.books.bury task.1 .retired := by
      unfold retireTask
      rw [books_bury, hqt.books_eq]
    have hwakeUps : (detector.retireTask task).wakeUps = detector.wakeUps :=
      (wakeUps_bury _ _ _).trans hqt.wakeUps_eq
    have hlive : (detector.retireTask task).live = .empty := by
      have heq := congrArg TaskBooks.live hbooks
      rw [TaskBooks.live_bury] at heq
      exact heq.trans hemp
    have hsize : (detector.retireTask task).terminal.size ≤ detector.terminal.size + 1 := by
      have heq : (detector.retireTask task).terminal = _ := congrArg TaskBooks.terminal hbooks
      rw [heq]
      unfold TaskBooks.bury
      split_ifs
      · exact Nat.le_succ _
      · refine (size_set _ _ _).trans_le ?_
        split_ifs
        · exact Nat.le_succ _
        · exact le_rfl
    have hzero : detector.live.size = 0 := by
      rw [hemp]
      rfl
    have hburied : (detector.retireTask task).books.Sound := by
      rw [hbooks]
      refine hsound.bury ?_ (.inr ?_) _
      · change task.1 ∉ detector.live.keys
        rw [hemp]
        exact not_mem_nil
      · change detector.live.size + detector.terminal.size < maxObservedTasks
        omega
    obtain ⟨hrest, hlive', hwakeUps'⟩ := ih hburied hlive (by omega)
    exact ⟨hrest, hlive', hwakeUps'.trans hwakeUps⟩

/-- **A session that ends leaves no live task.** -/
theorem moved_retireSession (hsound : detector.books.Sound) (message : Json ν) :
    Moved message detector (detector.retireSession env) := by
  have hlen : ((env.listed detector.live.keys.toFinset).filterMap fun task =>
      (detector.live.get? task).map fun live => (task, live)).length ≤ detector.live.size := by
    refine (length_filterMap_le _ _).trans ?_
    have hkeys : detector.live.keys.Nodup := detector.live.nodup
    rw [← toFinset_card_of_nodup (env.listed_nodup _), ← length_keys, ← toFinset_card_of_nodup hkeys]
    refine card_le_card fun task htask => ?_
    exact (env.mem_listed _ _).1 (mem_toFinset.1 htask)
  have hle := hsound.total_le
  unfold retireSession
  have hend : (detector.endSession).books.Sound := hsound.retire
  obtain ⟨hretired, hlive, hwakeUps⟩ := sound_retireTasks _ hend rfl
    (le_trans (Nat.add_le_add_left hlen _) (by
      rw [Nat.add_comm]
      exact hle))
  refine ⟨hretired, .inl hwakeUps, fun other hoth hmem => ?_⟩
  rw [hlive] at hmem
  cases hmem

lemma narrows_accepted (hsound : detector.books.Sound) (message : Json ν) :
    Narrows detector
      (((detector.acceptsRoot message).1.noteMonitorCalls message).expireLevelEnded env message).1 := by
  have hqt := (quiet_acceptsRoot detector message).trans
    (quiet_noteMonitorCalls (detector.acceptsRoot message).1 message)
  have hnarrow := hqt.narrows hsound
  exact hnarrow.trans (narrows_expireLevelEnded env message hnarrow.sound)

lemma moved_trackTask (hsound : detector.books.Sound) (message : Json ν) :
    Moved message detector (detector.trackTask message).1 := by
  have hmov := moved_consumeTask hsound message
  unfold trackTask
  dsimp only
  split
  · rename_i next error heq
    rw [heq] at hmov
    exact hmov
  · rename_i next heq
    rw [heq] at hmov
    generalize htask : (Option.filter _ _ : Option String) = found
    cases found with
    | none =>
      split_ifs
      · exact hmov.quiet ⟨rfl, rfl⟩
      · exact hmov
    | some task =>
      have hlive := (filter_eq_some_iff.1 htask).2
      rw [OrderedMap.has, decide_eq_true_eq] at hlive
      have hinher : Moved message detector { next with inherited := insert task next.inherited } := by
        refine hmov.congr (hmov.sound.inherit fun other hoth => ?_) rfl rfl
        rcases mem_insert.1 hoth with rfl | hmem
        · exact hlive
        · exact hmov.sound.inherited_live other hmem
      split_ifs
      · exact hinher.quiet ⟨rfl, rfl⟩
      · exact hinher

lemma moved_trackMessage (hsound : detector.books.Sound) (message : Json ν) :
    Moved message detector (detector.trackMessage env message).1 := by
  have hnarrow := narrows_accepted env hsound message
  unfold trackMessage
  dsimp only
  split_ifs
  · exact ((quiet_acceptsRoot detector message).narrows hsound).moved hsound message
  · exact hnarrow.moved hsound message
  · exact .of_narrows hnarrow (moved_trackTask hnarrow.sound message)

lemma quiet_consumeResult (detector) (message : Json ν) : Quiet detector (detector.consumeResult message).1 := by
  unfold consumeResult
  dsimp only
  split_ifs
  · exact ⟨rfl, rfl⟩
  · have hseen : Quiet detector { detector with
      resultCandidate := detector.armedLiveEmpty, resultSeen := true } := ⟨rfl, rfl⟩
    exact hseen.trans (quiet_settled _)

lemma quiet_noteRootOutput (detector) (message : Json ν) : Quiet detector (detector.noteRootOutput message) := by
  unfold noteRootOutput
  split
  · split_ifs <;> exact ⟨rfl, rfl⟩
  · exact .refl _

lemma moved_consumeSystem (hsound : detector.books.Sound) (message : Json ν) :
    Moved message detector (detector.consumeSystem message).1 := by
  have hnarrow := (quiet_noteRootOutput detector message).narrows hsound
  have hmov := Moved.of_narrows hnarrow (moved_consumeTask hnarrow.sound message)
  unfold consumeSystem
  dsimp only
  split
  · rename_i next error heq
    rw [heq] at hmov
    exact hmov
  · rename_i next heq
    rw [heq] at hmov
    split_ifs
    · exact hmov.quiet ⟨rfl, rfl⟩
    · exact hmov
    · have hcand : Quiet next { next with resultCandidate := true } := ⟨rfl, rfl⟩
      exact hmov.quiet (hcand.trans (quiet_settled _))

lemma moved_consumeKind (hsound : detector.books.Sound) (message : Json ν) :
    Moved message detector (detector.consumeKind env message).1 := by
  have hsame := ((Quiet.refl detector).narrows hsound).moved hsound message
  unfold consumeKind
  split
  · exact hsame
  · split_ifs
    · exact hsame.quiet (quiet_consumeResult detector message)
    · exact hsame.quiet ⟨rfl, rfl⟩
    · exact (moved_retireSession env hsound message).quiet ⟨rfl, rfl⟩
    · exact moved_consumeSystem hsound message
    · exact hsame.quiet (quiet_settled detector)
    · exact hsame

lemma moved_consumeValue (hsound : detector.books.Sound) (message : Json ν) :
    Moved message detector (detector.consumeValue env message).1 := by
  have hnarrow := narrows_accepted env hsound message
  unfold consumeValue
  dsimp only
  split_ifs
  · exact ((quiet_acceptsRoot detector message).narrows hsound).moved hsound message
  · exact hnarrow.moved hsound message
  · exact hnarrow.moved hsound message
  · have hobs := quiet_observeLifecycle
      (((detector.acceptsRoot message).1.noteMonitorCalls message).expireLevelEnded env message).1 message
    split
    · rename_i next error heq
      rw [heq] at hobs
      exact (hnarrow.trans (hobs.narrows hnarrow.sound)).moved hsound message
    · rename_i next heq
      rw [heq] at hobs
      have hnext := hnarrow.trans (hobs.narrows hnarrow.sound)
      exact .of_narrows hnext (moved_consumeKind env hnext.sound message)

lemma Moved.fireIfSettled {result}
    (h : Moved message detector result.1) : Moved message detector (fireIfSettled result).1 := by
  unfold ResultLineDetector.fireIfSettled
  split
  · exact h.quiet ⟨rfl, rfl⟩
  · exact h

lemma moved_consumeMessage (hsound : detector.books.Sound) (message : Json ν) :
    Moved message detector (detector.consumeMessage env message).1 := by
  unfold consumeMessage
  split_ifs
  · exact ((Quiet.refl detector).narrows hsound).moved hsound message
  · exact (moved_consumeValue env hsound message).fireIfSettled

lemma feedByte_spec (hsound : detector.books.Sound) (byte : UInt8) :
    Quiet detector (detector.feedByte env byte).1 ∨
      ∃ message, byte = newline ∧ detector.skippingLine = false ∧
        env.fromSlice detector.line = some message ∧
        Moved message detector (detector.feedByte env byte).1 := by
  unfold feedByte
  split_ifs with hnewline hskip
  · exact .inl ⟨rfl, rfl⟩
  · have htkn : Quiet detector { detector with line := [] } := ⟨rfl, rfl⟩
    unfold consumeLine
    cases hparse : env.fromSlice detector.line with
    | none => exact .inl ⟨rfl, rfl⟩
    | some message =>
      refine .inr ⟨message, hnewline, eq_false_iff.2 hskip, rfl, ?_⟩
      exact .of_narrows (htkn.narrows hsound)
        (moved_consumeValue env (htkn.narrows hsound).sound message).fireIfSettled
  · exact .inl (.refl _)
  · exact .inl (.refl _)
  · exact .inl ⟨rfl, rfl⟩
  · exact .inl ⟨rfl, rfl⟩

end ResultLineDetector

end CodevoEditor.ClaudeSession
