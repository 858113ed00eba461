/-
# Failures and their repairs

Some of the events of a run fail, at a number, and some repair what has failed up to a number.
-/

import Mathlib.Data.List.Basic

namespace CodevoEditor.Runs

variable {ε : Type} (fails repairs : ε → Option ℕ)

/-- Some repair among `events` reaches what has failed, and each failure before it. -/
def FollowedByRepair (failed : ℕ) (events : List ε) : Prop :=
  ∃ between repair rest reached, events = between ++ repair :: rest ∧
    repairs repair = some reached ∧ failed ≤ reached ∧
    ∀ other ∈ between, ∀ later, fails other = some later → later ≤ reached

/-- **Every failure is followed by its repair.** -/
def Repaired : List ε → Prop
  | [] => True
  | event :: events =>
    (∀ failed, fails event = some failed → FollowedByRepair fails repairs failed events) ∧ Repaired events

variable {fails repairs} {events settled pending : List ε}

lemma FollowedByRepair.append {failed} (h : FollowedByRepair fails repairs failed events)
    (more : List ε) : FollowedByRepair fails repairs failed (events ++ more) := by
  obtain ⟨between, repair, rest, reached, rfl, hrest⟩ := h
  exact ⟨between, repair, rest ++ more, reached, by simp, hrest⟩

namespace Repaired

lemma of_quiet (h : ∀ event ∈ events, fails event = none) : Repaired fails repairs events := by
  induction events with
  | nil => trivial
  | cons event events ih =>
    refine ⟨fun failed hfails => ?_, ih fun other hoth => h other (List.mem_cons_of_mem _ hoth)⟩
    rw [h event List.mem_cons_self] at hfails
    cases hfails

lemma append (h : Repaired fails repairs events) {more}
    (hmore : Repaired fails repairs more) : Repaired fails repairs (events ++ more) := by
  induction events with
  | nil => exact hmore
  | cons event events ih =>
    exact ⟨fun failed hfails => (h.1 failed hfails).append more, ih h.2⟩

/-- **A repair that reaches what is outstanding repairs it all.** -/
theorem append_repair (h : Repaired fails repairs settled) {repair} {reached}
    (hrepair : repairs repair = some reached) (hqt : fails repair = none)
    (hpend : ∀ event ∈ pending, ∀ failed, fails event = some failed → failed ≤ reached) :
    Repaired fails repairs (settled ++ (pending ++ [repair])) := by
  refine h.append ?_
  induction pending with
  | nil => exact of_quiet (by simpa using hqt)
  | cons event pending ih =>
    have hrest := fun other hoth => hpend other (List.mem_cons_of_mem event hoth)
    refine ⟨fun failed hfails => ?_, ih hrest⟩
    exact ⟨pending, repair, [], reached, rfl, hrepair, hpend event List.mem_cons_self failed hfails, hrest⟩

lemma fails_lt {bound} (h : Repaired fails repairs events)
    (hbd : ∀ event ∈ events, ∀ reached, repairs event = some reached → reached < bound)
    {event} (hmem : event ∈ events) {failed} (hfails : fails event = some failed) :
    failed < bound := by
  induction events with
  | nil => cases hmem
  | cons first events ih =>
    have hrest := fun other hoth => hbd other (List.mem_cons_of_mem first hoth)
    rcases List.mem_cons.1 hmem with rfl | hmem
    · obtain ⟨between, repair, rest, reached, rfl, hrepair, hle, -⟩ := h.1 failed hfails
      have := hrest repair (List.mem_append_right _ List.mem_cons_self) reached hrepair
      omega
    · exact ih h.2 hrest hmem

end Repaired

end CodevoEditor.Runs
