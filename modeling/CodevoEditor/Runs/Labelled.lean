/-
# Runs of steps that leave a trace

A step takes a state to a state and leaves a list of events.
-/

import Mathlib.Data.List.Basic

namespace CodevoEditor.Runs

open List

variable {σ ε : Type}

/-- The events of a run are those of its steps, one after the other. -/
inductive Reaches (step : σ → List ε → σ → Prop) : σ → List ε → σ → Prop
  | refl (s : σ) : Reaches step s [] s
  | next {s t u : σ} {events rest : List ε} (head : step s events t) (tail : Reaches step t rest u) :
      Reaches step s (events ++ rest) u

namespace Reaches

variable {step : σ → List ε → σ → Prop} {s t u : σ} {events rest : List ε}

lemma single (h : step s events t) : Reaches step s events t := by
  have hrun := Reaches.next h (.refl t)
  rwa [append_nil] at hrun

lemma trans (h : Reaches step s events t) (h' : Reaches step t rest u) : Reaches step s (events ++ rest) u := by
  induction h with
  | refl => exact h'
  | next head _ ih =>
    rw [append_assoc]
    exact .next head (ih h')

theorem invariant {P : σ → Prop} (hstep : ∀ s events t, P s → step s events t → P t)
    (h : Reaches step s events t) (hs : P s) : P t := by
  induction h with
  | refl => exact hs
  | next head _ ih => exact ih (hstep _ _ _ hs head)

/-- **The same of a state and the events that have led to it.** -/
theorem invariant_trace {P : List ε → σ → Prop}
    (hstep : ∀ before s events t, P before s → step s events t → P (before ++ events) t)
    (h : Reaches step s events t) {before} (hs : P before s) : P (before ++ events) t := by
  induction h generalizing before with
  | refl =>
    rw [append_nil]
    exact hs
  | next head _ ih =>
    rw [← append_assoc]
    exact ih (hstep _ _ _ _ hs head)

lemma trace {P : List ε → σ → Prop}
    (hstep : ∀ before s events t, P before s → step s events t → P (before ++ events) t)
    (h : Reaches step s events t) (hs : P [] s) : P events t :=
  h.invariant_trace hstep hs

/-- **What the steps with good events keep, a run with good events keeps.** -/
theorem invariant_of {P : σ → Prop} {Q : ε → Prop}
    (hstep : ∀ s events t, (∀ event ∈ events, Q event) → P s → step s events t → P t)
    (h : Reaches step s events t) (hevs : ∀ event ∈ events, Q event) (hs : P s) : P t := by
  induction h with
  | refl => exact hs
  | next head _ ih =>
    rw [forall_mem_append] at hevs
    exact ih hevs.2 (hstep _ _ _ hevs.1 hs head)

/-- **A run whose steps have one event at most is cut between any two of its events.** -/
theorem split (hone : ∀ s events t, step s events t → events.length ≤ 1) (h : Reaches step s events t)
    {front back} (hspl : events = front ++ back) :
    ∃ middle, Reaches step s front middle ∧ Reaches step middle back t := by
  induction h generalizing front with
  | refl s =>
    obtain ⟨rfl, rfl⟩ := append_eq_nil_iff.1 hspl.symm
    exact ⟨s, .refl s, .refl s⟩
  | @next s middle last events rest head tail ih =>
    cases front with
    | nil =>
      rw [nil_append] at hspl
      rw [← hspl]
      exact ⟨s, .refl s, .next head tail⟩
    | cons first front =>
      cases events with
      | nil =>
        obtain ⟨cut, hfr, hback⟩ := ih hspl
        exact ⟨cut, .next head hfr, hback⟩
      | cons event events =>
        have hlen := hone _ _ _ head
        obtain rfl : events = [] := eq_nil_of_length_eq_zero (by
          rw [length_cons] at hlen
          omega)
        obtain ⟨rfl, hrest⟩ := cons.inj hspl
        obtain ⟨cut, hfr, hback⟩ := ih hrest
        exact ⟨cut, .next head hfr, hback⟩

end Reaches

lemma append_split {events rest done later : List ε} {event : ε}
    (h : events ++ rest = done ++ event :: later) :
    (∃ between, events = done ++ event :: between) ∨
      ∃ more, done = events ++ more ∧ rest = more ++ event :: later := by
  rcases append_eq_append_iff.1 h with ⟨more, rfl, hrest⟩ | ⟨between, rfl, hlat⟩
  · exact .inr ⟨more, rfl, hrest⟩
  · cases between with
    | nil =>
      exact .inr ⟨[], by rw [append_nil, append_nil], hlat.symm⟩
    | cons first between =>
      obtain ⟨rfl, -⟩ := cons.inj hlat
      exact .inl ⟨between, rfl⟩

end CodevoEditor.Runs
