/-
# Paging through a list

A reader is given pages of a list: at most so many rows, without those that cannot be read.
-/

import Mathlib.Data.List.Basic

namespace CodevoEditor.Runs

open List

variable {σ π ρ α : Type}

/-- The pages from a position on, each from where the one before says. -/
inductive Follows (page : σ → π) (next : π → Option σ) : σ → List π → Prop
  | last {position : σ} (h : next (page position) = none) :
      Follows page next position [page position]
  | more {position after : σ} {pages : List π} (h : next (page position) = some after)
      (rest : Follows page next after pages) :
      Follows page next position (page position :: pages)

/-- Where a run of unreadable rows is as long as a page, nothing after it can be read. -/
def NoLongGap (limit : ℕ) (read : ρ → Option α) (rows : List ρ) : Prop :=
  ∀ before gap after, rows = before ++ (gap ++ after) → limit ≤ gap.length →
    (∀ row ∈ gap, read row = none) → ∀ row ∈ after, read row = none

/-- What a page shows of the rows from its position on, and where the next one starts. -/
inductive ShowsPage (limit : ℕ) (read : ρ → Option α) (rowsFrom : σ → List ρ) (shown : List α)
    (next : Option σ) : List ρ → Prop
  | nothing (rows : List ρ) (hshown : shown = []) (hnext : next = none)
      (hrows : ∀ row ∈ rows.take limit, read row = none) :
      ShowsPage limit read rowsFrom shown next rows
  | something (before : List ρ) (row : ρ) (rest : List ρ) (hlimit : before.length < limit)
      (hrow : (read row).isSome) (hshown : shown = (before ++ [row]).filterMap read)
      (hnext : next = none ∧ rest = [] ∨ ∃ after, next = some after ∧ rowsFrom after = rest) :
      ShowsPage limit read rowsFrom shown next (before ++ row :: rest)

section Gaps

variable {limit : ℕ} {read : ρ → Option α} {rows : List ρ}

lemma filterMap_through (before : List ρ) (row : ρ) (rest : List ρ) :
    (before ++ row :: rest).filterMap read = (before ++ [row]).filterMap read ++ rest.filterMap read := by
  rw [append_cons, filterMap_append]

lemma noLongGap_iff_of_take (h : ∀ row ∈ rows.take limit, read row = none) :
    NoLongGap limit read rows ↔ rows.filterMap read = [] := by
  rw [filterMap_eq_nil_iff]
  constructor
  · intro hgap row hrow
    rw [← take_append_drop limit rows, mem_append] at hrow
    rcases hrow with hrow | hrow
    · exact h row hrow
    · have hlt := length_pos_of_mem hrow
      rw [length_drop] at hlt
      refine hgap [] (rows.take limit) (rows.drop limit) ?_ ?_ h row hrow
      · rw [nil_append, take_append_drop]
      · rw [length_take]
        omega
  · intro hall before gap after hrows _ _ row hrow
    refine hall row ?_
    rw [hrows]
    exact mem_append_right _ (mem_append_right _ hrow)

lemma noLongGap_append_iff {before rest} {row} (hlimit : before.length < limit)
    (hrow : (read row).isSome) :
    NoLongGap limit read (before ++ row :: rest) ↔ NoLongGap limit read rest := by
  have hreadable : ∀ gap : List ρ, (∀ row ∈ gap, read row = none) → row ∉ gap := by
    intro gap hgap hmem
    rw [hgap row hmem] at hrow
    cases hrow
  constructor
  · intro h before' gap after hrest
    refine h (before ++ row :: before') gap after ?_
    rw [hrest, append_assoc, cons_append]
  · intro h before' gap after hrows hlong hgap
    rcases append_eq_append_iff.1 hrows.symm with ⟨middle, hpre, hmid⟩ | ⟨middle, hpre, hmid⟩
    · -- the gap would begin before the row, and reach over it
      refine absurd ?_ (hreadable gap hgap)
      rcases append_eq_append_iff.1 hmid with ⟨more, hmore, -⟩ | ⟨more, hmore, hrest⟩
      · have hlen := congrArg List.length hpre
        have hlen' := congrArg List.length hmore
        rw [length_append] at hlen hlen'
        omega
      · cases more with
        | nil =>
          have hlen := congrArg List.length hpre
          have hlen' := congrArg List.length hmore
          rw [length_append] at hlen hlen'
          rw [length_nil] at hlen'
          omega
        | cons first more =>
          rw [cons_append, cons.injEq] at hrest
          rw [hmore, hrest.1]
          exact mem_append_right _ mem_cons_self
    · cases middle with
      | nil =>
        rw [nil_append] at hmid
        cases gap with
        | nil =>
          rw [length_nil] at hlong
          omega
        | cons first gap =>
          rw [cons_append, cons.injEq] at hmid
          refine absurd ?_ (hreadable (first :: gap) hgap)
          rw [hmid.1]
          exact mem_cons_self
      | cons first middle =>
        rw [cons_append, cons.injEq] at hmid
        exact h middle gap after hmid.2 hlong hgap

end Gaps

section Pages

variable {limit : ℕ} {read : ρ → Option α} {rowsFrom : σ → List ρ} {page : σ → π} {shown : π → List α}
  {next : π → Option σ}

variable (shown) in
lemma exists_follows
    (hpages : ∀ position,
      ShowsPage limit read rowsFrom (shown (page position)) (next (page position)) (rowsFrom position))
    (position : σ) : ∃ pages, Follows page next position pages := by
  induction hlen : (rowsFrom position).length using Nat.strongRecOn generalizing position with
  | ind length ih =>
    cases hnext : next (page position) with
    | none => exact ⟨_, .last hnext⟩
    | some after =>
      have hpage := hpages position
      rw [hnext] at hpage
      generalize hrows : rowsFrom position = rows at hpage
      cases hpage with
      | nothing _ _ hnone => cases hnone
      | something before row rest hlimit hrow hshn hrest =>
        rcases hrest with ⟨hnone, -⟩ | ⟨after', heq, haft⟩
        · cases hnone
        · cases heq
          have hlt : (rowsFrom after).length < length := by
            rw [haft, ← hlen, hrows, length_append, length_cons]
            omega
          obtain ⟨pages, hfollows⟩ := ih _ hlt after rfl
          exact ⟨_, .more hnext hfollows⟩

variable (shown) in
/-- **The pages show every row that can be read, once and in order, if and only if no gap
fills a page.** -/
theorem Follows.shows_iff
    (hpages : ∀ position,
      ShowsPage limit read rowsFrom (shown (page position)) (next (page position)) (rowsFrom position))
    {position} {pages} (h : Follows page next position pages) :
    pages.flatMap shown = (rowsFrom position).filterMap read ↔ NoLongGap limit read (rowsFrom position) := by
  induction h with
  | @last position hnext =>
    have hpage := hpages position
    rw [hnext] at hpage
    rw [flatMap_singleton]
    generalize rowsFrom position = rows at hpage
    cases hpage with
    | nothing _ hshn _ hrows =>
      rw [hshn, noLongGap_iff_of_take hrows]
      exact eq_comm
    | something before row rest hlimit hrow hshn hrest =>
      rcases hrest with ⟨-, rfl⟩ | ⟨_, hsome, -⟩
      · rw [hshn, noLongGap_append_iff hlimit hrow]
        refine iff_of_true rfl fun before' gap after hrows _ _ row hmem => ?_
        have hlen := congrArg List.length hrows
        have hpos := length_pos_of_mem hmem
        rw [length_append, length_append, length_nil] at hlen
        omega
      · cases hsome
  | @more position after pages hnext _ ih =>
    have hpage := hpages position
    rw [hnext] at hpage
    rw [flatMap_cons]
    generalize rowsFrom position = rows at hpage
    cases hpage with
    | nothing _ _ hnone => cases hnone
    | something before row rest hlimit hrow hshn hrest =>
      rcases hrest with ⟨hnone, -⟩ | ⟨after', heq, haft⟩
      · cases hnone
      · cases heq
        rw [haft] at ih
        rw [hshn, noLongGap_append_iff hlimit hrow, ← ih, filterMap_through before row rest]
        exact append_right_inj _

end Pages

end CodevoEditor.Runs
