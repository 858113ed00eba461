/-
# Edit scripts

A script turns one list into another: it keeps an entry that both have, deletes one, or inserts
one.
-/

import Mathlib.Data.List.TakeDrop
import Mathlib.Order.Nat

namespace CodevoEditor.Edits

open List

inductive EditOp
  | equal
  | delete
  | insert
  deriving DecidableEq

variable {α : Type}

/-- `Script left right ops`: carried out, `ops` turns `left` into `right`. -/
inductive Script : List α → List α → List EditOp → Prop
  | nil : Script [] [] []
  | equal (a : α) {left right : List α} {ops : List EditOp} (h : Script left right ops) :
      Script (a :: left) (a :: right) (.equal :: ops)
  | delete (a : α) {left right : List α} {ops : List EditOp} (h : Script left right ops) :
      Script (a :: left) right (.delete :: ops)
  | insert (a : α) {left right : List α} {ops : List EditOp} (h : Script left right ops) :
      Script left (a :: right) (.insert :: ops)

/-- The entries that are not kept. -/
def cost : List EditOp → ℕ
  | [] => 0
  | .equal :: ops => cost ops
  | .delete :: ops => cost ops + 1
  | .insert :: ops => cost ops + 1

def Shortest (left right : List α) (ops : List EditOp) : Prop :=
  Script left right ops ∧ ∀ ops', Script left right ops' → cost ops ≤ cost ops'

@[simp] lemma cost_append (front back) : cost (front ++ back) = cost front + cost back := by
  induction front with
  | nil => exact (Nat.zero_add _).symm
  | cons op front ih => cases op <;> simp only [cons_append, cost, ih] <;> omega

@[simp] lemma cost_reverse (ops) : cost ops.reverse = cost ops := by
  induction ops with
  | nil => rfl
  | cons op ops ih => cases op <;> simp [cost, ih]

@[simp] lemma cost_replicate_equal (n : ℕ) : cost (List.replicate n .equal) = 0 := by
  induction n with
  | zero => rfl
  | succ n ih => rw [replicate_succ, cost, ih]

lemma cost_replicate {op} (hop : op ≠ .equal) (n : ℕ) : cost (List.replicate n op) = n := by
  induction n with
  | zero => rfl
  | succ n ih =>
    cases op with
    | equal => exact absurd rfl hop
    | delete => rw [replicate_succ, cost, ih]
    | insert => rw [replicate_succ, cost, ih]

namespace Script

variable {left right left' right' : List α} {ops ops' : List EditOp}

lemma append (h : Script left right ops) (h' : Script left' right' ops') :
    Script (left ++ left') (right ++ right') (ops ++ ops') := by
  induction h with
  | nil => exact h'
  | equal a _ ih => exact ih.equal a
  | delete a _ ih => exact ih.delete a
  | insert a _ ih => exact ih.insert a

lemma reverse (h : Script left right ops) : Script left.reverse right.reverse ops.reverse := by
  induction h with
  | nil => exact nil
  | equal a _ ih =>
    rw [reverse_cons, reverse_cons, reverse_cons]
    exact ih.append (nil.equal a)
  | delete a _ ih =>
    have := ih.append (nil.delete a)
    rwa [append_nil, ← reverse_cons, ← reverse_cons] at this
  | insert a _ ih =>
    have := ih.append (nil.insert a)
    rwa [append_nil, ← reverse_cons, ← reverse_cons] at this

lemma keep (list : List α) : Script list list (List.replicate list.length .equal) := by
  induction list with
  | nil => exact nil
  | cons a list ih => exact ih.equal a

lemma deleteAll (left : List α) : Script left [] (List.replicate left.length .delete) := by
  induction left with
  | nil => exact nil
  | cons a left ih => exact ih.delete a

lemma insertAll (right : List α) : Script [] right (List.replicate right.length .insert) := by
  induction right with
  | nil => exact nil
  | cons a right ih => exact ih.insert a

lemma length_le (h : Script left right ops) :
    left.length ≤ right.length + cost ops ∧ right.length ≤ left.length + cost ops := by
  induction h with
  | nil => exact ⟨le_rfl, le_rfl⟩
  | equal a _ ih =>
    simp only [length_cons, cost]
    omega
  | delete a _ ih =>
    simp only [length_cons, cost]
    omega
  | insert a _ ih =>
    simp only [length_cons, cost]
    omega

lemma drop_right {a} (h : Script left (a :: right) ops) :
    ∃ ops', Script left right ops' ∧ cost ops' ≤ cost ops + 1 := by
  generalize hrt : a :: right = all at h
  induction h with
  | nil => cases hrt
  | equal b h _ =>
    obtain ⟨rfl, rfl⟩ := cons.inj hrt
    exact ⟨_, h.delete _, le_rfl⟩
  | delete b _ ih =>
    obtain ⟨ops', h', hle⟩ := ih hrt
    exact ⟨_, h'.delete b, Nat.succ_le_succ hle⟩
  | insert b h _ =>
    obtain ⟨rfl, rfl⟩ := cons.inj hrt
    exact ⟨_, h, by rw [cost]; omega⟩

lemma drop_left {a} (h : Script (a :: left) right ops) :
    ∃ ops', Script left right ops' ∧ cost ops' ≤ cost ops + 1 := by
  generalize hleft : a :: left = all at h
  induction h with
  | nil => cases hleft
  | equal b h _ =>
    obtain ⟨rfl, rfl⟩ := cons.inj hleft
    exact ⟨_, h.insert _, le_rfl⟩
  | delete b h _ =>
    obtain ⟨rfl, rfl⟩ := cons.inj hleft
    exact ⟨_, h, by rw [cost]; omega⟩
  | insert b _ ih =>
    obtain ⟨ops', h', hle⟩ := ih hleft
    exact ⟨_, h'.insert b, Nat.succ_le_succ hle⟩

lemma of_cons {a} (h : Script (a :: left) (a :: right) ops) :
    ∃ ops', Script left right ops' ∧ cost ops' ≤ cost ops := by
  cases h with
  | equal _ h => exact ⟨_, h, le_rfl⟩
  | delete _ h => exact h.drop_right
  | insert _ h => exact h.drop_left

lemma of_append_left {front} (h : Script (front ++ left) (front ++ right) ops) :
    ∃ ops', Script left right ops' ∧ cost ops' ≤ cost ops := by
  induction front generalizing ops with
  | nil => exact ⟨ops, h, le_rfl⟩
  | cons a front ih =>
    obtain ⟨ops₁, h₁, hle₁⟩ := h.of_cons
    obtain ⟨ops₂, h₂, hle₂⟩ := ih h₁
    exact ⟨ops₂, h₂, hle₂.trans hle₁⟩

lemma of_append_right {back} (h : Script (left ++ back) (right ++ back) ops) :
    ∃ ops', Script left right ops' ∧ cost ops' ≤ cost ops := by
  have hrev := h.reverse
  rw [reverse_append, reverse_append] at hrev
  obtain ⟨ops', h', hle⟩ := hrev.of_append_left
  have hscript := h'.reverse
  rw [reverse_reverse, reverse_reverse] at hscript
  exact ⟨ops'.reverse, hscript, by rwa [cost_reverse, ← cost_reverse ops]⟩

end Script

namespace Shortest

variable {left right : List α} {ops : List EditOp}

theorem append_left (h : Shortest left right ops) (front : List α) :
    Shortest (front ++ left) (front ++ right) (List.replicate front.length .equal ++ ops) := by
  refine ⟨(Script.keep front).append h.1, fun ops' h' => ?_⟩
  obtain ⟨ops₁, h₁, hle⟩ := h'.of_append_left
  have := h.2 ops₁ h₁
  rw [cost_append, cost_replicate_equal]
  omega

theorem append_right (h : Shortest left right ops) (back : List α) :
    Shortest (left ++ back) (right ++ back) (ops ++ List.replicate back.length .equal) := by
  refine ⟨h.1.append (Script.keep back), fun ops' h' => ?_⟩
  obtain ⟨ops₁, h₁, hle⟩ := h'.of_append_right
  have := h.2 ops₁ h₁
  rw [cost_append, cost_replicate_equal]
  omega

lemma deleteAll (left : List α) : Shortest left [] (List.replicate left.length .delete) := by
  refine ⟨Script.deleteAll left, fun ops' h' => ?_⟩
  have := h'.length_le.1
  rw [length_nil] at this
  rw [cost_replicate (by decide)]
  omega

lemma insertAll (right : List α) : Shortest [] right (List.replicate right.length .insert) := by
  refine ⟨Script.insertAll right, fun ops' h' => ?_⟩
  have := h'.length_le.2
  rw [length_nil] at this
  rw [cost_replicate (by decide)]
  omega

end Shortest

/-- The operation read from the other list. -/
def EditOp.swap : EditOp → EditOp
  | .equal => .equal
  | .delete => .insert
  | .insert => .delete

lemma Script.swap (h : Script left right ops) : Script right left (ops.map EditOp.swap) := by
  induction h with
  | nil => exact .nil
  | equal a _ ih => exact ih.equal a
  | delete a _ ih => exact ih.insert a
  | insert a _ ih => exact ih.delete a

lemma cost_swap (ops : List EditOp) : cost (ops.map EditOp.swap) = cost ops := by
  induction ops with
  | nil => rfl
  | cons op ops ih => cases op <;> simp [cost, EditOp.swap, ih]

lemma cost_eq_count (ops : List EditOp) : cost ops = ops.count .delete + ops.count .insert := by
  induction ops with
  | nil => rfl
  | cons op ops ih => cases op <;> simp [cost, ih, Nat.add_right_comm, Nat.add_assoc]

lemma Script.balance (h : Script left right ops) :
    right.length + ops.count .delete = left.length + ops.count .insert := by
  induction h with
  | nil => rfl
  | _ =>
    simp
    omega

/-- **A shortest script back has the same changes, the other way round.** -/
theorem Shortest.counts_swap (h : Shortest left right ops) {back} (h' : Shortest right left back) :
    back.count .insert = ops.count .delete ∧ back.count .delete = ops.count .insert := by
  have hle := h.2 _ h'.1.swap
  have hle' := h'.2 _ h.1.swap
  rw [cost_swap, cost_eq_count, cost_eq_count] at hle hle'
  have hthere := h.1.balance
  have hback := h'.1.balance
  omega

end CodevoEditor.Edits
