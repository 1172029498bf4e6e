/-
  PrintLatch.Relational.Window

  A query for the rows that matter and the first few: `WHERE p OR id IN (SELECT ...
  ORDER BY ... LIMIT n)`, over a list that is ordered already.

  On a list in strict order a row's place is the number of rows before it
  (`mem_take_iff`), so what such a query leaves out can be said without the list.
-/

import Mathlib.Data.List.Nodup
import Mathlib.Data.List.Perm.Subperm

namespace Relational

variable {α : Type*}

/-- What satisfies `p` or is among the first `n`. -/
def window [DecidableEq α] (p : α → Bool) (n : Nat) (l : List α) : List α :=
  l.filter fun x => p x || x ∈ l.take n

section

variable {before : α → α → Bool}

/-- The first `n` of a list in strict order are those with fewer than `n` before them. -/
theorem mem_take_iff {l : List α} (hsorted : l.Pairwise fun x y => before x y = true)
    (hasymm : ∀ x y, before x y = true → before y x = false) {x : α} (hx : x ∈ l) (n : Nat) :
    x ∈ l.take n ↔ l.countP (before · x) < n := by
  induction l generalizing n with
  | nil => cases hx
  | cons a l ih =>
      obtain ⟨hfirst, hrest⟩ := List.pairwise_cons.mp hsorted
      cases n with
      | zero => simp
      | succ n =>
          rw [List.take_succ_cons]
          rcases List.mem_cons.mp hx with rfl | hmem
          · -- nothing is before the first
            have hirrefl : before x x = false := by
              cases hself : before x x with
              | false => rfl
              | true => rw [← hself, hasymm x x hself]
            have hnone : l.countP (before · x) = 0 := by
              rw [List.countP_eq_zero]
              intro y hy
              rw [hasymm x y (hfirst y hy)]
              exact Bool.false_ne_true
            rw [List.countP_cons_of_neg (by simp [hirrefl]), hnone]
            exact ⟨fun _ => Nat.succ_pos n, fun _ => List.mem_cons_self⟩
          · -- the first is before it, and the rest count as they did
            have hne : x ≠ a := by
              rintro rfl
              have hself := hfirst x hmem
              rw [hasymm x x hself] at hself
              cases hself
            have hcount : (a :: l).countP (before · x) = l.countP (before · x) + 1 :=
              List.countP_cons_of_pos (hfirst x hmem)
            rw [hcount, List.mem_cons, or_iff_right hne, ih hrest hmem n]
            omega

end

section

variable [DecidableEq α] {p : α → Bool}

theorem mem_window {n : Nat} {l : List α} {x : α} :
    x ∈ window p n l ↔ x ∈ l ∧ (p x = true ∨ x ∈ l.take n) := by
  simp [window]

theorem window_sublist (p : α → Bool) (n : Nat) (l : List α) : (window p n l).Sublist l :=
  List.filter_sublist

/-- A wider window shows at least as much. -/
theorem window_mono (p : α → Bool) {m n : Nat} (h : m ≤ n) (l : List α) :
    (window p m l).Sublist (window p n l) := by
  refine List.monotone_filter_right l fun x hx => ?_
  simp only [Bool.or_eq_true, decide_eq_true_eq] at hx ⊢
  exact hx.imp_right fun hmem => (List.take_sublist_take_left h).subset hmem

/-- A window has its `n`, and what satisfies `p`. -/
theorem length_window_le (p : α → Bool) (n : Nat) {l : List α} (hnodup : l.Nodup) :
    (window p n l).length ≤ n + l.countP p := by
  have hsplit : ∀ xs : List α, xs.countP (fun x => p x || x ∈ l.take n) ≤
      xs.countP (· ∈ l.take n) + xs.countP p := by
    intro xs
    induction xs with
    | nil => exact Nat.le_refl 0
    | cons x xs ih =>
        simp only [List.countP_cons]
        cases p x with
        | false =>
            simp only [Bool.false_or]
            omega
        | true =>
            simp only [Bool.true_or, if_true]
            omega
  -- the rows of the first `n` are no more than `n`
  have hfirst : (l.filter (· ∈ l.take n)).length ≤ n := by
    have hsub : (l.filter (· ∈ l.take n)).Subperm (l.take n) :=
      (hnodup.filter _).subperm fun x hx => by simpa using (List.mem_filter.mp hx).2
    exact Nat.le_trans hsub.length_le (List.length_take_le n l)
  have := hsplit l
  rw [← List.countP_eq_length_filter] at hfirst
  unfold window
  rw [← List.countP_eq_length_filter]
  omega

end

end Relational
