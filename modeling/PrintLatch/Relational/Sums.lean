/-
  PrintLatch.Relational.Sums

  Sums over the rows of a table.

  A table is known by what `lookup` finds in it, up to the order of its rows
  (`rows_perm`).  So a sum over the rows changes with the one row that a statement changes,
  and the statement's lemma about `lookup` is all that it takes (`sum_rows_of_lookup`).
-/

import PrintLatch.Relational.Table
import Mathlib.Algebra.BigOperators.Group.List.Basic
import Mathlib.Algebra.GroupWithZero.Nat
import Mathlib.Data.List.Perm.Basic

namespace Relational.Table

variable {α κ : Type*} {clash : α → α → Prop} [DecidableEq κ] (key : α → κ)

omit [DecidableEq κ] in
theorem nodup_rows (hkey : ∀ a b, key a = key b → clash a b) (t : Table clash) : t.rows.Nodup :=
  t.distinct.imp fun hab heq => hab (hkey _ _ (congrArg key heq))

/-- The rows of a table are the one with key `k`, if there is one, and the others. -/
theorem rows_perm (hkey : ∀ a b, key a = key b → clash a b) (t : Table clash) (k : κ) :
    t.rows.Perm ((t.lookup key k).toList ++ t.rows.filter fun r => key r ≠ k) := by
  have hnodup := nodup_rows key hkey t
  have hdisjoint : ∀ a ∈ (t.lookup key k).toList, ∀ b ∈ t.rows.filter (fun r => key r ≠ k),
      a ≠ b := by
    rintro a ha b hb rfl
    have hak := key_of_lookup key (Option.mem_toList.mp ha)
    exact of_decide_eq_true (List.mem_filter.mp hb).2 hak
  have hsplit : ((t.lookup key k).toList ++ t.rows.filter fun r => key r ≠ k).Nodup :=
    List.nodup_append.mpr ⟨by cases t.lookup key k <;> simp, hnodup.filter _, hdisjoint⟩
  refine (List.perm_ext_iff_of_nodup hnodup hsplit).mpr fun a => ?_
  rw [List.mem_append, Option.mem_toList, lookup_eq_some_iff key hkey,
    List.mem_filter, decide_eq_true_eq]
  tauto

/-- Tables that agree on every other key have the same other rows. -/
theorem others_perm (hkey : ∀ a b, key a = key b → clash a b) {t t' : Table clash} {k : κ}
    (h : ∀ k', k' ≠ k → t'.lookup key k' = t.lookup key k') :
    (t'.rows.filter fun r => key r ≠ k).Perm (t.rows.filter fun r => key r ≠ k) := by
  refine (List.perm_ext_iff_of_nodup ((nodup_rows key hkey t').filter _)
    ((nodup_rows key hkey t).filter _)).mpr fun a => ?_
  simp only [List.mem_filter, decide_eq_true_eq]
  refine and_congr_left fun hak => ?_
  have hrow : ∀ u : Table clash, a ∈ u.rows ↔ u.lookup key (key a) = some a := fun u => by
    simp [lookup_eq_some_iff key hkey]
  rw [hrow, hrow, h _ hak]

/-- A sum over the rows changes with the one row that changes. -/
theorem sum_rows_of_lookup (hkey : ∀ a b, key a = key b → clash a b) {t t' : Table clash} {k : κ}
    (h : ∀ k', k' ≠ k → t'.lookup key k' = t.lookup key k') (g : α → Nat) :
    (t'.rows.map g).sum + ((t.lookup key k).toList.map g).sum =
      (t.rows.map g).sum + ((t'.lookup key k).toList.map g).sum := by
  have hsplit : ∀ u : Table clash, (u.rows.map g).sum = ((u.lookup key k).toList.map g).sum +
      ((u.rows.filter fun r => key r ≠ k).map g).sum := fun u => by
    rw [((rows_perm key hkey u k).map g).sum_eq, List.map_append, List.sum_append]
  rw [hsplit t, hsplit t', ((others_perm key hkey h).map g).sum_eq]
  omega

end Relational.Table
