/-
  PrintLatch.Ledger.Budget

  Items charged to a running total that is compared with a limit after each one.

  `charge` refuses an item without a cost and an item that brings the total past the
  limit.  Stopping early makes no difference to whether it gets through: it does if and
  only if every item has a cost and the sum of the costs fits (`charge_eq_some`).

  The last section is about a limit kept for one reading of the items and asked for
  another: it is kept where every item is worth at most what it is charged
  (`sum_worth_le`), and an item that is worth more breaks it in some company
  (`keeps_limit_iff`).
-/

import Mathlib.Algebra.BigOperators.Group.List.Basic
import Mathlib.Algebra.Order.BigOperators.Group.List
import Mathlib.Algebra.Order.Monoid.Canonical.Defs

namespace Ledger

/-! ## Charging items -/

section

variable {α M : Type*} [AddCommMonoid M]

/-- What the items cost together; one without a cost adds nothing. -/
def bill (cost : α → Option M) (items : List α) : M :=
  (items.map fun item => (cost item).getD 0).sum

variable {cost : α → Option M} {items : List α}

@[simp] theorem bill_nil : bill cost [] = 0 := rfl

@[simp] theorem bill_cons {item : α} {rest : List α} :
    bill cost (item :: rest) = (cost item).getD 0 + bill cost rest := by
  simp [bill]

variable [LinearOrder M] [CanonicallyOrderedAdd M]

/-- The items charged one after another; refused as soon as the total passes the limit. -/
def charge (limit : M) (cost : α → Option M) (total : M) : List α → Option M
  | [] => some total
  | item :: rest =>
      match cost item with
      | none => none
      | some c => if limit < total + c then none else charge limit cost (total + c) rest

variable {limit total : M}

/-- Charging gets through if and only if every item has a cost and the bill fits; the
    total is then exact. -/
theorem charge_eq_some (hle : total ≤ limit) {final : M} :
    charge limit cost total items = some final ↔
      (∀ item ∈ items, (cost item).isSome) ∧ total + bill cost items ≤ limit ∧
        final = total + bill cost items := by
  induction items generalizing total with
  | nil =>
      simp only [charge, Option.some.injEq, List.not_mem_nil, false_implies, implies_true,
        bill_nil, add_zero, hle, true_and]
      exact eq_comm
  | cons item rest ih =>
      unfold charge
      cases hcost : cost item with
      | none => simp [hcost]
      | some c =>
          simp only [List.forall_mem_cons, bill_cons, hcost, Option.isSome_some, true_and,
            Option.getD_some, ← add_assoc]
          split
          · next hlt =>
              -- the total has passed the limit, and never comes back
              have hover : limit < total + c + bill cost rest := hlt.trans_le le_self_add
              simp [hover.not_ge]
          · next hnot => exact ih (not_lt.mp hnot)

end

/-! ## Two readings of the items -/

section

variable {α M : Type*} [AddCommMonoid M] [PartialOrder M] {charged worth : α → M} {limit : M}

/-- Items worth at most what they are charged keep the limit that the charges keep. -/
theorem sum_worth_le [IsOrderedAddMonoid M] {items : List α}
    (hfair : ∀ item ∈ items, worth item ≤ charged item)
    (hcharged : (items.map charged).sum ≤ limit) : (items.map worth).sum ≤ limit :=
  (List.sum_le_sum hfair).trans hcharged

/-- An item keeps the limit in every company of items that are worth at most what they
    are charged, exactly if it is so itself.  `filler` uses up what the item leaves. -/
theorem keeps_limit_iff [IsOrderedCancelAddMonoid M] {passes : List α → Prop} {item filler : α}
    (hpasses : ∀ items, passes items → (items.map charged).sum ≤ limit)
    (hfair : worth filler = charged filler) (hfills : charged item + charged filler = limit)
    (hfiller : passes [item, filler]) :
    (∀ others, (∀ other ∈ others, worth other ≤ charged other) → passes (item :: others) →
      ((item :: others).map worth).sum ≤ limit) ↔ worth item ≤ charged item := by
  constructor
  · intro hkeeps
    have hsum := hkeeps [filler] (fun other hother => by
      rw [List.mem_singleton.mp hother, hfair]) hfiller
    simp only [List.map_cons, List.map_nil, List.sum_cons, List.sum_nil, add_zero, hfair,
      ← hfills] at hsum
    exact le_of_add_le_add_right hsum
  · intro hitem others hothers hpass
    exact sum_worth_le (List.forall_mem_cons.mpr ⟨hitem, hothers⟩) (hpasses _ hpass)

end

end Ledger
