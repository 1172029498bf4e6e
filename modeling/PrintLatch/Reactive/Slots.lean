/-
  Reactive.Slots

  A list of what is under way, whose entries are replaced and taken out by their index.

  Each operation has one lemma for what it counts and one for what it leaves in the list.
-/

import Mathlib.Data.List.Basic

namespace Reactive

variable {α : Type*} {l : List α} {index : Nat} {a b c : α}

/-- Taking out entry `a` takes one off the count, if it was counted. -/
theorem countP_eraseIdx (p : α → Bool) (h : l[index]? = some a) :
    (l.eraseIdx index).countP p + (p a).toNat = l.countP p := by
  induction l generalizing index with
  | nil => cases h
  | cons x l ih =>
      cases index with
      | zero =>
          obtain rfl := Option.some.inj h
          rw [List.eraseIdx_cons_zero, List.countP_cons]
          cases p x <;> rfl
      | succ index =>
          have hrest := ih h
          rw [List.eraseIdx_cons_succ, List.countP_cons, List.countP_cons]
          omega

/-- An entry that is counted like the one it replaces leaves the count. -/
theorem countP_set_of_eq (p : α → Bool) (h : l[index]? = some a) (hp : p b = p a) :
    (l.set index b).countP p = l.countP p := by
  induction l generalizing index with
  | nil => cases h
  | cons x l ih =>
      cases index with
      | zero =>
          obtain rfl := Option.some.inj h
          rw [List.set_cons_zero, List.countP_cons, List.countP_cons, hp]
      | succ index => rw [List.set_cons_succ, List.countP_cons, List.countP_cons, ih h]

theorem mem_eraseIdx_of_ne (h : l[index]? = some a) (hb : b ∈ l) (hne : b ≠ a) :
    b ∈ l.eraseIdx index := by
  obtain ⟨k, hk⟩ := List.mem_iff_getElem?.mp hb
  refine List.mem_eraseIdx_iff_getElem?.mpr ⟨k, ?_, hk⟩
  rintro rfl
  exact hne (Option.some.inj (hk.symm.trans h))

theorem mem_set_of_ne (h : l[index]? = some a) (hb : b ∈ l) (hne : b ≠ a) :
    b ∈ l.set index c := by
  obtain ⟨k, hk⟩ := List.mem_iff_getElem?.mp hb
  refine List.mem_iff_getElem?.mpr ⟨k, ?_⟩
  have hki : index ≠ k := by
    rintro rfl
    exact hne (Option.some.inj (hk.symm.trans h))
  rw [List.getElem?_set_ne hki]
  exact hk

theorem mem_set_self (h : l[index]? = some a) : c ∈ l.set index c := by
  have hlt : index < l.length := by
    by_contra hge
    rw [List.getElem?_eq_none (by omega)] at h
    cases h
  exact List.mem_set hlt c

end Reactive
