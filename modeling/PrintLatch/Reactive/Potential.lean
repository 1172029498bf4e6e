/-
  PrintLatch.Reactive.Potential

  What a run costs, by a potential of its states.

  `total cost` adds up over a run what each step costs in the state where it is made.  A
  step that may only work as much as it lowers the potential, or as much as somebody pays
  for, bounds the work of every run (`total_add_potential_le`); in particular a part of the
  state that only changes to lower ranks changes at most as often as its rank says
  (`total_changes_le`), and a run of steps that all lower the potential comes to an end
  (`length_add_potential_le`).
-/

import PrintLatch.Reactive.Machine

namespace Reactive

section

variable {σ ι ο : Type*} (step : σ → ι → σ × List ο)

/-- The sum of what the steps of a run cost. -/
def total (cost : σ → ι → Nat) (s : σ) : List ι → Nat
  | [] => 0
  | i :: is => cost s i + total cost (step s i).1 is

@[simp] theorem total_nil (cost : σ → ι → Nat) (s : σ) : total step cost s [] = 0 := rfl

@[simp] theorem total_cons (cost : σ → ι → Nat) (s : σ) (i : ι) (is : List ι) :
    total step cost s (i :: is) = cost s i + total step cost (step s i).1 is := rfl

/-- **The potential method.** -/
theorem total_add_potential_le {work gain : σ → ι → Nat} {potential : σ → Nat}
    (h : ∀ s i, work s i + potential (step s i).1 ≤ potential s + gain s i) (s : σ)
    (is : List ι) :
    total step work s is + potential (run step s is) ≤ potential s + total step gain s is := by
  induction is generalizing s with
  | nil => simp
  | cons i is ih =>
      have hfirst := h s i
      have hrest := ih (step s i).1
      rw [total_cons, total_cons, run_cons]
      omega

/-- The step changes what `view` shows. -/
def changes {β : Type*} [DecidableEq β] (view : σ → β) (s : σ) (i : ι) : Nat :=
  if view (step s i).1 = view s then 0 else 1

/-- What only changes to lower ranks comes to rest. -/
theorem total_changes_le {β : Type*} [DecidableEq β] {view : σ → β} {rank : β → Nat}
    (h : ∀ s i, view (step s i).1 ≠ view s → rank (view (step s i).1) < rank (view s)) (s : σ)
    (is : List ι) :
    total step (changes step view) s is + rank (view (run step s is)) ≤ rank (view s) := by
  have hstep : ∀ s i, changes step view s i + rank (view (step s i).1) ≤
      rank (view s) + (fun _ _ => 0 : σ → ι → Nat) s i := by
    intro s i
    unfold changes
    split
    · next hsame => rw [hsame]; omega
    · next hchanged =>
        have := h s i hchanged
        omega
  have hfree : ∀ s is, total step (fun _ _ => 0 : σ → ι → Nat) s is = 0 := by
    intro s is
    induction is generalizing s with
    | nil => rfl
    | cons i is ih => rw [total_cons, ih]
  have hbound := @total_add_potential_le σ ι ο step (changes step view) (fun _ _ => 0)
    (fun s => rank (view s)) hstep s is
  rw [hfree] at hbound
  exact hbound

/-- A run that lowers the potential with each step is no longer than the potential was. -/
theorem length_add_potential_le {ok : σ → ι → Prop} {potential : σ → Nat}
    (h : ∀ s i, ok s i → potential (step s i).1 + 1 ≤ potential s) {s : σ} {is : List ι}
    (hok : Along step (fun _ u i => ok u i) s is) :
    is.length + potential (run step s is) ≤ potential s := by
  induction is using List.reverseRecOn with
  | nil => simp
  | append_singleton is i ih =>
      rw [along_concat] at hok
      have hrest := ih hok.1
      have hlast := h _ _ hok.2
      rw [run_concat, List.length_append, List.length_singleton]
      omega

end

end Reactive
