/-
  PrintLatch.Reactive.Machine

  Runs of a machine that is driven by inputs and shows observations.

  A machine is a function `step : σ → ι → σ × List ο`: one input moves the
  state and shows a list of observations.  Every choice the environment makes
  (who acts next, what a clock reads, whether a call fails) is part of the
  input, so a list of inputs *is* an interleaving and "for every run" reads
  "for every list of inputs".

  Three rules carry every whole-run result:

    * `run_history_invariant` — an invariant of the observations so far and the
      state, kept by one step under a guard, holds along every guarded run;
    * `run_erase_inputs` — inputs of one kind that leave a relation alone can be
      erased from the run;
    * `trace_eq_of_lockstep` — two runs over the same inputs show the same
      observations when one step keeps a relation between their states.
-/

import Mathlib.Data.List.Infix

namespace Reactive

variable {σ ι ο : Type*}

/-- The state after a list of inputs. -/
def run (step : σ → ι → σ × List ο) (s : σ) : List ι → σ
  | [] => s
  | i :: is => run step (step s i).1 is

/-- Everything observed over a list of inputs, oldest first. -/
def trace (step : σ → ι → σ × List ο) (s : σ) : List ι → List ο
  | [] => []
  | i :: is => (step s i).2 ++ trace step (step s i).1 is

section Runs

variable (step : σ → ι → σ × List ο)

@[simp] theorem run_nil (s : σ) : run step s [] = s := rfl

@[simp] theorem run_cons (s : σ) (i : ι) (is : List ι) :
    run step s (i :: is) = run step (step s i).1 is := rfl

@[simp] theorem trace_nil (s : σ) : trace step s [] = [] := rfl

@[simp] theorem trace_cons (s : σ) (i : ι) (is : List ι) :
    trace step s (i :: is) = (step s i).2 ++ trace step (step s i).1 is := rfl

theorem run_append (s : σ) (is js : List ι) :
    run step s (is ++ js) = run step (run step s is) js := by
  induction is generalizing s with
  | nil => rfl
  | cons i is ih => simp only [List.cons_append, run_cons, ih]

theorem trace_append (s : σ) (is js : List ι) :
    trace step s (is ++ js) = trace step s is ++ trace step (run step s is) js := by
  induction is generalizing s with
  | nil => rfl
  | cons i is ih => simp only [List.cons_append, trace_cons, run_cons, ih, List.append_assoc]

theorem run_concat (s : σ) (is : List ι) (i : ι) :
    run step s (is ++ [i]) = (step (run step s is) i).1 := by
  rw [run_append]
  rfl

theorem trace_concat (s : σ) (is : List ι) (i : ι) :
    trace step s (is ++ [i]) = trace step s is ++ (step (run step s is) i).2 := by
  rw [trace_append]
  simp

end Runs

/-! ## Guarded runs -/

/-- Every step of the run meets `ok`, a condition on the observations so far,
    the state before the step and the input. -/
def Along (step : σ → ι → σ × List ο) (ok : List ο → σ → ι → Prop) (s : σ) (is : List ι) : Prop :=
  ∀ pre i post, is = pre ++ i :: post → ok (trace step s pre) (run step s pre) i

section Guarded

variable {step : σ → ι → σ × List ο} {ok : List ο → σ → ι → Prop} {s : σ}

theorem Along.of_prefix {is pre : List ι} (h : Along step ok s is) (hpre : pre <+: is) :
    Along step ok s pre := by
  obtain ⟨rest, rfl⟩ := hpre
  intro before i after heq
  exact h before i (after ++ rest) (by simp [heq])

theorem Along.last {is : List ι} {i : ι} (h : Along step ok s (is ++ [i])) :
    ok (trace step s is) (run step s is) i :=
  h is i [] rfl

theorem Along.mono {ok' : List ο → σ → ι → Prop} {is : List ι}
    (h : Along step ok s is) (himp : ∀ tr s i, ok tr s i → ok' tr s i) :
    Along step ok' s is :=
  fun pre i post heq => himp _ _ _ (h pre i post heq)

@[simp] theorem along_nil : Along step ok s [] := by
  intro pre i post heq
  simp at heq

/-- The first step of a guarded run, and the rest of it. -/
theorem along_cons {i : ι} {is : List ι} :
    Along step ok s (i :: is) ↔
      ok [] s i ∧ Along step (fun tr u j => ok ((step s i).2 ++ tr) u j) (step s i).1 is := by
  constructor
  · intro h
    refine ⟨h [] i is rfl, fun pre j post heq => ?_⟩
    exact h (i :: pre) j post (by simp [heq])
  · rintro ⟨hfirst, hrest⟩ pre j post heq
    cases pre with
    | nil =>
        obtain ⟨rfl, rfl⟩ : i = j ∧ is = post := by simpa using heq
        exact hfirst
    | cons i' pre =>
        obtain ⟨rfl, rfl⟩ : i = i' ∧ is = pre ++ j :: post := by simpa using heq
        exact hrest pre j post rfl

/-- A guarded run in two parts. -/
theorem along_append {is js : List ι} :
    Along step ok s (is ++ js) ↔ Along step ok s is ∧
      Along step (fun tr u j => ok (trace step s is ++ tr) u j) (run step s is) js := by
  induction is generalizing s ok with
  | nil => simp
  | cons i is ih => simp only [List.cons_append, along_cons, ih, trace_cons, run_cons,
      List.append_assoc, and_assoc]

/-- A guard that only looks at the input holds along a run iff every input
    meets it. -/
theorem along_input_iff {p : ι → Prop} {is : List ι} :
    Along step (fun _ _ i => p i) s is ↔ ∀ i ∈ is, p i := by
  constructor
  · intro h i hi
    obtain ⟨pre, post, heq⟩ := List.append_of_mem hi
    exact h pre i post heq
  · intro h pre i post heq
    exact h i (by simp [heq])

/-- Extending a guarded run by one step: the old run is guarded and the new
    step meets the guard. -/
theorem along_concat {is : List ι} {i : ι} :
    Along step ok s (is ++ [i]) ↔
      Along step ok s is ∧ ok (trace step s is) (run step s is) i := by
  constructor
  · intro h
    exact ⟨h.of_prefix (List.prefix_append _ _), h.last⟩
  · rintro ⟨hold, hnew⟩ pre j post heq
    -- the step is the new one, or it lies in the old run
    rcases List.eq_nil_or_concat post with rfl | ⟨post', k, rfl⟩
    · obtain ⟨rfl, hij⟩ := List.append_inj' heq (by simp)
      obtain rfl : i = j := by simpa using hij
      exact hnew
    · have hassoc : is ++ [i] = (pre ++ j :: post') ++ [k] := by simpa using heq
      obtain ⟨hsplit, -⟩ := List.append_inj' hassoc rfl
      exact hold pre j post' hsplit

/-- **The invariant rule.**  An invariant of the history and the state that
    holds at the start and is kept by every guarded step holds at the end of
    every guarded run. -/
theorem run_history_invariant (Inv : List ο → σ → Prop) (h0 : Inv [] s)
    (hstep : ∀ tr t i, ok tr t i → Inv tr t → Inv (tr ++ (step t i).2) (step t i).1)
    {is : List ι} (hok : Along step ok s is) : Inv (trace step s is) (run step s is) := by
  -- on the run from its end: the last step is made from a state with `Inv`
  induction is using List.reverseRecOn with
  | nil => exact h0
  | append_singleton is i ih =>
      rw [along_concat] at hok
      rw [run_concat, trace_concat]
      exact hstep _ _ _ hok.2 (ih hok.1)

/-- The invariant rule for unguarded runs. -/
theorem run_invariant (Inv : List ο → σ → Prop) (h0 : Inv [] s)
    (hstep : ∀ tr t i, Inv tr t → Inv (tr ++ (step t i).2) (step t i).1)
    (is : List ι) : Inv (trace step s is) (run step s is) :=
  run_history_invariant Inv h0 (fun tr t i (_ : True) h => hstep tr t i h)
    (fun _ _ _ _ => trivial)

end Guarded

/-! ## Comparing two runs -/

section Compare

variable {step : σ → ι → σ × List ο} {ok : σ → ι → Prop} {R : σ → σ → Prop}

/-- **The erasure rule.**  If a step on a kept input keeps `R` between the two
    states and a step on an erased input keeps `R` against a state that stands
    still, then the run over all inputs and the run over the kept inputs end in
    related states. -/
theorem run_erase_inputs {keep : ι → Bool}
    (hkeep : ∀ s t i, R s t → ok s i → keep i = true → R (step s i).1 (step t i).1)
    (hskip : ∀ s t i, R s t → ok s i → keep i = false → R (step s i).1 t)
    {is : List ι} :
    ∀ {s t : σ}, R s t → Along step (fun _ u i => ok u i) s is →
      R (run step s is) (run step t (is.filter keep)) := by
  induction is with
  | nil => intro s t hR _; simpa using hR
  | cons i is ih =>
      intro s t hR hok
      obtain ⟨hi, htail⟩ := along_cons.mp hok
      cases hk : keep i with
      | true =>
          rw [List.filter_cons_of_pos hk]
          exact ih (hkeep s t i hR hi hk) htail
      | false =>
          rw [List.filter_cons_of_neg (by simp [hk])]
          exact ih (hskip s t i hR hi hk) htail

/-- **The two-run rule.**  Runs over the same inputs, both guarded, from related
    states show the same observations and end in related states. -/
theorem trace_eq_of_lockstep
    (hstep : ∀ s t i, R s t → ok s i → ok t i →
      (step s i).2 = (step t i).2 ∧ R (step s i).1 (step t i).1)
    {is : List ι} :
    ∀ {s t : σ}, R s t → Along step (fun _ u i => ok u i) s is →
      Along step (fun _ u i => ok u i) t is →
      trace step s is = trace step t is ∧ R (run step s is) (run step t is) := by
  induction is with
  | nil => intro s t hR _ _; exact ⟨rfl, hR⟩
  | cons i is ih =>
      intro s t hR hs ht
      obtain ⟨hsi, hstail⟩ := along_cons.mp hs
      obtain ⟨hti, httail⟩ := along_cons.mp ht
      obtain ⟨hobs, hR'⟩ := hstep s t i hR hsi hti
      obtain ⟨htr, hend⟩ := ih hR' hstail httail
      exact ⟨by rw [trace_cons, trace_cons, hobs, htr], hend⟩

end Compare

end Reactive
