/-
  PrintLatch.Reactive.Simulation

  One machine that does what another one can do.

  A step of the concrete machine is answered by any number of steps of the abstract one
  that keep a relation between the two states and show what `view` keeps of the concrete
  observations.  `exists_run_of_simulation` makes this a statement about runs, and says of
  each abstract step at which concrete step it was taken, and why.

  An input that leaves the state alone can be taken out of a run: `run_muted` compares the
  run in which such inputs are only unseen with the one in which they are absent.
-/

import PrintLatch.Reactive.Machine

namespace Reactive

variable {σ ι ο τ κ ω : Type*} {step : σ → ι → σ × List ο} {astep : τ → κ → τ × List ω}
  {R : σ → τ → Prop} {view : ο → Option ω} {ok : σ → ι → Prop} {cause : σ → ι → κ → Prop}

/-- The step of a run at which `k` has its cause. -/
def CausedIn (step : σ → ι → σ × List ο) (cause : σ → ι → κ → Prop) (s : σ) (is : List ι) (k : κ) :
    Prop :=
  ∃ pre i post, is = pre ++ i :: post ∧ cause (run step s pre) i k

theorem CausedIn.head {s : σ} {i : ι} {k : κ} (h : cause s i k) (is : List ι) :
    CausedIn step cause s (i :: is) k :=
  ⟨[], i, is, rfl, h⟩

theorem CausedIn.cons {s : σ} {i : ι} {is : List ι} {k : κ}
    (h : CausedIn step cause (step s i).1 is k) : CausedIn step cause s (i :: is) k := by
  obtain ⟨pre, j, post, rfl, hcause⟩ := h
  exact ⟨i :: pre, j, post, rfl, hcause⟩

/-- Whatever is seen of a run is seen of one of its steps. -/
theorem exists_step_of_mem_trace {o : ο} {is : List ι} :
    ∀ {s : σ}, o ∈ trace step s is →
      ∃ pre i post, is = pre ++ i :: post ∧ o ∈ (step (run step s pre) i).2 := by
  induction is with
  | nil => exact fun h => absurd h List.not_mem_nil
  | cons i is ih =>
      intro s h
      rcases List.mem_append.mp h with hfirst | hrest
      · exact ⟨[], i, is, rfl, hfirst⟩
      · obtain ⟨pre, j, post, rfl, hj⟩ := ih hrest
        exact ⟨i :: pre, j, post, rfl, hj⟩

/-- **The simulation rule.** -/
theorem exists_run_of_simulation
    (hstep : ∀ s t i, R s t → ok s i → ∃ ks, R (step s i).1 (run astep t ks) ∧
      trace astep t ks = (step s i).2.filterMap view ∧ ∀ k ∈ ks, cause s i k)
    {is : List ι} :
    ∀ {s : σ} {t : τ}, R s t → Along step (fun _ u i => ok u i) s is →
      ∃ ks, R (run step s is) (run astep t ks) ∧
        trace astep t ks = (trace step s is).filterMap view ∧
        ∀ k ∈ ks, CausedIn step cause s is k := by
  induction is with
  | nil =>
      intro s t hR _
      exact ⟨[], hR, rfl, fun k hk => absurd hk List.not_mem_nil⟩
  | cons i is ih =>
      intro s t hR hok
      obtain ⟨hi, hrest⟩ := along_cons.mp hok
      obtain ⟨now, hnow, hseen, hcause⟩ := hstep s t i hR hi
      obtain ⟨later, hlater, hseen', hcause'⟩ := ih hnow hrest
      refine ⟨now ++ later, ?_, ?_, fun k hk => ?_⟩
      · rw [run_cons, run_append]
        exact hlater
      · rw [trace_cons, trace_append, List.filterMap_append, hseen, hseen']
      · rcases List.mem_append.mp hk with hk | hk
        · exact .head (hcause k hk) is
        · exact (hcause' k hk).cons

/-! ## Inputs that leave the state alone -/

/-- The machine in which nobody sees what the flagged inputs show. -/
def muted (step : σ → ι → σ × List ο) (s : σ) (i : ι × Bool) : σ × List ο :=
  ((step s i.1).1, if i.2 then [] else (step s i.1).2)

/-- The inputs that are not flagged. -/
def unflagged (is : List (ι × Bool)) : List ι := (is.filter fun i => !i.2).map (·.1)

/-- **The muting rule.** -/
theorem run_muted {still : σ → ι → Prop} (hstill : ∀ s i, still s i → (step s i).1 = s)
    {is : List (ι × Bool)} :
    ∀ {s : σ}, Along (muted step) (fun _ u i => i.2 = true → still u i.1) s is →
      run (muted step) s is = run step s (unflagged is) ∧
        trace (muted step) s is = trace step s (unflagged is) := by
  induction is with
  | nil => exact fun _ => ⟨rfl, rfl⟩
  | cons i is ih =>
      intro s hok
      obtain ⟨hfirst, hrest⟩ := along_cons.mp hok
      obtain ⟨hrun, htrace⟩ := ih hrest
      obtain ⟨i, flag⟩ := i
      cases flag with
      | false => exact ⟨hrun, congrArg ((step s i).2 ++ ·) htrace⟩
      | true =>
          have hsame : (step s i).1 = s := hstill s i (hfirst rfl)
          simp only [muted] at hrun htrace
          rw [hsame] at hrun htrace
          simp only [run_cons, trace_cons, muted, hsame]
          exact ⟨hrun, htrace⟩

end Reactive
