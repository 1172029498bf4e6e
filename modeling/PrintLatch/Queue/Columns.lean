/-
  PrintLatch.Queue.Columns

  What the steps of the queue's system leave alone: the columns of a job's row that say
  whose it is and what it prints, the row that a worker was given, and a capture under
  way.
-/

import PrintLatch.Queue.Refinement

namespace PrintLatch.Queue

/-- The columns that no statement sets after the insertion. -/
structure Fixed where
  id : String
  clientId : String
  printerId : String
  mode : JobMode
  byteCount : Nat
  sha256 : String
  filePath : String
  deriving DecidableEq, Repr

def fixed (r : JobRow) : Fixed :=
  ⟨r.id, r.clientId, r.printerId, r.mode, r.byteCount, r.sha256, r.filePath⟩

/-- A row keeps these columns through every move. -/
theorem RowMove.fixed {j : String} {row' : Option JobRow} {r : JobRow} {obs : List Obs}
    (h : RowMove j (some r) obs row') : ∃ r', row' = some r' ∧ fixed r' = fixed r := by
  cases h <;> exact ⟨_, rfl, rfl⟩

/-- A row that was not there was created. -/
theorem RowMove.created {j : String} {r : JobRow} {obs : List Obs}
    (h : RowMove j none obs (some r)) : ∃ client mode, .created j client mode ∈ obs := by
  cases h with
  | create client mode => exact ⟨client, mode, by simp⟩

section

variable (sha256Hex : List UInt8 → String) (w : World)

theorem fixed_step (i : Input) {j : String} {r : JobRow} (h : w.db.job? j = some r) :
    ∃ r', (step sha256Hex w i).1.db.job? j = some r' ∧ fixed r' = fixed r := by
  have hmove := rowMove_step sha256Hex w i j
  rw [h] at hmove
  exact hmove.fixed

/-- Only `create_job` shows that a job is created. -/
theorem created_step {i : Input} {j client : String} {mode : JobMode}
    (h : .created j client mode ∈ (step sha256Hex w i).2) :
    ∃ parsed report path now, i = .create parsed report j client path now := by
  cases i with
  | create parsed report id owner path now =>
      simp only [step] at h
      split at h
      · simp only [List.mem_singleton, Obs.created.injEq] at h
        obtain ⟨rfl, rfl, -⟩ := h
        exact ⟨parsed, report, path, now, rfl⟩
      · cases h
  | cancel id owner now =>
      simp only [step] at h
      split at h <;> simp at h
  | retry id owner now =>
      simp only [step] at h
      split at h <;> simp at h
  | start pid config now =>
      simp only [step] at h
      split at h <;> simp at h
  | bind pid =>
      simp only [step] at h
      repeat' split at h
      all_goals simp at h
  | shutdown pid =>
      simp only [step] at h
      split at h <;> simp at h
  | crash pid => simp [step] at h
  | worker pid input =>
      -- what a worker shows is of a worker
      have hmove := move_of_step sha256Hex w (.worker pid input)
      generalize (step sha256Hex w (.worker pid input)).1 = w' at hmove
      generalize (step sha256Hex w (.worker pid input)).2 = obs at hmove h
      cases hmove with
      | worker _ _ _ _ _ _ _ _ move => exact absurd (move.worker?_obs _ h) (by simp [Obs.worker?])
      | idle => cases h
      | other _ _ _ turn => exact absurd rfl (turn pid input)

/-- No other step adds a row. -/
theorem job?_step_of_none {i : Input} {j : String} (h : w.db.job? j = none)
    (hi : ∀ parsed report id client path now, i ≠ .create parsed report id client path now) :
    (step sha256Hex w i).1.db.job? j = none := by
  have hmove := rowMove_step sha256Hex w i j
  rw [h] at hmove
  generalize hafter : (step sha256Hex w i).1.db.job? j = after at hmove ⊢
  cases after with
  | none => rfl
  | some r =>
      obtain ⟨client, mode, hcreated⟩ := hmove.created
      obtain ⟨parsed, report, path, now, rfl⟩ := created_step sha256Hex w (mem_about.mp hcreated).1
      exact absurd rfl (hi parsed report j client path now)

/-- A row after any other step was there before it, with the same columns. -/
theorem row_of_step {i : Input} {j : String} {r' : JobRow}
    (h : (step sha256Hex w i).1.db.job? j = some r')
    (hi : ∀ parsed report id client path now, i ≠ .create parsed report id client path now) :
    ∃ r, w.db.job? j = some r ∧ fixed r' = fixed r := by
  cases hold : w.db.job? j with
  | none =>
      rw [job?_step_of_none sha256Hex w hold hi] at h
      cases h
  | some r =>
      obtain ⟨r'', hr'', hfixed⟩ := fixed_step sha256Hex w i hold
      obtain rfl : r'' = r' := Option.some.inj (hr''.symm.trans h)
      exact ⟨r, rfl, hfixed⟩

end

/-! ## The row a worker was given -/

/-- The row that a worker works on is the job's, up to the columns that change. -/
def HeldRows (w : World) : Prop :=
  ∀ pid worker job, w.worker? pid = some worker → worker.job? = some job →
    ∃ r, w.db.job? job.id = some r ∧ fixed r = fixed job

theorem heldRows_ofDatabase (db : Database) : HeldRows (.ofDatabase db) := by
  intro pid worker job hworker
  cases hworker

/-- A worker's job is one it had, or one it has just claimed. -/
theorem held_worker {sha256Hex : List UInt8 → String} {config : AppConfig} {pid : Nat}
    {db db' : Database} {worker worker' : Worker} {input : WorkerInput} {obs : List Obs}
    (h : WorkerMove sha256Hex config pid db worker input db' worker' obs) {job : JobRow}
    (hjob : worker'.job? = some job) :
    worker.job? = some job ∨ ∃ r, db.job? job.id = some r ∧ fixed r = fixed job := by
  cases h with
  | claim now tie r db' next row queued oldest after =>
      obtain rfl : r.claim now = job := Option.some.inj hjob
      exact .inr ⟨r, row, rfl⟩
  | empty => cases hjob
  | submit claimed devices =>
      rw [job?_afterSubmit] at hjob
      exact .inl hjob
  | accept claimed printer accepted =>
      rw [job?_afterSubmit] at hjob
      exact .inl hjob
  | cancel => exact .inl hjob
  | record | miss | lose => cases hjob
  | quiet _ _ _ same => exact .inl (by rw [← same]; exact hjob)

theorem heldRows_step (sha256Hex : List UInt8 → String) {w : World} (i : Input)
    (h : HeldRows w) : HeldRows (step sha256Hex w i).1 := by
  intro pid worker job hworker hjob
  -- it is enough to find the row before the step
  have hbefore : ∃ r, w.db.job? job.id = some r ∧ fixed r = fixed job := by
    have hmove := move_of_step sha256Hex w i
    generalize (step sha256Hex w i).1 = w' at hmove hworker
    generalize (step sha256Hex w i).2 = obs at hmove
    cases hmove with
    | idle => exact h pid worker job hworker hjob
    | other _ _ _ _ workers =>
        exact h pid worker job (worker?_of_busy (workers pid) hworker hjob) hjob
    | worker q p input db' worker' _ proc _ move =>
        rw [worker?_update] at hworker
        split at hworker
        · next heq =>
            subst heq
            obtain rfl : worker' = worker := Option.some.inj hworker
            rcases held_worker move hjob with hold | hrow
            · exact h pid p.worker job (worker?_of_proc proc) hold
            · exact hrow
        · exact h pid worker job hworker hjob
  obtain ⟨r, hr, hfixed⟩ := hbefore
  obtain ⟨r', hr', hkept⟩ := fixed_step sha256Hex w i hr
  exact ⟨r', hr', hkept.trans hfixed⟩

/-! ## A capture under way -/

/-- The step ends the submission of process `pid`. -/
def Input.endsSubmission (pid : Nat) : Input → Prop
  | .crash q => q = pid
  | .worker q .panic => q = pid
  | .worker q (.copyFile _) => q = pid
  | _ => False

/-- A capture goes on through every other step. -/
theorem worker?_step_capture (sha256Hex : List UInt8 → String) {w : World} {pid : Nat}
    {job : JobRow} {destination : String} {i : Input}
    (hw : w.worker? pid = some (.submitting job (.capture destination)))
    (hi : ¬ i.endsSubmission pid) :
    (step sha256Hex w i).1.worker? pid = some (.submitting job (.capture destination)) := by
  by_cases hpid : i.pid? = some pid
  · obtain ⟨p, hp, hworker⟩ : ∃ p, w.procs pid = some p ∧
        p.worker = .submitting job (.capture destination) := by
      simpa [World.worker?] using hw
    cases i with
    | create | cancel | retry => cases hpid
    | start q config now =>
        obtain rfl : q = pid := Option.some.inj hpid
        simp only [step, hp]
        exact hw
    | bind q =>
        obtain rfl : q = pid := Option.some.inj hpid
        simp only [step, hp]
        split
        · exact hw
        · split
          · exact (worker?_update_same hp { p with stopping := true } rfl _ q).trans hw
          · exact (worker?_update_same hp { p with listening := true } rfl _ q).trans hw
    | shutdown q =>
        obtain rfl : q = pid := Option.some.inj hpid
        simp only [step, hp]
        exact (worker?_update_same hp { p with listening := false, stopping := true } rfl _
          q).trans hw
    | crash q => exact absurd (Option.some.inj hpid) hi
    | worker q input =>
        obtain rfl : q = pid := Option.some.inj hpid
        have hsame : workerStep sha256Hex p.config q w.db p.worker input =
            (w.db, p.worker, []) := by
          rw [hworker]
          cases input with
          | copyFile copied => exact absurd rfl hi
          | panic => exact absurd rfl hi
          | _ => rfl
        simp only [step, hp, hsame]
        split
        · exact hw
        · rw [worker?_update, if_pos rfl]
          exact congrArg some hworker
  · rw [World.worker?, procs_step_of_ne sha256Hex w hpid]
    exact hw

end PrintLatch.Queue
