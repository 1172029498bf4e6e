/-
  PrintLatch.Queue.Drain

  An agent that is left alone works off its queue.

  A turn is a step of the agent's worker in which no call to the database fails; what the
  operating system answers is left open.  The turns lower `effort`, so there are finitely
  many, and the worker has none left only when it waits.  `Drained` says where a job that
  was queued can be on the way.
-/

import PrintLatch.Queue.Effort

namespace PrintLatch.Queue

open Reactive

section

variable (sha256Hex : List UInt8 → String) (pid : Nat)

/-- The worker makes a step, and the database serves it. -/
def Turn (w : World) (input : WorkerInput) : Prop :=
  input ≠ .wake ∧ input ≠ .claimFails ∧ input ≠ .finishFails ∧
    (step sha256Hex w (.worker pid input)).1.worker? pid ≠ w.worker? pid

instance (w : World) (input : WorkerInput) : Decidable (Turn sha256Hex pid w input) := by
  unfold Turn
  infer_instance

/-- The job has come to an end in its next attempt. -/
def Ended (r : JobRow) (row : JobRow) : Prop :=
  (row.state = .succeeded ∨ row.state = .failed) ∧ row.attempts = r.attempts + 1

/-- Where a job that was queued is now: still there, in the worker's hands, or at its end. -/
def Drained (w : World) (j : String) (r : JobRow) : Prop :=
  w.db.job? j = some r ∨
    (∃ row worker job, w.db.job? j = some row ∧ row.state = .printing ∧
      row.attempts = r.attempts + 1 ∧ w.worker? pid = some worker ∧ worker.job? = some job ∧
      job.id = j) ∨
    ∃ row, w.db.job? j = some row ∧ Ended r row

/-- The agent runs, and its worker waits only if no job is queued. -/
structure Attended (w : World) : Prop where
  running : ∃ p, w.procs pid = some p ∧ p.stopping = false
  awake : w.worker? pid ≠ some .backoff
  waits : w.worker? pid = some .waiting → ∀ r ∈ w.db.jobs.rows, r.state ≠ .queued

end

/-! ## One turn -/

section

variable {sha256Hex : List UInt8 → String} {pid : Nat}

/-- What is not cancelled is a step of the worker. -/
theorem step_worker_of_fits {w : World} {p : Process} (hp : w.procs pid = some p)
    {input : WorkerInput} (hfits : input ≠ .cancelled) :
    step sha256Hex w (.worker pid input) =
      let move := workerStep sha256Hex p.config pid w.db p.worker input
      (⟨move.1, Function.update w.procs pid (some { p with worker := move.2.1 }), w.ports⟩,
        move.2.2) := by
  have hpossible : ¬ (input = .cancelled ∧ p.stopping = false) := fun h => hfits h.1
  simp only [step, hp, if_neg hpossible]

/-- The runtime of an agent that runs cancels nothing. -/
theorem Turn.ne_cancelled {w : World} {p : Process} (hp : w.procs pid = some p)
    (hrunning : p.stopping = false) {input : WorkerInput} (h : Turn sha256Hex pid w input) :
    input ≠ .cancelled := by
  rintro rfl
  refine h.2.2.2 ?_
  simp only [step, hp, hrunning, and_self, if_true]

/-- A worker starts to wait only at an empty queue, and gives up for a while only after a
    claim that failed. -/
theorem workerStep_rests (sha256Hex : List UInt8 → String) (config : AppConfig) (pid : Nat)
    (db : Database) (worker : Worker) {input : WorkerInput} (hserved : input ≠ .claimFails) :
    let move := workerStep sha256Hex config pid db worker input
    (move.2.1 = .backoff → worker = .backoff) ∧
      (move.2.1 = .waiting → move.1 = db ∧
        (worker = .waiting ∨ ∀ r ∈ db.jobs.rows, r.state ≠ .queued)) := by
  intro move
  have hkept : workerStep sha256Hex config pid db worker input = (db, worker, []) →
      (move.2.1 = .backoff → worker = .backoff) ∧
        (move.2.1 = .waiting → move.1 = db ∧
          (worker = .waiting ∨ ∀ r ∈ db.jobs.rows, r.state ≠ .queued)) := by
    intro heq
    simp only [move, heq]
    exact ⟨id, fun h => ⟨trivial, Or.inl h⟩⟩
  have hgoes : move.2.1 ≠ .backoff → move.2.1 ≠ .waiting →
      (move.2.1 = .backoff → worker = .backoff) ∧
        (move.2.1 = .waiting → move.1 = db ∧
          (worker = .waiting ∨ ∀ r ∈ db.jobs.rows, r.state ≠ .queued)) :=
    fun hback hwait => ⟨fun h => absurd h hback, fun h => absurd h hwait⟩
  have hsubmit : ∀ job (s : Submission ⊕ SubmitResult),
      afterSubmit job s ≠ .backoff ∧ afterSubmit job s ≠ .waiting := by
    intro job s
    cases s <;> simp [afterSubmit]
  cases worker with
  | ready =>
      cases input with
      | claim now tie =>
          rcases db.claimNextJob_cases now tie with ⟨heq, hno⟩ | ⟨r, -, -, -, -, hsnd, -⟩
          · simp only [move, workerStep, heq]
            exact ⟨fun h => absurd h (by simp), fun _ => ⟨trivial, Or.inr hno⟩⟩
          · have heq : db.claimNextJob now tie =
                ((db.claimNextJob now tie).1, some (r.claim now)) := by rw [← hsnd]
            have hworker : move.2.1 = .claimed (r.claim now) := by
              simp only [move, workerStep]
              rw [heq]
            exact hgoes (by rw [hworker]; simp) (by rw [hworker]; simp)
      | claimFails => exact absurd rfl hserved
      | _ => exact hkept rfl
  | waiting =>
      cases input with
      | wake => exact hgoes (by simp [move, workerStep]) (by simp [move, workerStep])
      | _ => exact hkept rfl
  | backoff =>
      cases input with
      | wake => exact hgoes (by simp [move, workerStep]) (by simp [move, workerStep])
      | _ => exact hkept rfl
  | claimed job =>
      cases input with
      | submit devices => exact hgoes (hsubmit _ _).1 (hsubmit _ _).2
      | cancelled => exact hgoes (by simp [move, workerStep]) (by simp [move, workerStep])
      | _ => exact hkept rfl
  | submitting job submission =>
      cases submission with
      | capture destination =>
          cases input with
          | copyFile copied => exact hgoes (by simp [move, workerStep]) (by simp [move, workerStep])
          | panic => exact hgoes (by simp [move, workerStep]) (by simp [move, workerStep])
          | _ => exact hkept rfl
      | windows printer accepted =>
          cases input with
          | print taken => exact hgoes (hsubmit _ _).1 (hsubmit _ _).2
          | panic => exact hgoes (by simp [move, workerStep]) (by simp [move, workerStep])
          | _ => exact hkept rfl
  | finishing job result =>
      cases input with
      | finish now => exact hgoes (by simp [move, workerStep]) (by simp [move, workerStep])
      | finishFails => exact hgoes (by simp [move, workerStep]) (by simp [move, workerStep])
      | _ => exact hkept rfl

/-- A worker that does not wait has a turn. -/
theorem exists_turn {w : World} (h : Attended pid w) (hbusy : w.worker? pid ≠ some .waiting) :
    ∃ input, Turn sha256Hex pid w input := by
  obtain ⟨p, hp, hrunning⟩ := h.running
  have hworker := worker?_of_proc hp
  have hturn : ∀ input : WorkerInput, input ≠ .wake → input ≠ .claimFails →
      input ≠ .finishFails → input ≠ .cancelled →
      (workerStep sha256Hex p.config pid w.db p.worker input).2.1 ≠ p.worker →
      ∃ input, Turn sha256Hex pid w input := by
    intro input hwake hclaim hfinish hfits hmoved
    refine ⟨input, hwake, hclaim, hfinish, ?_⟩
    rw [step_worker_of_fits hp hfits, worker?_update, if_pos rfl, hworker]
    exact fun h => hmoved (Option.some.inj h)
  cases hw : p.worker with
  | ready =>
      refine hturn (.claim 0 0) (by simp) (by simp) (by simp) (by simp) ?_
      rw [hw]
      rcases w.db.claimNextJob_cases 0 0 with ⟨heq, -⟩ | ⟨r, -, -, -, -, hsnd, -⟩
      · simp [workerStep, heq]
      · have heq : w.db.claimNextJob 0 0 =
            ((w.db.claimNextJob 0 0).1, some (r.claim 0)) := by rw [← hsnd]
        simp only [workerStep]
        rw [heq]
        simp
  | waiting => exact absurd (hworker.trans (congrArg some hw)) hbusy
  | backoff => exact absurd (hworker.trans (congrArg some hw)) h.awake
  | claimed job =>
      refine hturn (.submit none) (by simp) (by simp) (by simp) (by simp) ?_
      rw [hw]
      simp only [workerStep]
      cases submitStart sha256Hex p.config job none <;> simp [afterSubmit]
  | submitting job submission =>
      refine hturn .panic (by simp) (by simp) (by simp) (by simp) ?_
      rw [hw]
      cases submission <;> simp [workerStep]
  | finishing job result =>
      refine hturn (.finish 0) (by simp) (by simp) (by simp) (by simp) ?_
      rw [hw]
      simp [workerStep]

/-- A turn keeps the agent attended. -/
theorem Attended.turn {w : World} {input : WorkerInput} (h : Attended pid w)
    (hturn : Turn sha256Hex pid w input) :
    Attended pid (step sha256Hex w (.worker pid input)).1 := by
  obtain ⟨p, hp, hrunning⟩ := h.running
  have hworker := worker?_of_proc hp
  obtain ⟨hback, hwait⟩ := workerStep_rests sha256Hex p.config pid w.db p.worker hturn.2.1
  rw [step_worker_of_fits hp (hturn.ne_cancelled hp hrunning)]
  refine ⟨⟨_, Function.update_self .., hrunning⟩, ?_, ?_⟩
  · rw [worker?_update, if_pos rfl]
    intro heq
    exact h.awake (hworker.trans (congrArg some (hback (Option.some.inj heq))))
  · rw [worker?_update, if_pos rfl]
    intro heq
    obtain ⟨hdb, hrest⟩ := hwait (Option.some.inj heq)
    show ∀ r ∈ (workerStep sha256Hex p.config pid w.db p.worker input).1.jobs.rows, _
    rw [hdb]
    rcases hrest with hstill | hnone
    · exact h.waits (hworker.trans (congrArg some hstill))
    · exact hnone

/-- A turn takes a job from the queue to the worker, or from the worker to its end. -/
theorem Drained.turn {w : World} {input : WorkerInput} (hagent : Attended pid w)
    (hturn : Turn sha256Hex pid w input) {j : String} {r : JobRow} (hqueued : r.state = .queued)
    (h : Drained pid w j r) : Drained pid (step sha256Hex w (.worker pid input)).1 j r := by
  obtain ⟨p, hp, hrunning⟩ := hagent.running
  have hworker := worker?_of_proc hp
  have hmove := workerMove_of_step sha256Hex p.config pid w.db p.worker input
  rw [step_worker_of_fits hp (hturn.ne_cancelled hp hrunning)]
  generalize workerStep sha256Hex p.config pid w.db p.worker input = move at hmove ⊢
  obtain ⟨db', worker', obs⟩ := move
  obtain ⟨config, listening, stopping, worker⟩ := p
  dsimp only at hmove hworker ⊢
  have hafter : World.worker? ⟨db', Function.update w.procs pid
      (some ⟨config, listening, stopping, worker'⟩), w.ports⟩ pid = some worker' := by
    rw [worker?_update, if_pos rfl]
    rfl
  -- a turn that leaves the table and the worker's job alone
  have hstill : db' = w.db → worker'.job? = worker.job? → Drained pid
      ⟨db', Function.update w.procs pid (some ⟨config, listening, stopping, worker'⟩), w.ports⟩
        j r := by
    rintro rfl hjob
    rcases h with hrow | ⟨row, held, job, hrow, hprinting, hattempts, hheld, hheldJob, hid⟩ |
      hended
    · exact Or.inl hrow
    · obtain rfl : worker = held := Option.some.inj (hworker.symm.trans hheld)
      exact Or.inr (Or.inl ⟨row, worker', job, hrow, hprinting, hattempts, hafter,
        hjob.trans hheldJob, hid⟩)
    · exact Or.inr (Or.inr hended)
  -- a turn of a worker that holds another job, or none
  have hother : db'.job? j = w.db.job? j → (∀ job, worker.job? = some job → job.id ≠ j) →
      Drained pid
        ⟨db', Function.update w.procs pid (some ⟨config, listening, stopping, worker'⟩), w.ports⟩
        j r := by
    intro hsame hnot
    rcases h with hrow | ⟨row, held, job, -, -, -, hheld, hheldJob, hid⟩ |
      ⟨row, hrow, hended⟩
    · exact Or.inl (hsame.trans hrow)
    · obtain rfl : worker = held := Option.some.inj (hworker.symm.trans hheld)
      exact absurd hid (hnot job hheldJob)
    · exact Or.inr (Or.inr ⟨row, hsame.trans hrow, hended⟩)
  cases hmove with
  | claim now tie r₁ db' next row queued oldest after =>
      by_cases hj : j = r₁.id
      · -- the oldest job is this one, and still as it was
        subst hj
        have hr : r₁ = r := by
          rcases h with hrow | ⟨_, _, _, _, _, _, hheld, hheldJob, _⟩ | ⟨r₂, hrow, hended, _⟩
          · exact Option.some.inj (row.symm.trans hrow)
          · obtain rfl := Option.some.inj (hworker.symm.trans hheld)
            cases hheldJob
          · obtain rfl : r₁ = r₂ := Option.some.inj (row.symm.trans hrow)
            rcases hended with hstate | hstate <;> rw [queued] at hstate <;> cases hstate
        subst hr
        exact Or.inr (Or.inl ⟨r₁.claim now, _, _, (after r₁.id).trans (if_pos rfl), rfl, rfl,
          hafter, rfl, rfl⟩)
      · exact hother ((after j).trans (if_neg hj)) fun job hjob => by cases hjob
  | empty now tie none => exact hstill rfl rfl
  | submit job devices => exact hstill rfl (job?_afterSubmit _ _)
  | cancel job => exact hstill rfl rfl
  | accept job printer accepted => exact hstill rfl (job?_afterSubmit _ _)
  | record job result now r₁ db' row printing after =>
      by_cases hj : j = job.id
      · -- its own attempt is over
        subst hj
        have hattempts : r₁.attempts = r.attempts + 1 := by
          rcases h with hrow | ⟨r₂, _, _, hrow, _, hattempts, _⟩ | ⟨r₂, hrow, hended, _⟩
          · obtain rfl : r₁ = r := Option.some.inj (row.symm.trans hrow)
            rw [hqueued] at printing
            cases printing
          · obtain rfl : r₁ = r₂ := Option.some.inj (row.symm.trans hrow)
            exact hattempts
          · obtain rfl : r₁ = r₂ := Option.some.inj (row.symm.trans hrow)
            rcases hended with hstate | hstate <;> rw [printing] at hstate <;> cases hstate
        exact Or.inr (Or.inr ⟨_, (after job.id).trans (if_pos rfl), outcome_state result,
          hattempts⟩)
      · refine hother ((after j).trans (if_neg hj)) fun held hheld => ?_
        obtain rfl : job = held := Option.some.inj hheld
        exact fun h => hj h.symm
  | miss job result now other =>
      -- the job of a claim that is over is in other hands
      rcases h with hrow | ⟨row, held, job₁, hrow, hprinting, -, hheld, hheldJob, rfl⟩ | hended
      · exact Or.inl hrow
      · obtain rfl := Option.some.inj (hworker.symm.trans hheld)
        obtain rfl : job = job₁ := Option.some.inj hheldJob
        exact absurd hprinting (other row hrow)
      · exact Or.inr (Or.inr hended)
  | lose job result => exact absurd rfl hturn.2.2.1
  | quiet worker worker' input job started ended => exact hstill rfl job

/-! ## The run -/

/-- A turn lowers what the agent has to do. -/
theorem Turn.effort_lt {w : World} {input : WorkerInput} (h : Turn sha256Hex pid w input) :
    effort {pid} (step sha256Hex w (.worker pid input)).1 + 1 ≤ effort {pid} w := by
  have hstep := effort_step sha256Hex {pid} w (.worker pid input)
  have hworked : worked sha256Hex {pid} w (.worker pid input) = 1 :=
    if_pos ⟨Finset.mem_singleton_self pid, h.2.2.2⟩
  have hasked : asked sha256Hex {pid} w (.worker pid input) = 0 := by
    cases input with
    | wake => exact absurd rfl h.1
    | _ => rfl
  omega

end

section

variable (sha256Hex : List UInt8 → String) {pid : Nat}

/-- **An agent that is left alone works off its queue.**  Its worker has finitely many
    turns, whatever the operating system answers.  When it has none left, it waits, and
    every job that was queued has succeeded or failed in one attempt more. -/
theorem queue_drains {w : World} {p : Process} (hp : w.procs pid = some p)
    (hrunning : p.stopping = false) (hawake : p.worker ≠ .waiting ∧ p.worker ≠ .backoff)
    {is : List Input} (hturns : Along (step sha256Hex) (fun _ u i => ∃ input,
      i = .worker pid input ∧ Turn sha256Hex pid u input) w is) :
    let w' := run (step sha256Hex) w is
    is.length ≤ effort {pid} w ∧
      ((∀ input, ¬ Turn sha256Hex pid w' input) →
        w'.worker? pid = some .waiting ∧
          ∀ j r, w.db.job? j = some r → r.state = .queued →
            ∃ row, w'.db.job? j = some row ∧ Ended r row) := by
  intro w'
  have hworker := worker?_of_proc hp
  have hlength : is.length + effort {pid} w' ≤ effort {pid} w := by
    refine length_add_potential_le (step sha256Hex) (fun u i hturn => ?_) hturns
    obtain ⟨input, rfl, hturn⟩ := hturn
    exact hturn.effort_lt
  have hstart : Attended pid w :=
    { running := ⟨p, hp, hrunning⟩
      awake := fun h => hawake.2 (Option.some.inj (hworker.symm.trans h))
      waits := fun h => absurd (Option.some.inj (hworker.symm.trans h)) hawake.1 }
  have hkept : Attended pid w' ∧
      ∀ j r, w.db.job? j = some r → r.state = .queued → Drained pid w' j r := by
    refine run_history_invariant
      (fun _ u => Attended pid u ∧
        ∀ j r, w.db.job? j = some r → r.state = .queued → Drained pid u j r)
      ⟨hstart, fun j r hr _ => Or.inl hr⟩ (fun tr u i hturn hu => ?_) hturns
    obtain ⟨input, rfl, hturn⟩ := hturn
    exact ⟨hu.1.turn hturn, fun j r hr hqueued =>
      (hu.2 j r hr hqueued).turn hu.1 hturn hqueued⟩
  refine ⟨by omega, fun hnone => ?_⟩
  have hwaits : w'.worker? pid = some .waiting := by
    by_contra hbusy
    obtain ⟨input, hturn⟩ := exists_turn hkept.1 hbusy
    exact hnone input hturn
  refine ⟨hwaits, fun j r hr hqueued => ?_⟩
  rcases hkept.2 j r hr hqueued with hrow | ⟨_, held, _, _, _, _, hheld, hheldJob, _⟩ | hended
  · exact absurd hqueued (hkept.1.waits hwaits r (Database.mem_of_job? hrow))
  · obtain rfl := Option.some.inj (hwaits.symm.trans hheld)
    cases hheldJob
  · exact hended

end

/-- Agent 0 has been started, and client `c1` has sent a job of two copies. -/
def exampleWaitingJob : World :=
  run (step exampleDigest) (World.ofDatabase exampleDatabase)
    [.start 0 exampleConfig 2, exampleCreate 2]

theorem queue_drains_of_exampleTurn :
    let is := exampleTurn 0 [true, false] 3
    let w' := run (step exampleDigest) exampleWaitingJob is
    is.length ≤ effort {0} exampleWaitingJob ∧
      ((∀ input, ¬ Turn exampleDigest 0 w' input) →
        w'.worker? 0 = some .waiting ∧
          ∀ j r, exampleWaitingJob.db.job? j = some r → r.state = .queued →
            ∃ row, w'.db.job? j = some row ∧ Ended r row) :=
  queue_drains exampleDigest (p := ⟨exampleConfig, false, false, .ready⟩) rfl rfl
    (by decide) (along_cons.mpr ⟨⟨.claim 3 0, rfl, by decide +kernel⟩,
      along_cons.mpr ⟨⟨.submit exampleDevices, rfl, by decide +kernel⟩,
        along_cons.mpr ⟨⟨.print true, rfl, by decide +kernel⟩,
          along_cons.mpr ⟨⟨.print false, rfl, by decide +kernel⟩,
            along_cons.mpr ⟨⟨.finish 3, rfl, by decide +kernel⟩, along_nil⟩⟩⟩⟩⟩)

end PrintLatch.Queue
