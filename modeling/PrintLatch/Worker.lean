/-
  PrintLatch.Worker

  The queue worker of one agent (`src/worker.rs`): the loop of `run` as a
  machine whose control points are the places where another process can get
  between two of its database calls.

      ready → claimed → submitting → finishing → ready
        ↘ waiting / backoff ↗

  `WorkerInput` is what happens next: a database call returns or fails, the
  timer or the signal fires, the operating system answers `printers::submit`.
  An input that does not fit the control point does nothing.
-/

import PrintLatch.Db.Jobs
import PrintLatch.Printers

namespace PrintLatch

/-- The first item of `str::lines`: up to a newline, without the carriage return
    of a `\r\n`; nothing when the text is empty. -/
def firstLine (value : List Char) : Option (List Char) :=
  match value, value.span (· ≠ '\n') with
  | [], _ => none
  | _, (line, []) => some line
  | _, (line, _ :: _) =>
      if line.getLast? = some '\r' then some line.dropLast else some line

/-- `safe_error`: the first line, at most 300 characters. -/
def safeError (value : String) : String :=
  String.ofList (((firstLine value.toList).getD "Printer submission failed".toList).take 300)

/-- The state and detail `run` hands to `finish_job`. -/
def SubmitResult.outcome : SubmitResult → JobState × String
  | .ok detail => (.succeeded, detail)
  | .err message => (.failed, safeError message)
  | .stopped => (.failed, "Printer worker stopped unexpectedly")

/-- Where the loop of `run` stands. -/
inductive Worker where
  /-- At the head of the loop. -/
  | ready
  /-- In `select!`, after an empty queue. -/
  | waiting
  /-- Asleep after a failed claim. -/
  | backoff
  /-- Has claimed `job`, has not started to submit it. -/
  | claimed (job : JobRow)
  | submitting (job : JobRow) (submission : Submission)
  /-- `submit` is over, `finish_job` is not. -/
  | finishing (job : JobRow) (result : SubmitResult)
  deriving DecidableEq, Repr

/-- What the worker meets next. -/
inductive WorkerInput where
  | claim (now : Int) (tie : Nat)
  | claimFails
  | wake
  | submit (devices : Option (List PrinterDevice))
  | copyFile (copied : Bool)
  | print (taken : Bool)
  | panic
  /-- The runtime cancels the blocking task before it starts. -/
  | cancelled
  | finish (now : Int)
  | finishFails
  deriving DecidableEq, Repr

/-- What happens to jobs, for those who watch the agents from outside.  The
    attempt number is the value of `attempts` in the row the worker was given. -/
inductive Obs where
  | created (job client : String) (mode : JobMode)
  | canceled (job client : String)
  | retried (job client : String)
  | recovered (pid : Nat) (job : String)
  | claimed (pid : Nat) (job : String) (attempt : Nat)
  | submitStarted (pid : Nat) (job : String) (attempt : Nat)
  | copyAccepted (pid : Nat) (job : String)
  /-- `finish_job` changed the job's row. -/
  | recorded (pid : Nat) (job : String) (attempt : Nat) (state : JobState)
  deriving DecidableEq, Repr

/-- The job an observation is about. -/
def Obs.job : Obs → String
  | .created job _ _ => job
  | .canceled job _ => job
  | .retried job _ => job
  | .recovered _ job => job
  | .claimed _ job _ => job
  | .submitStarted _ job _ => job
  | .copyAccepted _ job => job
  | .recorded _ job _ _ => job

/-- The process whose worker made the observed step. -/
def Obs.worker? : Obs → Option Nat
  | .created .. | .canceled .. | .retried .. | .recovered .. => none
  | .claimed pid _ _ => some pid
  | .submitStarted pid _ _ => some pid
  | .copyAccepted pid _ => some pid
  | .recorded pid _ _ _ => some pid

/-- The worker after a step of `submit`. -/
def afterSubmit (job : JobRow) : Submission ⊕ SubmitResult → Worker
  | .inl submission => .submitting job submission
  | .inr result => .finishing job result

/-- One step of the loop of `run` in process `pid`. -/
def workerStep (sha256Hex : List UInt8 → String) (config : AppConfig) (pid : Nat) (db : Database) :
    Worker → WorkerInput → Database × Worker × List Obs
  -- `UPDATE ... RETURNING` hands the claimed row to the worker
  | .ready, .claim now tie =>
      match db.claimNextJob now tie with
      | (db', some job) => (db', .claimed job, [.claimed pid job.id job.attempts])
      | (db', none) => (db', .waiting, [])
  | .ready, .claimFails => (db, .backoff, [])
  | .waiting, .wake => (db, .ready, [])
  | .backoff, .wake => (db, .ready, [])
  | .claimed job, .submit devices =>
      (db, afterSubmit job (submitStart sha256Hex config job devices),
        [.submitStarted pid job.id job.attempts])
  -- a `JoinError` too, and nothing was submitted
  | .claimed job, .cancelled => (db, .finishing job .stopped, [])
  | .submitting job (.capture destination), .copyFile copied =>
      (db, .finishing job (copyFile destination job.copies copied), [])
  | .submitting job (.windows printer accepted), .print taken =>
      (db, afterSubmit job (printCopy printer accepted job.copies taken),
        if taken then [.copyAccepted pid job.id] else [])
  -- a `JoinError` of the blocking thread
  | .submitting job _, .panic => (db, .finishing job .stopped, [])
  | .finishing job result, .finish now =>
      (db.finishJob job.id result.outcome.1 result.outcome.2 now, .ready,
        if (db.job? job.id).any (fun r => r.state = .printing) then
          [.recorded pid job.id job.attempts result.outcome.1]
        else [])
  -- a failed `finish_job` is only logged
  | .finishing _ _, .finishFails => (db, .ready, [])
  -- anything else does not fit the control point
  | worker, _ => (db, worker, [])

/-- The row of the claim the worker is working on. -/
def Worker.job? : Worker → Option JobRow
  | .ready | .waiting | .backoff => none
  | .claimed job => some job
  | .submitting job _ => some job
  | .finishing job _ => some job

@[simp] theorem job?_afterSubmit (job : JobRow) (s : Submission ⊕ SubmitResult) :
    (afterSubmit job s).job? = some job := by
  cases s <;> rfl

theorem outcome_state (result : SubmitResult) :
    result.outcome.1 = .succeeded ∨ result.outcome.1 = .failed := by
  cases result <;> simp [SubmitResult.outcome]

/-- Everything a worker step can do, with the database and the worker after it
    and what is observed. -/
inductive WorkerMove (sha256Hex : List UInt8 → String) (config : AppConfig) (pid : Nat)
    (db : Database) : Worker → WorkerInput → Database → Worker → List Obs → Prop
  | claim (now : Int) (tie : Nat) (r : JobRow) (db' : Database)
      (next : db.nextQueued tie = some r.id) (row : db.job? r.id = some r)
      (queued : r.state = .queued)
      (oldest : ∀ q ∈ db.jobs.rows, q.state = .queued → r.createdAt ≤ q.createdAt)
      (after : ∀ id, db'.job? id = if id = r.id then some (r.claim now) else db.job? id) :
      WorkerMove sha256Hex config pid db .ready (.claim now tie) db' (.claimed (r.claim now))
        [.claimed pid r.id (r.attempts + 1)]
  | empty (now : Int) (tie : Nat) (none : ∀ r ∈ db.jobs.rows, r.state ≠ .queued) :
      WorkerMove sha256Hex config pid db .ready (.claim now tie) db .waiting []
  | submit (job : JobRow) (devices : Option (List PrinterDevice)) :
      WorkerMove sha256Hex config pid db (.claimed job) (.submit devices) db
        (afterSubmit job (submitStart sha256Hex config job devices))
        [.submitStarted pid job.id job.attempts]
  | cancel (job : JobRow) :
      WorkerMove sha256Hex config pid db (.claimed job) .cancelled db (.finishing job .stopped) []
  | accept (job : JobRow) (printer : String) (accepted : Nat) :
      WorkerMove sha256Hex config pid db (.submitting job (.windows printer accepted))
        (.print true) db (afterSubmit job (printCopy printer accepted job.copies true))
        [.copyAccepted pid job.id]
  | record (job : JobRow) (result : SubmitResult) (now : Int) (r : JobRow) (db' : Database)
      (row : db.job? job.id = some r) (printing : r.state = .printing)
      (after : ∀ id, db'.job? id =
        if id = job.id then some (r.finish result.outcome.1 result.outcome.2 now)
        else db.job? id) :
      WorkerMove sha256Hex config pid db (.finishing job result) (.finish now) db' .ready
        [.recorded pid job.id job.attempts result.outcome.1]
  | miss (job : JobRow) (result : SubmitResult) (now : Int)
      (other : ∀ r, db.job? job.id = some r → r.state ≠ .printing) :
      WorkerMove sha256Hex config pid db (.finishing job result) (.finish now) db .ready []
  | lose (job : JobRow) (result : SubmitResult) :
      WorkerMove sha256Hex config pid db (.finishing job result) .finishFails db .ready []
  | quiet (worker worker' : Worker) (input : WorkerInput) (job : worker'.job? = worker.job?)
      (started : ∀ job, worker' = .claimed job → worker = .claimed job)
      (ended : worker' = worker ∨ worker'.job? = none ∨ ∃ job submission result,
        worker = .submitting job submission ∧ worker' = .finishing job result ∧
        ((∃ detail, result = .ok detail) → ∃ destination, submission = .capture destination)) :
      WorkerMove sha256Hex config pid db worker input db worker' []

/-- **The worker's one inversion lemma.** -/
theorem workerMove_of_step (sha256Hex : List UInt8 → String) (config : AppConfig) (pid : Nat)
    (db : Database) (worker : Worker) (input : WorkerInput) :
    WorkerMove sha256Hex config pid db worker input
      (workerStep sha256Hex config pid db worker input).1
      (workerStep sha256Hex config pid db worker input).2.1
      (workerStep sha256Hex config pid db worker input).2.2 := by
  -- an input that does not fit is quiet
  have hquiet : ∀ w i, workerStep sha256Hex config pid db w i = (db, w, []) →
      WorkerMove sha256Hex config pid db w i (workerStep sha256Hex config pid db w i).1
        (workerStep sha256Hex config pid db w i).2.1
        (workerStep sha256Hex config pid db w i).2.2 := fun w i heq => by
    rw [heq]
    exact .quiet w w i rfl (fun _ h => h) (Or.inl rfl)
  cases worker with
  | ready =>
      cases input with
      | claim now tie =>
          rcases db.claimNextJob_cases now tie with ⟨heq, hno⟩ |
            ⟨r, hnext, hr, hq, hmin, hsnd, hall⟩
          · simp only [workerStep, heq]
            exact .empty now tie hno
          · have heq : db.claimNextJob now tie =
                ((db.claimNextJob now tie).1, some (r.claim now)) := by rw [← hsnd]
            simp only [workerStep]
            rw [heq]
            exact .claim now tie r _ hnext hr hq hmin hall
      | claimFails => exact .quiet _ _ _ rfl (fun _ h => by cases h) (Or.inr (Or.inl rfl))
      | _ => exact hquiet _ _ rfl
  | waiting =>
      cases input with
      | wake => exact .quiet _ _ _ rfl (fun _ h => by cases h) (Or.inr (Or.inl rfl))
      | _ => exact hquiet _ _ rfl
  | backoff =>
      cases input with
      | wake => exact .quiet _ _ _ rfl (fun _ h => by cases h) (Or.inr (Or.inl rfl))
      | _ => exact hquiet _ _ rfl
  | claimed job =>
      cases input with
      | submit devices => exact .submit job devices
      | cancelled => exact .cancel job
      | _ => exact hquiet _ _ rfl
  | submitting job submission =>
      cases submission with
      | capture destination =>
          cases input with
          | copyFile copied =>
              exact .quiet _ _ _ rfl (fun _ h => by cases h)
                (Or.inr (Or.inr ⟨_, _, _, rfl, rfl, fun _ => ⟨destination, rfl⟩⟩))
          | panic =>
              exact .quiet _ _ _ rfl (fun _ h => by cases h)
                (Or.inr (Or.inr ⟨_, _, _, rfl, rfl, fun _ => ⟨destination, rfl⟩⟩))
          | _ => exact hquiet _ _ rfl
      | windows printer accepted =>
          cases input with
          | print taken =>
              cases taken with
              | true => exact .accept job printer accepted
              | false =>
                  exact .quiet _ _ _ rfl (fun _ h => by cases h)
                    (Or.inr (Or.inr ⟨_, _, _, rfl, rfl, fun ⟨_, h⟩ => by cases h⟩))
          | panic =>
              exact .quiet _ _ _ rfl (fun _ h => by cases h)
                (Or.inr (Or.inr ⟨_, _, _, rfl, rfl, fun ⟨_, h⟩ => by cases h⟩))
          | _ => exact hquiet _ _ rfl
  | finishing job result =>
      cases input with
      | finish now =>
          rcases db.finishJob_cases job.id result.outcome.1 result.outcome.2 now with
            ⟨heq, hno⟩ | ⟨r, hr, hp, hall⟩
          -- the update meets a printing row or none, and only then shows something
          · have hany : (db.job? job.id).any (fun r => r.state = .printing) = false := by
              cases hj : db.job? job.id with
              | none => rfl
              | some r => simpa using hno r hj
            simp only [workerStep, heq, hany]
            exact .miss job result now hno
          · have hany : (db.job? job.id).any (fun r => r.state = .printing) = true := by
              simp [hr, hp]
            simp only [workerStep, hany, if_true]
            exact .record job result now r _ hr hp hall
      | finishFails => exact .lose job result
      | _ => exact hquiet _ _ rfl

/-- Everything a worker's move shows is its own doing. -/
theorem WorkerMove.worker?_obs {sha256Hex : List UInt8 → String} {config : AppConfig} {pid : Nat}
    {db db' : Database} {worker worker' : Worker} {input : WorkerInput} {obs : List Obs}
    (h : WorkerMove sha256Hex config pid db worker input db' worker' obs) :
    ∀ o ∈ obs, o.worker? = some pid := by
  cases h <;> simp [Obs.worker?]

end PrintLatch
