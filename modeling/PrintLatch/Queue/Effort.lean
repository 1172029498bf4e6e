/-
  PrintLatch.Queue.Effort

  What the workers of the agents do, and what for.

  `effort` is a potential of the system: what the queued jobs will still cost a worker, and
  what is left of the loop for each worker where it stands.  A step of a worker lowers it,
  and only a print request, a retry, a new process and a wake-up raise it.  So no worker is
  ever busy for nothing (`work_bounded`), and an agent that is left alone works off its
  queue (`queue_drains`).
-/

import PrintLatch.Queue.System
import PrintLatch.Reactive.Potential
import PrintLatch.Relational.Sums
import Mathlib.Algebra.BigOperators.Group.Finset.Basic

namespace PrintLatch.Queue

open Reactive Relational

/-! ## The potential -/

/-- What a job costs the worker that claims it: the claim, the start of the submission, its
    copies, its end and the way back to the head of the loop. -/
def price (copies : Nat) : Nat := 4 + copies

/-- What a job in the table will cost. -/
def weight (r : JobRow) : Nat := if r.state = .queued then price r.copies else 0

/-- What is left of the loop before the worker waits. -/
def stage : Worker → Nat
  | .waiting | .backoff => 0
  | .ready => 1
  | .finishing _ _ => 2
  | .submitting _ (.capture _) => 3
  | .submitting job (.windows _ accepted) => 3 + (job.copies - accepted)
  | .claimed job => price job.copies

/-- What the queued jobs will cost. -/
def backlog (db : Database) : Nat := (db.jobs.rows.map weight).sum

/-- What is left for the worker of a process, if it has one. -/
def remaining (w : World) (pid : Nat) : Nat := ((w.worker? pid).map stage).getD 0

/-- What the queue and the workers of some agents still have to do. -/
def effort (agents : Finset Nat) (w : World) : Nat :=
  backlog w.db + ∑ pid ∈ agents, remaining w pid

/-- A step that one of the agents' workers makes. -/
def worked (sha256Hex : List UInt8 → String) (agents : Finset Nat) (w : World) : Input → Nat
  | .worker pid input =>
      if pid ∈ agents ∧ (step sha256Hex w (.worker pid input)).1.worker? pid ≠ w.worker? pid
      then 1 else 0
  | _ => 0

/-- What an input asks of the workers. -/
def asked (sha256Hex : List UInt8 → String) (agents : Finset Nat) (w : World) : Input → Nat
  | .create parsed report id client path now =>
      if (step sha256Hex w (.create parsed report id client path now)).2 ≠ [] ∧
        parsed.mode = .print then price parsed.copies else 0
  | .retry id client now =>
      if (step sha256Hex w (.retry id client now)).2 ≠ [] then
        ((w.db.job? id).map fun r => price r.copies).getD 0
      else 0
  | .start pid _ _ => if pid ∈ agents then 1 else 0
  | .worker pid .wake => if pid ∈ agents then 2 else 0
  | _ => 0

/-! ## The queue -/

/-- What the job of a record will cost. -/
def owed (r : Option JobRow) : Nat := (r.map weight).getD 0

/-- A statement that touches one job changes what that job will cost. -/
theorem backlog_of_job? {db db' : Database} {id : String}
    (h : ∀ id', id' ≠ id → db'.job? id' = db.job? id') :
    backlog db' + owed (db.job? id) = backlog db + owed (db'.job? id) := by
  have howed : ∀ db : Database, ((db.job? id).toList.map weight).sum = owed (db.job? id) :=
    fun db => by cases db.job? id <;> simp [owed]
  have hsum : backlog db' + ((db.job? id).toList.map weight).sum =
      backlog db + ((db'.job? id).toList.map weight).sum :=
    Table.sum_rows_of_lookup (fun r : JobRow => r.id) (fun _ _ h => h) h weight
  rwa [howed, howed] at hsum

theorem backlog_recoverInterruptedJobs (db : Database) (now : Int) :
    backlog (db.recoverInterruptedJobs now).1 = backlog db := by
  unfold backlog
  simp only [Database.recoverInterruptedJobs, Database.updateJobs, Table.rows_modify,
    List.map_map]
  congr 1
  refine List.map_congr_left fun r _ => ?_
  by_cases hprinting : r.state = .printing
  · simp [weight, hprinting]
  · simp [hprinting]

theorem backlog_cancelJob_le (db : Database) (id client : String) (now : Int) :
    backlog (db.cancelJob id client now).1 ≤ backlog db := by
  rcases db.cancelJob_cases id client now with heq | ⟨r, -, -, -, -, hall⟩
  · rw [heq]
  · have hchange := backlog_of_job? fun id' hne => (hall id').trans (if_neg hne)
    have hafter : owed ((db.cancelJob id client now).1.job? id) = 0 := by
      rw [hall, if_pos rfl]
      simp [owed, weight]
    omega

theorem backlog_finishJob_le (db : Database) (id : String) {state : JobState}
    (hstate : state ≠ .queued) (detail : String) (now : Int) :
    backlog (db.finishJob id state detail now) ≤ backlog db := by
  rcases db.finishJob_cases id state detail now with ⟨heq, -⟩ | ⟨r, -, -, hall⟩
  · rw [heq]
  · have hchange := backlog_of_job? fun id' hne => (hall id').trans (if_neg hne)
    have hafter : owed ((db.finishJob id state detail now).job? id) = 0 := by
      rw [hall, if_pos rfl]
      simp [owed, weight, hstate]
    omega

/-- A claim takes the job's price out of the queue. -/
theorem backlog_claim {db db' : Database} {r : JobRow} {now : Int} (hr : db.job? r.id = some r)
    (hqueued : r.state = .queued)
    (hall : ∀ id, db'.job? id = if id = r.id then some (r.claim now) else db.job? id) :
    backlog db' + price r.copies = backlog db := by
  have hchange := backlog_of_job? fun id' hne => (hall id').trans (if_neg hne)
  have hbefore : owed (db.job? r.id) = price r.copies := by simp [hr, owed, weight, hqueued]
  have hafter : owed (db'.job? r.id) = 0 := by
    rw [hall, if_pos rfl]
    simp [owed, weight]
  omega

/-! ## One worker -/

section

variable (sha256Hex : List UInt8 → String)

theorem stage_afterSubmit_nextCopy (job : JobRow) (printer : String) (accepted : Nat) :
    stage (afterSubmit job (nextCopy printer accepted job.copies)) ≤
        3 + (job.copies - accepted) ∧
      (job.copies ≤ accepted →
        stage (afterSubmit job (nextCopy printer accepted job.copies)) = 2) := by
  unfold nextCopy
  split
  · next hmore =>
      refine ⟨le_refl _, fun hall => ?_⟩
      omega
  · refine ⟨?_, fun _ => rfl⟩
    simp only [afterSubmit, stage]
    omega

theorem stage_afterSubmit_submitStart (config : AppConfig) (job : JobRow)
    (devices : Option (List PrinterDevice)) :
    stage (afterSubmit job (submitStart sha256Hex config job devices)) + 1 ≤
      price job.copies := by
  have hloop := stage_afterSubmit_nextCopy job
  unfold submitStart price
  split
  · simp only [afterSubmit, stage]
    omega
  · split
    · simp only [afterSubmit, stage]
      omega
    · split
      · simp only [afterSubmit, stage]
        omega
      · next device _ =>
          have hfirst := (hloop device.name 0).1
          omega

theorem stage_afterSubmit_printCopy (job : JobRow) (printer : String) (accepted : Nat)
    (taken : Bool) :
    stage (afterSubmit job (printCopy printer accepted job.copies taken)) + 1 ≤
      stage (.submitting job (.windows printer accepted)) := by
  unfold printCopy
  cases taken with
  | true =>
      have hnext := stage_afterSubmit_nextCopy job printer (accepted + 1)
      simp only [stage, if_true] at hnext ⊢
      omega
  | false =>
      simp only [stage, afterSubmit, Bool.false_eq_true, if_false]
      omega

/-- A turn of the worker costs what it has left or takes out of the queue; a wake-up is
    what it is given. -/
theorem worker_effort (config : AppConfig) (pid : Nat) (db : Database) (worker : Worker)
    (input : WorkerInput) :
    let move := workerStep sha256Hex config pid db worker input
    (if move.2.1 = worker then 0 else 1) + backlog move.1 + stage move.2.1 ≤
      backlog db + stage worker + if input = .wake then 2 else 0 := by
  intro move
  -- an input that does not fit costs nothing
  have hidle : workerStep sha256Hex config pid db worker input = (db, worker, []) →
      (if move.2.1 = worker then 0 else 1) + backlog move.1 + stage move.2.1 ≤
        backlog db + stage worker + if input = .wake then 2 else 0 := by
    intro heq
    simp only [move, heq, if_true]
    omega
  -- what a turn costs that leaves the table alone
  have hturn : ∀ worker' obs, workerStep sha256Hex config pid db worker input =
      (db, worker', obs) → stage worker' + 1 ≤ stage worker →
      (if move.2.1 = worker then 0 else 1) + backlog move.1 + stage move.2.1 ≤
        backlog db + stage worker + if input = .wake then 2 else 0 := by
    intro worker' obs heq hstage
    simp only [move, heq]
    split <;> omega
  cases worker with
  | ready =>
      cases input with
      | claim now tie =>
          rcases db.claimNextJob_cases now tie with ⟨heq, -⟩ | ⟨r, -, hr, hq, -, hsnd, hall⟩
          · exact hturn .waiting [] (by simp only [workerStep, heq]) (by simp [stage])
          · have heq : db.claimNextJob now tie =
                ((db.claimNextJob now tie).1, some (r.claim now)) := by rw [← hsnd]
            have hstep : workerStep sha256Hex config pid db .ready (.claim now tie) =
                ((db.claimNextJob now tie).1, .claimed (r.claim now),
                  [.claimed pid r.id (r.attempts + 1)]) := by
              simp only [workerStep]
              rw [heq]
              rfl
            have hclaim := backlog_claim hr hq hall
            simp only [move, hstep, stage, JobRow.claim_copies]
            split <;> omega
      | claimFails => exact hturn .backoff [] rfl (by simp [stage])
      | _ => exact hidle rfl
  | waiting =>
      cases input with
      | wake =>
          simp only [move, workerStep, stage, if_true]
          split <;> omega
      | _ => exact hidle rfl
  | backoff =>
      cases input with
      | wake =>
          simp only [move, workerStep, stage, if_true]
          split <;> omega
      | _ => exact hidle rfl
  | claimed job =>
      cases input with
      | submit devices =>
          exact hturn _ _ rfl (stage_afterSubmit_submitStart sha256Hex config job devices)
      | cancelled => exact hturn _ _ rfl (by simp only [stage, price]; omega)
      | _ => exact hidle rfl
  | submitting job submission =>
      cases submission with
      | capture destination =>
          cases input with
          | copyFile copied => exact hturn _ _ rfl (by simp [stage])
          | panic => exact hturn _ _ rfl (by simp [stage])
          | _ => exact hidle rfl
      | windows printer accepted =>
          cases input with
          | print taken =>
              exact hturn _ _ rfl (stage_afterSubmit_printCopy job printer accepted taken)
          | panic => exact hturn _ _ rfl (by simp only [stage]; omega)
          | _ => exact hidle rfl
  | finishing job result =>
      cases input with
      | finish now =>
          have hended : result.outcome.1 ≠ .queued := by
            rcases outcome_state result with h | h <;> rw [h] <;> decide
          have hqueue := backlog_finishJob_le db job.id hended result.outcome.2 now
          simp only [move, workerStep, stage]
          split <;> omega
      | finishFails => exact hturn .ready [] rfl (by simp [stage])
      | _ => exact hidle rfl

end

/-- No turn of a worker adds to the queue. -/
theorem backlog_workerMove_le {sha256Hex : List UInt8 → String} {config : AppConfig} {pid : Nat}
    {db db' : Database} {worker worker' : Worker} {input : WorkerInput} {obs : List Obs}
    (h : WorkerMove sha256Hex config pid db worker input db' worker' obs) :
    backlog db' ≤ backlog db := by
  cases h with
  | claim now tie r db' next row queued oldest after =>
      have := backlog_claim row queued after
      omega
  | record job result now r db' row printing after =>
      have hchange := backlog_of_job? fun id' hne => (after id').trans (if_neg hne)
      have hafter : owed (db'.job? job.id) = 0 := by
        rw [after, if_pos rfl]
        rcases outcome_state result with h | h <;> simp [owed, weight, h]
      omega
  | _ => exact le_refl _

/-! ## The system -/

section

variable (sha256Hex : List UInt8 → String) (agents : Finset Nat)

/-- Two worlds that differ in one worker differ in what is left for it. -/
theorem sum_remaining {w w' : World} {pid : Nat}
    (h : ∀ q, q ≠ pid → w'.worker? q = w.worker? q) :
    (∑ q ∈ agents, remaining w' q) + (if pid ∈ agents then remaining w pid else 0) =
      (∑ q ∈ agents, remaining w q) + if pid ∈ agents then remaining w' pid else 0 := by
  have hothers : ∑ q ∈ agents.erase pid, remaining w' q =
      ∑ q ∈ agents.erase pid, remaining w q :=
    Finset.sum_congr rfl fun q hq => by
      unfold remaining
      rw [h q (Finset.ne_of_mem_erase hq)]
  split
  · next hpid =>
      rw [← Finset.add_sum_erase agents _ hpid, ← Finset.add_sum_erase agents _ hpid, hothers]
      omega
  · next hpid => rw [← Finset.erase_eq_of_notMem hpid, hothers]

theorem sum_remaining_eq {w w' : World} (h : ∀ q, w'.worker? q = w.worker? q) :
    ∑ q ∈ agents, remaining w' q = ∑ q ∈ agents, remaining w q :=
  Finset.sum_congr rfl fun q _ => by
    unfold remaining
    rw [h q]

/-- The requests leave the workers alone. -/
theorem effort_withDb (w : World) (db : Database) :
    effort agents { w with db := db } + backlog w.db = effort agents w + backlog db := by
  have hsame : ∑ q ∈ agents, remaining { w with db := db } q = ∑ q ∈ agents, remaining w q :=
    sum_remaining_eq agents fun _ => rfl
  simp only [effort, hsame]
  omega

theorem effort_create (w : World) (parsed : ParsedJob) (report : PdfReport)
    (id client path : String) (now : Int) :
    effort agents (step sha256Hex w (.create parsed report id client path now)).1 ≤
      effort agents w +
        asked sha256Hex agents w (.create parsed report id client path now) := by
  cases hins : w.db.insertJob (newJob parsed report id client path) now with
  | error error =>
      have hstep : step sha256Hex w (.create parsed report id client path now) = (w, []) := by
        simp only [step, hins]
      rw [hstep]
      exact Nat.le_add_right _ _
  | ok db =>
      have hstep : step sha256Hex w (.create parsed report id client path now) =
          ({ w with db := db }, [.created id client parsed.mode]) := by
        simp only [step, hins]
      obtain ⟨hfree, -, hall⟩ := Database.insertJob_ok hins
      have hchange := backlog_of_job? fun id' hne => (hall id').trans (if_neg hne)
      have hbefore : owed (w.db.job? (newJob parsed report id client path).id) = 0 := by
        rw [hfree]
        rfl
      have hafter : owed (db.job? (newJob parsed report id client path).id) =
          if parsed.mode = .print then price parsed.copies else 0 := by
        rw [hall, if_pos rfl]
        cases hmode : parsed.mode <;> simp [owed, weight, NewJob.row, newJob, hmode]
      have heffort := effort_withDb agents w db
      simp only [asked, hstep, ne_eq, List.cons_ne_nil, not_false_eq_true, true_and]
      omega

theorem effort_retry (w : World) (id client : String) (now : Int) :
    effort agents (step sha256Hex w (.retry id client now)).1 ≤
      effort agents w + asked sha256Hex agents w (.retry id client now) := by
  rcases w.db.retryJob_cases id client now with heq | ⟨r, hr, -, -, -, htrue, hall⟩
  · have hstep : step sha256Hex w (.retry id client now) = (w, []) := by simp [step, heq]
    rw [hstep]
    exact Nat.le_add_right _ _
  · have hstep : step sha256Hex w (.retry id client now) =
        ({ w with db := (w.db.retryJob id client now).1 }, [.retried id client]) := by
      simp only [step, htrue, if_true]
    have hchange := backlog_of_job? fun id' hne => (hall id').trans (if_neg hne)
    have hafter : owed ((w.db.retryJob id client now).1.job? id) = price r.copies := by
      rw [hall, if_pos rfl]
      simp [owed, weight, JobRow.retry]
    have heffort := effort_withDb agents w (w.db.retryJob id client now).1
    simp only [asked, hstep, hr, ne_eq, List.cons_ne_nil, not_false_eq_true, if_true,
      Option.map_some, Option.getD_some]
    omega

/-- A new worker, or none, has a step of the loop before it. -/
theorem effort_update (w : World) (db : Database) (pid : Nat) (p : Option Process)
    (ports : Nat → Option Nat) :
    effort agents ⟨db, Function.update w.procs pid p, ports⟩ + backlog w.db +
        (if pid ∈ agents then remaining w pid else 0) =
      effort agents w + backlog db +
        if pid ∈ agents then ((p.map (·.worker)).map stage).getD 0 else 0 := by
  have hother : ∀ q, q ≠ pid →
      World.worker? ⟨db, Function.update w.procs pid p, ports⟩ q = w.worker? q :=
    fun q hne => (worker?_update w db pid p ports q).trans (if_neg hne)
  have hself : remaining ⟨db, Function.update w.procs pid p, ports⟩ pid =
      ((p.map (·.worker)).map stage).getD 0 := by
    unfold remaining
    rw [worker?_update, if_pos rfl]
  have hsum := sum_remaining agents hother
  rw [hself] at hsum
  simp only [effort]
  omega

/-- A process that keeps its worker changes nothing. -/
theorem effort_update_same {w : World} {pid : Nat} {p : Process} (hp : w.procs pid = some p)
    (p' : Process) (hw : p'.worker = p.worker) (ports : Nat → Option Nat) :
    effort agents ⟨w.db, Function.update w.procs pid (some p'), ports⟩ = effort agents w := by
  have hsame : ∑ q ∈ agents,
      remaining ⟨w.db, Function.update w.procs pid (some p'), ports⟩ q =
        ∑ q ∈ agents, remaining w q :=
    sum_remaining_eq agents fun q => worker?_update_same hp p' hw ports q
  simp only [effort, hsame]

/-- A turn of a worker that its process can make. -/
theorem effort_turn {w : World} {pid : Nat} {p : Process} {input : WorkerInput}
    (hp : w.procs pid = some p) (hgo : ¬ (input = .cancelled ∧ p.stopping = false)) :
    worked sha256Hex agents w (.worker pid input) +
        effort agents (step sha256Hex w (.worker pid input)).1 ≤
      effort agents w + asked sha256Hex agents w (.worker pid input) := by
  let move := workerStep sha256Hex p.config pid w.db p.worker input
  have hstep : (step sha256Hex w (.worker pid input)).1 =
      ⟨move.1, Function.update w.procs pid (some { p with worker := move.2.1 }), w.ports⟩ := by
    simp only [step, hp, if_neg hgo, move]
  have hbefore : remaining w pid = stage p.worker := by simp [remaining, worker?_of_proc hp]
  have hworked : worked sha256Hex agents w (.worker pid input) =
      if pid ∈ agents then (if move.2.1 = p.worker then 0 else 1) else 0 := by
    simp only [worked]
    rw [hstep, worker?_update, if_pos rfl, worker?_of_proc hp]
    by_cases hpid : pid ∈ agents <;> by_cases hsame : move.2.1 = p.worker <;> simp [hpid, hsame]
  have hasked : asked sha256Hex agents w (.worker pid input) =
      if pid ∈ agents then (if input = .wake then 2 else 0) else 0 := by
    cases input <;> simp [asked]
  have hqueue : backlog move.1 ≤ backlog w.db :=
    backlog_workerMove_le (workerMove_of_step sha256Hex p.config pid w.db p.worker input)
  have hturn : (if move.2.1 = p.worker then 0 else 1) + backlog move.1 + stage move.2.1 ≤
      backlog w.db + stage p.worker + if input = .wake then 2 else 0 :=
    worker_effort sha256Hex p.config pid w.db p.worker input
  have heffort := effort_update agents w move.1 pid (some { p with worker := move.2.1 }) w.ports
  rw [hstep, hworked, hasked]
  rw [hbefore] at heffort
  simp only [Option.map_some, Option.getD_some] at heffort
  by_cases hpid : pid ∈ agents
  · simp only [if_pos hpid] at heffort ⊢
    omega
  · simp only [if_neg hpid] at heffort ⊢
    omega

/-- **What one step does to the potential.** -/
theorem effort_step (w : World) (i : Input) :
    worked sha256Hex agents w i + effort agents (step sha256Hex w i).1 ≤
      effort agents w + asked sha256Hex agents w i := by
  cases i with
  | create parsed report id client path now =>
      have := effort_create sha256Hex agents w parsed report id client path now
      simpa only [worked, Nat.zero_add] using this
  | retry id client now =>
      have := effort_retry sha256Hex agents w id client now
      simpa only [worked, Nat.zero_add] using this
  | cancel id client now =>
      have hqueue := backlog_cancelJob_le w.db id client now
      have heffort := effort_withDb agents w (w.db.cancelJob id client now).1
      simp only [worked, asked, step]
      omega
  | start pid config now =>
      cases hp : w.procs pid with
      | some p => simp [worked, step, hp]
      | none =>
          have hqueue := backlog_recoverInterruptedJobs w.db now
          have heffort := effort_update agents w (w.db.recoverInterruptedJobs now).1 pid
            (some ⟨config, false, false, .ready⟩) w.ports
          simp only [worked, asked, step, hp]
          simp only [Option.map_some, stage, Option.getD_some] at heffort
          by_cases hpid : pid ∈ agents
          · simp only [if_pos hpid] at heffort ⊢
            omega
          · simp only [if_neg hpid] at heffort ⊢
            omega
  | bind pid =>
      have hsame : effort agents (step sha256Hex w (.bind pid)).1 = effort agents w := by
        simp only [step]
        cases hp : w.procs pid with
        | none => rfl
        | some p =>
            dsimp only
            split
            · rfl
            · cases w.ports p.config.port with
              | some other => exact effort_update_same agents hp { p with stopping := true } rfl _
              | none => exact effort_update_same agents hp { p with listening := true } rfl _
      simp only [worked, hsame]
      omega
  | shutdown pid =>
      have hsame : effort agents (step sha256Hex w (.shutdown pid)).1 = effort agents w := by
        simp only [step]
        cases hp : w.procs pid with
        | none => rfl
        | some p =>
            exact effort_update_same agents hp { p with listening := false, stopping := true } rfl _
      simp only [worked, hsame]
      omega
  | crash pid =>
      have heffort := effort_update agents w w.db pid none (releasePorts w.ports pid)
      simp only [worked, asked, step]
      simp only [Option.map_none, Option.getD_none, ite_self] at heffort
      omega
  | worker pid input =>
      cases hp : w.procs pid with
      | none => simp [worked, step, hp]
      | some p =>
          by_cases hstill : input = .cancelled ∧ p.stopping = false
          · simp [worked, step, hp, hstill]
          · exact effort_turn sha256Hex agents hp hstill

/-- **No worker is busy for nothing.**  Over any run, from any world, the workers of some
    agents make at most as many steps as they had left and were asked for. -/
theorem work_bounded (w : World) (is : List Input) :
    total (step sha256Hex) (worked sha256Hex agents) w is +
        effort agents (run (step sha256Hex) w is) ≤
      effort agents w + total (step sha256Hex) (asked sha256Hex agents) w is :=
  total_add_potential_le (step sha256Hex) (effort_step sha256Hex agents) w is

/-- Nothing is left when no job is queued and the workers of the agents wait. -/
theorem effort_eq_zero_iff (w : World) :
    effort agents w = 0 ↔ (∀ r ∈ w.db.jobs.rows, r.state ≠ .queued) ∧
      ∀ pid ∈ agents, ∀ worker, w.worker? pid = some worker →
        worker = .waiting ∨ worker = .backoff := by
  have hqueue : backlog w.db = 0 ↔ ∀ r ∈ w.db.jobs.rows, r.state ≠ .queued := by
    have hprice : ∀ copies, price copies ≠ 0 := fun copies => by
      unfold price
      omega
    simp [backlog, weight, List.sum_eq_zero_iff_forall_eq_nat, hprice]
  have hworker : ∀ pid, remaining w pid = 0 ↔ ∀ worker, w.worker? pid = some worker →
      worker = .waiting ∨ worker = .backoff := by
    intro pid
    unfold remaining
    cases w.worker? pid with
    | none => simp
    | some worker =>
        simp only [Option.map_some, Option.getD_some, Option.some.injEq, forall_eq']
        cases worker with
        | submitting job submission => cases submission <;> simp [stage]
        | claimed job => simp [stage, price]
        | _ => simp [stage]
  rw [effort, Nat.add_eq_zero_iff, hqueue, Finset.sum_eq_zero_iff]
  exact and_congr_right fun _ => forall₂_congr fun pid _ => hworker pid

end

end PrintLatch.Queue
