/-
  PrintLatch.Queue.Signal

  `QueueSignal` (`src/worker.rs`): the handlers wake the worker of their agent.

  `create_job` and `retry_job` write to the database and then call `notify`; the
  worker goes to sleep after a claim that found nothing.  `tokio::sync::Notify` is
  one stored permit, which `notify_one` sets and `notified().await` takes.  A step
  is one database call, one `notify`, or one step of the worker; a handler that has
  written and not yet notified is in `handlers`.
-/

import PrintLatch.Queue.System

namespace PrintLatch.Queue

open Reactive

/-- One agent: its database, its worker, the permit of its signal, and the job
    that each handler has queued and not yet announced. -/
structure Agent where
  db : Database
  worker : Worker
  permit : Bool
  handlers : Nat → Option String

/-- The worker of a started agent is at the head of its loop. -/
def Agent.started (db : Database) (now : Int) : Agent :=
  ⟨(db.recoverInterruptedJobs now).1, .ready, false, fun _ => none⟩

/-- What happens next; `handler` says which handler makes the step. -/
inductive AgentInput where
  /-- `create_job` inserts its row. -/
  | create (handler : Nat) (parsed : ParsedJob) (report : PdfReport) (id client path : String)
      (now : Int)
  /-- `retry_job` updates its row. -/
  | retry (handler : Nat) (id client : String) (now : Int)
  | cancel (id client : String) (now : Int)
  /-- `QueueSignal::notify`. -/
  | notify (handler : Nat)
  | worker (input : WorkerInput)
  /-- The five seconds in `select!` are over. -/
  | timer
  /-- The agent ends and is started again. -/
  | restart (now : Int)
  deriving DecidableEq, Repr

/-- What handlers have done. -/
inductive SignalObs where
  | queued (handler : Nat) (job : String)
  | notified (handler : Nat)
  deriving DecidableEq, Repr

/-- A handler has queued a job. -/
def Agent.afterQueued (a : Agent) (db : Database) (handler : Nat) (id : String) :
    Agent × List SignalObs :=
  ({ a with db := db, handlers := Function.update a.handlers handler (some id) },
    [.queued handler id])

/-- One step of the agent. -/
def agentStep (sha256Hex : List UInt8 → String) (config : AppConfig) (a : Agent) :
    AgentInput → Agent × List SignalObs
  | .create handler parsed report id client path now =>
      match a.handlers handler with
      | some _ => (a, [])
      | none =>
          match a.db.insertJob (newJob parsed report id client path) now with
          | .error _ => (a, [])
          | .ok db =>
              -- a preview is not queued, and nobody is notified of it
              if parsed.mode = .print then a.afterQueued db handler id
              else ({ a with db := db }, [])
  | .retry handler id client now =>
      match a.handlers handler with
      | some _ => (a, [])
      | none =>
          match a.db.retryJob id client now with
          | (_, false) => (a, [])
          | (db, true) => a.afterQueued db handler id
  | .cancel id client now => ({ a with db := (a.db.cancelJob id client now).1 }, [])
  | .notify handler =>
      match a.handlers handler with
      | none => (a, [])
      | some _ =>
          ({ a with permit := true, handlers := Function.update a.handlers handler none },
            [.notified handler])
  | .worker .wake =>
      -- `notified().await` ends when it can take the permit
      if a.worker = .waiting then
        if a.permit then ({ a with worker := .ready, permit := false }, []) else (a, [])
      else
        let move := workerStep sha256Hex config 0 a.db a.worker .wake
        ({ a with db := move.1, worker := move.2.1 }, [])
  | .worker input =>
      let move := workerStep sha256Hex config 0 a.db a.worker input
      ({ a with db := move.1, worker := move.2.1 }, [])
  | .timer => if a.worker = .waiting then ({ a with worker := .ready }, []) else (a, [])
  | .restart now => (.started a.db now, [])

/-! ## No lost wake-up -/

/-- Job `id` was queued last by handler `h`, which has not called `notify` since. -/
def Unannounced (tr : List SignalObs) (h : Nat) (id : String) : Prop :=
  ∃ pre post, tr = pre ++ .queued h id :: post ∧ .notified h ∉ post ∧
    ∀ h', .queued h' id ∉ post

/-- The worker sleeps, and nothing wakes it. -/
def Agent.blocked (a : Agent) : Prop := a.worker = .waiting ∧ a.permit = false

/-- While the worker is blocked, every queued job is one whose handler has not called
    `notify` yet. -/
def NoLostWakeup (tr : List SignalObs) (a : Agent) : Prop :=
  a.blocked → ∀ r ∈ a.db.jobs.rows, r.state = .queued → ∃ h, Unannounced tr h r.id

theorem Unannounced.of_queued (tr : List SignalObs) (h : Nat) (id : String) :
    Unannounced (tr ++ [.queued h id]) h id := ⟨tr, [], by simp⟩

/-- A job stays unannounced while others are queued. -/
theorem Unannounced.queued_other {tr : List SignalObs} {h : Nat} {id : String}
    (hpending : Unannounced tr h id) (h' : Nat) {id' : String} (hne : id' ≠ id) :
    Unannounced (tr ++ [.queued h' id']) h id := by
  obtain ⟨pre, post, rfl, hnot, hlast⟩ := hpending
  refine ⟨pre, post ++ [.queued h' id'], by simp, by simpa using hnot, fun h'' hmem => ?_⟩
  rcases List.mem_append.mp hmem with hmem | hmem
  · exact hlast h'' hmem
  · obtain ⟨-, rfl⟩ : h'' = h' ∧ id = id' := by simpa using hmem
    exact hne rfl

/-! ## What keeps it -/

section

variable {tr : List SignalObs} {a : Agent}

theorem noLostWakeup_of_awake (h : ¬ a.blocked) : NoLostWakeup tr a :=
  fun hblocked => absurd hblocked h

theorem not_blocked_of_worker (h : a.worker ≠ .waiting) : ¬ a.blocked := fun hb => h hb.1

/-- Jobs that leave the queue change nothing. -/
theorem NoLostWakeup.of_fewer (h : NoLostWakeup tr a) {db : Database}
    (hfewer : ∀ r ∈ db.jobs.rows, r.state = .queued →
      ∃ r' ∈ a.db.jobs.rows, r'.state = .queued ∧ r'.id = r.id) :
    NoLostWakeup tr { a with db := db } := by
  intro hblocked r hr hq
  obtain ⟨r', hr', hq', hid⟩ := hfewer r hr hq
  exact hid ▸ h hblocked r' hr' hq'

/-- A handler that queues a job is the one that has not announced it. -/
theorem NoLostWakeup.afterQueued (h : NoLostWakeup tr a) {db : Database} {id : String}
    (hothers : ∀ r ∈ db.jobs.rows, r.state = .queued → r.id ≠ id →
      ∃ r' ∈ a.db.jobs.rows, r'.state = .queued ∧ r'.id = r.id) (handler : Nat) :
    NoLostWakeup (tr ++ (a.afterQueued db handler id).2) (a.afterQueued db handler id).1 := by
  intro hblocked r hr hq
  by_cases hid : r.id = id
  · exact ⟨handler, hid ▸ Unannounced.of_queued tr handler r.id⟩
  · obtain ⟨r', hr', hq', hsame⟩ := hothers r hr hq hid
    obtain ⟨h', hpending⟩ := h hblocked r' hr' hq'
    rw [hsame] at hpending
    exact ⟨h', hpending.queued_other handler (Ne.symm hid)⟩

/-- The loop goes to sleep after a claim that found nothing queued, and sleeps on
    while it is not woken. -/
theorem workerStep_waiting {sha256Hex : List UInt8 → String} {config : AppConfig} {pid : Nat}
    {db : Database} {worker : Worker} {input : WorkerInput}
    (h : (workerStep sha256Hex config pid db worker input).2.1 = .waiting) :
    (workerStep sha256Hex config pid db worker input).1 = db ∧
      (worker = .waiting ∨ ∀ r ∈ db.jobs.rows, r.state ≠ .queued) := by
  -- a step of `submit` leaves the worker with its job
  have hsubmit : ∀ job result, afterSubmit job result ≠ .waiting := fun job result heq => by
    have hjob := job?_afterSubmit job result
    rw [heq] at hjob
    cases hjob
  revert h
  unfold workerStep
  split
  · next now tie =>
      rcases db.claimNextJob_cases now tie with ⟨heq, hno⟩ | ⟨r, -, -, -, -, hsnd, -⟩
      · rw [heq]
        exact fun _ => ⟨rfl, Or.inr hno⟩
      · have heq : db.claimNextJob now tie =
            ((db.claimNextJob now tie).1, some (r.claim now)) := by rw [← hsnd]
        rw [heq]
        nofun
  · nofun
  · nofun
  · nofun
  · exact fun h => absurd h (hsubmit _ _)
  · nofun
  · nofun
  · exact fun h => absurd h (hsubmit _ _)
  · nofun
  · nofun
  · nofun
  · exact fun h => ⟨rfl, Or.inl h⟩

/-- A step of the loop that is no wake-up. -/
theorem noLostWakeup_worker (h : NoLostWakeup tr a) (sha256Hex : List UInt8 → String)
    (config : AppConfig) (input : WorkerInput) :
    let move := workerStep sha256Hex config 0 a.db a.worker input
    NoLostWakeup tr { a with db := move.1, worker := move.2.1 } := by
  intro move hblocked
  obtain ⟨hdb, hcases⟩ := workerStep_waiting hblocked.1
  show ∀ r ∈ move.1.jobs.rows, r.state = .queued → _
  rw [hdb]
  rcases hcases with hwaiting | hempty
  · exact h ⟨hwaiting, hblocked.2⟩
  · intro r hr hq
    exact absurd hq (hempty r hr)

/-- **One step** loses no wake-up. -/
theorem noLostWakeup_step (sha256Hex : List UInt8 → String) (config : AppConfig)
    (h : NoLostWakeup tr a) (i : AgentInput) :
    NoLostWakeup (tr ++ (agentStep sha256Hex config a i).2) (agentStep sha256Hex config a i).1 := by
  have hidle : NoLostWakeup (tr ++ []) a := by rwa [List.append_nil]
  cases i with
  | create handler parsed report id client path now =>
      simp only [agentStep]
      split
      · exact hidle
      · split
        · exact hidle
        · next db hdb =>
            have hrow : ∀ r ∈ db.jobs.rows, (r.id = id ∧
                r = (newJob parsed report id client path).row now) ∨ r ∈ a.db.jobs.rows :=
              fun r hr => (Database.row_of_insertJob hdb (Database.job?_of_mem hr)).imp_right
                Database.mem_of_job?
            split
            · exact h.afterQueued (fun r hr hq hid =>
                ⟨r, (hrow r hr).resolve_left fun hnew => hid hnew.1, hq, rfl⟩) handler
            · next hmode =>
                rw [List.append_nil]
                refine h.of_fewer fun r hr hq => ?_
                rcases hrow r hr with ⟨-, rfl⟩ | hold
                · -- the new job is a preview
                  have hpreview : parsed.mode = .preview := by
                    cases hm : parsed.mode with
                    | preview => rfl
                    | print => exact absurd hm hmode
                  simp [NewJob.row, newJob, hpreview] at hq
                · exact ⟨r, hold, hq, rfl⟩
  | retry handler id client now =>
      simp only [agentStep]
      split
      · exact hidle
      · split
        · exact hidle
        · next db hdb =>
            refine h.afterQueued (fun r hr hq hid => ?_) handler
            rcases a.db.retryJob_cases id client now with heq | ⟨r', hr', -, -, -, -, hall⟩
            · rw [heq] at hdb
              cases hdb
            · rw [hdb] at hall
              have hrow := Database.job?_of_mem hr
              rw [hall, if_neg hid] at hrow
              exact ⟨r, Database.mem_of_job? hrow, hq, rfl⟩
  | cancel id client now =>
      simp only [agentStep, List.append_nil]
      refine h.of_fewer fun r hr hq => ?_
      rcases a.db.cancelJob_cases id client now with heq | ⟨r', hr', -, -, -, hall⟩
      · rw [heq] at hr
        exact ⟨r, hr, hq, rfl⟩
      · have hrow := Database.job?_of_mem hr
        rw [hall] at hrow
        split at hrow
        · obtain rfl := Option.some.inj hrow
          cases hq
        · exact ⟨r, Database.mem_of_job? hrow, hq, rfl⟩
  | notify handler =>
      simp only [agentStep]
      split
      · exact hidle
      · exact noLostWakeup_of_awake fun hblocked => by cases hblocked.2
  | worker input =>
      have hmove := noLostWakeup_worker h sha256Hex config input
      by_cases hwake : input = .wake
      · subst hwake
        simp only [agentStep]
        split
        · split
          · exact noLostWakeup_of_awake (not_blocked_of_worker (by simp))
          · exact hidle
        · rwa [List.append_nil]
      · have heq : agentStep sha256Hex config a (.worker input) =
            ({ a with
                db := (workerStep sha256Hex config 0 a.db a.worker input).1
                worker := (workerStep sha256Hex config 0 a.db a.worker input).2.1 }, []) := by
          cases input with
          | wake => exact absurd rfl hwake
          | _ => rfl
        rw [heq, List.append_nil]
        exact hmove
  | timer =>
      simp only [agentStep]
      split
      · exact noLostWakeup_of_awake (not_blocked_of_worker (by simp))
      · exact hidle
  | restart now =>
      exact noLostWakeup_of_awake (not_blocked_of_worker (by simp [agentStep, Agent.started]))

end

/-- **No wake-up is lost.**  In every run of an agent, over any database it was
    started with, the worker is never blocked while a job is queued whose handler has
    called `notify`. -/
theorem no_lost_wakeup (sha256Hex : List UInt8 → String) (config : AppConfig) (db : Database)
    (now : Int) (is : List AgentInput) :
    NoLostWakeup (trace (agentStep sha256Hex config) (.started db now) is)
      (run (agentStep sha256Hex config) (.started db now) is) :=
  run_invariant NoLostWakeup
    (noLostWakeup_of_awake (not_blocked_of_worker (by simp [Agent.started])))
    (fun _ _ i h => noLostWakeup_step sha256Hex config h i) is

/-- The job comes after the claim that found nothing, and its notice before the
    worker waits for it. -/
example :
    let a := run (agentStep exampleDigest exampleConfig) (.started exampleDatabase 0)
      [.worker (.claim 0 0),
        .create 7 ⟨[], "application/pdf", .print, capturePrinterId, 1⟩ ⟨9, 1, "d1"⟩ "j1" "c1"
          "C:\\PrintLatch\\jobs\\j1.pdf" 1,
        .notify 7, .worker .wake, .worker (.claim 2 0)]
    a.worker.job?.map (fun r => r.id) = some "j1" ∧ a.permit = false := by
  decide

end PrintLatch.Queue
