/-
  PrintLatch.Queue.System

  The whole system around one data directory: its database, any number of
  agent processes (`printlatch serve`, `src/main.rs`), their clients, and the
  loopback ports the processes listen on.

  A step is one SQL statement, or one answer of the operating system; the input
  says whose turn it is, so a list of inputs is an interleaving.  `start` is
  `serve` up to the spawned worker (the recovery statement is the only part of
  it that touches the jobs), `bind` is the bind that comes after it, `shutdown`
  is the return of `axum::serve`, `crash` ends a process at any point.  After a
  failed bind and after a shutdown the worker's task still runs while the runtime
  shuts down: it may go on from any point, and the runtime may cancel what it
  hands to `spawn_blocking`.
-/

import PrintLatch.Reactive.Machine
import PrintLatch.Worker
import PrintLatch.Api.NewJob
import Mathlib.Logic.Function.Basic

namespace PrintLatch.Queue

/-- A running `printlatch serve`. -/
structure Process where
  config : AppConfig
  listening : Bool
  /-- `serve` has returned. -/
  stopping : Bool
  worker : Worker
  deriving DecidableEq, Repr

/-- The data directory's database, the agent processes that use it and the
    process that listens on each loopback port. -/
structure World where
  db : Database
  procs : Nat → Option Process
  ports : Nat → Option Nat

/-- What happens next. -/
inductive Input where
  /-- `create_job` inserts its row. -/
  | create (parsed : ParsedJob) (report : PdfReport) (id client path : String) (now : Int)
  | cancel (id client : String) (now : Int)
  | retry (id client : String) (now : Int)
  | start (pid : Nat) (config : AppConfig) (now : Int)
  | bind (pid : Nat)
  | shutdown (pid : Nat)
  | crash (pid : Nat)
  | worker (pid : Nat) (input : WorkerInput)
  deriving DecidableEq, Repr

/-- A data directory no agent uses. -/
def World.ofDatabase (db : Database) : World := ⟨db, fun _ => none, fun _ => none⟩

/-- The database before its first job. -/
def World.noJobs (db : Database) : World := .ofDatabase { db with jobs := Relational.Table.empty _ }

/-- The worker of process `pid`. -/
def World.worker? (w : World) (pid : Nat) : Option Worker := (w.procs pid).map (·.worker)

/-- The ports that `pid` does not listen on. -/
def releasePorts (ports : Nat → Option Nat) (pid : Nat) : Nat → Option Nat :=
  fun port => if ports port = some pid then none else ports port

/-- One step of the system. -/
def step (sha256Hex : List UInt8 → String) (w : World) : Input → World × List Obs
  | .create parsed report id client path now =>
      match w.db.insertJob (newJob parsed report id client path) now with
      | .ok db => ({ w with db := db }, [.created id client parsed.mode])
      | .error _ => (w, [])
  | .cancel id client now =>
      ({ w with db := (w.db.cancelJob id client now).1 },
        if (w.db.cancelJob id client now).2 then [.canceled id client] else [])
  | .retry id client now =>
      ({ w with db := (w.db.retryJob id client now).1 },
        if (w.db.retryJob id client now).2 then [.retried id client] else [])
  -- `serve` recovers interrupted jobs before it spawns the worker
  | .start pid config now =>
      match w.procs pid with
      | some _ => (w, [])
      | none =>
          ({ w with
              db := (w.db.recoverInterruptedJobs now).1
              procs := Function.update w.procs pid (some ⟨config, false, false, .ready⟩) },
            (w.db.jobs.rows.filter fun r => r.state = .printing).map fun r =>
              .recovered pid r.id)
  -- a failed bind is an error of `serve`: the port belongs to another process
  | .bind pid =>
      match w.procs pid with
      | none => (w, [])
      | some p =>
          if p.listening ∨ p.stopping then (w, [])
          else
            match w.ports p.config.port with
            | some _ =>
                ({ w with procs := Function.update w.procs pid (some { p with stopping := true }) },
                  [])
            | none =>
                ({ w with
                    procs := Function.update w.procs pid (some { p with listening := true })
                    ports := Function.update w.ports p.config.port (some pid) }, [])
  | .shutdown pid =>
      match w.procs pid with
      | none => (w, [])
      | some p =>
          ({ w with
              procs := Function.update w.procs pid
                (some { p with listening := false, stopping := true })
              ports := releasePorts w.ports pid }, [])
  | .crash pid =>
      ({ w with
          procs := Function.update w.procs pid none
          ports := releasePorts w.ports pid }, [])
  | .worker pid input =>
      match w.procs pid with
      | none => (w, [])
      | some p =>
          -- only a runtime that shuts down cancels a blocking task
          if input = .cancelled ∧ p.stopping = false then (w, [])
          else
            let move := workerStep sha256Hex p.config pid w.db p.worker input
            ({ w with
                db := move.1
                procs := Function.update w.procs pid (some { p with worker := move.2.1 }) },
              move.2.2)

/-! ## What a step does to the workers -/

theorem worker?_update (w : World) (db : Database) (pid : Nat) (p : Option Process)
    (ports : Nat → Option Nat) (pid' : Nat) :
    World.worker? ⟨db, Function.update w.procs pid p, ports⟩ pid' =
      if pid' = pid then p.map (·.worker) else w.worker? pid' := by
  unfold World.worker?
  by_cases h : pid' = pid
  · subst h
    simp
  · simp [h]

theorem worker?_of_proc {w : World} {pid : Nat} {p : Process} (h : w.procs pid = some p) :
    w.worker? pid = some p.worker := by
  rw [World.worker?, h]
  rfl

/-- A step that changes a process but not its worker changes no worker. -/
theorem worker?_update_same {w : World} {pid : Nat} {p : Process} (hp : w.procs pid = some p)
    (p' : Process) (hw : p'.worker = p.worker) (ports : Nat → Option Nat) (pid' : Nat) :
    World.worker? ⟨w.db, Function.update w.procs pid (some p'), ports⟩ pid' = w.worker? pid' := by
  rw [worker?_update]
  split
  · next h => simp [World.worker?, h, hp, hw]
  · rfl

/-- Everything a step can do to the workers: one of them moves, nothing happens,
    or some are spawned or ended. -/
inductive Move (sha256Hex : List UInt8 → String) (w : World) : Input → World → List Obs → Prop
  | worker (pid : Nat) (p : Process) (input : WorkerInput) (db' : Database) (worker' : Worker)
      (obs : List Obs) (proc : w.procs pid = some p)
      (stopping : input = .cancelled → p.stopping = true)
      (move : WorkerMove sha256Hex p.config pid w.db p.worker input db' worker' obs) :
      Move sha256Hex w (.worker pid input)
        ⟨db', Function.update w.procs pid (some { p with worker := worker' }), w.ports⟩ obs
  | idle (i : Input) : Move sha256Hex w i w []
  | other (i : Input) (w' : World) (obs : List Obs)
      (turn : ∀ pid input, i ≠ .worker pid input)
      (workers : ∀ pid, w'.worker? pid = w.worker? pid ∨ w'.worker? pid = none ∨
        w'.worker? pid = some .ready)
      (outside : ∀ o ∈ obs, o.worker? = none) : Move sha256Hex w i w' obs

theorem move_of_step (sha256Hex : List UInt8 → String) (w : World) (i : Input) :
    Move sha256Hex w i (step sha256Hex w i).1 (step sha256Hex w i).2 := by
  cases i with
  -- the requests touch no worker
  | create parsed report id client path now =>
      simp only [step]
      split
      · exact .other _ _ _ (by simp) (fun _ => Or.inl rfl) (by simp [Obs.worker?])
      · exact .idle _
  | cancel id client now =>
      refine .other _ _ _ (by simp) (fun _ => Or.inl rfl) fun o ho => ?_
      simp only [step] at ho
      split at ho <;> simp_all [Obs.worker?]
  | retry id client now =>
      refine .other _ _ _ (by simp) (fun _ => Or.inl rfl) fun o ho => ?_
      simp only [step] at ho
      split at ho <;> simp_all [Obs.worker?]
  | start pid config now =>
      simp only [step]
      cases w.procs pid with
      | some p => exact .idle _
      | none =>
          -- the new worker is the only one that changes, and recovery speaks for none
          refine .other _ _ _ (by simp) (fun pid' => ?_) fun o ho => ?_
          · rw [worker?_update]
            split
            · exact Or.inr (Or.inr rfl)
            · exact Or.inl rfl
          · obtain ⟨r, -, rfl⟩ := List.mem_map.mp ho
            rfl
  | bind pid =>
      simp only [step]
      cases hp : w.procs pid with
      | none => exact .idle _
      | some p =>
          dsimp only
          split
          · exact .idle _
          · cases w.ports p.config.port with
            | some other =>
                exact .other _ _ _ (by simp) (fun pid' => Or.inl
                  (worker?_update_same hp { p with stopping := true } rfl _ pid')) (by simp)
            | none =>
                exact .other _ _ _ (by simp) (fun pid' => Or.inl
                  (worker?_update_same hp { p with listening := true } rfl _ pid')) (by simp)
  | shutdown pid =>
      simp only [step]
      cases hp : w.procs pid with
      | none => exact .idle _
      | some p =>
          exact .other _ _ _ (by simp) (fun pid' => Or.inl (worker?_update_same hp
            { p with listening := false, stopping := true } rfl _ pid')) (by simp)
  | crash pid =>
      refine .other _ _ _ (by simp) (fun pid' => ?_) (by simp [step])
      simp only [step]
      rw [worker?_update]
      split
      · exact Or.inr (Or.inl rfl)
      · exact Or.inl rfl
  -- the worker's own inversion lemma says the rest
  | worker pid input =>
      simp only [step]
      cases hp : w.procs pid with
      | none => exact .idle _
      | some p =>
          dsimp only
          split
          · exact .idle _
          · next hgo =>
              exact .worker pid p input _ _ _ hp (fun hi => by simpa [hi] using hgo)
                (workerMove_of_step sha256Hex p.config pid w.db p.worker input)

/-- What a worker is seen to do in a step is the move of that worker. -/
theorem workerMove_of_obs {sha256Hex : List UInt8 → String} {w : World} {i : Input} {o : Obs}
    {pid : Nat} (ho : o ∈ (step sha256Hex w i).2) (hpid : o.worker? = some pid) :
    ∃ config worker input db' worker', i = .worker pid input ∧ w.worker? pid = some worker ∧
      WorkerMove sha256Hex config pid w.db worker input db' worker' (step sha256Hex w i).2 := by
  have hmove := move_of_step sha256Hex w i
  generalize (step sha256Hex w i).1 = w' at hmove
  generalize (step sha256Hex w i).2 = obs at hmove ho ⊢
  cases hmove with
  | worker q p input db' worker' obs proc running move =>
      have hq : some q = some pid := (move.worker?_obs o ho).symm.trans hpid
      obtain rfl : q = pid := Option.some.inj hq
      exact ⟨p.config, p.worker, input, db', worker', rfl, worker?_of_proc proc, move⟩
  | idle i => cases ho
  | other i w' obs turn workers outside =>
      rw [outside o ho] at hpid
      cases hpid

/-- A worker that works on a job was neither spawned nor ended in this step. -/
theorem worker?_of_busy {old new : Option Worker}
    (h : new = old ∨ new = none ∨ new = some .ready) {worker : Worker} {job : JobRow}
    (hw : new = some worker) (hjob : worker.job? = some job) : old = some worker := by
  rcases h with heq | heq | heq
  · exact heq ▸ hw
  · rw [heq] at hw
    cases hw
  · -- a fresh worker has no job
    rw [heq] at hw
    obtain rfl : Worker.ready = worker := Option.some.inj hw
    cases hjob

/-! ## What a step does to the processes -/

/-- The process whose turn it is. -/
def Input.pid? : Input → Option Nat
  | .create .. | .cancel .. | .retry .. => none
  | .start pid _ _ => some pid
  | .bind pid => some pid
  | .shutdown pid => some pid
  | .crash pid => some pid
  | .worker pid _ => some pid

/-- A step changes no process but the one whose turn it is. -/
theorem procs_step_of_ne (sha256Hex : List UInt8 → String) (w : World) {i : Input} {q : Nat}
    (h : i.pid? ≠ some q) : (step sha256Hex w i).1.procs q = w.procs q := by
  have hupdate : ∀ pid (p : Option Process), pid ≠ q →
      Function.update w.procs pid p q = w.procs q :=
    fun pid p hne => Function.update_of_ne (Ne.symm hne) _ _
  cases i with
  | create parsed report id client path now => simp only [step]; split <;> rfl
  | cancel id client now => rfl
  | retry id client now => rfl
  | start pid config now =>
      have hne : pid ≠ q := fun hq => h (congrArg some hq)
      simp only [step]
      split
      · rfl
      · exact hupdate pid _ hne
  | bind pid =>
      have hne : pid ≠ q := fun hq => h (congrArg some hq)
      simp only [step]
      split
      · rfl
      · split
        · rfl
        · split <;> exact hupdate pid _ hne
  | shutdown pid =>
      have hne : pid ≠ q := fun hq => h (congrArg some hq)
      simp only [step]
      split
      · rfl
      · exact hupdate pid _ hne
  | crash pid => exact hupdate pid _ fun hq => h (congrArg some hq)
  | worker pid input =>
      have hne : pid ≠ q := fun hq => h (congrArg some hq)
      simp only [step]
      split
      · rfl
      · split
        · rfl
        · exact hupdate pid _ hne

/-- A process that does not run does not run until it is started. -/
theorem procs_step_of_none (sha256Hex : List UInt8 → String) {w : World} {i : Input} {q : Nat}
    (hq : w.procs q = none) (h : ∀ config now, i ≠ .start q config now) :
    (step sha256Hex w i).1.procs q = none := by
  -- only a turn of `q` itself could matter, and without a process it does nothing
  by_cases hi : i.pid? = some q
  · cases i with
    | create | cancel | retry => cases hi
    | start pid config now =>
        obtain rfl : pid = q := Option.some.inj hi
        exact absurd rfl (h config now)
    | bind pid =>
        obtain rfl : pid = q := Option.some.inj hi
        simp only [step, hq]
    | shutdown pid =>
        obtain rfl : pid = q := Option.some.inj hi
        simp only [step, hq]
    | crash pid =>
        obtain rfl : pid = q := Option.some.inj hi
        exact Function.update_self ..
    | worker pid input =>
        obtain rfl : pid = q := Option.some.inj hi
        simp only [step, hq]
  · rw [procs_step_of_ne sha256Hex w hi, hq]

/-! ## An example data directory -/

/-- The SHA-256 digest of the example printer's name. -/
def exampleDigest (bytes : List UInt8) : String :=
  if bytes = Text.utf8 "Office" then
    "9e380d9991e6b74209424e3476f284b459effef9b0ccf6d9f3f8acdbde004c9d"
  else ""

def exampleDevices : Option (List PrinterDevice) := some [⟨"Office", false⟩]

/-- Client `c1` sends job `j1` to the printer `Office`. -/
def exampleCreate (copies : Nat) : Input :=
  .create ⟨[], "application/pdf", .print, printerId exampleDigest "Office", copies⟩ ⟨9, 1, "d1"⟩
    "j1" "c1" "C:\\PrintLatch\\jobs\\j1.pdf" 1

/-- One turn of the worker of process `pid`, where the spooler answers as
    `answers` says. -/
def exampleTurn (pid : Nat) (answers : List Bool) (now : Int) : List Input :=
  [.worker pid (.claim now 0), .worker pid (.submit exampleDevices)] ++
    answers.map (fun taken => .worker pid (.print taken)) ++ [.worker pid (.finish now)]

end PrintLatch.Queue
