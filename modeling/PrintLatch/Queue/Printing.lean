/-
  PrintLatch.Queue.Printing

  What the state `printing` says of a job while one agent runs.

  `SoloAgent` is what holds in every run of one agent after its start: nobody
  else is alive, and the job the worker holds is `printing`.  The converse, that
  a job is `printing` only while the worker holds it, is kept by every step but
  one: a `finish_job` that fails is logged, and the worker goes on
  (`printingHeld_step`).
-/

import PrintLatch.Queue.Ownership

namespace PrintLatch.Queue

open Reactive

/-- At most one job is printing, and the worker of `pid` holds it: it is between
    the claim of that job and the end of its finish handling. -/
def PrintingHeld (pid : Nat) (w : World) : Prop :=
  (w.db.jobs.rows.countP fun r => r.state = .printing) ≤ 1 ∧
  ∀ r ∈ w.db.jobs.rows, r.state = .printing → ∃ job, w.held? pid = some job ∧ job.id = r.id

/-- The next step is a `finish_job` of `pid`'s worker that fails. -/
def losesOutcome (pid : Nat) (w : World) (i : Input) : Prop :=
  i = .worker pid .finishFails ∧ ∃ job result, w.worker? pid = some (.finishing job result)

/-- The input neither starts nor ends an agent. -/
def Input.steady : Input → Bool
  | .start .. | .shutdown _ | .crash _ => false
  | .create .. | .cancel .. | .retry .. | .bind _ | .worker .. => true

/-! ## Steps that move no worker -/

/-- A statement that touches one row, which is `printing` neither before nor
    after, changes no printing job. -/
theorem printing_iff_of_update {db db' : Database} {id : String} {r₁ : JobRow}
    (hall : ∀ id', db'.job? id' = if id' = id then some r₁ else db.job? id')
    (hnew : r₁.state ≠ .printing) (hold : ∀ r, db.job? id = some r → r.state ≠ .printing)
    {j : String} {r : JobRow} (hr : r.state = .printing) :
    db'.job? j = some r ↔ db.job? j = some r := by
  rw [hall]
  by_cases hj : j = id
  · subst hj
    rw [if_pos rfl]
    constructor
    · intro h
      obtain rfl : r₁ = r := Option.some.inj h
      exact absurd hr hnew
    · intro h
      exact absurd hr (hold r h)
  · rw [if_neg hj]

/-- A request or a bind changes no printing job and no worker. -/
theorem steady_step (sha256Hex : List UInt8 → String) (w : World) {i : Input}
    (hi : i.steady = true) (hw : ∀ pid input, i ≠ .worker pid input) :
    (∀ j r, r.state = .printing →
      ((step sha256Hex w i).1.db.job? j = some r ↔ w.db.job? j = some r)) ∧
    ∀ pid, (step sha256Hex w i).1.worker? pid = w.worker? pid := by
  cases i with
  | create parsed report id client path now =>
      simp only [step]
      cases hins : w.db.insertJob (newJob parsed report id client path) now with
      | error e => exact ⟨fun j r _ => Iff.rfl, fun pid => rfl⟩
      | ok db =>
          obtain ⟨hfree, -, hall⟩ := Database.insertJob_ok hins
          refine ⟨fun j r hr => printing_iff_of_update hall ?_ ?_ hr, fun pid => rfl⟩
          · cases hm : parsed.mode <;> simp [newJob, NewJob.row, hm]
          · intro r₀ hr₀
            rw [hfree] at hr₀
            cases hr₀
  | cancel id client now =>
      refine ⟨fun j r hr => ?_, fun pid => rfl⟩
      simp only [step]
      rcases w.db.cancelJob_cases id client now with heq | ⟨r₀, hr₀, -, hq, -, hall⟩
      · rw [heq]
      · refine printing_iff_of_update hall (by simp) (fun r₁ hr₁ => ?_) hr
        obtain rfl : r₀ = r₁ := Option.some.inj (hr₀.symm.trans hr₁)
        simp [hq]
  | retry id client now =>
      refine ⟨fun j r hr => ?_, fun pid => rfl⟩
      simp only [step]
      rcases w.db.retryJob_cases id client now with heq | ⟨r₀, hr₀, -, hs, -, -, hall⟩
      · rw [heq]
      · refine printing_iff_of_update hall (by simp) (fun r₁ hr₁ => ?_) hr
        obtain rfl : r₀ = r₁ := Option.some.inj (hr₀.symm.trans hr₁)
        rcases hs with hs | hs <;> simp [hs]
  | bind q =>
      simp only [step]
      cases hp : w.procs q with
      | none => exact ⟨fun j r _ => Iff.rfl, fun pid => rfl⟩
      | some p =>
          dsimp only
          split
          · exact ⟨fun j r _ => Iff.rfl, fun pid => rfl⟩
          · cases w.ports p.config.port with
            | some other =>
                exact ⟨fun j r _ => Iff.rfl,
                  worker?_update_same hp { p with stopping := true } rfl _⟩
            | none =>
                exact ⟨fun j r _ => Iff.rfl,
                  worker?_update_same hp { p with listening := true } rfl _⟩
  | worker pid input => exact absurd rfl (hw pid input)
  | start | shutdown | crash => cases hi

/-! ## The run of one agent -/

/-- What holds while `pid` is the only agent: the job its worker holds is
    printing. -/
structure SoloAgent (pid : Nat) (w : World) : Prop where
  others : ∀ q, q ≠ pid → w.procs q = none
  running : ∃ p, w.procs pid = some p ∧ p.stopping = false ∧
    (p.listening = true ∨ ∀ port, w.ports port = none)
  printing : ∀ job, w.held? pid = some job →
    ∃ r, w.db.job? job.id = some r ∧ r.state = .printing

theorem SoloAgent.eq_of_proc {pid q : Nat} {w : World} {p : Process} (h : SoloAgent pid w)
    (hp : w.procs q = some p) : q = pid := by
  by_contra hne
  rw [h.others q hne] at hp
  cases hp

/-- The world after the start of the only agent: recovery has left no job in
    `printing`. -/
theorem soloAgent_started (sha256Hex : List UInt8 → String) (db : Database) (pid : Nat)
    (config : AppConfig) (now : Int) :
    SoloAgent pid (step sha256Hex (World.ofDatabase db) (.start pid config now)).1 ∧
    PrintingHeld pid (step sha256Hex (World.ofDatabase db) (.start pid config now)).1 := by
  have hnone : ∀ r ∈ (db.recoverInterruptedJobs now).1.jobs.rows, r.state ≠ .printing := by
    intro r hr hp
    have hrow := Database.job?_of_mem hr
    rw [Database.job?_recoverInterruptedJobs, Option.map_eq_some_iff] at hrow
    obtain ⟨r₀, -, heq⟩ := hrow
    split at heq
    · subst heq
      simp at hp
    · next hs => exact hs (heq ▸ hp)
  refine ⟨⟨fun q hne => ?_, ⟨_, Function.update_self .., rfl, Or.inr fun _ => rfl⟩, ?_⟩, ?_, ?_⟩
  · simp [step, World.ofDatabase, hne]
  · intro job hjob
    simp [step, World.ofDatabase, World.held?, World.worker?, Worker.job?] at hjob
  · have hcount : ((db.recoverInterruptedJobs now).1.jobs.rows.countP
        fun r => r.state = .printing) = 0 := by
      rw [List.countP_eq_zero]
      intro r hr
      simpa using hnone r hr
    exact hcount.le.trans (Nat.zero_le 1)
  · intro r hr hp
    exact absurd hp (hnone r hr)

theorem SoloAgent.running_step (sha256Hex : List UInt8 → String) {pid : Nat} {w : World}
    {i : Input} (hi : i.steady = true) (h : SoloAgent pid w) :
    ∃ p, (step sha256Hex w i).1.procs pid = some p ∧ p.stopping = false ∧
      (p.listening = true ∨ ∀ port, (step sha256Hex w i).1.ports port = none) := by
  obtain ⟨p, hp, hgo, hports⟩ := h.running
  cases i with
  | create parsed report id client path now =>
      simp only [step]
      split <;> exact ⟨p, hp, hgo, hports⟩
  | cancel id client now => exact ⟨p, hp, hgo, hports⟩
  | retry id client now => exact ⟨p, hp, hgo, hports⟩
  | bind q =>
      by_cases hq : q = pid
      · subst hq
        simp only [step, hp]
        split
        · exact ⟨p, hp, hgo, hports⟩
        · next hnew =>
            -- no other agent can hold the port, so the bind cannot fail
            have hfree : w.ports p.config.port = none :=
              (hports.resolve_left fun hl => hnew (Or.inl hl)) _
            rw [hfree]
            exact ⟨_, Function.update_self .., hgo, Or.inl rfl⟩
      · simp only [step, h.others q hq]
        exact ⟨p, hp, hgo, hports⟩
  | worker q input =>
      by_cases hq : q = pid
      · subst hq
        simp only [step, hp]
        split
        · exact ⟨p, hp, hgo, hports⟩
        · exact ⟨_, Function.update_self .., hgo, hports⟩
      · simp only [step, h.others q hq]
        exact ⟨p, hp, hgo, hports⟩
  | start | shutdown | crash => cases hi

/-- A worker's move keeps the job it holds in `printing`. -/
theorem heldPrinting_worker {sha256Hex : List UInt8 → String} {config : AppConfig} {pid : Nat}
    {db db' : Database} {worker worker' : Worker} {input : WorkerInput} {obs : List Obs}
    (move : WorkerMove sha256Hex config pid db worker input db' worker' obs)
    (h : ∀ job, worker.job? = some job → ∃ r, db.job? job.id = some r ∧ r.state = .printing) :
    ∀ job, worker'.job? = some job → ∃ r, db'.job? job.id = some r ∧ r.state = .printing := by
  intro job hjob
  cases move with
  | claim now tie r db' next row queued oldest after =>
      obtain rfl : r.claim now = job := Option.some.inj hjob
      exact ⟨r.claim now, by rw [after, JobRow.claim_id, if_pos rfl], rfl⟩
  | submit job' devices => exact h job (by rwa [job?_afterSubmit] at hjob)
  | cancel job' => exact h job hjob
  | accept job' printer accepted => exact h job (by rwa [job?_afterSubmit] at hjob)
  | quiet worker worker' input same started ended => exact h job (same ▸ hjob)
  | empty | record | miss | lose => cases hjob

/-- A worker's move leaves no job in `printing` that the worker does not hold,
    unless it loses an outcome. -/
theorem printingHeld_worker {sha256Hex : List UInt8 → String} {config : AppConfig} {pid : Nat}
    {db db' : Database} {worker worker' : Worker} {input : WorkerInput} {obs : List Obs}
    (move : WorkerMove sha256Hex config pid db worker input db' worker' obs)
    (hkept : ∀ job result, worker = .finishing job result → input ≠ .finishFails)
    (hheld : ∀ job, worker.job? = some job → ∃ r, db.job? job.id = some r ∧ r.state = .printing)
    (h : ∀ j r, db.job? j = some r → r.state = .printing →
      ∃ job, worker.job? = some job ∧ job.id = j) :
    ∀ j r, db'.job? j = some r → r.state = .printing →
      ∃ job, worker'.job? = some job ∧ job.id = j := by
  intro j r hr hp
  cases move with
  | claim now tie r₀ db' next row queued oldest after =>
      rw [after] at hr
      split at hr
      · next hj => exact ⟨_, rfl, hj.symm⟩
      · obtain ⟨job, hjob, -⟩ := h j r hr hp
        cases hjob
  | empty now tie none =>
      obtain ⟨job, hjob, -⟩ := h j r hr hp
      cases hjob
  | submit job devices =>
      rw [job?_afterSubmit]
      exact h j r hr hp
  | cancel job => exact h j r hr hp
  | accept job printer accepted =>
      rw [job?_afterSubmit]
      exact h j r hr hp
  -- the recorded job is not printing any more, and no other was
  | record job result now r₀ db' row printing after =>
      rw [after] at hr
      split at hr
      · obtain rfl : r₀.finish result.outcome.1 result.outcome.2 now = r := Option.some.inj hr
        rw [JobRow.finish_state] at hp
        rcases outcome_state result with hs | hs <;> simp [hs] at hp
      · next hne =>
          obtain ⟨job', hjob', rfl⟩ := h j r hr hp
          obtain rfl : job = job' := Option.some.inj hjob'
          exact absurd rfl hne
  -- the held job is printing, so its `finish_job` cannot miss
  | miss job result now other =>
      obtain ⟨r₀, hr₀, hp₀⟩ := hheld job rfl
      exact absurd hp₀ (other r₀ hr₀)
  -- the one move that leaves a printing job behind
  | lose job result => exact absurd rfl (hkept job result rfl)
  | quiet worker worker' input same started ended =>
      rw [same]
      exact h j r hr hp

theorem soloAgent_step (sha256Hex : List UInt8 → String) {pid : Nat} {w : World} {i : Input}
    (hi : i.steady = true) (h : SoloAgent pid w) : SoloAgent pid (step sha256Hex w i).1 := by
  refine ⟨fun q hne => ?_, h.running_step sha256Hex hi, ?_⟩
  · exact procs_step_of_none sha256Hex (h.others q hne) fun config now hs => by
      subst hs
      cases hi
  have hmove := move_of_step sha256Hex w i
  have hsteady := steady_step sha256Hex w hi
  generalize (step sha256Hex w i).1 = w' at hmove hsteady ⊢
  generalize (step sha256Hex w i).2 = obs at hmove
  cases hmove with
  | worker q p input db' worker' obs proc running move =>
      obtain rfl : q = pid := h.eq_of_proc proc
      have hold := worker?_of_proc proc
      have hprinting := h.printing
      unfold World.held? at hprinting ⊢
      rw [hold] at hprinting
      rw [worker?_update, if_pos rfl]
      exact heldPrinting_worker move hprinting
  | idle i => exact h.printing
  | other i w' obs turn workers outside =>
      obtain ⟨hrows, hworkers⟩ := hsteady turn
      intro job hjob
      rw [World.held?, hworkers] at hjob
      obtain ⟨r, hr, hp⟩ := h.printing job hjob
      exact ⟨r, (hrows _ r hp).mpr hr, hp⟩

/-- At most one row is printing, when every printing row is the held one. -/
theorem printingHeld_of_rows {pid : Nat} {w : World}
    (h : ∀ j r, w.db.job? j = some r → r.state = .printing →
      ∃ job, w.held? pid = some job ∧ job.id = j) : PrintingHeld pid w := by
  have hrows : ∀ r ∈ w.db.jobs.rows, r.state = .printing →
      ∃ job, w.held? pid = some job ∧ job.id = r.id :=
    fun r hr => h r.id r (Database.job?_of_mem hr)
  refine ⟨?_, hrows⟩
  cases hheld : w.held? pid with
  | none =>
      have hcount : (w.db.jobs.rows.countP fun r => r.state = .printing) = 0 := by
        rw [List.countP_eq_zero]
        intro r hr hp
        obtain ⟨job, hjob, -⟩ := hrows r hr (by simpa using hp)
        rw [hheld] at hjob
        cases hjob
      exact hcount.le.trans (Nat.zero_le 1)
  | some job =>
      have hid : ∀ r ∈ w.db.jobs.rows, r.state = .printing → r.id = job.id := by
        intro r hr hp
        obtain ⟨job', hjob', hid⟩ := hrows r hr hp
        rw [hheld] at hjob'
        exact hid ▸ congrArg (·.id) (Option.some.inj hjob').symm
      -- the printing rows are among the rows with the held id
      have hcount : (w.db.jobs.rows.countP fun r => r.state = .printing) ≤
          w.db.jobs.rows.countP fun r => r.id = job.id :=
        List.countP_mono_left fun r hr hp => by simpa using hid r hr (by simpa using hp)
      refine hcount.trans ?_
      rw [Relational.Table.countP_eq_of_key (fun r : JobRow => r.id) (fun _ _ h => h)
        w.db.jobs (k := job.id) (by simp)]
      split <;> omega

theorem printingHeld_step (sha256Hex : List UInt8 → String) {pid : Nat} {w : World} {i : Input}
    (hi : i.steady = true) (hkept : ¬ losesOutcome pid w i) (hsolo : SoloAgent pid w)
    (h : PrintingHeld pid w) : PrintingHeld pid (step sha256Hex w i).1 := by
  have hrows : ∀ j r, w.db.job? j = some r → r.state = .printing →
      ∃ job, w.held? pid = some job ∧ job.id = j := fun j r hr hp => by
    obtain ⟨job, hjob, hid⟩ := h.2 r (Database.mem_of_job? hr) hp
    exact ⟨job, hjob, hid.trans (Database.id_of_job? hr)⟩
  refine printingHeld_of_rows ?_
  have hmove := move_of_step sha256Hex w i
  have hsteady := steady_step sha256Hex w hi
  generalize (step sha256Hex w i).1 = w' at hmove hsteady ⊢
  generalize (step sha256Hex w i).2 = obs at hmove
  cases hmove with
  | worker q p input db' worker' obs proc running move =>
      obtain rfl : q = pid := hsolo.eq_of_proc proc
      have hold := worker?_of_proc proc
      have hprinting := hsolo.printing
      unfold World.held? at hprinting hrows ⊢
      rw [hold] at hprinting hrows
      rw [worker?_update, if_pos rfl]
      -- a failing `finish_job` is excluded by `hkept`
      refine printingHeld_worker move (fun job result heq hinput => hkept ?_) hprinting hrows
      exact ⟨by rw [hinput], job, result, by rw [hold, heq]⟩
  | idle i => exact hrows
  | other i w' obs turn workers outside =>
      obtain ⟨hsame, hworkers⟩ := hsteady turn
      intro j r hr hp
      rw [World.held?, hworkers]
      exact hrows j r ((hsame j r hp).mp hr) hp

theorem soloAgent_run (sha256Hex : List UInt8 → String) (db : Database) (pid : Nat)
    (config : AppConfig) (now : Int) {is : List Input} (his : ∀ i ∈ is, i.steady = true) :
    SoloAgent pid (run (step sha256Hex)
      (step sha256Hex (World.ofDatabase db) (.start pid config now)).1 is) :=
  run_history_invariant (fun _ w => SoloAgent pid w)
    (soloAgent_started sha256Hex db pid config now).1
    (fun _ _ _ hi h => soloAgent_step sha256Hex hi h) (along_input_iff.mpr his)

/-- **`printing` means being printed**, exactly as long as no `finish_job` of the
    agent's worker fails. -/
theorem printing_iff_held (sha256Hex : List UInt8 → String) (db : Database) (pid : Nat)
    (config : AppConfig) (now : Int) (is : List Input) (his : ∀ i ∈ is, i.steady = true) :
    (∀ pre, pre <+: is → PrintingHeld pid (run (step sha256Hex)
      (step sha256Hex (World.ofDatabase db) (.start pid config now)).1 pre)) ↔
    Along (step sha256Hex) (fun _ w i => ¬ losesOutcome pid w i)
      (step sha256Hex (World.ofDatabase db) (.start pid config now)).1 is := by
  have hsolo : ∀ pre, pre <+: is → SoloAgent pid (run (step sha256Hex)
      (step sha256Hex (World.ofDatabase db) (.start pid config now)).1 pre) :=
    fun pre hpre => soloAgent_run sha256Hex db pid config now
      fun i hi => his i (hpre.subset hi)
  constructor
  · intro h pre i post heq hlose
    obtain ⟨rfl, job, result, hworker⟩ := hlose
    -- the job the worker was finishing is still printing, and nobody holds it
    have hpre : pre <+: is := ⟨.worker pid .finishFails :: post, heq.symm⟩
    have hnext : pre ++ [.worker pid .finishFails] <+: is := ⟨post, by simp [heq]⟩
    have hs := hsolo pre hpre
    have hafter := (h _ hnext).2
    rw [run_concat] at hafter
    generalize run (step sha256Hex) _ pre = w at hworker hs hafter
    obtain ⟨r, hr, hp⟩ := hs.printing job (by rw [World.held?, hworker]; rfl)
    obtain ⟨p, hproc, hgo, -⟩ := hs.running
    have hpw : p.worker = .finishing job result := by
      rw [World.worker?, hproc] at hworker
      exact Option.some.inj hworker
    have hstep : (step sha256Hex w (.worker pid .finishFails)).1.db = w.db ∧
        (step sha256Hex w (.worker pid .finishFails)).1.held? pid = none := by
      simp [step, hproc, hgo, hpw, workerStep, World.held?, worker?_update, Worker.job?]
    obtain ⟨job', hjob', -⟩ := hafter r (by rw [hstep.1]; exact Database.mem_of_job? hr) hp
    rw [hstep.2] at hjob'
    cases hjob'
  · intro h pre hpre
    have hguard : Along (step sha256Hex)
        (fun _ w i => i.steady = true ∧ ¬ losesOutcome pid w i)
        (step sha256Hex (World.ofDatabase db) (.start pid config now)).1 pre :=
      fun before i after heq =>
        ⟨his i (hpre.subset (by simp [heq])), h.of_prefix hpre before i after heq⟩
    have hinv := run_history_invariant (fun _ w => SoloAgent pid w ∧ PrintingHeld pid w)
      (soloAgent_started sha256Hex db pid config now)
      (fun _ _ _ hok hinv => ⟨soloAgent_step sha256Hex hok.1 hinv.1,
        printingHeld_step sha256Hex hok.1 hok.2 hinv.1 hinv.2⟩) hguard
    exact hinv.2

/-- The requests and the steps of a run that prints one job. -/
def exampleSteadyRun : List Input :=
  [.bind 0, exampleCreate 2] ++ exampleTurn 0 [true, true] 3

theorem printing_iff_held_of_exampleSteadyRun :
    PrintingHeld 0 (run (step exampleDigest)
      (step exampleDigest (World.ofDatabase exampleDatabase) (.start 0 exampleConfig 2)).1
      exampleSteadyRun) := by
  refine (printing_iff_held exampleDigest exampleDatabase 0 exampleConfig 2 exampleSteadyRun
    (by decide)).mpr ?_ _ (List.prefix_refl _)
  have hkept : ∀ i ∈ exampleSteadyRun, i ≠ .worker 0 .finishFails := by decide
  exact (along_input_iff.mpr hkept).mono fun tr w i hi hlose => hi hlose.1

/-- A run whose `finish_job` fails. -/
def exampleLostRun : List Input :=
  [.bind 0, exampleCreate 1, .worker 0 (.claim 3 0), .worker 0 (.submit exampleDevices),
    .worker 0 (.print true), .worker 0 .finishFails]

/-- A failed `finish_job` leaves a job in `printing` that nobody prints. -/
theorem printing_not_held :
    ¬ PrintingHeld 0 (run (step exampleDigest)
      (step exampleDigest (World.ofDatabase exampleDatabase) (.start 0 exampleConfig 2)).1
      exampleLostRun) := by
  intro h
  have hrow : ∃ r ∈ (run (step exampleDigest)
      (step exampleDigest (World.ofDatabase exampleDatabase) (.start 0 exampleConfig 2)).1
      exampleLostRun).db.jobs.rows, r.state = .printing := by decide
  have hfree : (run (step exampleDigest)
      (step exampleDigest (World.ofDatabase exampleDatabase) (.start 0 exampleConfig 2)).1
      exampleLostRun).held? 0 = none := by decide
  obtain ⟨r, hr, hp⟩ := hrow
  obtain ⟨job, hjob, -⟩ := h.2 r hr hp
  rw [hfree] at hjob
  cases hjob

end PrintLatch.Queue
