/-
  PrintLatch.Queue.SecondStart

  A second `printlatch serve` next to an agent that is already listening on its
  port.

  `serve` recovers interrupted jobs and spawns its worker before it binds the
  port, and the worker goes on while the runtime of the failed process shuts
  down, so that process has two effects on the shared database.  `startHarmless`
  is the condition under which both are void; under it the run with the second
  process and the run without it stay equal but for the second process itself
  (`World.hide`), and the first step that breaks it changes a job.
-/

import PrintLatch.Queue.Ownership

namespace PrintLatch.Queue

open Reactive

/-! ## Hiding a process -/

/-- The world as it looks when process `pid` is ignored. -/
def World.hide (w : World) (pid : Nat) : World :=
  { w with procs := Function.update w.procs pid none }

@[simp] theorem World.hide_db (w : World) (pid : Nat) : (w.hide pid).db = w.db := rfl

/-- A step of one process neither sees nor changes another process. -/
theorem step_hide (sha256Hex : List UInt8 → String) (w : World) {i : Input} {q : Nat}
    (h : i.pid? ≠ some q) :
    step sha256Hex (w.hide q) i = ((step sha256Hex w i).1.hide q, (step sha256Hex w i).2) := by
  have hsame : ∀ pid, pid ≠ q → (w.hide q).procs pid = w.procs pid :=
    fun pid hne => Function.update_of_ne hne _ _
  have hcomm : ∀ pid (p : Option Process), pid ≠ q →
      Function.update (Function.update w.procs q none) pid p =
        Function.update (Function.update w.procs pid p) q none :=
    fun pid p hne => Function.update_comm (Ne.symm hne) _ _ _
  cases i with
  | create parsed report id client path now =>
      simp only [step, World.hide]
      split <;> rfl
  | cancel id client now => rfl
  | retry id client now => rfl
  | start pid config now =>
      have hne : pid ≠ q := fun hq => h (congrArg some hq)
      simp only [step, hsame pid hne]
      split
      · rfl
      · simp only [World.hide, hcomm pid _ hne]
  | bind pid =>
      have hne : pid ≠ q := fun hq => h (congrArg some hq)
      simp only [step, hsame pid hne]
      split
      · rfl
      · split
        · rfl
        · simp only [World.hide]
          split <;> simp only [hcomm pid _ hne]
  | shutdown pid =>
      have hne : pid ≠ q := fun hq => h (congrArg some hq)
      simp only [step, hsame pid hne]
      split
      · rfl
      · simp only [World.hide, hcomm pid _ hne]
  | crash pid =>
      have hne : pid ≠ q := fun hq => h (congrArg some hq)
      simp only [step, World.hide, hcomm pid _ hne]
  | worker pid input =>
      have hne : pid ≠ q := fun hq => h (congrArg some hq)
      simp only [step, hsame pid hne]
      split
      · rfl
      · split
        · rfl
        · simp only [World.hide, hcomm pid _ hne]

/-! ## The second process -/

/-- `a` listens on `port`; `b` is not `a`, was started for the same port, does
    not listen, and its worker holds no job. -/
structure SecondStart (a b port : Nat) (w : World) : Prop where
  listening : w.ports port = some a
  ne : b ≠ a
  second : ∀ p, w.procs b = some p →
    p.config.port = port ∧ p.listening = false ∧ p.worker.job? = none
  unbound : ∀ q, w.ports q ≠ some b

/-- What may happen: everything but the end of `a` and a start of `b` for
    another port. -/
def secondStartInput (a b port : Nat) : Input → Prop
  | .start pid config _ => pid = b → config.port = port
  | .shutdown pid => pid ≠ a
  | .crash pid => pid ≠ a
  | _ => True

/-- When `b` recovers, no job is printing; when its worker claims, before the bind
    fails or after it, none is queued. -/
def startHarmless (b : Nat) (w : World) : Input → Prop
  | .start pid _ _ => pid = b → w.procs b = none → ∀ r ∈ w.db.jobs.rows, r.state ≠ .printing
  | .worker pid (.claim _ _) => pid = b → ∀ p, w.procs b = some p → p.worker = .ready →
      ∀ r ∈ w.db.jobs.rows, r.state ≠ .queued
  | _ => True

/-- What the claim of an undisturbed queue compares. -/
def jobView (db : Database) (j : String) : Option (JobState × Nat × Option String) :=
  (db.job? j).map fun r => (r.state, r.attempts, r.detail)

/-- The inputs that are not the second process's. -/
def Input.notOf (b : Nat) (i : Input) : Bool := i.pid? ≠ some b

theorem releasePorts_eq_some {ports : Nat → Option Nat} {pid port q : Nat} :
    releasePorts ports pid port = some q ↔ ports port = some q ∧ q ≠ pid := by
  unfold releasePorts
  split
  · next h => simp [h, eq_comm]
  · next h =>
      constructor
      · intro hq
        exact ⟨hq, fun hpid => h (hpid ▸ hq)⟩
      · exact fun hq => hq.1

theorem releasePorts_of_unbound {ports : Nat → Option Nat} {pid : Nat}
    (h : ∀ port, ports port ≠ some pid) : releasePorts ports pid = ports := by
  funext port
  simp [releasePorts, h port]

/-- Other turns keep the second process where it is. -/
theorem secondStart_step_of_ne (sha256Hex : List UInt8 → String) {a b port : Nat} {w : World}
    {i : Input} (h : SecondStart a b port w) (hi : secondStartInput a b port i)
    (hturn : i.pid? ≠ some b) : SecondStart a b port (step sha256Hex w i).1 := by
  have hsecond := h.second
  rw [← procs_step_of_ne sha256Hex w hturn] at hsecond
  have hports : (step sha256Hex w i).1.ports port = some a ∧
      ∀ q, (step sha256Hex w i).1.ports q ≠ some b := by
    cases i with
    | create parsed report id client path now =>
        simp only [step]
        split <;> exact ⟨h.listening, h.unbound⟩
    | cancel id client now => exact ⟨h.listening, h.unbound⟩
    | retry id client now => exact ⟨h.listening, h.unbound⟩
    | start pid config now =>
        simp only [step]
        split <;> exact ⟨h.listening, h.unbound⟩
    | bind pid =>
        have hne : pid ≠ b := fun hq => hturn (congrArg some hq)
        simp only [step]
        split
        · exact ⟨h.listening, h.unbound⟩
        · next p hp =>
            split
            · exact ⟨h.listening, h.unbound⟩
            · split
              · exact ⟨h.listening, h.unbound⟩
              · next hfree =>
                  -- the port that is bound now is not the one `a` listens on
                  have hport : port ≠ p.config.port := by
                    rintro rfl
                    rw [h.listening] at hfree
                    cases hfree
                  dsimp only
                  refine ⟨by rw [Function.update_of_ne hport, h.listening], fun q => ?_⟩
                  by_cases hq : q = p.config.port
                  · subst hq
                    simpa using hne
                  · rw [Function.update_of_ne hq]
                    exact h.unbound q
    | shutdown pid =>
        simp only [step]
        split
        · exact ⟨h.listening, h.unbound⟩
        · exact ⟨releasePorts_eq_some.mpr ⟨h.listening, Ne.symm hi⟩,
            fun q hq => h.unbound q (releasePorts_eq_some.mp hq).1⟩
    | crash pid =>
        exact ⟨releasePorts_eq_some.mpr ⟨h.listening, Ne.symm hi⟩,
          fun q hq => h.unbound q (releasePorts_eq_some.mp hq).1⟩
    | worker pid input =>
        simp only [step]
        split
        · exact ⟨h.listening, h.unbound⟩
        · split <;> exact ⟨h.listening, h.unbound⟩
  exact ⟨hports.1, h.ne, hsecond, hports.2⟩

/-- A worker that holds no job and finds no queued one changes nothing. -/
theorem idle_worker {sha256Hex : List UInt8 → String} {config : AppConfig} {pid : Nat}
    {db db' : Database} {worker worker' : Worker} {input : WorkerInput} {obs : List Obs}
    (move : WorkerMove sha256Hex config pid db worker input db' worker' obs)
    (hjob : worker.job? = none)
    (hclaim : ∀ now tie, input = .claim now tie → worker = .ready →
      ∀ r ∈ db.jobs.rows, r.state ≠ .queued) :
    db' = db ∧ worker'.job? = none := by
  cases move with
  | claim now tie r db' next row queued oldest after =>
      exact absurd queued (hclaim now tie rfl rfl r (Database.mem_of_job? row))
  | empty now tie none => exact ⟨rfl, rfl⟩
  | quiet worker worker' input same started ended => exact ⟨rfl, same.trans hjob⟩
  | submit | cancel | accept | record | miss | lose => cases hjob

/-- A harmless turn of the second process changes nothing but that process. -/
theorem second_step (sha256Hex : List UInt8 → String) {a b port : Nat} {w : World} {i : Input}
    (h : SecondStart a b port w) (hi : secondStartInput a b port i) (hturn : i.pid? = some b)
    (hok : startHarmless b w i) :
    (step sha256Hex w i).1.hide b = w.hide b ∧ SecondStart a b port (step sha256Hex w i).1 := by
  have hupdate : ∀ p : Process, p.config.port = port → p.listening = false →
      p.worker.job? = none →
      SecondStart a b port { w with procs := Function.update w.procs b (some p) } := by
    intro p hport hl hjob
    refine ⟨h.listening, h.ne, fun p' hp' => ?_, h.unbound⟩
    obtain rfl : p = p' := by simpa using hp'
    exact ⟨hport, hl, hjob⟩
  have hhide : ∀ p : Option Process,
      ({ w with procs := Function.update w.procs b p } : World).hide b = w.hide b := by
    intro p
    simp [World.hide]
  have hfree : releasePorts w.ports b = w.ports := releasePorts_of_unbound h.unbound
  cases i with
  | create | cancel | retry => cases hturn
  | start pid config now =>
      obtain rfl : pid = b := Option.some.inj hturn
      cases hp : w.procs pid with
      | some p =>
          simp only [step, hp]
          exact ⟨trivial, h⟩
      | none =>
          -- recovery finds nothing to recover
          have hdb := Database.recoverInterruptedJobs_eq_self (hok rfl hp) now
          simp only [step, hp, hdb]
          exact ⟨hhide _, hupdate _ (hi rfl) rfl rfl⟩
  | bind pid =>
      obtain rfl : pid = b := Option.some.inj hturn
      cases hp : w.procs pid with
      | none =>
          simp only [step, hp]
          exact ⟨trivial, h⟩
      | some p =>
          obtain ⟨hport, hl, hjob⟩ := h.second p hp
          -- `a` has the port, so the bind fails
          simp only [step, hp, hport, h.listening]
          split
          · exact ⟨rfl, h⟩
          · exact ⟨hhide _, hupdate _ hport hl hjob⟩
  | shutdown pid =>
      obtain rfl : pid = b := Option.some.inj hturn
      cases hp : w.procs pid with
      | none =>
          simp only [step, hp]
          exact ⟨trivial, h⟩
      | some p =>
          obtain ⟨hport, hl, hjob⟩ := h.second p hp
          simp only [step, hp, hfree]
          exact ⟨hhide _, hupdate _ hport rfl hjob⟩
  | crash pid =>
      obtain rfl : pid = b := Option.some.inj hturn
      simp only [step, hfree]
      refine ⟨hhide _, h.listening, h.ne, fun p hp => ?_, h.unbound⟩
      simp at hp
  | worker pid input =>
      obtain rfl : pid = b := Option.some.inj hturn
      cases hp : w.procs pid with
      | none =>
          simp only [step, hp]
          exact ⟨trivial, h⟩
      | some p =>
          obtain ⟨hport, hl, hjob⟩ := h.second p hp
          simp only [step, hp]
          split
          · exact ⟨rfl, h⟩
          · have hclaim : ∀ now tie, input = .claim now tie → p.worker = .ready →
                ∀ r ∈ w.db.jobs.rows, r.state ≠ .queued := by
              rintro now tie rfl hready
              exact hok rfl p hp hready
            -- the worker finds an empty queue
            obtain ⟨hdb, hidle⟩ := idle_worker
              (workerMove_of_step sha256Hex p.config pid w.db p.worker input) hjob hclaim
            rw [hdb]
            exact ⟨hhide _, hupdate _ hport hl hidle⟩

/-! ## Two runs -/

/-- In a harmless run the second process makes no difference to the rest of the
    world. -/
theorem run_hide_of_harmless (sha256Hex : List UInt8 → String) {a b port : Nat} {w : World}
    {is : List Input} (h : SecondStart a b port w) (his : ∀ i ∈ is, secondStartInput a b port i)
    (hok : Along (step sha256Hex) (fun _ w i => startHarmless b w i) w is) :
    SecondStart a b port (run (step sha256Hex) w is) ∧
    (run (step sha256Hex) w is).hide b =
      (run (step sha256Hex) w (is.filter (·.notOf b))).hide b := by
  have hguard : Along (step sha256Hex)
      (fun _ w i => secondStartInput a b port i ∧ startHarmless b w i) w is :=
    fun pre i post heq => ⟨his i (by simp [heq]), hok pre i post heq⟩
  -- the runs are compared with the second process hidden in both
  refine run_erase_inputs (R := fun s t => SecondStart a b port s ∧ s.hide b = t.hide b)
    (fun s t i hR hi hkeep => ?_) (fun s t i hR hi hskip => ?_) ⟨h, rfl⟩ hguard
  · have hturn : i.pid? ≠ some b := by simpa [Input.notOf] using hkeep
    refine ⟨secondStart_step_of_ne sha256Hex hR.1 hi.1 hturn, ?_⟩
    have hs := congrArg Prod.fst (step_hide sha256Hex s hturn)
    have ht := congrArg Prod.fst (step_hide sha256Hex t hturn)
    rw [hR.2] at hs
    exact hs.symm.trans ht
  · have hturn : i.pid? = some b := by simpa [Input.notOf] using hskip
    obtain ⟨hhide, hsecond⟩ := second_step sha256Hex hR.1 hi.1 hturn hi.2
    exact ⟨hsecond, hhide.trans hR.2⟩

/-- A turn that is not harmless changes the view of some job. -/
theorem exists_jobView_ne (sha256Hex : List UInt8 → String) {b : Nat} {w : World} {i : Input}
    (hbad : ¬ startHarmless b w i) :
    i.pid? = some b ∧ ∃ j, jobView (step sha256Hex w i).1.db j ≠ jobView w.db j := by
  cases i with
  | start pid config now =>
      simp only [startHarmless, not_forall, not_not] at hbad
      obtain ⟨rfl, hp, r, hr, hprinting⟩ := hbad
      refine ⟨rfl, r.id, ?_⟩
      simp only [step, hp, jobView, Database.job?_recoverInterruptedJobs,
        Database.job?_of_mem hr, Option.map_some, if_pos hprinting]
      simp [hprinting]
  | worker pid input =>
      cases input with
      | claim now tie =>
          simp only [startHarmless, not_forall, not_not] at hbad
          obtain ⟨rfl, p, hp, hready, r, hr, hqueued⟩ := hbad
          refine ⟨rfl, ?_⟩
          rcases w.db.claimNextJob_cases now tie with ⟨-, hno⟩ | ⟨q, -, hq, hqs, -, hsnd, hall⟩
          · exact absurd hqueued (hno r hr)
          · have heq : w.db.claimNextJob now tie =
                ((w.db.claimNextJob now tie).1, some (q.claim now)) := by rw [← hsnd]
            refine ⟨q.id, ?_⟩
            simp only [step, hp, hready, workerStep]
            rw [heq]
            simp [jobView, hall, hq, hqs]
      | _ => exact absurd trivial hbad
  | _ => exact absurd trivial hbad

/-- **A failed start leaves the running agent's queue alone**, exactly when no job
    is printing at its recovery and its worker finds nothing queued. -/
theorem failed_start_iff (sha256Hex : List UInt8 → String) (a b port : Nat) (w : World)
    (is : List Input) (h : SecondStart a b port w)
    (his : ∀ i ∈ is, secondStartInput a b port i) :
    (∀ pre, pre <+: is → ∀ j, jobView (run (step sha256Hex) w pre).db j =
      jobView (run (step sha256Hex) w (pre.filter (·.notOf b))).db j) ↔
    Along (step sha256Hex) (fun _ w i => startHarmless b w i) w is := by
  constructor
  · intro hview
    -- the first harmful step shows in the prefix that ends with it
    induction is using List.reverseRecOn with
    | nil => exact along_nil
    | append_singleton is i ih =>
        have hold := ih (fun i' hi' => his i' (by simp [hi']))
          fun pre hpre => hview pre (hpre.trans (List.prefix_append _ _))
        refine along_concat.mpr ⟨hold, ?_⟩
        by_contra hbad
        obtain ⟨-, hhide⟩ := run_hide_of_harmless sha256Hex h
          (fun i' hi' => his i' (by simp [hi'])) hold
        obtain ⟨hturn, j, hj⟩ := exists_jobView_ne sha256Hex hbad
        -- without the second process nothing happens in this step
        have hfilter : (is ++ [i]).filter (·.notOf b) = is.filter (·.notOf b) := by
          simp [List.filter_append, Input.notOf, hturn]
        have hdb := congrArg World.db hhide
        simp only [World.hide_db] at hdb
        have hlast := hview _ (List.prefix_refl _) j
        rw [run_concat, hfilter, ← hdb] at hlast
        exact hj hlast
  · intro hok pre hpre j
    have hhide := (run_hide_of_harmless sha256Hex h (fun i hi => his i (hpre.subset hi))
      (hok.of_prefix hpre)).2
    have hdb := congrArg World.db hhide
    simp only [World.hide_db] at hdb
    rw [hdb]

/-- An agent that listens, with an empty queue. -/
def exampleListening : World :=
  run (step exampleDigest) (World.noJobs exampleDatabase) [.start 0 exampleConfig 2, .bind 0]

/-- A second start that does not get the port. -/
def exampleSecondStart : List Input :=
  [.start 1 exampleConfig 4, .worker 1 (.claim 5 0), .bind 1]

theorem exampleListening_secondStart : SecondStart 0 1 17890 exampleListening where
  listening := by decide
  ne := by decide
  second p hp := by
    have hnone : exampleListening.procs 1 = none := by decide
    rw [hnone] at hp
    cases hp
  unbound q := by
    by_cases hq : q = 17890
    · subst hq
      decide
    · simp [exampleListening, step, World.noJobs, World.ofDatabase, exampleConfig,
        Function.update_of_ne hq]

theorem exampleSecondStart_input :
    ∀ i ∈ exampleSecondStart, secondStartInput 0 1 17890 i := by
  simp [exampleSecondStart, secondStartInput, exampleConfig]

theorem failed_start_iff_of_exampleListening :
    jobView (run (step exampleDigest) exampleListening exampleSecondStart).db "j1" =
      jobView (run (step exampleDigest) exampleListening
        (exampleSecondStart.filter (·.notOf 1))).db "j1" := by
  refine (failed_start_iff exampleDigest 0 1 17890 exampleListening exampleSecondStart
    exampleListening_secondStart exampleSecondStart_input).mpr ?_ _ (List.prefix_refl _) "j1"
  have hrows : ∀ r ∈ exampleListening.db.jobs.rows, r.state ≠ .printing ∧ r.state ≠ .queued := by
    decide
  have hstarted : ∀ r ∈ (step exampleDigest exampleListening
      (.start 1 exampleConfig 4)).1.db.jobs.rows, r.state ≠ .queued := by decide
  refine along_cons.mpr ⟨fun _ _ r hr => (hrows r hr).1, along_cons.mpr ⟨?_, along_cons.mpr ?_⟩⟩
  · exact fun _ _ _ _ r hr => hstarted r hr
  · exact ⟨trivial, along_nil⟩

/-- While the runtime of the second process shuts down, its worker fails a job that
    was queued. -/
example :
    let queued := (step exampleDigest exampleListening (exampleCreate 1)).1
    (jobView (run (step exampleDigest) queued [.start 1 exampleConfig 4, .bind 1,
        .worker 1 (.claim 5 0), .worker 1 .cancelled, .worker 1 (.finish 5)]).db "j1") =
      some (.failed, 1, some "Printer worker stopped unexpectedly") := by
  decide

/-- The same agent while it prints job `j1`. -/
def examplePrinting : World :=
  run (step exampleDigest) exampleListening [exampleCreate 1, .worker 0 (.claim 3 0)]

/-- The second start ends with the bind error, and the job that is being printed
    is `unknown`. -/
theorem failed_start_changes_job :
    ((run (step exampleDigest) examplePrinting exampleSecondStart).procs 1).map
        (fun p => (p.listening, p.stopping)) = some (false, true) ∧
    jobView (run (step exampleDigest) examplePrinting exampleSecondStart).db "j1" ≠
      jobView (run (step exampleDigest) examplePrinting
        (exampleSecondStart.filter (·.notOf 1))).db "j1" := by
  decide

end PrintLatch.Queue
