/-
  PrintLatch.Queue.Ownership

  Which claim a worker is working on, and whose outcome `finish_job` records.

  `finish_job` names the job and nothing else, so what it records is for the
  claim that made the job `printing`, whoever made it.  `Owns` says that every
  worker still holds the last claim of its job.  A claim of a job that another
  worker holds breaks it, every other step keeps it (`owns_step`).
-/

import PrintLatch.Queue.Accounting

namespace PrintLatch.Queue

open Reactive

/-! ## Held claims -/

/-- The row of the claim that the worker of `pid` is working on. -/
def World.held? (w : World) (pid : Nat) : Option JobRow := (w.worker? pid).bind (·.job?)

/-- What a step can do to the claim a worker holds: leave it, drop it, or take a
    queued job. -/
theorem held?_step (sha256Hex : List UInt8 → String) (w : World) (i : Input) (pid : Nat) :
    (step sha256Hex w i).1.held? pid = w.held? pid ∨
    (step sha256Hex w i).1.held? pid = none ∨
    ∃ now tie r, i = .worker pid (.claim now tie) ∧ w.worker? pid = some .ready ∧
      w.db.nextQueued tie = some r.id ∧ w.db.job? r.id = some r ∧
      (step sha256Hex w i).2 = [.claimed pid r.id (r.attempts + 1)] ∧
      (step sha256Hex w i).1.held? pid = some (r.claim now) := by
  have hmove := move_of_step sha256Hex w i
  generalize (step sha256Hex w i).1 = w' at hmove ⊢
  generalize (step sha256Hex w i).2 = obs at hmove ⊢
  cases hmove with
  | worker q p input db' worker' obs proc running move =>
      unfold World.held?
      rw [worker?_update]
      by_cases hq : pid = q
      · subst hq
        rw [if_pos rfl, worker?_of_proc proc]
        generalize p.worker = worker at move
        cases move with
        | claim now tie r db' next row queued oldest after =>
            exact Or.inr (Or.inr ⟨now, tie, r, rfl, rfl, next, row, rfl, rfl⟩)
        -- after these the worker is back at the head of the loop, or waits
        | empty | record | miss | lose => exact Or.inr (Or.inl rfl)
        | submit job devices => exact Or.inl (job?_afterSubmit job _)
        | cancel job => exact Or.inl rfl
        | accept job printer accepted => exact Or.inl (job?_afterSubmit job _)
        | quiet worker worker' input job started ended => exact Or.inl job
      · rw [if_neg hq]
        exact Or.inl rfl
  | idle i => exact Or.inl rfl
  | other i w' obs turn workers outside =>
      unfold World.held?
      rcases workers pid with heq | heq | heq <;> rw [heq]
      · exact Or.inl rfl
      · exact Or.inr (Or.inl rfl)
      · exact Or.inr (Or.inl rfl)

/-- A claim is shown by the worker that then holds it. -/
theorem claimed_of_step {sha256Hex : List UInt8 → String} {w : World} {i : Input} {pid k : Nat}
    {j : String} (h : Obs.claimed pid j k ∈ (step sha256Hex w i).2) :
    ∃ now tie r, i = .worker pid (.claim now tie) ∧ w.worker? pid = some .ready ∧
      w.db.nextQueued tie = some j ∧ w.db.job? j = some r ∧ k = r.attempts + 1 ∧
      (step sha256Hex w i).2 = [.claimed pid j k] := by
  obtain ⟨config, worker, input, db', worker', rfl, hworker, move⟩ := workerMove_of_obs h rfl
  generalize (step sha256Hex w (.worker pid input)).2 = obs at move h ⊢
  cases move with
  | claim now tie r db' next row queued oldest after =>
      obtain ⟨rfl, rfl⟩ : j = r.id ∧ k = r.attempts + 1 := by simpa using h
      exact ⟨now, tie, r, rfl, hworker, next, row, rfl, rfl⟩
  | _ => simp at h

/-- An outcome is recorded by the worker that holds the claim. -/
theorem held?_of_recorded {sha256Hex : List UInt8 → String} {w : World} {i : Input} {pid k : Nat}
    {j : String} {state : JobState}
    (h : Obs.recorded pid j k state ∈ (step sha256Hex w i).2) :
    ∃ job, w.held? pid = some job ∧ job.id = j ∧ job.attempts = k := by
  obtain ⟨config, worker, input, db', worker', rfl, hworker, move⟩ := workerMove_of_obs h rfl
  generalize (step sha256Hex w (.worker pid input)).2 = obs at move h
  cases move with
  | record job result now r db' row printing after =>
      obtain ⟨rfl, rfl, -⟩ : j = job.id ∧ k = job.attempts ∧ state = result.outcome.1 := by
        simpa using h
      exact ⟨job, by rw [World.held?, hworker]; rfl, rfl, rfl⟩
  | _ => simp at h

/-! ## The last claim of a job -/

/-- Process and attempt number of a claim of `j`. -/
def claimOf? (j : String) : Obs → Option (Nat × Nat)
  | .claimed pid job k => if job = j then some (pid, k) else none
  | _ => none

/-- The last claim of `j`. -/
def lastClaim (j : String) (tr : List Obs) : Option (Nat × Nat) :=
  (tr.filterMap (claimOf? j)).getLast?

@[simp] theorem lastClaim_nil (j : String) : lastClaim j [] = none := rfl

@[simp] theorem lastClaim_claimed (j : String) (tr : List Obs) (pid k : Nat) :
    lastClaim j (tr ++ [.claimed pid j k]) = some (pid, k) := by
  simp [lastClaim, claimOf?]

/-- What shows no claim of `j` leaves the last claim of `j`. -/
theorem lastClaim_append_of_none {j : String} {obs : List Obs}
    (h : ∀ pid k, Obs.claimed pid j k ∉ obs) (tr : List Obs) :
    lastClaim j (tr ++ obs) = lastClaim j tr := by
  have hnil : obs.filterMap (claimOf? j) = [] := by
    rw [List.filterMap_eq_nil_iff]
    intro o ho
    cases o with
    | claimed pid job k =>
        by_cases hj : job = j
        · subst hj
          exact absurd ho (h pid k)
        · simp [claimOf?, hj]
    | _ => rfl
  simp [lastClaim, hnil]

/-- What shows no claim of `j` adds no claim to its history. -/
theorem count_claim_of_none {j : String} {obs : List Obs}
    (h : ∀ pid k, Obs.claimed pid j k ∉ obs) : (history j obs).count .claim = 0 := by
  rw [List.count_eq_zero]
  intro hmem
  obtain ⟨o, ho, hact⟩ := List.mem_filterMap.mp hmem
  obtain ⟨hin, hjob⟩ := mem_about.mp ho
  cases o with
  | claimed pid job k =>
      obtain rfl : job = j := hjob
      exact h pid k hin
  | recorded pid job k state =>
      by_cases hs : state = .succeeded <;> simp [action?, hs] at hact
  | _ => simp [action?] at hact

/-- In every run the last claim of a job carries the number of its claims. -/
theorem lastClaim_number (sha256Hex : List UInt8 → String) (db : Database) (is : List Input)
    {j : String} {pid k : Nat}
    (h : lastClaim j (trace (step sha256Hex) (World.noJobs db) is) = some (pid, k)) :
    claims j (trace (step sha256Hex) (World.noJobs db) is) = k := by
  have hinv : Tracks j (trace (step sha256Hex) (World.noJobs db) is)
        ((run (step sha256Hex) (World.noJobs db) is).db.job? j) ∧
      ∀ p n, lastClaim j (trace (step sha256Hex) (World.noJobs db) is) = some (p, n) →
        claims j (trace (step sha256Hex) (World.noJobs db) is) = n := by
    refine run_invariant (fun tr (w : World) => Tracks j tr (w.db.job? j) ∧
      ∀ p n, lastClaim j tr = some (p, n) → claims j tr = n)
      ⟨.absent rfl (by simp) (by simp), by simp⟩ (fun tr w i hinv => ?_) is
    refine ⟨tracks_move hinv.1 (rowMove_step sha256Hex w i j), fun p n hlast => ?_⟩
    -- only a claim of `j` changes either side
    by_cases hclaim : ∃ q m, Obs.claimed q j m ∈ (step sha256Hex w i).2
    · obtain ⟨q, m, hmem⟩ := hclaim
      obtain ⟨now, tie, r, -, -, -, hrow, rfl, hobs⟩ := claimed_of_step hmem
      rw [hobs, lastClaim_claimed] at hlast
      obtain ⟨-, rfl⟩ : q = p ∧ r.attempts + 1 = n := by simpa using hlast
      -- the row's attempts count the claims so far
      have htracks := hinv.1
      rw [hrow] at htracks
      cases htracks with
      | present r hreplay hcreated hown =>
          have hattempts : r.attempts = claims j tr := (accounts_of_replay hreplay).attempts_eq
          rw [hobs, claims, history_append, List.count_append, hattempts]
          simp [claims, history, about, Obs.job, action?]
    · have hnone : ∀ q m, Obs.claimed q j m ∉ (step sha256Hex w i).2 :=
        fun q m hmem => hclaim ⟨q, m, hmem⟩
      rw [lastClaim_append_of_none hnone] at hlast
      rw [claims, history_append, List.count_append, count_claim_of_none hnone]
      exact hinv.2 p n hlast
  exact hinv.2 pid k h

/-! ## Whose outcome is recorded -/

/-- The next step claims no job whose claim a worker still holds. -/
def claimsUnheld (w : World) (i : Input) : Prop :=
  ∀ pid now tie id, i = .worker pid (.claim now tie) → w.worker? pid = some .ready →
    w.db.nextQueued tie = some id → ∀ pid' job, w.held? pid' = some job → job.id ≠ id

/-- What `finish_job` changes in the next step, it changes for the last claim of
    the job, and no other submission of it is in progress. -/
def recordsLastClaim (sha256Hex : List UInt8 → String) (tr : List Obs) (w : World)
    (i : Input) : Prop :=
  ∀ pid j k state, Obs.recorded pid j k state ∈ (step sha256Hex w i).2 →
    lastClaim j tr = some (pid, k) ∧ claims j tr = k ∧
    ∀ pid' job, w.held? pid' = some job → job.id = j → pid' = pid

/-- Every worker holds the last claim of its job. -/
def Owns (tr : List Obs) (w : World) : Prop :=
  ∀ pid job, w.held? pid = some job → lastClaim job.id tr = some (pid, job.attempts)

theorem owns_step {sha256Hex : List UInt8 → String} {tr : List Obs} {w : World} {i : Input}
    (hok : claimsUnheld w i) (h : Owns tr w) :
    Owns (tr ++ (step sha256Hex w i).2) (step sha256Hex w i).1 := by
  intro pid job hjob
  rcases held?_step sha256Hex w i pid with heq | heq | ⟨now, tie, r, -, -, -, -, hobs, heq⟩
  · rw [heq] at hjob
    rw [lastClaim_append_of_none fun q k hmem => ?_]
    · exact h pid job hjob
    · -- somebody claims the held job: excluded
      obtain ⟨now, tie, r, hi, hready, hnext, -, -, -⟩ := claimed_of_step hmem
      exact hok q now tie job.id hi hready hnext pid job hjob rfl
  · rw [heq] at hjob
    cases hjob
  · rw [heq] at hjob
    obtain rfl : r.claim now = job := Option.some.inj hjob
    rw [hobs]
    exact lastClaim_claimed r.id tr pid (r.attempts + 1)

/-- **A recorded outcome belongs to the last claim**, in every run in which no
    job is claimed while a worker still holds an earlier claim of it. -/
theorem outcome_of_last_claim (sha256Hex : List UInt8 → String) (db : Database)
    (is : List Input)
    (h : Along (step sha256Hex) (fun _ w i => claimsUnheld w i) (World.noJobs db) is) :
    Along (step sha256Hex) (recordsLastClaim sha256Hex) (World.noJobs db) is := by
  intro pre i post heq pid j k state hrec
  -- ownership holds right before the step that records
  have hpre : Along (step sha256Hex) (fun _ w i => claimsUnheld w i) (World.noJobs db) pre :=
    h.of_prefix ⟨i :: post, heq.symm⟩
  have howns : Owns (trace (step sha256Hex) (World.noJobs db) pre)
      (run (step sha256Hex) (World.noJobs db) pre) :=
    run_history_invariant Owns (by intro pid job hjob; cases hjob)
      (fun tr w i hok hinv => owns_step hok hinv) hpre
  obtain ⟨job, hheld, rfl, rfl⟩ := held?_of_recorded hrec
  have hlast := howns pid job hheld
  refine ⟨hlast, lastClaim_number sha256Hex db pre hlast, fun pid' job' hheld' hid => ?_⟩
  -- another holder would be the last claimer too
  have hlast' := howns pid' job' hheld'
  rw [hid, hlast] at hlast'
  exact congrArg Prod.fst (Option.some.inj hlast').symm

/-! ## One agent -/

/-- With one process alive, no job that is claimed is held by another worker. -/
theorem claimsUnheld_of_alone {w : World} {pid : Nat} (h : ∀ q, q ≠ pid → w.procs q = none)
    (i : Input) : claimsUnheld w i := by
  intro q now tie id hi hready hnext pid' job hheld hid
  -- the claimer is at `ready`, so it is not the holder, and nobody else is alive
  have halive : ∀ q worker, w.worker? q = some worker → q = pid := by
    intro q worker hw
    by_contra hne
    rw [World.worker?, h q hne] at hw
    cases hw
  obtain ⟨worker, hworker, hjob⟩ := Option.bind_eq_some_iff.mp hheld
  rw [halive pid' worker hworker, ← halive q _ hready, hready] at hworker
  obtain rfl : Worker.ready = worker := Option.some.inj hworker
  cases hjob

/-- A run that starts no process but `pid` has no other process. -/
theorem alone_run (sha256Hex : List UInt8 → String) (db : Database) (pid : Nat)
    (is : List Input) (h : ∀ i ∈ is, ∀ q config now, i = .start q config now → q = pid) :
    ∀ q, q ≠ pid → (run (step sha256Hex) (World.noJobs db) is).procs q = none := by
  refine run_history_invariant (fun _ (w : World) => ∀ q, q ≠ pid → w.procs q = none)
    (fun _ _ => rfl) (fun tr w i hi hinv q hne => ?_) (along_input_iff.mpr h)
  exact procs_step_of_none sha256Hex (hinv q hne) fun config now hstart =>
    hne (hi q config now hstart)

/-- With one agent, started and restarted at any time, every claim meets
    `claimsUnheld`. -/
theorem along_claimsUnheld_of_alone (sha256Hex : List UInt8 → String) (db : Database)
    (pid : Nat) {is : List Input}
    (h : ∀ i ∈ is, ∀ q config now, i = .start q config now → q = pid) :
    Along (step sha256Hex) (fun _ w i => claimsUnheld w i) (World.noJobs db) is :=
  fun pre i post heq => claimsUnheld_of_alone
    (alone_run sha256Hex db pid pre fun i' hi' => h i' (by simp [heq, hi'])) i

theorem outcome_of_last_claim_of_exampleRetryRun :
    Along (step exampleDigest) (recordsLastClaim exampleDigest) (World.noJobs exampleDatabase)
      exampleRetryRun :=
  outcome_of_last_claim exampleDigest exampleDatabase exampleRetryRun
    (along_claimsUnheld_of_alone exampleDigest exampleDatabase 0 (by
      intro i hi q config now hstart
      subst hstart
      have hstart : q = 0 ∧ config = exampleConfig ∧ now = 2 := by
        simpa [exampleRetryRun, exampleTurn, exampleCreate] using hi
      exact hstart.1))

/-- A second agent takes over a job that the first is still submitting, up to
    the first agent's `finish_job`. -/
def exampleTakeover : List Input :=
  [exampleCreate 1, .start 0 exampleConfig 2, .bind 0, .worker 0 (.claim 3 0),
    .worker 0 (.submit exampleDevices), .worker 0 (.print true),
    .start 1 { exampleConfig with port := 17891 } 4, .retry "j1" "c1" 5, .worker 1 (.claim 6 0)]

/-- The first agent's outcome is recorded for the second agent's claim. -/
theorem outcome_of_earlier_claim :
    ¬ Along (step exampleDigest) (recordsLastClaim exampleDigest) (World.noJobs exampleDatabase)
      (exampleTakeover ++ [.worker 0 (.finish 7)]) := by
  intro h
  have hlast := (h exampleTakeover (.worker 0 (.finish 7)) [] rfl 0 "j1" 1 .succeeded
    (by decide)).1
  revert hlast
  decide

end PrintLatch.Queue
