/-
  PrintLatch.Queue.Copies

  How many copies of a job the spooler has accepted, over all its attempts.

  The loop of `platform_submit` counts from zero in every attempt, so the count
  of a job is right only as long as every attempt starts with nothing printed.
  `Copies` ties the count to the worker that runs the loop; every step keeps it
  but a retry of a job of which copies were accepted before
  (`retriesUnprinted`).
-/

import PrintLatch.Queue.Ownership

namespace PrintLatch.Queue

open Reactive

/-! ## Accepted copies -/

/-- The spooler accepted a copy of job `j`. -/
def acceptedCopy (j : String) : Obs → Bool
  | .copyAccepted _ job => job = j
  | _ => false

/-- The copies of job `j` the spooler has accepted. -/
def accepted (j : String) (tr : List Obs) : Nat := tr.countP (acceptedCopy j)

theorem accepted_append (j : String) (tr obs : List Obs) :
    accepted j (tr ++ obs) = accepted j tr + accepted j obs := List.countP_append ..

/-- Every successful retry of `j` in the next step finds that no copy of it was
    accepted and that no worker holds it. -/
def retriesUnprinted (j : String) (tr : List Obs) (w : World) : Input → Prop
  | .retry id client _ => id = j → ∀ r, w.db.job? j = some r → r.clientId = client →
      retryable r.state → r.attempts < 3 →
      accepted j tr = 0 ∧ ∀ pid job, w.held? pid = some job → job.id ≠ j
  | _ => True

/-- A call of `retry_job`. -/
def Input.isRetry : Input → Bool
  | .retry .. => true
  | _ => false

/-- What is no retry meets the condition. -/
theorem along_retriesUnprinted {step : World → Input → World × List Obs} {j : String} {w : World}
    {is : List Input} (h : ∀ i ∈ is, i.isRetry = false) (before : List Obs) :
    Along step (fun tr w i => retriesUnprinted j (before ++ tr) w i) w is := by
  refine (along_input_iff.mpr h).mono fun tr w i hi => ?_
  cases i with
  | retry id client now => cases hi
  | _ => trivial

/-! ## The invariant -/

/-- The worker's place in the loop over `copies` copies, after `n` of them. -/
def atCopy (worker : Worker) (n copies : Nat) : Prop :=
  match worker with
  | .claimed _ => n = 0
  | .submitting _ (.windows _ done) => n = done ∧ done < copies
  | .submitting _ (.capture _) => False
  | .finishing _ (.ok _) => n = copies
  | _ => True

/-- The worker of `pid` is working on job `j`. -/
def holds (workers : Nat → Option Worker) (j : String) (pid : Nat) : Prop :=
  ∃ worker job, workers pid = some worker ∧ worker.job? = some job ∧ job.id = j

/-- `n` copies of the job in row `r` were accepted, and the worker that works on
    it, if any, knows. -/
structure Copies (j : String) (n : Nat) (workers : Nat → Option Worker) (r : JobRow) : Prop where
  le : n ≤ r.copies
  queued : r.state = .queued → n = 0
  succeeded : r.state = .succeeded → n = r.copies
  held : ∀ pid, holds workers j pid → r.state = .printing ∨ r.state = .unknown
  unique : ∀ pid pid', holds workers j pid → holds workers j pid' → pid = pid'
  loop : ∀ pid worker job, workers pid = some worker → worker.job? = some job → job.id = j →
    job.copies = r.copies ∧ job.printerId = r.printerId ∧ atCopy worker n r.copies

/-- The row changes, the workers and the count do not. -/
theorem Copies.setRow {j : String} {n : Nat} {workers : Nat → Option Worker} {r r' : JobRow}
    (h : Copies j n workers r) (hcopies : r'.copies = r.copies)
    (hprinter : r'.printerId = r.printerId) (hqueued : r'.state = .queued → n = 0)
    (hsucceeded : r'.state = .succeeded → n = r.copies)
    (hheld : ∀ pid, holds workers j pid → r'.state = .printing ∨ r'.state = .unknown) :
    Copies j n workers r' where
  le := hcopies ▸ h.le
  queued := hqueued
  succeeded hs := (hsucceeded hs).trans hcopies.symm
  held := hheld
  unique := h.unique
  loop pid worker job hw hjob hid := by
    rw [hcopies, hprinter]
    exact h.loop pid worker job hw hjob hid

/-- Where workers disappear or start afresh, only old ones work on a job. -/
theorem holds_of_shrunk {workers workers' : Nat → Option Worker}
    (hws : ∀ pid, workers' pid = workers pid ∨ workers' pid = none ∨ workers' pid = some .ready)
    {j : String} {pid : Nat} (h : holds workers' j pid) : holds workers j pid := by
  obtain ⟨worker, job, hw, hjob, hid⟩ := h
  exact ⟨worker, job, worker?_of_busy (hws pid) hw hjob, hjob, hid⟩

/-- Workers disappear or start afresh. -/
theorem Copies.shrink {j : String} {n : Nat} {workers workers' : Nat → Option Worker}
    {r : JobRow} (h : Copies j n workers r)
    (hws : ∀ pid, workers' pid = workers pid ∨ workers' pid = none ∨ workers' pid = some .ready) :
    Copies j n workers' r where
  le := h.le
  queued := h.queued
  succeeded := h.succeeded
  held pid hp := h.held pid (holds_of_shrunk hws hp)
  unique pid pid' hp hp' := h.unique pid pid' (holds_of_shrunk hws hp) (holds_of_shrunk hws hp')
  loop pid worker job hw hjob hid :=
    h.loop pid worker job (worker?_of_busy (hws pid) hw hjob) hjob hid

/-- The worker of `q` goes on with its job or drops it; a copy is accepted only
    for the job it holds. -/
theorem Copies.setWorker {j : String} {n n' : Nat} {workers workers' : Nat → Option Worker}
    {r : JobRow} {q : Nat} {worker worker' : Worker} (h : Copies j n workers r)
    (hq : workers q = some worker)
    (hws : ∀ pid, workers' pid = if pid = q then some worker' else workers pid)
    (hjob : ∀ job, worker'.job? = some job → job.id = j → worker.job? = some job)
    (hn : n' = n ∨ holds workers j q) (hle : n' ≤ r.copies)
    (hloop : ∀ job, worker'.job? = some job → job.id = j → atCopy worker' n' r.copies) :
    Copies j n' workers' r := by
  -- the worker that moved works on `j` only if it did before
  have hholds : ∀ pid, holds workers' j pid → holds workers j pid := by
    rintro pid ⟨w, job, hw, hwj, hid⟩
    rw [hws] at hw
    split at hw
    · next hpid =>
        obtain rfl : worker' = w := Option.some.inj hw
        exact ⟨worker, job, hpid ▸ hq, hjob job hwj hid, hid⟩
    · exact ⟨w, job, hw, hwj, hid⟩
  -- while a worker is at the job, the count is bound by `loop` alone
  have hbusy : holds workers j q → r.state ≠ .queued ∧ r.state ≠ .succeeded := by
    intro hh
    rcases h.held q hh with hs | hs <;> simp [hs]
  refine ⟨hle, fun hs => ?_, fun hs => ?_, fun pid hp => h.held pid (hholds pid hp),
    fun pid pid' hp hp' => h.unique pid pid' (hholds pid hp) (hholds pid' hp'), ?_⟩
  · rcases hn with rfl | hh
    · exact h.queued hs
    · exact absurd hs (hbusy hh).1
  · rcases hn with rfl | hh
    · exact h.succeeded hs
    · exact absurd hs (hbusy hh).2
  · intro pid w job hw hwj hid
    have hw' := hw
    rw [hws] at hw'
    split at hw'
    · next hpid =>
        obtain rfl : worker' = w := Option.some.inj hw'
        obtain ⟨hc, hp, -⟩ := h.loop q worker job hq (hjob job hwj hid) hid
        exact ⟨hc, hp, hloop job hwj hid⟩
    · next hpid =>
        obtain ⟨hc, hp, hat⟩ := h.loop pid w job hw' hwj hid
        rcases hn with rfl | hh
        · exact ⟨hc, hp, hat⟩
        · exact absurd (h.unique pid q ⟨w, job, hw', hwj, hid⟩ hh) hpid

/-- The worker of `q` has no part in the job afterwards. -/
theorem Copies.leave {j : String} {n : Nat} {workers workers' : Nat → Option Worker}
    {r : JobRow} {q : Nat} {worker worker' : Worker} (h : Copies j n workers r)
    (hq : workers q = some worker)
    (hws : ∀ pid, workers' pid = if pid = q then some worker' else workers pid)
    (hother : ∀ job, worker'.job? = some job → job.id ≠ j) : Copies j n workers' r :=
  h.setWorker hq hws (fun job hjob hid => absurd hid (hother job hjob)) (Or.inl rfl) h.le
    fun job hjob hid => absurd hid (hother job hjob)

/-- The worker of `q` claims the job. -/
theorem Copies.claim {n : Nat} {workers workers' : Nat → Option Worker} {r : JobRow} {q : Nat}
    {now : Int} (h : Copies r.id n workers r) (queued : r.state = .queued)
    (hws : ∀ pid, workers' pid = if pid = q then some (.claimed (r.claim now)) else workers pid) :
    Copies r.id n workers' (r.claim now) := by
  -- a queued job is held by nobody
  have hfree : ∀ pid, ¬ holds workers r.id pid := by
    intro pid hh
    rcases h.held pid hh with hs | hs <;> simp [queued] at hs
  have honly : ∀ pid w job, workers' pid = some w → w.job? = some job → job.id = r.id →
      pid = q ∧ w = .claimed (r.claim now) := by
    intro pid w job hw hwj hid
    have hw' := hw
    rw [hws] at hw'
    split at hw'
    · next hpid => exact ⟨hpid, (Option.some.inj hw').symm⟩
    · exact absurd ⟨w, job, hw', hwj, hid⟩ (hfree pid)
  exact {
    le := h.le
    queued := by simp
    succeeded := by simp
    held := fun _ _ => Or.inl rfl
    unique := fun pid pid' ⟨w, job, hw, hwj, hid⟩ ⟨w', job', hw', hwj', hid'⟩ =>
      (honly pid w job hw hwj hid).1.trans (honly pid' w' job' hw' hwj' hid').1.symm
    loop := fun pid w job hw hwj hid => by
      obtain ⟨-, rfl⟩ := honly pid w job hw hwj hid
      obtain rfl : r.claim now = job := Option.some.inj hwj
      exact ⟨rfl, rfl, h.queued queued⟩ }

/-- The worker of `q` records the outcome of the job, which it holds. -/
theorem Copies.finish {n : Nat} {workers workers' : Nat → Option Worker} {r : JobRow} {q : Nat}
    {job : JobRow} {result : SubmitResult} {now : Int} (h : Copies job.id n workers r)
    (hq : workers q = some (.finishing job result))
    (hws : ∀ pid, workers' pid = if pid = q then some .ready else workers pid) :
    Copies job.id n workers' (r.finish result.outcome.1 result.outcome.2 now) := by
  obtain ⟨-, -, hat⟩ := h.loop q _ job hq rfl rfl
  have hdropped : Copies job.id n workers' r := h.leave hq hws fun _ hjob => by cases hjob
  refine hdropped.setRow rfl rfl (fun hs => ?_) (fun hs => ?_) ?_
  · rw [JobRow.finish_state] at hs
    rcases outcome_state result with heq | heq <;> simp [heq] at hs
  · rw [JobRow.finish_state] at hs
    cases result with
    -- `succeeded` comes from `ok`, which the loop returns after the last copy
    | ok detail => exact hat
    | err message => cases hs
    | stopped => cases hs
  · -- the worker that held the job has just dropped it
    rintro pid ⟨w, job', hw, hwj, hid⟩
    rw [hws] at hw
    split at hw
    · obtain rfl : Worker.ready = w := Option.some.inj hw
      cases hwj
    · next hpid =>
        exact absurd (h.unique pid q ⟨w, job', hw, hwj, hid⟩ ⟨_, job, hq, rfl, rfl⟩) hpid

/-! ## The loop -/

/-- A submission to a Windows printer starts at copy 0. -/
theorem atCopy_submitStart (sha256Hex : List UInt8 → String) (config : AppConfig) (job : JobRow)
    (devices : Option (List PrinterDevice)) (hp : job.printerId ≠ capturePrinterId) :
    atCopy (afterSubmit job (submitStart sha256Hex config job devices)) 0 job.copies := by
  unfold submitStart
  rw [if_neg hp]
  cases devices with
  | none => trivial
  | some ds =>
      dsimp only
      split
      · trivial
      · cases hnext : nextCopy _ 0 job.copies with
        | inl sub =>
            obtain ⟨rfl, hlt⟩ := nextCopy_eq_inl hnext
            exact ⟨rfl, hlt⟩
        | inr res =>
            obtain ⟨⟨detail, rfl⟩, hle⟩ := nextCopy_eq_inr hnext
            exact (Nat.le_zero.mp hle).symm

/-- An accepted copy moves the loop to the next one, or to its end. -/
theorem atCopy_printCopy (job : JobRow) (printer : String) {done copies : Nat}
    (hlt : done < copies) :
    atCopy (afterSubmit job (printCopy printer done copies true)) (done + 1) copies := by
  unfold printCopy
  rw [if_pos rfl]
  cases hnext : nextCopy printer (done + 1) copies with
  | inl sub =>
      obtain ⟨rfl, hlt'⟩ := nextCopy_eq_inl hnext
      exact ⟨rfl, hlt'⟩
  | inr res =>
      obtain ⟨⟨detail, rfl⟩, hle⟩ := nextCopy_eq_inr hnext
      exact Nat.le_antisymm hlt hle

/-! ## Steps -/

/-- A worker's move, seen from a job for a Windows printer. -/
theorem copies_worker {sha256Hex : List UInt8 → String} {config : AppConfig} {q : Nat}
    {db db' : Database} {worker worker' : Worker} {input : WorkerInput} {obs : List Obs}
    (move : WorkerMove sha256Hex config q db worker input db' worker' obs) {j : String} {n : Nat}
    {workers workers' : Nat → Option Worker} {r : JobRow} (hq : workers q = some worker)
    (hws : ∀ pid, workers' pid = if pid = q then some worker' else workers pid)
    (hrow : db.job? j = some r) (hwindows : r.printerId ≠ capturePrinterId)
    (h : Copies j n workers r) :
    ∃ r', db'.job? j = some r' ∧ Copies j (n + accepted j obs) workers' r' := by
  cases move with
  | claim now tie r₀ db' next row queued oldest after =>
      have hn : accepted j [.claimed q r₀.id (r₀.attempts + 1)] = 0 := rfl
      rw [hn, Nat.add_zero, after]
      by_cases hj : j = r₀.id
      · subst hj
        obtain rfl : r = r₀ := Option.some.inj (hrow.symm.trans row)
        rw [if_pos rfl]
        exact ⟨_, rfl, h.claim queued hws⟩
      · rw [if_neg hj]
        refine ⟨r, hrow, h.leave hq hws fun job hjob hid => ?_⟩
        obtain rfl : r₀.claim now = job := Option.some.inj hjob
        exact hj hid.symm
  -- the loop starts at copy 0, and no copy of a claimed job was accepted yet
  | submit job devices =>
      refine ⟨r, hrow, h.setWorker hq hws (fun job' hjob' _ => ?_) (Or.inl rfl) h.le
        fun job' hjob' hid => ?_⟩
      · rwa [job?_afterSubmit] at hjob'
      · rw [job?_afterSubmit] at hjob'
        obtain rfl : job = job' := Option.some.inj hjob'
        obtain ⟨hc, hp, hzero⟩ := h.loop q _ job hq rfl hid
        have hn : n = 0 := hzero
        subst hn
        rw [← hc]
        exact atCopy_submitStart sha256Hex config job devices (hp ▸ hwindows)
  | cancel job =>
      exact ⟨r, hrow, h.setWorker hq hws (fun _ hjob' _ => hjob') (Or.inl rfl) h.le
        fun _ _ _ => trivial⟩
  | accept job printer done =>
      -- the count of `j` goes up only with a copy of `j`
      by_cases hid : job.id = j
      · have hn : accepted j [.copyAccepted q job.id] = 1 := by
          simp [accepted, acceptedCopy, hid]
        obtain ⟨hc, hp, rfl, hlt⟩ := h.loop q _ job hq rfl hid
        rw [hn]
        refine ⟨r, hrow, h.setWorker hq hws (fun job' hjob' _ => ?_)
          (Or.inr ⟨_, job, hq, rfl, hid⟩) hlt fun job' hjob' hid' => ?_⟩
        · rwa [job?_afterSubmit] at hjob'
        · rw [hc]
          exact atCopy_printCopy job printer hlt
      · have hn : accepted j [.copyAccepted q job.id] = 0 := by
          simp [accepted, acceptedCopy, hid]
        rw [hn]
        refine ⟨r, hrow, h.leave hq hws fun job' hjob' => ?_⟩
        rw [job?_afterSubmit] at hjob'
        obtain rfl : job = job' := Option.some.inj hjob'
        exact hid
  | record job result now r₀ db' row printing after =>
      have hn : accepted j [.recorded q job.id job.attempts result.outcome.1] = 0 := rfl
      rw [hn, Nat.add_zero, after]
      by_cases hj : j = job.id
      · subst hj
        obtain rfl : r = r₀ := Option.some.inj (hrow.symm.trans row)
        rw [if_pos rfl]
        exact ⟨_, rfl, h.finish hq hws⟩
      · rw [if_neg hj]
        exact ⟨r, hrow, h.leave hq hws fun _ hjob => by cases hjob⟩
  | empty | miss | lose => exact ⟨r, hrow, h.leave hq hws fun _ hjob => by cases hjob⟩
  | quiet worker worker' input same started ended =>
      refine ⟨r, hrow, h.setWorker hq hws (fun job hjob _ => same ▸ hjob) (Or.inl rfl) h.le
        fun job hjob hid => ?_⟩
      obtain ⟨-, -, hat⟩ := h.loop q worker job hq (same ▸ hjob) hid
      -- a quiet step that ends a submission ends it without a Windows copy
      rcases ended with rfl | hnone | ⟨job', sub, result, rfl, rfl, hcapture⟩
      · exact hat
      · rw [hnone] at hjob
        cases hjob
      · cases result with
        | ok detail =>
            obtain ⟨destination, rfl⟩ := hcapture ⟨detail, rfl⟩
            exact hat.elim
        | err message => trivial
        | stopped => trivial

/-- A worker's move leaves a job that is not there alone. -/
theorem absent_worker {sha256Hex : List UInt8 → String} {config : AppConfig} {q : Nat}
    {db db' : Database} {worker worker' : Worker} {input : WorkerInput} {obs : List Obs}
    (move : WorkerMove sha256Hex config q db worker input db' worker' obs) {j : String}
    (hrow : db.job? j = none) (hfree : ∀ job, worker.job? = some job → job.id ≠ j) :
    db'.job? j = none ∧ accepted j obs = 0 ∧ ∀ job, worker'.job? = some job → job.id ≠ j := by
  cases move with
  | claim now tie r db' next row queued oldest after =>
      have hne : j ≠ r.id := by
        rintro rfl
        rw [row] at hrow
        cases hrow
      refine ⟨by rw [after, if_neg hne, hrow], rfl, fun job hjob => ?_⟩
      obtain rfl : r.claim now = job := Option.some.inj hjob
      exact Ne.symm hne
  | submit job devices =>
      refine ⟨hrow, rfl, fun job' hjob' => ?_⟩
      rw [job?_afterSubmit] at hjob'
      exact hfree job' hjob'
  | cancel job => exact ⟨hrow, rfl, hfree⟩
  | accept job printer done =>
      refine ⟨hrow, ?_, fun job' hjob' => ?_⟩
      · simp [accepted, acceptedCopy, hfree job rfl]
      · rw [job?_afterSubmit] at hjob'
        exact hfree job' hjob'
  | record job result now r db' row printing after =>
      have hne : j ≠ job.id := Ne.symm (hfree job rfl)
      exact ⟨by rw [after, if_neg hne, hrow], rfl, fun _ hjob => by cases hjob⟩
  | empty | miss | lose => exact ⟨hrow, rfl, fun _ hjob => by cases hjob⟩
  | quiet worker worker' input same started ended =>
      exact ⟨hrow, rfl, fun job hjob => hfree job (same ▸ hjob)⟩

/-- Only `retry_job` retries. -/
theorem retry_of_retried {sha256Hex : List UInt8 → String} {w : World} {i : Input}
    {j client : String} (h : Obs.retried j client ∈ (step sha256Hex w i).2) :
    ∃ now r, i = .retry j client now ∧ w.db.job? j = some r ∧ r.clientId = client ∧
      retryable r.state ∧ r.attempts < 3 := by
  cases i with
  | retry id client' now =>
      simp only [step] at h
      rcases w.db.retryJob_cases id client' now with heq | ⟨r, hr, hc, hs, hlt, hsnd, -⟩
      · simp [heq] at h
      · rw [hsnd] at h
        obtain ⟨rfl, rfl⟩ : j = id ∧ client = client' := by simpa using h
        exact ⟨now, r, rfl, hr, hc, hs, hlt⟩
  | create parsed report id client' path now =>
      simp only [step] at h
      split at h <;> simp at h
  | cancel id client' now =>
      simp only [step] at h
      split at h <;> simp at h
  | start pid config now =>
      simp only [step] at h
      split at h <;> simp at h
  | bind pid =>
      simp only [step] at h
      split at h
      · simp at h
      · split at h
        · simp at h
        · split at h <;> simp at h
  | shutdown pid =>
      simp only [step] at h
      split at h <;> simp at h
  | crash pid => simp [step] at h
  | worker pid input =>
      simp only [step] at h
      split at h
      · simp at h
      · next p hp =>
          split at h
          · simp at h
          · have hworker := (workerMove_of_step sha256Hex p.config pid w.db p.worker
              input).worker?_obs _ h
            cases hworker

/-- The count of a job, with its row. -/
inductive CopiesKept (j : String) (tr : List Obs) (w : World) : Option JobRow → Prop
  | absent (none_accepted : accepted j tr = 0) (free : ∀ pid, ¬ holds w.worker? j pid) :
      CopiesKept j tr w none
  | present (r : JobRow)
      (kept : r.printerId ≠ capturePrinterId → Copies j (accepted j tr) w.worker? r) :
      CopiesKept j tr w (some r)

theorem RowMove.printerId_eq {j : String} {obs : List Obs} {r r' : JobRow}
    (h : RowMove j (some r) obs (some r')) : r'.printerId = r.printerId := by
  cases h <;> rfl

theorem RowMove.isSome {j : String} {obs : List Obs} {r : JobRow} {row' : Option JobRow}
    (h : RowMove j (some r) obs row') : ∃ r', row' = some r' := by
  cases h <;> exact ⟨_, rfl⟩

/-- A step that moves no worker, seen from job `j`. -/
theorem copiesKept_other {j : String} {tr tr' obs : List Obs} {w w' : World}
    {row row' : Option JobRow} (hn : accepted j tr' = accepted j tr)
    (workers : ∀ pid, w'.worker? pid = w.worker? pid ∨ w'.worker? pid = none ∨
      w'.worker? pid = some .ready)
    (outside : ∀ o ∈ obs, o.worker? = none) (move : RowMove j row obs row')
    (hretry : ∀ client, Obs.retried j client ∈ obs →
      accepted j tr = 0 ∧ ∀ pid, ¬ holds w.worker? j pid)
    (h : CopiesKept j tr w row) : CopiesKept j tr' w' row' := by
  cases h with
  | absent hnone hfree =>
      have hfree' : ∀ pid, ¬ holds w'.worker? j pid := fun pid hh =>
        hfree pid (holds_of_shrunk workers hh)
      cases move with
      | stay => exact .absent (hn.trans hnone) hfree'
      | create client mode r hentry hclient =>
          have hstate : r.state = initialState mode := congrArg Entry.state hentry
          refine .present r fun _ => ?_
          rw [hn, hnone]
          exact {
            le := Nat.zero_le _
            queued := fun _ => rfl
            succeeded := fun hs => by cases mode <;> simp [hstate, initialState] at hs
            held := fun pid hh => absurd hh (hfree' pid)
            unique := fun pid _ hh _ => absurd hh (hfree' pid)
            loop := fun pid worker job hw hjob hid =>
              absurd ⟨worker, job, hw, hjob, hid⟩ (hfree' pid) }
  | present r hkept =>
      obtain ⟨r', rfl⟩ := move.isSome
      refine .present r' fun hwindows => ?_
      rw [move.printerId_eq] at hwindows
      have hcopies := (hkept hwindows).shrink workers
      rw [hn]
      cases move with
      | cancel now r queued =>
          refine hcopies.setRow rfl rfl (by simp) (by simp) fun pid hh => ?_
          rcases hcopies.held pid hh with hs | hs <;> simp [queued] at hs
      | retry now r ended left =>
          -- the only place where the condition on retries is needed
          obtain ⟨hzero, hfree⟩ := hretry r.clientId (by simp)
          exact hcopies.setRow rfl rfl (fun _ => hzero) (by simp)
            fun pid hh => absurd (holds_of_shrunk workers hh) (hfree pid)
      | recover pid now r printing =>
          exact hcopies.setRow rfl rfl (by simp) (by simp) fun _ _ => Or.inr rfl
      -- these come from a worker, which did not move
      | claim | record =>
          have := outside _ (List.mem_singleton.mpr rfl)
          cases this
      | stay => exact hcopies

theorem copiesKept_step {sha256Hex : List UInt8 → String} {j : String} {tr : List Obs} {w : World}
    {i : Input} (hok : retriesUnprinted j tr w i) (h : CopiesKept j tr w (w.db.job? j)) :
    CopiesKept j (tr ++ (step sha256Hex w i).2) (step sha256Hex w i).1
      ((step sha256Hex w i).1.db.job? j) := by
  have hmove := move_of_step sha256Hex w i
  have hrow := rowMove_step sha256Hex w i j
  have hretry : ∀ client, Obs.retried j client ∈ (step sha256Hex w i).2 →
      accepted j tr = 0 ∧ ∀ pid, ¬ holds w.worker? j pid := by
    intro client hmem
    obtain ⟨now, r, rfl, hr, hc, hs, hlt⟩ := retry_of_retried hmem
    obtain ⟨hzero, hfree⟩ := hok rfl r hr hc hs hlt
    exact ⟨hzero, fun pid ⟨worker, job, hw, hjob, hid⟩ =>
      hfree pid job (by rw [World.held?, hw]; exact hjob) hid⟩
  generalize (step sha256Hex w i).1 = w' at hmove hrow ⊢
  generalize (step sha256Hex w i).2 = obs at hmove hrow hretry ⊢
  cases hmove with
  | worker q p input db' worker' obs proc running move =>
      have hq := worker?_of_proc proc
      have hws : ∀ pid, World.worker?
          ⟨db', Function.update w.procs q (some { p with worker := worker' }), w.ports⟩ pid =
            if pid = q then some worker' else w.worker? pid := fun pid => by
        rw [worker?_update]
        rfl
      generalize hrow₀ : w.db.job? j = row at h hrow
      cases h with
      | absent hnone hfree =>
          obtain ⟨hrow', hobs, hheld⟩ := absent_worker move hrow₀
            fun job hjob hid => hfree q ⟨_, job, hq, hjob, hid⟩
          show CopiesKept j (tr ++ obs) _ (db'.job? j)
          rw [hrow']
          refine .absent (by rw [accepted_append, hnone, hobs]) ?_
          rintro pid ⟨worker, job, hw, hjob, hid⟩
          rw [hws] at hw
          split at hw
          · obtain rfl : worker' = worker := Option.some.inj hw
            exact hheld job hjob hid
          · exact hfree pid ⟨worker, job, hw, hjob, hid⟩
      | present r hkept =>
          obtain ⟨r', hr'⟩ := hrow.isSome
          rw [hr'] at hrow ⊢
          refine .present r' fun hwindows => ?_
          rw [hrow.printerId_eq] at hwindows
          obtain ⟨r'', hr'', hcopies⟩ := copies_worker move hq hws hrow₀ hwindows (hkept hwindows)
          obtain rfl : r' = r'' := Option.some.inj (hr'.symm.trans hr'')
          rw [accepted_append]
          exact hcopies
  | idle i => simpa using h
  | other i w' obs turn workers outside =>
      have hobs : accepted j obs = 0 := by
        rw [accepted, List.countP_eq_zero]
        intro o ho hacc
        cases o with
        | copyAccepted pid job =>
            have := outside _ ho
            cases this
        | _ => cases hacc
      have hmem : ∀ o ∈ about j obs, o ∈ obs := fun o ho => (mem_about.mp ho).1
      exact copiesKept_other (by rw [accepted_append, hobs]; rfl) workers
        (fun o ho => outside o (hmem o ho)) hrow (fun client ho => hretry client (hmem _ ho)) h

/-- **Exactly the requested number of copies**, in every run in which the owner's
    retries of the job find none of its copies accepted and no worker at it. -/
theorem copies_exact (sha256Hex : List UInt8 → String) (db : Database) (is : List Input)
    (j : String) (r : JobRow)
    (hok : Along (step sha256Hex) (retriesUnprinted j) (World.noJobs db) is)
    (hrow : (run (step sha256Hex) (World.noJobs db) is).db.job? j = some r)
    (hwindows : r.printerId ≠ capturePrinterId) :
    accepted j (trace (step sha256Hex) (World.noJobs db) is) ≤ r.copies ∧
    (r.state = .succeeded →
      accepted j (trace (step sha256Hex) (World.noJobs db) is) = r.copies) := by
  have hkept := run_history_invariant
    (fun tr (w : World) => CopiesKept j tr w (w.db.job? j))
    (.absent rfl fun pid ⟨worker, job, hw, _⟩ => by cases hw)
    (fun _ _ _ hok h => copiesKept_step hok h) hok
  rw [hrow] at hkept
  cases hkept with
  | present r h => exact ⟨(h hwindows).le, (h hwindows).succeeded⟩

/-- A job for two copies, whose first attempt is rejected at once. -/
def exampleRejected : List Input :=
  [exampleCreate 2, .start 0 exampleConfig 2, .bind 0] ++ exampleTurn 0 [false] 3

/-- It is retried and printed. -/
def exampleCleanRetry : List Input :=
  exampleRejected ++ .retry "j1" "c1" 4 :: exampleTurn 0 [true, true] 5

theorem copies_exact_of_exampleCleanRetry :
    accepted "j1" (trace (step exampleDigest) (World.noJobs exampleDatabase) exampleCleanRetry) =
      2 := by
  have hrow : ((run (step exampleDigest) (World.noJobs exampleDatabase) exampleCleanRetry).db.job?
      "j1").map (fun r => (r.state, r.printerId, r.copies)) =
        some (.succeeded, printerId exampleDigest "Office", 2) := by decide
  obtain ⟨r, hr, heq⟩ := Option.map_eq_some_iff.mp hrow
  obtain ⟨hstate, hprinter, hcopies⟩ : r.state = .succeeded ∧
      r.printerId = printerId exampleDigest "Office" ∧ r.copies = 2 := by simpa using heq
  have hwindows : r.printerId ≠ capturePrinterId := by
    rw [hprinter]
    decide
  refine ((copies_exact exampleDigest exampleDatabase exampleCleanRetry "j1" r ?_ hr
    hwindows).2 hstate).trans hcopies
  refine along_append.mpr ⟨along_retriesUnprinted (by decide) [], along_cons.mpr ⟨?_,
    along_retriesUnprinted (by decide) _⟩⟩
  intro _ r _ _ _ _
  -- the first attempt was rejected, and its worker is idle again
  refine ⟨by decide, fun pid job hjob => ?_⟩
  by_cases hpid : pid = 0
  · subst hpid
    have hidle : (run (step exampleDigest) (World.noJobs exampleDatabase)
      exampleRejected).held? 0 = none := by decide
    rw [hidle] at hjob
    cases hjob
  · have hnone := alone_run exampleDigest exampleDatabase 0 exampleRejected
      (by simp [exampleRejected, exampleTurn, exampleCreate]) pid hpid
    rw [World.held?, World.worker?, hnone] at hjob
    cases hjob

/-- Two copies; the first attempt fails after one of them. -/
def exampleReprint : List Input :=
  [exampleCreate 2, .start 0 exampleConfig 2, .bind 0] ++ exampleTurn 0 [true, false] 3 ++
    [.retry "j1" "c1" 4] ++ exampleTurn 0 [true, true] 5

/-- Three copies are printed of a job for two. -/
theorem copies_exceeded :
    ((run (step exampleDigest) (World.noJobs exampleDatabase) exampleReprint).db.job? "j1").map
        (fun r => (r.state, r.copies)) = some (.succeeded, 2) ∧
    accepted "j1" (trace (step exampleDigest) (World.noJobs exampleDatabase) exampleReprint) =
      3 := by
  decide

end PrintLatch.Queue
