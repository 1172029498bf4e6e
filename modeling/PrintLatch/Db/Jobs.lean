/-
  PrintLatch.Db.Jobs

  The statements of `src/db.rs` over the table `jobs`.

  Every `UPDATE jobs SET ... WHERE ...` is `Database.updateJobs p f`: rows that
  meet the condition `p` are replaced by `f`, the others stay.  The `SET`
  clauses are functions on rows (`JobRow.claim`, `JobRow.finish`, ...), so a
  statement's effect on job `id` is one equation about `job?`.

  Times are arguments: `now` is what `Utc::now().timestamp()` returned in the
  call.  `claim_next_job` selects one row with the least `created_at`; which of
  several such rows SQLite returns is left open by the SQL and is the argument
  `tie` here.
-/

import PrintLatch.Db.Schema
import Mathlib.Data.List.MinMax
import Mathlib.Data.List.Sort
import Mathlib.Data.String.Basic

namespace PrintLatch

open Relational

/-! ## `SET` clauses -/

/-- The detail `recover_interrupted_jobs` writes. -/
def restartDetail : String :=
  "Agent restarted while the OS print submission was in progress. Retry manually to avoid an accidental duplicate."

/-- `SET state = 'printing', attempts = attempts + 1, updated_at = ?1`. -/
def JobRow.claim (r : JobRow) (now : Int) : JobRow :=
  { r with state := .printing, attempts := r.attempts + 1, updatedAt := now }

/-- `SET state = 'unknown', detail = 'Agent restarted ...', updated_at = ?1`. -/
def JobRow.recover (r : JobRow) (now : Int) : JobRow :=
  { r with state := .unknown, detail := some restartDetail, updatedAt := now }

/-- `SET state = ?2, detail = ?3, updated_at = ?4`. -/
def JobRow.finish (r : JobRow) (state : JobState) (detail : String) (now : Int) : JobRow :=
  { r with state := state, detail := some detail, updatedAt := now }

/-- `SET state = 'canceled', detail = 'Canceled by client', updated_at = ?3`. -/
def JobRow.cancel (r : JobRow) (now : Int) : JobRow :=
  { r with state := .canceled, detail := some "Canceled by client", updatedAt := now }

/-- `SET state = 'queued', detail = NULL, updated_at = ?3`. -/
def JobRow.retry (r : JobRow) (now : Int) : JobRow :=
  { r with state := .queued, detail := none, updatedAt := now }

section SetClauses

variable (r : JobRow) (now : Int) (state : JobState) (detail : String)

@[simp] theorem JobRow.claim_id : (r.claim now).id = r.id := rfl
@[simp] theorem JobRow.claim_clientId : (r.claim now).clientId = r.clientId := rfl
@[simp] theorem JobRow.claim_mode : (r.claim now).mode = r.mode := rfl
@[simp] theorem JobRow.claim_state : (r.claim now).state = .printing := rfl
@[simp] theorem JobRow.claim_attempts : (r.claim now).attempts = r.attempts + 1 := rfl
@[simp] theorem JobRow.claim_copies : (r.claim now).copies = r.copies := rfl
@[simp] theorem JobRow.claim_printerId : (r.claim now).printerId = r.printerId := rfl
@[simp] theorem JobRow.recover_id : (r.recover now).id = r.id := rfl
@[simp] theorem JobRow.recover_clientId : (r.recover now).clientId = r.clientId := rfl
@[simp] theorem JobRow.recover_mode : (r.recover now).mode = r.mode := rfl
@[simp] theorem JobRow.recover_state : (r.recover now).state = .unknown := rfl
@[simp] theorem JobRow.recover_attempts : (r.recover now).attempts = r.attempts := rfl
@[simp] theorem JobRow.finish_id : (r.finish state detail now).id = r.id := rfl
@[simp] theorem JobRow.finish_clientId : (r.finish state detail now).clientId = r.clientId := rfl
@[simp] theorem JobRow.finish_mode : (r.finish state detail now).mode = r.mode := rfl
@[simp] theorem JobRow.finish_state : (r.finish state detail now).state = state := rfl
@[simp] theorem JobRow.finish_attempts : (r.finish state detail now).attempts = r.attempts := rfl
@[simp] theorem JobRow.cancel_id : (r.cancel now).id = r.id := rfl
@[simp] theorem JobRow.cancel_clientId : (r.cancel now).clientId = r.clientId := rfl
@[simp] theorem JobRow.cancel_mode : (r.cancel now).mode = r.mode := rfl
@[simp] theorem JobRow.cancel_state : (r.cancel now).state = .canceled := rfl
@[simp] theorem JobRow.cancel_attempts : (r.cancel now).attempts = r.attempts := rfl
@[simp] theorem JobRow.retry_id : (r.retry now).id = r.id := rfl
@[simp] theorem JobRow.retry_clientId : (r.retry now).clientId = r.clientId := rfl
@[simp] theorem JobRow.retry_mode : (r.retry now).mode = r.mode := rfl
@[simp] theorem JobRow.retry_state : (r.retry now).state = .queued := rfl
@[simp] theorem JobRow.retry_attempts : (r.retry now).attempts = r.attempts := rfl

end SetClauses

/-- The row `INSERT INTO jobs` makes of a new job: `attempts` and `detail` take
    their defaults. -/
def NewJob.row (job : NewJob) (now : Int) : JobRow where
  id := job.id
  clientId := job.clientId
  printerId := job.printerId
  state := job.state
  mode := job.mode
  copies := job.copies
  pageCount := job.pageCount
  byteCount := job.byteCount
  sha256 := job.sha256
  attempts := 0
  detail := none
  createdAt := now
  updatedAt := now
  filePath := job.filePath

/-! ## Updates -/

namespace Database

/-- `UPDATE jobs SET f WHERE p`. -/
def updateJobs (db : Database) (p : JobRow → Bool) (f : JobRow → JobRow)
    (hf : ∀ r, (f r).id = r.id) : Database :=
  { db with
    jobs := db.jobs.modify (fun r => if p r then f r else r) (by
      intro a b h
      have hid : ∀ r : JobRow, (if p r then f r else r).id = r.id := fun r => by
        split
        · exact hf r
        · rfl
      simpa only [jobsClash, hid] using h) }

theorem job?_updateJobs (db : Database) (p : JobRow → Bool) (f : JobRow → JobRow)
    (hf : ∀ r, (f r).id = r.id) (id : String) :
    (db.updateJobs p f hf).job? id = (db.job? id).map fun r => if p r then f r else r := by
  have hkey : ∀ r : JobRow, (if p r then f r else r).id = r.id := fun r => by
    split
    · exact hf r
    · rfl
  exact Table.lookup_map (fun r : JobRow => r.id) hkey id

/-- An update whose condition no row meets changes nothing. -/
theorem updateJobs_of_none (db : Database) {p : JobRow → Bool} {f : JobRow → JobRow} (hf)
    (h : ∀ r ∈ db.jobs.rows, p r = false) : db.updateJobs p f hf = db := by
  have hrows : (db.updateJobs p f hf).jobs = db.jobs := by
    apply Table.ext
    simp only [updateJobs, Table.rows_modify]
    conv_rhs => rw [← List.map_id db.jobs.rows]
    refine List.map_congr_left fun r hr => ?_
    simp [h r hr]
  cases db
  simp only [updateJobs] at hrows ⊢
  rw [hrows]

/-- What a statement with `WHERE id = ?1 AND ...` can do: change no row, or
    change exactly the row of that id. -/
theorem updateJobs_cases (db : Database) {p : JobRow → Bool} {f : JobRow → JobRow}
    (hf : ∀ r, (f r).id = r.id) (id : String) (hp : ∀ r, p r = true → r.id = id) :
    (db.updateJobs p f hf = db ∧ db.jobs.rows.countP p = 0 ∧
      ∀ r, db.job? id = some r → p r = false) ∨
    ∃ r, db.job? id = some r ∧ p r = true ∧ db.jobs.rows.countP p = 1 ∧
      ∀ id', (db.updateJobs p f hf).job? id' = if id' = id then some (f r) else db.job? id' := by
  have hcount : db.jobs.rows.countP p = if (db.job? id).any p then 1 else 0 :=
    Table.countP_eq_of_key (fun r : JobRow => r.id) (fun _ _ h => h) db.jobs hp
  -- the row of `id` meets the condition, or no row does
  by_cases hany : ∃ r, db.job? id = some r ∧ p r = true
  · obtain ⟨r, hr, hpr⟩ := hany
    refine Or.inr ⟨r, hr, hpr, by simp [hcount, hr, hpr], fun id' => ?_⟩
    rw [job?_updateJobs]
    by_cases hid : id' = id
    · simp [hid, hr, hpr]
    · rw [if_neg hid]
      cases hr' : db.job? id' with
      | none => rfl
      | some r' =>
          have hne : ¬ p r' = true := fun h => hid ((id_of_job? hr').symm.trans (hp r' h))
          simp [hne]
  · have hnone : ∀ r, db.job? id = some r → p r = false := fun r hr =>
      Bool.eq_false_iff.mpr fun hpr => hany ⟨r, hr, hpr⟩
    refine Or.inl ⟨updateJobs_of_none db hf fun r hr => ?_, ?_, hnone⟩
    · by_contra hpr
      have hpr : p r = true := by simpa using hpr
      exact hany ⟨r, hp r hpr ▸ job?_of_mem hr, hpr⟩
    · cases hj : db.job? id with
      | none => simp [hcount, hj]
      | some r => simp [hcount, hj, hnone r hj]

/-- Such a statement changes the jobs if and only if the row of that id meets the condition. -/
theorem updateJobs_jobs_ne_iff (db : Database) {p : JobRow → Bool} {f : JobRow → JobRow}
    (hf : ∀ r, (f r).id = r.id) (id : String) (hp : ∀ r, p r = true → r.id = id)
    (hne : ∀ r, p r = true → f r ≠ r) :
    (db.updateJobs p f hf).jobs ≠ db.jobs ↔ ∃ r, db.job? id = some r ∧ p r = true := by
  rcases updateJobs_cases db hf id hp with ⟨heq, -, hno⟩ | ⟨r, hr, hpr, -, hall⟩
  · rw [heq]
    refine ⟨fun h => absurd rfl h, ?_⟩
    rintro ⟨r, hr, hpr⟩
    rw [hno r hr] at hpr
    cases hpr
  · refine iff_of_true (fun hjobs => ?_) ⟨r, hr, hpr⟩
    have hrow : db.job? id = some (f r) := by
      have hafter := (hall id).trans (if_pos rfl)
      unfold job? at hafter ⊢
      rwa [hjobs] at hafter
    exact hne r hpr (Option.some.inj (hrow.symm.trans hr))

/-- `recover_interrupted_jobs`: the number is the count of changed rows. -/
def recoverInterruptedJobs (db : Database) (now : Int) : Database × Nat :=
  let p : JobRow → Bool := fun r => r.state = .printing
  (db.updateJobs p (·.recover now) (·.recover_id now), db.jobs.rows.countP p)

/-- The queued jobs with the least `created_at`. -/
def oldestQueued (db : Database) : List JobRow :=
  db.jobs.rows.filter fun r =>
    r.state = .queued ∧ ∀ q ∈ db.jobs.rows, q.state = .queued → r.createdAt ≤ q.createdAt

/-- `SELECT id FROM jobs WHERE state = 'queued' ORDER BY created_at LIMIT 1`. -/
def nextQueued (db : Database) (tie : Nat) : Option String :=
  (db.oldestQueued[tie % db.oldestQueued.length]?).map fun r => r.id

/-- `claim_next_job`: one `UPDATE ... RETURNING` statement. -/
def claimNextJob (db : Database) (now : Int) (tie : Nat) : Database × Option JobRow :=
  match db.nextQueued tie with
  | none => (db, none)
  | some id =>
      let p : JobRow → Bool := fun r => r.id = id ∧ r.state = .queued
      (db.updateJobs p (·.claim now) (·.claim_id now),
        (db.jobs.rows.find? p).map fun r => r.claim now)

/-- `finish_job`. -/
def finishJob (db : Database) (id : String) (state : JobState) (detail : String) (now : Int) :
    Database :=
  db.updateJobs (fun r => r.id = id ∧ r.state = .printing) (·.finish state detail now)
    (·.finish_id now state detail)

/-- `cancel_job`: whether exactly one row changed. -/
def cancelJob (db : Database) (id clientId : String) (now : Int) : Database × Bool :=
  let p : JobRow → Bool := fun r => r.id = id ∧ r.clientId = clientId ∧ r.state = .queued
  (db.updateJobs p (·.cancel now) (·.cancel_id now), db.jobs.rows.countP p = 1)

/-- `retry_job`: whether exactly one row changed. -/
def retryJob (db : Database) (id clientId : String) (now : Int) : Database × Bool :=
  let p : JobRow → Bool := fun r =>
    r.id = id ∧ r.clientId = clientId ∧ (r.state = .failed ∨ r.state = .unknown) ∧ r.attempts < 3
  (db.updateJobs p (·.retry now) (·.retry_id now), db.jobs.rows.countP p = 1)

/-! ## What each statement does to a job -/

@[simp] theorem job?_recoverInterruptedJobs (db : Database) (now : Int) (id : String) :
    (db.recoverInterruptedJobs now).1.job? id =
      (db.job? id).map fun r => if r.state = .printing then r.recover now else r := by
  simp only [recoverInterruptedJobs, job?_updateJobs, decide_eq_true_eq]

/-- With no job in `printing`, recovery changes nothing. -/
theorem recoverInterruptedJobs_eq_self {db : Database}
    (h : ∀ r ∈ db.jobs.rows, r.state ≠ .printing) (now : Int) :
    (db.recoverInterruptedJobs now).1 = db :=
  updateJobs_of_none db (p := fun r => r.state = .printing) (f := (·.recover now))
    (·.recover_id now) fun r hr => by simpa using h r hr

theorem mem_oldestQueued {db : Database} {r : JobRow} :
    r ∈ db.oldestQueued ↔ r ∈ db.jobs.rows ∧ r.state = .queued ∧
      ∀ q ∈ db.jobs.rows, q.state = .queued → r.createdAt ≤ q.createdAt := by
  simp only [oldestQueued, List.mem_filter, decide_eq_true_eq]

theorem oldestQueued_eq_nil_iff (db : Database) :
    db.oldestQueued = [] ↔ ∀ r ∈ db.jobs.rows, r.state ≠ .queued := by
  constructor
  · intro hnil r hr hq
    -- a queued job with the least `created_at` is one of the oldest
    have hmem : r ∈ db.jobs.rows.filter (fun r => r.state = .queued) := by simp [hr, hq]
    cases hmin : (db.jobs.rows.filter fun r => r.state = .queued).argmin
        (fun r => r.createdAt) with
    | none =>
        rw [List.argmin_eq_none] at hmin
        simp [hmin] at hmem
    | some m =>
        have hm := List.argmin_mem hmin
        simp only [List.mem_filter, decide_eq_true_eq] at hm
        have hold : m ∈ db.oldestQueued := by
          refine mem_oldestQueued.mpr ⟨hm.1, hm.2, fun q hq hqs => ?_⟩
          exact List.le_of_mem_argmin (f := fun r : JobRow => r.createdAt)
            (by simp [hq, hqs]) hmin
        simp [hnil] at hold
  · intro h
    rw [List.eq_nil_iff_forall_not_mem]
    intro r hr
    obtain ⟨hmem, hq, -⟩ := mem_oldestQueued.mp hr
    exact h r hmem hq

/-- The select of `claim_next_job` finds a job exactly when one is queued. -/
theorem nextQueued_eq_none_iff (db : Database) (tie : Nat) :
    db.nextQueued tie = none ↔ ∀ r ∈ db.jobs.rows, r.state ≠ .queued := by
  rw [← oldestQueued_eq_nil_iff, nextQueued, Option.map_eq_none_iff, List.getElem?_eq_none_iff]
  constructor
  · intro hlen
    by_contra hne
    exact absurd hlen (Nat.not_le.mpr (Nat.mod_lt _ (List.length_pos_iff.mpr hne)))
  · intro hnil
    simp [hnil]

theorem nextQueued_eq_some {db : Database} {tie : Nat} {id : String}
    (h : db.nextQueued tie = some id) :
    ∃ r, db.job? id = some r ∧ r.state = .queued ∧
      ∀ q ∈ db.jobs.rows, q.state = .queued → r.createdAt ≤ q.createdAt := by
  simp only [nextQueued, Option.map_eq_some_iff] at h
  obtain ⟨r, hr, rfl⟩ := h
  obtain ⟨hmem, hq⟩ := mem_oldestQueued.mp (List.mem_of_getElem? hr)
  exact ⟨r, job?_of_mem hmem, hq⟩

/-- What `claim_next_job` can do: find nothing queued and change nothing, or
    take one of the oldest queued jobs. -/
theorem claimNextJob_cases (db : Database) (now : Int) (tie : Nat) :
    (db.claimNextJob now tie = (db, none) ∧ ∀ r ∈ db.jobs.rows, r.state ≠ .queued) ∨
    ∃ r, db.nextQueued tie = some r.id ∧ db.job? r.id = some r ∧ r.state = .queued ∧
      (∀ q ∈ db.jobs.rows, q.state = .queued → r.createdAt ≤ q.createdAt) ∧
      (db.claimNextJob now tie).2 = some (r.claim now) ∧
      ∀ id, (db.claimNextJob now tie).1.job? id =
        if id = r.id then some (r.claim now) else db.job? id := by
  cases hnext : db.nextQueued tie with
  | none =>
      exact Or.inl ⟨by simp [claimNextJob, hnext], (nextQueued_eq_none_iff db tie).mp hnext⟩
  | some id =>
      obtain ⟨r, hr, hq, hmin⟩ := nextQueued_eq_some hnext
      obtain rfl := id_of_job? hr
      refine Or.inr ⟨r, rfl, hr, hq, hmin, ?_, ?_⟩
      · have hfind : db.jobs.rows.find? (fun q => q.id = r.id ∧ q.state = .queued) = some r := by
          rw [List.find?_eq_some_iff_append]
          -- no earlier row has this id, so none meets the condition
          have hfirst := List.find?_eq_some_iff_append.mp hr
          obtain ⟨-, pre, post, heq, hpre⟩ := hfirst
          refine ⟨by simp [hq], pre, post, heq, fun q hqm => ?_⟩
          have := hpre q hqm
          simp only [Bool.not_eq_true', decide_eq_false_iff_not] at this ⊢
          exact fun hc => this hc.1
        simp only [claimNextJob, hnext, hfind, Option.map_some]
      · rcases updateJobs_cases db (p := fun q => q.id = r.id ∧ q.state = .queued)
          (f := (·.claim now)) (·.claim_id now) r.id (by simp +contextual) with
          ⟨-, -, hno⟩ | ⟨r', hr', -, -, hall⟩
        · simpa [hq] using hno r hr
        · obtain rfl : r = r' := Option.some.inj (hr.symm.trans hr')
          simpa only [claimNextJob, hnext] using hall

/-- What `finish_job` can do: nothing, when the job is not printing, or record
    the outcome. -/
theorem finishJob_cases (db : Database) (id : String) (state : JobState) (detail : String)
    (now : Int) :
    (db.finishJob id state detail now = db ∧ ∀ r, db.job? id = some r → r.state ≠ .printing) ∨
    ∃ r, db.job? id = some r ∧ r.state = .printing ∧
      ∀ id', (db.finishJob id state detail now).job? id' =
        if id' = id then some (r.finish state detail now) else db.job? id' := by
  rcases updateJobs_cases db (p := fun r => r.id = id ∧ r.state = .printing)
    (f := (·.finish state detail now)) (·.finish_id now state detail) id
    (by simp +contextual) with
    ⟨heq, -, hno⟩ | ⟨r, hr, hp, -, hall⟩
  · refine Or.inl ⟨heq, fun r hr hs => ?_⟩
    simpa [id_of_job? hr, hs] using hno r hr
  · exact Or.inr ⟨r, hr, by simpa [id_of_job? hr] using hp, hall⟩

/-- What `cancel_job` can do: refuse, or cancel the client's own queued job. -/
theorem cancelJob_cases (db : Database) (id clientId : String) (now : Int) :
    db.cancelJob id clientId now = (db, false) ∨
    ∃ r, db.job? id = some r ∧ r.clientId = clientId ∧ r.state = .queued ∧
      (db.cancelJob id clientId now).2 = true ∧
      ∀ id', (db.cancelJob id clientId now).1.job? id' =
        if id' = id then some (r.cancel now) else db.job? id' := by
  rcases updateJobs_cases db
    (p := fun r => r.id = id ∧ r.clientId = clientId ∧ r.state = .queued)
    (f := (·.cancel now)) (·.cancel_id now) id (by simp +contextual) with
    ⟨heq, hcount, -⟩ | ⟨r, hr, hp, hcount, hall⟩
  · exact Or.inl (by simp only [cancelJob, heq, hcount]; rfl)
  · have hp' : r.clientId = clientId ∧ r.state = .queued := by simpa [id_of_job? hr] using hp
    exact Or.inr ⟨r, hr, hp'.1, hp'.2, by simp only [cancelJob, hcount]; rfl, hall⟩

theorem cancelJob_jobs_ne_iff (db : Database) (id clientId : String) (now : Int) :
    (db.cancelJob id clientId now).1.jobs ≠ db.jobs ↔
      ∃ r, db.job? id = some r ∧ r.clientId = clientId ∧ r.state = .queued := by
  refine (updateJobs_jobs_ne_iff db (p := fun r => r.id = id ∧ r.clientId = clientId ∧
    r.state = .queued) (·.cancel_id now) id (by simp +contextual) fun r hp heq => ?_).trans ?_
  · have hstate : r.state = .queued := by
      simp only [decide_eq_true_eq] at hp
      exact hp.2.2
    have hcanceled : r.state = .canceled := congrArg (·.state) heq.symm
    rw [hstate] at hcanceled
    cases hcanceled
  · refine exists_congr fun r => and_congr_right fun hr => ?_
    simp [id_of_job? hr]

/-- What `retry_job` can do: refuse, or requeue the client's own failed or
    unknown job that has attempts left. -/
theorem retryJob_cases (db : Database) (id clientId : String) (now : Int) :
    db.retryJob id clientId now = (db, false) ∨
    ∃ r, db.job? id = some r ∧ r.clientId = clientId ∧
      (r.state = .failed ∨ r.state = .unknown) ∧ r.attempts < 3 ∧
      (db.retryJob id clientId now).2 = true ∧
      ∀ id', (db.retryJob id clientId now).1.job? id' =
        if id' = id then some (r.retry now) else db.job? id' := by
  rcases updateJobs_cases db
    (p := fun r => r.id = id ∧ r.clientId = clientId ∧
      (r.state = .failed ∨ r.state = .unknown) ∧ r.attempts < 3)
    (f := (·.retry now)) (·.retry_id now) id (by simp +contextual) with
    ⟨heq, hcount, -⟩ | ⟨r, hr, hp, hcount, hall⟩
  · exact Or.inl (by simp only [retryJob, heq, hcount]; rfl)
  · have hp' : r.clientId = clientId ∧ (r.state = .failed ∨ r.state = .unknown) ∧
        r.attempts < 3 := by simpa [id_of_job? hr] using hp
    exact Or.inr ⟨r, hr, hp'.1, hp'.2.1, hp'.2.2, by simp only [retryJob, hcount]; rfl, hall⟩

theorem retryJob_jobs_ne_iff (db : Database) (id clientId : String) (now : Int) :
    (db.retryJob id clientId now).1.jobs ≠ db.jobs ↔
      ∃ r, db.job? id = some r ∧ r.clientId = clientId ∧
        (r.state = .failed ∨ r.state = .unknown) ∧ r.attempts < 3 := by
  refine (updateJobs_jobs_ne_iff db (p := fun r => r.id = id ∧ r.clientId = clientId ∧
    (r.state = .failed ∨ r.state = .unknown) ∧ r.attempts < 3) (·.retry_id now) id
    (by simp +contextual) fun r hp heq => ?_).trans ?_
  · have hstate : r.state = .failed ∨ r.state = .unknown := by
      simp only [decide_eq_true_eq] at hp
      exact hp.2.2.1
    have hqueued : r.state = .queued := congrArg (·.state) heq.symm
    rw [hqueued] at hstate
    rcases hstate with h | h <;> cases h
  · refine exists_congr fun r => and_congr_right fun hr => ?_
    simp [id_of_job? hr]

/-! ## Insertion -/

/-- `insert_job`: the row must reference a client, hold 1 to 10 copies and have
    an id that is not in use. -/
def insertJob (db : Database) (job : NewJob) (now : Int) : Except DbError Database :=
  if 2 ^ 63 ≤ job.byteCount then .error (.message "job byte count is out of range")
  else if db.client? job.clientId = none then .error .foreignKey
  else if job.copies < 1 ∨ 10 < job.copies then .error .check
  else
    match db.jobs.insert? (job.row now) with
    | none => .error .unique
    | some jobs => .ok { db with jobs := jobs }

/-- A job that could be inserted is there, its id was not in use, and every
    other job is as before. -/
theorem insertJob_ok {db db' : Database} {job : NewJob} {now : Int}
    (h : db.insertJob job now = .ok db') :
    db.job? job.id = none ∧ db'.clients = db.clients ∧
      ∀ id, db'.job? id = if id = job.id then some (job.row now) else db.job? id := by
  unfold insertJob at h
  split at h
  · cases h
  split at h
  · cases h
  split at h
  · cases h
  split at h
  · cases h
  next jobs hins =>
    cases h
    obtain ⟨hfree, hall⟩ := Table.lookup_insert? (fun r : JobRow => r.id) (fun _ _ h => h) hins
    exact ⟨hfree, rfl, hall⟩

/-- A row after an insertion is the new one, or was there before. -/
theorem row_of_insertJob {db db' : Database} {job : NewJob} {now : Int} {id : String} {r : JobRow}
    (h : db.insertJob job now = .ok db') (hr : db'.job? id = some r) :
    (id = job.id ∧ r = job.row now) ∨ db.job? id = some r := by
  rw [(insertJob_ok h).2.2] at hr
  split at hr
  · next hid => exact .inl ⟨hid, (Option.some.inj hr).symm⟩
  · exact .inr hr

/-- What `insert_job` asks of a job whose id is not in use. -/
def insertable (db : Database) (job : NewJob) : Prop :=
  job.byteCount < 2 ^ 63 ∧ db.client? job.clientId ≠ none ∧ 1 ≤ job.copies ∧ job.copies ≤ 10

instance (db : Database) (job : NewJob) : Decidable (db.insertable job) := by
  unfold insertable; infer_instance

/-- `insert_job` of a job whose id is not in use. -/
theorem insertJob_of_free {db : Database} (job : NewJob) (hfree : db.job? job.id = none)
    (now : Int) :
    if db.insertable job then
      ∃ db', db.insertJob job now = .ok db' ∧ db'.clients = db.clients ∧
        ∀ r, r ∈ db'.jobs.rows ↔ r ∈ db.jobs.rows ∨ r = job.row now
    else ∃ error, db.insertJob job now = .error error := by
  unfold insertJob
  split
  · next hok =>
      obtain ⟨hbytes, hclient, hleast, hmost⟩ := hok
      rw [if_neg (by omega), if_neg hclient, if_neg (by omega)]
      -- a free id clashes with no row
      have hsome : (db.jobs.insert? (job.row now)).isSome :=
        Table.insert?_isSome.mpr fun r hr heq =>
          (Table.lookup_eq_none fun r : JobRow => r.id).mp hfree r hr heq
      obtain ⟨jobs, hins⟩ := Option.isSome_iff_exists.mp hsome
      rw [hins]
      refine ⟨_, rfl, rfl, fun r => ?_⟩
      show r ∈ jobs.rows ↔ _
      rw [Table.rows_of_insert? hins]
      simp
  · next hno =>
      split
      · exact ⟨_, rfl⟩
      · split
        · exact ⟨_, rfl⟩
        · split
          · exact ⟨_, rfl⟩
          · next hbytes hclient hcopies =>
              exact absurd ⟨by omega, hclient, by omega, by omega⟩ hno

/-- `insert_job` accepts the jobs with a free id that the schema allows, and no
    others. -/
theorem insertJob_isOk_iff (db : Database) (job : NewJob) (now : Int) :
    (∃ db', db.insertJob job now = .ok db') ↔ db.job? job.id = none ∧ db.insertable job := by
  constructor
  · rintro ⟨db', hdb⟩
    have hfree := (insertJob_ok hdb).1
    have hinsert := insertJob_of_free job hfree now
    refine ⟨hfree, ?_⟩
    by_contra hno
    rw [if_neg hno, hdb] at hinsert
    obtain ⟨error, herror⟩ := hinsert
    cases herror
  · rintro ⟨hfree, hok⟩
    have hinsert := insertJob_of_free job hfree now
    rw [if_pos hok] at hinsert
    obtain ⟨db', hdb, -⟩ := hinsert
    exact ⟨db', hdb⟩

/-! ## Reads -/

/-- `get_job_for_client`. -/
def getJobForClient (db : Database) (id clientId : String) : Option Job :=
  (db.jobs.rows.find? fun r => r.id = id ∧ r.clientId = clientId).map (·.toJob)

/-- `get_job_file_for_client`. -/
def getJobFileForClient (db : Database) (id clientId : String) : Option (Job × String) :=
  (db.jobs.rows.find? fun r => r.id = id ∧ r.clientId = clientId).map fun r =>
    (r.toJob, r.filePath)

/-- `job_state`. -/
def jobState (db : Database) (id clientId : String) : Option (JobState × Nat) :=
  (db.jobs.rows.find? fun r => r.id = id ∧ r.clientId = clientId).map fun r =>
    (r.state, r.attempts)

/-- `ORDER BY created_at DESC, id DESC`. -/
def newestFirst (a b : JobRow) : Bool :=
  b.createdAt < a.createdAt ∨ (b.createdAt = a.createdAt ∧ b.id ≤ a.id)

/-- `list_jobs_for_client`: the client's active jobs and its `limit` newest. -/
def listJobsForClient (db : Database) (clientId : String) (limit : Nat) : List Job :=
  let own := (db.jobs.rows.filter fun r => r.clientId = clientId).mergeSort newestFirst
  let recent := (own.take limit).map fun r => r.id
  (own.filter fun r => (r.state = .queued ∨ r.state = .printing) ∨ r.id ∈ recent).map (·.toJob)

/-! ## A client's own job -/

/-- The row of job `id`, when it is the client's. -/
def ownJob? (db : Database) (id clientId : String) : Option JobRow :=
  (db.job? id).filter fun r => r.clientId = clientId

theorem ownJob?_eq_some {db : Database} {id clientId : String} {r : JobRow} :
    db.ownJob? id clientId = some r ↔ r ∈ db.jobs.rows ∧ r.id = id ∧ r.clientId = clientId := by
  rw [ownJob?, Option.filter_eq_some_iff, job?_eq_some_iff, decide_eq_true_eq, and_assoc]

/-- `WHERE id = ?1 AND client_id = ?2`. -/
theorem find?_own (db : Database) (id clientId : String) :
    (db.jobs.rows.find? fun r => r.id = id ∧ r.clientId = clientId) = db.ownJob? id clientId := by
  have hfind := Table.find?_of_key (fun r : JobRow => r.id) (fun _ _ h => h) db.jobs
    (p := fun r => r.id = id ∧ r.clientId = clientId) (k := id) (by simp +contextual)
  rw [hfind]
  apply Option.ext
  intro r
  rw [ownJob?_eq_some, Option.filter_eq_some_iff]
  show db.job? id = some r ∧ _ ↔ _
  rw [job?_eq_some_iff, decide_eq_true_eq]
  -- both sides ask for the id and the client
  tauto

theorem getJobForClient_eq (db : Database) (id clientId : String) :
    db.getJobForClient id clientId = (db.ownJob? id clientId).map (·.toJob) := by
  rw [getJobForClient, find?_own]

theorem getJobFileForClient_eq (db : Database) (id clientId : String) :
    db.getJobFileForClient id clientId =
      (db.ownJob? id clientId).map fun r => (r.toJob, r.filePath) := by
  rw [getJobFileForClient, find?_own]

theorem jobState_eq (db : Database) (id clientId : String) :
    db.jobState id clientId = (db.ownJob? id clientId).map fun r => (r.state, r.attempts) := by
  rw [jobState, find?_own]

/-- The rows after an update. -/
theorem mem_updateJobs {db : Database} {p : JobRow → Bool} {f : JobRow → JobRow}
    (hf : ∀ r, (f r).id = r.id) {r : JobRow} :
    r ∈ (db.updateJobs p f hf).jobs.rows ↔
      ∃ r₀ ∈ db.jobs.rows, (if p r₀ then f r₀ else r₀) = r := List.mem_map

/-- The number of rows that a statement about a client's own job changes. -/
theorem countP_own (db : Database) {p : JobRow → Bool} {id clientId : String}
    (hp : ∀ r, p r = true → r.id = id ∧ r.clientId = clientId) :
    db.jobs.rows.countP p = if (db.ownJob? id clientId).any p then 1 else 0 := by
  rw [Table.countP_eq_of_key (fun r : JobRow => r.id) (fun _ _ h => h) db.jobs
    fun r hr => (hp r hr).1]
  have hany : (db.job? id).any p = (db.ownJob? id clientId).any p := by
    unfold ownJob?
    cases db.job? id with
    | none => rfl
    | some r =>
        by_cases hclient : r.clientId = clientId
        · simp [hclient]
        · have hno : p r = false := Bool.eq_false_iff.mpr fun hr => hclient (hp r hr).2
          simp [hclient, hno]
  show (if (db.job? id).any p then 1 else 0) = _
  rw [hany]

/-! ## Order -/

theorem newestFirst_trans (a b c : JobRow) (hab : newestFirst a b = true)
    (hbc : newestFirst b c = true) : newestFirst a c = true := by
  simp only [newestFirst, decide_eq_true_eq] at hab hbc ⊢
  rcases hab with hab | ⟨hab, hid⟩ <;> rcases hbc with hbc | ⟨hbc, hid'⟩
  · exact Or.inl (hbc.trans hab)
  · exact Or.inl (hbc ▸ hab)
  · exact Or.inl (hab ▸ hbc)
  · exact Or.inr ⟨hbc.trans hab, hid'.trans hid⟩

theorem newestFirst_total (a b : JobRow) : (newestFirst a b || newestFirst b a) = true := by
  simp only [newestFirst, Bool.or_eq_true, decide_eq_true_eq]
  -- ties in `created_at` are broken by the id
  rcases lt_trichotomy a.createdAt b.createdAt with h | h | h
  · exact Or.inr (Or.inl h)
  · rcases le_total a.id b.id with hid | hid
    · exact Or.inr (Or.inr ⟨h, hid⟩)
    · exact Or.inl (Or.inr ⟨h.symm, hid⟩)
  · exact Or.inl (Or.inl h)

/-- The order is strict on rows with different ids. -/
theorem id_eq_of_newestFirst {a b : JobRow} (hab : newestFirst a b = true)
    (hba : newestFirst b a = true) : a.id = b.id := by
  simp only [newestFirst, decide_eq_true_eq] at hab hba
  rcases hab with hab | ⟨hab, hid⟩ <;> rcases hba with hba | ⟨hba, hid'⟩
  · exact absurd (hab.trans hba) (lt_irrefl _)
  · exact absurd (hba ▸ hab) (lt_irrefl _)
  · exact absurd (hab ▸ hba) (lt_irrefl _)
  · exact le_antisymm hid' hid

end Database

end PrintLatch
