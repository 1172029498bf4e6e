/-
  PrintLatch.Queue.Overtaking

  How long a queued job waits for others.

  The machine here is the database alone: one input is one call of `src/db.rs` on
  the jobs, in any order and from any client; it shows the jobs that are claimed.
  A claim takes one of the oldest queued jobs and raises its attempts, a retry
  keeps them, and no operation queues a job that has used up three.  So each older
  job can be claimed at most as often as it has attempts left.
-/

import PrintLatch.Queue.System
import Mathlib.Algebra.BigOperators.Group.Finset.Basic
import Mathlib.Algebra.GroupWithZero.Nat
import Mathlib.Algebra.Order.BigOperators.Group.List
import Mathlib.Data.Multiset.Count

namespace PrintLatch.Queue

open Reactive

/-! ## The queue operations -/

/-- A call on the jobs, as the agent makes it. -/
inductive QueueOp where
  | create (parsed : ParsedJob) (report : PdfReport) (id client path : String) (now : Int)
  | claim (now : Int) (tie : Nat)
  | finish (id : String) (result : SubmitResult) (now : Int)
  | cancel (id client : String) (now : Int)
  | retry (id client : String) (now : Int)
  | recover (now : Int)
  deriving DecidableEq, Repr

/-- One call: the database after it, and the job it claimed. -/
def opStep (db : Database) : QueueOp → Database × List String
  | .create parsed report id client path now =>
      match db.insertJob (newJob parsed report id client path) now with
      | .ok db' => (db', [])
      | .error _ => (db, [])
  | .claim now tie =>
      match db.claimNextJob now tie with
      | (db', some job) => (db', [job.id])
      | (db', none) => (db', [])
  | .finish id result now => (db.finishJob id result.outcome.1 result.outcome.2 now, [])
  | .cancel id client now => ((db.cancelJob id client now).1, [])
  | .retry id client now => ((db.retryJob id client now).1, [])
  | .recover now => ((db.recoverInterruptedJobs now).1, [])

/-- Everything a call can do to job `i`, with the jobs it claimed. -/
inductive OpMove (i : String) : Option JobRow → List String → Option JobRow → Prop
  | absent (claimed : List String) (other : i ∉ claimed) : OpMove i none claimed none
  | create (r : JobRow) (unused : r.attempts = 0) : OpMove i none [] (some r)
  | claim (now : Int) (r : JobRow) (queued : r.state = .queued) :
      OpMove i (some r) [i] (some (r.claim now))
  | keep (r r' : JobRow) (claimed : List String) (other : i ∉ claimed)
      (attempts : r'.attempts = r.attempts) (createdAt : r'.createdAt = r.createdAt)
      (queued : r'.state = .queued → r.state = .queued ∨ r.attempts < 3) :
      OpMove i (some r) claimed (some r')

/-- A call that is not about job `i`. -/
theorem OpMove.same {i : String} (row : Option JobRow) {claimed : List String}
    (other : i ∉ claimed) : OpMove i row claimed row := by
  cases row with
  | none => exact .absent claimed other
  | some r => exact .keep r r claimed other rfl rfl Or.inl

/-- A call that claims nothing and changes the row of one job, to `r'`. -/
theorem OpMove.of_update {db db' : Database} {id : String} {r : JobRow}
    (hrow : db.job? id = some r) (r' : JobRow) (hattempts : r'.attempts = r.attempts)
    (hcreated : r'.createdAt = r.createdAt)
    (hqueued : r'.state = .queued → r.state = .queued ∨ r.attempts < 3)
    (hall : ∀ id', db'.job? id' = if id' = id then some r' else db.job? id') (i : String) :
    OpMove i (db.job? i) [] (db'.job? i) := by
  rw [hall]
  by_cases hi : i = id
  · rw [if_pos hi, hi, hrow]
    exact .keep r r' [] (by simp) hattempts hcreated hqueued
  · rw [if_neg hi]
    exact .same _ (by simp)

/-- **The inversion lemma of the queue operations.** -/
theorem opMove_of_step (db : Database) (op : QueueOp) (i : String) :
    OpMove i (db.job? i) (opStep db op).2 ((opStep db op).1.job? i) := by
  cases op with
  | create parsed report id client path now =>
      simp only [opStep]
      split
      · next db' hins =>
          obtain ⟨hfree, -, hall⟩ := Database.insertJob_ok hins
          rw [hall]
          by_cases hi : i = (newJob parsed report id client path).id
          · rw [if_pos hi, hi, hfree]
            exact .create _ rfl
          · rw [if_neg hi]
            exact .same _ (by simp)
      · exact .same _ (by simp)
  | claim now tie =>
      simp only [opStep]
      rcases db.claimNextJob_cases now tie with ⟨heq, -⟩ | ⟨r, -, hr, hq, -, hsnd, hall⟩
      · rw [heq]
        exact .same _ (by simp)
      · have heq : db.claimNextJob now tie =
            ((db.claimNextJob now tie).1, some (r.claim now)) := by rw [← hsnd]
        rw [heq]
        dsimp only
        rw [hall]
        by_cases hi : i = r.id
        · rw [if_pos hi, hi, hr]
          exact .claim now r hq
        · rw [if_neg hi]
          exact .same _ (by simpa using hi)
  | finish id result now =>
      rcases db.finishJob_cases id result.outcome.1 result.outcome.2 now with
        ⟨heq, -⟩ | ⟨r, hr, -, hall⟩
      · simp only [opStep, heq]
        exact .same _ (by simp)
      · refine .of_update hr (r.finish result.outcome.1 result.outcome.2 now) rfl rfl
          (fun hq => ?_) hall i
        -- an outcome is an end
        rcases outcome_state result with hs | hs <;> rw [JobRow.finish_state, hs] at hq <;> cases hq
  | cancel id client now =>
      rcases db.cancelJob_cases id client now with heq | ⟨r, hr, -, -, -, hall⟩
      · simp only [opStep, heq]
        exact .same _ (by simp)
      · exact .of_update hr (r.cancel now) rfl rfl nofun hall i
  | retry id client now =>
      rcases db.retryJob_cases id client now with heq | ⟨r, hr, -, -, hleft, -, hall⟩
      · simp only [opStep, heq]
        exact .same _ (by simp)
      · exact .of_update hr (r.retry now) rfl rfl (fun _ => Or.inr hleft) hall i
  | recover now =>
      simp only [opStep, Database.job?_recoverInterruptedJobs]
      cases db.job? i with
      | none => exact .absent [] (by simp)
      | some r =>
          show OpMove i (some r) [] (some (if r.state = .printing then r.recover now else r))
          split
          · exact .keep r _ [] (by simp) rfl rfl nofun
          · exact .same _ (by simp)

/-- A claimed job was one of the oldest in the queue, and is printing now. -/
theorem claimed_of_opStep {db : Database} {op : QueueOp} {i : String}
    (h : i ∈ (opStep db op).2) :
    ∃ now r, db.job? i = some r ∧
      (∀ q ∈ db.jobs.rows, q.state = .queued → r.createdAt ≤ q.createdAt) ∧
      (opStep db op).1.job? i = some (r.claim now) := by
  cases op with
  | claim now tie =>
      simp only [opStep] at h ⊢
      rcases db.claimNextJob_cases now tie with ⟨heq, -⟩ | ⟨r, -, hr, -, hold, hsnd, hall⟩
      · rw [heq] at h
        cases h
      · have heq : db.claimNextJob now tie =
            ((db.claimNextJob now tie).1, some (r.claim now)) := by rw [← hsnd]
        rw [heq] at h ⊢
        obtain rfl : i = r.id := List.mem_singleton.mp h
        exact ⟨now, r, hr, hold, (hall _).trans (if_pos rfl)⟩
  | create parsed report id client path now =>
      simp only [opStep] at h
      split at h <;> cases h
  | finish | cancel | retry | recover => cases h

/-! ## Attempts -/

/-- The attempts of job `i`; a job that is not there has made none. -/
def attemptsOf (db : Database) (i : String) : Nat := ((db.job? i).map fun r => r.attempts).getD 0

theorem attemptsOf_of_row {db : Database} {i : String} {r : JobRow} (h : db.job? i = some r) :
    attemptsOf db i = r.attempts := by
  simp [attemptsOf, h]

/-- The attempts count the claims. -/
theorem attemptsOf_opStep (db : Database) (op : QueueOp) (i : String) :
    attemptsOf (opStep db op).1 i = attemptsOf db i + (opStep db op).2.count i := by
  have hmove := opMove_of_step db op i
  unfold attemptsOf
  generalize (opStep db op).1.job? i = row' at hmove ⊢
  generalize (opStep db op).2 = claimed at hmove ⊢
  generalize db.job? i = row at hmove ⊢
  cases hmove with
  | absent claimed other => simp [List.count_eq_zero.mpr other]
  | create r unused => simp [unused]
  | claim now r queued => simp
  | keep r r' claimed other attempts createdAt queued =>
      simp [List.count_eq_zero.mpr other, attempts]

/-- No job has made more than three attempts, and a queued job has one left. -/
def AttemptsLeft (db : Database) : Prop :=
  ∀ i r, db.job? i = some r → r.attempts ≤ 3 ∧ (r.state = .queued → r.attempts < 3)

theorem attemptsLeft_opStep {db : Database} (h : AttemptsLeft db) (op : QueueOp) :
    AttemptsLeft (opStep db op).1 := by
  intro i r hr
  have hmove := opMove_of_step db op i
  have hbefore := h i
  generalize (opStep db op).2 = claimed at hmove
  generalize db.job? i = row at hmove hbefore
  rw [hr] at hmove
  cases hmove with
  | create r unused => omega
  | claim now r queued =>
      have hleft := (hbefore r rfl).2 queued
      exact ⟨hleft, nofun⟩
  | keep r₀ r claimed other attempts createdAt queued =>
      obtain ⟨hle, hleft⟩ := hbefore r₀ rfl
      rw [attempts]
      exact ⟨hle, fun hq => (queued hq).elim hleft id⟩

theorem attemptsLeft_run (db : Database) (ops : List QueueOp) :
    AttemptsLeft (run opStep { db with jobs := Relational.Table.empty _ } ops) :=
  run_invariant (fun _ db => AttemptsLeft db) (fun _ _ h => by cases h)
    (fun _ _ op h => attemptsLeft_opStep h op) ops

/-! ## A stretch in which a job waits -/

/-- Job `j` is in the queue. -/
def InQueue (db : Database) (j : String) : Prop := ∃ r, db.job? j = some r ∧ r.state = .queued

/-- A job keeps its place and its `created_at`. -/
theorem createdAt_opStep {db : Database} (op : QueueOp) {i : String} {r : JobRow}
    (h : db.job? i = some r) :
    ∃ r', (opStep db op).1.job? i = some r' ∧ r'.createdAt = r.createdAt := by
  have hmove := opMove_of_step db op i
  generalize (opStep db op).1.job? i = row' at hmove ⊢
  generalize (opStep db op).2 = claimed at hmove
  rw [h] at hmove
  cases hmove with
  | claim now r queued => exact ⟨_, rfl, rfl⟩
  | keep r r' claimed other attempts createdAt queued => exact ⟨r', rfl, createdAt⟩

/-- What holds in a stretch that began at `start`, after the jobs `claimed` were claimed,
    while job `j` from the second `c` waits. -/
structure Waiting (start : Database) (j : String) (c : Int) (claimed : List String)
    (db : Database) : Prop where
  counts : ∀ i, attemptsOf db i = attemptsOf start i + claimed.count i
  older : ∀ i ∈ claimed, i ≠ j ∧ ∃ r, db.job? i = some r ∧ r.createdAt ≤ c
  place : ∃ r, db.job? j = some r ∧ r.createdAt = c

theorem Waiting.opStep {start db : Database} {j : String} {c : Int} {claimed : List String}
    (h : Waiting start j c claimed db) {op : QueueOp} (hbefore : InQueue db j)
    (hafter : InQueue (opStep db op).1 j) :
    Waiting start j c (claimed ++ (opStep db op).2) (opStep db op).1 where
  counts i := by rw [attemptsOf_opStep, h.counts, List.count_append, Nat.add_assoc]
  older i hi := by
    rcases List.mem_append.mp hi with hi | hi
    · obtain ⟨hne, r, hr, hle⟩ := h.older i hi
      obtain ⟨r', hr', hcreated⟩ := createdAt_opStep op hr
      exact ⟨hne, r', hr', hcreated ▸ hle⟩
    · obtain ⟨now, r, hr, hold, hprinting⟩ := claimed_of_opStep hi
      -- `j` was in the queue, so the claimed job is no newer; and `j` still is
      obtain ⟨q, hq, hqueued⟩ := hbefore
      obtain ⟨q', hq', hc⟩ := h.place
      obtain rfl : q = q' := Option.some.inj (hq.symm.trans hq')
      refine ⟨?_, _, hprinting, hc ▸ hold q (Database.mem_of_job? hq) hqueued⟩
      rintro rfl
      obtain ⟨p, hp, hpq⟩ := hafter
      obtain rfl := Option.some.inj (hprinting.symm.trans hp)
      cases hpq
  place := by
    obtain ⟨r, hr, hc⟩ := h.place
    obtain ⟨r', hr', hcreated⟩ := createdAt_opStep op hr
    exact ⟨r', hr', hcreated.trans hc⟩

/-- A list is as long as its members are counted, row by row. -/
theorem length_eq_sum_count {α β : Type*} [DecidableEq β] {key : α → β} {rows : List α}
    {l : List β} (hnodup : (rows.map key).Nodup) (hmem : ∀ b ∈ l, b ∈ rows.map key) :
    l.length = (rows.map fun r => l.count (key r)).sum := by
  have hcard : ∑ b ∈ (rows.map key).toFinset, Multiset.count b (l : Multiset β) = l.length :=
    Multiset.sum_count_eq_card fun b hb => List.mem_toFinset.mpr (hmem b hb)
  rw [← hcard, List.sum_toFinset _ hnodup, List.map_map]
  simp only [Function.comp_def, Multiset.coe_count]

/-- **Overtaking is bounded.**  In every run of the queue operations, while job `j`
    stays in the queue, the jobs that are claimed are no newer than `j`, and there are
    at most as many claims as the other jobs that are no newer had attempts left when
    the stretch began. -/
theorem bounded_overtaking (db : Database) (before stretch : List QueueOp) (j : String)
    (hstay : ∀ ops, ops <+: stretch →
      InQueue (run opStep { db with jobs := Relational.Table.empty _ } (before ++ ops)) j) :
    let start := run opStep { db with jobs := Relational.Table.empty _ } before
    let finish := run opStep start stretch
    let claimed := trace opStep start stretch
    ∃ waiting, start.job? j = some waiting ∧
      (∀ i ∈ claimed, i ≠ j ∧ ∃ r, finish.job? i = some r ∧
        r.createdAt ≤ waiting.createdAt) ∧
      claimed.length ≤ ((finish.jobs.rows.filter fun r =>
        r.id ≠ j ∧ r.createdAt ≤ waiting.createdAt).map fun r =>
          3 - attemptsOf start r.id).sum := by
  intro start finish claimed
  have hqueue : ∀ ops, ops <+: stretch → InQueue (run opStep start ops) j := fun ops hops => by
    rw [← run_append]
    exact hstay ops hops
  obtain ⟨waiting, hwaiting, -⟩ := hqueue [] (List.nil_prefix)
  have hinv : Waiting start j waiting.createdAt claimed finish := by
    have hok : Along opStep (fun _ db op => InQueue db j ∧ InQueue (opStep db op).1 j) start
        stretch := by
      rintro pre op post rfl
      refine ⟨hqueue pre (List.prefix_append ..), ?_⟩
      rw [← run_concat]
      exact hqueue _ (by simp)
    refine run_history_invariant (Waiting start j waiting.createdAt)
      ⟨fun i => by simp, by simp, waiting, hwaiting, rfl⟩ (fun _ _ op hguard h => ?_) hok
    exact h.opStep hguard.1 hguard.2
  have hleft : AttemptsLeft finish := by
    show AttemptsLeft (run opStep start stretch)
    rw [← run_append]
    exact attemptsLeft_run db (before ++ stretch)
  refine ⟨waiting, hwaiting, hinv.older, ?_⟩
  have hnodup : ((finish.jobs.rows.filter fun r =>
      r.id ≠ j ∧ r.createdAt ≤ waiting.createdAt).map fun r => r.id).Nodup :=
    List.pairwise_map.mpr (finish.jobs.distinct.filter _)
  rw [length_eq_sum_count hnodup fun i hi => ?_]
  · -- each of the jobs is claimed at most as often as it has attempts left
    refine List.sum_le_sum fun r hr => ?_
    have hrow := Database.job?_of_mem (List.mem_of_mem_filter hr)
    have hcount := hinv.counts r.id
    have hle := (hleft r.id r hrow).1
    rw [attemptsOf_of_row hrow] at hcount
    omega
  · obtain ⟨hne, r, hr, hle⟩ := hinv.older i hi
    obtain rfl := Database.id_of_job? hr
    refine List.mem_map_of_mem (List.mem_filter.mpr ⟨Database.mem_of_job? hr, ?_⟩)
    simpa using ⟨hne, hle⟩

/-- Two jobs of one second. -/
def exampleQueue : List QueueOp :=
  ["j1", "j2"].map fun id =>
    .create ⟨[], "application/pdf", .print, capturePrinterId, 1⟩ ⟨9, 1, "d1"⟩ id "c1"
      s!"C:\\PrintLatch\\jobs\\{id}.pdf" 1

/-- The first is claimed, fails, is retried and claimed again, while the second waits. -/
def exampleStretch : List QueueOp :=
  [.claim 2 0, .finish "j1" (.err "could not write C:\\PrintLatch\\captures\\j1.pdf") 3,
    .retry "j1" "c1" 4, .claim 5 0]

theorem bounded_overtaking_of_exampleStretch :
    let start := run opStep { exampleDatabase with jobs := Relational.Table.empty _ } exampleQueue
    trace opStep start exampleStretch = ["j1", "j1"] ∧
      ∃ waiting, start.job? "j2" = some waiting ∧
        (trace opStep start exampleStretch).length ≤
          (((run opStep start exampleStretch).jobs.rows.filter fun r =>
            r.id ≠ "j2" ∧ r.createdAt ≤ waiting.createdAt).map fun r =>
              3 - attemptsOf start r.id).sum := by
  intro start
  have hstay : ∀ ops ∈ exampleStretch.inits, ((run opStep
      { exampleDatabase with jobs := Relational.Table.empty _ } (exampleQueue ++ ops)).job?
      "j2").map (fun r => r.state) = some .queued := by decide
  obtain ⟨waiting, hwaiting, -, hlength⟩ := bounded_overtaking exampleDatabase exampleQueue
    exampleStretch "j2" fun ops hops =>
      Option.map_eq_some_iff.mp (hstay ops ((List.mem_inits ops exampleStretch).mpr hops))
  exact ⟨by decide, waiting, hwaiting, hlength⟩

/-! ## The system's calls -/

/-- The queue operation that a step of the system makes. -/
def opOf (w : World) : Input → Option QueueOp
  | .create parsed report id client path now => some (.create parsed report id client path now)
  | .cancel id client now => some (.cancel id client now)
  | .retry id client now => some (.retry id client now)
  | .start pid _ now => if (w.procs pid).isSome then none else some (.recover now)
  | .worker pid input =>
      match w.procs pid with
      | none => none
      | some p =>
          match p.worker, input with
          | .ready, .claim now tie => some (.claim now tie)
          | .finishing job result, .finish now => some (.finish job.id result now)
          | _, _ => none
  | _ => none

/-- The job that an observation reports as claimed. -/
def claimedJob? : Obs → Option String
  | .claimed _ job _ => some job
  | _ => none

/-- A step of the system is one queue operation or none, with the same claims. -/
theorem step_eq_opStep (sha256Hex : List UInt8 → String) (w : World) (i : Input) :
    ((step sha256Hex w i).1.db, (step sha256Hex w i).2.filterMap claimedJob?) =
      match opOf w i with
      | none => (w.db, [])
      | some op => opStep w.db op := by
  cases i with
  | create parsed report id client path now =>
      simp only [step, opOf, opStep]
      cases w.db.insertJob (newJob parsed report id client path) now with
      | error error => rfl
      | ok db => simp [claimedJob?]
  | cancel id client now =>
      simp only [step, opOf, opStep]
      split <;> simp [claimedJob?]
  | retry id client now =>
      simp only [step, opOf, opStep]
      split <;> simp [claimedJob?]
  | start pid config now =>
      simp only [step, opOf]
      cases w.procs pid with
      | some p => rfl
      | none =>
          have hnone : ((w.db.jobs.rows.filter fun r => r.state = .printing).map fun r =>
              Obs.recovered pid r.id).filterMap claimedJob? = [] := by
            rw [List.filterMap_eq_nil_iff]
            intro o ho
            obtain ⟨r, -, rfl⟩ := List.mem_map.mp ho
            rfl
          simp only [hnone]
          rfl
  | bind pid =>
      simp only [step, opOf]
      split
      · rfl
      · split
        · rfl
        · split <;> rfl
  | shutdown pid =>
      simp only [step, opOf]
      split <;> rfl
  | crash pid => rfl
  | worker pid input =>
      simp only [step, opOf]
      cases w.procs pid with
      | none => rfl
      | some p =>
          dsimp only
          split
          · next hstill =>
              rw [hstill.1]
              cases p.worker <;> rfl
          · -- only a claim and the end of a job touch the database
            generalize p.worker = worker
            cases worker with
            | ready =>
                cases input with
                | claim now tie =>
                    simp only [workerStep, opStep]
                    rcases w.db.claimNextJob now tie with ⟨db', _ | job⟩ <;> rfl
                | _ => rfl
            | waiting | backoff | claimed => cases input <;> rfl
            | submitting job submission =>
                cases submission with
                | capture destination => cases input <;> rfl
                | windows printer accepted =>
                    cases input with
                    | print taken => cases taken <;> rfl
                    | _ => rfl
            | finishing job result =>
                cases input with
                | finish now =>
                    simp only [workerStep, opStep]
                    split <;> rfl
                | _ => rfl

/-- Every run of the system is a run of queue operations, with the same database and
    the same claims. -/
theorem exists_ops_of_run (sha256Hex : List UInt8 → String) (w : World) (is : List Input) :
    ∃ ops, run opStep w.db ops = (run (step sha256Hex) w is).db ∧
      trace opStep w.db ops = (trace (step sha256Hex) w is).filterMap claimedJob? := by
  induction is generalizing w with
  | nil => exact ⟨[], rfl, rfl⟩
  | cons i is ih =>
      obtain ⟨ops, hrun, htrace⟩ := ih (step sha256Hex w i).1
      have hstep := step_eq_opStep sha256Hex w i
      rw [run_cons, trace_cons, List.filterMap_append, ← hrun, ← htrace]
      cases hop : opOf w i with
      | none =>
          rw [hop] at hstep
          obtain ⟨hdb, hclaims⟩ := Prod.mk.inj hstep
          rw [hdb, hclaims]
          exact ⟨ops, rfl, rfl⟩
      | some op =>
          rw [hop] at hstep
          obtain ⟨hdb, hclaims⟩ := Prod.mk.inj hstep
          rw [hdb, hclaims]
          exact ⟨op :: ops, rfl, rfl⟩

end PrintLatch.Queue
