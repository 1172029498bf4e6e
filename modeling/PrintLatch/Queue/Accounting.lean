/-
  PrintLatch.Queue.Accounting

  No automatic duplicate, and exact attempt accounting.

  The counts of claims, cancels and retries come from the refinement of the
  abstract queue.  The number of submissions is bounded worker by worker: a
  worker starts `submit` once for each claim it makes, because the claim is used
  up when the worker leaves its control point `claimed` (`unstarted_step`).
-/

import PrintLatch.Queue.Refinement
import Mathlib.Data.List.Perm.Subperm

namespace PrintLatch.Queue

open Reactive

/-! ## Counts -/

/-- Successful claims of job `j`. -/
def claims (j : String) (tr : List Obs) : Nat := (history j tr).count .claim

/-- Successful cancels of job `j`. -/
def cancels (j : String) (tr : List Obs) : Nat := (history j tr).count .cancel

/-- Successful retries of job `j`. -/
def retries (j : String) (tr : List Obs) : Nat := (history j tr).count .retry

/-- The process whose worker claimed `j`. -/
def claimBy? (j : String) : Obs → Option Nat
  | .claimed pid job _ => if job = j then some pid else none
  | _ => none

/-- The process whose worker started to submit `j`. -/
def submitBy? (j : String) : Obs → Option Nat
  | .submitStarted pid job _ => if job = j then some pid else none
  | _ => none

/-- How often `printers::submit` was started for job `j`. -/
def submissions (j : String) (tr : List Obs) : Nat := (tr.filterMap (submitBy? j)).length

theorem claims_eq_length (j : String) (tr : List Obs) :
    claims j tr = (tr.filterMap (claimBy? j)).length := by
  unfold claims history about
  rw [List.count, List.countP_filterMap, List.countP_filter, List.length_filterMap_eq_countP]
  refine List.countP_congr fun o _ => ?_
  cases o with
  | claimed pid job k => by_cases hj : job = j <;> simp [action?, Obs.job, claimBy?, hj]
  | recorded pid job k state =>
      by_cases hs : state = .succeeded <;> simp [action?, Obs.job, claimBy?, hs]
  | _ => simp [action?, claimBy?]

/-! ## Submissions -/

/-- The worker has claimed `j` and not started to submit it. -/
def unstarted (j : String) : Option Worker → Nat
  | some (.claimed job) => if job.id = j then 1 else 0
  | _ => 0

theorem unstarted_le_of_quiet {j : String} {worker worker' : Worker}
    (h : ∀ job, worker' = .claimed job → worker = .claimed job) :
    unstarted j (some worker') ≤ unstarted j (some worker) := by
  cases worker' with
  | claimed job => rw [h job rfl]
  | _ => exact Nat.zero_le _

/-- Observations of one process count for that process only. -/
theorem count_eq_zero_of_worker {pid pid' : Nat} {obs : List Obs} {f : Obs → Option Nat}
    (hf : ∀ o q, f o = some q → o.worker? = some q) (hobs : ∀ o ∈ obs, o.worker? = some pid)
    (hne : pid' ≠ pid) : (obs.filterMap f).count pid' = 0 := by
  rw [List.count_eq_zero]
  intro hmem
  obtain ⟨o, ho, hfo⟩ := List.mem_filterMap.mp hmem
  exact hne (Option.some.inj ((hf o pid' hfo).symm.trans (hobs o ho)))

theorem worker?_of_submitBy? {j : String} (o : Obs) (q : Nat) (h : submitBy? j o = some q) :
    o.worker? = some q := by
  cases o <;> simp_all [submitBy?, Obs.worker?]

/-- A worker's move starts a submission of `j` only by using up a claim of `j`. -/
theorem unstarted_worker {sha256Hex : List UInt8 → String} {config : AppConfig} {pid : Nat}
    {db db' : Database} {worker worker' : Worker} {input : WorkerInput} {obs : List Obs}
    (h : WorkerMove sha256Hex config pid db worker input db' worker' obs) (j : String) :
    (obs.filterMap (submitBy? j)).count pid + unstarted j (some worker') ≤
      unstarted j (some worker) + (obs.filterMap (claimBy? j)).count pid := by
  cases h with
  -- a claim fills the control point `claimed`, a submission empties it
  | claim now tie r db' next row queued oldest after =>
      by_cases hj : r.id = j <;>
        simp [List.filterMap_cons, submitBy?, claimBy?, unstarted, hj]
  | submit job devices =>
      cases submitStart sha256Hex config job devices <;>
        by_cases hj : job.id = j <;>
          simp [List.filterMap_cons, submitBy?, claimBy?, unstarted, afterSubmit, hj]
  | accept job printer accepted =>
      cases printCopy printer accepted job.copies true <;>
        simp [List.filterMap_cons, submitBy?, claimBy?, unstarted, afterSubmit]
  | quiet worker worker' input job started ended => simpa using unstarted_le_of_quiet started
  | empty | cancel | record | miss | lose =>
      simp [List.filterMap_cons, submitBy?, claimBy?, unstarted]

theorem unstarted_step (sha256Hex : List UInt8 → String) (w : World) (i : Input) (j : String)
    (pid : Nat) :
    ((step sha256Hex w i).2.filterMap (submitBy? j)).count pid +
        unstarted j ((step sha256Hex w i).1.worker? pid) ≤
      unstarted j (w.worker? pid) +
        ((step sha256Hex w i).2.filterMap (claimBy? j)).count pid := by
  have hmove := move_of_step sha256Hex w i
  generalize (step sha256Hex w i).1 = w' at hmove ⊢
  generalize (step sha256Hex w i).2 = obs at hmove ⊢
  cases hmove with
  | worker q p input db' worker' obs proc running move =>
      rw [worker?_update]
      -- the other workers stand still and show nothing
      by_cases hq : pid = q
      · subst hq
        rw [if_pos rfl, worker?_of_proc proc]
        exact unstarted_worker move j
      · rw [if_neg hq, count_eq_zero_of_worker worker?_of_submitBy? move.worker?_obs hq]
        omega
  | idle i => simp
  | other i w' obs turn workers outside =>
      have hnone : (obs.filterMap (submitBy? j)).count pid = 0 := by
        rw [List.count_eq_zero]
        intro hmem
        obtain ⟨o, ho, hfo⟩ := List.mem_filterMap.mp hmem
        have := worker?_of_submitBy? o pid hfo
        rw [outside o ho] at this
        cases this
      rw [hnone]
      rcases workers pid with heq | heq | heq <;> rw [heq] <;> simp [unstarted]

/-- In every run, `submit` is started at most once for each claim. -/
theorem submissions_le_claims (sha256Hex : List UInt8 → String) (db : Database)
    (is : List Input) (j : String) :
    submissions j (trace (step sha256Hex) (World.ofDatabase db) is) ≤
      claims j (trace (step sha256Hex) (World.ofDatabase db) is) := by
  have hinv : ∀ pid,
      ((trace (step sha256Hex) (World.ofDatabase db) is).filterMap (submitBy? j)).count pid +
        unstarted j ((run (step sha256Hex) (World.ofDatabase db) is).worker? pid) ≤
      ((trace (step sha256Hex) (World.ofDatabase db) is).filterMap (claimBy? j)).count pid := by
    intro pid
    refine run_invariant (fun tr (w : World) => (tr.filterMap (submitBy? j)).count pid +
      unstarted j (w.worker? pid) ≤ (tr.filterMap (claimBy? j)).count pid) (by rfl)
      (fun tr w i h => ?_) is
    have hstep := unstarted_step sha256Hex w i j pid
    rw [List.filterMap_append, List.filterMap_append, List.count_append, List.count_append]
    omega
  have hsub : ((trace (step sha256Hex) (World.ofDatabase db) is).filterMap (submitBy? j)).Subperm
      ((trace (step sha256Hex) (World.ofDatabase db) is).filterMap (claimBy? j)) :=
    List.subperm_ext_iff.mpr fun pid _ => Nat.le_of_add_right_le (hinv pid)
  rw [claims_eq_length]
  exact hsub.length_le

/-! ## The accounts of a run -/

/-- **Exact attempt accounting.**  In every interleaving of clients, workers,
    agent starts and crashes: each claim and each cancel of a printed job uses up
    its creation or one retry, nothing happens to a preview, the stored attempts
    count the claims, and `submit` is started at most once an attempt. -/
theorem attempt_accounting (sha256Hex : List UInt8 → String) (db : Database) (is : List Input)
    (j client : String) (mode : JobMode)
    (h : Obs.created j client mode ∈ trace (step sha256Hex) (World.noJobs db) is) :
    let tr := trace (step sha256Hex) (World.noJobs db) is
    ∃ r, (run (step sha256Hex) (World.noJobs db) is).db.job? j = some r ∧
      r.mode = mode ∧ r.clientId = client ∧
      (mode = .print →
        claims j tr + cancels j tr + (if r.state = .queued then 1 else 0) = 1 + retries j tr) ∧
      (mode = .preview → claims j tr = 0 ∧ cancels j tr = 0 ∧ retries j tr = 0) ∧
      r.attempts = claims j tr ∧ r.attempts ≤ 3 ∧
      (r.state = .queued → r.attempts ≤ 2) ∧
      (r.state = .printing ∨ r.state = .failed ∨ r.state = .unknown ∨ r.state = .succeeded →
        1 ≤ r.attempts) ∧
      submissions j tr ≤ r.attempts ∧
      submissions j tr ≤ 1 + tr.count (.retried j client) := by
  intro tr
  have htracks := tracks_run sha256Hex db is j
  cases hrow : (run (step sha256Hex) (World.noJobs db) is).db.job? j with
  | none =>
      rw [hrow] at htracks
      cases htracks with
      | absent _ hcr _ => exact absurd h (hcr client mode)
  | some r =>
      rw [hrow] at htracks
      cases htracks with
      | present r hreplay hcreated hown =>
          obtain ⟨rfl, rfl⟩ := hcreated client mode h
          have hacc := accounts_of_replay hreplay
          have hsubs : submissions j tr ≤ r.attempts := by
            rw [← entry_attempts, hacc.attempts_eq]
            exact submissions_le_claims sha256Hex _ is j
          have hpreview : r.mode = .preview → claims j tr = 0 ∧ cancels j tr = 0 ∧
              retries j tr = 0 := fun hm => by
            have hnil : history j tr = [] := (hacc.previewed hm).1
            simp [claims, cancels, retries, hnil]
          have hattempts : r.attempts = claims j tr := hacc.attempts_eq
          have hbound : r.attempts ≤ 1 + retries j tr := by
            cases hm : r.mode with
            | preview => have := hpreview hm; omega
            | print =>
                have hp : claims j tr + cancels j tr + (if r.state = .queued then 1 else 0) =
                  1 + retries j tr := hacc.printed hm
                omega
          refine ⟨r, rfl, rfl, rfl, hacc.printed, hpreview, hattempts, hacc.attempts_le,
            hacc.attempts_queued, hacc.attempts_pos, hsubs, ?_⟩
          exact (hsubs.trans hbound).trans_eq (by rw [retries, hown])

/-- A job that is rejected, retried and printed. -/
def exampleRetryRun : List Input :=
  [exampleCreate 1, .start 0 exampleConfig 2, .bind 0] ++ exampleTurn 0 [false] 3 ++
    [.retry "j1" "c1" 4] ++ exampleTurn 0 [true] 5

/-- The accounts of `exampleRetryRun`: two claims, two attempts, one retry. -/
theorem attempt_accounting_of_exampleRetryRun :
    ∃ r, (run (step exampleDigest) (World.noJobs exampleDatabase) exampleRetryRun).db.job? "j1" =
        some r ∧ r.mode = .print ∧
      claims "j1" (trace (step exampleDigest) (World.noJobs exampleDatabase) exampleRetryRun) = 2 ∧
      r.attempts = 2 := by
  obtain ⟨r, hr, hmode, -, -, -, hattempts, -⟩ :=
    attempt_accounting exampleDigest exampleDatabase exampleRetryRun "j1" "c1" .print (by decide)
  have hclaims : claims "j1"
      (trace (step exampleDigest) (World.noJobs exampleDatabase) exampleRetryRun) = 2 := by decide
  exact ⟨r, hr, hmode, hclaims, hattempts.trans hclaims⟩

/-! ## Canceled jobs -/

/-- **A canceled job was canceled out of the queue.**  Its last claim, if any,
    came before the retry that put it back there, and `submit` was started for
    it at most once for each retry; a canceled job that was never retried was
    never submitted. -/
theorem canceled_from_queue (sha256Hex : List UInt8 → String) (db : Database) (is : List Input)
    (j : String) (r : JobRow)
    (hrow : (run (step sha256Hex) (World.noJobs db) is).db.job? j = some r)
    (hstate : r.state = .canceled) :
    (∃ pre, history j (trace (step sha256Hex) (World.noJobs db) is) = pre ++ [.cancel] ∧
      (pre = [] ∨ ∃ before, pre = before ++ [.retry])) ∧
    submissions j (trace (step sha256Hex) (World.noJobs db) is) ≤
      retries j (trace (step sha256Hex) (World.noJobs db) is) := by
  have htracks := tracks_run sha256Hex db is j
  rw [hrow] at htracks
  cases htracks with
  | present r hreplay hcreated hown =>
      have hacc := accounts_of_replay hreplay
      refine ⟨hacc.canceled_last hstate, ?_⟩
      have hsub : submissions j (trace (step sha256Hex) (World.noJobs db) is) ≤
          claims j (trace (step sha256Hex) (World.noJobs db) is) :=
        submissions_le_claims sha256Hex _ is j
      have hcancel : cancels j (trace (step sha256Hex) (World.noJobs db) is) = 1 := by
        rw [cancels, hacc.cancels_eq, entry_state, if_pos hstate]
      cases hmode : r.mode with
      | preview =>
          have hpreview := (hacc.previewed hmode).2
          rw [entry_state, hstate] at hpreview
          cases hpreview
      | print =>
          have hprinted : claims j (trace (step sha256Hex) (World.noJobs db) is) +
              cancels j (trace (step sha256Hex) (World.noJobs db) is) +
              (if r.state = .queued then 1 else 0) =
            1 + retries j (trace (step sha256Hex) (World.noJobs db) is) := hacc.printed hmode
          rw [if_neg (by simp [hstate])] at hprinted
          exact hsub.trans (by omega)

/-- A job that is rejected, retried and then canceled. -/
def exampleCancelRun : List Input :=
  [exampleCreate 1, .start 0 exampleConfig 2, .bind 0] ++ exampleTurn 0 [false] 3 ++
    [.retry "j1" "c1" 4, .cancel "j1" "c1" 5]

/-- The job of `exampleCancelRun` is canceled and was submitted before. -/
theorem canceled_after_submission :
    (∃ r, (run (step exampleDigest) (World.noJobs exampleDatabase) exampleCancelRun).db.job? "j1" =
        some r ∧ r.state = .canceled) ∧
      submissions "j1"
        (trace (step exampleDigest) (World.noJobs exampleDatabase) exampleCancelRun) = 1 := by
  refine ⟨?_, by decide⟩
  have hrow : ((run (step exampleDigest) (World.noJobs exampleDatabase) exampleCancelRun).db.job?
      "j1").map (·.state) = some .canceled := by decide
  simpa only [Option.map_eq_some_iff] using hrow

theorem canceled_from_queue_of_exampleCancelRun :
    submissions "j1" (trace (step exampleDigest) (World.noJobs exampleDatabase) exampleCancelRun) ≤
      retries "j1"
        (trace (step exampleDigest) (World.noJobs exampleDatabase) exampleCancelRun) := by
  have hrow : ((run (step exampleDigest) (World.noJobs exampleDatabase) exampleCancelRun).db.job?
      "j1").map (·.state) = some .canceled := by decide
  obtain ⟨r, hr, hstate⟩ := Option.map_eq_some_iff.mp hrow
  exact (canceled_from_queue exampleDigest exampleDatabase exampleCancelRun "j1" r hr hstate).2

end PrintLatch.Queue
