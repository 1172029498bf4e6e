/-
  PrintLatch.Queue.Refinement

  The system refines the abstract queue of `PrintLatch.Queue.Lifecycle`.

  `RowMove j` says everything one step of the system can do to the row of job
  `j`, together with what is observed about `j`; `rowMove_step` is the one
  inversion lemma of the system.  From it: what is observed about a job is an
  accepted history, and replaying that history gives the job's row
  (`tracks_run`).
-/

import PrintLatch.Queue.System
import PrintLatch.Queue.Lifecycle

namespace PrintLatch.Queue

open Reactive

/-- The action of the abstract queue that an observation reports. -/
def action? : Obs → Option Action
  | .claimed .. => some .claim
  | .canceled .. => some .cancel
  | .retried .. => some .retry
  | .recovered .. => some .recover
  | .recorded _ _ _ state => some (if state = .succeeded then .succeed else .fail)
  | .created .. | .submitStarted .. | .copyAccepted .. => none

/-- What was observed about job `j`. -/
def about (j : String) (tr : List Obs) : List Obs := tr.filter fun o => o.job = j

/-- The history of job `j`. -/
def history (j : String) (tr : List Obs) : List Action := (about j tr).filterMap action?

theorem about_append (j : String) (tr obs : List Obs) :
    about j (tr ++ obs) = about j tr ++ about j obs := List.filter_append ..

@[simp] theorem history_nil (j : String) : history j [] = [] := rfl

theorem history_append (j : String) (tr obs : List Obs) :
    history j (tr ++ obs) = history j tr ++ history j obs := by
  simp [history, about_append]

theorem mem_about {j : String} {tr : List Obs} {o : Obs} :
    o ∈ about j tr ↔ o ∈ tr ∧ o.job = j := by
  simp [about]

/-- What its owner sees of a row. -/
def entry (r : JobRow) : Entry := ⟨r.mode, r.state, r.attempts⟩

@[simp] theorem entry_mode (r : JobRow) : (entry r).mode = r.mode := rfl
@[simp] theorem entry_state (r : JobRow) : (entry r).state = r.state := rfl
@[simp] theorem entry_attempts (r : JobRow) : (entry r).attempts = r.attempts := rfl

/-! ## The inversion lemma -/

/-- What one step of the system can do to the row of job `j`, with what is
    observed about `j`. -/
inductive RowMove (j : String) : Option JobRow → List Obs → Option JobRow → Prop
  | create (client : String) (mode : JobMode) (r : JobRow)
      (entry : entry r = Entry.created mode) (client_eq : r.clientId = client) :
      RowMove j none [.created j client mode] (some r)
  | claim (pid : Nat) (now : Int) (r : JobRow) (queued : r.state = .queued) :
      RowMove j (some r) [.claimed pid j (r.attempts + 1)] (some (r.claim now))
  | cancel (now : Int) (r : JobRow) (queued : r.state = .queued) :
      RowMove j (some r) [.canceled j r.clientId] (some (r.cancel now))
  | retry (now : Int) (r : JobRow) (ended : retryable r.state) (left : r.attempts < 3) :
      RowMove j (some r) [.retried j r.clientId] (some (r.retry now))
  | recover (pid : Nat) (now : Int) (r : JobRow) (printing : r.state = .printing) :
      RowMove j (some r) [.recovered pid j] (some (r.recover now))
  | record (pid attempt : Nat) (now : Int) (state : JobState) (detail : String) (r : JobRow)
      (printing : r.state = .printing) (state_eq : state = .succeeded ∨ state = .failed) :
      RowMove j (some r) [.recorded pid j attempt state] (some (r.finish state detail now))
  /-- The row stays; at most a submission moved on. -/
  | stay (row : Option JobRow) (obs : List Obs)
      (quiet : ∀ o ∈ obs, (∃ pid k, o = .submitStarted pid j k) ∨ ∃ pid, o = .copyAccepted pid j) :
      RowMove j row obs row

theorem RowMove.silent (j : String) (row : Option JobRow) : RowMove j row [] row :=
  .stay row [] (by simp)

/-- A worker's move, seen from job `j`. -/
theorem rowMove_worker {sha256Hex : List UInt8 → String} {config : AppConfig} {pid : Nat}
    {db db' : Database} {worker worker' : Worker} {input : WorkerInput} {obs : List Obs}
    (h : WorkerMove sha256Hex config pid db worker input db' worker' obs) (j : String) :
    RowMove j (db.job? j) (about j obs) (db'.job? j) := by
  cases h with
  -- the two moves that write a row: of `j` itself, or of another job
  | claim now tie r db' next row queued oldest after =>
      by_cases hj : j = r.id
      · subst hj
        rw [after, if_pos rfl, row]
        simpa [about, Obs.job] using RowMove.claim pid now r queued
      · rw [after, if_neg hj]
        simpa [about, Obs.job, Ne.symm hj] using RowMove.silent j _
  | record job result now r db' row printing after =>
      by_cases hj : j = job.id
      · subst hj
        rw [after, if_pos rfl, row]
        simpa [about, Obs.job] using RowMove.record pid job.attempts now result.outcome.1
          result.outcome.2 r printing (outcome_state result)
      · rw [after, if_neg hj]
        simpa [about, Obs.job, Ne.symm hj] using RowMove.silent j _
  | submit job devices =>
      refine .stay _ _ fun o ho => ?_
      obtain ⟨hmem, rfl⟩ := mem_about.mp ho
      obtain rfl := List.mem_singleton.mp hmem
      exact Or.inl ⟨pid, job.attempts, rfl⟩
  | accept job printer accepted =>
      refine .stay _ _ fun o ho => ?_
      obtain ⟨hmem, rfl⟩ := mem_about.mp ho
      obtain rfl := List.mem_singleton.mp hmem
      exact Or.inr ⟨pid, rfl⟩
  | empty | cancel | miss | lose | quiet => exact RowMove.silent j _

/-- What recovery reports about job `j`: one recovery, if the job was printing. -/
theorem about_recovered (db : Database) (pid : Nat) (j : String) :
    about j ((db.jobs.rows.filter fun r => r.state = .printing).map fun r =>
        Obs.recovered pid r.id) =
      if (db.job? j).any (fun r => r.state = .printing) then [.recovered pid j] else [] := by
  -- one report for each printing row of `j`
  have hlist : about j ((db.jobs.rows.filter fun r => r.state = .printing).map fun r =>
      Obs.recovered pid r.id) =
      List.replicate (db.jobs.rows.countP fun r => r.id = j ∧ r.state = .printing)
        (.recovered pid j) := by
    generalize db.jobs.rows = rows
    induction rows with
    | nil => rfl
    | cons r rows ih =>
        by_cases hp : r.state = .printing <;> by_cases hj : r.id = j <;>
          simp_all [about, Obs.job, List.replicate_succ]
  -- `id` is the primary key, so there is one such row at most
  rw [hlist, Relational.Table.countP_eq_of_key (fun r : JobRow => r.id)
    (fun _ _ h => h) db.jobs (k := j) (by simp +contextual)]
  show List.replicate (if (db.job? j).any _ then 1 else 0) _ = _
  cases hj : db.job? j with
  | none => rfl
  | some r =>
      have hid := Database.id_of_job? hj
      by_cases hp : r.state = .printing <;> simp [hp, hid]

/-- **The system's one inversion lemma**: what a step does to the row of job `j`. -/
theorem rowMove_step (sha256Hex : List UInt8 → String) (w : World) (i : Input) (j : String) :
    RowMove j (w.db.job? j) (about j (step sha256Hex w i).2)
      ((step sha256Hex w i).1.db.job? j) := by
  cases i with
  | create parsed report id client path now =>
      simp only [step]
      cases hins : w.db.insertJob (newJob parsed report id client path) now with
      | error e => exact RowMove.silent j _
      | ok db =>
          obtain ⟨hfree, -, hall⟩ := Database.insertJob_ok hins
          have hall : ∀ id', db.job? id' =
              if id' = id then some ((newJob parsed report id client path).row now)
              else w.db.job? id' := hall
          rw [newJob_id] at hfree
          rw [hall]
          by_cases hj : j = id
          · subst hj
            rw [if_pos rfl, hfree]
            -- `newJob` picks the first state by the mode, as the abstract queue does
            have hentry : entry ((newJob parsed report j client path).row now) =
                Entry.created parsed.mode := by
              cases hm : parsed.mode <;>
                simp [entry, newJob, NewJob.row, Entry.created, initialState, hm]
            simpa [about, Obs.job] using RowMove.create (j := j) client parsed.mode _ hentry rfl
          · rw [if_neg hj]
            simpa [about, Obs.job, Ne.symm hj] using RowMove.silent j _
  | cancel id client now =>
      simp only [step]
      rcases w.db.cancelJob_cases id client now with heq | ⟨r, hr, hc, hq, hsnd, hall⟩
      · rw [heq]
        exact RowMove.silent j _
      · rw [hsnd, hall]
        by_cases hj : j = id
        · subst hj hc
          rw [if_pos rfl, hr]
          simpa [about, Obs.job] using RowMove.cancel (j := j) now r hq
        · rw [if_neg hj]
          simpa [about, Obs.job, Ne.symm hj] using RowMove.silent j _
  | retry id client now =>
      simp only [step]
      rcases w.db.retryJob_cases id client now with heq | ⟨r, hr, hc, hs, hlt, hsnd, hall⟩
      · rw [heq]
        exact RowMove.silent j _
      · rw [hsnd, hall]
        by_cases hj : j = id
        · subst hj hc
          rw [if_pos rfl, hr]
          simpa [about, Obs.job] using RowMove.retry (j := j) now r hs hlt
        · rw [if_neg hj]
          simpa [about, Obs.job, Ne.symm hj] using RowMove.silent j _
  | start pid config now =>
      simp only [step]
      cases w.procs pid with
      | some p => exact RowMove.silent j _
      | none =>
          simp only [Database.job?_recoverInterruptedJobs, about_recovered]
          cases hj : w.db.job? j with
          | none => exact RowMove.silent j _
          | some r =>
              by_cases hp : r.state = .printing
              · simpa [hp] using RowMove.recover pid now r hp
              · simpa [hp] using RowMove.silent j _
  | bind pid =>
      simp only [step]
      cases w.procs pid with
      | none => exact RowMove.silent j _
      | some p =>
          dsimp only
          split
          · exact RowMove.silent j _
          · cases w.ports p.config.port with
            | none => exact RowMove.silent j _
            | some other => exact RowMove.silent j _
  | shutdown pid =>
      simp only [step]
      cases w.procs pid with
      | none => exact RowMove.silent j _
      | some p => exact RowMove.silent j _
  | crash pid => exact RowMove.silent j _
  | worker pid input =>
      simp only [step]
      cases w.procs pid with
      | none => exact RowMove.silent j _
      | some p =>
          dsimp only
          split
          · exact RowMove.silent j _
          · exact rowMove_worker
              (workerMove_of_step sha256Hex p.config pid w.db p.worker input) j

/-! ## Tracking -/

/-- What was observed about job `j` is an accepted history, and the job's row is
    what that history leads to. -/
inductive Tracks (j : String) (tr : List Obs) : Option JobRow → Prop
  | absent (history_eq : history j tr = [])
      (not_created : ∀ client mode, Obs.created j client mode ∉ tr)
      (not_retried : ∀ client, Obs.retried j client ∉ tr) : Tracks j tr none
  | present (r : JobRow)
      (replay : (Entry.created r.mode).replay (history j tr) = some (entry r))
      (created : ∀ client mode, Obs.created j client mode ∈ tr →
        client = r.clientId ∧ mode = r.mode)
      (own_retries : (history j tr).count .retry = tr.count (.retried j r.clientId)) :
      Tracks j tr (some r)

/-- Counting one kind of observation about `j` sees only what is about `j`. -/
theorem count_about {j : String} {o : Obs} (ho : o.job = j) (tr : List Obs) :
    tr.count o = (about j tr).count o := by
  unfold about
  rw [List.count_filter (by simpa using ho)]

/-- A step that performs `as` on the row and shows no creation keeps the row
    tracked. -/
theorem Tracks.perform {j : String} {tr obs : List Obs} {r r' : JobRow}
    (h : Tracks j tr (some r)) (as : List Action) (has : history j obs = as)
    (hact : (entry r).replay as = some (entry r')) (hclient : r'.clientId = r.clientId)
    (hmode : r'.mode = r.mode)
    (hnew : ∀ client mode, Obs.created j client mode ∉ obs)
    (hretry : as.count .retry = obs.count (.retried j r.clientId)) :
    Tracks j (tr ++ obs) (some r') := by
  cases h with
  | present r hreplay hcreated hown =>
      refine .present r' ?_ (fun client mode hmem => ?_) ?_
      · rw [history_append, Entry.replay_append, hmode, hreplay, has]
        exact hact
      · rcases List.mem_append.mp hmem with hold | hin
        · rw [hclient, hmode]
          exact hcreated client mode hold
        · exact absurd hin (hnew client mode)
      · rw [history_append, List.count_append, List.count_append, hclient, has, hown, hretry]

/-- A step of which one action on the row is seen keeps the row tracked. -/
theorem Tracks.perform_one {j : String} {tr obs : List Obs} {r r' : JobRow} {o : Obs}
    {a : Action} (h : Tracks j tr (some r)) (hobs : about j obs = [o]) (ha : action? o = some a)
    (hact : (entry r).act a = some (entry r')) (hclient : r'.clientId = r.clientId)
    (hmode : r'.mode = r.mode) (hnew : ∀ client mode, o ≠ .created j client mode)
    (hretry : a = .retry ↔ o = .retried j r.clientId) : Tracks j (tr ++ obs) (some r') := by
  -- a creation in `obs` would be what was seen of `j`
  refine h.perform [a] (by simp [history, hobs, ha]) (by simp [hact]) hclient hmode ?_ ?_
  · intro client mode hin
    have hin : Obs.created j client mode ∈ about j obs := mem_about.mpr ⟨hin, rfl⟩
    rw [hobs, List.mem_singleton] at hin
    exact hnew client mode hin.symm
  · have hcount : obs.count (.retried j r.clientId) =
        (about j obs).count (.retried j r.clientId) := count_about rfl obs
    rw [hcount, hobs, List.count_singleton, List.count_singleton]
    simp only [beq_iff_eq, hretry]

theorem tracks_move {j : String} {tr obs : List Obs} {row row' : Option JobRow}
    (h : Tracks j tr row) (hmove : RowMove j row (about j obs) row') :
    Tracks j (tr ++ obs) row' := by
  have hmem : ∀ o, o.job = j → (o ∈ obs ↔ o ∈ about j obs) := fun o ho => by
    simp [mem_about, ho]
  have hcount : ∀ client, obs.count (.retried j client) =
      (about j obs).count (.retried j client) := fun client => count_about rfl obs
  generalize hab : about j obs = ab at hmove hmem hcount
  have hhist : history j obs = ab.filterMap action? := by rw [history, hab]
  cases hmove with
  -- the history of a new job is empty
  | create client mode r hentry hclient =>
      cases h with
      | absent hnil hcr hre =>
          have hrm : r.mode = mode := by
            have := congrArg Entry.mode hentry
            simpa [Entry.created] using this
          refine .present r ?_ (fun c m hin => ?_) ?_
          · rw [history_append, hnil, hhist, hrm, hentry]
            rfl
          · rcases List.mem_append.mp hin with hold | hnew
            · exact absurd hold (hcr c m)
            · rw [hmem _ rfl] at hnew
              simp only [List.mem_singleton, Obs.created.injEq, true_and] at hnew
              exact ⟨hnew.1.trans hclient.symm, hnew.2.trans hrm.symm⟩
          · rw [history_append, hnil, hhist, List.count_append, List.count_append, hcount,
              List.count_eq_zero_of_not_mem (hre _)]
            rfl
  | claim pid now r hq =>
      exact h.perform_one hab rfl (by simp [Entry.act, entry, hq]) rfl rfl (by simp) (by simp)
  | cancel now r hq =>
      exact h.perform_one hab rfl (by simp [Entry.act, entry, hq]) rfl rfl (by simp) (by simp)
  | retry now r hs hlt =>
      exact h.perform_one hab rfl (by simp [Entry.act, entry, hs, hlt]) rfl rfl (by simp) (by simp)
  | recover pid now r hp =>
      exact h.perform_one hab rfl (by simp [Entry.act, entry, hp]) rfl rfl (by simp) (by simp)
  | record pid attempt now state detail r hp hstate =>
      -- the two outcomes are two actions
      rcases hstate with rfl | rfl
      · exact h.perform_one hab rfl (by simp [Entry.act, entry, hp]) rfl rfl (by simp) (by simp)
      · exact h.perform_one hab rfl (by simp [Entry.act, entry, hp]) rfl rfl (by simp) (by simp)
  -- nothing that the abstract queue knows of was seen
  | stay row ab hquiet =>
      have hnil : history j obs = [] := by
        rw [hhist, List.filterMap_eq_nil_iff]
        intro o ho
        rcases hquiet o ho with ⟨pid, k, rfl⟩ | ⟨pid, rfl⟩ <;> rfl
      have hnone : ∀ o, o.job = j → (∀ pid k, o ≠ .submitStarted pid j k) →
          (∀ pid, o ≠ .copyAccepted pid j) → o ∉ obs := fun o ho h1 h2 hin => by
        rcases hquiet o ((hmem o ho).mp hin) with ⟨pid, k, rfl⟩ | ⟨pid, rfl⟩
        · exact h1 pid k rfl
        · exact h2 pid rfl
      cases row with
      | none =>
          cases h with
          | absent hold hcr hre =>
              refine .absent (by rw [history_append, hold, hnil]; rfl) (fun c m hin => ?_)
                fun c hin => ?_
              · rcases List.mem_append.mp hin with hin | hin
                · exact hcr c m hin
                · exact hnone _ rfl (by simp) (by simp) hin
              · rcases List.mem_append.mp hin with hin | hin
                · exact hre c hin
                · exact hnone _ rfl (by simp) (by simp) hin
      | some r =>
          refine h.perform [] hnil (by simp) rfl rfl (fun c m => hnone _ rfl (by simp) (by simp)) ?_
          rw [List.count_eq_zero_of_not_mem (hnone _ rfl (by simp) (by simp))]
          rfl

/-- **Refinement.**  In every run from a database without jobs, every job's row
    is what its observed history leads to in the abstract queue. -/
theorem tracks_run (sha256Hex : List UInt8 → String) (db : Database) (is : List Input)
    (j : String) :
    Tracks j (trace (step sha256Hex) (World.noJobs db) is)
      ((run (step sha256Hex) (World.noJobs db) is).db.job? j) :=
  run_invariant (fun tr w => Tracks j tr (w.db.job? j))
    (.absent rfl (by simp) (by simp))
    (fun tr w i h => tracks_move h (rowMove_step sha256Hex w i j)) is

end PrintLatch.Queue
