/-
  PrintLatch.Ui.Listing

  The job list of a client (`list_jobs_for_client`, `src/db.rs`) and what the dashboard
  polls of it (`activeJobIds`, `src/ui/model.js`).

  The query keeps the active rows and a window on the newest ones.  Ids are distinct, so
  the order is strict, and a row's place in it is the number of rows that are newer.
-/

import PrintLatch.Db.Jobs
import PrintLatch.Relational.Window
import PrintLatch.Ui.Page

namespace PrintLatch

open Relational

/-- `ORDER BY created_at DESC, id DESC`, between jobs of different ids. -/
def Job.newer (a b : Job) : Bool :=
  b.createdAt < a.createdAt ∨ (b.createdAt = a.createdAt ∧ b.id < a.id)

/-- A job in a response. -/
def Job.record (version : String → Nat) (job : Job) : Ui.JobRecord :=
  ⟨⟨⟨job.mode, job.state, job.attempts⟩, version job.id⟩, job.id⟩

theorem Job.newer_asymm (a b : Job) (h : a.newer b = true) : b.newer a = false := by
  simp only [Job.newer, decide_eq_true_eq, decide_eq_false_iff_not] at h ⊢
  rintro (hlt | ⟨heq, hid⟩)
  · rcases h with h | ⟨h, -⟩
    · exact lt_asymm h hlt
    · exact absurd hlt (by omega)
  · rcases h with h | ⟨-, h⟩
    · exact absurd h (by omega)
    · exact lt_asymm h hid

namespace Database

/-- The client's jobs that are queued or printing. -/
def activeJobs (db : Database) (clientId : String) : Nat :=
  db.jobs.rows.countP fun r => r.clientId = clientId ∧ Ui.active r.state

/-- The client's jobs that precede a job. -/
def preceding (db : Database) (clientId : String) (job : Job) : Nat :=
  db.jobs.rows.countP fun r => r.clientId = clientId ∧ r.newer job

/-- A list that hides nothing but the jobs that are over and have `limit` others before
    them. -/
structure Listing (db : Database) (clientId : String) (limit : Nat) (listed : List Job) :
    Prop where
  own : ∀ job ∈ listed, ∃ r ∈ db.jobs.rows, r.clientId = clientId ∧ r.toJob = job
  once : (listed.map (·.id)).Nodup
  decreasing : listed.Pairwise fun a b => a.newer b = true
  missing : ∀ r ∈ db.jobs.rows, r.clientId = clientId →
    (r.toJob ∉ listed ↔ Ui.active r.state = false ∧ limit ≤ db.preceding clientId r.toJob)

/-! ## The client's rows in order -/

/-- The client's rows, newest first. -/
def ownNewestFirst (db : Database) (clientId : String) : List JobRow :=
  (db.jobs.rows.filter fun r => r.clientId = clientId).mergeSort newestFirst

section

variable (db : Database) (clientId : String)

theorem mem_ownNewestFirst {r : JobRow} :
    r ∈ db.ownNewestFirst clientId ↔ r ∈ db.jobs.rows ∧ r.clientId = clientId := by
  unfold ownNewestFirst
  rw [List.mem_mergeSort, List.mem_filter, decide_eq_true_eq]

theorem countP_ownNewestFirst (p : JobRow → Bool) :
    (db.ownNewestFirst clientId).countP p =
      db.jobs.rows.countP fun r => r.clientId = clientId ∧ p r := by
  unfold ownNewestFirst
  rw [(List.mergeSort_perm _ _).countP_eq, List.countP_filter]
  congr 1
  funext r
  simp [Bool.and_comm]

/-- No two rows have one id. -/
theorem pairwise_id_ownNewestFirst :
    (db.ownNewestFirst clientId).Pairwise fun a b => a.id ≠ b.id := by
  have hdistinct : (db.jobs.rows.filter fun r => r.clientId = clientId).Pairwise
      fun a b => a.id ≠ b.id := db.jobs.distinct.filter _
  exact ((List.mergeSort_perm _ _).pairwise_iff (fun hne heq => hne heq.symm)).mpr hdistinct

theorem nodup_ownNewestFirst : (db.ownNewestFirst clientId).Nodup :=
  (db.pairwise_id_ownNewestFirst clientId).imp fun hne heq => hne (congrArg (·.id) heq)

/-- The order is strict. -/
theorem pairwise_newer_ownNewestFirst :
    (db.ownNewestFirst clientId).Pairwise fun a b => a.newer b.toJob = true := by
  have hsorted : (db.ownNewestFirst clientId).Pairwise fun a b => newestFirst a b = true :=
    List.pairwise_mergeSort newestFirst_trans newestFirst_total _
  refine (hsorted.and (db.pairwise_id_ownNewestFirst clientId)).imp fun h => ?_
  obtain ⟨hnewest, hne⟩ := h
  simp only [newestFirst, Job.newer, decide_eq_true_eq] at hnewest ⊢
  exact hnewest.imp_right fun h => ⟨h.1, lt_of_le_of_ne h.2 (Ne.symm hne)⟩

/-- The query is a window on the client's rows. -/
theorem listJobsForClient_eq_window (limit : Nat) :
    db.listJobsForClient clientId limit = (window (fun r : JobRow => Ui.active r.state) limit
      (db.ownNewestFirst clientId)).map (·.toJob) := by
  unfold listJobsForClient window
  show ((db.ownNewestFirst clientId).filter _).map _ = _
  congr 1
  refine List.filter_congr fun r hr => ?_
  -- an id is the id of one row
  have hid : r.id ∈ ((db.ownNewestFirst clientId).take limit).map (fun r => r.id) ↔
      r ∈ (db.ownNewestFirst clientId).take limit := by
    refine ⟨fun h => ?_, List.mem_map_of_mem⟩
    obtain ⟨q, hq, heq⟩ := List.mem_map.mp h
    have hrow := ((db.mem_ownNewestFirst clientId).mp (List.mem_of_mem_take hq)).1
    have hrow' := ((db.mem_ownNewestFirst clientId).mp hr).1
    rwa [Table.eq_of_key_eq (fun r : JobRow => r.id) (fun _ _ h => h) hrow' hrow heq.symm]
  show decide ((r.state = .queued ∨ r.state = .printing) ∨ r.id ∈ _) =
    (Ui.active r.state || decide (r ∈ (db.ownNewestFirst clientId).take limit))
  rw [Bool.decide_or, Ui.active]
  exact congrArg _ (decide_eq_decide.mpr hid)

theorem mem_listJobsForClient {limit : Nat} {r : JobRow} (hr : r ∈ db.jobs.rows)
    (hclient : r.clientId = clientId) :
    r.toJob ∈ db.listJobsForClient clientId limit ↔
      Ui.active r.state = true ∨ db.preceding clientId r.toJob < limit := by
  have hmem : r ∈ db.ownNewestFirst clientId := (db.mem_ownNewestFirst clientId).mpr ⟨hr, hclient⟩
  have hplace : r ∈ (db.ownNewestFirst clientId).take limit ↔
      db.preceding clientId r.toJob < limit := by
    rw [@mem_take_iff _ (fun a b : JobRow => a.newer b.toJob) _
      (db.pairwise_newer_ownNewestFirst clientId) (fun a b => Job.newer_asymm a.toJob b.toJob) _
      hmem limit, countP_ownNewestFirst]
    rfl
  rw [listJobsForClient_eq_window, List.mem_map]
  constructor
  · rintro ⟨q, hq, heq⟩
    obtain ⟨hqmem, hshown⟩ := mem_window.mp hq
    -- the job has the id of its row
    have hqr : q = r := Table.eq_of_key_eq (fun r : JobRow => r.id) (fun _ _ h => h)
      ((db.mem_ownNewestFirst clientId).mp hqmem).1 hr (congrArg Job.id heq)
    rw [hqr] at hshown
    exact hshown.imp_right hplace.mp
  · intro h
    exact ⟨r, mem_window.mpr ⟨hmem, h.imp_right hplace.mpr⟩, rfl⟩

/-- The list of a client has what `Listing` says. -/
theorem listing_listJobsForClient (limit : Nat) :
    Listing db clientId limit (db.listJobsForClient clientId limit) where
  own := by
    intro job hjob
    rw [listJobsForClient_eq_window] at hjob
    obtain ⟨r, hr, rfl⟩ := List.mem_map.mp hjob
    have hrow := (db.mem_ownNewestFirst clientId).mp (mem_window.mp hr).1
    exact ⟨r, hrow.1, hrow.2, rfl⟩
  once := by
    rw [listJobsForClient_eq_window, List.map_map]
    exact List.pairwise_map.mpr
      ((db.pairwise_id_ownNewestFirst clientId).sublist (window_sublist _ _ _))
  decreasing := by
    rw [listJobsForClient_eq_window]
    exact List.pairwise_map.mpr
      ((db.pairwise_newer_ownNewestFirst clientId).sublist (window_sublist _ _ _))
  missing := by
    intro r hr hclient
    rw [mem_listJobsForClient db clientId hr hclient, not_or, Bool.not_eq_true, not_lt]

theorem length_listJobsForClient_le (limit : Nat) :
    (db.listJobsForClient clientId limit).length ≤ limit + db.activeJobs clientId := by
  have hlength := length_window_le (fun r : JobRow => Ui.active r.state) limit
    (db.nodup_ownNewestFirst clientId)
  rw [countP_ownNewestFirst] at hlength
  rw [listJobsForClient_eq_window, List.length_map]
  exact hlength

theorem mem_activeJobIds_listJobsForClient (limit : Nat) (version : String → Nat)
    (remembered : Option String) {r : JobRow} (hr : r ∈ db.jobs.rows)
    (hclient : r.clientId = clientId) (hactive : Ui.active r.state = true) :
    r.id ∈ Ui.activeJobIds ((db.listJobsForClient clientId limit).map (·.record version))
      remembered := by
  have hmem : r.toJob ∈ db.listJobsForClient clientId limit :=
    (mem_listJobsForClient db clientId hr hclient).mpr (Or.inl hactive)
  have hstate : r.state = .queued ∨ r.state = .printing := by simpa [Ui.active] using hactive
  refine List.mem_map.mpr ⟨r.toJob.record version, List.mem_filter.mpr
    ⟨List.mem_map_of_mem hmem, decide_eq_true ?_⟩, rfl⟩
  exact hstate.elim Or.inl fun h => Or.inr (Or.inl h)

/-- **The job list hides nothing it must show.** -/
theorem listJobsForClient_complete (limit : Nat) :
    Listing db clientId limit (db.listJobsForClient clientId limit) ∧
      (db.listJobsForClient clientId limit).length ≤ limit + db.activeJobs clientId ∧
      (∀ less ≤ limit, (db.listJobsForClient clientId less).Sublist
        (db.listJobsForClient clientId limit)) ∧
      ∀ version remembered, ∀ r ∈ db.jobs.rows, r.clientId = clientId →
        r.state = .queued ∨ r.state = .printing →
        r.id ∈ Ui.activeJobIds ((db.listJobsForClient clientId limit).map (·.record version))
          remembered := by
  refine ⟨listing_listJobsForClient db clientId limit,
    length_listJobsForClient_le db clientId limit, fun less hless => ?_,
    fun version remembered r hr hclient hstate =>
      mem_activeJobIds_listJobsForClient db clientId limit version remembered hr hclient
        (by simpa [Ui.active] using hstate)⟩
  rw [listJobsForClient_eq_window, listJobsForClient_eq_window]
  exact (window_mono _ hless _).map _

end

/-- A job of the client, with what orders and what shows it. -/
def exampleRow (id : String) (state : JobState) (createdAt : Int) : JobRow where
  id := id
  clientId := "c1"
  printerId := "capture:pdf"
  state := state
  mode := .print
  copies := 1
  pageCount := 1
  byteCount := 9
  sha256 := "d1"
  attempts := 1
  detail := none
  createdAt := createdAt
  updatedAt := createdAt
  filePath := s!"C:\\PrintLatch\\jobs\\{id}.pdf"

/-- The oldest job still waits; the others are over. -/
def exampleListed : Database :=
  { exampleDatabase with
    jobs := ⟨[exampleRow "j1" .queued 10, exampleRow "j2" .succeeded 20,
      exampleRow "j3" .succeeded 30], by decide⟩ }

/-- A list of one job shows the newest and the one that waits. -/
theorem listJobsForClient_complete_example :
    (exampleRow "j2" .succeeded 20).toJob ∉ exampleListed.listJobsForClient "c1" 1 ∧
      (exampleRow "j3" .succeeded 30).toJob ∈ exampleListed.listJobsForClient "c1" 1 ∧
      (exampleListed.listJobsForClient "c1" 1).Sublist
        (exampleListed.listJobsForClient "c1" 2) ∧
      "j1" ∈ Ui.activeJobIds ((exampleListed.listJobsForClient "c1" 1).map
        (·.record fun _ => 0)) none := by
  obtain ⟨hlisting, -, -, hactive⟩ := listJobsForClient_complete exampleListed "c1" 1
  obtain ⟨-, -, hsublist, -⟩ := listJobsForClient_complete exampleListed "c1" 2
  refine ⟨(hlisting.missing _ (by simp [exampleListed]) rfl).mpr ⟨by decide, by decide⟩, ?_,
    hsublist 1 (by decide),
    hactive _ _ (exampleRow "j1" .queued 10) (by simp [exampleListed]) rfl (Or.inl rfl)⟩
  by_contra hmissing
  have hplace := ((hlisting.missing (exampleRow "j3" .succeeded 30) (by simp [exampleListed])
    rfl).mp hmissing).2
  exact absurd hplace (by decide)

end Database

end PrintLatch
