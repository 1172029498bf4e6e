/-
  PrintLatch.Api.Isolation

  What a client's requests depend on, and what they leave alone.

  `SameFor c` relates two data directories that hold the same clients, the same
  jobs of client `c` and the same files for those jobs.  A request of `c` shows
  the same in both and keeps them related; it keeps every job and file of other
  clients (`OthersKept`).  Both go to whole runs by the two-run rule.

  Every read of a handler goes through `Database.ownJob?`, and every statement
  that changes a job is an update whose condition names the client, so there is
  one lemma for each of these and not one for each handler.
-/

import PrintLatch.Api.Handlers

namespace PrintLatch.Api

open Reactive

/-! ## The same jobs of a client -/

/-- Both databases hold the same jobs of client `c`. -/
def SameJobs (c : String) (db db' : Database) : Prop :=
  ∀ r : JobRow, r.clientId = c → (r ∈ db.jobs.rows ↔ r ∈ db'.jobs.rows)

section

variable {c : String} {db db' : Database}

theorem SameJobs.ownJob? (h : SameJobs c db db') (id : String) :
    db.ownJob? id c = db'.ownJob? id c := by
  apply Option.ext
  intro r
  rw [Database.ownJob?_eq_some, Database.ownJob?_eq_some]
  constructor
  · rintro ⟨hmem, hid, hclient⟩
    exact ⟨(h r hclient).mp hmem, hid, hclient⟩
  · rintro ⟨hmem, hid, hclient⟩
    exact ⟨(h r hclient).mpr hmem, hid, hclient⟩

theorem SameJobs.jobState (h : SameJobs c db db') (id : String) :
    db.jobState id c = db'.jobState id c := by
  rw [Database.jobState_eq, Database.jobState_eq, h.ownJob? id]

/-- A listing shows a client the same, in whatever order the rows stand. -/
theorem SameJobs.listJobsForClient (h : SameJobs c db db') (limit : Nat) :
    db.listJobsForClient c limit = db'.listJobsForClient c limit := by
  have hnodup : ∀ db : Database, (db.jobs.rows.filter fun r => r.clientId = c).Nodup := fun db =>
    (db.jobs.distinct.imp fun hne heq => hne (congrArg (fun r : JobRow => r.id) heq)).filter _
  -- the same rows, each of them once
  have hperm : (db.jobs.rows.filter fun r => r.clientId = c).Perm
      (db'.jobs.rows.filter fun r => r.clientId = c) := by
    refine (List.perm_ext_iff_of_nodup (hnodup db) (hnodup db')).mpr fun r => ?_
    simp only [List.mem_filter, decide_eq_true_eq]
    exact and_congr_left fun hclient => h r hclient
  -- the order is strict on the rows of one table, so it leaves one sorted list
  have hsorted : (db.jobs.rows.filter fun r => r.clientId = c).mergeSort Database.newestFirst =
      (db'.jobs.rows.filter fun r => r.clientId = c).mergeSort Database.newestFirst := by
    have hpairwise := List.pairwise_mergeSort Database.newestFirst_trans
      Database.newestFirst_total
    refine List.Perm.eq_of_pairwise (fun a b ha hb hab hba => ?_) (hpairwise _) (hpairwise _)
      (((List.mergeSort_perm _ _).trans hperm).trans (List.mergeSort_perm _ _).symm)
    have ha := (List.mem_filter.mp ((List.mergeSort_perm _ _).mem_iff.mp ha)).1
    have hb := (List.mergeSort_perm _ _).mem_iff.mp hb
    have hb := (List.mem_filter.mp (hperm.mem_iff.mpr hb)).1
    exact Relational.Table.eq_of_key_eq (fun r : JobRow => r.id) (fun _ _ h => h) ha hb
      (Database.id_eq_of_newestFirst hab hba)
  unfold Database.listJobsForClient
  rw [hsorted]

section Update

variable {p : JobRow → Bool} {f : JobRow → JobRow}

theorem SameJobs.updateJobs (h : SameJobs c db db') (hf : ∀ r, (f r).id = r.id)
    (hclient : ∀ r, (f r).clientId = r.clientId) :
    SameJobs c (db.updateJobs p f hf) (db'.updateJobs p f hf) := by
  intro r hr
  rw [Database.mem_updateJobs hf, Database.mem_updateJobs hf]
  -- the row before the update is the client's too
  refine exists_congr fun r₀ => and_congr_left fun hupdate => h r₀ ?_
  rw [← hr, ← hupdate]
  split
  · exact (hclient r₀).symm
  · rfl

theorem SameJobs.countP (h : SameJobs c db db') (id : String)
    (hp : ∀ r, p r = true → r.id = id ∧ r.clientId = c) :
    db.jobs.rows.countP p = db'.jobs.rows.countP p := by
  rw [Database.countP_own db hp, Database.countP_own db' hp, h.ownJob? id]

/-- An update of a client's jobs leaves the others. -/
theorem mem_updateJobs_of_other (hf : ∀ r, (f r).id = r.id) (hp : ∀ r, p r = true → r.clientId = c)
    (hclient : ∀ r, (f r).clientId = r.clientId) {r : JobRow} (hr : r.clientId ≠ c) :
    r ∈ (db.updateJobs p f hf).jobs.rows ↔ r ∈ db.jobs.rows := by
  rw [Database.mem_updateJobs hf]
  constructor
  · rintro ⟨r₀, hmem, hupdate⟩
    by_cases hpr : p r₀ = true
    · rw [if_pos hpr] at hupdate
      exact absurd ((congrArg (·.clientId) hupdate).symm.trans
        ((hclient r₀).trans (hp r₀ hpr))) hr
    · rw [if_neg hpr] at hupdate
      exact hupdate ▸ hmem
  · intro hmem
    exact ⟨r, hmem, if_neg fun hpr => hr (hp r hpr)⟩

end Update

end

/-! ## Data directories that are the same for a client -/

/-- Both directories hold the same clients, the same jobs of client `c` and the
    same files for them. -/
structure SameFor (c : String) (s t : DataDir) : Prop where
  clients : s.db.clients = t.db.clients
  jobs : SameJobs c s.db t.db
  files : ∀ r ∈ s.db.jobs.rows, r.clientId = c → s.files r.filePath = t.files r.filePath

/-- Every job of a client other than `c` is as before, and so is its file. -/
structure OthersKept (c : String) (s s' : DataDir) : Prop where
  clients : s'.db.clients = s.db.clients
  jobs : ∀ r : JobRow, r.clientId ≠ c → (r ∈ s'.db.jobs.rows ↔ r ∈ s.db.jobs.rows)
  files : ∀ r ∈ s.db.jobs.rows, r.clientId ≠ c → s'.files r.filePath = s.files r.filePath

theorem OthersKept.refl (c : String) (s : DataDir) : OthersKept c s s :=
  ⟨rfl, fun _ _ => Iff.rfl, fun _ _ _ => rfl⟩

theorem OthersKept.trans {c : String} {s t u : DataDir} (h : OthersKept c s t)
    (h' : OthersKept c t u) : OthersKept c s u where
  clients := h'.clients.trans h.clients
  jobs r hr := (h'.jobs r hr).trans (h.jobs r hr)
  files r hmem hr := (h'.files r ((h.jobs r hr).mpr hmem) hr).trans (h.files r hmem hr)

/-- An id that no job has, and whose paths no job names. -/
structure FreshId (config : AppConfig) (id : String) (dir : DataDir) : Prop where
  unused : ∀ r ∈ dir.db.jobs.rows, r.id ≠ id
  unnamed : ∀ r ∈ dir.db.jobs.rows,
    r.filePath ≠ jobPath config id ∧ r.filePath ≠ temporaryPath config id

theorem FreshId.job?_eq_none {config : AppConfig} {id : String} {dir : DataDir}
    (h : FreshId config id dir) : dir.db.job? id = none :=
  (Relational.Table.lookup_eq_none fun r : JobRow => r.id).mpr h.unused

/-- Every job names the document of its own id. -/
def WellNamed (config : AppConfig) (dir : DataDir) : Prop :=
  ∀ r ∈ dir.db.jobs.rows, r.filePath = jobPath config r.id

/-- In a well named directory an id that no job has is fresh. -/
theorem WellNamed.freshId {config : AppConfig} {dir : DataDir} (h : WellNamed config dir)
    {id : String} (hunused : ∀ r ∈ dir.db.jobs.rows, r.id ≠ id) : FreshId config id dir where
  unused := hunused
  unnamed r hr := by
    rw [h r hr]
    exact ⟨fun heq => hunused r hr (jobPath_inj.mp heq), jobPath_ne_temporaryPath config r.id id⟩

/-! ## Updates of a client's job -/

section

variable {c : String} {s t : DataDir} {f : JobRow → JobRow}

theorem SameFor.updateJobs (h : SameFor c s t) (p : JobRow → Bool) (hf : ∀ r, (f r).id = r.id)
    (hkeep : ∀ r, (f r).clientId = r.clientId ∧ (f r).filePath = r.filePath) :
    SameFor c { s with db := s.db.updateJobs p f hf } { t with db := t.db.updateJobs p f hf } where
  clients := h.clients
  jobs := h.jobs.updateJobs hf fun r => (hkeep r).1
  files r hr hclient := by
    -- an updated row keeps its path, and it was the client's before
    obtain ⟨r₀, hmem, rfl⟩ := (Database.mem_updateJobs hf).mp hr
    by_cases hp : p r₀ = true
    · rw [if_pos hp] at hclient ⊢
      rw [(hkeep r₀).2]
      exact h.files r₀ hmem ((hkeep r₀).1.symm.trans hclient)
    · rw [if_neg hp] at hclient ⊢
      exact h.files r₀ hmem hclient

theorem othersKept_updateJobs {p : JobRow → Bool} (hf : ∀ r, (f r).id = r.id)
    (hp : ∀ r, p r = true → r.clientId = c)
    (hclient : ∀ r, (f r).clientId = r.clientId) :
    OthersKept c s { s with db := s.db.updateJobs p f hf } where
  clients := rfl
  jobs _ hr := mem_updateJobs_of_other hf hp hclient hr
  files _ _ _ := rfl

end

/-! ## Reads -/

section

variable {c : String} {s t : DataDir}

theorem SameFor.jobOrError (h : SameFor c s t) (id : String) (call : Fault) (missing : AppError)
    (o : Outside) : jobOrError s c id call missing o = jobOrError t c id call missing o := by
  unfold Api.jobOrError
  rw [Database.getJobForClient_eq, Database.getJobForClient_eq, h.jobs.ownJob? id]

theorem SameFor.getJob (h : SameFor c s t) (id : String) (o : Outside) :
    getJob s c id o = getJob t c id o := by
  unfold Api.getJob
  rw [h.jobOrError]

theorem SameFor.listJobs (h : SameFor c s t) (limit : Option Nat) (o : Outside) :
    listJobs s c limit o = listJobs t c limit o := by
  unfold Api.listJobs
  rw [h.jobs.listJobsForClient]

theorem SameFor.getDocument (h : SameFor c s t) (headerText : String → Bool) (id : String)
    (o : Outside) : getDocument headerText s c id o = getDocument headerText t c id o := by
  unfold Api.getDocument
  rw [Database.getJobFileForClient_eq, Database.getJobFileForClient_eq, ← h.jobs.ownJob? id]
  cases hrow : s.db.ownJob? id c with
  | none => rfl
  | some r =>
      obtain ⟨hmem, -, hclient⟩ := Database.ownJob?_eq_some.mp hrow
      simp only [Option.map_some, h.files r hmem hclient]

end

/-! ## Canceling and retrying -/

section

variable {c : String} {s t : DataDir}

theorem SameFor.changeJob {changed changed' : Database × Bool} (h : SameFor c s t)
    (hdone : changed.2 = changed'.2)
    (hafter : SameFor c { s with db := changed.1 } { t with db := changed'.1 }) (id : String)
    (refusal : AppError) (notices : List Obs) (o : Outside) :
    (changeJob s c id changed refusal notices o).2 =
        (changeJob t c id changed' refusal notices o).2 ∧
      SameFor c (changeJob s c id changed refusal notices o).1
        (changeJob t c id changed' refusal notices o).1 := by
  unfold Api.changeJob
  dsimp only
  rw [hdone, hafter.jobOrError]
  split
  · exact ⟨rfl, h⟩
  · split
    · exact ⟨rfl, hafter⟩
    · exact ⟨rfl, hafter⟩

theorem SameFor.cancelJob (h : SameFor c s t) (id : String) (o : Outside) :
    (cancelJob s c id o).2 = (cancelJob t c id o).2 ∧
      SameFor c (cancelJob s c id o).1 (cancelJob t c id o).1 := by
  refine h.changeJob ?_
    (h.updateJobs _ (fun r => r.cancel_id o.now) fun r => ⟨rfl, rfl⟩) id _ _ o
  -- the number of changed rows depends on the client's own job alone
  have hcount := h.jobs.countP id
    (p := fun r => r.id = id ∧ r.clientId = c ∧ r.state = .queued) (by simp +contextual)
  simp only [Database.cancelJob, hcount]

theorem SameFor.retryJob (h : SameFor c s t) (id : String) (o : Outside) :
    (retryJob s c id o).2 = (retryJob t c id o).2 ∧
      SameFor c (retryJob s c id o).1 (retryJob t c id o).1 := by
  refine h.changeJob ?_
    (h.updateJobs _ (fun r => r.retry_id o.now) fun r => ⟨rfl, rfl⟩) id _ _ o
  have hcount := h.jobs.countP id
    (p := fun r => r.id = id ∧ r.clientId = c ∧ (r.state = .failed ∨ r.state = .unknown) ∧
      r.attempts < 3) (by simp +contextual)
  simp only [Database.retryJob, hcount]

theorem othersKept_changeJob {changed : Database × Bool}
    (hafter : OthersKept c s { s with db := changed.1 }) (id : String) (refusal : AppError)
    (notices : List Obs) (o : Outside) :
    OthersKept c s (changeJob s c id changed refusal notices o).1 := by
  unfold changeJob
  dsimp only
  split
  · exact .refl c s
  · split <;> exact hafter

theorem othersKept_cancelJob (id : String) (o : Outside) :
    OthersKept c s (cancelJob s c id o).1 := by
  refine othersKept_changeJob ?_ id _ _ o
  exact othersKept_updateJobs (p := fun r => r.id = id ∧ r.clientId = c ∧ r.state = .queued)
    (fun r => r.cancel_id o.now) (by simp +contextual) fun _ => rfl

theorem othersKept_retryJob (id : String) (o : Outside) :
    OthersKept c s (retryJob s c id o).1 := by
  refine othersKept_changeJob ?_ id _ _ o
  exact othersKept_updateJobs
    (p := fun r => r.id = id ∧ r.clientId = c ∧ (r.state = .failed ∨ r.state = .unknown) ∧
      r.attempts < 3)
    (fun r => r.retry_id o.now) (by simp +contextual) fun _ => rfl

end

/-! ## Creating -/

section

variable (config : AppConfig)

/-- No call of `write_job_file` fails. -/
def Outside.writes (o : Outside) : Prop := .writeFile ∉ o.faults ∧ .renameFile ∉ o.faults

theorem writeJobFile_snd (files : String → Option (List UInt8)) (id : String)
    (bytes : List UInt8) (o : Outside) :
    (writeJobFile config files id bytes o).2 = true ↔ o.writes := by
  unfold writeJobFile Outside.writes
  split
  · simp [*]
  · dsimp only
    split <;> simp [*]

/-- `write_job_file` touches the two paths of its id. -/
theorem writeJobFile_of_ne {path : String} {id : String} (hdoc : path ≠ jobPath config id)
    (htmp : path ≠ temporaryPath config id) (files : String → Option (List UInt8))
    (bytes : List UInt8) (o : Outside) :
    (writeJobFile config files id bytes o).1 path = files path := by
  unfold writeJobFile
  split
  · exact Function.update_of_ne htmp _ _
  · dsimp only
    split
    · exact Function.update_of_ne htmp _ _
    · dsimp only
      rw [Function.update_of_ne hdoc, Function.update_of_ne htmp, Function.update_of_ne htmp]

theorem writeJobFile_jobPath (files : String → Option (List UInt8)) (id : String)
    (bytes : List UInt8) {o : Outside} (h : o.writes) :
    (writeJobFile config files id bytes o).1 (jobPath config id) = some bytes := by
  unfold writeJobFile
  rw [if_neg h.1]
  dsimp only
  rw [if_neg h.2]
  exact Function.update_self ..

theorem removeJobFile_of_ne {path : String} {id : String} (hdoc : path ≠ jobPath config id)
    (files : String → Option (List UInt8)) (o : Outside) :
    removeJobFile config files id o path = files path := by
  unfold removeJobFile
  split
  · rfl
  · exact Function.update_of_ne hdoc _ _

/-- The row that `create_job` inserts. -/
def createdRow (clientId : String) (parsed : ParsedJob) (report : PdfReport) (o : Outside) :
    JobRow :=
  (newJob parsed report o.id clientId (jobPath config o.id)).row o.now

/-- What `create_job` shows when it has stored the job. -/
def createdObs (clientId : String) (parsed : ParsedJob) (report : PdfReport) (o : Outside) :
    List Obs :=
  (if parsed.mode = .print then [.notified] else []) ++
    [.response (if .reload ∈ o.faults then errorResponse .internal
      else { jobResponse (createdRow config clientId parsed report o).toJob with status := 202 })]

/-- Nothing keeps `create_job` from storing the job. -/
def Stores (db : Database) (clientId : String) (parsed : ParsedJob) (report : PdfReport)
    (o : Outside) : Prop :=
  o.writes ∧ .insert ∉ o.faults ∧
    db.insertable (newJob parsed report o.id clientId (jobPath config o.id))

/-- What `create_job` does after the PDF check: the document cannot be written;
    or the row is refused, and the document removed; or the job is stored. -/
theorem storeJob_cases (dir : DataDir) (clientId : String) (parsed : ParsedJob)
    (report : PdfReport) (o : Outside) :
    let written := (writeJobFile config dir.files o.id parsed.bytes o).1
    (¬ o.writes ∧ storeJob config dir clientId parsed report o =
      ({ dir with files := written }, [.response (errorResponse .internal)])) ∨
    (o.writes ∧ ¬ (Stores config dir.db clientId parsed report o ∧ dir.db.job? o.id = none) ∧
      storeJob config dir clientId parsed report o =
        (⟨dir.db, removeJobFile config written o.id o⟩,
          [.response (errorResponse .internal)])) ∨
    (Stores config dir.db clientId parsed report o ∧ dir.db.job? o.id = none ∧
      ∃ db, dir.db.insertJob (newJob parsed report o.id clientId (jobPath config o.id)) o.now =
        .ok db ∧
      storeJob config dir clientId parsed report o =
        (⟨db, written⟩, createdObs config clientId parsed report o)) := by
  intro written
  have hwrites := writeJobFile_snd config dir.files o.id parsed.bytes o
  have hinsert := dir.db.insertJob_isOk_iff
    (newJob parsed report o.id clientId (jobPath config o.id)) o.now
  unfold storeJob
  -- the cases are those of `create_job`: writing, inserting, reloading
  rcases hwritten : writeJobFile config dir.files o.id parsed.bytes o with ⟨files, ok⟩
  obtain rfl : written = files := congrArg Prod.fst hwritten
  rw [hwritten] at hwrites
  cases ok with
  | false => exact Or.inl ⟨fun h => absurd (hwrites.mpr h) (by simp), rfl⟩
  | true =>
      have hwrites : o.writes := hwrites.mp rfl
      refine Or.inr ?_
      dsimp only
      by_cases hfault : .insert ∈ o.faults
      · rw [if_pos hfault]
        exact Or.inl ⟨hwrites, fun h => h.1.2.1 hfault, rfl⟩
      · rw [if_neg hfault]
        cases hdb : dir.db.insertJob
            (newJob parsed report o.id clientId (jobPath config o.id)) o.now with
        | error error =>
            refine Or.inl ⟨hwrites, fun h => ?_, rfl⟩
            obtain ⟨db, hok⟩ := hinsert.mpr ⟨h.2, h.1.2.2⟩
            rw [hdb] at hok
            cases hok
        | ok db =>
            obtain ⟨hfree, hok⟩ := hinsert.mp ⟨db, hdb⟩
            refine Or.inr ⟨⟨hwrites, hfault, hok⟩, hfree, db, rfl, ?_⟩
            -- the row that is read again is the one that was inserted
            have hrow : db.ownJob? o.id clientId =
                some (createdRow config clientId parsed report o) := by
              refine Database.ownJob?_eq_some.mpr ⟨?_, rfl, rfl⟩
              obtain ⟨-, -, hall⟩ := Database.insertJob_ok hdb
              exact Database.mem_of_job? ((hall _).trans (if_pos rfl))
            dsimp only
            unfold createdObs jobOrError
            rw [Database.getJobForClient_eq, hrow]
            by_cases hreload : .reload ∈ o.faults <;> simp [hreload]

/-- What storing a job under a fresh id does: the job and its document are there,
    or nothing is, and every file of other names is as before. -/
theorem storeJob_of_fresh {dir : DataDir} (clientId : String) (parsed : ParsedJob)
    (report : PdfReport) {o : Outside} (hfresh : FreshId config o.id dir) :
    (∀ path, path ≠ jobPath config o.id → path ≠ temporaryPath config o.id →
      (storeJob config dir clientId parsed report o).1.files path = dir.files path) ∧
    ((Stores config dir.db clientId parsed report o ∧
      (storeJob config dir clientId parsed report o).2 =
        createdObs config clientId parsed report o ∧
      (storeJob config dir clientId parsed report o).1.db.clients = dir.db.clients ∧
      (∀ r, r ∈ (storeJob config dir clientId parsed report o).1.db.jobs.rows ↔
        r ∈ dir.db.jobs.rows ∨ r = createdRow config clientId parsed report o) ∧
      (storeJob config dir clientId parsed report o).1.files (jobPath config o.id) =
        some parsed.bytes) ∨
    (¬ Stores config dir.db clientId parsed report o ∧
      (storeJob config dir clientId parsed report o).2 = [.response (errorResponse .internal)] ∧
      (storeJob config dir clientId parsed report o).1.db = dir.db)) := by
  have hother : ∀ path, path ≠ jobPath config o.id → path ≠ temporaryPath config o.id →
      (writeJobFile config dir.files o.id parsed.bytes o).1 path = dir.files path :=
    fun path hdoc htmp => writeJobFile_of_ne config hdoc htmp dir.files parsed.bytes o
  rcases storeJob_cases config dir clientId parsed report o with
    ⟨hno, heq⟩ | ⟨-, hno, heq⟩ | ⟨hstores, -, db, hdb, heq⟩
  · rw [heq]
    exact ⟨hother, Or.inr ⟨fun hstores => hno hstores.1, rfl, rfl⟩⟩
  · rw [heq]
    refine ⟨fun path hdoc htmp => ?_,
      Or.inr ⟨fun hstores => hno ⟨hstores, hfresh.job?_eq_none⟩, rfl, rfl⟩⟩
    exact (removeJobFile_of_ne config hdoc _ o).trans (hother path hdoc htmp)
  · have hinsert := Database.insertJob_of_free
      (newJob parsed report o.id clientId (jobPath config o.id)) hfresh.job?_eq_none o.now
    rw [if_pos hstores.2.2, hdb] at hinsert
    obtain ⟨db', hdb', hclients, hrows⟩ := hinsert
    cases hdb'
    rw [heq]
    exact ⟨hother, Or.inl ⟨hstores, rfl, hclients, hrows,
      writeJobFile_jobPath config dir.files o.id parsed.bytes hstores.1⟩⟩

/-- What `create_job` admits was accepted by `parse_job`. -/
theorem parseJob_of_admitJob {sha256Hex : List UInt8 → String}
    {validatePdf : List UInt8 → String → Except String PdfReport} {multipart : Multipart}
    {o : Outside} {parsed : ParsedJob} {report : PdfReport}
    (h : admitJob sha256Hex validatePdf multipart o = .ok (parsed, report)) :
    parseJob multipart = .ok parsed := by
  unfold admitJob at h
  cases hparse : parseJob multipart with
  | error error =>
      rw [hparse] at h
      cases h
  | ok parsed' =>
      rw [hparse] at h
      dsimp only at h
      split at h
      · cases h
      · split at h
        · cases h
        · cases h
          rfl

/-- An admitted job of a known client is stored unless a call fails: the checks of
    the schema ask for nothing that `parse_job` does not. -/
theorem stores_iff_of_admitted {sha256Hex : List UInt8 → String}
    {validatePdf : List UInt8 → String → Except String PdfReport} {db : Database}
    {clientId : String} (hclient : db.client? clientId ≠ none) {multipart : Multipart}
    {o : Outside} {parsed : ParsedJob} {report : PdfReport}
    (h : admitJob sha256Hex validatePdf multipart o = .ok (parsed, report))
    (hbytes : report.byteCount < 2 ^ 63) :
    Stores config db clientId parsed report o ↔ o.writes ∧ .insert ∉ o.faults := by
  obtain ⟨hleast, hmost, -⟩ := parseJob_ok (parseJob_of_admitJob h)
  constructor
  · rintro ⟨hwrites, hinsert, -⟩
    exact ⟨hwrites, hinsert⟩
  · rintro ⟨hwrites, hinsert⟩
    exact ⟨hwrites, hinsert, hbytes, hclient, hleast, hmost⟩

variable {c : String} {s t : DataDir}

theorem othersKept_storeJob (parsed : ParsedJob) (report : PdfReport) {o : Outside}
    (hfresh : FreshId config o.id s) :
    OthersKept c s (storeJob config s c parsed report o).1 := by
  obtain ⟨hfiles, hcases⟩ := storeJob_of_fresh config c parsed report hfresh
  have hnamed : ∀ r ∈ s.db.jobs.rows, r.clientId ≠ c →
      (storeJob config s c parsed report o).1.files r.filePath = s.files r.filePath :=
    fun r hmem _ => hfiles _ (hfresh.unnamed r hmem).1 (hfresh.unnamed r hmem).2
  rcases hcases with ⟨-, -, hclients, hrows, -⟩ | ⟨-, -, hdb⟩
  · refine ⟨hclients, fun r hr => ?_, hnamed⟩
    rw [hrows]
    -- the new row is the client's own
    have hne : r ≠ createdRow config c parsed report o := by
      rintro rfl
      exact hr rfl
    simp [hne]
  · exact ⟨congrArg (·.clients) hdb, fun r _ => by rw [hdb], hnamed⟩

theorem SameFor.stores_iff (h : SameFor c s t) (parsed : ParsedJob) (report : PdfReport)
    (o : Outside) :
    Stores config s.db c parsed report o ↔ Stores config t.db c parsed report o := by
  unfold Stores Database.insertable Database.client?
  rw [h.clients]

theorem SameFor.storeJob (h : SameFor c s t) (parsed : ParsedJob) (report : PdfReport)
    {o : Outside} (hs : FreshId config o.id s) (ht : FreshId config o.id t) :
    (storeJob config s c parsed report o).2 = (storeJob config t c parsed report o).2 ∧
      SameFor c (storeJob config s c parsed report o).1
        (storeJob config t c parsed report o).1 := by
  have hiff := h.stores_iff config parsed report o
  obtain ⟨hfiles, hcases⟩ := storeJob_of_fresh config c parsed report hs
  obtain ⟨hfiles', hcases'⟩ := storeJob_of_fresh config c parsed report ht
  -- the old documents of the client are named otherwise, in both
  have hold : ∀ r ∈ s.db.jobs.rows, r.clientId = c →
      (Api.storeJob config s c parsed report o).1.files r.filePath =
        (Api.storeJob config t c parsed report o).1.files r.filePath := by
    intro r hmem hclient
    obtain ⟨hdoc, htmp⟩ := hs.unnamed r hmem
    rw [hfiles _ hdoc htmp, hfiles' _ hdoc htmp, h.files r hmem hclient]
  -- the job is stored in both directories or in neither
  rcases hcases with ⟨hstores, hobs, hclients, hrows, hdoc⟩ | ⟨hno, hobs, hdb⟩
  · rcases hcases' with ⟨-, hobs', hclients', hrows', hdoc'⟩ | ⟨hno', -, -⟩
    · refine ⟨hobs.trans hobs'.symm, hclients.trans (h.clients.trans hclients'.symm),
        fun r hr => ?_, fun r hmem hclient => ?_⟩
      · rw [hrows, hrows', h.jobs r hr]
      · rcases (hrows r).mp hmem with hmem | rfl
        · exact hold r hmem hclient
        · exact hdoc.trans hdoc'.symm
    · exact absurd (hiff.mp hstores) hno'
  · rcases hcases' with ⟨hstores', -⟩ | ⟨-, hobs', hdb'⟩
    · exact absurd (hiff.mpr hstores') hno
    · refine ⟨hobs.trans hobs'.symm, ?_, fun r hr => ?_, fun r hmem hclient => ?_⟩
      · rw [hdb, hdb', h.clients]
      · rw [hdb, hdb', h.jobs r hr]
      · rw [hdb] at hmem
        exact hold r hmem hclient

end

/-! ## Requests -/

section

variable (sha256Hex : List UInt8 → String)
  (validatePdf : List UInt8 → String → Except String PdfReport) (headerText : String → Bool)
  (config : AppConfig)

/-- The request is one of client `c`, and the id it draws is fresh. -/
structure RequestOf (c : String) (dir : DataDir) (i : Input) : Prop where
  client : ∃ client, authenticate sha256Hex dir.db i.headers i.outside.authenticatedAt =
    .ok client ∧ client.id = c
  fresh : ∀ multipart, i.request = .createJob multipart → FreshId config i.outside.id dir

/-- Authentication looks at the clients table, the headers and the time. -/
theorem authenticate_congr {db db' : Database} (h : db.clients = db'.clients)
    (headers : HeaderMap) (now : Int) :
    authenticate sha256Hex db headers now = authenticate sha256Hex db' headers now := by
  unfold authenticate Database.findClientByTokenHash
  rw [h]

/-- A request of a client is answered by the handler for that client. -/
theorem RequestOf.handle_eq {c : String} {dir : DataDir} {i : Input}
    (h : RequestOf sha256Hex config c dir i) :
    handle sha256Hex validatePdf headerText config dir i =
      handleFor sha256Hex validatePdf headerText config dir c i.request i.outside := by
  obtain ⟨client, hclient, rfl⟩ := h.client
  unfold handle
  rw [hclient]

/-- A request that authenticates as no client is refused on the clients table,
    the headers and the time alone. -/
theorem handle_of_error {dir : DataDir} {i : Input} {error : AppError}
    (h : authenticate sha256Hex dir.db i.headers i.outside.authenticatedAt = .error error) :
    handle sha256Hex validatePdf headerText config dir i =
      (dir, [.response (errorResponse error)]) := by
  unfold handle
  rw [h]

variable {c : String} {s t : DataDir}

theorem SameFor.createJob (h : SameFor c s t) (multipart : Multipart) {o : Outside}
    (hs : FreshId config o.id s) (ht : FreshId config o.id t) :
    (createJob sha256Hex validatePdf config s c multipart o).2 =
        (createJob sha256Hex validatePdf config t c multipart o).2 ∧
      SameFor c (createJob sha256Hex validatePdf config s c multipart o).1
        (createJob sha256Hex validatePdf config t c multipart o).1 := by
  unfold Api.createJob
  cases admitJob sha256Hex validatePdf multipart o with
  | error error => exact ⟨rfl, h⟩
  | ok admitted =>
      obtain ⟨parsed, report⟩ := admitted
      exact h.storeJob config parsed report hs ht

theorem othersKept_createJob (multipart : Multipart) {o : Outside}
    (hs : FreshId config o.id s) :
    OthersKept c s (createJob sha256Hex validatePdf config s c multipart o).1 := by
  unfold createJob
  cases admitJob sha256Hex validatePdf multipart o with
  | error error => exact .refl c s
  | ok admitted =>
      obtain ⟨parsed, report⟩ := admitted
      exact othersKept_storeJob config parsed report hs

theorem SameFor.handle (h : SameFor c s t) {i : Input}
    (hs : RequestOf sha256Hex config c s i) (ht : RequestOf sha256Hex config c t i) :
    (handle sha256Hex validatePdf headerText config s i).2 =
        (handle sha256Hex validatePdf headerText config t i).2 ∧
      SameFor c (handle sha256Hex validatePdf headerText config s i).1
        (handle sha256Hex validatePdf headerText config t i).1 := by
  -- both runs reach the same handler, with the same client
  rw [hs.handle_eq, ht.handle_eq]
  obtain ⟨headers, request, o⟩ := i
  cases request with
  | createJob multipart =>
      exact h.createJob sha256Hex validatePdf config multipart (hs.fresh multipart rfl)
        (ht.fresh multipart rfl)
  | listJobs limit => exact ⟨congrArg (fun r => [Obs.response r]) (h.listJobs limit o), h⟩
  | getJob id => exact ⟨congrArg (fun r => [Obs.response r]) (h.getJob id o), h⟩
  | getDocument id =>
      exact ⟨congrArg (fun r => [Obs.response r]) (h.getDocument headerText id o), h⟩
  | cancelJob id => exact h.cancelJob id o
  | retryJob id => exact h.retryJob id o

theorem othersKept_handle {i : Input} (hs : RequestOf sha256Hex config c s i) :
    OthersKept c s (handle sha256Hex validatePdf headerText config s i).1 := by
  rw [hs.handle_eq]
  obtain ⟨headers, request, o⟩ := i
  cases request with
  | createJob multipart =>
      exact othersKept_createJob sha256Hex validatePdf config multipart (hs.fresh multipart rfl)
  | listJobs limit => exact .refl c s
  | getJob id => exact .refl c s
  | getDocument id => exact .refl c s
  | cancelJob id => exact othersKept_cancelJob id o
  | retryJob id => exact othersKept_retryJob id o

/-! ## Names of documents -/

theorem wellNamed_changeJob {dir : DataDir} (h : WellNamed config dir) {p : JobRow → Bool}
    {f : JobRow → JobRow} (hf : ∀ r, (f r).id = r.id) (hpath : ∀ r, (f r).filePath = r.filePath)
    (clientId id : String) (done : Bool) (refusal : AppError) (notices : List Obs)
    (o : Outside) :
    WellNamed config
      (changeJob dir clientId id (dir.db.updateJobs p f hf, done) refusal notices o).1 := by
  have hafter : WellNamed config { dir with db := dir.db.updateJobs p f hf } := by
    intro r hr
    obtain ⟨r₀, hmem, rfl⟩ := (Database.mem_updateJobs hf).mp hr
    split
    · rw [hpath, hf]
      exact h r₀ hmem
    · exact h r₀ hmem
  unfold changeJob
  split
  · exact h
  · dsimp only
    split <;> exact hafter

theorem wellNamed_storeJob {dir : DataDir} (h : WellNamed config dir) (clientId : String)
    (parsed : ParsedJob) (report : PdfReport) (o : Outside) :
    WellNamed config (storeJob config dir clientId parsed report o).1 := by
  unfold storeJob
  split
  · exact h
  · dsimp only
    split
    · exact h
    · next db hdb =>
        split at hdb
        · cases hdb
        · intro r hr
          rcases Database.row_of_insertJob hdb (Database.job?_of_mem hr) with ⟨-, rfl⟩ | hold
          · rfl
          · exact h r (Database.mem_of_job? hold)

/-- The agent names every document after its job: a request keeps a directory
    well named. -/
theorem wellNamed_handle {dir : DataDir} (h : WellNamed config dir) (i : Input) :
    WellNamed config (handle sha256Hex validatePdf headerText config dir i).1 := by
  unfold handle
  split
  · exact h
  · next client _ =>
      obtain ⟨headers, request, o⟩ := i
      cases request with
      | createJob multipart =>
          show WellNamed config (createJob _ _ _ _ _ _ _).1
          unfold createJob
          split
          · exact h
          · exact wellNamed_storeJob config h _ _ _ o
      | listJobs limit => exact h
      | getJob id => exact h
      | getDocument id => exact h
      | cancelJob id =>
          exact wellNamed_changeJob config h (fun r => r.cancel_id o.now) (fun _ => rfl) _ _ _ _ _ o
      | retryJob id =>
          exact wellNamed_changeJob config h (fun r => r.retry_id o.now) (fun _ => rfl) _ _ _ _ _ o

/-- So it stays well named in every run, and there an id that is not in use is
    fresh. -/
theorem freshId_run {dir : DataDir} (h : WellNamed config dir) (is : List Input) {id : String}
    (hunused : ∀ r ∈ (run (handle sha256Hex validatePdf headerText config) dir is).db.jobs.rows,
      r.id ≠ id) :
    FreshId config id (run (handle sha256Hex validatePdf headerText config) dir is) := by
  have hnamed : WellNamed config
      (run (handle sha256Hex validatePdf headerText config) dir is) :=
    run_invariant (fun _ dir => WellNamed config dir) h
      (fun _ _ i hinv => wellNamed_handle sha256Hex validatePdf headerText config hinv i) is
  exact hnamed.freshId hunused

end

/-- **Clients are isolated.**  In two data directories that are the same for
    client `c`, the same requests of `c`, which draw ids that are fresh in both,
    show the same and leave directories that are again the same for `c`; they
    leave every job and file of other clients alone.  A request that
    authenticates as no client changes nothing, and its response is the same
    whatever the jobs and the files are. -/
theorem clients_isolated (sha256Hex : List UInt8 → String)
    (validatePdf : List UInt8 → String → Except String PdfReport) (headerText : String → Bool)
    (config : AppConfig) (c : String) (s t : DataDir) (is : List Input) (hsame : SameFor c s t)
    (hs : Along (handle sha256Hex validatePdf headerText config)
      (fun _ dir i => RequestOf sha256Hex config c dir i) s is)
    (ht : Along (handle sha256Hex validatePdf headerText config)
      (fun _ dir i => RequestOf sha256Hex config c dir i) t is) :
    let step := handle sha256Hex validatePdf headerText config
    trace step s is = trace step t is ∧
    SameFor c (run step s is) (run step t is) ∧
    OthersKept c s (run step s is) ∧
    (∀ (u v : DataDir) (i : Input) (error : AppError), u.db.clients = v.db.clients →
      authenticate sha256Hex u.db i.headers i.outside.authenticatedAt = .error error →
      step u i = (u, [.response (errorResponse error)]) ∧
        step v i = (v, [.response (errorResponse error)])) := by
  intro step
  have hstep : ∀ s t i, SameFor c s t → RequestOf sha256Hex config c s i →
      RequestOf sha256Hex config c t i →
      (step s i).2 = (step t i).2 ∧ SameFor c (step s i).1 (step t i).1 :=
    fun s t i h hs ht => h.handle sha256Hex validatePdf headerText config hs ht
  obtain ⟨htrace, hend⟩ := trace_eq_of_lockstep hstep hsame hs ht
  have hkept := run_history_invariant (fun _ dir => OthersKept c s dir) (OthersKept.refl c s)
    (fun _ _ _ hok hinv =>
      hinv.trans (othersKept_handle sha256Hex validatePdf headerText config hok)) hs
  refine ⟨htrace, hend, hkept, fun u v i error hclients herror => ⟨?_, ?_⟩⟩
  · exact handle_of_error sha256Hex validatePdf headerText config herror
  · rw [authenticate_congr sha256Hex hclients] at herror
    exact handle_of_error sha256Hex validatePdf headerText config herror

/-! ## A neighbor's job -/

/-- A second local client. -/
def exampleNeighbor : ClientRow :=
  { exampleClient with
    id := "c2"
    tokenHash := "328cd9c993e1a2356f2d81ecf7b82a7a05b94c75ac887a088dd203ac75869f30" }

def exampleNeighborJob : JobRow where
  id := "j2"
  clientId := "c2"
  printerId := "capture:pdf"
  state := .queued
  mode := .print
  copies := 1
  pageCount := 1
  byteCount := 9
  sha256 := "d2"
  attempts := 0
  detail := none
  createdAt := 0
  updatedAt := 0
  filePath := "C:\\PrintLatch\\jobs\\j2.pdf"

theorem exampleNeighborJob_distinct :
    [exampleNeighborJob].Pairwise fun a b => ¬ jobsClash a b := List.pairwise_singleton _ _

/-- Both clients, without jobs. -/
def exampleAlone : DataDir :=
  ⟨{ Database.fresh with clients := ⟨[exampleClient, exampleNeighbor], by decide⟩ },
    fun _ => none⟩

/-- Both clients, and a job of the second. -/
def exampleShared : DataDir :=
  ⟨{ exampleAlone.db with jobs := ⟨[exampleNeighborJob], exampleNeighborJob_distinct⟩ },
    fun path => if path = exampleNeighborJob.filePath then some (Text.utf8 "%PDF-1.7\n") else none⟩

/-- The first checks of `validate_pdf`, up to the first that an empty document
    fails. -/
def examplePdfCheck (bytes : List UInt8) (mime : String) : Except String PdfReport :=
  if mime ≠ "application/pdf" then .error "MIME type must be application/pdf"
  else if bytes = [] then .error "PDF is empty"
  else .error "PDF signature is missing"

/-- The first client tries to cancel the second's job, and sends an empty
    document. -/
def exampleRequests : List Input :=
  let headers : HeaderMap := [("authorization", Text.utf8 "Bearer pl_live_demo")]
  let outside : Outside := ⟨0, 0, "j3", none, [], none⟩
  [⟨headers, .cancelJob "j2", outside⟩,
    ⟨headers, .createJob [.ok ⟨some "mode", none, .ok (Text.utf8 "preview"), .ok "preview"⟩,
      .ok ⟨some "file", some "application/pdf", .ok [], .ok ""⟩], outside⟩]

theorem clients_isolated_of_exampleShared :
    trace (handle exampleTokenDigest examplePdfCheck (fun _ => true) exampleConfig)
        exampleShared exampleRequests =
      trace (handle exampleTokenDigest examplePdfCheck (fun _ => true) exampleConfig)
        exampleAlone exampleRequests ∧
    OthersKept "c1" exampleShared
      (run (handle exampleTokenDigest examplePdfCheck (fun _ => true) exampleConfig)
        exampleShared exampleRequests) := by
  have hsame : SameFor "c1" exampleShared exampleAlone := by
    have hnone : ∀ r ∈ exampleShared.db.jobs.rows, r.clientId ≠ "c1" := by decide
    refine ⟨rfl, fun r hr => ?_, fun r hmem hr => absurd hr (hnone r hmem)⟩
    exact iff_of_false (fun hmem => hnone r hmem hr) (List.not_mem_nil)
  obtain ⟨htrace, -, hkept, -⟩ := clients_isolated exampleTokenDigest examplePdfCheck
    (fun _ => true) exampleConfig "c1" exampleShared exampleAlone exampleRequests hsame
    (along_cons.mpr ⟨⟨⟨_, rfl, rfl⟩, nofun⟩, along_cons.mpr
      ⟨⟨⟨_, rfl, rfl⟩, fun _ _ => ⟨by decide, by decide⟩⟩, along_nil⟩⟩)
    (along_cons.mpr ⟨⟨⟨_, rfl, rfl⟩, nofun⟩, along_cons.mpr
      ⟨⟨⟨_, rfl, rfl⟩, fun _ _ => ⟨by decide, by decide⟩⟩, along_nil⟩⟩)
  exact ⟨htrace, hkept⟩

end PrintLatch.Api
