/-
  PrintLatch.Api.Rejection

  What a rejected `create_job` leaves behind (`src/api.rs`).

  The handler touches two stores, in the order temporary file, document, row,
  and takes back only the document, when the row is refused.  The other
  failures after the PDF check keep what is there already: a partly written or
  unrenamed temporary file, and a row that could not be read again.
-/

import PrintLatch.Api.Isolation
import PrintLatch.PdfGuard

namespace PrintLatch.Api

/-! ## Rejections and their remains -/

/-- The handler returned an error. -/
def Rejected (obs : List Obs) : Prop := ∃ error, Obs.response (errorResponse error) ∈ obs

/-- No row and no file is there that was not there before. -/
structure NothingNew (dir dir' : DataDir) : Prop where
  rows : ∀ r ∈ dir'.db.jobs.rows, r ∈ dir.db.jobs.rows
  files : ∀ path, dir.files path = none → dir'.files path = none

theorem NothingNew.refl (dir : DataDir) : NothingNew dir dir := ⟨fun _ hr => hr, fun _ h => h⟩

section

variable (config : AppConfig)

/-- `fs::write` fails after it has made a new temporary file. -/
def PartlyWritten (dir : DataDir) (o : Outside) : Prop :=
  .writeFile ∈ o.faults ∧ o.leftover ≠ none ∧ dir.files (temporaryPath config o.id) = none

/-- A new temporary file is written, and cannot be renamed. -/
def NotRenamed (dir : DataDir) (o : Outside) : Prop :=
  .writeFile ∉ o.faults ∧ .renameFile ∈ o.faults ∧
    dir.files (temporaryPath config o.id) = none

/-- The job is stored, and cannot be read again. -/
def NotReloaded (dir : DataDir) (clientId : String) (parsed : ParsedJob) (report : PdfReport)
    (o : Outside) : Prop :=
  Stores config dir.db clientId parsed report o ∧ dir.db.job? o.id = none ∧ .reload ∈ o.faults

/-- A call fails whose predecessors are not taken back. -/
def Abandons (dir : DataDir) (clientId : String) (parsed : ParsedJob) (report : PdfReport)
    (o : Outside) : Prop :=
  PartlyWritten config dir o ∨ NotRenamed config dir o ∨
    NotReloaded config dir clientId parsed report o

/-! ## Files -/

/-- What `write_job_file` leaves at the temporary path. -/
theorem writeJobFile_temporaryPath (files : String → Option (List UInt8)) (id : String)
    (bytes : List UInt8) (o : Outside) :
    (writeJobFile config files id bytes o).1 (temporaryPath config id) =
      if .writeFile ∈ o.faults then o.leftover
      else if .renameFile ∈ o.faults then some bytes
      else none := by
  unfold writeJobFile
  split
  · exact Function.update_self ..
  · dsimp only
    split
    · exact Function.update_self ..
    · show Function.update _ _ _ _ = _
      rw [Function.update_of_ne (jobPath_ne_temporaryPath config id id).symm, Function.update_self]

/-- When it fails, the document is as before. -/
theorem writeJobFile_jobPath_of_failed (files : String → Option (List UInt8)) (id : String)
    (bytes : List UInt8) {o : Outside} (h : ¬ o.writes) :
    (writeJobFile config files id bytes o).1 (jobPath config id) = files (jobPath config id) := by
  have hne := jobPath_ne_temporaryPath config id id
  unfold writeJobFile
  split
  · exact Function.update_of_ne hne _ _
  · next hwrite =>
      dsimp only
      split
      · exact Function.update_of_ne hne _ _
      · next hrename => exact absurd ⟨hwrite, hrename⟩ h

/-- A failed `write_job_file` leaves a new file exactly when it leaves a new
    temporary file. -/
theorem noNewFile_writeJobFile_iff (dir : DataDir) (bytes : List UInt8) {o : Outside}
    (h : ¬ o.writes) :
    (∀ path, dir.files path = none → (writeJobFile config dir.files o.id bytes o).1 path = none) ↔
      ¬ (PartlyWritten config dir o ∨ NotRenamed config dir o) := by
  have htmp := writeJobFile_temporaryPath config dir.files o.id bytes o
  constructor
  · rintro hfiles (⟨hwrite, hleft, hnone⟩ | ⟨hwrite, hrename, hnone⟩)
    · have hnew := hfiles _ hnone
      rw [htmp, if_pos hwrite] at hnew
      exact hleft hnew
    · have hnew := hfiles _ hnone
      rw [htmp, if_neg hwrite, if_pos hrename] at hnew
      cases hnew
  · intro hkept path hnone
    by_cases hpath : path = temporaryPath config o.id
    · subst hpath
      rw [htmp]
      -- a fault at a call that would have made the file is one of the two kinds
      split
      · next hwrite =>
          by_contra hleft
          exact hkept (Or.inl ⟨hwrite, hleft, hnone⟩)
      · next hwrite =>
          split
          · next hrename => exact absurd (Or.inr ⟨hwrite, hrename, hnone⟩) hkept
          · rfl
    · by_cases hdoc : path = jobPath config o.id
      · subst hdoc
        rw [writeJobFile_jobPath_of_failed config dir.files o.id bytes h]
        exact hnone
      · rw [writeJobFile_of_ne config hdoc hpath]
        exact hnone

/-- After `write_job_file` has succeeded, removing the document leaves no new
    file. -/
theorem removeJobFile_writeJobFile (dir : DataDir) (bytes : List UInt8) {o : Outside}
    (hwrites : o.writes) (hremove : .removeFile ∉ o.faults) {path : String}
    (hnone : dir.files path = none) :
    removeJobFile config (writeJobFile config dir.files o.id bytes o).1 o.id o path = none := by
  by_cases hdoc : path = jobPath config o.id
  · subst hdoc
    unfold removeJobFile
    rw [if_neg hremove]
    exact Function.update_self ..
  · rw [removeJobFile_of_ne config hdoc]
    by_cases htmp : path = temporaryPath config o.id
    · subst htmp
      rw [writeJobFile_temporaryPath, if_neg hwrites.1, if_neg hwrites.2]
    · rw [writeJobFile_of_ne config hdoc htmp]
      exact hnone

/-! ## The handler after the PDF check -/

/-- A stored job is answered with an error exactly when it cannot be read again. -/
theorem rejected_createdObs (clientId : String) (parsed : ParsedJob) (report : PdfReport)
    (o : Outside) :
    Rejected (createdObs config clientId parsed report o) ↔ .reload ∈ o.faults := by
  unfold Rejected createdObs
  constructor
  · rintro ⟨error, hmem⟩
    by_contra hreload
    rw [if_neg hreload] at hmem
    -- the notice is no response, and a job is no error
    rcases List.mem_append.mp hmem with hnotice | hresponse
    · split at hnotice
      · cases List.mem_singleton.mp hnotice
      · cases hnotice
    · have hbody := congrArg (fun obs => match obs with
        | .response response => some response.body
        | .notified => none) (List.mem_singleton.mp hresponse)
      cases hbody
  · intro hreload
    rw [if_pos hreload]
    exact ⟨_, List.mem_append_right _ (List.mem_singleton_self _)⟩

/-- Whether a rejected `create_job` has left something, after the PDF check. -/
theorem storeJob_leaves_nothing_iff (dir : DataDir) (clientId : String) (parsed : ParsedJob)
    (report : PdfReport) {o : Outside} (hremove : .removeFile ∉ o.faults) :
    (Rejected (storeJob config dir clientId parsed report o).2 →
      NothingNew dir (storeJob config dir clientId parsed report o).1) ↔
    ¬ Abandons config dir clientId parsed report o := by
  have hrejected : Rejected [.response (errorResponse .internal)] :=
    ⟨.internal, List.mem_singleton_self _⟩
  rcases storeJob_cases config dir clientId parsed report o with
    ⟨hno, heq⟩ | ⟨hwrites, hno, heq⟩ | ⟨hstores, hfree, db, hdb, heq⟩
  · rw [heq]
    have hiff := noNewFile_writeJobFile_iff config dir parsed.bytes hno
    constructor
    · rintro hnothing (hpartly | hunnamed | hunread)
      · exact hiff.mp (hnothing hrejected).files (Or.inl hpartly)
      · exact hiff.mp (hnothing hrejected).files (Or.inr hunnamed)
      · exact hno hunread.1.1
    · intro hkept _
      refine ⟨fun _ hr => hr, hiff.mpr ?_⟩
      rintro (hpartly | hunnamed)
      · exact hkept (Or.inl hpartly)
      · exact hkept (Or.inr (Or.inl hunnamed))
  · -- the document is the only new file, and it is removed
    rw [heq]
    refine iff_of_true (fun _ => ⟨fun _ hr => hr, fun path hnone => ?_⟩) ?_
    · exact removeJobFile_writeJobFile config dir parsed.bytes hwrites hremove hnone
    · rintro (hpartly | hunnamed | hunread)
      · exact hwrites.1 hpartly.1
      · exact hwrites.2 hunnamed.2.1
      · exact hno ⟨hunread.1, hunread.2.1⟩
  · rw [heq, rejected_createdObs]
    constructor
    · rintro hnothing (hpartly | hunnamed | hunread)
      · exact hstores.1.1 hpartly.1
      · exact hstores.1.2 hunnamed.2.1
      · -- the row is there, and its id was free
        obtain ⟨-, -, hall⟩ := Database.insertJob_ok hdb
        have hrow := Database.mem_of_job? ((hall o.id).trans (if_pos rfl))
        exact (Relational.Table.lookup_eq_none fun r : JobRow => r.id).mp hfree _
          ((hnothing hunread.2.2).rows _ hrow) rfl
    · intro hkept hreload
      exact absurd (Or.inr (Or.inr ⟨hstores, hfree, hreload⟩)) hkept

end

/-! ## Requests -/

/-- **When a rejected job creation leaves nothing behind.**  It does for every
    request and every failure up to the PDF check, and after it exactly when
    no call fails whose predecessors are not taken back: the temporary file stays
    when it is partly written or cannot be renamed, and the queued job stays when
    it cannot be read again. -/
theorem createJob_leaves_nothing_iff (sha256Hex : List UInt8 → String)
    (validatePdf : List UInt8 → String → Except String PdfReport) (headerText : String → Bool)
    (config : AppConfig) (dir : DataDir) (headers : HeaderMap) (multipart : Multipart)
    (o : Outside) (hremove : .removeFile ∉ o.faults) :
    (Rejected (handle sha256Hex validatePdf headerText config dir
        ⟨headers, .createJob multipart, o⟩).2 →
      NothingNew dir (handle sha256Hex validatePdf headerText config dir
        ⟨headers, .createJob multipart, o⟩).1) ↔
    ∀ client parsed report,
      authenticate sha256Hex dir.db headers o.authenticatedAt = .ok client →
      admitJob sha256Hex validatePdf multipart o = .ok (parsed, report) →
      ¬ Abandons config dir client.id parsed report o := by
  cases hauth : authenticate sha256Hex dir.db headers o.authenticatedAt with
  | error error =>
      have heq : handle sha256Hex validatePdf headerText config dir
          ⟨headers, .createJob multipart, o⟩ = (dir, [.response (errorResponse error)]) :=
        handle_of_error sha256Hex validatePdf headerText config hauth
      rw [heq]
      exact iff_of_true (fun _ => .refl dir) nofun
  | ok client =>
      have heq : handle sha256Hex validatePdf headerText config dir
          ⟨headers, .createJob multipart, o⟩ =
          createJob sha256Hex validatePdf config dir client.id multipart o := by
        unfold handle
        rw [hauth]
        rfl
      rw [heq]
      unfold createJob
      cases hadmitted : admitJob sha256Hex validatePdf multipart o with
      | error error => exact iff_of_true (fun _ => .refl dir) nofun
      | ok admitted =>
          obtain ⟨parsed, report⟩ := admitted
          have hiff := storeJob_leaves_nothing_iff config dir client.id parsed report hremove
          constructor
          · intro h client' parsed' report' hclient hadmitted
            cases hclient
            cases hadmitted
            exact hiff.mp h
          · intro h
            exact hiff.mpr (h client parsed report rfl rfl)

/-- An empty data directory with one client. -/
def exampleDir : DataDir := ⟨exampleDatabase, fun _ => none⟩

/-- A document for the capture printer, sent by the example client while `faults`
    occur. -/
def examplePrint (faults : List Fault) : Input where
  headers := [("authorization", Text.utf8 "Bearer pl_live_demo")]
  request := .createJob [.ok ⟨some "mode", none, .ok (Text.utf8 "print"), .ok "print"⟩,
    .ok ⟨some "file", some "application/pdf", .ok PdfGuard.minimalPdf, .ok ""⟩]
  outside := ⟨0, 0, "j1", some [], faults, none⟩

/-- A row that is refused takes its document with it. -/
theorem createJob_leaves_nothing_of_refused :
    NothingNew exampleDir (handle exampleTokenDigest PdfGuard.minimalCheck (fun _ => true)
      exampleConfig exampleDir (examplePrint [.insert])).1 := by
  refine (createJob_leaves_nothing_iff exampleTokenDigest PdfGuard.minimalCheck (fun _ => true)
    exampleConfig exampleDir _ _ _ (by decide)).mpr ?_ ⟨.internal, by decide +kernel⟩
  rintro client parsed report - - (hpartly | hunnamed | hunread)
  · exact absurd hpartly.1 (by decide)
  · exact absurd hunnamed.2.1 (by decide)
  · exact absurd (by decide) hunread.1.2.1

/-- The select after the insertion fails: the client is told of an internal error,
    the worker of a queued job.  Sent again, the document is queued twice. -/
theorem createJob_rejected_and_queued :
    let step := handle exampleTokenDigest PdfGuard.minimalCheck (fun _ => true) exampleConfig
    let rejected := step exampleDir (examplePrint [.reload])
    rejected.2 = [.notified, .response (errorResponse .internal)] ∧
      ¬ NothingNew exampleDir rejected.1 ∧
      rejected.1.db.jobs.rows.map (fun r => (r.id, r.state)) = [("j1", .queued)] ∧
      let again := examplePrint []
      (step rejected.1
        { again with outside := { again.outside with id := "j2" } }).1.db.jobs.rows.map
          (fun r => (r.id, r.state)) = [("j1", .queued), ("j2", .queued)] := by
  have hrows : (handle exampleTokenDigest PdfGuard.minimalCheck (fun _ => true) exampleConfig
      exampleDir (examplePrint [.reload])).1.db.jobs.rows.map (fun r => (r.id, r.state)) =
      [("j1", .queued)] := by decide +kernel
  refine ⟨by decide +kernel, fun hnothing => ?_, hrows, by decide +kernel⟩
  have hnone : (handle exampleTokenDigest PdfGuard.minimalCheck (fun _ => true) exampleConfig
      exampleDir (examplePrint [.reload])).1.db.jobs.rows = [] :=
    List.eq_nil_iff_forall_not_mem.mpr fun r hr => List.not_mem_nil (hnothing.rows r hr)
  rw [hnone] at hrows
  cases hrows

end PrintLatch.Api
