/-
  PrintLatch.Api.Handlers

  The handlers for jobs (`src/api.rs`), as a machine over the data directory.

  One input is one request, with what the handler cannot choose: the clock, the
  drawn id, the enumerated printers and which calls fail.  Path, query and body
  were extracted before the handler runs.  Each handler authenticates first, and
  is given the client here.

  `validatePdf` is `pdf_guard::validate_pdf`, whose error is its text, and
  `headerText` says which texts `HeaderValue::from_str` accepts.
-/

import PrintLatch.Api.Multipart
import PrintLatch.Auth.Authenticate
import PrintLatch.Db.Jobs
import PrintLatch.Reactive.Machine
import Mathlib.Logic.Function.Basic

namespace PrintLatch.Api

/-! ## Requests and responses -/

/-- The database, and the files by their paths. -/
structure DataDir where
  db : Database
  files : String → Option (List UInt8)

/-- A response body. -/
inductive Body where
  | job (job : Job)
  | jobs (jobs : List Job)
  | document (bytes : List UInt8)
  | error (code message : String)
  deriving DecidableEq, Repr

/-- A response, with the headers the handler sets. -/
structure Response where
  status : Nat
  headers : List (String × String)
  body : Body
  deriving DecidableEq, Repr

/-- `into_response` of an error. -/
def errorResponse (error : AppError) : Response :=
  ⟨error.status, [], .error error.code error.message⟩

/-- `Json(JobResponse { job })`. -/
def jobResponse (job : Job) : Response := ⟨200, [], .job job⟩

/-- The response of `get_document`. -/
def documentResponse (id : String) (bytes : List UInt8) : Response :=
  ⟨200, [("content-type", "application/pdf"),
    ("content-disposition", s!"inline; filename=\"printlatch-{id}.pdf\""),
    ("cache-control", "no-store, private"), ("x-content-type-options", "nosniff")],
    .document bytes⟩

/-- A request to a handler for jobs. -/
inductive Request where
  | createJob (multipart : Multipart)
  | listJobs (limit : Option Nat)
  | getJob (id : String)
  | getDocument (id : String)
  | cancelJob (id : String)
  | retryJob (id : String)

/-- A call of a handler that can fail. -/
inductive Fault where
  | select
  | update
  | insert
  | reload
  | readFile
  | writeFile
  | renameFile
  | removeFile
  deriving DecidableEq, Repr

/-- What a handler cannot choose. -/
structure Outside where
  /-- The clock in `authenticate`. -/
  authenticatedAt : Int
  /-- The clock in the statement that changes a job. -/
  now : Int
  /-- `Uuid::new_v4()`. -/
  id : String
  /-- `PrinterDevice::all()`. -/
  devices : Option (List PrinterDevice)
  faults : List Fault
  /-- What a failed `fs::write` leaves at its path. -/
  leftover : Option (List UInt8)
  deriving DecidableEq, Repr

/-- A request as the agent receives it. -/
structure Input where
  headers : HeaderMap
  request : Request
  outside : Outside

/-- What a request shows. -/
inductive Obs where
  /-- `QueueSignal::notify`. -/
  | notified
  | response (response : Response)
  deriving DecidableEq, Repr

/-! ## Reading -/

/-- A select for one job and the response with it. -/
def jobOrError (dir : DataDir) (clientId id : String) (call : Fault) (missing : AppError)
    (o : Outside) : Except AppError Job :=
  if call ∈ o.faults then .error .internal
  else
    match dir.db.getJobForClient id clientId with
    | none => .error missing
    | some job => .ok job

/-- The response of a handler that ends in a job. -/
def respond : Except AppError Job → Response
  | .error error => errorResponse error
  | .ok job => jobResponse job

/-- `get_job`. -/
def getJob (dir : DataDir) (clientId id : String) (o : Outside) : Response :=
  respond (jobOrError dir clientId id .select (.notFound "job not found") o)

/-- The limit of `list_jobs`: 25 unless given, from 1 to 100. -/
def listLimit (limit : Option Nat) : Nat := min (max (limit.getD 25) 1) 100

/-- `list_jobs`. -/
def listJobs (dir : DataDir) (clientId : String) (limit : Option Nat) (o : Outside) : Response :=
  if .select ∈ o.faults then errorResponse .internal
  else ⟨200, [], .jobs (dir.db.listJobsForClient clientId (listLimit limit))⟩

/-- The states `get_document` answers for. -/
def hasDocument (state : JobState) : Bool :=
  state = .previewReady ∨ state = .queued ∨ state = .printing ∨ state = .succeeded ∨
    state = .failed ∨ state = .unknown

/-- `get_document`. -/
def getDocument (headerText : String → Bool) (dir : DataDir) (clientId id : String)
    (o : Outside) : Response :=
  if .select ∈ o.faults then errorResponse .internal
  else
    match dir.db.getJobFileForClient id clientId with
    | none => errorResponse (.notFound "job not found")
    | some (job, path) =>
        if ¬ hasDocument job.state then
          errorResponse (.conflict "document is not available for this job state")
        else
          -- a missing file is an error of `fs::read` like any other
          match if .readFile ∈ o.faults then none else dir.files path with
          | none => errorResponse .internal
          | some bytes =>
              if headerText s!"inline; filename=\"printlatch-{id}.pdf\"" then
                documentResponse id bytes
              else errorResponse .internal

/-! ## Canceling and retrying -/

/-- What `cancel_job` and `retry_job` do with the statement's result `changed`:
    the refusal, or the notices and the job. -/
def changeJob (dir : DataDir) (clientId id : String) (changed : Database × Bool)
    (refusal : AppError) (notices : List Obs) (o : Outside) : DataDir × List Obs :=
  -- `?` turns a database error into an internal error
  if .update ∈ o.faults then (dir, [.response (errorResponse .internal)])
  else
    let after := { dir with db := changed.1 }
    if changed.2 then
      (after, notices ++ [.response (respond (jobOrError after clientId id .reload
        (.notFound "job not found") o))])
    else (after, [.response (errorResponse refusal)])

/-- `cancel_job`. -/
def cancelJob (dir : DataDir) (clientId id : String) (o : Outside) : DataDir × List Obs :=
  changeJob dir clientId id (dir.db.cancelJob id clientId o.now)
    (.conflict "only queued jobs can be canceled") [] o

/-- `retry_job`. -/
def retryJob (dir : DataDir) (clientId id : String) (o : Outside) : DataDir × List Obs :=
  changeJob dir clientId id (dir.db.retryJob id clientId o.now)
    (.conflict "only failed or interrupted jobs with fewer than three attempts can be retried")
    [.notified] o

/-! ## Creating -/

section

variable (sha256Hex : List UInt8 → String)
  (validatePdf : List UInt8 → String → Except String PdfReport)

/-- `create_job` up to the PDF check: nothing is read or written. -/
def admitJob (multipart : Multipart) (o : Outside) : Except AppError (ParsedJob × PdfReport) :=
  match parseJob multipart with
  | .error error => .error error
  | .ok parsed =>
      let available : Except AppError Unit :=
        if parsed.mode = .print then
          match printerExists sha256Hex o.devices parsed.printerId with
          | none => .error .internal
          | some false => .error (.badRequest "printer_id is not currently available")
          | some true => .ok ()
        else .ok ()
      match available with
      | .error error => .error error
      | .ok () =>
          match validatePdf parsed.bytes parsed.mime with
          | .error message => .error (.badRequest message)
          | .ok report => .ok (parsed, report)

/-- The document of job `id`. -/
def jobPath (config : AppConfig) (id : String) : String := joinPath config.jobsDir s!"{id}.pdf"

/-- `path.with_extension("pdf.tmp")` for the document of job `id`. -/
def temporaryPath (config : AppConfig) (id : String) : String :=
  joinPath config.jobsDir s!"{id}.pdf.tmp"

theorem jobPath_inj {config : AppConfig} {id id' : String} :
    jobPath config id = jobPath config id' ↔ id = id' := by
  unfold jobPath
  rw [joinPath_inj]
  show id ++ ".pdf" = id' ++ ".pdf" ↔ _
  simp

theorem jobPath_ne_temporaryPath (config : AppConfig) (id id' : String) :
    jobPath config id ≠ temporaryPath config id' := by
  unfold jobPath temporaryPath
  rw [Ne, joinPath_inj]
  intro h
  -- the names end in different letters
  have hlast : (id ++ ".pdf").toList.getLast? = (id' ++ ".pdf.tmp").toList.getLast? :=
    congrArg (fun name : String => name.toList.getLast?) h
  have hdoc : ".pdf".toList.getLast? = some 'f' := by decide
  have htmp : ".pdf.tmp".toList.getLast? = some 'p' := by decide
  rw [String.toList_append, String.toList_append, List.getLast?_append, List.getLast?_append,
    hdoc, htmp] at hlast
  simp at hlast

/-- `write_job_file`: whether it succeeded. -/
def writeJobFile (config : AppConfig) (files : String → Option (List UInt8)) (id : String)
    (bytes : List UInt8) (o : Outside) : (String → Option (List UInt8)) × Bool :=
  if .writeFile ∈ o.faults then
    (Function.update files (temporaryPath config id) o.leftover, false)
  else
    -- the temporary file stays when it cannot be renamed
    let written := Function.update files (temporaryPath config id) (some bytes)
    if .renameFile ∈ o.faults then (written, false)
    else
      (Function.update (Function.update written (temporaryPath config id) none)
        (jobPath config id) (some bytes), true)

/-- `fs::remove_file`, whose error is ignored. -/
def removeJobFile (config : AppConfig) (files : String → Option (List UInt8)) (id : String)
    (o : Outside) : String → Option (List UInt8) :=
  if .removeFile ∈ o.faults then files else Function.update files (jobPath config id) none

/-- `create_job` after the PDF check. -/
def storeJob (config : AppConfig) (dir : DataDir) (clientId : String) (parsed : ParsedJob)
    (report : PdfReport) (o : Outside) : DataDir × List Obs :=
  match writeJobFile config dir.files o.id parsed.bytes o with
  | (files, false) => ({ dir with files := files }, [.response (errorResponse .internal)])
  | (files, true) =>
      let job := newJob parsed report o.id clientId (jobPath config o.id)
      let inserted : Except DbError Database :=
        if .insert ∈ o.faults then .error (.message "database call failed")
        else dir.db.insertJob job o.now
      match inserted with
      | .error _ =>
          (⟨dir.db, removeJobFile config files o.id o⟩,
            [.response (errorResponse .internal)])
      | .ok db =>
          let response := match jobOrError ⟨db, files⟩ clientId o.id .reload .internal o with
            | .error error => errorResponse error
            | .ok job => { jobResponse job with status := 202 }
          (⟨db, files⟩,
            (if parsed.mode = .print then [.notified] else []) ++ [.response response])

/-- `create_job`. -/
def createJob (config : AppConfig) (dir : DataDir) (clientId : String) (multipart : Multipart)
    (o : Outside) : DataDir × List Obs :=
  match admitJob sha256Hex validatePdf multipart o with
  | .error error => (dir, [.response (errorResponse error)])
  | .ok (parsed, report) => storeJob config dir clientId parsed report o

/-! ## The machine -/

variable (headerText : String → Bool) (config : AppConfig)

/-- The handler of a request, for a client. -/
def handleFor (dir : DataDir) (clientId : String) (request : Request) (o : Outside) :
    DataDir × List Obs :=
  match request with
  | .createJob multipart => createJob sha256Hex validatePdf config dir clientId multipart o
  | .listJobs limit => (dir, [.response (listJobs dir clientId limit o)])
  | .getJob id => (dir, [.response (getJob dir clientId id o)])
  | .getDocument id => (dir, [.response (getDocument headerText dir clientId id o)])
  | .cancelJob id => cancelJob dir clientId id o
  | .retryJob id => retryJob dir clientId id o

/-- One request: `authenticate`, and the handler for the client it returns. -/
def handle (dir : DataDir) (i : Input) : DataDir × List Obs :=
  match authenticate sha256Hex dir.db i.headers i.outside.authenticatedAt with
  | .error error => (dir, [.response (errorResponse error)])
  | .ok client =>
      handleFor sha256Hex validatePdf headerText config dir client.id i.request i.outside

end

end PrintLatch.Api
