/-
  PrintLatch.Ui.Page

  The job handling of the dashboard's page (`src/ui/app.js`, `src/ui/model.js`).

  A handler runs alone up to its next `await`.  What stands behind the `await` is a
  `Call`: the request that was sent, with the variables that its handler keeps.  So each
  handler is a function from the page to the page and the calls it sends, and `resume` is
  what a call does with its reply.

  Of `pollingTimers` the keys are read, never the values; the timeouts themselves are
  `timers`.  The token stays valid, so `api` never clears it.
-/

import PrintLatch.Queue.Lifecycle
import Mathlib.Algebra.Group.Nat.Defs
import Mathlib.Logic.Function.Basic

namespace PrintLatch.Ui

/-! ## Jobs -/

/-- A job on the server, with how often it has changed. -/
structure ServerJob extends Queue.Entry where
  version : Nat
  deriving DecidableEq, Repr

/-- A job as a response holds it. -/
structure JobRecord extends ServerJob where
  id : String
  deriving DecidableEq, Repr

/-- `["queued", "printing"].includes(state)`. -/
def active (state : JobState) : Bool := state = .queued ∨ state = .printing

/-- `canRetry`. -/
def canRetry (job : JobRecord) : Bool :=
  (job.state = .failed ∨ job.state = .unknown) ∧ job.attempts < 3

/-- `activeJobIds`. -/
def activeJobIds (jobs : List JobRecord) (rememberedId : Option String) : List String :=
  (jobs.filter fun job => job.state = .queued ∨ job.state = .printing ∨
    some job.id = rememberedId).map (·.id)

/-- `pollingRetryDelay`, in milliseconds. -/
def pollingRetryDelay (failures : Nat) : Nat :=
  let attempt := max 1 failures
  min 5000 (700 * 2 ^ (attempt - 1))

/-! ## The page -/

/-- The variables of a polling loop. -/
structure Poller where
  id : String
  previousState : Option JobState
  pollingFailures : Nat
  deriving DecidableEq, Repr

/-- A request, with what its handler keeps. -/
inductive Call where
  | poll (poller : Poller)
  /-- The two requests of `loadProtectedData`, with its number. -/
  | printers (load : Nat)
  | jobs (load : Nat)
  /-- `loadPreviewDocument`, within `loadProtectedData`. -/
  | document
  | cancel (id : String)
  | retry (id : String)
  /-- The request of `createJob`, within `runConfirmedJob`. -/
  | create
  deriving DecidableEq, Repr

/-- A response, or why there is none. -/
inductive Reply where
  | job (job : JobRecord)
  | jobs (jobs : List JobRecord)
  /-- A response without jobs. -/
  | other
  /-- An error status, or no connection. -/
  | error
  deriving DecidableEq, Repr

/-- `loadProtectedData` under way. -/
inductive Load where
  /-- In `Promise.all`: whether the printers are there, and the jobs. -/
  | fetching (printers : Bool) (jobs : Option (List JobRecord))
  /-- In `loadPreviewDocument`. -/
  | previewing
  deriving DecidableEq, Repr

/-- The page: what the handlers of jobs read and write of `appState`, the timeouts and
    the key `ACTIVE_JOB_KEY` of the storage. -/
structure Page where
  jobs : List JobRecord
  /-- The keys of `pollingTimers`. -/
  pollingTimers : String → Bool
  /-- The polls that wait for their timeout, and how long. -/
  timers : List (Poller × Nat)
  /-- `refreshing`, and how far it is. -/
  load : Option Load
  /-- How many times `loadProtectedData` was called. -/
  loads : Nat
  /-- There is a `previewUrl`. -/
  previewUrl : Bool
  activeJob : Option String

/-- The page after it was opened; the storage may remember a job. -/
def Page.opened (activeJob : Option String) : Page :=
  ⟨[], fun _ => false, [], none, 0, false, activeJob⟩

namespace Page

/-- `jobs[findIndex(id)] = job`, or `jobs.unshift(job)`. -/
def setJob (jobs : List JobRecord) (id : String) (job : JobRecord) : List JobRecord :=
  match jobs.findIdx? fun candidate => candidate.id = id with
  | some index => jobs.set index job
  | none => job :: jobs

/-- `replaceJob`. -/
def replaceJob (page : Page) (job : JobRecord) : Page :=
  { page with jobs := setJob page.jobs job.id job }

/-- `watchJob`: the first poll is sent at once. -/
def watchJob (page : Page) (id : String) : Page × List Call :=
  if page.pollingTimers id then (page, [])
  else
    let previousState := (page.jobs.find? fun job => job.id = id).map (·.state)
    ({ page with pollingTimers := Function.update page.pollingTimers id true },
      [.poll ⟨id, previousState, 0⟩])

/-- A loop over `watchJob`. -/
def watchAll (page : Page) : List String → Page × List Call
  | [] => (page, [])
  | id :: ids =>
      let (watched, calls) := page.watchJob id
      let (rest, more) := watched.watchAll ids
      (rest, calls ++ more)

/-- `watchActiveJobs`. -/
def watchActiveJobs (page : Page) : Page × List Call :=
  page.watchAll (activeJobIds page.jobs page.activeJob)

/-- `poll` after its response. -/
def pollSucceeded (page : Page) (poller : Poller) (job : JobRecord) : Page × List Call :=
  let page := { page with jobs := setJob page.jobs poller.id job }
  if active job.state then
    ({ page with
        pollingTimers := Function.update page.pollingTimers poller.id true
        timers := page.timers ++ [(⟨poller.id, some job.state, 0⟩, 700)] }, [])
  else
    { page with
      pollingTimers := Function.update page.pollingTimers poller.id false
      activeJob := if page.activeJob = some poller.id then none else page.activeJob
      }.watchActiveJobs

/-- `poll` without a response. -/
def pollFailed (page : Page) (poller : Poller) : Page :=
  let failures := poller.pollingFailures + 1
  { page with
    pollingTimers := Function.update page.pollingTimers poller.id true
    timers := page.timers ++
      [({ poller with pollingFailures := failures }, pollingRetryDelay failures)] }

/-- `refreshAll`, up to the requests of `loadProtectedData`. -/
def refreshAll (page : Page) : Page × List Call :=
  if page.load.isSome then (page, [])
  else
    let number := page.loads + 1
    ({ page with load := some (.fetching false none), loads := number },
      [.printers number, .jobs number])

/-- `loadProtectedData` after `Promise.all`. -/
def showJobs (page : Page) (jobs : List JobRecord) : Page × List Call :=
  let previewJob := jobs.find? fun job => job.state = .previewReady ∧ job.mode = .preview
  if previewJob.isSome ∧ ¬ page.previewUrl then
    ({ page with jobs := jobs, load := some .previewing }, [.document])
  else { page with jobs := jobs, load := none }.watchActiveJobs

/-- `Promise.all` of the current load, when its printers are there. -/
def printersLoaded (page : Page) : Page × List Call :=
  match page.load with
  | some (.fetching _ (some jobs)) => page.showJobs jobs
  | some (.fetching _ none) => ({ page with load := some (.fetching true none) }, [])
  | _ => (page, [])

/-- `Promise.all` of the current load, when its jobs are there. -/
def jobsLoaded (page : Page) (jobs : List JobRecord) : Page × List Call :=
  match page.load with
  | some (.fetching true _) => page.showJobs jobs
  | some (.fetching false _) => ({ page with load := some (.fetching false (some jobs)) }, [])
  | _ => (page, [])

/-- `Promise.all` of the current load rejects. -/
def loadFailed (page : Page) : Page :=
  match page.load with
  | some (.fetching _ _) => { page with load := none }
  | _ => page

/-- `loadProtectedData` after the preview; a document that could not be loaded is
    reported. -/
def documentLoaded (page : Page) (loaded : Bool) : Page × List Call :=
  { page with load := none, previewUrl := page.previewUrl || loaded }.watchActiveJobs

/-- `retryJob` after its response. -/
def jobRetried (page : Page) (id : String) (job : JobRecord) : Page × List Call :=
  (page.replaceJob job).watchJob id

/-- `runConfirmedJob` after its response. -/
def jobCreated (page : Page) (job : JobRecord) : Page × List Call :=
  { page with jobs := job :: page.jobs, activeJob := some job.id }.watchJob job.id

/-- What a call does with its reply; a body of another shape is an exception. -/
def resume (page : Page) : Call → Reply → Page × List Call
  | .poll poller, .job job => page.pollSucceeded poller job
  | .poll poller, _ => (page.pollFailed poller, [])
  -- a load that has been rejected waits for nothing any more
  | .printers load, .other => if load = page.loads then page.printersLoaded else (page, [])
  | .printers load, _ => if load = page.loads then (page.loadFailed, []) else (page, [])
  | .jobs load, .jobs jobs => if load = page.loads then page.jobsLoaded jobs else (page, [])
  | .jobs load, _ => if load = page.loads then (page.loadFailed, []) else (page, [])
  | .document, .other => page.documentLoaded true
  | .document, _ => page.documentLoaded false
  | .cancel _, .job job => (page.replaceJob job, [])
  | .retry id, .job job => page.jobRetried id job
  | .create, .job job => page.jobCreated job
  | .cancel _, _ | .retry _, _ | .create, _ => (page, [])

/-- The records that a reply hands over to the page's jobs: those of the reply, or of the
    jobs that have waited for the printers. -/
def handed (page : Page) : Call → Reply → List JobRecord
  | .poll _, .job job | .cancel _, .job job | .retry _, .job job | .create, .job job => [job]
  | .printers load, .other =>
      match page.load with
      | some (.fetching _ (some jobs)) => if load = page.loads then jobs else []
      | _ => []
  | .jobs load, .jobs jobs =>
      match page.load with
      | some (.fetching true _) => if load = page.loads then jobs else []
      | _ => []
  | _, _ => []

end Page

end PrintLatch.Ui
