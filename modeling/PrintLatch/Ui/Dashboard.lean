/-
  PrintLatch.Ui.Dashboard

  The page, the network and the agent's jobs of the dashboard's client.

  The network carries requests and responses in any order; a request is `sent`, handled by
  the agent, and `answered`.  `cancel_job`, `retry_job` and `create_job` change a job first
  and read it again for their response, and other transitions of the queue may come
  between.  What happens to a job on the agent is an `Action` of its lifecycle; the agent's
  own are those of the worker.

  An observation of a step is a record that it hands over to the jobs of the page.
-/

import PrintLatch.Ui.Page
import PrintLatch.Reactive.Machine
import Mathlib.Data.List.Basic

namespace PrintLatch.Ui

/-- How far a request is. -/
inductive Progress where
  | sent
  /-- The job with this id was changed, and is to be read again. -/
  | applied (id : String)
  | answered (reply : Reply)
  deriving DecidableEq, Repr

/-- A call under way. -/
structure Flight where
  call : Call
  progress : Progress
  deriving DecidableEq, Repr

/-- The page, the calls under way and the jobs of the client by their ids. -/
structure Dashboard where
  page : Page
  flights : List Flight
  server : String → Option ServerJob

/-- The page was opened. -/
def Dashboard.opened (server : String → Option ServerJob) (activeJob : Option String) :
    Dashboard := ⟨.opened activeJob, [], server⟩

/-- What may happen next. -/
inductive Input where
  /-- The user asks for the data again, or the page does when it is opened. -/
  | refresh
  /-- A button of a row. -/
  | cancel (job : JobRecord)
  | retry (job : JobRecord)
  /-- `runConfirmedJob`. -/
  | submit
  /-- A timeout of a poll is over. -/
  | timeout (index : Nat)
  /-- The agent handles a request: `listed` are the newest jobs, `id` is drawn. -/
  | handle (index : Nat) (listed : List String) (id : String)
  /-- The agent reads the job that a request has changed. -/
  | reload (index : Nat)
  /-- The queue. -/
  | queue (id : String) (action : Queue.Action)
  | deliver (index : Nat)
  /-- A request that was not handled, or only reads, gets no response. -/
  | lose (index : Nat)
  deriving DecidableEq, Repr

/-- A job changes, by an action of its lifecycle. -/
def ServerJob.act (job : ServerJob) (action : Queue.Action) : Option ServerJob :=
  (job.toEntry.act action).map fun entry => ⟨entry, job.version + 1⟩

/-- A print job at its creation. -/
def ServerJob.created : ServerJob := ⟨.created .print, 0⟩

/-- The request only reads. -/
def Call.reads : Call → Bool
  | .poll _ | .printers _ | .jobs _ | .document => true
  | .cancel _ | .retry _ | .create => false

/-- An action of the worker or the recovery. -/
def ownAction (action : Queue.Action) : Bool := action ≠ .cancel ∧ action ≠ .retry

namespace Dashboard

/-- A job as a response holds it. -/
def record? (s : Dashboard) (id : String) : Option JobRecord :=
  (s.server id).map fun job => ⟨job, id⟩

/-- What a handler left of the page, and the calls that it sent. -/
def send (s : Dashboard) : Page × List Call → Dashboard
  | (page, calls) =>
      { s with page := page, flights := s.flights ++ calls.map fun call => ⟨call, .sent⟩ }

/-- Request `index` gets on. -/
def setProgress (s : Dashboard) (index : Nat) (call : Call) (progress : Progress) : Dashboard :=
  { s with flights := s.flights.set index ⟨call, progress⟩ }

/-- The reply with a job. -/
def jobReply (s : Dashboard) (id : String) : Reply :=
  match s.record? id with
  | some job => .job job
  | none => .error

/-- `cancel_job` and `retry_job`, up to the update. -/
def change (s : Dashboard) (index : Nat) (call : Call) (id : String) (action : Queue.Action) :
    Dashboard :=
  match (s.server id).bind (·.act action) with
  | none => s.setProgress index call (.answered .error)
  | some job =>
      { s with server := Function.update s.server id (some job) }.setProgress index call
        (.applied id)

/-- The agent handles request `index`. -/
def handle (s : Dashboard) (index : Nat) (call : Call) (listed : List String) (id : String) :
    Dashboard :=
  match call with
  | .poll poller => s.setProgress index call (.answered (s.jobReply poller.id))
  | .jobs _ => s.setProgress index call (.answered (.jobs (listed.filterMap s.record?)))
  | .printers _ | .document => s.setProgress index call (.answered .other)
  | .cancel target => s.change index call target .cancel
  | .retry target => s.change index call target .retry
  | .create =>
      match s.server id with
      | some _ => s.setProgress index call (.answered .error)
      | none =>
          { s with server := Function.update s.server id (some .created) }.setProgress index call
            (.applied id)

/-- The handler of call `index` goes on with `reply`. -/
def resume (s : Dashboard) (index : Nat) (call : Call) (reply : Reply) :
    Dashboard × List JobRecord :=
  ({ s with flights := s.flights.eraseIdx index }.send (s.page.resume call reply),
    s.page.handed call reply)

/-- One step. -/
def step (s : Dashboard) : Input → Dashboard × List JobRecord
  | .refresh => (s.send s.page.refreshAll, [])
  | .cancel job =>
      if job ∈ s.page.jobs ∧ job.state = .queued then (s.send (s.page, [.cancel job.id]), [])
      else (s, [])
  | .retry job =>
      if job ∈ s.page.jobs ∧ canRetry job then (s.send (s.page, [.retry job.id]), [])
      else (s, [])
  | .submit => (s.send (s.page, [.create]), [])
  | .timeout index =>
      match s.page.timers[index]? with
      | none => (s, [])
      | some (poller, _) =>
          (s.send ({ s.page with timers := s.page.timers.eraseIdx index }, [.poll poller]), [])
  | .handle index listed id =>
      match s.flights[index]? with
      | some ⟨call, .sent⟩ => (s.handle index call listed id, [])
      | _ => (s, [])
  | .reload index =>
      match s.flights[index]? with
      | some ⟨call, .applied id⟩ => (s.setProgress index call (.answered (s.jobReply id)), [])
      | _ => (s, [])
  | .queue id action =>
      match (s.server id).bind (·.act action) with
      | some job =>
          if ownAction action then
            ({ s with server := Function.update s.server id (some job) }, [])
          else (s, [])
      | none => (s, [])
  | .deliver index =>
      match s.flights[index]? with
      | some ⟨call, .answered reply⟩ => s.resume index call reply
      | _ => (s, [])
  | .lose index =>
      match s.flights[index]? with
      | some ⟨call, progress⟩ =>
          if progress = .sent ∨ call.reads = true then s.resume index call .error else (s, [])
      | none => (s, [])

end Dashboard

/-! ## What the dashboard is for -/

/-- The call is a poll of job `id`. -/
def Call.polls (id : String) : Call → Bool
  | .poll poller => poller.id = id
  | _ => false

/-- The loops that poll job `id`: under way, or waiting for their timeout. -/
def Dashboard.loops (s : Dashboard) (id : String) : Nat :=
  s.flights.countP (fun flight => flight.call.polls id) +
    s.page.timers.countP fun timer => timer.1.id = id

/-- The record that the page shows of job `id`. -/
def Page.shown (page : Page) (id : String) : Option JobRecord :=
  page.jobs.find? fun job => job.id = id

/-- Nothing is lost in a run:
    * the record of a job is never replaced by an older one;
    * there is one polling loop at most for a job;
    * when nothing is under way, every job that the page has ever held and that is active
      on the agent has a polling timer. -/
structure Tracks (s : Dashboard) (is : List Input) : Prop where
  newest : ∀ pre i, pre ++ [i] <+: is → ∀ id r r',
    (Reactive.run Dashboard.step s pre).page.shown id = some r →
    (Reactive.run Dashboard.step s (pre ++ [i])).page.shown id = some r' →
    r.version ≤ r'.version
  oneLoop : ∀ pre, pre <+: is → ∀ id, (Reactive.run Dashboard.step s pre).loops id ≤ 1
  polled : ∀ pre, pre <+: is → (Reactive.run Dashboard.step s pre).flights = [] →
    ∀ earlier, earlier <+: pre → ∀ r ∈ (Reactive.run Dashboard.step s earlier).page.jobs,
    ∀ job, (Reactive.run Dashboard.step s pre).server r.id = some job → active job.state = true →
    ∃ timer ∈ (Reactive.run Dashboard.step s pre).page.timers, timer.1.id = r.id

/-- The records of each job are handed over in the order of their versions. -/
def InOrder (handed : List JobRecord) : Prop :=
  handed.Pairwise fun r r' => r.id = r'.id → r.version ≤ r'.version

end PrintLatch.Ui
