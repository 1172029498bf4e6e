/-
  PrintLatch.Desktop.System

  One data directory with everybody who can reach it: the agent processes and their
  workers, whoever sends a request to a loopback port, and the commands of `printlatch`
  (`src/main.rs`).

  A request is answered by the process it is sent to, if that one listens; `serve` is its
  whole router.  `seen` keeps three kinds of observations apart: what became of jobs, what
  became of credentials, and the responses.
-/

import PrintLatch.Api.Router
import PrintLatch.Api.Fallback
import PrintLatch.Queue.System

namespace PrintLatch.Desktop

open Queue (World)

/-! ## The state -/

/-- The tables and processes, the files, the row of `instance_identity`, and the
    `instance_session` of each process. -/
structure Site where
  world : World
  files : String → Option (List UInt8)
  instanceSecret : Option String
  sessions : Nat → String

/-- A data directory that no process uses. -/
def Site.ofDatabase (db : Database) (files : String → Option (List UInt8)) : Site :=
  ⟨.ofDatabase db, files, none, fun _ => ""⟩

/-- The part of it that a request can reach. -/
def Site.agent (s : Site) : Api.AgentState := ⟨⟨s.world.db, s.files⟩, s.instanceSecret⟩

/-- The site after a request. -/
def Site.served (s : Site) (a : Api.AgentState) : Site :=
  { s with
    world := { s.world with db := a.dir.db }
    files := a.dir.files
    instanceSecret := a.instanceSecret }

/-- The site with another database. -/
def Site.withDb (s : Site) (db : Database) : Site :=
  { s with world := { s.world with db := db } }

/-! ## Inputs -/

/-- A command of `printlatch` that changes credentials, with what it draws, its readings
    of the time and whether its transaction fails. -/
inductive Command where
  | pair (origin name : String) (bytes : List UInt8) (clock now : Int) (fails : Bool)
  /-- `response` is what the listener on the port has sent. -/
  | dashboard (port : Nat) (challenge candidate : String) (response bytes : List UInt8)
      (clock now : Int) (fails : Bool)
  | create (name : String) (days : Int) (secret id : String) (clock now : Int) (fails : Bool)
  | rotate (clientId : String) (days : Int) (secret : String) (clock : Int) (fails : Bool)
  | revoke (clientId : String) (now : Int) (fails : Bool)

/-- What happens next. -/
inductive Event where
  | request (pid : Nat) (request : Api.HttpRequest) (o : Api.RequestOutside)
  | command (command : Command)
  /-- `printlatch serve` up to the spawned worker, with its fresh session. -/
  | start (pid : Nat) (config : AppConfig) (session : String) (now : Int)
  | bind (pid : Nat)
  | shutdown (pid : Nat)
  | crash (pid : Nat)
  | worker (pid : Nat) (input : WorkerInput)

/-- What is seen. -/
inductive Seen where
  | job (o : Obs)
  | credential (o : CredentialObs)
  | response (pid : Nat) (response : Api.HttpResponse)
  deriving DecidableEq, Repr

/-- What is seen of jobs. -/
def Seen.job? : Seen → Option Obs
  | .job o => some o
  | .credential _ | .response .. => none

/-- The input of the queue that an event is, if it is one. -/
def Event.queue? : Event → Option Queue.Input
  | .request .. | .command _ => none
  | .start pid config _ now => some (.start pid config now)
  | .bind pid => some (.bind pid)
  | .shutdown pid => some (.shutdown pid)
  | .crash pid => some (.crash pid)
  | .worker pid input => some (.worker pid input)

/-- What a request to a handler for jobs has done to a job, when it has changed the table. -/
def requestObs (clientId : String) (o : Api.RequestOutside) : Api.Request → List Obs
  | .createJob multipart =>
      match Api.parseJob multipart with
      | .ok parsed => [.created o.job.id clientId parsed.mode]
      | .error _ => []
  | .cancelJob id => [.canceled id clientId]
  | .retryJob id => [.retried id clientId]
  | .listJobs _ | .getJob _ | .getDocument _ => []

section

variable (parse : String → Option Url) (sha256Hex : List UInt8 → String)
  (validatePdf : List UInt8 → String → Except String PdfReport) (headerText : String → Bool)
  (hmac : List UInt8 → List UInt8 → String) (parseJson : List UInt8 → Option InstanceIdentity)
  (decodeSegment : String → Option String)

/-- What is seen of the jobs when `served` answers the request. -/
def servedObs (before : Database) (request : Api.HttpRequest) (o : Api.RequestOutside)
    (served : Api.Served) : List Obs :=
  match served.client, Api.jobRequest? decodeSegment request with
  | some client, some r =>
      if served.state.dir.db.jobs.rows = before.jobs.rows then [] else requestObs client.id o r
  | _, _ => []

/-- A transaction on the credentials. -/
def transact (s : Site) (input : CredentialInput) : Site × List Seen :=
  let after := credentialStep parse sha256Hex (.ofDatabase s.world.db) input
  (s.withDb after.1.db, after.2.map .credential)

/-- `dashboard` and `clients` of `src/main.rs`, after `local_state`. -/
def runCommand (s : Site) : Command → Site × List Seen
  | .pair origin name bytes clock now fails =>
      transact parse sha256Hex s (.grant origin name bytes clock now fails)
  | .dashboard port challenge candidate response bytes clock now fails =>
      let (installation, verified) := verifyDashboardAgent hmac parseJson
        ⟨s.world.db, s.instanceSecret⟩ challenge response candidate
      let s := { s with instanceSecret := installation.instanceSecret }
      match verified with
      | .error _ => (s, [])
      | .ok session =>
          transact parse sha256Hex s (.dashboardGrant s!"http://127.0.0.1:{port}"
            "PrintLatch dashboard" session bytes clock now fails)
  | .create name days secret id clock now fails =>
      transact parse sha256Hex s (.issueLocal name days secret id clock now fails)
  | .rotate clientId days secret clock fails =>
      transact parse sha256Hex s (.rotate clientId days secret clock fails)
  | .revoke clientId now fails => transact parse sha256Hex s (.revoke clientId now fails)

/-- A request to process `pid` with configuration `config`. -/
def answer (s : Site) (pid : Nat) (config : AppConfig) (request : Api.HttpRequest)
    (o : Api.RequestOutside) : Site × List Seen :=
  let served := Api.serve parse sha256Hex validatePdf headerText hmac decodeSegment config
    (s.sessions pid) s.agent request o
  (s.served served.state,
    (servedObs decodeSegment s.world.db request o served).map .job ++
      [.response pid served.response])

/-- A step of the queue's own system: a process, its port or its worker. -/
def advance (s : Site) (input : Queue.Input) : Site × List Seen :=
  let after := Queue.step sha256Hex s.world input
  ({ s with world := after.1 }, after.2.map .job)

/-- One step. -/
def step (s : Site) : Event → Site × List Seen
  | .request pid request o =>
      match s.world.procs pid with
      | none => (s, [])
      | some p =>
          if p.listening then
            answer parse sha256Hex validatePdf headerText hmac decodeSegment s pid p.config
              request o
          else (s, [])
  | .command command => runCommand parse sha256Hex hmac parseJson s command
  | .start pid config session now =>
      -- `new_agent_session` is drawn by the process that starts
      let sessions := if (s.world.procs pid).isSome then s.sessions
        else Function.update s.sessions pid session
      advance sha256Hex { s with sessions := sessions } (.start pid config now)
  | .bind pid => advance sha256Hex s (.bind pid)
  | .shutdown pid => advance sha256Hex s (.shutdown pid)
  | .crash pid => advance sha256Hex s (.crash pid)
  | .worker pid input => advance sha256Hex s (.worker pid input)

end

end PrintLatch.Desktop
