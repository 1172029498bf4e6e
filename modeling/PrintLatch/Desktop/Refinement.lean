/-
  PrintLatch.Desktop.Refinement

  Seen from the jobs, the whole site is the queue.

  The statements on jobs do not look at the credentials beside them, except that an
  insertion asks for the client's row, and no row of a client is ever deleted.  So a run of
  the site is a run of `Queue.step` beside the clients it ends with
  (`refines_queue`), and every creation, cancellation and retry in that run is a request
  on the socket that `authenticate` took for the job's owner.
-/

import PrintLatch.Desktop.System
import PrintLatch.Api.Effects
import PrintLatch.Auth.StableClient
import PrintLatch.Reactive.Simulation

namespace PrintLatch

open Reactive Relational

/-! ## The same jobs beside other credentials -/

namespace Database

/-- The jobs of `db` beside other clients and codes. -/
def beside (db : Database) (clients : ClientsTable) (codes : PairingTable) : Database :=
  ⟨clients, codes, db.jobs⟩

variable (db : Database) (clients : ClientsTable) (codes : PairingTable)

@[simp] theorem beside_jobs : (db.beside clients codes).jobs = db.jobs := rfl

@[simp] theorem beside_job? (id : String) : (db.beside clients codes).job? id = db.job? id := rfl

theorem beside_congr {db db' : Database} (h : db'.jobs = db.jobs) (clients : ClientsTable)
    (codes : PairingTable) : db'.beside clients codes = db.beside clients codes := by
  unfold beside
  rw [h]

theorem cancelJob_beside (id clientId : String) (now : Int) :
    (db.beside clients codes).cancelJob id clientId now =
      ((db.cancelJob id clientId now).1.beside clients codes,
        (db.cancelJob id clientId now).2) := rfl

theorem retryJob_beside (id clientId : String) (now : Int) :
    (db.beside clients codes).retryJob id clientId now =
      ((db.retryJob id clientId now).1.beside clients codes,
        (db.retryJob id clientId now).2) := rfl

theorem claimNextJob_beside (now : Int) (tie : Nat) :
    (db.beside clients codes).claimNextJob now tie =
      ((db.claimNextJob now tie).1.beside clients codes, (db.claimNextJob now tie).2) := by
  have hnext : (db.beside clients codes).nextQueued tie = db.nextQueued tie := rfl
  unfold claimNextJob
  rw [hnext]
  cases db.nextQueued tie <;> rfl

/-- An insertion that succeeds does so beside any clients that have the job's. -/
theorem insertJob_beside {db db' : Database} {job : NewJob} {now : Int}
    (clients : ClientsTable) (codes : PairingTable)
    (h : db.insertJob job now = .ok db')
    (hclient : (db.beside clients codes).client? job.clientId ≠ none) :
    (db.beside clients codes).insertJob job now = .ok (db'.beside clients codes) := by
  unfold insertJob at h ⊢
  rw [beside_jobs]
  split at h
  · cases h
  · next hbytes =>
      rw [if_neg hbytes]
      split at h
      · cases h
      · rw [if_neg hclient]
        split at h
        · cases h
        · next hcopies =>
            rw [if_neg hcopies]
            cases hins : db.jobs.insert? (job.row now) with
            | none =>
                rw [hins] at h
                cases h
            | some jobs =>
                rw [hins] at h
                cases h
                rfl

end Database

namespace Desktop

open Queue (World)

/-- The world beside other credentials. -/
def besideWorld (w : World) (clients : ClientsTable) (codes : PairingTable) : World :=
  { w with db := w.db.beside clients codes }

theorem workerStep_beside (sha256Hex : List UInt8 → String) (config : AppConfig) (pid : Nat)
    (db : Database) (worker : Worker) (input : WorkerInput) (clients : ClientsTable)
    (codes : PairingTable) :
    workerStep sha256Hex config pid (db.beside clients codes) worker input =
      ((workerStep sha256Hex config pid db worker input).1.beside clients codes,
        (workerStep sha256Hex config pid db worker input).2) := by
  cases worker with
  | ready =>
      cases input with
      | claim now tie =>
          simp only [workerStep, Database.claimNextJob_beside]
          cases db.claimNextJob now tie with
          | mk db' claimed => cases claimed <;> rfl
      | _ => rfl
  | finishing job result => cases input <;> rfl
  | submitting job submission => cases submission <;> cases input <;> rfl
  | _ => cases input <;> rfl

/-- A step of the queue beside other credentials, unless it inserts. -/
theorem queueStep_beside (sha256Hex : List UInt8 → String) (w : World) (clients : ClientsTable)
    (codes : PairingTable) {q : Queue.Input}
    (h : ∀ parsed report id client path now, q ≠ .create parsed report id client path now) :
    Queue.step sha256Hex (besideWorld w clients codes) q =
      (besideWorld (Queue.step sha256Hex w q).1 clients codes, (Queue.step sha256Hex w q).2) := by
  cases q with
  | create parsed report id client path now => exact absurd rfl (h parsed report id client path now)
  | cancel | retry | crash => rfl
  | start pid config now =>
      simp only [Queue.step, besideWorld]
      cases w.procs pid <;> rfl
  | bind pid =>
      simp only [Queue.step, besideWorld]
      cases w.procs pid with
      | none => rfl
      | some p =>
          dsimp only
          split
          · rfl
          · cases w.ports p.config.port <;> rfl
  | shutdown pid =>
      simp only [Queue.step, besideWorld]
      cases w.procs pid <;> rfl
  | worker pid input =>
      simp only [Queue.step, besideWorld]
      cases w.procs pid with
      | none => rfl
      | some p =>
          dsimp only
          split
          · rfl
          · rw [workerStep_beside]

/-! ## Clients stay -/

/-- No row of a client is gone. -/
def KeepsClients (db db' : Database) : Prop :=
  ∀ id, db.client? id ≠ none → db'.client? id ≠ none

theorem keepsClients_of_eq {db db' : Database} (h : db'.clients = db.clients) :
    KeepsClients db db' := by
  intro id hid
  unfold Database.client? at hid ⊢
  rwa [h]

theorem KeepsClients.trans {db db' db'' : Database} (h : KeepsClients db db')
    (h' : KeepsClients db' db'') : KeepsClients db db'' := fun id hid => h' id (h id hid)

section

variable (parse : String → Option Url) (sha256Hex : List UInt8 → String)

theorem keepsClients_of_tokenMove {db db' : Database} {i : CredentialInput}
    {obs : List CredentialObs} (h : TokenMove sha256Hex db i db' obs) : KeepsClients db db' := by
  intro id hid
  cases h with
  | stay db' obs clients quiet => exact keepsClients_of_eq clients id hid
  | issue r db' code token clock drawn digest live soon before after =>
      rw [after]
      split
      · simp
      · exact hid
  | revoke r now db' row after =>
      rw [after]
      split
      · simp
      · exact hid

theorem keepsClients_credentialStep (s : Credentials) (i : CredentialInput) :
    KeepsClients s.db (credentialStep parse sha256Hex s i).1.db :=
  keepsClients_of_tokenMove sha256Hex (tokenMove_of_step parse sha256Hex s i)

theorem keepsClients_issueForRecord {db db' : Database} {record : PairingRecord}
    {origin secret candidateId : String} {clock now : Int} {token : IssuedToken}
    (h : issueForRecord sha256Hex db record origin secret candidateId clock now =
      .ok (db', token)) : KeepsClients db db' := by
  -- it is what the second half of a redemption does
  have hmove : ∀ result, result = issueForRecord sha256Hex db record origin secret candidateId
      clock now → TokenMove sha256Hex db (.issue 0 secret candidateId clock now false)
        (afterToken (.ofDatabase db) none clock result).1.db
        (afterToken (.ofDatabase db) none clock result).2 := by
    rintro result rfl
    unfold issueForRecord
    split
    · exact tokenMove_issueStable sha256Hex (s := .ofDatabase db) none (by omega) rfl
    · exact tokenMove_issueToken sha256Hex (s := .ofDatabase db) none (by omega) rfl
  exact keepsClients_of_tokenMove sha256Hex (hmove _ h.symm)

theorem keepsClients_consumePairingCode (db : Database) (code origin session : String) (now : Int)
    (secret candidateId : String) (clock issuedAt : Int) (faults : List RedemptionFault) :
    KeepsClients db (consumePairingCode parse sha256Hex db code origin session now secret
      candidateId clock issuedAt faults).1 := by
  unfold consumePairingCode
  split
  · exact keepsClients_of_eq rfl
  · next normal _ =>
      split
      · exact keepsClients_of_eq rfl
      · have hclients := db.consumePairingCode_clients (hashSecret sha256Hex code) normal now
          session
        split
        · next heq =>
            rw [heq] at hclients
            exact keepsClients_of_eq hclients
        · next heq =>
            rw [heq] at hclients
            split
            · exact keepsClients_of_eq hclients
            · split
              · exact keepsClients_of_eq hclients
              · next hissue =>
                  exact (keepsClients_of_eq hclients).trans
                    (keepsClients_issueForRecord sha256Hex hissue)

end

/-! ## Requests as inputs of the queue -/

section

variable (parse : String → Option Url) (sha256Hex : List UInt8 → String)
  (validatePdf : List UInt8 → String → Except String PdfReport) (headerText : String → Bool)
  (hmac : List UInt8 → List UInt8 → String) (parseJson : List UInt8 → Option InstanceIdentity)
  (decodeSegment : String → Option String)

/-- The input of the queue that a request for a client comes to. -/
inductive ComesTo (config : AppConfig) (clientId : String) (o : Api.Outside) :
    Api.Request → Queue.Input → Prop
  | create (multipart : Api.Multipart) (parsed : ParsedJob) (report : PdfReport)
      (admitted : Api.admitJob sha256Hex validatePdf multipart o = .ok (parsed, report)) :
      ComesTo config clientId o (.createJob multipart)
        (.create parsed report o.id clientId (Api.jobPath config o.id) o.now)
  | cancel (id : String) :
      ComesTo config clientId o (.cancelJob id) (.cancel id clientId o.now)
  | retry (id : String) : ComesTo config clientId o (.retryJob id) (.retry id clientId o.now)

theorem handleFor_clients (config : AppConfig) (dir : Api.DataDir) (clientId : String)
    (r : Api.Request) (o : Api.Outside) :
    (Api.handleFor sha256Hex validatePdf headerText config dir clientId r o).1.db.clients =
      dir.db.clients := by
  cases r with
  | createJob multipart =>
      simp only [Api.handleFor, Api.createJob]
      split
      · rfl
      · next parsed report _ =>
          rcases Api.storeJob_cases config dir clientId parsed report o with
            ⟨-, heq⟩ | ⟨-, -, heq⟩ | ⟨-, -, db, hdb, heq⟩
          · rw [heq]
          · rw [heq]
          · rw [heq]
            exact (Database.insertJob_ok hdb).2.1
  | cancelJob id =>
      simp only [Api.handleFor, Api.cancelJob, Api.changeJob_db]
      split <;> rfl
  | retryJob id =>
      simp only [Api.handleFor, Api.retryJob, Api.changeJob_db]
      split <;> rfl
  | listJobs | getJob | getDocument => rfl

/-- A handler that changes the jobs does what one step of the queue does, and that is what
    is seen of it. -/
theorem queueStep_of_handleFor (config : AppConfig) (dir : Api.DataDir) (clientId : String)
    (r : Api.Request) (o : Api.RequestOutside)
    (hchanged : (Api.handleFor sha256Hex validatePdf headerText config dir clientId r
      o.job).1.db.jobs ≠ dir.db.jobs)
    (clients : ClientsTable) (codes : PairingTable) (procs : Nat → Option Queue.Process)
    (ports : Nat → Option Nat)
    (hclient : (dir.db.beside clients codes).client? clientId ≠ none) :
    ∃ q, ComesTo sha256Hex validatePdf config clientId o.job r q ∧
      Queue.step sha256Hex ⟨dir.db.beside clients codes, procs, ports⟩ q =
        (⟨(Api.handleFor sha256Hex validatePdf headerText config dir clientId r
            o.job).1.db.beside clients codes, procs, ports⟩, requestObs clientId o r) := by
  cases r with
  | createJob multipart =>
      simp only [Api.handleFor, Api.createJob] at hchanged ⊢
      cases hadmitted : Api.admitJob sha256Hex validatePdf multipart o.job with
      | error error =>
          rw [hadmitted] at hchanged
          exact absurd rfl hchanged
      | ok admitted =>
          obtain ⟨parsed, report⟩ := admitted
          simp only [hadmitted] at hchanged ⊢
          rcases Api.storeJob_cases config dir clientId parsed report o.job with
            ⟨-, heq⟩ | ⟨-, -, heq⟩ | ⟨-, -, db, hdb, heq⟩
          · rw [heq] at hchanged
            exact absurd rfl hchanged
          · rw [heq] at hchanged
            exact absurd rfl hchanged
          · refine ⟨_, .create multipart parsed report hadmitted, ?_⟩
            have hparsed := Api.parseJob_of_admitJob hadmitted
            have hinsert := Database.insertJob_beside clients codes hdb hclient
            simp only [Queue.step, hinsert, heq, requestObs, hparsed]
  | cancelJob id =>
      refine ⟨_, .cancel id, ?_⟩
      simp only [Api.handleFor, Api.cancelJob, Api.changeJob_db] at hchanged ⊢
      split at hchanged
      · exact absurd rfl hchanged
      · next hfault =>
          have hdone : (dir.db.cancelJob id clientId o.job.now).2 = true := by
            rcases dir.db.cancelJob_cases id clientId o.job.now with heq | ⟨r, -, -, -, hdone, -⟩
            · rw [heq] at hchanged
              exact absurd rfl hchanged
            · exact hdone
          simp only [Queue.step, Database.cancelJob_beside, hdone, if_neg hfault, if_true,
            requestObs]
  | retryJob id =>
      refine ⟨_, .retry id, ?_⟩
      simp only [Api.handleFor, Api.retryJob, Api.changeJob_db] at hchanged ⊢
      split at hchanged
      · exact absurd rfl hchanged
      · next hfault =>
          have hdone : (dir.db.retryJob id clientId o.job.now).2 = true := by
            rcases dir.db.retryJob_cases id clientId o.job.now with
              heq | ⟨r, -, -, -, -, hdone, -⟩
            · rw [heq] at hchanged
              exact absurd rfl hchanged
            · exact hdone
          simp only [Queue.step, Database.retryJob_beside, hdone, if_neg hfault, if_true,
            requestObs]
  | listJobs | getJob | getDocument => exact absurd rfl hchanged

/-- Why the queue makes a step: the event is that step, or it is a request which a
    listening agent has served for a client that `authenticate` gave it. -/
inductive Causes (s : Site) : Event → Queue.Input → Prop
  | event (e : Event) (q : Queue.Input) (own : e.queue? = some q) : Causes s e q
  | request (pid : Nat) (request : Api.HttpRequest) (o : Api.RequestOutside) (p : Queue.Process)
      (client : AuthenticatedClient) (r : Api.Request) (q : Queue.Input)
      (proc : s.world.procs pid = some p) (listening : p.listening = true)
      (host : Api.validHost request.headers p.config.port = true)
      (method : request.method = .post)
      (asked : Api.jobRequest? decodeSegment request = some r)
      (authentic : authenticate sha256Hex s.world.db request.headers o.job.authenticatedAt =
        .ok client)
      (comes : ComesTo sha256Hex validatePdf p.config client.id o.job r q) :
      Causes s (.request pid request o) q

theorem client?_of_authenticate {db : Database} {headers : HeaderMap} {now : Int}
    {client : AuthenticatedClient} (h : authenticate sha256Hex db headers now = .ok client) :
    db.client? client.id ≠ none := by
  obtain ⟨token, -, found, hfound, hid⟩ := liveFor_of_authenticate sha256Hex h
  obtain ⟨r, hr, -, -, -, rfl⟩ := Database.findClientByTokenHash_eq_some.mp hfound
  rw [← hid, show (clientFromRow r).id = r.id from rfl, Database.client?_of_mem hr]
  simp

/-! ## Clients stay at the site -/

theorem queueStep_clients {w : World} {q : Queue.Input}
    (h : ∀ parsed report id client path now, q ≠ .create parsed report id client path now) :
    (Queue.step sha256Hex w q).1.db.clients = w.db.clients := by
  have hbeside := queueStep_beside sha256Hex w w.db.clients w.db.pairingCodes h
  have hself : besideWorld w w.db.clients w.db.pairingCodes = w := rfl
  rw [hself] at hbeside
  rw [hbeside]
  rfl

theorem queue?_ne_create {e : Event} {q : Queue.Input} (h : e.queue? = some q) :
    ∀ parsed report id client path now, q ≠ .create parsed report id client path now := by
  rintro parsed report id client path now rfl
  cases e <;> cases h

theorem keepsClients_advance (s : Site) {q : Queue.Input}
    (h : ∀ parsed report id client path now, q ≠ .create parsed report id client path now) :
    KeepsClients s.world.db (advance sha256Hex s q).1.world.db :=
  keepsClients_of_eq (queueStep_clients sha256Hex h)

theorem keepsClients_transact (s : Site) (input : CredentialInput) :
    KeepsClients s.world.db (transact parse sha256Hex s input).1.world.db :=
  keepsClients_credentialStep parse sha256Hex (.ofDatabase s.world.db) input

theorem keepsClients_runCommand (s : Site) (command : Command) :
    KeepsClients s.world.db
      (runCommand parse sha256Hex hmac parseJson s command).1.world.db := by
  cases command with
  | dashboard port challenge candidate response bytes clock now fails =>
      simp only [runCommand]
      split
      · exact keepsClients_of_eq rfl
      · next session _ =>
          exact keepsClients_transact parse sha256Hex { s with instanceSecret := _ } _
  | _ => exact keepsClients_transact parse sha256Hex s _

theorem keepsClients_handle (config : AppConfig) (dir : Api.DataDir) (i : Api.Input) :
    KeepsClients dir.db
      (Api.handle sha256Hex validatePdf headerText config dir i).1.db := by
  refine keepsClients_of_eq ?_
  unfold Api.handle
  split
  · rfl
  · exact handleFor_clients sha256Hex validatePdf headerText config dir _ i.request i.outside

theorem keepsClients_servePair (session : String) (state : Api.AgentState)
    (request : Api.HttpRequest) (o : Api.RequestOutside) :
    KeepsClients state.dir.db
      (Api.servePair parse sha256Hex session state request o).state.dir.db := by
  unfold Api.servePair
  split
  · exact keepsClients_of_eq rfl
  · next code _ =>
      split
      · exact keepsClients_of_eq rfl
      · next origin _ =>
          have hkeeps := keepsClients_consumePairingCode parse sha256Hex state.dir.db code origin
            session o.redeemedAt o.secret o.candidateId o.clock o.issuedAt o.redemptionFaults
          split
          · next heq =>
              rw [heq] at hkeeps
              exact hkeeps
          · next heq =>
              rw [heq] at hkeeps
              exact hkeeps

theorem keepsClients_serve (config : AppConfig) (session : String) (state : Api.AgentState)
    (request : Api.HttpRequest) (o : Api.RequestOutside) :
    KeepsClients state.dir.db (Api.serve parse sha256Hex validatePdf headerText hmac decodeSegment
      config session state request o).state.dir.db := by
  have hmove := @Api.serve_state parse sha256Hex validatePdf headerText hmac decodeSegment config
    session state request o
  generalize (Api.serve parse sha256Hex validatePdf headerText hmac decodeSegment config session
    state request o).state = after at hmove ⊢
  cases hmove with
  | same => exact keepsClients_of_eq rfl
  | job r asked => exact keepsClients_handle sha256Hex validatePdf headerText config state.dir _
  | pair route method => exact keepsClients_servePair parse sha256Hex session state request o
  | identity route =>
      exact keepsClients_of_eq (congrArg (fun dir : Api.DataDir => dir.db.clients)
        (Api.serveInstance_other hmac session state request.challenge o).2)

theorem keepsClients_step (s : Site) (e : Event) :
    KeepsClients s.world.db (step parse sha256Hex validatePdf headerText hmac parseJson
      decodeSegment s e).1.world.db := by
  cases e with
  | request pid request o =>
      simp only [step]
      cases s.world.procs pid with
      | none => exact keepsClients_of_eq rfl
      | some p =>
          dsimp only
          split
          · exact keepsClients_serve parse sha256Hex validatePdf headerText hmac decodeSegment
              p.config (s.sessions pid) s.agent request o
          · exact keepsClients_of_eq rfl
  | command command => exact keepsClients_runCommand parse sha256Hex hmac parseJson s command
  | start pid config session now =>
      exact keepsClients_advance sha256Hex { s with sessions := _ } (by simp)
  | bind | shutdown | crash | worker => exact keepsClients_advance sha256Hex s (by simp)

/-! ## The simulation -/

/-- The queue beside the clients that the site will have had. -/
def Follows (clients : ClientsTable) (s : Site) (w : World) : Prop :=
  ∃ codes, w = besideWorld s.world clients codes

/-- `clients` has the clients that are there after the step. -/
def Covers (clients : ClientsTable) (s : Site) (e : Event) : Prop :=
  let after := (step parse sha256Hex validatePdf headerText hmac parseJson decodeSegment s e).1
  ∀ id, after.world.db.client? id ≠ none → clients.lookup (fun r => r.id) id ≠ none

theorem filterMap_job_map (obs : List Obs) : (obs.map Seen.job).filterMap Seen.job? = obs := by
  rw [List.filterMap_map]
  exact List.filterMap_some

/-- What a step of the queue answers to a step of the site. -/
structure Answers (clients : ClientsTable) (s : Site) (w : World) (e : Event)
    (after : Site × List Seen) (qs : List Queue.Input) : Prop where
  follows : Follows clients after.1 (run (Queue.step sha256Hex) w qs)
  seen : trace (Queue.step sha256Hex) w qs = after.2.filterMap Seen.job?
  causes : ∀ q ∈ qs, Causes sha256Hex validatePdf decodeSegment s e q

variable {parse sha256Hex validatePdf headerText hmac parseJson decodeSegment}
variable {clients : ClientsTable} {s : Site} {w : World} {e : Event}

/-- A step that leaves jobs, processes and ports alone needs no answer. -/
theorem answers_nil {after : Site × List Seen} (h : Follows clients s w)
    (hjobs : after.1.world.db.jobs = s.world.db.jobs)
    (hprocs : after.1.world.procs = s.world.procs) (hports : after.1.world.ports = s.world.ports)
    (hseen : after.2.filterMap Seen.job? = []) :
    Answers sha256Hex validatePdf decodeSegment clients s w e after [] where
  follows := by
    obtain ⟨codes, rfl⟩ := h
    refine ⟨codes, ?_⟩
    unfold besideWorld
    rw [Database.beside_congr hjobs, hprocs, hports]
    rfl
  seen := hseen.symm
  causes q hq := absurd hq List.not_mem_nil

/-- A step of a process, its port or its worker is answered by itself. -/
theorem answers_advance {s' : Site} (h : Follows clients s w) (hworld : s'.world = s.world)
    {q : Queue.Input} (hq : e.queue? = some q) :
    Answers sha256Hex validatePdf decodeSegment clients s w e (advance sha256Hex s' q) [q] where
  follows := by
    obtain ⟨codes, rfl⟩ := h
    refine ⟨codes, ?_⟩
    rw [run_cons, run_nil, queueStep_beside sha256Hex _ _ _ (queue?_ne_create hq)]
    unfold advance
    rw [hworld]
  seen := by
    obtain ⟨codes, rfl⟩ := h
    rw [trace_cons, trace_nil, queueStep_beside sha256Hex _ _ _ (queue?_ne_create hq)]
    unfold advance
    rw [hworld, filterMap_job_map, List.append_nil]
  causes q' hq' := by
    obtain rfl := List.mem_singleton.mp hq'
    exact .event e q' hq

theorem filterMap_credential_map (obs : List CredentialObs) :
    (obs.map Seen.credential).filterMap Seen.job? = [] := by
  rw [List.filterMap_map, List.filterMap_eq_nil_iff]
  exact fun _ _ => rfl

theorem answers_transact {s' : Site} (h : Follows clients s w) (hworld : s'.world = s.world)
    (input : CredentialInput) :
    Answers sha256Hex validatePdf decodeSegment clients s w e
      (transact parse sha256Hex s' input) [] := by
  refine answers_nil h ?_ ?_ ?_ (filterMap_credential_map _)
  · rw [← hworld]
    exact jobs_of_step parse sha256Hex (.ofDatabase s'.world.db) input
  · rw [← hworld]
    rfl
  · rw [← hworld]
    rfl

theorem answers_runCommand (h : Follows clients s w) (command : Command) :
    Answers sha256Hex validatePdf decodeSegment clients s w e
      (runCommand parse sha256Hex hmac parseJson s command) [] := by
  cases command with
  | dashboard port challenge candidate response bytes clock now fails =>
      simp only [runCommand]
      split
      · exact answers_nil h rfl rfl rfl rfl
      · refine answers_transact h ?_ _
        rfl
  | _ => exact answers_transact h rfl _

/-- A request is answered by the one thing it does to a job, if it does one. -/
theorem answers_answer {pid : Nat} {p : Queue.Process} {request : Api.HttpRequest}
    {o : Api.RequestOutside} (hproc : s.world.procs pid = some p) (hlistening : p.listening = true)
    (h : Follows clients s w)
    (hcovers : ∀ id, s.world.db.client? id ≠ none → clients.lookup (fun r => r.id) id ≠ none) :
    ∃ qs, Answers sha256Hex validatePdf decodeSegment clients s w (.request pid request o)
      (answer parse sha256Hex validatePdf headerText hmac decodeSegment s pid p.config request o)
      qs := by
  unfold answer
  dsimp only
  by_cases hpass : Api.validHost request.headers p.config.port = true ∧
      Api.upgradesToWebsocket request.headers = false
  case neg =>
    -- the middleware answers, for nobody
    have hserved : ∃ response, Api.serve parse sha256Hex validatePdf headerText hmac decodeSegment
        p.config (s.sessions pid) s.agent request o = s.agent.answer none response := by
      unfold Api.serve
      split
      · exact ⟨_, rfl⟩
      · split
        · exact ⟨_, rfl⟩
        · next hhost hwebsocket =>
            exact absurd ⟨by simpa using hhost, by simpa using hwebsocket⟩ hpass
    obtain ⟨response, hserved⟩ := hserved
    rw [hserved]
    exact ⟨[], answers_nil h rfl rfl rfl rfl⟩
  case pos =>
    have hmove := @Api.servedMove_of_serve parse sha256Hex validatePdf headerText hmac
      decodeSegment p.config (s.sessions pid) s.agent request o hpass.1 hpass.2
    generalize Api.serve parse sha256Hex validatePdf headerText hmac decodeSegment p.config
      (s.sessions pid) s.agent request o = served at hmove ⊢
    -- nothing is seen of jobs where the table is as before, or nobody is served
    have hquiet : served.state.dir.db.jobs = s.world.db.jobs →
        servedObs decodeSegment s.world.db request o served = [] := by
      intro hjobs
      unfold servedObs
      split
      · exact if_pos (congrArg (·.rows) hjobs)
      · rfl
    have hnothing : served.state.dir.db.jobs = s.world.db.jobs →
        ∃ qs, Answers sha256Hex validatePdf decodeSegment clients s w (.request pid request o)
          (s.served served.state, (servedObs decodeSegment s.world.db request o served).map
            .job ++ [.response pid served.response]) qs := by
      intro hjobs
      refine ⟨[], answers_nil h hjobs rfl rfl ?_⟩
      rw [hquiet hjobs]
      rfl
    cases hmove with
    | other unasked client after => exact hnothing after
    | read asked client after =>
        exact hnothing (congrArg (fun a : Api.AgentState => a.dir.db.jobs) after)
    | job r asked client after =>
        cases hauth : authenticate sha256Hex s.world.db request.headers o.job.authenticatedAt with
        | error error =>
            rw [Api.handle_of_error sha256Hex validatePdf headerText p.config hauth] at after
            exact hnothing (congrArg (fun dir : Api.DataDir => dir.db.jobs) after)
        | ok owner =>
            rw [Api.handle_of_ok sha256Hex validatePdf headerText p.config hauth] at after
            by_cases hchanged : served.state.dir.db.jobs = s.world.db.jobs
            · exact hnothing hchanged
            · obtain ⟨codes, rfl⟩ := h
              have hclient : served.client = some owner := by
                rw [client]
                exact congrArg Except.toOption hauth
              obtain ⟨q, hcomes, hstep⟩ := queueStep_of_handleFor sha256Hex validatePdf headerText
                p.config s.agent.dir owner.id r o (by rw [← after]; exact hchanged) clients codes
                s.world.procs s.world.ports
                (hcovers owner.id (client?_of_authenticate sha256Hex hauth))
              rw [← after] at hstep
              have hacts : r.acts = true := by
                cases hcomes <;> rfl
              refine ⟨[q], ⟨codes, congrArg Prod.fst hstep⟩, ?_, fun q' hq' => ?_⟩
              · -- what the queue shows is what is seen of the request
                have hrows : ¬ served.state.dir.db.jobs.rows = s.world.db.jobs.rows :=
                  fun hrows => hchanged (Table.ext hrows)
                have hobs : servedObs decodeSegment s.world.db request o served =
                    requestObs owner.id o r := by
                  simp only [servedObs, hclient, asked, if_neg hrows]
                rw [trace_cons, trace_nil, List.append_nil, hobs, List.filterMap_append,
                  filterMap_job_map]
                exact (congrArg Prod.snd hstep).trans (List.append_nil _).symm
              · obtain rfl := List.mem_singleton.mp hq'
                exact .request pid request o p owner r q' hproc hlistening hpass.1
                  (Api.method_of_acts decodeSegment asked hacts) asked hauth hcomes

/-- **One step of the site is at most one step of the queue.** -/
theorem answers_step (h : Follows clients s w)
    (hcovers : Covers parse sha256Hex validatePdf headerText hmac parseJson decodeSegment clients
      s e) :
    ∃ qs, Answers sha256Hex validatePdf decodeSegment clients s w e
      (step parse sha256Hex validatePdf headerText hmac parseJson decodeSegment s e) qs := by
  have hbefore : ∀ id, s.world.db.client? id ≠ none →
      clients.lookup (fun r => r.id) id ≠ none := fun id hid => hcovers id
    (keepsClients_step parse sha256Hex validatePdf headerText hmac parseJson decodeSegment s e id
      hid)
  cases e with
  | request pid request o =>
      simp only [step]
      cases hproc : s.world.procs pid with
      | none => exact ⟨[], answers_nil h rfl rfl rfl rfl⟩
      | some p =>
          dsimp only
          split
          · next hlistening => exact answers_answer hproc hlistening h hbefore
          · exact ⟨[], answers_nil h rfl rfl rfl rfl⟩
  | command command => exact ⟨[], answers_runCommand h command⟩
  | start pid config session now =>
      refine ⟨[.start pid config now], ?_⟩
      simp only [step]
      exact answers_advance h (by rfl) rfl
  | bind | shutdown | crash | worker => exact ⟨_, answers_advance h rfl rfl⟩

end

/-! ## Runs -/

section

variable (parse : String → Option Url) (sha256Hex : List UInt8 → String)
  (validatePdf : List UInt8 → String → Except String PdfReport) (headerText : String → Bool)
  (hmac : List UInt8 → List UInt8 → String) (parseJson : List UInt8 → Option InstanceIdentity)
  (decodeSegment : String → Option String)

theorem keepsClients_run (s : Site) (es : List Event) :
    KeepsClients s.world.db (run (step parse sha256Hex validatePdf headerText hmac parseJson
      decodeSegment) s es).world.db := by
  induction es generalizing s with
  | nil => exact keepsClients_of_eq rfl
  | cons e es ih =>
      exact (keepsClients_step parse sha256Hex validatePdf headerText hmac parseJson decodeSegment
        s e).trans (ih _)

/-- The clients at the end cover every step of the run. -/
theorem covers_run (s : Site) (es : List Event) :
    Along (step parse sha256Hex validatePdf headerText hmac parseJson decodeSegment)
      (fun _ u e => Covers parse sha256Hex validatePdf headerText hmac parseJson decodeSegment
        (run (step parse sha256Hex validatePdf headerText hmac parseJson decodeSegment) s
          es).world.db.clients u e) s es := by
  rintro pre e post rfl
  intro id hid
  rw [run_append, run_cons]
  exact keepsClients_run parse sha256Hex validatePdf headerText hmac parseJson decodeSegment _ post
    id hid

/-- The run of the queue that goes with a run of the site. -/
theorem exists_queueRun (db : Database) (files : String → Option (List UInt8)) (es : List Event) :
    let step := step parse sha256Hex validatePdf headerText hmac parseJson decodeSegment
    let start := Site.ofDatabase db files
    let clients := (run step start es).world.db.clients
    let queue := World.ofDatabase { db with clients := clients }
    ∃ qs, Follows clients (run step start es) (run (Queue.step sha256Hex) queue qs) ∧
      trace (Queue.step sha256Hex) queue qs = (trace step start es).filterMap Seen.job? ∧
      ∀ q ∈ qs, CausedIn step (Causes sha256Hex validatePdf decodeSegment) start es q := by
  intro step start clients queue
  have hstep : ∀ (s : Site) (w : World) (e : Event), Follows clients s w →
      Covers parse sha256Hex validatePdf headerText hmac parseJson decodeSegment clients s e →
      ∃ qs, Follows clients (step s e).1 (run (Queue.step sha256Hex) w qs) ∧
        trace (Queue.step sha256Hex) w qs = (step s e).2.filterMap Seen.job? ∧
        ∀ q ∈ qs, Causes sha256Hex validatePdf decodeSegment s e q := by
    intro s w e hfollows hcovers
    obtain ⟨qs, hanswers⟩ := answers_step hfollows hcovers
    exact ⟨qs, hanswers.follows, hanswers.seen, hanswers.causes⟩
  have hstart : Follows clients start queue := ⟨db.pairingCodes, rfl⟩
  exact exists_run_of_simulation hstep hstart
    (covers_run parse sha256Hex validatePdf headerText hmac parseJson decodeSegment start es)

end

/-- **The site refines the queue, and every act on a job is its owner's.**  For every run of
    agents, workers, requests by anybody and commands, there is a run of the queue, beside
    the clients there are at the end, that ends with the same jobs, processes and ports and
    shows the same of the jobs; and whatever it creates, cancels or retries was asked for by
    a `POST` to a listening agent that `authenticate` took for that client. -/
theorem refines_queue (parse : String → Option Url) (sha256Hex : List UInt8 → String)
    (validatePdf : List UInt8 → String → Except String PdfReport) (headerText : String → Bool)
    (hmac : List UInt8 → List UInt8 → String) (parseJson : List UInt8 → Option InstanceIdentity)
    (decodeSegment : String → Option String) (db : Database)
    (files : String → Option (List UInt8)) (es : List Event) :
    let step := step parse sha256Hex validatePdf headerText hmac parseJson decodeSegment
    let start := Site.ofDatabase db files
    let site := run step start es
    let queue := World.ofDatabase { db with clients := site.world.db.clients }
    ∃ qs : List Queue.Input,
      (run (Queue.step sha256Hex) queue qs).db.jobs = site.world.db.jobs ∧
      (run (Queue.step sha256Hex) queue qs).procs = site.world.procs ∧
      (run (Queue.step sha256Hex) queue qs).ports = site.world.ports ∧
      trace (Queue.step sha256Hex) queue qs = (trace step start es).filterMap Seen.job? ∧
      ∀ q ∈ qs, CausedIn step (Causes sha256Hex validatePdf decodeSegment) start es q := by
  intro step start site queue
  obtain ⟨qs, ⟨codes, hend⟩, htrace, hcauses⟩ := exists_queueRun parse sha256Hex validatePdf
    headerText hmac parseJson decodeSegment db files es
  refine ⟨qs, ?_, ?_, ?_, htrace, hcauses⟩
  · rw [hend]
    rfl
  · rw [hend]
    rfl
  · rw [hend]
    rfl

end Desktop

end PrintLatch
