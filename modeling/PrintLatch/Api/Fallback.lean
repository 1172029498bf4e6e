/-
  PrintLatch.Api.Fallback

  What a browser client may do without its `Origin`, over every route.

  `authenticate` takes headers and no method, so its fallback for requests without an
  `Origin` holds for every handler that calls it.  `ServedMove` says once what a request
  can do: a handler for jobs runs for the client that `authenticate` returns, a handler
  only reads for it, or none is asked for.
-/

import PrintLatch.Api.Router
import PrintLatch.Api.Isolation

namespace PrintLatch.Api

open Text

/-! ## What a route asks for -/

section

variable (decodeSegment : String → Option String)

/-- The request to a handler for jobs that a request on the socket comes to. -/
def jobRequest? (request : HttpRequest) : Option Request :=
  match routeOf request.path, request.method.handler with
  | .jobs, .post => request.multipart.map .createJob
  | .jobs, .get => request.limit.map .listJobs
  | .job segment, .get => (decodeSegment segment).map .getJob
  | .document segment, .get => (decodeSegment segment).map .getDocument
  | .cancel segment, .post => (decodeSegment segment).map .cancelJob
  | .retry segment, .post => (decodeSegment segment).map .retryJob
  | _, _ => none

/-- The request comes to another handler that authenticates. -/
def readsOnly (request : HttpRequest) : Bool :=
  match routeOf request.path, request.method.handler with
  | .testPdf, .get => true
  | .printers, .get => true
  | _, _ => false

/-- The request passes the middleware and comes to a handler that authenticates. -/
def Authenticates (config : AppConfig) (request : HttpRequest) : Prop :=
  validHost request.headers config.port = true ∧ upgradesToWebsocket request.headers = false ∧
    ((jobRequest? decodeSegment request).isSome = true ∨ readsOnly request = true)

/-- Only a `POST` asks a handler to change a job. -/
def Request.acts : Request → Bool
  | .createJob _ | .cancelJob _ | .retryJob _ => true
  | .listJobs _ | .getJob _ | .getDocument _ => false

theorem method_of_acts {request : HttpRequest} {r : Request}
    (h : jobRequest? decodeSegment request = some r) (hacts : r.acts = true) :
    request.method = .post := by
  have hhandler : request.method.handler = .post := by
    unfold jobRequest? at h
    split at h
    case h_1 hmethod => exact hmethod
    case h_5 hmethod => exact hmethod
    case h_6 hmethod => exact hmethod
    case h_7 => cases h
    all_goals
      obtain ⟨x, -, rfl⟩ := Option.map_eq_some_iff.mp h
      cases hacts
  cases hmethod : request.method with
  | post => rfl
  | _ => simp [hmethod, Method.handler] at hhandler

theorem jobRequest?_of_readsOnly {request : HttpRequest} (h : readsOnly request = true) :
    jobRequest? decodeSegment request = none := by
  unfold readsOnly at h
  unfold jobRequest?
  split at h
  · next hroute hmethod => simp [hroute, hmethod]
  · next hroute hmethod => simp [hroute, hmethod]
  · cases h

end

theorem ok_of_toOption {ε α : Type*} {result : Except ε α} {a : α}
    (h : result.toOption = some a) : result = .ok a := by
  cases result with
  | error error => cases h
  | ok b => exact congrArg Except.ok (Option.some.inj h)

section

variable (parse : String → Option Url) (sha256Hex : List UInt8 → String)
  (validatePdf : List UInt8 → String → Except String PdfReport) (headerText : String → Bool)
  (hmac : List UInt8 → List UInt8 → String) (decodeSegment : String → Option String)
  (config : AppConfig) (instanceSession : String)

/-! ## The inversion lemma -/

/-- Everything a request can do: which client it is served for, and what becomes of the
    data directory. -/
inductive ServedMove (state : AgentState) (request : HttpRequest) (o : RequestOutside)
    (served : Served) : Prop
  | job (r : Request) (asked : jobRequest? decodeSegment request = some r)
      (client : served.client =
        (authenticate sha256Hex state.dir.db request.headers o.job.authenticatedAt).toOption)
      (after : served.state.dir = (handle sha256Hex validatePdf headerText config state.dir
        ⟨request.headers, r, o.job⟩).1)
  | read (asked : readsOnly request = true)
      (client : served.client =
        (authenticate sha256Hex state.dir.db request.headers o.job.authenticatedAt).toOption)
      (after : served.state = state)
  | other (unasked : jobRequest? decodeSegment request = none ∧ readsOnly request = false)
      (client : served.client = none)
      (after : served.state.dir.db.jobs = state.dir.db.jobs)

theorem ServedMove.congr {state : AgentState} {request : HttpRequest} {o : RequestOutside}
    {served served' : Served}
    (h : ServedMove sha256Hex validatePdf headerText decodeSegment config state request o served)
    (hclient : served'.client = served.client) (hstate : served'.state = served.state) :
    ServedMove sha256Hex validatePdf headerText decodeSegment config state request o served' := by
  cases h with
  | job r asked client after =>
      exact .job r asked (hclient.trans client) (by rw [hstate]; exact after)
  | read asked client after => exact .read asked (hclient.trans client) (hstate.trans after)
  | other unasked client after =>
      exact .other unasked (hclient.trans client) (by rw [hstate]; exact after)

theorem serveRead_client (state : AgentState) (headers : HeaderMap) (response : HttpResponse)
    (o : RequestOutside) :
    (serveRead sha256Hex state headers response o).client =
        (authenticate sha256Hex state.dir.db headers o.job.authenticatedAt).toOption ∧
      (serveRead sha256Hex state headers response o).state = state := by
  unfold serveRead
  split
  · next heq => exact ⟨by rw [heq]; rfl, rfl⟩
  · next heq => exact ⟨by rw [heq]; rfl, rfl⟩

theorem consumePairingCode_jobs (db : Database) (code requestOrigin session : String) (now : Int)
    (secret candidateId : String) (clock issuedAt : Int) (faults : List RedemptionFault) :
    (consumePairingCode parse sha256Hex db code requestOrigin session now secret candidateId clock
      issuedAt faults).1.jobs = db.jobs := by
  unfold consumePairingCode
  split
  · rfl
  · next origin _ =>
      split
      · rfl
      · have hjobs := db.consumePairingCode_jobs (hashSecret sha256Hex code) origin now session
        split
        · next heq =>
            rw [heq] at hjobs
            exact hjobs
        · next heq =>
            rw [heq] at hjobs
            split
            · exact hjobs
            · split
              · exact hjobs
              · next hissue =>
                  exact (issueForRecord_onlyClients sha256Hex hissue).jobs.trans hjobs

theorem servePair_other (state : AgentState) (request : HttpRequest) (o : RequestOutside) :
    (servePair parse sha256Hex instanceSession state request o).client = none ∧
      (servePair parse sha256Hex instanceSession state request o).state.dir.db.jobs =
        state.dir.db.jobs := by
  unfold servePair
  split
  · exact ⟨rfl, rfl⟩
  · next code _ =>
      split
      · exact ⟨rfl, rfl⟩
      · next origin _ =>
          have hjobs := consumePairingCode_jobs parse sha256Hex state.dir.db code origin
            instanceSession o.redeemedAt o.secret o.candidateId o.clock o.issuedAt
            o.redemptionFaults
          split
          · next heq =>
              rw [heq] at hjobs
              exact ⟨rfl, hjobs⟩
          · next heq =>
              rw [heq] at hjobs
              exact ⟨rfl, hjobs⟩

theorem serveInstance_other (state : AgentState) (challenge : Option String)
    (o : RequestOutside) :
    (serveInstance hmac instanceSession state challenge o).client = none ∧
      (serveInstance hmac instanceSession state challenge o).state.dir = state.dir := by
  unfold serveInstance
  split
  · exact ⟨rfl, rfl⟩
  · split <;> exact ⟨rfl, rfl⟩

variable {state : AgentState} {request : HttpRequest} {o : RequestOutside}

theorem servedMove_serveJobs {r : Request} (h : jobRequest? decodeSegment request = some r) :
    ServedMove sha256Hex validatePdf headerText decodeSegment config state request o
      (serveJobs sha256Hex validatePdf headerText config state request.headers r o) :=
  .job r h rfl rfl

/-- What is served to nobody, and changes nothing. -/
theorem servedMove_answer (response : HttpResponse)
    (h : jobRequest? decodeSegment request = none ∧ readsOnly request = false) :
    ServedMove sha256Hex validatePdf headerText decodeSegment config state request o
      (state.answer none response) :=
  .other h rfl rfl

theorem servedMove_serveJob {segment : String} {make : String → Request}
    (hasked : jobRequest? decodeSegment request = (decodeSegment segment).map make)
    (hread : readsOnly request = false) :
    ServedMove sha256Hex validatePdf headerText decodeSegment config state request o
      (serveJob sha256Hex validatePdf headerText decodeSegment config state request.headers segment
        make o) := by
  unfold serveJob
  cases hdecode : decodeSegment segment with
  | none =>
      rw [hdecode] at hasked
      exact servedMove_answer sha256Hex validatePdf headerText decodeSegment config rejection
        ⟨hasked, hread⟩
  | some id =>
      rw [hdecode] at hasked
      exact servedMove_serveJobs sha256Hex validatePdf headerText decodeSegment config hasked

theorem servedMove_serveRead (response : HttpResponse) (h : readsOnly request = true) :
    ServedMove sha256Hex validatePdf headerText decodeSegment config state request o
      (serveRead sha256Hex state request.headers response o) :=
  .read h (serveRead_client sha256Hex state request.headers response o).1
    (serveRead_client sha256Hex state request.headers response o).2

/-- Every route with its methods is one of the moves. -/
theorem servedMove_of_handleRoute :
    ServedMove sha256Hex validatePdf headerText decodeSegment config state request o
      (handleRoute parse sha256Hex validatePdf headerText hmac decodeSegment config instanceSession
        state (routeOf request.path) request.method.handler request o) := by
  -- a method that a route has no handler for, or one that asks for nobody
  have hanswer : ∀ response, jobRequest? decodeSegment request = none ∧ readsOnly request = false →
      ServedMove sha256Hex validatePdf headerText decodeSegment config state request o
        (state.answer none response) := fun response h =>
    servedMove_answer sha256Hex validatePdf headerText decodeSegment config response h
  cases hroute : routeOf request.path with
  | index | asset | health | anyPath | unmatched =>
      cases hmethod : request.method.handler <;>
        exact hanswer _ (by simp [jobRequest?, readsOnly, hroute])
  | testPdf | printers =>
      cases hmethod : request.method.handler with
      | get =>
          exact servedMove_serveRead sha256Hex validatePdf headerText decodeSegment config _
            (by simp [readsOnly, hroute, hmethod])
      | _ => exact hanswer _ (by simp [jobRequest?, readsOnly, hroute, hmethod])
  | healthInstance =>
      cases hmethod : request.method.handler with
      | get =>
          have hother := serveInstance_other hmac instanceSession state request.challenge o
          exact .other (by simp [jobRequest?, readsOnly, hroute]) hother.1
            (congrArg (fun dir : DataDir => dir.db.jobs) hother.2)
      | _ => exact hanswer _ (by simp [jobRequest?, readsOnly, hroute])
  | pair =>
      cases hmethod : request.method.handler with
      | post =>
          have hother := servePair_other parse sha256Hex instanceSession state request o
          exact .other (by simp [jobRequest?, readsOnly, hroute]) hother.1 hother.2
      | _ => exact hanswer _ (by simp [jobRequest?, readsOnly, hroute])
  | jobs =>
      cases hmethod : request.method.handler with
      | get =>
          cases hlimit : request.limit with
          | none =>
              simp only [handleRoute, hlimit]
              exact hanswer _ (by simp [jobRequest?, readsOnly, hroute, hmethod, hlimit])
          | some limit =>
              simp only [handleRoute, hlimit]
              exact servedMove_serveJobs sha256Hex validatePdf headerText decodeSegment config
                (by simp [jobRequest?, hroute, hmethod, hlimit])
      | post =>
          cases hmultipart : request.multipart with
          | none =>
              simp only [handleRoute, hmultipart]
              exact hanswer _ (by simp [jobRequest?, readsOnly, hroute, hmethod, hmultipart])
          | some multipart =>
              simp only [handleRoute, hmultipart]
              exact servedMove_serveJobs sha256Hex validatePdf headerText decodeSegment config
                (by simp [jobRequest?, hroute, hmethod, hmultipart])
      | _ => exact hanswer _ (by simp [jobRequest?, readsOnly, hroute, hmethod])
  | job segment | document segment =>
      cases hmethod : request.method.handler with
      | get =>
          exact servedMove_serveJob sha256Hex validatePdf headerText decodeSegment config
            (by simp [jobRequest?, hroute, hmethod]) (by simp [readsOnly, hroute])
      | _ => exact hanswer _ (by simp [jobRequest?, readsOnly, hroute, hmethod])
  | cancel segment | retry segment =>
      cases hmethod : request.method.handler with
      | post =>
          exact servedMove_serveJob sha256Hex validatePdf headerText decodeSegment config
            (by simp [jobRequest?, hroute, hmethod]) (by simp [readsOnly, hroute])
      | _ => exact hanswer _ (by simp [jobRequest?, readsOnly, hroute, hmethod])

/-- Every request is one of the moves, once it is through the middleware. -/
theorem servedMove_of_serve (hhost : validHost request.headers config.port = true)
    (hwebsocket : upgradesToWebsocket request.headers = false) :
    ServedMove sha256Hex validatePdf headerText decodeSegment config state request o
      (serve parse sha256Hex validatePdf headerText hmac decodeSegment config instanceSession state
        request o) := by
  have hmove : ServedMove sha256Hex validatePdf headerText decodeSegment config state request o
      (handleRoute parse sha256Hex validatePdf headerText hmac decodeSegment config
        instanceSession state (routeOf request.path) request.method.handler request o) :=
    servedMove_of_handleRoute parse sha256Hex validatePdf headerText hmac decodeSegment config
      instanceSession
  unfold serve
  rw [if_neg (by simp [hhost]), if_neg (by simp [hwebsocket])]
  -- the middleware and a `HEAD` only change the response
  refine hmove.congr sha256Hex validatePdf headerText decodeSegment config ?_ ?_
  · unfold dispatch
    dsimp only
    split <;> rfl
  · unfold dispatch
    dsimp only
    split <;> rfl

/-! ## Handlers that change jobs -/

/-- The statement of the request changes a job: the row is as its condition asks, and no
    call up to it fails. -/
def Request.TakesEffect (dir : DataDir) (clientId : String) (o : Outside) : Request → Prop
  | .createJob multipart => ∃ parsed report,
      admitJob sha256Hex validatePdf multipart o = .ok (parsed, report) ∧
        Stores config dir.db clientId parsed report o ∧ dir.db.job? o.id = none
  | .cancelJob id => .update ∉ o.faults ∧
      ∃ r, dir.db.job? id = some r ∧ r.clientId = clientId ∧ r.state = .queued
  | .retryJob id => .update ∉ o.faults ∧
      ∃ r, dir.db.job? id = some r ∧ r.clientId = clientId ∧
        (r.state = .failed ∨ r.state = .unknown) ∧ r.attempts < 3
  | .listJobs _ | .getJob _ | .getDocument _ => False

theorem changeJob_db (dir : DataDir) (clientId id : String) (changed : Database × Bool)
    (refusal : AppError) (notices : List Obs) (o : Outside) :
    (changeJob dir clientId id changed refusal notices o).1.db =
      if .update ∈ o.faults then dir.db else changed.1 := by
  unfold changeJob
  split
  · rfl
  · dsimp only
    split <;> rfl

theorem changeJob_jobs_ne_iff {dir : DataDir} {clientId id : String} {changed : Database × Bool}
    {p : Prop} (hchanged : changed.1.jobs ≠ dir.db.jobs ↔ p) (refusal : AppError)
    (notices : List Obs) (o : Outside) :
    (changeJob dir clientId id changed refusal notices o).1.db.jobs ≠ dir.db.jobs ↔
      .update ∉ o.faults ∧ p := by
  rw [changeJob_db]
  split
  · next hfault => exact ⟨fun h => absurd rfl h, fun h => absurd hfault h.1⟩
  · next hfault => exact hchanged.trans ⟨fun h => ⟨hfault, h⟩, fun h => h.2⟩

theorem storeJob_jobs_ne_iff (dir : DataDir) (clientId : String) (parsed : ParsedJob)
    (report : PdfReport) (o : Outside) :
    (storeJob config dir clientId parsed report o).1.db.jobs ≠ dir.db.jobs ↔
      Stores config dir.db clientId parsed report o ∧ dir.db.job? o.id = none := by
  rcases storeJob_cases config dir clientId parsed report o with
    ⟨hno, heq⟩ | ⟨-, hno, heq⟩ | ⟨hstores, hfree, db, hdb, heq⟩
  · rw [heq]
    exact ⟨fun h => absurd rfl h, fun h => absurd h.1.1 hno⟩
  · rw [heq]
    exact ⟨fun h => absurd rfl h, fun h => absurd h hno⟩
  · rw [heq]
    refine iff_of_true (fun hjobs => ?_) ⟨hstores, hfree⟩
    -- the new id was free, and has a row now
    obtain ⟨-, -, hall⟩ := Database.insertJob_ok hdb
    have hrow := (hall o.id).trans (if_pos rfl)
    unfold Database.job? at hrow hfree
    rw [show db.jobs = dir.db.jobs from hjobs, hfree] at hrow
    cases hrow

/-- **When a handler changes the jobs.** -/
theorem handleFor_jobs_ne_iff (dir : DataDir) (clientId : String) (r : Request) (o : Outside) :
    (handleFor sha256Hex validatePdf headerText config dir clientId r o).1.db.jobs ≠ dir.db.jobs ↔
      r.TakesEffect sha256Hex validatePdf config dir clientId o := by
  cases r with
  | createJob multipart =>
      show (createJob sha256Hex validatePdf config dir clientId multipart o).1.db.jobs ≠ _ ↔
        ∃ parsed report, admitJob sha256Hex validatePdf multipart o = .ok (parsed, report) ∧ _
      unfold createJob
      cases hadmit : admitJob sha256Hex validatePdf multipart o with
      | error error =>
          refine ⟨fun h => absurd rfl h, ?_⟩
          rintro ⟨parsed, report, h, -⟩
          cases h
      | ok admitted =>
          obtain ⟨parsed, report⟩ := admitted
          refine (storeJob_jobs_ne_iff config dir clientId parsed report o).trans ?_
          constructor
          · exact fun h => ⟨parsed, report, rfl, h⟩
          · rintro ⟨parsed', report', h, hstores⟩
            cases h
            exact hstores
  | cancelJob id =>
      exact changeJob_jobs_ne_iff (dir.db.cancelJob_jobs_ne_iff id clientId o.now) _ _ o
  | retryJob id =>
      exact changeJob_jobs_ne_iff (dir.db.retryJob_jobs_ne_iff id clientId o.now) _ _ o
  | listJobs | getJob | getDocument => exact ⟨fun h => absurd rfl h, nofun⟩

/-! ## The fallback -/

/-- The token of the request is a browser client's, whose stored origin the request may
    stand for without an `Origin` that can be read. -/
structure ByFallback (db : Database) (headers : HeaderMap) (now : Int)
    (client : AuthenticatedClient) (stored : String) : Prop where
  token : ∃ value token, headers.get "authorization" = some value ∧ toStr value = some value ∧
    bearerToken value = some token ∧ db.findClientByTokenHash (sha256Hex token) now = some client
  kind : client.kind = .browser
  origin : client.origin = some stored
  unread : (headers.get "origin").bind toStr = none
  fallback : isSameOriginLoopbackDashboard stored headers = true

/-- A browser client is accepted with its origin, or by the fallback. -/
theorem origin_or_fallback {db : Database} {headers : HeaderMap} {now : Int}
    {client : AuthenticatedClient} (h : authenticate sha256Hex db headers now = .ok client)
    (hkind : client.kind = .browser) :
    ∃ stored, client.origin = some stored ∧
      (headers.get "origin" = some (utf8 stored) ∨
        ByFallback sha256Hex db headers now client stored) := by
  obtain ⟨value, token, hvalue, hdecode, hbearer, hfound, hallows⟩ :=
    (authenticate_eq_ok sha256Hex).mp h
  unfold allowsOrigin at hallows
  rw [hkind] at hallows
  cases horigin : client.origin with
  | none =>
      rw [horigin] at hallows
      cases hallows
  | some stored =>
      rw [horigin] at hallows
      refine ⟨stored, rfl, ?_⟩
      cases hread : (headers.get "origin").bind toStr with
      | none =>
          rw [hread] at hallows
          exact Or.inr ⟨⟨value, token, hvalue, hdecode, hbearer, hfound⟩, hkind, horigin, hread,
            hallows⟩
      | some actual =>
          rw [hread] at hallows
          obtain ⟨raw, hraw, htext⟩ := Option.bind_eq_some_iff.mp hread
          obtain rfl := toStr_eq_some htext
          exact Or.inl (hraw.trans (congrArg some (of_decide_eq_true hallows).symm))

theorem ByFallback.authenticate {db : Database} {headers : HeaderMap} {now : Int}
    {client : AuthenticatedClient} {stored : String}
    (h : ByFallback sha256Hex db headers now client stored) :
    authenticate sha256Hex db headers now = .ok client := by
  obtain ⟨value, token, hvalue, hdecode, hbearer, hfound⟩ := h.token
  refine (authenticate_eq_ok sha256Hex).mpr
    ⟨value, token, hvalue, hdecode, hbearer, hfound, ?_⟩
  simp [allowsOrigin, h.kind, h.origin, h.unread, h.fallback]

/-- What was served did not create, cancel or retry a job for a browser client without its
    `Origin`, and accepted one without an `Origin` only for a `GET`. -/
structure FallbackReads (state : AgentState) (request : HttpRequest) (served : Served) : Prop where
  origin : ∀ client, served.client = some client → client.kind = .browser →
    served.state.dir.db.jobs ≠ state.dir.db.jobs →
    ∃ stored, client.origin = some stored ∧ request.headers.get "origin" = some (utf8 stored)
  method : ∀ client, served.client = some client → client.kind = .browser →
    request.headers.get "origin" = none → request.method = .get

/-- The fallback is asked for by a `GET`, or with an `Origin` that cannot be read and is the
    stored one or comes with nothing to create, cancel or retry. -/
def AsksToRead (state : AgentState) (request : HttpRequest) (o : RequestOutside) : Prop :=
  Authenticates decodeSegment config request → ∀ client stored,
    ByFallback sha256Hex state.dir.db request.headers o.job.authenticatedAt client stored →
    match request.headers.get "origin" with
    | none => request.method = .get
    | some origin => origin = utf8 stored ∨ ∀ r, jobRequest? decodeSegment request = some r →
        ¬ r.TakesEffect sha256Hex validatePdf config state.dir client.id o.job

theorem handle_of_ok {dir : DataDir} {i : Input} {client : AuthenticatedClient}
    (h : authenticate sha256Hex dir.db i.headers i.outside.authenticatedAt = .ok client) :
    handle sha256Hex validatePdf headerText config dir i =
      handleFor sha256Hex validatePdf headerText config dir client.id i.request i.outside := by
  unfold handle
  rw [h]

/-- What the fallback serves, where it asks to read: no handler acts on a job, unless the
    `Origin` is the stored one. -/
theorem AsksToRead.served {r : Request} (hasked : jobRequest? decodeSegment request = some r)
    (h : AsksToRead sha256Hex validatePdf decodeSegment config state request o)
    (hreaches : Authenticates decodeSegment config request) {client : AuthenticatedClient}
    {stored : String}
    (hby : ByFallback sha256Hex state.dir.db request.headers o.job.authenticatedAt client stored) :
    request.headers.get "origin" = some (utf8 stored) ∨
      ¬ r.TakesEffect sha256Hex validatePdf config state.dir client.id o.job := by
  have hcase := h hreaches client stored hby
  cases horigin : request.headers.get "origin" with
  | none =>
      rw [horigin] at hcase
      have hmethod : request.method = .get := hcase
      right
      cases hacts : r.acts with
      | false =>
          -- a handler that reads has nothing to change
          cases r with
          | createJob | cancelJob | retryJob => cases hacts
          | listJobs | getJob | getDocument => exact id
      | true =>
          rw [method_of_acts decodeSegment hasked hacts] at hmethod
          cases hmethod
  | some origin =>
      rw [horigin] at hcase
      exact hcase.imp (fun heq => congrArg some heq) fun hno => hno r hasked

/-- Where the fallback asks to read, an accepted request without an `Origin` is a `GET`. -/
theorem AsksToRead.method
    (h : AsksToRead sha256Hex validatePdf decodeSegment config state request o)
    (hreaches : Authenticates decodeSegment config request) {client : AuthenticatedClient}
    (hauth : authenticate sha256Hex state.dir.db request.headers o.job.authenticatedAt =
      .ok client) (hkind : client.kind = .browser)
    (hnone : request.headers.get "origin" = none) : request.method = .get := by
  obtain ⟨stored, -, horigin | hby⟩ := origin_or_fallback sha256Hex hauth hkind
  · rw [hnone] at horigin
    cases horigin
  · have hcase := h hreaches client stored hby
    rw [hnone] at hcase
    exact hcase

section Served

variable {served : Served}
  (hclient : served.client =
    (authenticate sha256Hex state.dir.db request.headers o.job.authenticatedAt).toOption)
  (hnone : jobRequest? decodeSegment request = none → served.state.dir = state.dir)
  (hsome : ∀ r, jobRequest? decodeSegment request = some r → ∀ client,
    authenticate sha256Hex state.dir.db request.headers o.job.authenticatedAt = .ok client →
    served.state.dir =
      (handleFor sha256Hex validatePdf headerText config state.dir client.id r o.job).1)

include hclient hsome

/-- What a handler served shows what the fallback was asked for. -/
theorem FallbackReads.asksToRead (h : FallbackReads state request served) :
    AsksToRead sha256Hex validatePdf decodeSegment config state request o := by
  intro _ client stored hby
  have hauth := hby.authenticate sha256Hex
  have hserved : served.client = some client := by
    rw [hclient, hauth]
    rfl
  cases horigin : request.headers.get "origin" with
  | none => exact h.method client hserved hby.kind horigin
  | some origin =>
      by_cases heq : origin = utf8 stored
      · exact Or.inl heq
      · -- had the request changed a job, it would have carried the stored origin
        right
        intro r hr heffect
        have hchanged := (handleFor_jobs_ne_iff sha256Hex validatePdf headerText config state.dir
          client.id r o.job).mpr heffect
        rw [← hsome r hr client hauth] at hchanged
        obtain ⟨stored', hstored', hsent⟩ := h.origin client hserved hby.kind hchanged
        obtain rfl : stored = stored' := Option.some.inj (hby.origin.symm.trans hstored')
        exact heq (Option.some.inj (horigin.symm.trans hsent))

include hnone

/-- Where the fallback asks to read, nothing else is served by it. -/
theorem AsksToRead.fallbackReads
    (h : AsksToRead sha256Hex validatePdf decodeSegment config state request o)
    (hreaches : Authenticates decodeSegment config request) :
    FallbackReads state request served where
  origin client hserved hkind hchanged := by
    have hauth := ok_of_toOption (hclient.symm.trans hserved)
    obtain ⟨stored, hstored, horigin | hby⟩ := origin_or_fallback sha256Hex hauth hkind
    · exact ⟨stored, hstored, horigin⟩
    · -- the fallback has accepted it
      cases hasked : jobRequest? decodeSegment request with
      | none =>
          rw [hnone hasked] at hchanged
          exact absurd rfl hchanged
      | some r =>
          rcases h.served sha256Hex validatePdf decodeSegment config hasked hreaches hby with
            horigin | hno
          · exact ⟨stored, hstored, horigin⟩
          · rw [hsome r hasked client hauth] at hchanged
            exact absurd ((handleFor_jobs_ne_iff sha256Hex validatePdf headerText config
              state.dir client.id r o.job).mp hchanged) hno
  method client hserved hkind horigin :=
    h.method sha256Hex validatePdf decodeSegment config hreaches
      (ok_of_toOption (hclient.symm.trans hserved)) hkind horigin

end Served

end

/-- **When the fallback covers reads only.**  For every state and request, a browser client
    acts on jobs with its `Origin` only, and is accepted without an `Origin` for a `GET` only,
    exactly when what asks for the fallback asks to read. -/
theorem fallback_reads_iff (parse : String → Option Url) (sha256Hex : List UInt8 → String)
    (validatePdf : List UInt8 → String → Except String PdfReport) (headerText : String → Bool)
    (hmac : List UInt8 → List UInt8 → String) (decodeSegment : String → Option String)
    (config : AppConfig) (instanceSession : String) (state : AgentState) (request : HttpRequest)
    (o : RequestOutside) :
    FallbackReads state request (serve parse sha256Hex validatePdf headerText hmac decodeSegment
      config instanceSession state request o) ↔
    AsksToRead sha256Hex validatePdf decodeSegment config state request o := by
  by_cases hpass : validHost request.headers config.port = true ∧
      upgradesToWebsocket request.headers = false
  case neg =>
    -- the middleware answers, and no handler runs
    have hserved : (serve parse sha256Hex validatePdf headerText hmac decodeSegment config
        instanceSession state request o).client = none := by
      unfold serve
      split
      · rfl
      · split
        · rfl
        · next hhost hwebsocket =>
            exact absurd ⟨by simpa using hhost, by simpa using hwebsocket⟩ hpass
    constructor
    · exact fun _ hreaches => absurd ⟨hreaches.1, hreaches.2.1⟩ hpass
    · intro _
      constructor <;> intro client hclient <;> rw [hserved] at hclient <;> cases hclient
  case pos =>
    have hmove : ServedMove sha256Hex validatePdf headerText decodeSegment config state request o
        (serve parse sha256Hex validatePdf headerText hmac decodeSegment config instanceSession
          state request o) :=
      servedMove_of_serve parse sha256Hex validatePdf headerText hmac decodeSegment config
        instanceSession hpass.1 hpass.2
    generalize serve parse sha256Hex validatePdf headerText hmac decodeSegment config
      instanceSession state request o = served at hmove ⊢
    cases hmove with
    | other unasked client after =>
        constructor
        · rintro - ⟨-, -, hreaches⟩
          simp [unasked] at hreaches
        · intro _
          constructor <;> intro c hc <;> rw [client] at hc <;> cases hc
    | read asked client after =>
        have hunasked := jobRequest?_of_readsOnly decodeSegment asked
        have hnone : jobRequest? decodeSegment request = none → served.state.dir = state.dir :=
          fun _ => congrArg AgentState.dir after
        have hsome : ∀ r, jobRequest? decodeSegment request = some r → ∀ c,
            authenticate sha256Hex state.dir.db request.headers o.job.authenticatedAt = .ok c →
            served.state.dir =
              (handleFor sha256Hex validatePdf headerText config state.dir c.id r o.job).1 := by
          intro r hr
          rw [hunasked] at hr
          cases hr
        exact ⟨fun h => h.asksToRead sha256Hex validatePdf headerText decodeSegment config client
            hsome,
          fun h => h.fallbackReads sha256Hex validatePdf headerText decodeSegment config client
            hnone hsome ⟨hpass.1, hpass.2, Or.inr asked⟩⟩
    | job r asked client after =>
        have hnone : jobRequest? decodeSegment request = none → served.state.dir = state.dir := by
          intro hunasked
          rw [asked] at hunasked
          cases hunasked
        -- what becomes of the data directory, once a client is authenticated
        have hsome : ∀ r', jobRequest? decodeSegment request = some r' → ∀ c,
            authenticate sha256Hex state.dir.db request.headers o.job.authenticatedAt = .ok c →
            served.state.dir =
              (handleFor sha256Hex validatePdf headerText config state.dir c.id r' o.job).1 := by
          intro r' hr' c hauth
          obtain rfl : r = r' := Option.some.inj (asked.symm.trans hr')
          rw [after, handle_of_ok sha256Hex validatePdf headerText config hauth]
        exact ⟨fun h => h.asksToRead sha256Hex validatePdf headerText decodeSegment config client
            hsome,
          fun h => h.fallbackReads sha256Hex validatePdf headerText decodeSegment config client
            hnone hsome ⟨hpass.1, hpass.2, Or.inl (by simp [asked])⟩⟩

/-! ## A `POST` without an `Origin` -/

/-- The dashboard of the agent on port 17890. -/
def exampleDashboardRow : ClientRow :=
  { exampleNeighbor with
    kind := .browser
    origin := some "http://127.0.0.1:17890"
    stableKey := some dashboardStableKey }

/-- The dashboard, with a job that is queued. -/
def exampleDashboardState : AgentState :=
  ⟨⟨{ Database.fresh with
      clients := ⟨[exampleDashboardRow], by simp⟩
      jobs := ⟨[exampleNeighborJob], exampleNeighborJob_distinct⟩ }, fun _ => none⟩, none⟩

/-- A same-origin `POST` that cancels the job, without an `Origin`. -/
def exampleCancel : HttpRequest where
  method := .post
  path := ["v1", "jobs", "j2", "cancel"]
  headers := [("host", utf8 "127.0.0.1:17890"), ("sec-fetch-site", utf8 "same-origin"),
    ("authorization", utf8 "Bearer " ++ utf8 (newToken exampleSecretOne))]
  limit := none
  challenge := none
  code := .error .missingContentType
  multipart := none

/-- What the agent makes of it. -/
def exampleCanceled : Served :=
  serve (fun _ => none) exampleTokenDigests examplePdfCheck (fun _ => true) (fun _ _ => "") some
    exampleConfig exampleSession exampleDashboardState exampleCancel
    ⟨⟨0, 0, "j3", none, [], none⟩, 0, "", "", 0, 0, [], ""⟩

theorem cancel_without_origin :
    exampleCanceled.client = some (clientFromRow exampleDashboardRow) ∧
      exampleDashboardRow.kind = .browser ∧
      exampleCancel.headers.get "origin" = none ∧ exampleCancel.method = .post ∧
      exampleCanceled.state.dir.db.jobs.rows.map (·.state) = [.canceled] ∧
      exampleCanceled.response.status = 200 ∧
      ¬ FallbackReads exampleDashboardState exampleCancel exampleCanceled := by
  have hclient : exampleCanceled.client = some (clientFromRow exampleDashboardRow) := by
    decide +kernel
  refine ⟨hclient, rfl, by decide, rfl, by decide +kernel, by decide +kernel, fun hreads => ?_⟩
  have hmethod := hreads.method _ hclient rfl (by decide)
  cases hmethod

end PrintLatch.Api
