/-
  PrintLatch.Api.Documents

  What requests do to the documents of jobs, and who is given one.

  A handler writes and removes files under the identifier that it draws, so a request that
  draws another one leaves a document as it is (`serve_files`).  `Answerable` is what it
  takes to be given the document of a job (`document_served_iff`).
-/

import PrintLatch.Api.CrossOrigin
import PrintLatch.Api.Effects

namespace PrintLatch.Api

open Text

/-- Where a document is depends on the data directory alone. -/
theorem jobPath_congr {config config' : AppConfig} (h : config.dataDir = config'.dataDir)
    (id : String) : jobPath config id = jobPath config' id := by
  unfold jobPath AppConfig.jobsDir
  rw [h]

theorem temporaryPath_congr {config config' : AppConfig} (h : config.dataDir = config'.dataDir)
    (id : String) : temporaryPath config id = temporaryPath config' id := by
  unfold temporaryPath AppConfig.jobsDir
  rw [h]

theorem changeJob_files (dir : DataDir) (clientId id : String) (changed : Database × Bool)
    (refusal : AppError) (notices : List Obs) (o : Outside) :
    (changeJob dir clientId id changed refusal notices o).1.files = dir.files := by
  unfold changeJob
  split
  · rfl
  · dsimp only
    split <;> rfl

/-! ## The documents that stay -/

section

variable (parse : String → Option Url) (sha256Hex : List UInt8 → String)
  (validatePdf : List UInt8 → String → Except String PdfReport) (headerText : String → Bool)
  (hmac : List UInt8 → List UInt8 → String) (decodeSegment : String → Option String)
  (config : AppConfig) (instanceSession : String)

/-- A handler writes and removes files under the identifier that it draws. -/
theorem handleFor_files {o : Outside} {path : String} (hdoc : path ≠ jobPath config o.id)
    (htmp : path ≠ temporaryPath config o.id) (dir : DataDir) (clientId : String) (r : Request) :
    (handleFor sha256Hex validatePdf headerText config dir clientId r o).1.files path =
      dir.files path := by
  cases r with
  | createJob multipart =>
      simp only [handleFor, createJob]
      split
      · rfl
      · next parsed report _ =>
          have hwritten := writeJobFile_of_ne config hdoc htmp dir.files parsed.bytes o
          rcases storeJob_cases config dir clientId parsed report o with
            ⟨-, heq⟩ | ⟨-, -, heq⟩ | ⟨-, -, db, -, heq⟩
          · rw [heq]
            exact hwritten
          · rw [heq]
            exact (removeJobFile_of_ne config hdoc _ o).trans hwritten
          · rw [heq]
            exact hwritten
  | cancelJob id => exact congrFun (changeJob_files dir clientId id _ _ _ o) path
  | retryJob id => exact congrFun (changeJob_files dir clientId id _ _ _ o) path
  | listJobs | getJob | getDocument => rfl

theorem servePair_files (state : AgentState) (request : HttpRequest) (o : RequestOutside) :
    (servePair parse sha256Hex instanceSession state request o).state.dir.files =
      state.dir.files := by
  unfold servePair
  split
  · rfl
  · split
    · rfl
    · split <;> rfl

variable {state : AgentState} {request : HttpRequest} {o : RequestOutside}

/-- A request leaves the files of other identifiers alone. -/
theorem serve_files {path : String} (hdoc : path ≠ jobPath config o.job.id)
    (htmp : path ≠ temporaryPath config o.job.id) :
    (serve parse sha256Hex validatePdf headerText hmac decodeSegment config instanceSession state
      request o).state.dir.files path = state.dir.files path := by
  have hmove := @serve_state parse sha256Hex validatePdf headerText hmac decodeSegment config
    instanceSession state request o
  generalize (serve parse sha256Hex validatePdf headerText hmac decodeSegment config
    instanceSession state request o).state = after at hmove ⊢
  cases hmove with
  | same => rfl
  | job r asked =>
      show (handle sha256Hex validatePdf headerText config state.dir _).1.files path = _
      unfold handle
      split
      · rfl
      · exact handleFor_files sha256Hex validatePdf headerText config hdoc htmp state.dir _ r
  | pair route method =>
      exact congrFun (servePair_files parse sha256Hex instanceSession state request o) path
  | identity route =>
      exact congrArg (fun dir : DataDir => dir.files path)
        (serveInstance_other hmac instanceSession state request.challenge o).2

/-! ## What is answered -/

/-- A request for a handler for jobs comes to it. -/
theorem handleRoute_asked {r : Request} (hasked : jobRequest? decodeSegment request = some r) :
    handleRoute parse sha256Hex validatePdf headerText hmac decodeSegment config instanceSession
      state (routeOf request.path) request.method.handler request o =
      serveJobs sha256Hex validatePdf headerText config state request.headers r o := by
  unfold jobRequest? at hasked
  split at hasked
  case h_7 => cases hasked
  all_goals
    next hroute hmethod =>
      obtain ⟨x, hx, rfl⟩ := Option.map_eq_some_iff.mp hasked
      simp only [handleRoute, serveJob, hroute, hmethod, hx]

/-- What the router makes of it, for a request with a body in its response. -/
theorem serve_asked {r : Request} (hhost : validHost request.headers config.port = true)
    (hupgrade : upgradesToWebsocket request.headers = false) (hmethod : request.method ≠ .head)
    (hasked : jobRequest? decodeSegment request = some r) :
    let served := serve parse sha256Hex validatePdf headerText hmac decodeSegment config
      instanceSession state request o
    let handled := handle sha256Hex validatePdf headerText config state.dir
      ⟨request.headers, r, o.job⟩
    served.state.dir = handled.1 ∧ served.response.content = (shownResponse handled.2).content := by
  intro served handled
  have hdispatch : dispatch parse sha256Hex validatePdf headerText hmac decodeSegment config
      instanceSession state request o =
        serveJobs sha256Hex validatePdf headerText config state request.headers r o := by
    unfold dispatch
    dsimp only
    rw [if_neg hmethod, handleRoute_asked parse sha256Hex validatePdf headerText hmac
      decodeSegment config instanceSession hasked]
  have hserved : served = _ := serve_of_valid parse sha256Hex validatePdf headerText hmac
    decodeSegment config instanceSession hhost hupgrade
  rw [hserved, hdispatch]
  exact ⟨rfl, decorate_content request _⟩

/-- A `create_job` that is answered with a job has stored it, with its document. -/
theorem created_of_response {dir : DataDir} {headers : HeaderMap} {multipart : Multipart}
    {o : Outside} {job : Job}
    (hjob : (shownResponse (handle sha256Hex validatePdf headerText config dir
      ⟨headers, .createJob multipart, o⟩).2).content = .api (.job job)) :
    ∃ owner parsed report, authenticate sha256Hex dir.db headers o.authenticatedAt = .ok owner ∧
      parseJob multipart = .ok parsed ∧
      (createdRow config owner.id parsed report o).toJob = job ∧
      let after := (handle sha256Hex validatePdf headerText config dir
        ⟨headers, .createJob multipart, o⟩).1
      after.db.job? o.id = some (createdRow config owner.id parsed report o) ∧
        after.files (jobPath config o.id) = some parsed.bytes := by
  cases hauth : authenticate sha256Hex dir.db headers o.authenticatedAt with
  | error error =>
      rw [handle_of_error sha256Hex validatePdf headerText config hauth] at hjob
      cases hjob
  | ok owner =>
      rw [handle_of_ok sha256Hex validatePdf headerText config hauth] at hjob ⊢
      simp only [handleFor, createJob] at hjob ⊢
      cases hchecked : admitJob sha256Hex validatePdf multipart o with
      | error error =>
          rw [hchecked] at hjob
          cases hjob
      | ok admitted =>
          obtain ⟨parsed, report⟩ := admitted
          simp only [hchecked] at hjob ⊢
          rcases storeJob_cases config dir owner.id parsed report o with
            ⟨-, heq⟩ | ⟨-, -, heq⟩ | ⟨hstores, -, db, hdb, heq⟩
          · rw [heq] at hjob
            cases hjob
          · rw [heq] at hjob
            cases hjob
          · rw [heq] at hjob ⊢
            have hrow : (createdRow config owner.id parsed report o).toJob = job := by
              by_cases hreload : .reload ∈ o.faults
              · simp [createdObs, shownResponse, hreload, errorResponse] at hjob
              · simpa [createdObs, shownResponse, hreload, jobResponse] using hjob
            obtain ⟨-, -, hall⟩ := Database.insertJob_ok hdb
            exact ⟨owner, parsed, report, rfl, parseJob_of_admitJob hchecked, hrow,
              (hall o.id).trans (if_pos rfl),
              writeJobFile_jobPath config dir.files o.id parsed.bytes hstores.1⟩

/-- A request that the middleware refuses is answered with an error. -/
theorem serve_refused (h : ¬ (validHost request.headers config.port = true ∧
    upgradesToWebsocket request.headers = false)) :
    ∃ code message, (serve parse sha256Hex validatePdf headerText hmac decodeSegment config
      instanceSession state request o).response.content = .api (.error code message) := by
  unfold serve
  split
  · exact ⟨_, _, rfl⟩
  · next hhost =>
      split
      · exact ⟨_, _, rfl⟩
      · next hupgrade => exact absurd ⟨by simpa using hhost, by simpa using hupgrade⟩ h

end

/-! ## Being given a document -/

/-- The text of the header with the name of the document. -/
def dispositionOf (id : String) : String := s!"inline; filename=\"printlatch-{id}.pdf\""

/-- When `get_document` answers with a document. -/
theorem getDocument_body_iff {headerText : String → Bool} {dir : DataDir} {clientId id : String}
    {o : Outside} {bytes : List UInt8} :
    (getDocument headerText dir clientId id o).body = .document bytes ↔
      .select ∉ o.faults ∧ .readFile ∉ o.faults ∧ headerText (dispositionOf id) = true ∧
        ∃ r, dir.db.ownJob? id clientId = some r ∧ hasDocument r.state = true ∧
          dir.files r.filePath = some bytes := by
  unfold getDocument
  rw [Database.getJobFileForClient_eq]
  by_cases hselect : .select ∈ o.faults
  · simp [hselect, errorResponse]
  · cases hrow : dir.db.ownJob? id clientId with
    | none => simp [hselect, errorResponse]
    | some r =>
        by_cases hstate : hasDocument r.state = true
        · by_cases hread : .readFile ∈ o.faults
          · simp [hselect, hstate, hread, errorResponse]
          · cases hfile : dir.files r.filePath with
            | none => simp [hselect, hstate, hread, hfile, errorResponse]
            | some found =>
                by_cases hheader : headerText (dispositionOf id) = true
                · have htext := hheader
                  unfold dispositionOf at htext
                  simp [hselect, hstate, hread, hfile, hheader, htext, documentResponse]
                · have htext := hheader
                  unfold dispositionOf at htext
                  simp [hselect, hstate, hread, hfile, hheader, htext, errorResponse]
        · simp [hselect, hstate, errorResponse]

/-- Nothing keeps the agent from giving the document of job `id` to client `owner`: it lets
    the client in, and no call fails. -/
structure Answerable (sha256Hex : List UInt8 → String) (headerText : String → Bool)
    (config : AppConfig) (db : Database) (request : HttpRequest) (o : Outside)
    (owner id : String) : Prop where
  host : validHost request.headers config.port = true
  upgrade : upgradesToWebsocket request.headers = false
  client : ∃ client, authenticate sha256Hex db request.headers o.authenticatedAt = .ok client ∧
    client.id = owner
  select : .select ∉ o.faults
  readFile : .readFile ∉ o.faults
  header : headerText (dispositionOf id) = true
  state : ∀ r, db.job? id = some r → hasDocument r.state = true

/-- **Who is given a document.**  A request for a job that is there with its file is answered
    with a document exactly if nothing keeps the agent from giving it to the job's owner,
    and it is that file. -/
theorem document_served_iff (parse : String → Option Url) (sha256Hex : List UInt8 → String)
    (validatePdf : List UInt8 → String → Except String PdfReport) (headerText : String → Bool)
    (hmac : List UInt8 → List UInt8 → String) (decodeSegment : String → Option String)
    (config : AppConfig) (instanceSession : String) {state : AgentState} {request : HttpRequest}
    {o : RequestOutside} {id : String} {r : JobRow} {document bytes : List UInt8}
    (hmethod : request.method ≠ .head)
    (hasked : jobRequest? decodeSegment request = some (.getDocument id))
    (hrow : state.dir.db.job? id = some r) (hfile : state.dir.files r.filePath = some document) :
    (serve parse sha256Hex validatePdf headerText hmac decodeSegment config instanceSession state
        request o).response.content = .api (.document bytes) ↔
      Answerable sha256Hex headerText config state.dir.db request o.job r.clientId id ∧
        bytes = document := by
  by_cases hpass : validHost request.headers config.port = true ∧
      upgradesToWebsocket request.headers = false
  case neg =>
    obtain ⟨code, message, hcontent⟩ := @serve_refused parse sha256Hex validatePdf headerText hmac
      decodeSegment config instanceSession state request o hpass
    rw [hcontent]
    exact iff_of_false (by simp) fun h => hpass ⟨h.1.host, h.1.upgrade⟩
  case pos =>
    rw [(serve_asked parse sha256Hex validatePdf headerText hmac decodeSegment config
      instanceSession hpass.1 hpass.2 hmethod hasked).2]
    cases hauth : authenticate sha256Hex state.dir.db request.headers o.job.authenticatedAt with
    | error error =>
        rw [handle_of_error sha256Hex validatePdf headerText config hauth]
        refine iff_of_false (by simp [shownResponse, errorResponse]) fun h => ?_
        obtain ⟨client, hclient, -⟩ := h.1.client
        rw [hauth] at hclient
        cases hclient
    | ok client =>
        rw [handle_of_ok sha256Hex validatePdf headerText config hauth]
        show Content.api (getDocument headerText state.dir client.id id o.job).body =
          .api (.document bytes) ↔ _
        rw [Content.api.injEq, getDocument_body_iff]
        constructor
        · rintro ⟨hselect, hread, hheader, r', hr', hstate, hbytes⟩
          obtain ⟨hmem, hid, howner⟩ := Database.ownJob?_eq_some.mp hr'
          obtain rfl : r' = r := Option.some.inj
            ((hid ▸ Database.job?_of_mem hmem).symm.trans hrow)
          refine ⟨⟨hpass.1, hpass.2, ⟨client, hauth, howner.symm⟩, hselect, hread, hheader,
            fun r'' hr'' => ?_⟩, Option.some.inj (hbytes.symm.trans hfile)⟩
          rw [hrow] at hr''
          exact Option.some.inj hr'' ▸ hstate
        · rintro ⟨h, rfl⟩
          obtain ⟨client', hclient', howner⟩ := h.client
          obtain rfl : client' = client := Except.ok.inj (hclient'.symm.trans hauth)
          exact ⟨h.select, h.readFile, h.header, r, Database.ownJob?_eq_some.mpr
            ⟨Database.mem_of_job? hrow, Database.id_of_job? hrow, howner.symm⟩, h.state r hrow,
            hfile⟩

end PrintLatch.Api
