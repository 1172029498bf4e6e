/-
  PrintLatch.Api.Effects

  What a request can leave behind, and what one gets that nobody vouches for.

  `serve_state` says for every route what becomes of the agent's state: it is as before, or
  it is what a handler for jobs, the redemption of a code or the identity makes of it.

  A stranger has no token that `authenticate` takes, and no pairing code that is stored.
  Such a request leaves the state as it was, but for the secret of an installation that has
  none yet, and its response is a function of the credentials alone (`blind_serve`).
-/

import PrintLatch.Api.Fallback

namespace PrintLatch.Api

open Text

section

variable (parse : String → Option Url) (sha256Hex : List UInt8 → String)
  (validatePdf : List UInt8 → String → Except String PdfReport) (headerText : String → Bool)
  (hmac : List UInt8 → List UInt8 → String) (decodeSegment : String → Option String)
  (config : AppConfig) (instanceSession : String)

/-! ## What is left behind -/

/-- The state after a request, by what was asked for. -/
inductive StateMove (state : AgentState) (request : HttpRequest) (o : RequestOutside) :
    AgentState → Prop
  | same : StateMove state request o state
  | job (r : Request) (asked : jobRequest? decodeSegment request = some r) :
      StateMove state request o { state with
        dir := (handle sha256Hex validatePdf headerText config state.dir
          ⟨request.headers, r, o.job⟩).1 }
  | pair (route : routeOf request.path = .pair) (method : request.method = .post) :
      StateMove state request o
        (servePair parse sha256Hex instanceSession state request o).state
  | identity (route : routeOf request.path = .healthInstance) :
      StateMove state request o
        (serveInstance hmac instanceSession state request.challenge o).state

theorem handler_eq_post {method : Method} (h : method.handler = .post) : method = .post := by
  cases method <;> simp_all [Method.handler]

variable {state : AgentState} {request : HttpRequest} {o : RequestOutside}

theorem stateMove_serveJob {segment : String} {make : String → Request}
    (hasked : jobRequest? decodeSegment request = (decodeSegment segment).map make) :
    StateMove parse sha256Hex validatePdf headerText hmac decodeSegment config instanceSession
      state request o
      (serveJob sha256Hex validatePdf headerText decodeSegment config state request.headers segment
        make o).state := by
  unfold serveJob
  cases hdecode : decodeSegment segment with
  | none => exact .same
  | some id =>
      rw [hdecode] at hasked
      exact .job (make id) hasked

theorem stateMove_handleRoute :
    StateMove parse sha256Hex validatePdf headerText hmac decodeSegment config instanceSession
      state request o
      (handleRoute parse sha256Hex validatePdf headerText hmac decodeSegment config instanceSession
        state (routeOf request.path) request.method.handler request o).state := by
  cases hroute : routeOf request.path with
  | index | asset | health | anyPath | unmatched =>
      cases request.method.handler <;> exact .same
  | testPdf | printers =>
      cases request.method.handler with
      | get =>
          have hstate := (serveRead_client sha256Hex state request.headers · o |>.2)
          simp only [handleRoute, hstate]
          exact .same
      | _ => exact .same
  | healthInstance =>
      cases request.method.handler with
      | get => exact .identity hroute
      | _ => exact .same
  | pair =>
      cases hmethod : request.method.handler with
      | post => exact .pair hroute (handler_eq_post hmethod)
      | _ => exact .same
  | jobs =>
      cases hmethod : request.method.handler with
      | get =>
          cases hlimit : request.limit with
          | none =>
              simp only [handleRoute, hlimit]
              exact .same
          | some limit =>
              simp only [handleRoute, hlimit]
              exact .job (.listJobs limit) (by simp [jobRequest?, hroute, hmethod, hlimit])
      | post =>
          cases hmultipart : request.multipart with
          | none =>
              simp only [handleRoute, hmultipart]
              exact .same
          | some multipart =>
              simp only [handleRoute, hmultipart]
              exact .job (.createJob multipart)
                (by simp [jobRequest?, hroute, hmethod, hmultipart])
      | _ => exact .same
  | job segment | document segment =>
      cases hmethod : request.method.handler with
      | get =>
          exact stateMove_serveJob parse sha256Hex validatePdf headerText hmac decodeSegment config
            instanceSession (by simp [jobRequest?, hroute, hmethod])
      | _ => exact .same
  | cancel segment | retry segment =>
      cases hmethod : request.method.handler with
      | post =>
          exact stateMove_serveJob parse sha256Hex validatePdf headerText hmac decodeSegment config
            instanceSession (by simp [jobRequest?, hroute, hmethod])
      | _ => exact .same

theorem dispatch_state :
    (dispatch parse sha256Hex validatePdf headerText hmac decodeSegment config instanceSession
      state request o).state =
      (handleRoute parse sha256Hex validatePdf headerText hmac decodeSegment config instanceSession
        state (routeOf request.path) request.method.handler request o).state := by
  unfold dispatch
  dsimp only
  split <;> rfl

/-- Everything a request can leave behind. -/
theorem serve_state :
    StateMove parse sha256Hex validatePdf headerText hmac decodeSegment config instanceSession
      state request o
      (serve parse sha256Hex validatePdf headerText hmac decodeSegment config instanceSession state
        request o).state := by
  unfold serve
  split
  · exact .same
  · split
    · exact .same
    · show StateMove _ _ _ _ _ _ _ _ _ _ _ (dispatch _ _ _ _ _ _ _ _ _ _ _).state
      rw [dispatch_state]
      exact stateMove_handleRoute parse sha256Hex validatePdf headerText hmac decodeSegment config
        instanceSession

/-- The request asks for nothing that changes anything: it brings no code to the route that
    redeems codes, wants no proof, and no job is created, canceled or retried. -/
structure Inert (request : HttpRequest) : Prop where
  redeems : routeOf request.path = .pair → ∀ code, request.code ≠ .ok code
  proves : routeOf request.path ≠ .healthInstance
  acts : ∀ r, jobRequest? decodeSegment request = some r → r.acts = true →
    ∃ multipart, r = .createJob multipart ∧ ∀ job, parseJob multipart ≠ .ok job

/-- A form that is no job creates none. -/
theorem handleFor_of_not_job {dir : DataDir} {clientId : String} {multipart : Multipart}
    {outside : Outside} (h : ∀ job, parseJob multipart ≠ .ok job) :
    (handleFor sha256Hex validatePdf headerText config dir clientId (.createJob multipart)
      outside).1 = dir := by
  unfold handleFor createJob admitJob
  dsimp only
  cases hparsed : parseJob multipart with
  | error error => rfl
  | ok job => exact absurd hparsed (h job)

theorem handle_of_inert (h : Inert decodeSegment request) {r : Request}
    (hasked : jobRequest? decodeSegment request = some r) :
    (handle sha256Hex validatePdf headerText config state.dir ⟨request.headers, r, o.job⟩).1 =
      state.dir := by
  unfold handle
  split
  · rfl
  · next client _ =>
      cases r with
      | listJobs | getJob | getDocument => rfl
      | createJob multipart =>
          obtain ⟨multipart', heq, hnot⟩ := h.acts _ hasked rfl
          obtain rfl : multipart = multipart' := Request.createJob.inj heq
          exact handleFor_of_not_job sha256Hex validatePdf headerText config hnot
      | cancelJob id | retryJob id =>
          obtain ⟨multipart, heq, -⟩ := h.acts _ hasked rfl
          cases heq

/-- **Who asks for nothing changes nothing.** -/
theorem serve_inert (h : Inert decodeSegment request) :
    (serve parse sha256Hex validatePdf headerText hmac decodeSegment config instanceSession state
      request o).state = state := by
  have hmove := @serve_state parse sha256Hex validatePdf headerText hmac decodeSegment config
    instanceSession state request o
  generalize (serve parse sha256Hex validatePdf headerText hmac decodeSegment config
    instanceSession state request o).state = after at hmove ⊢
  cases hmove with
  | same => rfl
  | job r asked =>
      rw [handle_of_inert sha256Hex validatePdf headerText decodeSegment config h asked]
  | pair route method =>
      unfold servePair
      cases hcode : request.code with
      | error reason => rfl
      | ok code => exact absurd hcode (h.redeems route code)
  | identity route => exact absurd route h.proves

/-! ## Strangers -/

/-- The two states differ in jobs and files only. -/
structure SamePublic (s t : AgentState) : Prop where
  clients : s.dir.db.clients = t.dir.db.clients
  pairingCodes : s.dir.db.pairingCodes = t.dir.db.pairingCodes
  instanceSecret : s.instanceSecret = t.instanceSecret

/-- Nobody vouches for the request: `authenticate` refuses it, and no code it brings is
    stored. -/
structure Stranger (state : AgentState) (request : HttpRequest) (o : RequestOutside) : Prop where
  refused : ∀ client,
    authenticate sha256Hex state.dir.db request.headers o.job.authenticatedAt ≠ .ok client
  codeless : ∀ code, request.code = .ok code →
    state.dir.db.pairingCode? (hashSecret sha256Hex code) = none

theorem SamePublic.refl (s : AgentState) : SamePublic s s := ⟨rfl, rfl, rfl⟩

/-- `secret` may follow `before`: a secret that is there stays. -/
def Follows (before secret : Option String) : Prop := before ≠ none → secret = before

/-- From every state that is the same in public as `state`, one and the same response is
    served, and nothing is changed but a secret that was not there. -/
def Blind (state : AgentState) (serveFrom : AgentState → Served) : Prop :=
  ∃ response secret, Follows state.instanceSecret secret ∧ ∀ t, SamePublic state t →
    serveFrom t = { t with instanceSecret := secret }.answer none response

/-- What changes nothing at all. -/
theorem blind_of_kept {serveFrom : AgentState → Served} (response : HttpResponse)
    (h : ∀ t, SamePublic state t → serveFrom t = t.answer none response) :
    Blind state serveFrom := by
  refine ⟨response, state.instanceSecret, fun _ => rfl, fun t ht => ?_⟩
  rw [h t ht, ht.instanceSecret]

theorem blind_answer (response : HttpResponse) :
    Blind state fun s => s.answer none response :=
  blind_of_kept response fun _ _ => rfl

section

variable {sha256Hex}

theorem Stranger.error (h : Stranger sha256Hex state request o) :
    ∃ error, ∀ t, SamePublic state t →
      authenticate sha256Hex t.dir.db request.headers o.job.authenticatedAt = .error error := by
  cases hauth : authenticate sha256Hex state.dir.db request.headers o.job.authenticatedAt with
  | ok client => exact absurd hauth (h.refused client)
  | error error =>
      refine ⟨error, fun t ht => ?_⟩
      rw [← authenticate_congr sha256Hex ht.clients]
      exact hauth

end

theorem blind_serveRead (h : Stranger sha256Hex state request o)
    (response : AgentState → HttpResponse) :
    Blind state fun s => serveRead sha256Hex s request.headers (response s) o := by
  obtain ⟨error, herror⟩ := h.error
  refine blind_of_kept (refusal error) fun t ht => ?_
  simp only [serveRead, herror t ht]

theorem blind_serveJobs (h : Stranger sha256Hex state request o) (r : Request) :
    Blind state fun s =>
      serveJobs sha256Hex validatePdf headerText config s request.headers r o := by
  obtain ⟨error, herror⟩ := h.error
  refine blind_of_kept (refusal error) fun t ht => ?_
  have hhandle : handle sha256Hex validatePdf headerText config t.dir
      ⟨request.headers, r, o.job⟩ = (t.dir, [.response (errorResponse error)]) :=
    handle_of_error sha256Hex validatePdf headerText config (herror t ht)
  simp only [serveJobs, hhandle, herror t ht]
  rfl

theorem blind_serveJob (h : Stranger sha256Hex state request o) (segment : String)
    (make : String → Request) :
    Blind state fun s => serveJob sha256Hex validatePdf headerText decodeSegment config s
      request.headers segment make o := by
  simp only [serveJob]
  cases decodeSegment segment with
  | none => exact blind_answer rejection
  | some id => exact blind_serveJobs sha256Hex validatePdf headerText config h (make id)

/-- A code that is not stored redeems nothing. -/
theorem consumePairingCode_of_none {db : Database} {code : String}
    (h : db.pairingCode? (hashSecret sha256Hex code) = none) (origin session : String) (now : Int) :
    db.consumePairingCode (hashSecret sha256Hex code) origin now session = (db, none) := by
  have hfind : db.pairingCodes.rows.find?
      (Database.redeemable (hashSecret sha256Hex code) origin now session) = none := by
    rw [List.find?_eq_none]
    intro r hr hredeemable
    have hhash : r.codeHash = hashSecret sha256Hex code := by
      simp only [Database.redeemable, decide_eq_true_eq] at hredeemable
      exact hredeemable.1
    exact (Relational.Table.lookup_eq_none fun r : PairingRow => r.codeHash).mp h r hr hhash
  unfold Database.consumePairingCode
  rw [hfind]

theorem blind_servePair (h : Stranger sha256Hex state request o) :
    Blind state fun s => servePair parse sha256Hex instanceSession s request o := by
  cases hcode : request.code with
  | error reason =>
      simp only [servePair, hcode]
      exact blind_answer (jsonRejection reason)
  | ok code =>
      have hnone : ∀ t, SamePublic state t →
          t.dir.db.pairingCode? (hashSecret sha256Hex code) = none := by
        intro t ht
        have hstate := h.codeless code hcode
        unfold Database.pairingCode? at hstate ⊢
        rwa [← ht.pairingCodes]
      cases horigin : requestOrigin request.headers with
      | error error =>
          refine blind_of_kept (refusal error) fun t _ => ?_
          simp only [servePair, hcode, horigin]
      | ok origin =>
          -- the first transaction finds no code, unless it is refused before
          cases hnormal : normalizeOrigin parse origin with
          | error message =>
              refine blind_of_kept (refusal .forbidden) fun t _ => ?_
              simp only [servePair, hcode, horigin, consumePairingCode, hnormal]
          | ok normal =>
              by_cases hfails : consumeFails o.redemptionFaults
              · refine blind_of_kept (refusal .internal) fun t _ => ?_
                simp only [servePair, hcode, horigin, consumePairingCode, hnormal, if_pos hfails]
              · refine blind_of_kept (refusal .unauthorized) fun t ht => ?_
                have hconsume := consumePairingCode_of_none sha256Hex (hnone t ht) normal
                  instanceSession o.redeemedAt
                simp only [servePair, hcode, horigin, consumePairingCode, hnormal, if_neg hfails,
                  hconsume]

/-- The proof takes the secret alone from the installation. -/
theorem instanceIdentity_congr (before : Option String) (session challenge candidate : String) :
    ∃ secret result, Follows before secret ∧
      ∀ db, instanceIdentity hmac ⟨db, before⟩ session challenge candidate =
        (⟨db, secret⟩, result) := by
  unfold instanceIdentity instanceProof
  split
  · exact ⟨before, _, fun _ => rfl, fun _ => rfl⟩
  · by_cases hsession : validAgentSession session = false
    · exact ⟨before, .error .internal, fun _ => rfl, fun _ => by simp only [if_pos hsession]⟩
    · -- the candidate becomes the secret where there is none
      cases before with
      | none =>
          refine ⟨some candidate, .ok ⟨productName, version, session,
            hmac (utf8 candidate) (proofMessage challenge session)⟩, fun h => absurd rfl h,
            fun _ => ?_⟩
          simp only [if_neg hsession, Installation.getOrCreateInstanceSecret]
      | some secret =>
          refine ⟨some secret, .ok ⟨productName, version, session,
            hmac (utf8 secret) (proofMessage challenge session)⟩, fun _ => rfl, fun _ => ?_⟩
          simp only [if_neg hsession, Installation.getOrCreateInstanceSecret]

theorem blind_serveInstance :
    Blind state fun s => serveInstance hmac instanceSession s request.challenge o := by
  cases hchallenge : request.challenge with
  | none => exact blind_answer rejection
  | some challenge =>
      obtain ⟨secret, result, hfollows, hresult⟩ := instanceIdentity_congr hmac
        state.instanceSecret instanceSession challenge o.instanceCandidate
      cases result with
      | error error =>
          refine ⟨refusal error, secret, hfollows, fun t ht => ?_⟩
          simp only [serveInstance, ← ht.instanceSecret, hresult]
      | ok identity =>
          refine ⟨⟨200, [], .identity identity⟩, secret, hfollows, fun t ht => ?_⟩
          simp only [serveInstance, ← ht.instanceSecret, hresult]

theorem blind_handleRoute (h : Stranger sha256Hex state request o) (route : Route)
    (method : Method) :
    Blind state fun s => handleRoute parse sha256Hex validatePdf headerText hmac decodeSegment
      config instanceSession s route method request o := by
  -- a method without a handler is answered alike everywhere
  cases route with
  | index | asset | health | anyPath | unmatched => cases method <;> exact blind_answer _
  | testPdf =>
      cases method with
      | get => exact blind_serveRead sha256Hex h fun _ => _
      | _ => exact blind_answer _
  | printers =>
      cases method with
      | get => exact blind_serveRead sha256Hex h fun _ => _
      | _ => exact blind_answer _
  | healthInstance =>
      cases method with
      | get => exact blind_serveInstance hmac instanceSession
      | _ => exact blind_answer _
  | pair =>
      cases method with
      | post => exact blind_servePair parse sha256Hex instanceSession h
      | _ => exact blind_answer _
  | jobs =>
      cases method with
      | get =>
          simp only [handleRoute]
          cases request.limit with
          | none => exact blind_answer rejection
          | some limit => exact blind_serveJobs sha256Hex validatePdf headerText config h _
      | post =>
          simp only [handleRoute]
          cases request.multipart with
          | none => exact blind_answer rejection
          | some multipart => exact blind_serveJobs sha256Hex validatePdf headerText config h _
      | _ => exact blind_answer _
  | job segment | document segment =>
      cases method with
      | get => exact blind_serveJob sha256Hex validatePdf headerText decodeSegment config h _ _
      | _ => exact blind_answer _
  | cancel segment | retry segment =>
      cases method with
      | post => exact blind_serveJob sha256Hex validatePdf headerText decodeSegment config h _ _
      | _ => exact blind_answer _

/-- **What a stranger gets.** -/
theorem blind_serve (h : Stranger sha256Hex state request o) :
    Blind state fun s => serve parse sha256Hex validatePdf headerText hmac decodeSegment config
      instanceSession s request o := by
  unfold serve
  split
  · exact blind_answer (refusal .forbidden)
  · split
    · exact blind_answer _
    · -- the middleware and a `HEAD` rewrite the response
      obtain ⟨response, secret, hfollows, hroute⟩ := blind_handleRoute parse sha256Hex validatePdf
        headerText hmac decodeSegment config instanceSession h (routeOf request.path)
        request.method.handler
      refine ⟨decorate parse headerText request
        (if request.method = .head then { response with content := .empty } else response),
        secret, hfollows, fun t ht => ?_⟩
      simp only [dispatch, hroute t ht]
      split <;> rfl

end

end PrintLatch.Api
