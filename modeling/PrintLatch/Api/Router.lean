/-
  PrintLatch.Api.Router

  `router` and `security_headers` (`src/api.rs`): from a request on the socket to its
  handler, and what every response is given.

  A path is the list of what stands between its slashes, so `/v1/jobs` is
  `["v1", "jobs"]` and `/app/` is `["app", ""]`.  The framework takes the static part of a
  route first, answers a `HEAD` like a `GET` without the body, and runs the extractors
  before the handler; what they read is in the request, or that they reject it.
  `decodeSegment` is the percent-decoding of a path parameter.
-/

import PrintLatch.Api.Handlers
import PrintLatch.Auth.Redemption
import PrintLatch.Dashboard.Identity
import PrintLatch.PdfGuard

namespace PrintLatch.Api

open Text

/-! ## Requests and responses -/

/-- A request method. -/
inductive Method where
  | get
  | head
  | post
  | options
  | other (name : String)
  deriving DecidableEq, Repr

/-- `JsonRejection`: why `Json` rejects a body. -/
inductive JsonRejection where
  /-- It is not declared as JSON. -/
  | missingContentType
  | syntaxError
  /-- It is JSON of another shape. -/
  | dataError
  /-- It is longer than the router's limit. -/
  | tooLarge
  /-- It does not arrive. -/
  | unreadable
  deriving DecidableEq, Repr

/-- `JsonRejection::status`. -/
def JsonRejection.status : JsonRejection → Nat
  | .missingContentType => 415
  | .syntaxError => 400
  | .dataError => 422
  | .tooLarge => 413
  | .unreadable => 400

/-- A request on the socket. -/
structure HttpRequest where
  method : Method
  path : List String
  headers : HeaderMap
  /-- `Query<ListQuery>`. -/
  limit : Option (Option Nat)
  /-- `Query<InstanceChallenge>`. -/
  challenge : Option String
  /-- `Json<PairRequest>`. -/
  code : Except JsonRejection String
  multipart : Option Multipart

/-- `max_body` of `router`. -/
@[irreducible] def maxBody : Nat := PdfGuard.maxJobBytes + 64 * 1024

/-- The content of a response. -/
inductive Content where
  | api (body : Body)
  | token (token : IssuedToken)
  | printers (printers : List PrinterInfo)
  | identity (identity : InstanceIdentity)
  | health
  /-- `operator_index`. -/
  | page
  /-- A file that is compiled in. -/
  | asset (name : String)
  /-- The text of an extractor that rejects. -/
  | rejected
  | empty
  deriving DecidableEq, Repr

/-- A response on the socket, with the headers that handlers and middleware set. -/
structure HttpResponse where
  status : Nat
  headers : List (String × String)
  content : Content
  deriving DecidableEq, Repr

/-- The value of a response header. -/
def HttpResponse.header (response : HttpResponse) (name : String) : Option String :=
  (response.headers.find? fun header => header.1 = name).map (·.2)

/-- `HeaderMap::insert` on the headers of a response. -/
def HttpResponse.insert (response : HttpResponse) (name value : String) : HttpResponse :=
  { response with
    headers := (response.headers.filter fun header => header.1 ≠ name) ++ [(name, value)] }

@[simp] theorem HttpResponse.header_insert_self (response : HttpResponse) (name value : String) :
    (response.insert name value).header name = some value := by
  have hnone : (response.headers.filter fun header => header.1 ≠ name).find?
      (fun header => header.1 = name) = none := by
    rw [List.find?_eq_none]
    intro header hmem
    simpa using (List.mem_filter.mp hmem).2
  unfold header insert
  rw [List.find?_append, hnone]
  simp

theorem HttpResponse.header_insert_of_ne (response : HttpResponse) {name other : String}
    (value : String) (h : other ≠ name) :
    (response.insert name value).header other = response.header other := by
  have hfind : (response.headers.filter fun header => header.1 ≠ name).find?
      (fun header => header.1 = other) =
        response.headers.find? fun header => header.1 = other := by
    rw [List.find?_filter]
    congr 1
    funext header
    by_cases hother : header.1 = other
    · simp [hother, h]
    · simp [hother]
  have hlast : [(name, value)].find? (fun header => header.1 = other) = none := by
    simp [Ne.symm h]
  unfold header insert
  rw [List.find?_append, hfind, hlast, Option.or_none]

/-- The agent's part of the data directory, and the row of `instance_identity`. -/
structure AgentState where
  dir : DataDir
  instanceSecret : Option String

/-- What a request cannot choose, on every route. -/
structure RequestOutside where
  job : Outside
  /-- The readings of the time in `consume_pairing_code`, and what it draws. -/
  redeemedAt : Int
  secret : String
  candidateId : String
  clock : Int
  issuedAt : Int
  redemptionFaults : List RedemptionFault
  /-- A fresh instance secret. -/
  instanceCandidate : String
  deriving DecidableEq, Repr

/-- What a request leaves behind, and the client that `authenticate` returned to its
    handler. -/
structure Served where
  state : AgentState
  notified : Bool
  client : Option AuthenticatedClient
  response : HttpResponse

/-! ## Routes -/

/-- A route of `router`. -/
inductive Route where
  | index
  | asset (name : String)
  | testPdf
  | health
  | healthInstance
  | pair
  | printers
  | jobs
  | job (id : String)
  | document (id : String)
  | cancel (id : String)
  | retry (id : String)
  /-- `/{*path}`. -/
  | anyPath
  | unmatched
  deriving DecidableEq, Repr

/-- The route of a path; a parameter is not empty, and neither is the rest of a path. -/
def routeOf : List String → Route
  | [] => .unmatched
  | [""] => .unmatched
  | ["app"] => .index
  | ["app", ""] => .index
  | ["app", "app.js"] => .asset "app.js"
  | ["app", "model.js"] => .asset "model.js"
  | ["app", "styles.css"] => .asset "styles.css"
  | ["app", "icon.svg"] => .asset "icon.svg"
  | ["app", "test-page.pdf"] => .testPdf
  | ["health"] => .health
  | ["health", "instance"] => .healthInstance
  | ["v1", "pair"] => .pair
  | ["v1", "printers"] => .printers
  | ["v1", "jobs"] => .jobs
  | ["v1", "jobs", id] => if id = "" then .anyPath else .job id
  | ["v1", "jobs", id, "document"] => if id = "" then .anyPath else .document id
  | ["v1", "jobs", id, "cancel"] => if id = "" then .anyPath else .cancel id
  | ["v1", "jobs", id, "retry"] => if id = "" then .anyPath else .retry id
  | _ => .anyPath

/-- `static_asset`'s content type. -/
def assetType (name : String) : String :=
  if name = "styles.css" then "text/css; charset=utf-8"
  else if name = "icon.svg" then "image/svg+xml"
  else "text/javascript; charset=utf-8"

/-! ## Handlers -/

/-- A response that changes nothing, for no client. -/
def AgentState.answer (state : AgentState) (client : Option AuthenticatedClient)
    (response : HttpResponse) : Served := ⟨state, false, client, response⟩

/-- `into_response` of an error, on the socket. -/
def refusal (error : AppError) : HttpResponse :=
  ⟨error.status, [], .api (.error error.code error.message)⟩

/-- A rejection by `Path`, `Query` or `Multipart`. -/
def rejection : HttpResponse := ⟨400, [], .rejected⟩

/-- A rejection by `Json`. -/
def jsonRejection (reason : JsonRejection) : HttpResponse := ⟨reason.status, [], .rejected⟩

/-- The response among what a handler for jobs shows. -/
def shownResponse (obs : List Obs) : HttpResponse :=
  match obs.getLast? with
  | some (.response response) => ⟨response.status, response.headers, .api response.body⟩
  | _ => ⟨200, [], .empty⟩

/-- `request_origin`. -/
def requestOrigin (headers : HeaderMap) : Except AppError String :=
  match (headers.get "origin").bind toStr with
  | some origin => .ok (ofAscii origin)
  | none => .error .forbidden

section

variable (parse : String → Option Url) (sha256Hex : List UInt8 → String)
  (validatePdf : List UInt8 → String → Except String PdfReport) (headerText : String → Bool)
  (hmac : List UInt8 → List UInt8 → String) (decodeSegment : String → Option String)
  (config : AppConfig) (instanceSession : String)

/-- A handler for jobs, on the socket. -/
def serveJobs (state : AgentState) (headers : HeaderMap) (request : Request)
    (o : RequestOutside) : Served :=
  let (dir, obs) :=
    handle sha256Hex validatePdf headerText config state.dir ⟨headers, request, o.job⟩
  { state := { state with dir := dir }
    notified := obs.contains .notified
    client := (authenticate sha256Hex state.dir.db headers o.job.authenticatedAt).toOption
    response := shownResponse obs }

/-- A handler for the job in the path: `Path<String>` may reject it. -/
def serveJob (state : AgentState) (headers : HeaderMap) (segment : String)
    (request : String → Request) (o : RequestOutside) : Served :=
  match decodeSegment segment with
  | none => state.answer none rejection
  | some id => serveJobs sha256Hex validatePdf headerText config state headers (request id) o

/-- `pair`. -/
def servePair (state : AgentState) (request : HttpRequest) (o : RequestOutside) : Served :=
  match request.code with
  | .error reason => state.answer none (jsonRejection reason)
  | .ok code =>
      match requestOrigin request.headers with
      | .error error => state.answer none (refusal error)
      | .ok origin =>
          match consumePairingCode parse sha256Hex state.dir.db code origin instanceSession
              o.redeemedAt o.secret o.candidateId o.clock o.issuedAt o.redemptionFaults with
          | (db, .error error) =>
              { state with dir := { state.dir with db := db } }.answer none (refusal error)
          | (db, .ok token) =>
              { state with dir := { state.dir with db := db } }.answer none
                ⟨200, [], .token token⟩

/-- A handler that authenticates and then only reads. -/
def serveRead (state : AgentState) (headers : HeaderMap) (response : HttpResponse)
    (o : RequestOutside) : Served :=
  match authenticate sha256Hex state.dir.db headers o.job.authenticatedAt with
  | .error error => state.answer none (refusal error)
  | .ok client => state.answer (some client) response

/-- `list_printers`, once authenticated. -/
def printersResponse (devices : Option (List PrinterDevice)) : HttpResponse :=
  match listPrinters sha256Hex devices with
  | none => refusal .internal
  | some printers => ⟨200, [], .printers printers⟩

/-- `instance_identity`. -/
def serveInstance (state : AgentState) (challenge : Option String) (o : RequestOutside) :
    Served :=
  match challenge with
  | none => state.answer none rejection
  | some challenge =>
      match instanceIdentity hmac ⟨state.dir.db, state.instanceSecret⟩ instanceSession challenge
          o.instanceCandidate with
      | (installation, .error error) =>
          { state with instanceSecret := installation.instanceSecret }.answer none
            (refusal error)
      | (installation, .ok identity) =>
          { state with instanceSecret := installation.instanceSecret }.answer none
            ⟨200, [], .identity identity⟩

/-- The handler of a route for a method other than `HEAD`. -/
def handleRoute (state : AgentState) (route : Route) (method : Method) (request : HttpRequest)
    (o : RequestOutside) : Served :=
  match route, method with
  | .index, .get =>
      state.answer none ⟨200, [("content-type", "text/html; charset=utf-8")], .page⟩
  | .asset name, .get =>
      state.answer none ⟨200, [("content-type", assetType name)], .asset name⟩
  | .testPdf, .get =>
      serveRead sha256Hex state request.headers
        ⟨200, [("content-type", "application/pdf"), ("cache-control", "no-store, private")],
          .asset "sample.pdf"⟩ o
  | .health, .get => state.answer none ⟨200, [], .health⟩
  | .healthInstance, .get => serveInstance hmac instanceSession state request.challenge o
  | .pair, .post => servePair parse sha256Hex instanceSession state request o
  | .printers, .get =>
      serveRead sha256Hex state request.headers (printersResponse sha256Hex o.job.devices) o
  | .jobs, .post =>
      match request.multipart with
      | none => state.answer none rejection
      | some multipart =>
          serveJobs sha256Hex validatePdf headerText config state request.headers
            (.createJob multipart) o
  | .jobs, .get =>
      match request.limit with
      | none => state.answer none rejection
      | some limit =>
          serveJobs sha256Hex validatePdf headerText config state request.headers
            (.listJobs limit) o
  | .job segment, .get =>
      serveJob sha256Hex validatePdf headerText decodeSegment config state request.headers
        segment .getJob o
  | .document segment, .get =>
      serveJob sha256Hex validatePdf headerText decodeSegment config state request.headers
        segment .getDocument o
  | .cancel segment, .post =>
      serveJob sha256Hex validatePdf headerText decodeSegment config state request.headers
        segment .cancelJob o
  | .retry segment, .post =>
      serveJob sha256Hex validatePdf headerText decodeSegment config state request.headers
        segment .retryJob o
  -- `preflight`, on the routes below `/v1` and on every other path
  | .pair, .options | .printers, .options | .jobs, .options | .job _, .options
  | .document _, .options | .cancel _, .options | .retry _, .options | .anyPath, .options =>
      state.answer none ⟨204, [], .empty⟩
  | .unmatched, _ => state.answer none ⟨404, [], .empty⟩
  | _, _ => state.answer none ⟨405, [], .empty⟩

/-- The method whose handler answers. -/
def Method.handler : Method → Method
  | .head => .get
  | method => method

/-- `next.run`: the router without its middleware. -/
def dispatch (state : AgentState) (request : HttpRequest) (o : RequestOutside) : Served :=
  let served := handleRoute parse sha256Hex validatePdf headerText hmac decodeSegment config
    instanceSession state (routeOf request.path) request.method.handler request o
  -- the response to a `HEAD` has no body
  if request.method = .head then
    { served with response := { served.response with content := .empty } }
  else served

/-! ## The middleware -/

/-- `valid_host`. -/
def validHost (headers : HeaderMap) (port : Nat) : Bool :=
  match (headers.get "host").bind toStr with
  | none => false
  | some host =>
      eqIgnoreAsciiCase host (utf8 s!"127.0.0.1:{port}") ||
        eqIgnoreAsciiCase host (utf8 s!"localhost:{port}") ||
        eqIgnoreAsciiCase host (utf8 s!"[::1]:{port}")

/-- The request asks for a WebSocket. -/
def upgradesToWebsocket (headers : HeaderMap) : Bool :=
  ((headers.get "upgrade").bind toStr).any fun value => eqIgnoreAsciiCase value (utf8 "websocket")

/-- `uri().path().starts_with("/v1/")`. -/
def isApiPath : List String → Bool
  | "v1" :: _ :: _ => true
  | _ => false

/-- The origin that the middleware echoes. -/
def corsOrigin (headers : HeaderMap) : Option String :=
  match (headers.get "origin").bind toStr with
  | none => none
  | some value => (normalizeOrigin parse (ofAscii value)).toOption

/-- `apply_common_headers`. -/
def applyCommonHeaders (response : HttpResponse) : HttpResponse :=
  ((((response.insert "cache-control" "no-store, private").insert
    "x-content-type-options" "nosniff").insert
    "referrer-policy" "no-referrer").insert
    "x-frame-options" "DENY").insert
    "content-security-policy"
    ("default-src 'none'; script-src 'self'; style-src 'self'; connect-src 'self'; " ++
      "frame-src 'self' blob:; img-src 'self' data:; base-uri 'none'; form-action 'none'; " ++
      "frame-ancestors 'none'")

/-- The headers for an origin, on every `/v1/` response. -/
def allowOrigin (origin : String) (response : HttpResponse) : HttpResponse :=
  if headerText origin then
    (response.insert "access-control-allow-origin" origin).insert "vary" "Origin"
  else response

/-- The headers of a preflight response. -/
def allowPreflight (headers : HeaderMap) (response : HttpResponse) : HttpResponse :=
  let allowed := ((response.insert "access-control-allow-methods" "GET, POST, OPTIONS").insert
    "access-control-allow-headers" "Authorization, Content-Type").insert
    "access-control-max-age" "600"
  if headers.get "access-control-request-private-network" = some (utf8 "true") then
    allowed.insert "access-control-allow-private-network" "true"
  else allowed

/-- `security_headers` after the handler. -/
def decorate (request : HttpRequest) (response : HttpResponse) : HttpResponse :=
  let common := applyCommonHeaders response
  if isApiPath request.path then
    match corsOrigin parse request.headers with
    | none => common
    | some origin =>
        let allowed := allowOrigin headerText origin common
        if request.method = .options then allowPreflight request.headers allowed else allowed
  else common

/-- `router`: a request on the socket. -/
def serve (state : AgentState) (request : HttpRequest) (o : RequestOutside) : Served :=
  if ¬ validHost request.headers config.port then state.answer none (refusal .forbidden)
  else if upgradesToWebsocket request.headers then
    state.answer none (refusal (.badRequest "WebSocket upgrades are not supported"))
  else
    let served := dispatch parse sha256Hex validatePdf headerText hmac decodeSegment config
      instanceSession state request o
    { served with response := decorate parse headerText request served.response }

end

end PrintLatch.Api
