/-
  PrintLatch.Api.CrossOrigin

  What a page of another origin can do to the agent (`preflight` and `security_headers` in
  `src/api.rs`), through a browser that follows the CORS protocol.

  `deliver` is the agent as the server of `Fetch.crossOriginFetch`: the browser sends the
  `Host` that it dialled and the `Origin` of the page.  `MayCall` is what the agent means
  to allow.  A fetch that it allows is the request alone, with its reply; any other fetch
  gets nothing, and leaves the agent as it was (`cross_origin_fetch`).
-/

import PrintLatch.Fetch.Cors
import PrintLatch.Api.Effects
import PrintLatch.Auth.Agreement

namespace PrintLatch.Api

open Text

/-! ## The agent as a server -/

/-- A method from the request line. -/
def methodOf : String → Method
  | "GET" => .get
  | "HEAD" => .head
  | "POST" => .post
  | "OPTIONS" => .options
  | name => .other name

/-- A response as the browser reads it. -/
def HttpResponse.reply (response : HttpResponse) : Fetch.Reply Content :=
  ⟨response.status, response.header, response.content⟩

/-- The request for `template`, sent to `host` with the method and the headers. -/
def sent (template : HttpRequest) (host method : String) (headers : Fetch.Headers) :
    HttpRequest :=
  { template with method := methodOf method, headers := ("host", utf8 host) :: headers }

/-- A type that `Json` takes. -/
def isJson (essence : String) : Bool :=
  essence = "application/json" ||
    ("application/".toList.isPrefixOf essence.toList &&
      "+json".toList.isSuffixOf essence.toList)

/-- The fetches that the agent allows. -/
structure MayCall (parse : String → Option Url) (safelist : Fetch.Safelist) (path : List String)
    (origin method : String) (headers : Fetch.Headers) : Prop where
  path : isApiPath path = true
  origin : normalizeOrigin parse origin = .ok origin
  method : method ∈ ["GET", "HEAD", "POST", "OPTIONS"]
  headers : ∀ name ∈ Fetch.unsafeNames safelist (Fetch.permitted headers),
    name = "authorization" ∨ name = "content-type"

section

variable (parse : String → Option Url) (sha256Hex : List UInt8 → String)
  (validatePdf : List UInt8 → String → Except String PdfReport) (headerText : String → Bool)
  (hmac : List UInt8 → List UInt8 → String) (decodeSegment : String → Option String)
  (config : AppConfig) (instanceSession : String)

/-- `serve`, as a browser reaches it. -/
def deliver (template : HttpRequest) (host : String) (o : RequestOutside) (state : AgentState)
    (method : String) (headers : Fetch.Headers) : AgentState × Fetch.Reply Content :=
  let served := serve parse sha256Hex validatePdf headerText hmac decodeSegment config
    instanceSession state (sent template host method headers) o
  (served.state, served.response.reply)

end

/-! ## Headers that only the middleware sets -/

/-- No header of the response is one of the CORS protocol. -/
def Plain (headers : List (String × String)) : Prop :=
  ∀ header ∈ headers, header.1 ∈ ["content-type", "content-disposition", "cache-control",
    "x-content-type-options"]

theorem plain_nil : Plain [] := by
  intro header h
  exact absurd h List.not_mem_nil

theorem Plain.header {response : HttpResponse} (h : Plain response.headers) {name : String}
    (hname : name ∉ ["content-type", "content-disposition", "cache-control",
      "x-content-type-options"]) : response.header name = none := by
  unfold HttpResponse.header
  rw [Option.map_eq_none_iff, List.find?_eq_none]
  intro header hmem heq
  simp only [decide_eq_true_eq] at heq
  exact hname (heq ▸ h header hmem)

section

variable (parse : String → Option Url) (sha256Hex : List UInt8 → String)
  (validatePdf : List UInt8 → String → Except String PdfReport) (headerText : String → Bool)
  (hmac : List UInt8 → List UInt8 → String) (decodeSegment : String → Option String)
  (config : AppConfig) (instanceSession : String)

theorem plain_respond (result : Except AppError Job) : Plain (respond result).headers := by
  cases result <;> exact plain_nil

theorem plain_getDocument (dir : DataDir) (clientId id : String) (o : Outside) :
    Plain (getDocument headerText dir clientId id o).headers := by
  have hdocument : ∀ bytes, Plain (documentResponse id bytes).headers := by
    intro bytes header hmem
    simp only [documentResponse, List.mem_cons, List.not_mem_nil, or_false] at hmem
    rcases hmem with rfl | rfl | rfl | rfl <;> simp
  unfold getDocument
  split
  · exact plain_nil
  · split
    · exact plain_nil
    · split
      · exact plain_nil
      · split
        · exact plain_nil
        · split
          · exact hdocument _
          · exact plain_nil

theorem plain_changeJob {dir : DataDir} {clientId id : String} {changed : Database × Bool}
    {refusal : AppError} {notices : List Obs} {o : Outside}
    (hnotices : ∀ response, .response response ∉ notices) {response : Response}
    (h : .response response ∈ (changeJob dir clientId id changed refusal notices o).2) :
    Plain response.headers := by
  unfold changeJob at h
  split at h
  · obtain rfl := by simpa using h
    exact plain_nil
  · split at h
    · rw [List.mem_append] at h
      rcases h with h | h
      · exact absurd h (hnotices response)
      · obtain rfl := by simpa using h
        exact plain_respond _
    · obtain rfl := by simpa using h
      exact plain_nil

theorem plain_createJob {dir : DataDir} {clientId : String} {multipart : Multipart} {o : Outside}
    {response : Response}
    (h : .response response ∈
      (createJob sha256Hex validatePdf config dir clientId multipart o).2) :
    Plain response.headers := by
  -- every exit but the last is an error
  unfold createJob at h
  split at h
  · obtain rfl := by simpa using h
    exact plain_nil
  · unfold storeJob at h
    split at h
    · obtain rfl := by simpa using h
      exact plain_nil
    · dsimp only at h
      split at h
      · obtain rfl := by simpa using h
        exact plain_nil
      · rw [List.mem_append] at h
        rcases h with h | h
        · split at h <;> simp at h
        · obtain rfl := by simpa using h
          split <;> exact plain_nil

/-- The responses of the handlers for jobs. -/
theorem plain_handle {dir : DataDir} {i : Input} {response : Response}
    (h : .response response ∈ (handle sha256Hex validatePdf headerText config dir i).2) :
    Plain response.headers := by
  unfold handle at h
  split at h
  · obtain rfl := by simpa using h
    exact plain_nil
  · next client _ =>
      unfold handleFor at h
      split at h
      · exact plain_createJob sha256Hex validatePdf config h
      · obtain rfl := by simpa using h
        unfold listJobs
        split <;> exact plain_nil
      · obtain rfl := by simpa using h
        exact plain_respond _
      · obtain rfl := by simpa using h
        exact plain_getDocument headerText dir client.id _ i.outside
      · exact plain_changeJob (by simp) h
      · exact plain_changeJob (by simp) h

theorem plain_shownResponse {obs : List Obs}
    (h : ∀ response, .response response ∈ obs → Plain response.headers) :
    Plain (shownResponse obs).headers := by
  unfold shownResponse
  split
  · next response hlast => exact h response (List.mem_of_getLast? hlast)
  · exact plain_nil

theorem plain_serveJobs (state : AgentState) (headers : HeaderMap) (r : Request)
    (o : RequestOutside) :
    Plain (serveJobs sha256Hex validatePdf headerText config state headers r o).response.headers :=
  plain_shownResponse fun _ h => plain_handle sha256Hex validatePdf headerText config h

theorem plain_serveJob (state : AgentState) (headers : HeaderMap) (segment : String)
    (r : String → Request) (o : RequestOutside) :
    Plain (serveJob sha256Hex validatePdf headerText decodeSegment config state headers segment r
      o).response.headers := by
  unfold serveJob
  split
  · exact plain_nil
  · exact plain_serveJobs sha256Hex validatePdf headerText config state headers _ o

theorem plain_serveRead {state : AgentState} {headers : HeaderMap} {response : HttpResponse}
    (h : Plain response.headers) (o : RequestOutside) :
    Plain (serveRead sha256Hex state headers response o).response.headers := by
  unfold serveRead
  split
  · exact plain_nil
  · exact h

theorem plain_servePair (state : AgentState) (request : HttpRequest) (o : RequestOutside) :
    Plain (servePair parse sha256Hex instanceSession state request o).response.headers := by
  unfold servePair
  split
  · exact plain_nil
  · split
    · exact plain_nil
    · split <;> exact plain_nil

theorem plain_serveInstance (state : AgentState) (challenge : Option String)
    (o : RequestOutside) :
    Plain (serveInstance hmac instanceSession state challenge o).response.headers := by
  unfold serveInstance
  split
  · exact plain_nil
  · split <;> exact plain_nil

theorem plain_one {value : String} : Plain [("content-type", value)] := by
  intro header hmem
  obtain rfl := List.mem_singleton.mp hmem
  simp

/-- No handler speaks the CORS protocol. -/
theorem plain_handleRoute (state : AgentState) (route : Route) (method : Method)
    (request : HttpRequest) (o : RequestOutside) :
    Plain (handleRoute parse sha256Hex validatePdf headerText hmac decodeSegment config
      instanceSession state route method request o).response.headers := by
  unfold handleRoute
  split
  · exact plain_one
  · exact plain_one
  · refine plain_serveRead sha256Hex ?_ o
    intro header hmem
    simp only [List.mem_cons, List.not_mem_nil, or_false] at hmem
    rcases hmem with rfl | rfl <;> simp
  · exact plain_nil
  · exact plain_serveInstance hmac instanceSession state _ o
  · exact plain_servePair parse sha256Hex instanceSession state request o
  · refine plain_serveRead sha256Hex ?_ o
    unfold printersResponse
    split <;> exact plain_nil
  · split
    · exact plain_nil
    · exact plain_serveJobs sha256Hex validatePdf headerText config state _ _ o
  · split
    · exact plain_nil
    · exact plain_serveJobs sha256Hex validatePdf headerText config state _ _ o
  · exact plain_serveJob sha256Hex validatePdf headerText decodeSegment config state _ _ _ o
  · exact plain_serveJob sha256Hex validatePdf headerText decodeSegment config state _ _ _ o
  · exact plain_serveJob sha256Hex validatePdf headerText decodeSegment config state _ _ _ o
  · exact plain_serveJob sha256Hex validatePdf headerText decodeSegment config state _ _ _ o
  all_goals exact plain_nil

theorem plain_dispatch (state : AgentState) (request : HttpRequest) (o : RequestOutside) :
    Plain (dispatch parse sha256Hex validatePdf headerText hmac decodeSegment config
      instanceSession state request o).response.headers := by
  have hroute := plain_handleRoute parse sha256Hex validatePdf headerText hmac decodeSegment config
    instanceSession state (routeOf request.path) request.method.handler request o
  unfold dispatch
  dsimp only
  split <;> exact hroute

end

/-! ## The origin in the response -/

section

variable {parse : String → Option Url} {headerText : String → Bool}

theorem applyCommonHeaders_header (response : HttpResponse) {name : String}
    (hname : name ∉ ["cache-control", "x-content-type-options", "referrer-policy",
      "x-frame-options", "content-security-policy"]) :
    (applyCommonHeaders response).header name = response.header name := by
  simp only [List.mem_cons, List.not_mem_nil, or_false, not_or] at hname
  obtain ⟨hcache, hsniff, hreferrer, hframe, hpolicy⟩ := hname
  unfold applyCommonHeaders
  rw [HttpResponse.header_insert_of_ne _ _ hpolicy, HttpResponse.header_insert_of_ne _ _ hframe,
    HttpResponse.header_insert_of_ne _ _ hreferrer, HttpResponse.header_insert_of_ne _ _ hsniff,
    HttpResponse.header_insert_of_ne _ _ hcache]

/-- Nothing is allowed where the middleware has no origin to echo. -/
theorem decorate_refused {request : HttpRequest} {response : HttpResponse}
    (hplain : Plain response.headers)
    (h : isApiPath request.path = false ∨ corsOrigin parse request.headers = none) :
    (decorate parse headerText request response).header "access-control-allow-origin" = none := by
  have hcommon : (applyCommonHeaders response).header "access-control-allow-origin" = none := by
    rw [applyCommonHeaders_header _ (by decide)]
    exact hplain.header (by decide)
  unfold decorate
  rcases h with hpath | hcors
  · simpa only [hpath, Bool.false_eq_true, if_false] using hcommon
  · simp only [hcors]
    split <;> exact hcommon

/-- The origin that the middleware reads is the normalization of the one that was sent. -/
theorem normalizeOrigin_of_corsOrigin {headers : HeaderMap} {origin n : String}
    (horigin : headers.get "origin" = some (utf8 origin)) (h : corsOrigin parse headers = some n) :
    normalizeOrigin parse origin = .ok n := by
  unfold corsOrigin at h
  rw [horigin, Option.bind_some] at h
  split at h
  · cases h
  · next value hvalue =>
      obtain rfl := toStr_eq_some hvalue
      rw [ofAscii_utf8 (lt_of_toStr hvalue)] at h
      cases hnormal : normalizeOrigin parse origin with
      | error message =>
          rw [hnormal] at h
          cases h
      | ok m =>
          rw [hnormal] at h
          exact congrArg Except.ok (Option.some.inj h)

theorem normal_ne_star {value : String} (h : normalizeOrigin parse value = .ok "*") : False := by
  obtain ⟨u, host, -, -, heq⟩ := normalizeOrigin_eq_ok.mp h
  have hslash : '/' ∈ (originText u.scheme host u.port).toList := by
    cases u.port with
    | none =>
        show '/' ∈ (u.scheme ++ "://" ++ host).toList
        simp
    | some port =>
        show '/' ∈ (u.scheme ++ "://" ++ host ++ ":" ++ toString port).toList
        simp
  rw [← heq] at hslash
  exact absurd hslash (by decide)

/-- **Whose responses may be read**: below `/v1/`, and by normal origins only. -/
theorem corsCheck_decorate (hlaws : UrlLaws parse)
    (htext : ∀ s, (∀ b ∈ utf8 s, visibleAscii b = true) → headerText s = true)
    {request : HttpRequest} {response : HttpResponse} {origin : String}
    (hplain : Plain response.headers)
    (horigin : request.headers.get "origin" = some (utf8 origin)) :
    Fetch.corsCheck origin (decorate parse headerText request response).reply = true ↔
      isApiPath request.path = true ∧ normalizeOrigin parse origin = .ok origin := by
  rw [Fetch.corsCheck_iff]
  show (decorate parse headerText request response).header "access-control-allow-origin" = some "*"
    ∨ (decorate parse headerText request response).header "access-control-allow-origin" =
      some origin ↔ _
  by_cases hpath : isApiPath request.path = true
  · cases hcors : corsOrigin parse request.headers with
    | none =>
        rw [decorate_refused hplain (Or.inr hcors)]
        constructor
        · rintro (h | h) <;> cases h
        · rintro ⟨-, hnormal⟩
          have hsome := corsOrigin_of_normal horigin
            (visible_of_normalizeOrigin hlaws hnormal) hnormal
          rw [hcors] at hsome
          cases hsome
    | some n =>
        have hnormal := normalizeOrigin_of_corsOrigin horigin hcors
        rw [decorate_origin hpath hcors (htext n (visible_of_normalizeOrigin hlaws hnormal))]
        constructor
        · rintro (h | h)
          · obtain rfl := Option.some.inj h
            exact (normal_ne_star hnormal).elim
          · obtain rfl := Option.some.inj h
            exact ⟨hpath, hnormal⟩
        · rintro ⟨-, hself⟩
          exact Or.inr (congrArg some (Except.ok.inj (hnormal.symm.trans hself)))
  · rw [decorate_refused hplain (Or.inl (by simpa using hpath))]
    constructor
    · rintro (h | h) <;> cases h
    · rintro ⟨h, -⟩
      exact absurd h hpath

end

/-! ## The preflight -/

section

variable (parse : String → Option Url) (sha256Hex : List UInt8 → String)
  (validatePdf : List UInt8 → String → Except String PdfReport) (headerText : String → Bool)
  (hmac : List UInt8 → List UInt8 → String) (decodeSegment : String → Option String)
  (config : AppConfig) (instanceSession : String)

/-- `preflight` stands on every path below `/v1/`. -/
theorem handleRoute_options {state : AgentState} {request : HttpRequest} {o : RequestOutside}
    (hpath : isApiPath request.path = true) :
    handleRoute parse sha256Hex validatePdf headerText hmac decodeSegment config instanceSession
      state (routeOf request.path) .options request o = state.answer none ⟨204, [], .empty⟩ := by
  generalize request.path = path at hpath ⊢
  unfold routeOf
  split <;> first | rfl | (split <;> rfl) | cases hpath

theorem handleRoute_options_state (state : AgentState) (route : Route) (request : HttpRequest)
    (o : RequestOutside) :
    (handleRoute parse sha256Hex validatePdf headerText hmac decodeSegment config instanceSession
      state route .options request o).state = state := by
  cases route <;> rfl

/-- What passes the checks of the middleware is dispatched. -/
theorem serve_of_valid {state : AgentState} {request : HttpRequest} {o : RequestOutside}
    (hhost : validHost request.headers config.port = true)
    (hupgrade : upgradesToWebsocket request.headers = false) :
    serve parse sha256Hex validatePdf headerText hmac decodeSegment config instanceSession state
        request o =
      let served := dispatch parse sha256Hex validatePdf headerText hmac decodeSegment config
        instanceSession state request o
      { served with response := decorate parse headerText request served.response } := by
  unfold serve
  rw [if_neg (by simp [hhost]), if_neg (by simp [hupgrade])]

variable (safelist : Fetch.Safelist) {origin method : String} {headers : Fetch.Headers}
  {privateNetwork : Bool}

theorem get_cons_of_ne {name other : String} {value : List UInt8} (headers : HeaderMap)
    (h : name ≠ other) : HeaderMap.get ((name, value) :: headers) other =
      HeaderMap.get headers other := by
  unfold HeaderMap.get
  rw [List.find?_cons_of_neg (by simpa using h)]

theorem get_cons_self (name : String) (value : List UInt8) (headers : HeaderMap) :
    HeaderMap.get ((name, value) :: headers) name = some value := by
  simp [HeaderMap.get]

/-- A header that no page can send. -/
theorem get_permitted {name : String} (h : ∀ value, Fetch.isForbidden (name, value) = true) :
    HeaderMap.get (Fetch.permitted headers) name = none := by
  unfold HeaderMap.get
  rw [Option.map_eq_none_iff, List.find?_eq_none]
  intro header hmem heq
  simp only [decide_eq_true_eq] at heq
  have hforbidden := Fetch.not_isForbidden_of_mem hmem
  rw [show header = (name, header.2) from Prod.ext heq rfl, h] at hforbidden
  cases hforbidden

theorem get_preflight_upgrade :
    HeaderMap.get (Fetch.preflightHeaders safelist origin method headers privateNetwork)
      "upgrade" = none := by
  unfold Fetch.preflightHeaders
  split <;> split <;> simp [HeaderMap.get]

theorem get_preflight_origin :
    HeaderMap.get (Fetch.preflightHeaders safelist origin method headers privateNetwork)
      "origin" = some (utf8 origin) := by
  unfold Fetch.preflightHeaders
  exact get_cons_self "origin" (utf8 origin) _

theorem get_preflight_privateNetwork :
    HeaderMap.get (Fetch.preflightHeaders safelist origin method headers privateNetwork)
      "access-control-request-private-network" =
        if privateNetwork then some (utf8 "true") else none := by
  unfold Fetch.preflightHeaders
  cases privateNetwork <;> split <;> simp [HeaderMap.get]

/-- The `Host` is the one that was dialled, whatever else is sent. -/
theorem validHost_cons (host : String) (headers : Fetch.Headers) (port : Nat) :
    validHost (("host", utf8 host) :: headers) port = validHost [("host", utf8 host)] port := by
  unfold validHost
  rw [get_cons_self, get_cons_self]

theorem upgrades_cons (host : String) (headers : Fetch.Headers) :
    upgradesToWebsocket (("host", utf8 host) :: headers) = upgradesToWebsocket headers := by
  unfold upgradesToWebsocket
  rw [get_cons_of_ne _ (by decide)]

end

section

variable {parse : String → Option Url} {headerText : String → Bool}

/-- The middleware sets headers, and nothing else. -/
theorem decorate_kept {α : Type*} {f : HttpResponse → α}
    (hinsert : ∀ response name value, f (HttpResponse.insert response name value) = f response)
    (request : HttpRequest) (response : HttpResponse) :
    f (decorate parse headerText request response) = f response := by
  have hcommon : f (applyCommonHeaders response) = f response := by
    simp only [applyCommonHeaders, hinsert]
  have hallow : ∀ n, f (allowOrigin headerText n (applyCommonHeaders response)) = f response := by
    intro n
    unfold allowOrigin
    split
    · simp only [hinsert, hcommon]
    · exact hcommon
  have hpreflight : ∀ r : HttpResponse, f (allowPreflight request.headers r) = f r := by
    intro r
    unfold allowPreflight
    dsimp only
    split <;> simp only [hinsert]
  unfold decorate
  dsimp only
  split
  · split
    · exact hcommon
    · next n _ =>
        split
        · rw [hpreflight, hallow n]
        · exact hallow n
  · exact hcommon

theorem decorate_status (request : HttpRequest) (response : HttpResponse) :
    (decorate parse headerText request response).status = response.status :=
  decorate_kept (f := HttpResponse.status) (fun _ _ _ => rfl) request response

theorem decorate_content (request : HttpRequest) (response : HttpResponse) :
    (decorate parse headerText request response).content = response.content :=
  decorate_kept (f := HttpResponse.content) (fun _ _ _ => rfl) request response

theorem allowPreflight_methods (headers : HeaderMap) (response : HttpResponse) :
    (allowPreflight headers response).header "access-control-allow-methods" =
      some "GET, POST, OPTIONS" := by
  have hallowed : ∀ allowed : HttpResponse, (((allowed.insert "access-control-allow-methods"
      "GET, POST, OPTIONS").insert "access-control-allow-headers"
      "Authorization, Content-Type").insert "access-control-max-age" "600").header
        "access-control-allow-methods" = some "GET, POST, OPTIONS" := by
    intro allowed
    rw [HttpResponse.header_insert_of_ne _ _ (by decide),
      HttpResponse.header_insert_of_ne _ _ (by decide), HttpResponse.header_insert_self]
  unfold allowPreflight
  dsimp only
  split
  · rw [HttpResponse.header_insert_of_ne _ _ (by decide)]
    exact hallowed response
  · exact hallowed response

theorem allowPreflight_headers (headers : HeaderMap) (response : HttpResponse) :
    (allowPreflight headers response).header "access-control-allow-headers" =
      some "Authorization, Content-Type" := by
  have hallowed : ∀ allowed : HttpResponse, ((allowed.insert "access-control-allow-headers"
      "Authorization, Content-Type").insert "access-control-max-age" "600").header
        "access-control-allow-headers" = some "Authorization, Content-Type" := by
    intro allowed
    rw [HttpResponse.header_insert_of_ne _ _ (by decide), HttpResponse.header_insert_self]
  unfold allowPreflight
  dsimp only
  split
  · rw [HttpResponse.header_insert_of_ne _ _ (by decide)]
    exact hallowed _
  · exact hallowed _

theorem allowPreflight_privateNetwork {headers : HeaderMap} (response : HttpResponse)
    (h : headers.get "access-control-request-private-network" = some (utf8 "true")) :
    (allowPreflight headers response).header "access-control-allow-private-network" =
      some "true" := by
  unfold allowPreflight
  dsimp only
  rw [if_pos h, HttpResponse.header_insert_self]

theorem decorate_options {request : HttpRequest} {n : String}
    (hmethod : request.method = .options) (hpath : isApiPath request.path = true)
    (hcors : corsOrigin parse request.headers = some n) (response : HttpResponse) :
    decorate parse headerText request response =
      allowPreflight request.headers (allowOrigin headerText n (applyCommonHeaders response)) := by
  unfold decorate
  simp only [hpath, hcors, hmethod, if_true]

/-- The two lists of `security_headers`, as a browser reads them. -/
theorem listItems_methods :
    Fetch.listItems "GET, POST, OPTIONS" = ["GET", "POST", "OPTIONS"] := by decide +kernel

theorem listItems_headers : (Fetch.listItems "Authorization, Content-Type").map Fetch.lower =
    ["authorization", "content-type"] := by decide +kernel

/-- What the reply to a preflight allows, once it allows the origin. -/
theorem preflightPasses_of_cors {safelist : Fetch.Safelist} {request : HttpRequest}
    {response : HttpResponse} {origin n method : String} {headers : Fetch.Headers}
    {privateNetwork : Bool}
    (hmethod : request.method = .options) (hpath : isApiPath request.path = true)
    (hcors : corsOrigin parse request.headers = some n) (hstatus : response.status = 204)
    (hprivate : privateNetwork = true →
      request.headers.get "access-control-request-private-network" = some (utf8 "true")) :
    Fetch.preflightPasses safelist origin method headers privateNetwork
        (decorate parse headerText request response).reply = true ↔
      Fetch.corsCheck origin (decorate parse headerText request response).reply = true ∧
        method ∈ ["GET", "HEAD", "POST", "OPTIONS"] ∧
        ∀ name ∈ Fetch.unsafeNames safelist headers,
          name = "authorization" ∨ name = "content-type" := by
  have hmethods : (decorate parse headerText request response).reply.header
      "access-control-allow-methods" = some "GET, POST, OPTIONS" := by
    show (decorate parse headerText request response).header _ = _
    rw [decorate_options hmethod hpath hcors, allowPreflight_methods]
  have hheaders : (decorate parse headerText request response).reply.header
      "access-control-allow-headers" = some "Authorization, Content-Type" := by
    show (decorate parse headerText request response).header _ = _
    rw [decorate_options hmethod hpath hcors, allowPreflight_headers]
  have hallowed : (!privateNetwork || (decorate parse headerText request response).reply.header
      "access-control-allow-private-network" = some "true") = true := by
    cases hnetwork : privateNetwork with
    | false => rfl
    | true =>
        have htrue : (decorate parse headerText request response).header
            "access-control-allow-private-network" = some "true" := by
          rw [decorate_options hmethod hpath hcors,
            allowPreflight_privateNetwork _ (hprivate hnetwork)]
        exact decide_eq_true htrue
  have hok : (decorate parse headerText request response).reply.status = 204 := by
    show (decorate parse headerText request response).status = 204
    rw [decorate_status, hstatus]
  unfold Fetch.preflightPasses Fetch.Reply.names
  rw [hmethods, hheaders, hok]
  simp only [Option.getD_some, listItems_methods, listItems_headers, hallowed]
  constructor
  · intro h
    simp only [Bool.and_eq_true, Bool.or_eq_true, Fetch.isSafeMethod, decide_eq_true_eq,
      List.all_eq_true, List.mem_cons, List.not_mem_nil, or_false] at h
    obtain ⟨⟨⟨⟨⟨hcheck, -⟩, hname⟩, -⟩, hunsafe⟩, -⟩ := h
    refine ⟨hcheck, ?_, fun name hmem => ?_⟩
    · simp only [List.mem_cons, List.not_mem_nil, or_false]
      rcases hname with ((rfl | rfl | rfl) | (rfl | rfl | rfl)) | h <;> simp_all
    · have := hunsafe name hmem
      simpa using this
  · rintro ⟨hcheck, hname, hunsafe⟩
    simp only [Bool.and_eq_true, Bool.or_eq_true, Fetch.isSafeMethod, decide_eq_true_eq,
      List.all_eq_true, List.mem_cons, List.not_mem_nil, or_false] at hname ⊢
    refine ⟨⟨⟨⟨⟨hcheck, by decide⟩, ?_⟩, ?_⟩, ?_⟩, trivial⟩
    · rcases hname with rfl | rfl | rfl | rfl <;> simp
    · intro header _
      by_cases hheader : header.1 = "authorization" <;> simp [hheader]
    · intro name hmem
      left
      exact hunsafe name hmem

/-- What the reply to a preflight allows. -/
theorem preflightPasses_decorate {safelist : Fetch.Safelist} {request : HttpRequest}
    {response : HttpResponse} {origin method : String} {headers : Fetch.Headers}
    {privateNetwork : Bool} (hlaws : UrlLaws parse)
    (htext : ∀ s, (∀ b ∈ utf8 s, visibleAscii b = true) → headerText s = true)
    (hplain : Plain response.headers) (hmethod : request.method = .options)
    (horigin : request.headers.get "origin" = some (utf8 origin))
    (hstatus : isApiPath request.path = true → response.status = 204)
    (hprivate : privateNetwork = true →
      request.headers.get "access-control-request-private-network" = some (utf8 "true")) :
    Fetch.preflightPasses safelist origin method (Fetch.permitted headers) privateNetwork
        (decorate parse headerText request response).reply = true ↔
      MayCall parse safelist request.path origin method headers := by
  have hcheck := corsCheck_decorate hlaws htext hplain horigin
  have hread : normalizeOrigin parse origin = .ok origin →
      corsOrigin parse request.headers = some origin := fun hnormal =>
    corsOrigin_of_normal horigin (visible_of_normalizeOrigin hlaws hnormal) hnormal
  constructor
  · intro h
    have hcors : Fetch.corsCheck origin (decorate parse headerText request response).reply =
        true := by
      unfold Fetch.preflightPasses at h
      simp only [Bool.and_eq_true] at h
      exact h.1.1.1.1.1
    obtain ⟨hapi, hnormal⟩ := hcheck.mp hcors
    obtain ⟨-, hname, hheaders⟩ :=
      (preflightPasses_of_cors hmethod hapi (hread hnormal) (hstatus hapi) hprivate).mp h
    exact ⟨hapi, hnormal, hname, hheaders⟩
  · intro hmay
    exact (preflightPasses_of_cors hmethod hmay.path (hread hmay.origin) (hstatus hmay.path)
      hprivate).mpr ⟨hcheck.mpr ⟨hmay.path, hmay.origin⟩, hmay.method, hmay.headers⟩

end

/-! ## The fetch -/

section

variable {parse : String → Option Url} {sha256Hex : List UInt8 → String}
  {validatePdf : List UInt8 → String → Except String PdfReport} {headerText : String → Bool}
  {hmac : List UInt8 → List UInt8 → String} {decodeSegment : String → Option String}
  {config : AppConfig} {instanceSession : String}
  {safelist : Fetch.Safelist} {template : HttpRequest} {host : String} {o : RequestOutside}
  {state : AgentState} {origin method : String} {headers : Fetch.Headers} {privateNetwork : Bool}

/-- The preflight changes nothing. -/
theorem deliver_preflight_state (hhost : validHost [("host", utf8 host)] config.port = true) :
    (deliver parse sha256Hex validatePdf headerText hmac decodeSegment config instanceSession
      template host o state "OPTIONS"
      (Fetch.preflightHeaders safelist origin method headers privateNetwork)).1 = state := by
  have hupgrade : upgradesToWebsocket (("host", utf8 host) ::
      Fetch.preflightHeaders safelist origin method headers privateNetwork) = false := by
    rw [upgrades_cons, upgradesToWebsocket, get_preflight_upgrade]
    rfl
  unfold deliver
  rw [serve_of_valid parse sha256Hex validatePdf headerText hmac decodeSegment config
    instanceSession (by rw [sent, validHost_cons]; exact hhost) hupgrade]
  show (dispatch parse sha256Hex validatePdf headerText hmac decodeSegment config instanceSession
    state _ o).state = state
  rw [dispatch_state]
  exact handleRoute_options_state parse sha256Hex validatePdf headerText hmac decodeSegment config
    instanceSession state _ _ o

/-- The preflight allows what the agent means to allow. -/
theorem deliver_preflight_passes (hlaws : UrlLaws parse)
    (htext : ∀ s, (∀ b ∈ utf8 s, visibleAscii b = true) → headerText s = true)
    (hhost : validHost [("host", utf8 host)] config.port = true) :
    Fetch.preflightPasses safelist origin method (Fetch.permitted headers) privateNetwork
        (deliver parse sha256Hex validatePdf headerText hmac decodeSegment config instanceSession
          template host o state "OPTIONS" (Fetch.preflightHeaders safelist origin method
            (Fetch.permitted headers) privateNetwork)).2 = true ↔
      MayCall parse safelist template.path origin method headers := by
  have hupgrade : upgradesToWebsocket (("host", utf8 host) :: Fetch.preflightHeaders safelist origin
      method (Fetch.permitted headers) privateNetwork) = false := by
    rw [upgrades_cons, upgradesToWebsocket, get_preflight_upgrade]
    rfl
  have horigin : HeaderMap.get (("host", utf8 host) :: Fetch.preflightHeaders safelist origin method
      (Fetch.permitted headers) privateNetwork) "origin" = some (utf8 origin) := by
    rw [get_cons_of_ne _ (by decide)]
    exact get_preflight_origin safelist
  unfold deliver
  rw [serve_of_valid parse sha256Hex validatePdf headerText hmac decodeSegment config
    instanceSession (by rw [sent, validHost_cons]; exact hhost) hupgrade]
  dsimp only
  generalize hrequest : sent template host "OPTIONS" (Fetch.preflightHeaders safelist origin method
    (Fetch.permitted headers) privateNetwork) = request
  have hmethod : request.method = .options := by rw [← hrequest]; rfl
  have hpath : request.path = template.path := by rw [← hrequest]; rfl
  have hget : request.headers.get "origin" = some (utf8 origin) := by
    rw [← hrequest]
    exact horigin
  have hplain := plain_dispatch parse sha256Hex validatePdf headerText hmac decodeSegment config
    instanceSession state request o
  have hstatus : isApiPath request.path = true → (dispatch parse sha256Hex validatePdf headerText
      hmac decodeSegment config instanceSession state request o).response.status = 204 := by
    intro hapi
    unfold dispatch
    dsimp only
    rw [if_neg (by simp [hmethod]), hmethod]
    exact congrArg (·.response.status) (handleRoute_options parse sha256Hex validatePdf headerText
      hmac decodeSegment config instanceSession hapi)
  have hprivate : privateNetwork = true →
      request.headers.get "access-control-request-private-network" = some (utf8 "true") := by
    intro hnetwork
    rw [← hrequest]
    show HeaderMap.get (("host", utf8 host) :: _) _ = _
    rw [get_cons_of_ne _ (by decide), get_preflight_privateNetwork, if_pos hnetwork]
  rw [← hpath]
  exact preflightPasses_decorate hlaws htext hplain hmethod hget hstatus hprivate

/-! ### The request itself -/

theorem get_sent_upgrade :
    upgradesToWebsocket (("host", utf8 host) :: ("origin", utf8 origin) ::
      Fetch.permitted headers) = false := by
  rw [upgrades_cons, upgradesToWebsocket, get_cons_of_ne _ (by decide),
    get_permitted fun _ => by simp [Fetch.isForbidden]]
  rfl

theorem deliver_actual_allowed (hlaws : UrlLaws parse)
    (htext : ∀ s, (∀ b ∈ utf8 s, visibleAscii b = true) → headerText s = true)
    (hhost : validHost [("host", utf8 host)] config.port = true) :
    Fetch.corsCheck origin (deliver parse sha256Hex validatePdf headerText hmac decodeSegment
        config instanceSession template host o state method
        (("origin", utf8 origin) :: Fetch.permitted headers)).2 = true ↔
      isApiPath template.path = true ∧ normalizeOrigin parse origin = .ok origin := by
  have horigin : HeaderMap.get (("host", utf8 host) :: ("origin", utf8 origin) ::
      Fetch.permitted headers) "origin" = some (utf8 origin) := by
    rw [get_cons_of_ne _ (by decide), get_cons_self]
  unfold deliver
  rw [serve_of_valid parse sha256Hex validatePdf headerText hmac decodeSegment config
    instanceSession (by rw [sent, validHost_cons]; exact hhost) get_sent_upgrade]
  exact corsCheck_decorate hlaws htext (plain_dispatch parse sha256Hex validatePdf headerText hmac
    decodeSegment config instanceSession state _ o) horigin

/-- A request that needs no preflight comes without a token and without a code. -/
theorem stranger_of_simple
    (hjson : ∀ code, template.code = .ok code → ∃ value essence,
      ("content-type", value) ∈ Fetch.permitted headers ∧ safelist.essence value = some essence ∧
        isJson essence = true)
    (hsafe : Fetch.unsafeNames safelist (Fetch.permitted headers) = []) :
    Stranger sha256Hex state (sent template host method
      (("origin", utf8 origin) :: Fetch.permitted headers)) o where
  refused client h := by
    have hnone : HeaderMap.get (Fetch.permitted headers) "authorization" = none := by
      unfold HeaderMap.get
      rw [Option.map_eq_none_iff, List.find?_eq_none]
      intro header hmem heq
      simp only [decide_eq_true_eq] at heq
      have hheader := Fetch.safe_of_mem safelist hsafe hmem
      rw [show header = ("authorization", header.2) from Prod.ext heq rfl,
        safelist.authorization] at hheader
      cases hheader
    have hget : HeaderMap.get (("host", utf8 host) :: ("origin", utf8 origin) ::
        Fetch.permitted headers) "authorization" = none := by
      rw [get_cons_of_ne _ (by decide), get_cons_of_ne _ (by decide), hnone]
    simp only [authenticate, sent, hget, Option.bind_none] at h
    cases h
  codeless code h := by
    have hcode : template.code = .ok code := h
    obtain ⟨value, essence, hmem, hessence, hjson⟩ := hjson code hcode
    -- the three types of a form are not JSON
    rcases safelist.contentType value (Fetch.safe_of_mem safelist hsafe hmem) with h | h | h <;>
      · rw [hessence] at h
        obtain rfl := Option.some.inj h
        exact absurd hjson (by decide)

/-- A fetch that the agent allows is the request alone, with its reply. -/
theorem fetched_of_mayCall (hlaws : UrlLaws parse)
    (htext : ∀ s, (∀ b ∈ utf8 s, visibleAscii b = true) → headerText s = true)
    (hhost : validHost [("host", utf8 host)] config.port = true)
    (hmay : MayCall parse safelist template.path origin method headers) :
    let deliver := deliver parse sha256Hex validatePdf headerText hmac decodeSegment config
      instanceSession template host o
    let alone := deliver state method (("origin", utf8 origin) :: Fetch.permitted headers)
    Fetch.crossOriginFetch safelist deliver state origin method headers privateNetwork =
      (alone.1, some alone.2) := by
  intro deliver alone
  have hallowed : Fetch.corsCheck origin alone.2 = true :=
    (deliver_actual_allowed hlaws htext hhost).mpr ⟨hmay.path, hmay.origin⟩
  have hsend : Fetch.crossOriginFetch safelist deliver state origin method headers privateNetwork =
      Fetch.sendActual deliver state origin method (Fetch.permitted headers) :=
    Fetch.crossOriginFetch_of_passes safelist fun _ =>
      ⟨deliver_preflight_state hhost, (deliver_preflight_passes hlaws htext hhost).mpr hmay⟩
  exact hsend.trans (Fetch.sendActual_of_allowed deliver hallowed)

end

/-- Of the headers that need no preflight, the two that pages set most. -/
def exampleSafelist : Fetch.Safelist where
  safe header := header.1 = "accept" || (header.1 = "content-type" && header.2 = utf8 "text/plain")
  essence value := some (ofAscii value)
  authorization value := by simp
  contentType value h := by
    have hvalue : value = utf8 "text/plain" := by simpa using h
    rw [hvalue]
    exact Or.inr (Or.inr (by decide))

/-- A form posted to the route that redeems codes. -/
def examplePair : HttpRequest where
  method := .post
  path := ["v1", "pair"]
  headers := []
  limit := none
  challenge := none
  code := .error .missingContentType
  multipart := none

end PrintLatch.Api
