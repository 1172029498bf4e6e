/-
  PrintLatch.Ui.Session

  The session of the dashboard's page (`src/ui/app.js`): the token, the pairing code that
  waits, and `refreshAll` with what it calls.

  A handler runs alone up to its next `await`; what stands behind the `await` is a
  `SessionCall`, and `resume` is what it does with its reply.  The token is read when a request
  is sent (`api`), and dropped when any protected request is refused, whichever token that
  request has carried.

  What the page shows is left out: the overlay, the printers, the jobs.  The handlers that poll
  or change jobs are here as the protected requests that they send.
-/

import PrintLatch.Api.Denial
import PrintLatch.Dashboard.Browser
import PrintLatch.Reactive.Machine
import PrintLatch.Reactive.Slots
import PrintLatch.Ui.PairingCode

namespace PrintLatch.Ui

open Text

/-! ## Requests -/

/-- What the page asks its agent for, with a token. -/
inductive Endpoint where
  | printers
  /-- `/v1/jobs?limit=100`. -/
  | jobs
  | job (id : String)
  | document (id : String)
  | testPdf
  | create (form : Api.Multipart)
  | cancel (id : String)
  | retry (id : String)

namespace Endpoint

def method : Endpoint → Api.Method
  | .printers | .jobs | .job _ | .document _ | .testPdf => .get
  | .create _ | .cancel _ | .retry _ => .post

def path : Endpoint → List String
  | .printers => ["v1", "printers"]
  | .jobs | .create _ => ["v1", "jobs"]
  | .job id => ["v1", "jobs", id]
  | .document id => ["v1", "jobs", id, "document"]
  | .testPdf => ["app", "test-page.pdf"]
  | .cancel id => ["v1", "jobs", id, "cancel"]
  | .retry id => ["v1", "jobs", id, "retry"]

def limit : Endpoint → Option Nat
  | .jobs => some 100
  | _ => none

def form : Endpoint → Option Api.Multipart
  | .create form => some form
  | _ => none

end Endpoint

/-- The headers that a browser adds to a request of the dashboard; a `POST` has its `Origin`. -/
def browserHeaders (port : Nat) (method : Api.Method) : HeaderMap :=
  ("host", utf8 (browserHost port)) :: ("sec-fetch-site", utf8 "same-origin") ::
    if method = .post then [("origin", utf8 (browserOrigin port))] else []

/-- The request of `api`, with a token. -/
def Endpoint.request (port : Nat) (token : String) (endpoint : Endpoint) : Api.HttpRequest where
  method := endpoint.method
  path := endpoint.path
  headers := ("authorization", utf8 ("Bearer " ++ token)) :: browserHeaders port endpoint.method
  limit := some endpoint.limit
  challenge := none
  code := .error .missingContentType
  multipart := endpoint.form

/-- The request of `checkHealth`. -/
def healthRequest (port : Nat) : Api.HttpRequest :=
  ⟨.get, ["health"], browserHeaders port .get, some none, none, .error .missingContentType, none⟩

/-- The request of `pair`. -/
def pairRequest (port : Nat) (request : PairRequest) : Api.HttpRequest :=
  ⟨.post, ["v1", "pair"], browserHeaders port .post, some none, none, .ok request.code, none⟩

/-! ## Calls -/

/-- Who waits for `refreshAll`. -/
inductive Waiter where
  /-- `start`, a button or the form. -/
  | nobody
  /-- The listener of `hashchange`. -/
  | fragment
  deriving DecidableEq, Repr

/-- What is awaited, with what its handler keeps. -/
inductive SessionCall where
  /-- `checkHealth`, within `refreshAll`. -/
  | health (waiter : Waiter)
  /-- `pair` within `pairFromFragment`. -/
  | fragmentPair (request : PairRequest) (waiter : Waiter)
  /-- `pair` from the form. -/
  | formPair (request : PairRequest)
  /-- A request of `loadProtectedData`, with its number. -/
  | data (load : Nat) (endpoint : Endpoint) (token : String)
  /-- `readError`, for one of them. -/
  | readError (load : Nat)
  /-- The bodies of both. -/
  | bodies (waiter : Waiter)
  /-- `loadPreviewDocument` within `loadProtectedData`: its request, and the body. -/
  | preview (waiter : Waiter) (id token : String)
  | previewed (waiter : Waiter)
  /-- A protected request of another handler. -/
  | other (endpoint : Endpoint) (token : String)

namespace SessionCall

/-- The token that a call has sent, and what for. -/
def sent? : SessionCall → Option (Endpoint × String)
  | .data _ endpoint token | .other endpoint token => some (endpoint, token)
  | .preview _ id token => some (.document id, token)
  | _ => none

/-- `refreshAll` waits for this call alone. -/
def refreshes : SessionCall → Bool
  | .health _ | .fragmentPair .. | .bodies _ | .preview .. | .previewed _ => true
  | _ => false

/-- `pairFromFragment` waits for this call. -/
def pairs : SessionCall → Bool
  | .fragmentPair .. => true
  | _ => false

/-- The load that waits for this call, with the other one. -/
def load? : SessionCall → Option Nat
  | .data load .. | .readError load => some load
  | _ => none

/-- The call is a redemption. -/
def redeems : SessionCall → Bool
  | .fragmentPair .. | .formPair _ => true
  | _ => false

end SessionCall

/-- What comes back. -/
inductive SessionReply where
  /-- A success, or a body that could be read. -/
  | ok
  /-- Bodies that show a job whose preview is to be loaded. -/
  | preview (id : String)
  | token (token : String)
  /-- 401 or 403. -/
  | refused
  /-- Another error status. -/
  | error
  /-- No response, or a body that could not be read. -/
  | lost
  deriving DecidableEq, Repr

/-- A response as `api` and `pair` read it. -/
def replyOf (response : Api.HttpResponse) : SessionReply :=
  if Api.denied response.status then .refused
  else if ¬ (200 ≤ response.status ∧ response.status < 300) then .error
  else
    match response.content with
    | .token issued => .token issued.token
    | _ => .ok

/-! ## The page -/

/-- What the session consists of. -/
structure Session extends PairingPage where
  /-- `appState.token`. -/
  token : Option String
  /-- `SESSION_TOKEN_KEY` of the storage. -/
  stored : Option String
  refreshing : Bool
  /-- How many times `loadProtectedData` was called. -/
  loads : Nat
  /-- In its `Promise.all`: how many responses are missing. -/
  loading : Option (Nat × Waiter)
  deriving DecidableEq, Repr

namespace Session

/-- A page that was just loaded; the storage may hold a token. -/
def loaded (hash : String) (stored : Option String) : Session :=
  ⟨.loaded hash, stored, stored, false, 0, none⟩

def navigate (s : Session) (view : String) : Session :=
  { s with toPairingPage := s.toPairingPage.navigate view }

/-- `api` on a protected request that was refused. -/
def unpaired (s : Session) : Session := { s with token := none, stored := none }

/-- `pair` with its response. -/
def paired (s : Session) (token : String) : Session :=
  { s with token := some token, stored := some token, pendingPairingCode := none }

/-- What the caller of `refreshAll` does after it. -/
def after (s : Session) : Waiter → Session
  | .nobody => s
  | .fragment =>
      if truthy s.token && !truthy s.pendingPairingCode then s.navigate "overview" else s

/-- The end of `refreshAll`. -/
def finish (s : Session) (waiter : Waiter) : Session :=
  { s with refreshing := false }.after waiter

/-- `refreshAll`, up to the request of `checkHealth`. -/
def refreshAll (s : Session) (waiter : Waiter) : Session × List SessionCall :=
  if s.refreshing then (s.after waiter, [])
  else ({ s with refreshing := true }, [.health waiter])

/-- The end of `pairFromFragment`. -/
def fragmentDone (s : Session) : Session := { s with pairingInProgress := false }

/-- `loadProtectedData` within `refreshAll`, up to its requests. -/
def loadProtectedData (s : Session) (waiter : Waiter) : Session × List SessionCall :=
  match s.token with
  | none => (s.finish waiter, [])
  | some token =>
      if token = "" then (s.finish waiter, [])
      else
        ({ s with loads := s.loads + 1, loading := some (2, waiter) },
          [.data (s.loads + 1) .printers token, .data (s.loads + 1) .jobs token])

/-- A response of the current load; with the last one `Promise.all` is over. -/
def arrived (s : Session) : Session × List SessionCall :=
  match s.loading with
  | some (1, waiter) => ({ s with loading := none }, [.bodies waiter])
  | some (missing, waiter) => ({ s with loading := some (missing - 1, waiter) }, [])
  | none => (s, [])

/-- `Promise.all` rejects. -/
def loadFailed (s : Session) : Session :=
  match s.loading with
  | some (_, waiter) => { s with loading := none }.finish waiter
  | none => s

/-- `loadPreviewDocument` within `loadProtectedData`, up to its request. -/
def loadPreview (s : Session) (waiter : Waiter) (id : String) : Session × List SessionCall :=
  match s.token with
  | none => (s.finish waiter, [])
  | some token =>
      if token = "" then (s.finish waiter, []) else (s, [.preview waiter id token])

section

variable (toUpperCase : UpperCase) (decoder : Utf8Decoder)

/-- `refreshAll` on a healthy agent: a code is redeemed before anything is loaded. -/
def healthy (s : Session) (waiter : Waiter) : Session × List SessionCall :=
  let (page, code) := s.toPairingPage.codeFromFragment decoder
  let s := { s with toPairingPage := page }
  if truthy code then
    match page.pairFromFragment toUpperCase decoder with
    | (page, some (.ok request)) =>
        ({ s with toPairingPage := page }, [.fragmentPair request waiter])
    | (page, some (.error _)) => ({ s with toPairingPage := page }.fragmentDone.finish waiter, [])
    | (page, none) => ({ s with toPairingPage := page }.finish waiter, [])
  else s.loadProtectedData waiter

/-- What a call does with its reply. -/
def resume (s : Session) : SessionCall → SessionReply → Session × List SessionCall
  | .health waiter, .ok => s.healthy toUpperCase decoder waiter
  | .health waiter, _ => (s.finish waiter, [])
  | .fragmentPair _ waiter, .token token =>
      (s.paired token).fragmentDone.loadProtectedData waiter
  | .fragmentPair _ waiter, _ => (s.fragmentDone.finish waiter, [])
  | .formPair _, .token token => (s.paired token).refreshAll .nobody
  | .formPair _, _ => (s, [])
  -- a load that has failed waits for nothing any more
  | .data load .., .ok => if load = s.loads then s.arrived else (s, [])
  | .data load .., .refused => (s.unpaired, [.readError load])
  | .data load .., .lost => if load = s.loads then (s.loadFailed, []) else (s, [])
  | .data load .., _ => (s, [.readError load])
  | .readError load, _ => if load = s.loads then (s.loadFailed, []) else (s, [])
  | .bodies waiter, .ok => (s.finish waiter, [])
  | .bodies waiter, .preview id => s.loadPreview waiter id
  | .bodies waiter, _ => (s.finish waiter, [])
  -- a preview that cannot be loaded is reported
  | .preview waiter .., .refused => (s.unpaired, [.previewed waiter])
  | .preview waiter .., .lost => (s.finish waiter, [])
  | .preview waiter .., _ => (s, [.previewed waiter])
  | .previewed waiter, _ => (s.finish waiter, [])
  | .other .., .refused => (s.unpaired, [])
  | .other .., _ => (s, [])

/-- `start`, up to the request of `checkHealth`. -/
def start (s : Session) : Session × List SessionCall :=
  let intendedView := String.ofList (s.hash.toList.drop 1)
  let (page, _) := s.toPairingPage.codeFromFragment decoder
  ({ s with toPairingPage := page }.navigate intendedView).refreshAll .nobody

/-- The listener of `hashchange`. -/
def hashChanged (s : Session) : Session × List SessionCall :=
  let view := String.ofList (s.hash.toList.drop 1)
  if view ∈ views then (s.navigate view, [])
  else if "code=".toList.isPrefixOf view.toList then
    let (page, _) := s.toPairingPage.codeFromFragment decoder
    { s with toPairingPage := page }.refreshAll .fragment
  else (s, [])

/-- The form of the pairing code is sent. -/
def submit (s : Session) (code : String) : Session × List SessionCall :=
  match pair toUpperCase code with
  | .ok request => (s, [.formPair request])
  | .error _ => (s, [])

/-- Another handler calls `api`. -/
def ask (s : Session) (endpoint : Endpoint) : Session × List SessionCall :=
  match s.token with
  | none => (s, [])
  | some token => if token = "" then (s, []) else (s, [.other endpoint token])

end

end Session

/-! ## The page and its agent -/

/-- The request that is awaited, if it is one. -/
def SessionCall.request? (port : Nat) : SessionCall → Option Api.HttpRequest
  | .health _ => some (healthRequest port)
  | .fragmentPair request _ | .formPair request => some (pairRequest port request)
  | .data _ endpoint token | .other endpoint token => some (endpoint.request port token)
  | .preview _ id token => some ((Endpoint.document id).request port token)
  | .readError _ | .bodies _ | .previewed _ => none

/-- The page, and what is awaited. -/
structure Tab where
  page : Session
  calls : List SessionCall

/-- What happens next. -/
inductive TabInput where
  /-- The address gets another fragment. -/
  | address (hash : String)
  | hashChanged
  | navigate (view : String)
  /-- A button that calls `refreshAll`. -/
  | refresh
  | submit (code : String)
  | ask (endpoint : Endpoint)
  /-- The agent on the port answers call `index`, whatever has become of it meanwhile. -/
  | answer (index : Nat) (dataDir session : String) (state : Api.AgentState)
      (o : Api.RequestOutside)
  /-- The body of call `index` was read. -/
  | read (index : Nat) (preview : Option String)
  | lose (index : Nat)

/-- What is seen. -/
inductive TabObs where
  /-- The page was given a token. -/
  | issued (token : String)
  /-- The agent has refused a request of the page with that token. -/
  | refused (token : String) (headers : HeaderMap) (db : Database) (now : Int)

namespace Tab

/-- What a handler leaves of the page, and the calls that it awaits. -/
def after (t : Tab) : Session × List SessionCall → Tab
  | (page, calls) => ⟨page, t.calls ++ calls⟩

variable (toUpperCase : UpperCase) (decoder : Utf8Decoder)

/-- A page that was opened, after `start`. -/
def opened (hash : String) (stored : Option String) : Tab :=
  (⟨.loaded hash stored, []⟩ : Tab).after ((Session.loaded hash stored).start decoder)

/-- Call `index` goes on with `reply`. -/
def deliver (t : Tab) (index : Nat) (call : SessionCall) (reply : SessionReply) : Tab :=
  (⟨t.page, t.calls.eraseIdx index⟩ : Tab).after (t.page.resume toUpperCase decoder call reply)

end Tab

/-- What is seen of a reply to a request. -/
def seenOf (call : SessionCall) (reply : SessionReply) (headers : HeaderMap) (db : Database)
    (now : Int) : List TabObs :=
  match call, reply with
  | .fragmentPair .., .token token | .formPair _, .token token => [.issued token]
  | .data _ _ token, .refused | .preview _ _ token, .refused | .other _ token, .refused =>
      [.refused token headers db now]
  | _, _ => []

section

variable (toUpperCase : UpperCase) (decoder : Utf8Decoder) (parse : String → Option Url)
  (sha256Hex : List UInt8 → String)
  (validatePdf : List UInt8 → String → Except String PdfReport) (headerText : String → Bool)
  (hmac : List UInt8 → List UInt8 → String) (decodeSegment : String → Option String) (port : Nat)

/-- One step. -/
def tabStep (t : Tab) : TabInput → Tab × List TabObs
  | .address hash => ({ t with page := { t.page with hash := hash } }, [])
  | .hashChanged => (t.after (t.page.hashChanged decoder), [])
  | .navigate view => ({ t with page := t.page.navigate view }, [])
  | .refresh => (t.after (t.page.refreshAll .nobody), [])
  | .submit code => (t.after (t.page.submit toUpperCase code), [])
  | .ask endpoint => (t.after (t.page.ask endpoint), [])
  | .answer index dataDir session state o =>
      match t.calls[index]? with
      | none => (t, [])
      | some call =>
          match call.request? port with
          | none => (t, [])
          | some request =>
              let served := Api.serve parse sha256Hex validatePdf headerText hmac decodeSegment
                ⟨dataDir, port⟩ session state request o
              let reply := replyOf served.response
              (t.deliver toUpperCase decoder index call reply,
                seenOf call reply request.headers state.dir.db o.job.authenticatedAt)
  | .read index preview =>
      match t.calls[index]? with
      | none => (t, [])
      | some call =>
          if (call.request? port).isSome then (t, [])
          else
            let reply := match preview with
              | none => .ok
              | some id => .preview id
            (t.deliver toUpperCase decoder index call reply, [])
  | .lose index =>
      match t.calls[index]? with
      | none => (t, [])
      | some call => (t.deliver toUpperCase decoder index call .lost, [])

end

end PrintLatch.Ui
