/-
  PrintLatch.Sdk.Client

  `PrintLatchClient` (`packages/sdk/src/index.ts`).

  An asynchronous method is its result: the value its promise resolves with, or what it
  is rejected with.  The platform is in three parameters: `fetch` delivers a response or
  is rejected itself (a timeout aborts it), `parse` is `JSON.parse` on the bytes of a
  body, and `numberText` is `String` on a number.  Strings are well-formed, so
  `encodeURIComponent` has a value for every identifier.
-/

import PrintLatch.Auth.Origin
import PrintLatch.Text.Utf8
import Mathlib.Data.Rat.Defs

namespace PrintLatch.Sdk

open Text

/-! ## Values of the platform -/

/-- A number. -/
inductive JsNumber where
  | nan
  | infinity (negative : Bool)
  | finite (value : ℚ)
  deriving DecidableEq, Repr

/-- A JSON value. -/
inductive Json where
  | null
  | boolean (value : Bool)
  | number (value : JsNumber)
  | string (value : String)
  | array (items : List Json)
  | object (entries : List (String × Json))

/-- The property of an object; other values have none of the names asked for here. -/
def Json.get : Json → String → Option Json
  | .object entries, name => (entries.find? fun entry => entry.1 = name).map (·.2)
  | _, _ => none

/-- `Blob`. -/
structure Blob where
  type : String
  bytes : List UInt8
  deriving DecidableEq, Repr

/-- The value of a `FormData` entry. -/
inductive FormValue where
  | text (value : String)
  | file (blob : Blob) (filename : String)
  deriving DecidableEq, Repr

/-- The body of a request; `json` is the text of `JSON.stringify`. -/
inductive RequestBody where
  | none
  | json (value : Json)
  | form (entries : List (String × FormValue))

/-- A request as it is handed to `fetch`. -/
structure HttpRequest where
  url : String
  method : String
  headers : List (String × String)
  body : RequestBody

/-- `Response`. -/
structure HttpResponse where
  status : Nat
  contentType : String
  body : List UInt8
  deriving DecidableEq, Repr

/-- `Response.ok`. -/
def HttpResponse.ok (response : HttpResponse) : Bool :=
  200 ≤ response.status ∧ response.status ≤ 299

/-- What a promise is rejected with. -/
inductive Rejection where
  | typeError (message : String)
  /-- From `response.json()` on a body that is not JSON. -/
  | syntaxError
  /-- `PrintLatchError`. -/
  | printLatch (status : Nat) (code message : String)
  /-- Whatever `fetch` itself is rejected with. -/
  | fetchFailed (reason : String)
  deriving DecidableEq, Repr

/-- What a promise resolves with. -/
inductive Value where
  | undefined
  | json (value : Json)
  | blob (blob : Blob)

/-- Reading a property of a parsed body. -/
def Json.property (json : Json) (name : String) : Except Rejection Value :=
  match json with
  | .null => .error (.typeError ("Cannot read properties of null (reading '" ++ name ++ "')"))
  | _ =>
      match json.get name with
      | some value => .ok (.json value)
      | none => .ok .undefined

/-- The characters `encodeURIComponent` leaves alone. -/
def isUnescaped (byte : UInt8) : Bool :=
  (48 ≤ byte ∧ byte ≤ 57) ∨ (65 ≤ byte ∧ byte ≤ 90) ∨ (97 ≤ byte ∧ byte ≤ 122) ∨
    byte ∈ utf8 "-_.!~*'()"

/-- `encodeURIComponent`. -/
def encodeURIComponent (text : String) : String :=
  String.ofList ((utf8 text).flatMap fun byte =>
    if isUnescaped byte then [Char.ofNat byte.toNat]
    else '%' :: [byte.toNat / 16, byte.toNat % 16].map fun digit => (Nat.digitChar digit).toUpper)

/-! ## The client -/

/-- `normalizeLoopbackUrl`; `new URL` is `parseUrl`. -/
def normalizeLoopbackUrl (parseUrl : String → Option Url) (value : String) :
    Except Rejection String :=
  match parseUrl value with
  | none => .error (.typeError "Invalid URL")
  | some url =>
      if url.scheme ≠ "http" ∨
          ¬ (url.host.getD "") ∈ ["127.0.0.1", "localhost", "[::1]"] ∨
          url.username ≠ "" ∨ url.password.getD "" ≠ "" ∨ url.path ≠ "/" ∨
          url.query.getD "" ≠ "" ∨ url.fragment.getD "" ≠ "" then
        .error (.typeError "PrintLatch baseUrl must be an HTTP loopback origin")
      else
        let hostname := url.host.getD ""
        match url.port with
        | none => .ok s!"{url.scheme}://{hostname}"
        | some port => .ok s!"{url.scheme}://{hostname}:{port}"

/-- `PrintLatchClient`. -/
structure Client where
  baseUrl : String
  token : String
  deriving DecidableEq, Repr

/-- The constructor. -/
def Client.new (parseUrl : String → Option Url) (token : String) (baseUrl : Option String) :
    Except Rejection Client := do
  if ¬ token.startsWith "pl_live_" then
    .error (.typeError "PrintLatch token has an invalid format")
  else
    let normalized ← normalizeLoopbackUrl parseUrl (baseUrl.getD "http://127.0.0.1:32191")
    .ok ⟨normalized, token⟩

/-- `CreateJobOptions`. -/
structure CreateJobOptions where
  pdf : Blob
  mode : String
  printerId : Option String
  copies : Option JsNumber
  filename : Option String
  deriving DecidableEq, Repr

/-- `Math.max(1, Math.min(100, Math.trunc(limit)))`. -/
def safeLimit : JsNumber → JsNumber
  | .nan => .nan
  | .infinity negative => .finite (if negative then 1 else 100)
  | .finite value => .finite (max 1 (min 100 (value.num.tdiv value.den)) : Int)

/-! ## Errors -/

/-- The answer of `readError` to a body it does not know. -/
def unexpectedResponse : String × String :=
  ("unexpected_response", "PrintLatch returned an unexpected response")

/-- `readError`: code and message. -/
def readError (value : Json) : String × String :=
  match value.get "error" with
  | some error =>
      match error.get "code", error.get "message" with
      | some (.string code), some (.string message) => (code, message)
      | _, _ => unexpectedResponse
  | none => unexpectedResponse

section

variable (parse : List UInt8 → Option Json) (numberText : JsNumber → String)
  (fetch : HttpRequest → Except Rejection HttpResponse)

/-- `parseJson`. -/
def parseJson (response : HttpResponse) : Except Rejection Json :=
  match parse response.body with
  | none => .error .syntaxError
  | some body =>
      if ¬ response.ok then
        let error := readError body
        .error (.printLatch response.status error.1 error.2)
      else .ok body

/-! ## The methods -/

/-- `#request`. -/
def Client.request (client : Client) (path method : String) (body : RequestBody) :
    Except Rejection HttpResponse :=
  fetch
    { url := client.baseUrl ++ path
      method := method
      headers := [("authorization", "Bearer " ++ client.token)]
      body := body }

/-- `PrintLatchClient.pair`, at a base URL that is already normalized. -/
def pair (baseUrl code : String) : Except Rejection Value := do
  let response ← fetch
    { url := baseUrl ++ "/v1/pair"
      method := "POST"
      headers := [("Content-Type", "application/json")]
      body := .json (.object [("code", .string code)]) }
  let body ← parseJson parse response
  .ok (.json body)

/-- `printers`. -/
def Client.printers (client : Client) : Except Rejection Value := do
  let response ← client.request fetch "/v1/printers" "GET" .none
  let payload ← parseJson parse response
  payload.property "printers"

/-- The form of `createJob`. -/
def jobForm (options : CreateJobOptions) : List (String × FormValue) :=
  [("mode", .text options.mode),
    ("copies", .text (numberText (options.copies.getD (.finite 1))))] ++
  (match options.printerId with
    | some printerId => [("printer_id", .text printerId)]
    | none => []) ++
  [("file", .file options.pdf (options.filename.getD "document.pdf"))]

/-- `createJob`. -/
def Client.createJob (client : Client) (options : CreateJobOptions) : Except Rejection Value :=
  if options.pdf.type ≠ "application/pdf" then
    .error (.typeError "pdf Blob type must be application/pdf")
  else do
    let response ← client.request fetch "/v1/jobs" "POST" (.form (jobForm numberText options))
    let payload ← parseJson parse response
    payload.property "job"

/-- `jobs`. -/
def Client.jobs (client : Client) (limit : JsNumber) : Except Rejection Value := do
  let response ← client.request fetch s!"/v1/jobs?limit={numberText (safeLimit limit)}" "GET" .none
  let payload ← parseJson parse response
  payload.property "jobs"

/-- `job`. -/
def Client.job (client : Client) (id : String) : Except Rejection Value := do
  let response ← client.request fetch s!"/v1/jobs/{encodeURIComponent id}" "GET" .none
  let payload ← parseJson parse response
  payload.property "job"

/-- `document`. -/
def Client.document (client : Client) (id : String) : Except Rejection Value := do
  let response ← client.request fetch s!"/v1/jobs/{encodeURIComponent id}/document" "GET" .none
  .ok (.blob ⟨response.contentType, response.body⟩)

/-- The path of a transition. -/
def transitionPath (id transition : String) : String :=
  s!"/v1/jobs/{encodeURIComponent id}/{transition}"

/-- `#transition`. -/
def Client.transition (client : Client) (id transition : String) : Except Rejection Value := do
  let response ← client.request fetch (transitionPath id transition) "POST" .none
  let payload ← parseJson parse response
  payload.property "job"

/-- `cancel`. -/
def Client.cancel (client : Client) (id : String) : Except Rejection Value :=
  client.transition parse fetch id "cancel"

/-- `retry`. -/
def Client.retry (client : Client) (id : String) : Except Rejection Value :=
  client.transition parse fetch id "retry"

end

end PrintLatch.Sdk
