/-
  PrintLatch.Sdk.Errors

  What becomes of an error response in the SDK.

  `Call` is a call of one of the methods, with what it sends (`sent`) and what it makes of
  the response (`finish`).  All methods but `document` hand the response to `parseJson`,
  which looks at the status only after the body has been read as JSON:
  `call_rejects_iff` is what this leaves of the promise that every error response becomes
  a `PrintLatchError`.
-/

import PrintLatch.Sdk.Client

namespace PrintLatch.Sdk

open Text

@[simp] theorem ok_bind {ε α β : Type} {value : α} {next : α → Except ε β} :
    (Except.ok value >>= next) = next value := rfl

/-! ## Calls -/

/-- A call of a method that sends a request. -/
inductive Call where
  | pair (code : String)
  | printers
  | createJob (options : CreateJobOptions)
  | jobs (limit : JsNumber)
  | job (id : String)
  | document (id : String)
  | cancel (id : String)
  | retry (id : String)
  deriving DecidableEq, Repr

/-- The method takes the arguments: `createJob` refuses a blob of another type. -/
def Call.Accepted : Call → Prop
  | .createJob options => options.pdf.type = "application/pdf"
  | _ => True

section

variable (parse : List UInt8 → Option Json) (numberText : JsNumber → String)
  (fetch : HttpRequest → Except Rejection HttpResponse)

/-- The call on a client; `pair` needs only its base URL. -/
def Client.call (client : Client) : Call → Except Rejection Value
  | .pair code => pair parse fetch client.baseUrl code
  | .printers => client.printers parse fetch
  | .createJob options => client.createJob parse numberText fetch options
  | .jobs limit => client.jobs parse numberText fetch limit
  | .job id => client.job parse fetch id
  | .document id => client.document fetch id
  | .cancel id => client.cancel parse fetch id
  | .retry id => client.retry parse fetch id

/-- A request with the client's token. -/
def Client.authorized (client : Client) (path method : String) (body : RequestBody) :
    HttpRequest where
  url := client.baseUrl ++ path
  method := method
  headers := [("authorization", "Bearer " ++ client.token)]
  body := body

/-- The request of a call. -/
def Client.sent (client : Client) : Call → HttpRequest
  | .pair code =>
      { url := client.baseUrl ++ "/v1/pair"
        method := "POST"
        headers := [("Content-Type", "application/json")]
        body := .json (.object [("code", .string code)]) }
  | .printers => client.authorized "/v1/printers" "GET" .none
  | .createJob options =>
      client.authorized "/v1/jobs" "POST" (.form (jobForm numberText options))
  | .jobs limit =>
      client.authorized s!"/v1/jobs?limit={numberText (safeLimit limit)}" "GET" .none
  | .job id => client.authorized s!"/v1/jobs/{encodeURIComponent id}" "GET" .none
  | .document id => client.authorized s!"/v1/jobs/{encodeURIComponent id}/document" "GET" .none
  | .cancel id => client.authorized (transitionPath id "cancel") "POST" .none
  | .retry id => client.authorized (transitionPath id "retry") "POST" .none

/-- What a call makes of a parsed body with a good status. -/
def Call.result (body : Json) : Call → Except Rejection Value
  | .pair _ => .ok (.json body)
  | .printers => body.property "printers"
  | .jobs _ => body.property "jobs"
  | _ => body.property "job"

/-- What a call makes of the response. -/
def Call.finish (call : Call) (response : HttpResponse) : Except Rejection Value :=
  match call with
  | .document _ => .ok (.blob ⟨response.contentType, response.body⟩)
  | call =>
      match parseJson parse response with
      | .error rejection => .error rejection
      | .ok body => call.result body

variable {parse numberText fetch}

/-- A call sends its request and makes its result of the response. -/
theorem Client.call_of_delivered {client : Client} {call : Call} (haccepted : call.Accepted)
    {response : HttpResponse} (hdelivered : fetch (client.sent numberText call) = .ok response) :
    client.call parse numberText fetch call = call.finish parse response := by
  cases call with
  | pair code =>
      simp only [Client.sent] at hdelivered
      simp only [Client.call, pair, hdelivered, ok_bind, Call.finish]
      cases parseJson parse response <;> rfl
  | createJob options =>
      have htype : options.pdf.type = "application/pdf" := haccepted
      simp only [Client.sent, Client.authorized] at hdelivered
      simp only [Client.call, Client.createJob, htype, ne_eq, not_true_eq_false, if_false,
        Client.request, hdelivered, ok_bind, Call.finish]
      cases parseJson parse response <;> rfl
  | cancel | retry =>
      simp only [Client.sent, Client.authorized] at hdelivered
      simp only [Client.call, Client.cancel, Client.retry, Client.transition, Client.request,
        hdelivered, ok_bind, Call.finish]
      cases parseJson parse response <;> rfl
  | document =>
      simp only [Client.sent, Client.authorized] at hdelivered
      simp only [Client.call, Client.document, Client.request, hdelivered, ok_bind, Call.finish]
  | printers | jobs | job =>
      simp only [Client.sent, Client.authorized] at hdelivered
      simp only [Client.call, Client.printers, Client.jobs, Client.job, Client.request,
        hdelivered, ok_bind, Call.finish]
      cases parseJson parse response <;> rfl

/-! ## Error responses -/

/-- The body is an error of the agent, with this code. -/
def Json.AgentError (body : Json) (code : String) : Prop :=
  ∃ error message, body.get "error" = some error ∧ error.get "code" = some (.string code) ∧
    error.get "message" = some (.string message)

/-- The promise is rejected as an error response should be: with the status, and with the
    agent's code where the body is an error of the agent. -/
def RejectsWithError (parse : List UInt8 → Option Json) (response : HttpResponse)
    (outcome : Except Rejection Value) : Prop :=
  ∃ code message, outcome = .error (.printLatch response.status code message) ∧
    (∀ body agentCode, parse response.body = some body → body.AgentError agentCode →
      code = agentCode) ∧
    ((∀ body, parse response.body = some body → ¬ ∃ agentCode, body.AgentError agentCode) →
      code = "unexpected_response")

theorem readError_of_agentError {body : Json} {code : String} (h : body.AgentError code) :
    (readError body).1 = code := by
  obtain ⟨error, message, herror, hcode, hmessage⟩ := h
  simp [readError, herror, hcode, hmessage]

theorem readError_of_not_agentError {body : Json} (h : ¬ ∃ code, body.AgentError code) :
    readError body = unexpectedResponse := by
  unfold readError
  split
  · next error herror =>
      split
      · next code message hcode hmessage =>
          exact absurd ⟨code, error, message, herror, hcode, hmessage⟩ h
      · rfl
  · rfl

/-- On an error status a body that is JSON becomes a `PrintLatchError`. -/
theorem parseJson_of_json {response : HttpResponse} {body : Json}
    (hstatus : response.ok = false) (hbody : parse response.body = some body) :
    parseJson parse response =
      .error (.printLatch response.status (readError body).1 (readError body).2) := by
  simp [parseJson, hbody, hstatus]

/-- A call is rejected as it should be on an error status if and only if it is not
    `document` and the body is JSON. -/
theorem call_rejects_iff {client : Client} {call : Call} (haccepted : call.Accepted)
    {response : HttpResponse} (hdelivered : fetch (client.sent numberText call) = .ok response)
    (hstatus : response.ok = false) :
    RejectsWithError parse response (client.call parse numberText fetch call) ↔
      (∀ id, call ≠ .document id) ∧ (parse response.body).isSome := by
  rw [client.call_of_delivered haccepted hdelivered]
  constructor
  · rintro ⟨code, message, hrejected, -⟩
    -- `document` resolves whatever the status is
    have hcall : ∀ id, call ≠ .document id := by
      rintro id rfl
      cases hrejected
    refine ⟨hcall, ?_⟩
    cases hbody : parse response.body with
    | some body => rfl
    | none =>
        -- the parser throws before the status is looked at
        have hthrown : call.finish parse response = .error .syntaxError := by
          cases call with
          | document id => exact absurd rfl (hcall id)
          | _ => simp [Call.finish, parseJson, hbody]
        rw [hthrown] at hrejected
        cases hrejected
  · rintro ⟨hcall, hbody⟩
    obtain ⟨body, hbody⟩ := Option.isSome_iff_exists.mp hbody
    have hfinish : call.finish parse response =
        .error (.printLatch response.status (readError body).1 (readError body).2) := by
      cases call with
      | document id => exact absurd rfl (hcall id)
      | _ => simp [Call.finish, parseJson_of_json hstatus hbody]
    refine ⟨_, _, hfinish, ?_, ?_⟩
    · -- the agent's code is kept
      intro other agentCode hother hagent
      rw [hbody] at hother
      cases hother
      exact readError_of_agentError hagent
    · intro hnone
      rw [readError_of_not_agentError (hnone body hbody)]
      rfl

end

/-! ## A conflict, and a plain-text rejection -/

/-- The body of a conflict. -/
def conflictBody : List UInt8 :=
  utf8 ("\x7b\"error\":\x7b\"code\":\"conflict\"," ++
    "\"message\":\"job cannot be retried\"\x7d\x7d")

/-- The JSON parser on this body; no other is JSON. -/
def parseConflict (body : List UInt8) : Option Json :=
  if body = conflictBody then
    some (.object [("error", .object [("code", .string "conflict"),
      ("message", .string "job cannot be retried")])])
  else none

/-- A client of the default agent. -/
def exampleClient : Client := ⟨"http://127.0.0.1:32191", "pl_live_example"⟩

/-- The conflict becomes a `PrintLatchError`. -/
theorem retry_conflict :
    RejectsWithError parseConflict ⟨409, "application/json", conflictBody⟩
      (exampleClient.call parseConflict (fun _ => "25")
        (fun _ => .ok ⟨409, "application/json", conflictBody⟩) (.retry "job")) := by
  have haccepted : (Call.retry "job").Accepted := trivial
  refine (call_rejects_iff haccepted rfl (by decide)).mpr ⟨?_, ?_⟩
  · intro id h
    cases h
  · simp [parseConflict]

/-- `document` resolves with the body of an error, and an empty body is a syntax error. -/
theorem errors_not_rejected :
    ¬ RejectsWithError parseConflict ⟨409, "application/json", conflictBody⟩
        (exampleClient.call parseConflict (fun _ => "25")
          (fun _ => .ok ⟨409, "application/json", conflictBody⟩) (.document "job")) ∧
      ¬ RejectsWithError parseConflict ⟨405, "", []⟩
        (exampleClient.call parseConflict (fun _ => "25") (fun _ => .ok ⟨405, "", []⟩)
          .printers) := by
  constructor
  · rintro ⟨code, message, hrejected, -⟩
    cases hrejected
  · rintro ⟨code, message, hrejected, -⟩
    cases hrejected

end PrintLatch.Sdk
