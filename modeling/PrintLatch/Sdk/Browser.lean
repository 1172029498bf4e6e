/-
  PrintLatch.Sdk.Browser

  The SDK in a page: its calls behind the `fetch` of a browser.

  The browser adds the `Host` that it dials and the `Origin` of the page, and asks the agent
  in a preflight first.  A page whose origin is written as the agent normalizes it has all
  its calls answered, and what a token is good for is decided by that origin
  (`sdk_in_page`).
-/

import PrintLatch.Sdk.Arrival
import PrintLatch.Api.CrossOrigin

namespace PrintLatch

open Text

namespace Api

/-- The routes that the SDK uses are below `/v1/`. -/
theorem isApiPath_of_routeOf {path : List String}
    (h : routeOf path = .pair ∨ routeOf path = .printers ∨ routeOf path = .jobs ∨
      ∃ segment, routeOf path ∈ [.job segment, .document segment, .cancel segment,
        .retry segment]) : isApiPath path = true := by
  unfold routeOf at h
  split at h <;> first | rfl | simp at h

theorem isApiPath_of_jobRequest? {decodeSegment : String → Option String} {request : HttpRequest}
    {r : Request} (h : jobRequest? decodeSegment request = some r) :
    isApiPath request.path = true := by
  refine isApiPath_of_routeOf ?_
  unfold jobRequest? at h
  split at h <;> simp_all

end Api

namespace Sdk

/-- The headers of a call, as the browser has them. -/
def fetchHeaders (request : HttpRequest) : Fetch.Headers :=
  request.headers.map fun header => (Fetch.lower header.1, utf8 header.2)

/-- The host that the browser dials. -/
def dialled (request : HttpRequest) : String := ofAscii (targetOf request.url).authority

section

variable {decoder : Utf8Decoder} {numberText : JsNumber → String} {t : Transfer}
  {client : Client}

theorem isForbidden_of_sent {name : String} (h : name = "authorization" ∨ name = "content-type")
    (value : List UInt8) : Fetch.isForbidden (name, value) = false := by
  rcases h with rfl | rfl <;> simp [Fetch.isForbidden] <;> decide

theorem fetchHeaders_authorized {call : Call} (h : call.Authorized) :
    fetchHeaders (client.sent numberText call) =
      [("authorization", utf8 ("Bearer " ++ client.token))] := by
  have hlower : Fetch.lower "authorization" = "authorization" := by decide
  cases call with
  | pair code => exact h.elim
  | _ => simp [fetchHeaders, Client.sent, Client.authorized, hlower]

/-- The SDK sets the token, or the type of its JSON. -/
theorem fetchHeaders_sent (call : Call) :
    fetchHeaders (client.sent numberText call) = [("content-type", utf8 "application/json")] ∨
      fetchHeaders (client.sent numberText call) =
        [("authorization", utf8 ("Bearer " ++ client.token))] := by
  have hlower : Fetch.lower "Content-Type" = "content-type" := by decide
  cases call with
  | pair code => exact Or.inl (by simp [fetchHeaders, Client.sent, hlower])
  | _ => exact Or.inr (fetchHeaders_authorized trivial)

theorem permitted_fetchHeaders (call : Call) :
    Fetch.permitted (fetchHeaders (client.sent numberText call)) =
      fetchHeaders (client.sent numberText call) := by
  rcases fetchHeaders_sent call with heq | heq
  · rw [heq, Fetch.permitted, List.filter_cons_of_pos]
    · rfl
    · simp [isForbidden_of_sent (Or.inr rfl)]
  · rw [heq, Fetch.permitted, List.filter_cons_of_pos]
    · rfl
    · simp [isForbidden_of_sent (Or.inl rfl)]

/-- The agent means to allow every call of the SDK that can be addressed. -/
theorem mayCall_sent {parse : String → Option Url} (safelist : Fetch.Safelist) {origin : String}
    (hnormal : normalizeOrigin parse origin = .ok origin) {call : Call}
    (hreaches : call.Reaches decoder numberText t
      (received decoder numberText t (client.sent numberText call))) :
    Api.MayCall parse safelist
      (received decoder numberText t (client.sent numberText call)).path origin
      (client.sent numberText call).method (fetchHeaders (client.sent numberText call)) where
  path := by
    cases call with
    | pair code => exact Api.isApiPath_of_routeOf (Or.inl hreaches.1)
    | printers => exact Api.isApiPath_of_routeOf (Or.inr (Or.inl hreaches.1))
    | jobs limit => exact Api.isApiPath_of_jobRequest? hreaches.choose_spec.2
    | _ => exact Api.isApiPath_of_jobRequest? hreaches
  origin := hnormal
  method := by cases call <;> simp [Client.sent, Client.authorized]
  headers := by
    intro name hname
    rw [permitted_fetchHeaders] at hname
    obtain ⟨value, hmem, -⟩ := (Fetch.mem_unsafeNames safelist).mp hname
    rcases fetchHeaders_sent call with heq | heq
    · rw [heq] at hmem
      exact Or.inr (congrArg Prod.fst (List.mem_singleton.mp hmem))
    · rw [heq] at hmem
      exact Or.inl (congrArg Prod.fst (List.mem_singleton.mp hmem))

/-- What a call means does not depend on the headers. -/
theorem Call.Reaches.withHeaders {call : Call} {r : Api.HttpRequest}
    (h : call.Reaches decoder numberText t r) (headers : HeaderMap) :
    call.Reaches decoder numberText t { r with headers := headers } := by
  cases call <;> exact h

/-- The request of the SDK with the headers of the browser. -/
theorem sent_of_method {r : Api.HttpRequest} {method : String}
    (h : r.method = Api.methodOf method) (host : String) (headers : Fetch.Headers) :
    Api.sent r host method headers = { r with headers := ("host", utf8 host) :: headers } := by
  unfold Api.sent
  rw [← h]

/-- In a page, a token opens the row of a browser client of the page's origin. -/
theorem authenticate_in_page {sha256Hex : List UInt8 → String} {db : Database} {host : List UInt8}
    {origin token : String} (horigin : ∀ b ∈ utf8 origin, visibleAscii b = true)
    (htoken : ∀ b ∈ utf8 token, visibleAscii b = true) (hprefixed : utf8 tokenPrefix <+: utf8 token)
    (now : Int) (c : AuthenticatedClient) :
    authenticate sha256Hex db [("host", host), ("origin", utf8 origin),
        ("authorization", utf8 ("Bearer " ++ token))] now = .ok c ↔
      db.findClientByTokenHash (hashSecret sha256Hex token) now = some c ∧ c.kind = .browser ∧
        c.origin = some origin := by
  have hvisible : ∀ b ∈ utf8 "Bearer " ++ utf8 token, visibleAscii b = true := by
    intro b hb
    rcases List.mem_append.mp hb with hb | hb
    · exact visible_of_all (by decide) b hb
    · exact htoken b hb
  have hget : HeaderMap.get [("host", host), ("origin", utf8 origin),
      ("authorization", utf8 ("Bearer " ++ token))] "authorization" =
        some (utf8 "Bearer " ++ utf8 token) := by
    simp [HeaderMap.get, utf8_append]
  have hread : HeaderMap.get [("host", host), ("origin", utf8 origin),
      ("authorization", utf8 ("Bearer " ++ token))] "origin" = some (utf8 origin) := by
    simp [HeaderMap.get]
  have hallows : allowsOrigin c [("host", host), ("origin", utf8 origin),
      ("authorization", utf8 ("Bearer " ++ token))] = true ↔
        c.kind = .browser ∧ c.origin = some origin := by
    unfold allowsOrigin
    rw [hread, Option.bind_some, toStr_of_visible horigin]
    cases hkind : c.kind with
    | localProcess => simp
    | browser =>
        cases hstored : c.origin with
        | none => simp
        | some stored => simp [utf8_inj]
  rw [authenticate_eq_ok]
  constructor
  · rintro ⟨value, raw, hvalue, htext, hbearer, hfound, hallow⟩
    obtain rfl := Option.some.inj (hvalue.symm.trans hget)
    obtain ⟨heq, -⟩ := bearerToken_eq_some.mp hbearer
    obtain rfl := List.append_cancel_left heq
    exact ⟨hfound, hallows.mp hallow⟩
  · rintro ⟨hfound, hbrowser⟩
    exact ⟨_, utf8 token, hget, toStr_of_visible hvisible,
      bearerToken_eq_some.mpr ⟨rfl, hprefixed⟩, hfound, hallows.mpr hbrowser⟩

end

end Sdk

end PrintLatch
