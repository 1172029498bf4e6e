/-
  PrintLatch.Sdk.Arrival

  Every call of the SDK comes to the handler that it is meant for, and to no other.

  `Call.Arrives` says of a received request what the call means.  Three identifiers have no
  segment of their own in a path, and `NaN` is no limit; these calls come to no handler for
  the job.  A code or a form beyond the limit of the router comes to its handler, which does
  not get it.  What does not arrive changes nothing (`calls_arrive`).
-/

import PrintLatch.Sdk.Wire

namespace PrintLatch

open Text

namespace Api

theorem routeOf_job (segment : String) :
    routeOf ["v1", "jobs", segment] = if segment = "" then .anyPath else .job segment := rfl

theorem routeOf_document (segment : String) : routeOf ["v1", "jobs", segment, "document"] =
    if segment = "" then .anyPath else .document segment := rfl

theorem routeOf_cancel (segment : String) : routeOf ["v1", "jobs", segment, "cancel"] =
    if segment = "" then .anyPath else .cancel segment := rfl

theorem routeOf_retry (segment : String) : routeOf ["v1", "jobs", segment, "retry"] =
    if segment = "" then .anyPath else .retry segment := rfl

theorem parseU8_eq (text : String) : parseU8 text = parseUnsigned 256 text := rfl

/-- A numeral is parsed as its number, where the type has it. -/
theorem parseUnsigned_toString (bound n : Nat) :
    parseUnsigned bound (toString n) = if n < bound then some n else none := by
  have hchars : (toString n).toList = Nat.toDigits 10 n := by simp
  have hdigit : ∀ c ∈ (toString n).toList, c.isDigit = true := by
    intro c hc
    rw [hchars] at hc
    exact Nat.isDigit_of_mem_toDigits (by omega) (by omega) hc
  have hne : (toString n).toList ≠ [] := by
    rw [hchars]
    exact Nat.toDigits_ne_nil
  have hdigits : digitsOf (toString n) = (toString n).toList := by
    unfold digitsOf
    split
    · next rest heq => exact absurd (hdigit '+' (heq ▸ List.mem_cons_self)) (by decide)
    · rfl
  have hvalue : (toString n).toList.foldl (fun n c => 10 * n + (c.toNat - 48)) 0 = n := by
    rw [hchars]
    exact Nat.ofDigitChars_ten_toDigits
  unfold parseUnsigned
  rw [hdigits]
  dsimp only
  rw [if_pos ⟨hne, List.all_eq_true.mpr hdigit⟩, hvalue]

/-- What has a character that is no digit is not parsed. -/
theorem parseUnsigned_of_not_digit (bound : Nat) {text : String}
    (hplus : text.toList.head? ≠ some '+') (h : ∃ c ∈ text.toList, c.isDigit = false) :
    parseUnsigned bound text = none := by
  obtain ⟨c, hc, hdigit⟩ := h
  have hdigits : digitsOf text = text.toList := by
    unfold digitsOf
    split
    · next rest heq => exact absurd (congrArg List.head? heq) hplus
    · rfl
  have hnot : ¬ (text.toList ≠ [] ∧ text.toList.all Char.isDigit = true) := by
    rintro ⟨-, hall⟩
    rw [List.all_eq_true.mp hall c hc] at hdigit
    cases hdigit
  unfold parseUnsigned
  rw [hdigits]
  exact if_neg hnot

end Api

namespace Sdk

/-! ## Numbers -/

/-- Up to here every natural number is a number of JavaScript. -/
def maxExact : Nat := 9007199254740992

/-- From here on `String` writes a number with an exponent. -/
def exponentFrom : Nat := 1000000000000000000000

/-- `String` on a number: a natural number is written in digits, while it is exact, and one
    that has no exponent is a long text; every other number has a character that is no
    digit. -/
structure NumberText (numberText : JsNumber → String) : Prop where
  natural : ∀ n : Nat, n ≤ maxExact → numberText (.finite n) = toString n
  large : ∀ n : Nat, maxExact < n → n < exponentFrom →
    3 < (utf8 (numberText (.finite n))).length
  nan : numberText .nan = "NaN"
  plain : ∀ x, ∀ c ∈ (numberText x).toList, 32 < c.toNat ∧ c.toNat < 127
  other : ∀ x, (∀ n : Nat, n < exponentFrom → x ≠ .finite n) →
    (numberText x).toList.head? ≠ some '+' ∧ ∃ c ∈ (numberText x).toList, c.isDigit = false

/-- A limit that is a number becomes one from 1 to 100. -/
theorem safeLimit_cases (limit : JsNumber) :
    (limit = .nan ∧ safeLimit limit = .nan) ∨
      limit ≠ .nan ∧ ∃ n : Nat, n ≤ 100 ∧ safeLimit limit = .finite n := by
  cases limit with
  | nan => exact Or.inl ⟨rfl, rfl⟩
  | infinity negative =>
      refine Or.inr ⟨by simp, if negative then 1 else 100, ?_, ?_⟩
      · split <;> omega
      · cases negative <;> simp [safeLimit]
  | finite value =>
      refine Or.inr ⟨by simp, (max 1 (min 100 (value.num.tdiv value.den))).toNat, ?_, ?_⟩
      · omega
      · have hcast : (((max 1 (min 100 (value.num.tdiv value.den))).toNat : Int)) =
            max 1 (min 100 (value.num.tdiv value.den)) := by omega
        simp only [safeLimit]
        congr 1
        exact_mod_cast hcast.symm

/-! ## What a call means -/

section

variable (decoder : Utf8Decoder) (numberText : JsNumber → String) (t : Transfer)

/-- The call can be told to the agent. -/
def Call.Addressable : Call → Prop
  | .jobs limit => limit ≠ .nan
  | .job id | .document id | .cancel id | .retry id => ¬ Unaddressable id
  | _ => True

/-- The agent gets the whole of what the call sends. -/
def Call.Delivered : Call → Prop
  | .pair code => (pairBody numberText code).length ≤ Api.maxBody
  | .createJob options => t.Delivers (jobForm numberText options)
  | _ => True

/-- The call sends the token. -/
def Call.Authorized : Call → Prop
  | .pair _ => False
  | _ => True

/-- The request is the one that the call asks for. -/
def Call.Arrives (r : Api.HttpRequest) : Call → Prop
  | .pair code => Api.routeOf r.path = .pair ∧ r.method = .post ∧ r.code = .ok code
  | .printers => Api.routeOf r.path = .printers ∧ r.method = .get
  | .createJob options => Api.jobRequest? decodeSegment r =
      some (.createJob (formFields decoder (jobForm numberText options)))
  | .jobs limit => ∃ n : Nat, safeLimit limit = .finite n ∧
      Api.jobRequest? decodeSegment r = some (.listJobs (some n))
  | .job id => Api.jobRequest? decodeSegment r = some (.getJob id)
  | .document id => Api.jobRequest? decodeSegment r = some (.getDocument id)
  | .cancel id => Api.jobRequest? decodeSegment r = some (.cancelJob id)
  | .retry id => Api.jobRequest? decodeSegment r = some (.retryJob id)

/-- The request comes to the handler that the call asks for, with what is delivered. -/
def Call.Reaches (r : Api.HttpRequest) : Call → Prop
  | .pair code => Api.routeOf r.path = .pair ∧ r.method = .post ∧
      r.code = pairCode numberText code
  | .createJob options => Api.jobRequest? decodeSegment r =
      some (.createJob (delivered decoder t (jobForm numberText options)))
  | call => call.Arrives decoder numberText r

variable {decoder numberText t}

/-- What is delivered arrives. -/
theorem Call.Reaches.arrives_iff {r : Api.HttpRequest} {call : Call}
    (h : call.Reaches decoder numberText t r) :
    call.Arrives decoder numberText r ↔ call.Delivered numberText t := by
  cases call with
  | pair code =>
      obtain ⟨hroute, hmethod, hcode⟩ := h
      simp only [Call.Arrives, Call.Delivered, hroute, hmethod, hcode, true_and, pairCode_eq_ok,
        and_true]
  | createJob options =>
      have hasked : Api.jobRequest? decodeSegment r =
        some (.createJob (delivered decoder t (jobForm numberText options))) := h
      simp only [Call.Arrives, Call.Delivered, hasked, Option.some.injEq,
        Api.Request.createJob.injEq]
      exact delivered_eq_formFields
  | _ => exact iff_of_true h trivial

end

/-! ## The paths -/

section

variable (decoder : Utf8Decoder) (numberText : JsNumber → String) (t : Transfer)
  {client : Client}

theorem utf8_jobPath (id : String) :
    utf8 s!"/v1/jobs/{encodeURIComponent id}" = joinSegments (jobSegments id []) := by
  show utf8 ("/v1/jobs/" ++ encodeURIComponent id) = _
  rw [utf8_append, utf8_encodeURIComponent]
  show _ = utf8 "/v1/jobs/" ++ (percentEncode isUnescaped (utf8 id) ++ [])
  rw [List.append_nil]

theorem utf8_transitionPath (id behind : String) :
    utf8 (transitionPath id behind) = joinSegments (jobSegments id [behind]) := by
  show utf8 ("/v1/jobs/" ++ encodeURIComponent id ++ "/" ++ behind) = _
  rw [utf8_append, utf8_append, utf8_append, utf8_encodeURIComponent, List.append_assoc,
    List.append_assoc]
  show _ = utf8 "/v1/jobs/" ++ (percentEncode isUnescaped (utf8 id) ++ (47 :: utf8 behind ++ []))
  rw [List.append_nil]
  rfl

theorem utf8_documentPath (id : String) :
    utf8 s!"/v1/jobs/{encodeURIComponent id}/document" =
      joinSegments (jobSegments id ["document"]) := by
  show utf8 ("/v1/jobs/" ++ encodeURIComponent id ++ "/document") = _
  rw [utf8_append, utf8_append, utf8_encodeURIComponent, List.append_assoc]
  rfl

/-- The request for a job that can be addressed. -/
theorem jobRequest?_received (hbase : BaseUrl client.baseUrl) {id path : String}
    {behind : List String} (hbehind : Behind behind)
    (hpath : utf8 path = joinSegments (jobSegments id behind)) (hid : ¬ Unaddressable id)
    (method : String) :
    (received decoder numberText t (client.authorized path method .none)).path =
        "v1" :: "jobs" :: encodeURIComponent id :: behind ∧
      encodeURIComponent id ≠ "" ∧ decodeSegment (encodeURIComponent id) = some id := by
  refine ⟨received_jobPath_of_addressable hbase hbehind hpath hid, ?_,
    decodeSegment_encodeURIComponent id⟩
  exact encodeURIComponent_ne_empty fun h => hid (Or.inl h)

/-- A fixed path. -/
theorem received_path (hbase : BaseUrl client.baseUrl) {path : String}
    {segments : List (List UInt8)} {query : Option (List UInt8)}
    (hpath : utf8 path = joinSegments segments ++ markQuery query) (hne : segments ≠ [])
    (hplain : ∀ s ∈ segments, PlainSegment s)
    (hquery : ∀ q, query = some q → ∀ b ∈ q, inQuerySet b = false)
    (method : String) (headers : List (String × String)) (body : RequestBody) :
    (received decoder numberText t ⟨client.baseUrl ++ path, method, headers, body⟩).path =
        segments.map ofAscii ∧
      (received decoder numberText t ⟨client.baseUrl ++ path, method, headers, body⟩).limit =
        Api.limitOf ((query.map (parseUrlencoded decoder)).getD []) := by
  have htarget := targetOf_baseUrl hbase hpath hne (fun s hs => (hplain s hs).2.2) hquery
  rw [parsePath_plain hplain, List.nil_append] at htarget
  simp only [received, htarget.1, htarget.2]
  exact ⟨trivial, trivial⟩

/-- The path of a job that cannot be addressed leads to another job at most. -/
theorem routeOf_unaddressable {id : String} {behind : List String} (hbehind : Behind behind)
    (h : Unaddressable id) :
    Api.routeOf ((parsePath [] (jobSegments id behind)).map ofAscii) = .anyPath ∨
      behind ≠ [] ∧
        ∃ name, Api.routeOf ((parsePath [] (jobSegments id behind)).map ofAscii) = .job name := by
  simp only [Behind, List.mem_cons, List.not_mem_nil, or_false] at hbehind
  rcases h with rfl | rfl | rfl
  · -- an empty segment stays, and no route has one
    rcases hbehind with rfl | rfl | rfl | rfl <;> exact Or.inl (by decide +kernel)
  · -- a single dot is left out, and what is behind it moves up
    rcases hbehind with rfl | rfl | rfl | rfl
    · exact Or.inl (by decide +kernel)
    · exact Or.inr ⟨by simp, "document", by decide +kernel⟩
    · exact Or.inr ⟨by simp, "cancel", by decide +kernel⟩
    · exact Or.inr ⟨by simp, "retry", by decide +kernel⟩
  · -- two dots take `jobs` with them
    rcases hbehind with rfl | rfl | rfl | rfl <;> exact Or.inl (by decide +kernel)

/-- There the handler is one that reads a job, if any. -/
theorem jobRequest?_unaddressable {r : Api.HttpRequest} {id : String} {behind : List String}
    (hpath : r.path = (parsePath [] (jobSegments id behind)).map ofAscii)
    (hbehind : Behind behind) (h : Unaddressable id) {request : Api.Request}
    (hrequest : Api.jobRequest? decodeSegment r = some request) :
    behind ≠ [] ∧ ∃ name, request = .getJob name := by
  unfold Api.jobRequest? at hrequest
  rw [hpath] at hrequest
  -- of the routes that are left, `jobs/{id}` has a handler, with `GET` alone
  rcases routeOf_unaddressable hbehind h with hroute | ⟨hne, name, hroute⟩
  · rw [hroute] at hrequest
    cases hrequest
  · rw [hroute] at hrequest
    split at hrequest
    case h_3 =>
      obtain ⟨id, -, rfl⟩ := Option.map_eq_some_iff.mp hrequest
      exact ⟨hne, id, rfl⟩
    case h_7 => cases hrequest
    all_goals contradiction

/-! ## Calls on a job -/

/-- A call on a job arrives with its identifier where that can be addressed. -/
theorem arrives_job (hbase : BaseUrl client.baseUrl) {id path method : String}
    {behind : List String} (hbehind : Behind behind)
    (hpath : utf8 path = joinSegments (jobSegments id behind)) {make : String → Api.Request}
    (hreads : behind = [] ∨ ∀ name name', Api.Request.getJob name ≠ make name')
    (hroute : ∀ r : Api.HttpRequest,
      r.path = "v1" :: "jobs" :: encodeURIComponent id :: behind →
      r.method = Api.methodOf method → encodeURIComponent id ≠ "" →
      Api.jobRequest? decodeSegment r = (decodeSegment (encodeURIComponent id)).map make) :
    (Api.jobRequest? decodeSegment
        (received decoder numberText t (client.authorized path method .none)) = some (make id) ↔
        ¬ Unaddressable id) ∧
      (Unaddressable id → ∀ request, Api.jobRequest? decodeSegment
        (received decoder numberText t (client.authorized path method .none)) = some request →
          request.acts = false) := by
  have hunaddressable : Unaddressable id → ∀ request, Api.jobRequest? decodeSegment
      (received decoder numberText t (client.authorized path method .none)) = some request →
        behind ≠ [] ∧ ∃ name, request = .getJob name := fun hid _ hrequest =>
    jobRequest?_unaddressable (received_jobPath hbase hbehind hpath) hbehind hid hrequest
  refine ⟨⟨fun harrives hid => ?_, fun hid => ?_⟩, fun hid request hrequest => ?_⟩
  · obtain ⟨hne, name, heq⟩ := hunaddressable hid _ harrives
    rcases hreads with hnil | hreads
    · exact hne hnil
    · exact hreads name id heq.symm
  · obtain ⟨hreceived, hne, hdecode⟩ :=
      jobRequest?_received decoder numberText t hbase hbehind hpath hid method
    rw [hroute _ hreceived rfl hne, hdecode]
    rfl
  · obtain ⟨-, name, rfl⟩ := hunaddressable hid request hrequest
    rfl

/-- The pairs of the query of `jobs`. -/
theorem parseUrlencoded_limit {value : String} (hvalue : Literal (utf8 value)) :
    parseUrlencoded decoder (utf8 ("limit" ++ "=" ++ value)) = [("limit", value)] := by
  have hquery : ("limit" ++ "=" ++ value).toList.head? ≠ some '?' := by
    rw [String.toList_append, String.toList_append]
    simp
  rw [← urlSearchParams_eq decoder hquery]
  exact urlSearchParams_single (by decide) (by decide) decoder hquery hvalue

/-- The text of a limit needs no encoding in a query. -/
theorem limitText_plain {numberText : JsNumber → String} (hnumbers : NumberText numberText)
    (limit : JsNumber) :
    Literal (utf8 (numberText (safeLimit limit))) ∧
      ∀ b ∈ utf8 (numberText (safeLimit limit)), inQuerySet b = false := by
  rcases safeLimit_cases limit with ⟨-, hsafe⟩ | ⟨-, n, hn, hsafe⟩
  · rw [hsafe, hnumbers.nan]
    refine ⟨by decide, ?_⟩
    simp [utf8, String.utf8EncodeChar, inQuerySet]
  · rw [hsafe, hnumbers.natural n (le_trans hn (by decide))]
    have hdigit : ∀ b ∈ utf8 (toString n), 48 ≤ b.toNat ∧ b.toNat ≤ 57 :=
      fun b hb => digit_of_mem_utf8_toString hb
    refine ⟨fun b hb => ?_, fun b hb => ?_⟩
    · have hb := hdigit b hb
      refine ⟨by omega, ?_, ?_, ?_⟩ <;> rintro rfl <;> exact absurd hb (by decide)
    · -- the ten digits, one by one
      have hb := hdigit b hb
      have hall : ∀ k : Fin 10, inQuerySet (UInt8.ofNat (48 + k)) = false := by decide
      have hof : UInt8.ofNat (48 + (b.toNat - 48)) = b := by
        rw [show 48 + (b.toNat - 48) = b.toNat by omega]
        simp
      have h := hall ⟨b.toNat - 48, by omega⟩
      rwa [hof] at h

/-- What is received of `jobs`. -/
theorem received_jobs (hbase : BaseUrl client.baseUrl) (hnumbers : NumberText numberText)
    (limit : JsNumber) :
    let r := received decoder numberText t (client.sent numberText (.jobs limit))
    r.path = [utf8 "v1", utf8 "jobs"].map ofAscii ∧
      r.limit = (Api.parseU16 (numberText (safeLimit limit))).map some := by
  obtain ⟨hvalue, hquery⟩ := limitText_plain hnumbers limit
  intro r
  have hlimit : "/v1/jobs?limit=" = "/v1/jobs?" ++ ("limit" ++ "=") := by decide
  have hwritten : utf8 ("/v1/jobs?limit=" ++ numberText (safeLimit limit)) =
      joinSegments [utf8 "v1", utf8 "jobs"] ++
        markQuery (some (utf8 ("limit" ++ "=" ++ numberText (safeLimit limit)))) := by
    rw [hlimit, String.append_assoc, utf8_append]
    rfl
  have hplain : ∀ s ∈ [utf8 "v1", utf8 "jobs"], PlainSegment s := by
    intro s hs
    simp only [List.mem_cons, List.not_mem_nil, or_false] at hs
    rcases hs with rfl | rfl <;> decide
  have hsafe : ∀ q, some (utf8 ("limit" ++ "=" ++ numberText (safeLimit limit))) = some q →
      ∀ b ∈ q, inQuerySet b = false := by
    intro q hq b hb
    obtain rfl := Option.some.inj hq
    rw [utf8_append] at hb
    rcases List.mem_append.mp hb with hb | hb
    · have hall : (utf8 ("limit" ++ "=")).all (fun b => !inQuerySet b) = true := by decide
      simpa using List.all_eq_true.mp hall b hb
    · exact hquery b hb
  have hsent : client.sent numberText (.jobs limit) =
      ⟨client.baseUrl ++ ("/v1/jobs?limit=" ++ numberText (safeLimit limit)), "GET",
        [("authorization", "Bearer " ++ client.token)], .none⟩ := rfl
  have hparts := received_path decoder numberText t hbase hwritten (by simp) hplain hsafe "GET"
    [("authorization", "Bearer " ++ client.token)] .none
  simp only [r, hsent, hparts.1, hparts.2, Option.map_some, Option.getD_some,
    parseUrlencoded_limit decoder hvalue]
  exact ⟨trivial, rfl⟩

theorem arrives_jobs (hbase : BaseUrl client.baseUrl) (hnumbers : NumberText numberText)
    (limit : JsNumber) :
    (Call.jobs limit).Arrives decoder numberText
        (received decoder numberText t (client.sent numberText (.jobs limit))) ↔
      limit ≠ .nan := by
  rcases safeLimit_cases limit with ⟨rfl, hsafe⟩ | ⟨hlimit, n, hn, hsafe⟩
  · constructor
    · rintro ⟨n, hfinite, -⟩
      rw [hsafe] at hfinite
      cases hfinite
    · exact fun h => absurd rfl h
  · refine iff_of_true ⟨n, hsafe, ?_⟩ hlimit
    obtain ⟨hpath, hparsed⟩ := received_jobs decoder numberText t hbase hnumbers limit
    have hroute : Api.routeOf ([utf8 "v1", utf8 "jobs"].map ofAscii) = .jobs := by decide
    rw [hsafe, hnumbers.natural n (le_trans hn (by decide)), Api.parseU16,
      Api.parseUnsigned_toString, if_pos (by omega)] at hparsed
    unfold Api.jobRequest?
    rw [hpath, hparsed, hroute]
    rfl

/-! ## Every call -/

theorem authorization_received (path method : String) (body : RequestBody)
    (htoken : ∀ b ∈ utf8 client.token, visibleAscii b = true)
    (htokens : utf8 tokenPrefix <+: utf8 client.token) :
    ((HeaderMap.get (received decoder numberText t (client.authorized path method body)).headers
      "authorization").bind toStr).bind bearerToken = some (utf8 client.token) := by
  have hget : HeaderMap.get
      (received decoder numberText t (client.authorized path method body)).headers
      "authorization" = some (utf8 "Bearer " ++ utf8 client.token) := by
    rw [← utf8_append]
    have hlower : Fetch.lower "authorization" = "authorization" := by decide
    simp only [received, Client.authorized, List.map_cons, List.map_nil, hlower]
    rw [Api.get_cons_of_ne _ (by decide), Api.get_cons_self]
  have hvisible : ∀ b ∈ utf8 "Bearer " ++ utf8 client.token, visibleAscii b = true := by
    intro b hb
    rcases List.mem_append.mp hb with hb | hb
    · exact visible_of_all (by decide) b hb
    · exact htoken b hb
  rw [hget, Option.bind_some, toStr_of_visible hvisible, Option.bind_some,
    bearerToken_eq_some.mpr ⟨rfl, htokens⟩]

/-- A call whose path is fixed. -/
theorem received_fixed (hbase : BaseUrl client.baseUrl) {path : String}
    {segments : List (List UInt8)} (hpath : utf8 path = joinSegments segments)
    (hne : segments ≠ []) (hplain : ∀ s ∈ segments, PlainSegment s) (method : String)
    (headers : List (String × String)) (body : RequestBody) :
    (received decoder numberText t ⟨client.baseUrl ++ path, method, headers, body⟩).path =
      segments.map ofAscii :=
  (received_path decoder numberText t hbase (by rw [hpath, markQuery, List.append_nil]) hne hplain
    (fun q hq => by cases hq) method headers body).1

theorem plain_fixed {name : String} (h : name ∈ ["pair", "printers", "jobs"]) :
    ∀ s ∈ [utf8 "v1", utf8 name], PlainSegment s := by
  simp only [List.mem_cons, List.not_mem_nil, or_false] at h
  intro s hs
  simp only [List.mem_cons, List.not_mem_nil, or_false] at hs
  rcases hs with rfl | rfl
  · decide
  · rcases h with rfl | rfl | rfl <;> decide

theorem reaches_pair (hbase : BaseUrl client.baseUrl) (code : String) :
    (Call.pair code).Reaches decoder numberText t
      (received decoder numberText t (client.sent numberText (.pair code))) := by
  have hpath := received_fixed decoder numberText t hbase
    (show utf8 "/v1/pair" = joinSegments [utf8 "v1", utf8 "pair"] from rfl) (by simp)
    (plain_fixed (by simp)) "POST" [("Content-Type", "application/json")]
    (.json (.object [("code", .string code)]))
  refine ⟨?_, rfl, ?_⟩
  · rw [Client.sent, hpath]
    decide
  · rw [received_code, Client.sent, codeOf_pair]

theorem arrives_printers (hbase : BaseUrl client.baseUrl) :
    Call.printers.Arrives decoder numberText
      (received decoder numberText t (client.sent numberText .printers)) := by
  have hpath := received_fixed decoder numberText t hbase
    (show utf8 "/v1/printers" = joinSegments [utf8 "v1", utf8 "printers"] from rfl) (by simp)
    (plain_fixed (by simp)) "GET" [("authorization", "Bearer " ++ client.token)] .none
  refine ⟨?_, rfl⟩
  rw [Client.sent, Client.authorized, hpath]
  decide

theorem reaches_createJob (hbase : BaseUrl client.baseUrl) (options : CreateJobOptions) :
    (Call.createJob options).Reaches decoder numberText t
      (received decoder numberText t (client.sent numberText (.createJob options))) := by
  have hpath := received_fixed decoder numberText t hbase
    (show utf8 "/v1/jobs" = joinSegments [utf8 "v1", utf8 "jobs"] from rfl) (by simp)
    (plain_fixed (by simp)) "POST" [("authorization", "Bearer " ++ client.token)]
    (.form (jobForm numberText options))
  have hroute : Api.routeOf ([utf8 "v1", utf8 "jobs"].map ofAscii) = .jobs := by decide
  rw [Call.Reaches, Client.sent, Client.authorized]
  unfold Api.jobRequest?
  rw [hpath, hroute]
  rfl

/-- The four calls on a job. -/
theorem arrives_onJob (hbase : BaseUrl client.baseUrl) (id : String) :
    ∀ call ∈ [Call.job id, .document id, .cancel id, .retry id],
      let r := received decoder numberText t (client.sent numberText call)
      (call.Arrives decoder numberText r ↔ ¬ Unaddressable id) ∧
        (Unaddressable id → ∀ request, Api.jobRequest? decodeSegment r = some request →
          request.acts = false) := by
  intro call hcall
  simp only [List.mem_cons, List.not_mem_nil, or_false] at hcall
  rcases hcall with rfl | rfl | rfl | rfl
  · refine arrives_job decoder numberText t hbase (show Behind [] by simp [Behind])
      (utf8_jobPath id) (Or.inl rfl) fun r hpath hmethod hne => ?_
    unfold Api.jobRequest?
    rw [hpath, Api.routeOf_job, if_neg hne, hmethod]
    rfl
  · refine arrives_job decoder numberText t hbase (show Behind ["document"] by simp [Behind])
      (utf8_documentPath id) (Or.inr fun _ _ => by simp) fun r hpath hmethod hne => ?_
    unfold Api.jobRequest?
    rw [hpath, Api.routeOf_document, if_neg hne, hmethod]
    rfl
  · refine arrives_job decoder numberText t hbase (show Behind ["cancel"] by simp [Behind])
      (utf8_transitionPath id "cancel") (Or.inr fun _ _ => by simp) fun r hpath hmethod hne => ?_
    unfold Api.jobRequest?
    rw [hpath, Api.routeOf_cancel, if_neg hne, hmethod]
    rfl
  · refine arrives_job decoder numberText t hbase (show Behind ["retry"] by simp [Behind])
      (utf8_transitionPath id "retry") (Or.inr fun _ _ => by simp) fun r hpath hmethod hne => ?_
    unfold Api.jobRequest?
    rw [hpath, Api.routeOf_retry, if_neg hne, hmethod]
    rfl

/-- A call comes to its handler exactly if it can be addressed. -/
theorem reaches_iff_addressable (hbase : BaseUrl client.baseUrl)
    (hnumbers : NumberText numberText) (call : Call) :
    call.Reaches decoder numberText t
        (received decoder numberText t (client.sent numberText call)) ↔ call.Addressable := by
  cases call with
  | pair code => exact iff_of_true (reaches_pair decoder numberText t hbase code) trivial
  | printers => exact iff_of_true (arrives_printers decoder numberText t hbase) trivial
  | createJob options =>
      exact iff_of_true (reaches_createJob decoder numberText t hbase options) trivial
  | jobs limit => exact arrives_jobs decoder numberText t hbase hnumbers limit
  | job id => exact (arrives_onJob decoder numberText t hbase id (.job id) (by simp)).1
  | document id => exact (arrives_onJob decoder numberText t hbase id (.document id) (by simp)).1
  | cancel id => exact (arrives_onJob decoder numberText t hbase id (.cancel id) (by simp)).1
  | retry id => exact (arrives_onJob decoder numberText t hbase id (.retry id) (by simp)).1

/-- And arrives there exactly if all of it is delivered. -/
theorem arrives_iff (hbase : BaseUrl client.baseUrl) (hnumbers : NumberText numberText)
    (call : Call) :
    call.Arrives decoder numberText (received decoder numberText t (client.sent numberText call)) ↔
      call.Addressable ∧ call.Delivered numberText t := by
  have hreaches := reaches_iff_addressable decoder numberText t hbase hnumbers call
  constructor
  · intro harrives
    have haddressable : call.Addressable := by
      cases call with
      | pair | printers | createJob => trivial
      | _ => exact hreaches.mp harrives
    exact ⟨haddressable, (hreaches.mpr haddressable).arrives_iff.mp harrives⟩
  · rintro ⟨haddressable, hdelivered⟩
    exact (hreaches.mpr haddressable).arrives_iff.mpr hdelivered

/-! ## What does not arrive -/

/-- The routes of the calls on a job. -/
theorem routeOf_jobPath (hbase : BaseUrl client.baseUrl) {id path : String}
    {behind : List String} (hbehind : Behind behind)
    (hpath : utf8 path = joinSegments (jobSegments id behind)) (method : String) :
    let r := received decoder numberText t (client.authorized path method .none)
    Api.routeOf r.path ≠ .pair ∧ Api.routeOf r.path ≠ .healthInstance := by
  intro r
  by_cases hid : Unaddressable id
  · have hreceived : r.path = _ := received_jobPath hbase hbehind hpath
    rw [hreceived]
    rcases routeOf_unaddressable hbehind hid with hroute | ⟨-, name, hroute⟩ <;>
      · rw [hroute]
        exact ⟨by simp, by simp⟩
  · obtain ⟨hreceived, hne, -⟩ :=
      jobRequest?_received decoder numberText t hbase hbehind hpath hid method
    have hreceived : r.path = _ := hreceived
    rw [hreceived]
    simp only [Behind, List.mem_cons, List.not_mem_nil, or_false] at hbehind
    rcases hbehind with rfl | rfl | rfl | rfl
    · rw [Api.routeOf_job, if_neg hne]
      exact ⟨by simp, by simp⟩
    · rw [Api.routeOf_document, if_neg hne]
      exact ⟨by simp, by simp⟩
    · rw [Api.routeOf_cancel, if_neg hne]
      exact ⟨by simp, by simp⟩
    · rw [Api.routeOf_retry, if_neg hne]
      exact ⟨by simp, by simp⟩

/-- Only `pair` comes to the route that redeems codes, and no call asks for a proof. -/
theorem routeOf_sent (hbase : BaseUrl client.baseUrl) (hnumbers : NumberText numberText)
    (call : Call) :
    let r := received decoder numberText t (client.sent numberText call)
    ((∀ code, call ≠ .pair code) → Api.routeOf r.path ≠ .pair) ∧
      Api.routeOf r.path ≠ .healthInstance := by
  intro r
  have hjob : ∀ {id path method : String} {behind : List String}, Behind behind →
      utf8 path = joinSegments (jobSegments id behind) →
      r = received decoder numberText t (client.authorized path method .none) →
      ((∀ code, call ≠ .pair code) → Api.routeOf r.path ≠ .pair) ∧
        Api.routeOf r.path ≠ .healthInstance := by
    intro id path method behind hbehind hpath hr
    obtain ⟨hpair, hproof⟩ := routeOf_jobPath decoder numberText t hbase hbehind hpath method
    rw [hr]
    exact ⟨fun _ => hpair, hproof⟩
  have hjobs : Api.routeOf ([utf8 "v1", utf8 "jobs"].map ofAscii) = .jobs := by decide
  cases call with
  | pair code =>
      obtain ⟨hroute, -⟩ := reaches_pair decoder numberText t hbase code
      exact ⟨fun h => absurd rfl (h code), by rw [hroute]; simp⟩
  | printers =>
      obtain ⟨hroute, -⟩ := arrives_printers decoder numberText t hbase
      exact ⟨fun _ => by rw [hroute]; simp, by rw [hroute]; simp⟩
  | createJob options =>
      have hpath : r.path = [utf8 "v1", utf8 "jobs"].map ofAscii :=
        received_fixed decoder numberText t hbase rfl (by simp) (plain_fixed (by simp)) _ _ _
      rw [hpath, hjobs]
      exact ⟨fun _ => by simp, by simp⟩
  | jobs limit =>
      rw [(received_jobs decoder numberText t hbase hnumbers limit).1, hjobs]
      exact ⟨fun _ => by simp, by simp⟩
  | job id => exact hjob (show Behind [] by simp [Behind]) (utf8_jobPath id) rfl
  | document id =>
      exact hjob (show Behind ["document"] by simp [Behind]) (utf8_documentPath id) rfl
  | cancel id =>
      exact hjob (show Behind ["cancel"] by simp [Behind]) (utf8_transitionPath id "cancel") rfl
  | retry id =>
      exact hjob (show Behind ["retry"] by simp [Behind]) (utf8_transitionPath id "retry") rfl

/-- What does not arrive asks for nothing. -/
theorem inert_of_not_arrives (hbase : BaseUrl client.baseUrl) (hnumbers : NumberText numberText)
    (call : Call)
    (h : ¬ call.Arrives decoder numberText
      (received decoder numberText t (client.sent numberText call))) :
    Api.Inert decodeSegment (received decoder numberText t (client.sent numberText call)) where
  redeems hroute code hcode := by
    by_cases hpair : ∃ sent, call = .pair sent
    · obtain ⟨sent, rfl⟩ := hpair
      obtain ⟨hpath, hmethod, hread⟩ := reaches_pair decoder numberText t hbase sent
      obtain ⟨-, rfl⟩ := (pairCode_eq_ok numberText).mp (hread.symm.trans hcode)
      exact h ⟨hpath, hmethod, hcode⟩
    · exact (routeOf_sent decoder numberText t hbase hnumbers call).1
        (fun code heq => hpair ⟨code, heq⟩) hroute
  proves := (routeOf_sent decoder numberText t hbase hnumbers call).2
  acts request hrequest hacts := by
    have hstill : ∀ id, call ∈ [Call.job id, .document id, .cancel id, .retry id] →
        ∃ multipart, request = .createJob multipart ∧
          ∀ job, Api.parseJob multipart ≠ .ok job := by
      intro id hcall
      obtain ⟨harrives, hreads⟩ := arrives_onJob decoder numberText t hbase id call hcall
      rw [hreads (not_not.mp (mt harrives.mpr h)) request hrequest] at hacts
      cases hacts
    cases call with
    | pair code =>
        obtain ⟨hroute, -⟩ := reaches_pair decoder numberText t hbase code
        unfold Api.jobRequest? at hrequest
        rw [hroute] at hrequest
        cases hrequest
    | printers => exact absurd (arrives_printers decoder numberText t hbase) h
    | createJob options =>
        -- the form comes to the handler, and is cut or not read
        have hreaches := reaches_createJob decoder numberText t hbase options
        have hlost := mt hreaches.arrives_iff.mpr h
        obtain rfl := Option.some.inj (hrequest.symm.trans hreaches)
        exact ⟨_, rfl, parseJob_not_ok hlost⟩
    | jobs limit =>
        have hpost := Api.method_of_acts decodeSegment hrequest hacts
        exact absurd hpost (by simp [received, Client.sent, Client.authorized, Api.methodOf])
    | job id => exact hstill id (by simp)
    | document id => exact hstill id (by simp)
    | cancel id => exact hstill id (by simp)
    | retry id => exact hstill id (by simp)

end

/-- `String` on the numbers that a job can have; one number stands for every longer one, and
    one for every fraction. -/
def exampleNumberText : JsNumber → String
  | .nan => "NaN"
  | .infinity negative => if negative then "-Infinity" else "Infinity"
  | .finite value =>
      if value.den = 1 ∧ 0 ≤ value.num ∧ value.num < exponentFrom then
        toString (min value.num.toNat maxExact)
      else "0.5"

theorem exampleNumberText_natural {n : Nat} (h : n < exponentFrom) :
    exampleNumberText (.finite n) = toString (min n maxExact) := by
  have hlt : (n : Int) < exponentFrom := by exact_mod_cast h
  simp only [exampleNumberText, Rat.den_natCast, Rat.num_natCast]
  rw [if_pos ⟨trivial, by omega, hlt⟩]
  rfl

theorem exampleNumberText_law : NumberText exampleNumberText where
  natural n hn := by
    rw [exampleNumberText_natural (lt_of_le_of_lt hn (by decide)), min_eq_left hn]
  large n hn hlt := by
    rw [exampleNumberText_natural hlt, min_eq_right hn.le]
    decide
  nan := rfl
  plain x := by
    have hplain : ∀ text : String,
        text.toList.all (fun c => 32 < c.toNat && c.toNat < 127) = true →
          ∀ c ∈ text.toList, 32 < c.toNat ∧ c.toNat < 127 := by
      intro text htext c hc
      simpa using List.all_eq_true.mp htext c hc
    cases x with
    | nan => exact hplain "NaN" (by decide)
    | infinity negative => cases negative <;> exact hplain _ (by decide)
    | finite value =>
        simp only [exampleNumberText]
        split
        · intro c hc
          have hdigit : c.isDigit = true :=
            Nat.isDigit_of_mem_toDigits (b := 10) (n := min value.num.toNat maxExact) (by omega)
              (by omega) (by simpa using hc)
          simp only [Char.isDigit, Bool.and_eq_true, decide_eq_true_eq] at hdigit
          obtain ⟨hlow, hhigh⟩ := hdigit
          have hlow : 48 ≤ c.toNat := hlow
          have hhigh : c.toNat ≤ 57 := hhigh
          omega
        · exact hplain "0.5" (by decide)
  other x hx := by
    cases x with
    | nan => exact ⟨by decide, 'N', by decide, by decide⟩
    | infinity negative => cases negative <;> exact ⟨by decide, 'I', by decide, by decide⟩
    | finite value =>
        by_cases h : value.den = 1 ∧ 0 ≤ value.num ∧ value.num < exponentFrom
        · obtain ⟨hden, hnum, hlt⟩ := h
          refine absurd ?_ (hx value.num.toNat (by omega))
          congr 1
          calc value = (value.num : ℚ) := (Rat.coe_int_num_of_den_eq_one hden).symm
            _ = ((value.num.toNat : Int) : ℚ) := by rw [Int.toNat_of_nonneg hnum]
            _ = (value.num.toNat : ℚ) := by norm_cast
        · simp only [exampleNumberText, if_neg h]
          exact ⟨by decide, '.', by decide, by decide⟩

/-- A transfer that comes to its end. -/
def exampleTransfer : Transfer := ⟨utf8 "boundary", 0, false, true⟩

end Sdk

end PrintLatch
