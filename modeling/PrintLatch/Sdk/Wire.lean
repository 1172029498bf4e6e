/-
  PrintLatch.Sdk.Wire

  From `PrintLatchClient` (`packages/sdk/src/index.ts`) to the router of the agent
  (`src/api.rs`): what the agent receives of a call.

  `received` is the request on the socket for one that was handed to `fetch`, once the HTTP
  server has taken its head: the URL parser has resolved the path, the form was sent as
  multipart, and the extractors of the router read path, query and body, as far as the limit
  lets them.  A call comes to its own handler, with the identifier that the caller gave,
  unless that is empty or a dot segment (`calls_arrive`).
-/

import PrintLatch.Api.CrossOrigin
import PrintLatch.Sdk.Body
import PrintLatch.Sdk.Errors
import PrintLatch.Text.UrlPath

namespace PrintLatch

open Text

/-! ## The wire -/

namespace Api

/-- What `parse` takes for digits: the text after a `+`, if it begins with one. -/
def digitsOf (text : String) : List Char :=
  match text.toList with
  | '+' :: rest => rest
  | all => all

/-- `parse` to an unsigned type with the values below `bound`. -/
def parseUnsigned (bound : Nat) (text : String) : Option Nat :=
  let digits := digitsOf text
  if digits ≠ [] ∧ digits.all Char.isDigit then
    let value := digits.foldl (fun n c => 10 * n + (c.toNat - 48)) 0
    if value < bound then some value else none
  else none

/-- `str::parse::<u16>`. -/
def parseU16 (text : String) : Option Nat := parseUnsigned 65536 text

/-- `Query<ListQuery>`, from the pairs of the query. -/
def limitOf (params : List (String × String)) : Option (Option Nat) :=
  match params.filter fun param => param.1 = "limit" with
  | [] => some none
  | [param] => (parseU16 param.2).map some
  | _ => none

/-- `Query<InstanceChallenge>`. -/
def challengeOf (params : List (String × String)) : Option String :=
  match params.filter fun param => param.1 = "challenge" with
  | [param] => some param.2
  | _ => none

end Api

namespace Sdk

/-- A request handed to `fetch`, as the router receives it. -/
def received (decoder : Utf8Decoder) (numberText : JsNumber → String) (t : Transfer)
    (request : HttpRequest) : Api.HttpRequest :=
  let target := targetOf request.url
  let params := (target.query.map (parseUrlencoded decoder)).getD []
  { method := Api.methodOf request.method
    path := target.path.map ofAscii
    headers := ("host", target.authority) ::
      request.headers.map fun header => (Fetch.lower header.1, utf8 header.2)
    limit := Api.limitOf params
    challenge := Api.challengeOf params
    code := codeOf numberText request
    multipart := match request.body with
      | .form entries => some (delivered decoder t entries)
      | _ => none }

theorem received_code (decoder : Utf8Decoder) (numberText : JsNumber → String) (t : Transfer)
    (request : HttpRequest) :
    (received decoder numberText t request).code = codeOf numberText request := rfl

/-! ## The address of a client -/

/-- A base URL that the constructor lets through. -/
def BaseUrl (baseUrl : String) : Prop :=
  ∃ authority, utf8 baseUrl = utf8 "http://" ++ authority ∧
    ∀ b ∈ authority, 32 < b ∧ endsAuthority b = false

theorem authority_of_loopback {hostname : String}
    (h : hostname ∈ ["127.0.0.1", "localhost", "[::1]"]) :
    ∀ b ∈ utf8 hostname, 32 < b ∧ endsAuthority b = false := by
  have hall : (utf8 hostname).all (fun b => decide (32 < b) && !endsAuthority b) = true := by
    simp only [List.mem_cons, List.not_mem_nil, or_false] at h
    rcases h with rfl | rfl | rfl <;> decide
  intro b hb
  simpa using List.all_eq_true.mp hall b hb

theorem authority_of_port (port : Nat) :
    ∀ b ∈ utf8 (toString port), 32 < b ∧ endsAuthority b = false := by
  intro b hb
  have hdigit := digit_of_mem_utf8_toString hb
  refine ⟨?_, ?_⟩
  · rw [UInt8.lt_iff_toNat_lt]
    show 32 < b.toNat
    omega
  · simp only [endsAuthority, isSeparator, Bool.or_eq_false_iff, decide_eq_false_iff_not]
    refine ⟨⟨⟨?_, ?_⟩, ?_⟩, ?_⟩ <;> rintro rfl <;> exact absurd hdigit (by decide)

theorem baseUrl_of_normalizeLoopbackUrl {parseUrl : String → Option Url} {value baseUrl : String}
    (h : normalizeLoopbackUrl parseUrl value = .ok baseUrl) : BaseUrl baseUrl := by
  unfold normalizeLoopbackUrl at h
  split at h
  · cases h
  · next url _ =>
      split at h
      · cases h
      · next hloopback =>
          simp only [not_or, not_not] at hloopback
          obtain ⟨hscheme, hhost, -⟩ := hloopback
          have hhost := authority_of_loopback hhost
          dsimp only at h
          split at h
          · obtain rfl := Except.ok.inj h
            refine ⟨utf8 (url.host.getD ""), ?_, hhost⟩
            show utf8 (url.scheme ++ "://" ++ url.host.getD "") = _
            rw [hscheme, utf8_append]
            rfl
          · next port _ =>
              obtain rfl := Except.ok.inj h
              refine ⟨utf8 (url.host.getD "") ++ (utf8 ":" ++ utf8 (toString port)), ?_, ?_⟩
              · show utf8 (url.scheme ++ "://" ++ url.host.getD "" ++ ":" ++ toString port) = _
                rw [hscheme]
                simp only [utf8_append, List.append_assoc]
                rfl
              · intro b hb
                simp only [List.mem_append] at hb
                rcases hb with hb | hb | hb
                · exact hhost b hb
                · obtain rfl := List.mem_singleton.mp (show b ∈ [58] from hb)
                  decide
                · exact authority_of_port port b hb

/-- What the constructor checks. -/
theorem Client.new_eq_ok {parseUrl : String → Option Url} {token : String}
    {baseUrl : Option String} {client : Client}
    (h : Client.new parseUrl token baseUrl = .ok client) :
    BaseUrl client.baseUrl ∧ utf8 tokenPrefix <+: utf8 client.token := by
  unfold Client.new at h
  split at h
  · cases h
  · next hstarts =>
      obtain ⟨rest, hrest⟩ := String.startsWith_string_iff.mp (not_not.mp hstarts)
      cases hnormal : normalizeLoopbackUrl parseUrl (baseUrl.getD "http://127.0.0.1:32191") with
      | error rejection =>
          rw [hnormal] at h
          cases h
      | ok normalized =>
          rw [hnormal] at h
          obtain rfl := Except.ok.inj h
          refine ⟨baseUrl_of_normalizeLoopbackUrl hnormal, rest.flatMap String.utf8EncodeChar, ?_⟩
          show utf8 "pl_live_" ++ _ = utf8 token
          unfold utf8
          rw [← List.flatMap_append, hrest]

/-! ## Identifiers as segments -/

theorem keepsInSegment_isUnescaped : KeepsInSegment isUnescaped := by
  have hall : ∀ k : Fin 256, isUnescaped (UInt8.ofNat k) = true → (UInt8.ofNat k).toNat < 128 ∧
      inPathSet (UInt8.ofNat k) = false ∧ isSeparator (UInt8.ofNat k) = false := by decide +kernel
  have hbyte : ∀ b, isUnescaped b = true →
      b.toNat < 128 ∧ inPathSet b = false ∧ isSeparator b = false := by
    intro b hb
    have hof : UInt8.ofNat b.toNat = b := by simp
    have h := hall ⟨b.toNat, b.toNat_lt⟩
    simp only [hof] at h
    exact h hb
  exact ⟨by decide, by decide, fun b hb => (hbyte b hb).1, fun b hb => (hbyte b hb).2⟩

/-- `encodeURIComponent` is percent-encoding. -/
theorem encodeURIComponent_eq (text : String) :
    encodeURIComponent text = ofAscii (percentEncode isUnescaped (utf8 text)) := by
  have hdigit : ∀ k : Fin 16, (Nat.digitChar k).toUpper =
      Char.ofNat (upperHexDigit (UInt8.ofNat k)).toNat := by decide
  unfold encodeURIComponent ofAscii percentEncode
  rw [List.map_flatMap]
  congr 2
  funext b
  have hlt : b.toNat < 256 := b.toNat_lt
  split
  · rfl
  · have hhigh : (UInt8.ofNat (b.toNat / 16)) = b / 16 := by
      apply UInt8.toNat_inj.mp
      rw [UInt8.toNat_div, UInt8.toNat_ofNat']
      show b.toNat / 16 % 256 = b.toNat / 16
      omega
    have hlow : (UInt8.ofNat (b.toNat % 16)) = b % 16 := by
      apply UInt8.toNat_inj.mp
      rw [UInt8.toNat_mod, UInt8.toNat_ofNat']
      show b.toNat % 16 % 256 = b.toNat % 16
      omega
    have hfirst := hdigit ⟨b.toNat / 16, by omega⟩
    have hsecond := hdigit ⟨b.toNat % 16, by omega⟩
    simp only [hhigh, hlow] at hfirst hsecond
    simp only [List.map_cons, List.map_nil, hfirst, hsecond]
    rfl

theorem utf8_encodeURIComponent (text : String) :
    utf8 (encodeURIComponent text) = percentEncode isUnescaped (utf8 text) := by
  rw [encodeURIComponent_eq, utf8_ofAscii fun b hb => (keepsInSegment_isUnescaped.bytes b hb).1]

/-- An identifier is read back from its segment. -/
theorem decodeSegment_encodeURIComponent (id : String) :
    decodeSegment (encodeURIComponent id) = some id := by
  rw [encodeURIComponent_eq]
  exact decodeSegment_percentEncode keepsInSegment_isUnescaped id

theorem encodeURIComponent_ne_empty {id : String} (h : id ≠ "") : encodeURIComponent id ≠ "" := by
  intro hempty
  have hdecode := decodeSegment_encodeURIComponent id
  rw [hempty] at hdecode
  have hnone : decodeSegment "" = some "" := fromUTF8?_utf8 ""
  exact h (Option.some.inj (hdecode.symm.trans hnone))

/-- The three identifiers that no segment of a path can hold. -/
def Unaddressable (id : String) : Prop := id = "" ∨ id = "." ∨ id = ".."

instance (id : String) : Decidable (Unaddressable id) := inferInstanceAs (Decidable (_ ∨ _))

section

variable {decoder : Utf8Decoder} {numberText : JsNumber → String} {t : Transfer}
  {baseUrl method : String} {headers : List (String × String)} {body : RequestBody}

/-- What is received at a path with a query. -/
theorem targetOf_baseUrl (hbase : BaseUrl baseUrl) {path : String}
    {segments : List (List UInt8)} {query : Option (List UInt8)}
    (hpath : utf8 path = joinSegments segments ++ markQuery query) (hne : segments ≠ [])
    (hsegments : ∀ s ∈ segments, ∀ b ∈ s, inPathSet b = false ∧ isSeparator b = false)
    (hquery : ∀ q, query = some q → ∀ b ∈ q, inQuerySet b = false) :
    (targetOf (baseUrl ++ path)).path = parsePath [] segments ∧
      (targetOf (baseUrl ++ path)).query = query := by
  obtain ⟨authority, hutf8, hauthority⟩ := hbase
  have hurl : utf8 (baseUrl ++ path) =
      utf8 "http://" ++ (authority ++ (joinSegments segments ++ markQuery query)) := by
    rw [utf8_append, hutf8, hpath, List.append_assoc]
  rw [targetOf_parts hurl hauthority hne hsegments hquery]
  exact ⟨rfl, rfl⟩

/-- The segments of the path of a job, and of what is behind it. -/
def jobSegments (id : String) (behind : List String) : List (List UInt8) :=
  utf8 "v1" :: utf8 "jobs" :: percentEncode isUnescaped (utf8 id) :: behind.map utf8

/-- What stands behind a job in a path. -/
def Behind (behind : List String) : Prop :=
  behind ∈ [[], ["document"], ["cancel"], ["retry"]]

theorem Behind.plain {behind : List String} (h : Behind behind) :
    ∀ s ∈ behind.map utf8, PlainSegment s := by
  have hall : ∀ s ∈ behind.map utf8, s ∈ [utf8 "document", utf8 "cancel", utf8 "retry"] := by
    simp only [Behind, List.mem_cons, List.not_mem_nil, or_false] at h
    rcases h with rfl | rfl | rfl | rfl <;> simp
  intro s hs
  have hs := hall s hs
  simp only [List.mem_cons, List.not_mem_nil, or_false] at hs
  rcases hs with rfl | rfl | rfl <;> decide

theorem received_jobPath (hbase : BaseUrl baseUrl) {id path : String} {behind : List String}
    (hbehind : Behind behind) (hpath : utf8 path = joinSegments (jobSegments id behind)) :
    (received decoder numberText t ⟨baseUrl ++ path, method, headers, body⟩).path =
      (parsePath [] (jobSegments id behind)).map ofAscii := by
  have hbytes : ∀ s ∈ jobSegments id behind, ∀ b ∈ s,
      inPathSet b = false ∧ isSeparator b = false := by
    intro s hs b hb
    simp only [jobSegments, List.mem_cons] at hs
    rcases hs with rfl | rfl | rfl | hs
    · exact (by decide : PlainSegment (utf8 "v1")).2.2 b hb
    · exact (by decide : PlainSegment (utf8 "jobs")).2.2 b hb
    · exact (keepsInSegment_isUnescaped.bytes b hb).2
    · exact (hbehind.plain s hs).2.2 b hb
  have hwritten : utf8 path = joinSegments (jobSegments id behind) ++ markQuery none := by
    rw [hpath, markQuery, List.append_nil]
  have htarget := targetOf_baseUrl hbase hwritten (List.cons_ne_nil _ _) hbytes
    (fun q hq => by cases hq)
  simp only [received, htarget.1]

/-- The path of a job that can be addressed. -/
theorem received_jobPath_of_addressable (hbase : BaseUrl baseUrl) {id path : String}
    {behind : List String} (hbehind : Behind behind)
    (hpath : utf8 path = joinSegments (jobSegments id behind)) (hid : ¬ Unaddressable id) :
    (received decoder numberText t ⟨baseUrl ++ path, method, headers, body⟩).path =
      "v1" :: "jobs" :: encodeURIComponent id :: behind := by
  simp only [Unaddressable, not_or] at hid
  have hplain : ∀ s ∈ jobSegments id behind, PlainSegment s := by
    intro s hs
    simp only [jobSegments, List.mem_cons] at hs
    rcases hs with rfl | rfl | rfl | hs
    · decide
    · decide
    · exact (plainSegment_percentEncode keepsInSegment_isUnescaped id).mpr hid.2
    · exact hbehind.plain s hs
  rw [received_jobPath hbase hbehind hpath, parsePath_plain hplain, List.nil_append, jobSegments,
    List.map_cons, List.map_cons, List.map_cons, List.map_map, ← encodeURIComponent_eq]
  have hmap : behind.map (ofAscii ∘ utf8) = behind := by
    simp only [Behind, List.mem_cons, List.not_mem_nil, or_false] at hbehind
    rcases hbehind with rfl | rfl | rfl | rfl <;> decide
  rw [hmap]
  rfl

end

end Sdk

end PrintLatch
