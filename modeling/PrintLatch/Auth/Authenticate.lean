/-
  PrintLatch.Auth.Authenticate

  `authenticate` (`src/auth.rs`), and exactly when it accepts what the security
  model documents.

  `Documented` is the documented rule, over the bytes of the headers.  The code
  reads headers as text, and a value that is not text counts as absent, so the
  two differ on undecodable values; `DecodableEnough` names those that matter.
-/

import PrintLatch.Auth.Headers
import PrintLatch.Db.Clients
import PrintLatch.Error
import Mathlib.Data.List.Infix

namespace PrintLatch

open Text

/-- `TOKEN_PREFIX`. -/
def tokenPrefix : String := "pl_live_"

section

variable (sha256Hex : List UInt8 → String)

/-- The token of the first `Authorization` value: what follows `Bearer `, when
    it begins with the token prefix. -/
def bearerToken (value : List UInt8) : Option (List UInt8) :=
  (value.dropPrefix? (utf8 "Bearer ")).filter fun token => (utf8 tokenPrefix).isPrefixOf token

/-- `is_same_origin_loopback_dashboard`. -/
def isSameOriginLoopbackDashboard (expected : String) (headers : HeaderMap) : Bool :=
  match (headers.get "host").bind toStr with
  | none => false
  | some host =>
      ((headers.get "sec-fetch-site").bind toStr).any
          (fun value => eqIgnoreAsciiCase value (utf8 "same-origin")) &&
        utf8 expected = toAsciiLowercase (utf8 "http://" ++ host)

/-- The origin check of `authenticate` for the client of the token. -/
def allowsOrigin (client : AuthenticatedClient) (headers : HeaderMap) : Bool :=
  match client.kind, client.origin, (headers.get "origin").bind toStr with
  | .browser, some expected, some actual => utf8 expected = actual
  | .browser, some expected, none => isSameOriginLoopbackDashboard expected headers
  | .browser, none, _ => false
  | .localProcess, _, some _ => false
  | .localProcess, _, none => true

/-- `authenticate` at time `now`. -/
def authenticate (db : Database) (headers : HeaderMap) (now : Int) :
    Except AppError AuthenticatedClient :=
  match ((headers.get "authorization").bind toStr).bind bearerToken with
  | none => .error .unauthorized
  | some value =>
      match db.findClientByTokenHash (sha256Hex value) now with
      | none => .error .unauthorized
      | some client => if allowsOrigin client headers then .ok client else .error .forbidden

/-! ## The documented rule -/

/-- The documented fallback for browser clients without an `Origin`. -/
def sameOriginDashboard (stored : String) (headers : HeaderMap) : Prop :=
  (∃ site, headers.get "sec-fetch-site" = some site ∧
    eqIgnoreAsciiCase site (utf8 "same-origin")) ∧
  ∃ host, headers.get "host" = some host ∧
    utf8 "http://" ++ toAsciiLowercase host = utf8 stored

/-- The documented origin rule: a local client sends no `Origin`; a browser
    client sends its own, or none in a same-origin fetch of its own dashboard. -/
def documentedOrigin (client : AuthenticatedClient) (headers : HeaderMap) : Prop :=
  match client.kind, client.origin, headers.get "origin" with
  | .browser, some stored, some actual => utf8 stored = actual
  | .browser, some stored, none => sameOriginDashboard stored headers
  | .browser, none, _ => False
  | .localProcess, _, some _ => False
  | .localProcess, _, none => True

/-- The documented rule: the first `Authorization` value is `Bearer ` and a token
    whose digest is a live client's, and the origin rule holds for the client. -/
def Documented (db : Database) (headers : HeaderMap) (now : Int)
    (client : AuthenticatedClient) : Prop :=
  ∃ token, headers.get "authorization" = some (utf8 "Bearer " ++ token) ∧
    utf8 tokenPrefix <+: token ∧
    (∃ r ∈ db.clients.rows, r.tokenHash = sha256Hex token ∧ r.revokedAt = none ∧
      now ≤ r.expiresAt ∧ clientFromRow r = client) ∧
    documentedOrigin client headers

/-- No undecodable `Origin` or `Host` decides about the client:
    * an undecodable `Origin` comes from a browser client for which the fallback
      gives the same answer as the comparison with the stored origin;
    * without an `Origin`, an undecodable `Host` is not the one the fallback
      asks for. -/
def OriginDecodableEnough (client : AuthenticatedClient) (headers : HeaderMap) : Prop :=
  (∀ origin, headers.get "origin" = some origin → toStr origin = none →
    client.kind = .browser ∧ ∀ stored, client.origin = some stored →
      (isSameOriginLoopbackDashboard stored headers = true ↔ utf8 stored = origin)) ∧
  (headers.get "origin" = none → client.kind = .browser →
    ∀ host stored, headers.get "host" = some host → toStr host = none →
      client.origin = some stored → ¬ sameOriginDashboard stored headers)

/-- No undecodable header value decides about the client of the token: with an
    undecodable `Authorization` the origin rule refuses the client anyway, with a
    decodable one the other two headers are decodable enough. -/
def DecodableEnough (db : Database) (headers : HeaderMap) (now : Int) : Prop :=
  ∀ value token client, headers.get "authorization" = some value →
    bearerToken value = some token →
    db.findClientByTokenHash (sha256Hex token) now = some client →
    if toStr value = none then ¬ documentedOrigin client headers
    else OriginDecodableEnough client headers

/-! ## What the code accepts -/

theorem bearerToken_eq_some {value token : List UInt8} :
    bearerToken value = some token ↔
      value = utf8 "Bearer " ++ token ∧ utf8 tokenPrefix <+: token := by
  simp [bearerToken, Option.filter_eq_some_iff, List.dropPrefix?_eq_some_iff]

/-- `authenticate` accepts a client exactly when the decoded headers name its
    live token and pass the origin check. -/
theorem authenticate_eq_ok {db : Database} {headers : HeaderMap} {now : Int}
    {client : AuthenticatedClient} :
    authenticate sha256Hex db headers now = .ok client ↔
      ∃ value token, headers.get "authorization" = some value ∧ toStr value = some value ∧
        bearerToken value = some token ∧
        db.findClientByTokenHash (sha256Hex token) now = some client ∧
        allowsOrigin client headers = true := by
  unfold authenticate
  constructor
  · intro h
    split at h
    · cases h
    · next token htoken =>
        obtain ⟨text, htext, hbearer⟩ := Option.bind_eq_some_iff.mp htoken
        obtain ⟨value, hvalue, hdecode⟩ := Option.bind_eq_some_iff.mp htext
        obtain rfl := toStr_eq_some hdecode
        split at h
        · cases h
        · next found hfound =>
            split at h
            · next hallows =>
                cases h
                exact ⟨text, token, hvalue, hdecode, hbearer, hfound, hallows⟩
            · cases h
  · rintro ⟨value, token, hvalue, hdecode, hbearer, hfound, hallows⟩
    simp only [hvalue, Option.bind_some, hdecode, hbearer, hfound, hallows, if_true]

/-- The documented rule, with the token's client looked up as the code does. -/
theorem documented_iff {db : Database} {headers : HeaderMap} {now : Int}
    {client : AuthenticatedClient} :
    Documented sha256Hex db headers now client ↔
      ∃ value token, headers.get "authorization" = some value ∧
        bearerToken value = some token ∧
        db.findClientByTokenHash (sha256Hex token) now = some client ∧
        documentedOrigin client headers := by
  constructor
  · rintro ⟨token, hvalue, hprefix, ⟨r, hmem, hhash, hlive, hnow, hclient⟩, horigin⟩
    exact ⟨_, token, hvalue, bearerToken_eq_some.mpr ⟨rfl, hprefix⟩,
      Database.findClientByTokenHash_eq_some.mpr ⟨r, hmem, hhash, hnow, hlive, hclient⟩, horigin⟩
  · rintro ⟨value, token, hvalue, hbearer, hfound, horigin⟩
    obtain ⟨rfl, hprefix⟩ := bearerToken_eq_some.mp hbearer
    obtain ⟨r, hmem, hhash, hnow, hlive, hclient⟩ :=
      Database.findClientByTokenHash_eq_some.mp hfound
    exact ⟨token, hvalue, hprefix, ⟨r, hmem, hhash, hlive, hnow, hclient⟩, horigin⟩

end

/-- A `Sec-Fetch-Site` that names the same origin is text. -/
theorem any_sameOrigin_iff (headers : HeaderMap) :
    ((headers.get "sec-fetch-site").bind toStr).any
        (fun value => eqIgnoreAsciiCase value (utf8 "same-origin")) = true ↔
      ∃ site, headers.get "sec-fetch-site" = some site ∧
        eqIgnoreAsciiCase site (utf8 "same-origin") = true := by
  cases hsite : headers.get "sec-fetch-site" with
  | none => simp
  | some site =>
      -- lower-casing keeps what is not text, and `same-origin` is text
      rcases toStr_cases site with hdecode | hdecode
      · simp [hdecode]
      · have hne : eqIgnoreAsciiCase site (utf8 "same-origin") ≠ true := by
          intro heq
          have hlower : toAsciiLowercase site = toAsciiLowercase (utf8 "same-origin") := by
            simpa [eqIgnoreAsciiCase] using heq
          have hsome := toStr_toAsciiLowercase site
          rw [hlower, hdecode] at hsome
          revert hsome
          decide
        simp [hdecode, hne]

/-- The fallback is the documented one, when the `Host` can be read. -/
theorem isSameOrigin_iff {stored : String} {headers : HeaderMap}
    (hhost : ∀ host, headers.get "host" = some host → toStr host = some host) :
    isSameOriginLoopbackDashboard stored headers = true ↔ sameOriginDashboard stored headers := by
  unfold isSameOriginLoopbackDashboard sameOriginDashboard
  rw [← any_sameOrigin_iff]
  have hlower : ∀ host, toAsciiLowercase (utf8 "http://" ++ host) =
      utf8 "http://" ++ toAsciiLowercase host := by
    intro host
    rw [toAsciiLowercase, List.map_append]
    congr 1
  cases hget : headers.get "host" with
  | none => simp
  | some host =>
      simp only [Option.bind_some, hhost host hget, hlower, Bool.and_eq_true, decide_eq_true_eq,
        Option.some.injEq, exists_eq_left']
      exact and_congr_right fun _ => eq_comm

theorem isSameOrigin_eq_false {stored : String} {headers : HeaderMap} {host : List UInt8}
    (hget : headers.get "host" = some host) (hdecode : toStr host = none) :
    isSameOriginLoopbackDashboard stored headers = false := by
  simp [isSameOriginLoopbackDashboard, hget, hdecode]

/-- The code and the documented origin rule agree on a client exactly when no
    undecodable header value decides about it. -/
theorem allowsOrigin_iff (client : AuthenticatedClient) (headers : HeaderMap) :
    (allowsOrigin client headers = true ↔ documentedOrigin client headers) ↔
      OriginDecodableEnough client headers := by
  obtain ⟨id, name, kind, stored⟩ := client
  unfold allowsOrigin documentedOrigin OriginDecodableEnough
  cases horigin : headers.get "origin" with
  | some origin =>
      -- a decodable value is compared by its bytes on both sides
      rcases toStr_cases origin with hdecode | hdecode
      · cases kind <;> cases stored <;> simp [hdecode]
      · cases kind <;> cases stored <;> simp [hdecode]
  | none =>
      cases kind with
      | localProcess => cases stored <;> simp
      | browser =>
          cases stored with
          | none => simp
          | some stored =>
              -- without an `Origin` only the `Host` can still be unreadable
              cases hhost : headers.get "host" with
              | none =>
                  have hread : ∀ host, headers.get "host" = some host → toStr host = some host := by
                    simp [hhost]
                  simp [isSameOrigin_iff hread]
              | some host =>
                  rcases toStr_cases host with hdecode | hdecode
                  · have hread : ∀ host, headers.get "host" = some host →
                        toStr host = some host := by
                      simp [hhost, hdecode]
                    simp [isSameOrigin_iff hread, hdecode]
                  · simp [isSameOrigin_eq_false hhost hdecode, hdecode]

/-- **`authenticate` accepts the documented requests**, exactly when no
    undecodable header value decides about the client of the token. -/
theorem authenticate_documented_iff (sha256Hex : List UInt8 → String) (db : Database)
    (headers : HeaderMap) (now : Int) :
    (∀ client, authenticate sha256Hex db headers now = .ok client ↔
      Documented sha256Hex db headers now client) ↔
    DecodableEnough sha256Hex db headers now := by
  constructor
  · intro h value token client hvalue hbearer hfound
    -- the headers name one token, so both sides speak about this client
    have hsame : ∀ value' token', headers.get "authorization" = some value' →
        bearerToken value' = some token' → value' = value ∧ token' = token := by
      intro value' token' hvalue' hbearer'
      obtain rfl : value = value' := Option.some.inj (hvalue.symm.trans hvalue')
      exact ⟨rfl, Option.some.inj (hbearer'.symm.trans hbearer)⟩
    have hdocumented : documentedOrigin client headers →
        authenticate sha256Hex db headers now = .ok client := fun horigin =>
      (h client).mpr ((documented_iff sha256Hex).mpr
        ⟨value, token, hvalue, hbearer, hfound, horigin⟩)
    -- the code rejects an undecodable `Authorization`, the documented rule does not
    rcases toStr_cases value with hdecode | hdecode
    · rw [hdecode, if_neg (by simp), ← allowsOrigin_iff]
      constructor
      · intro hallows
        obtain ⟨_, _, _, _, _, horigin⟩ := (documented_iff sha256Hex).mp ((h client).mp
          ((authenticate_eq_ok sha256Hex).mpr
            ⟨value, token, hvalue, hdecode, hbearer, hfound, hallows⟩))
        exact horigin
      · intro horigin
        obtain ⟨_, _, _, _, _, _, hallows⟩ := (authenticate_eq_ok sha256Hex).mp
          (hdocumented horigin)
        exact hallows
    · rw [if_pos hdecode]
      intro horigin
      obtain ⟨value', token', hvalue', hdecode', hbearer', -, -⟩ :=
        (authenticate_eq_ok sha256Hex).mp (hdocumented horigin)
      obtain ⟨rfl, -⟩ := hsame value' token' hvalue' hbearer'
      rw [hdecode] at hdecode'
      cases hdecode'
  · intro h client
    rw [authenticate_eq_ok, documented_iff]
    constructor
    · rintro ⟨value, token, hvalue, hdecode, hbearer, hfound, hallows⟩
      have henough := h value token client hvalue hbearer hfound
      rw [hdecode, if_neg (by simp)] at henough
      exact ⟨value, token, hvalue, hbearer, hfound,
        ((allowsOrigin_iff client headers).mpr henough).mp hallows⟩
    · rintro ⟨value, token, hvalue, hbearer, hfound, horigin⟩
      have henough := h value token client hvalue hbearer hfound
      rcases toStr_cases value with hdecode | hdecode
      · rw [hdecode, if_neg (by simp)] at henough
        exact ⟨value, token, hvalue, hdecode, hbearer, hfound,
          ((allowsOrigin_iff client headers).mpr henough).mpr horigin⟩
      · rw [if_pos hdecode] at henough
        exact absurd horigin henough

/-- The SHA-256 digest of the example token. -/
def exampleTokenDigest (bytes : List UInt8) : String :=
  if bytes = utf8 "pl_live_demo" then
    "46260ef41989ec83a4f779b4f7ca75f9220fefd82f7673954faedab0476a1bda"
  else ""

/-- The token of the local example client, with an `Origin` that is not text. -/
def exampleOriginHeaders : HeaderMap :=
  [("authorization", utf8 "Bearer pl_live_demo"), ("origin", [0xE9])]

/-- A local token is accepted in a request that carries an `Origin`. -/
theorem authenticate_undecodable_origin :
    authenticate exampleTokenDigest exampleDatabase exampleOriginHeaders 0 =
        .ok (clientFromRow exampleClient) ∧
      ¬ Documented exampleTokenDigest exampleDatabase exampleOriginHeaders 0
        (clientFromRow exampleClient) := by
  refine ⟨rfl, ?_⟩
  rintro ⟨-, -, -, -, horigin⟩
  exact horigin

end PrintLatch
