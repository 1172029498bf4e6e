/-
  PrintLatch.Dashboard.Browser

  The dashboard in a browser: `dashboard` (`src/main.rs`), `valid_host` and the redemption
  (`src/api.rs`), and `is_same_origin_loopback_dashboard` (`src/auth.rs`), on every port.

  The command grants a code for `http://127.0.0.1:<port>`.  A browser writes the same
  origin by the URL standard, without the port where it is the default of the scheme, and
  so does `normalize_origin`; `valid_host` asks for the port always.
-/

import PrintLatch.Auth.Agreement

namespace PrintLatch

open Reactive Text

/-! ## What a browser sends -/

/-- The origin that `dashboard` grants a code for. -/
def dashboardOrigin (port : Nat) : String := s!"http://127.0.0.1:{port}"

/-- The port of a URL with scheme `http`, when it is not the scheme's default. -/
def browserPort (port : Nat) : Option Nat := if port = 80 then none else some port

/-- The `Host` of a request to the dashboard. -/
def browserHost (port : Nat) : String :=
  match browserPort port with
  | none => "127.0.0.1"
  | some port => s!"127.0.0.1:{port}"

/-- The `Origin` of the dashboard. -/
def browserOrigin (port : Nat) : String := "http://" ++ browserHost port

/-- What the `url` crate makes of the dashboard's origin. -/
def dashboardUrl (port : Nat) : Url :=
  ⟨"http", "", none, some "127.0.0.1", browserPort port, "/", none, none⟩

/-- A request that the browser sends to the dashboard's agent. -/
def FromBrowser (port : Nat) (headers : HeaderMap) : Prop :=
  headers.get "host" = some (utf8 (browserHost port))

/-- Its `Origin` is the dashboard's. -/
def WithOrigin (port : Nat) (headers : HeaderMap) : Prop :=
  headers.get "origin" = some (utf8 (browserOrigin port))

/-- It has no `Origin`, as a same-origin `GET`. -/
def SameOriginGet (headers : HeaderMap) : Prop :=
  headers.get "origin" = none ∧ headers.get "sec-fetch-site" = some (utf8 "same-origin")

theorem originText_browserPort (port : Nat) :
    originText "http" "127.0.0.1" (browserPort port) = browserOrigin port := by
  unfold browserOrigin browserHost
  cases browserPort port with
  | none => rfl
  | some port =>
      show "http" ++ "://" ++ "127.0.0.1" ++ ":" ++ toString port =
        "http://" ++ ("127.0.0.1" ++ ":" ++ toString port)
      simp only [String.append_assoc]
      rfl

/-- The dashboard's origin, normalized, is the browser's. -/
theorem normalizeOrigin_dashboardOrigin {parse : String → Option Url} {port : Nat}
    (h : parse (dashboardOrigin port) = some (dashboardUrl port)) :
    normalizeOrigin parse (dashboardOrigin port) = .ok (browserOrigin port) := by
  rw [normalizeOrigin_eq_ok]
  exact ⟨dashboardUrl port, "127.0.0.1", h,
    ⟨rfl, rfl, rfl, rfl, rfl, rfl, Or.inr ⟨rfl, by decide⟩⟩, (originText_browserPort port).symm⟩

/-! ## The texts of the host -/

/-- A byte of the host: a digit, a dot or a colon. -/
theorem byte_of_browserHost {port : Nat} {b : UInt8} (h : b ∈ utf8 (browserHost port)) :
    46 ≤ b.toNat ∧ b.toNat ≤ 58 := by
  have hall : ∀ {bs : List UInt8},
      bs.all (fun b => decide (46 ≤ b.toNat ∧ b.toNat ≤ 58)) = true →
        ∀ b ∈ bs, 46 ≤ b.toNat ∧ b.toNat ≤ 58 :=
    fun h b hb => of_decide_eq_true (List.all_eq_true.mp h b hb)
  have haddress : ∀ b ∈ utf8 "127.0.0.1", 46 ≤ b.toNat ∧ b.toNat ≤ 58 := hall (by decide)
  have hcolon : ∀ b ∈ utf8 ":", 46 ≤ b.toNat ∧ b.toNat ≤ 58 := hall (by decide)
  unfold browserHost at h
  cases hport : browserPort port with
  | none =>
      rw [hport] at h
      exact haddress b h
  | some port =>
      rw [hport] at h
      have h : b ∈ utf8 ("127.0.0.1" ++ ":" ++ toString port) := h
      rw [utf8_append, utf8_append, List.mem_append, List.mem_append] at h
      rcases h with (h | h) | h
      · exact haddress b h
      · exact hcolon b h
      · have := digit_of_mem_utf8_toString h
        omega

theorem visible_browserHost (port : Nat) :
    ∀ b ∈ utf8 (browserHost port), visibleAscii b = true := by
  intro b hb
  have hbyte := byte_of_browserHost hb
  simp only [visibleAscii, UInt8.le_iff_toNat_le, UInt8.lt_iff_toNat_lt, decide_eq_true_eq]
  left
  show 32 ≤ b.toNat ∧ b.toNat < 127
  omega

theorem visible_browserOrigin (port : Nat) :
    ∀ b ∈ utf8 (browserOrigin port), visibleAscii b = true := by
  have hscheme : ∀ b ∈ utf8 "http://", visibleAscii b = true := visible_of_all (by decide)
  intro b hb
  rw [browserOrigin, utf8_append] at hb
  exact (List.mem_append.mp hb).elim (hscheme b) (visible_browserHost port b)

/-- The origin has no capitals. -/
theorem lower_browserOrigin (port : Nat) :
    toAsciiLowercase (utf8 "http://" ++ utf8 (browserHost port)) = utf8 (browserOrigin port) := by
  have hscheme : (utf8 "http://").map lowerByte = utf8 "http://" := by decide
  have hhost : (utf8 (browserHost port)).map lowerByte = utf8 (browserHost port) := by
    conv_rhs => rw [← List.map_id (utf8 (browserHost port))]
    refine List.map_congr_left fun b hb => ?_
    have hbyte := byte_of_browserHost hb
    unfold lowerByte
    rw [if_neg]
    · rfl
    · rw [UInt8.le_iff_toNat_le]
      have h65 : (65 : UInt8).toNat = 65 := rfl
      omega
  rw [toAsciiLowercase, List.map_append, hscheme, hhost, browserOrigin, utf8_append]

/-- **`valid_host` takes the browser's `Host` on every port but the default one.** -/
theorem validHost_browser_iff {port : Nat} {headers : HeaderMap} (h : FromBrowser port headers) :
    Api.validHost headers port = true ↔ port ≠ 80 := by
  have hread : (headers.get "host").bind toStr = some (utf8 (browserHost port)) := by
    rw [h]
    exact toStr_of_visible (visible_browserHost port)
  unfold Api.validHost
  simp only [hread]
  by_cases hport : port = 80
  · subst hport
    decide
  · -- on any other port, the browser writes what is compared with
    have hhost : browserHost port = s!"127.0.0.1:{port}" := by
      simp [browserHost, browserPort, hport]
    simp [hhost, eqIgnoreAsciiCase, hport]

/-- The browser's requests are allowed, with its `Origin` or by the fallback. -/
theorem allowsOrigin_browser {port : Nat} {headers : HeaderMap}
    (hbrowser : FromBrowser port headers)
    (hsent : WithOrigin port headers ∨ SameOriginGet headers) {client : AuthenticatedClient}
    (hkind : client.kind = .browser) (horigin : client.origin = some (browserOrigin port)) :
    allowsOrigin client headers = true := by
  rcases hsent with hsent | ⟨hnone, hsite⟩
  · have hread : (headers.get "origin").bind toStr = some (utf8 (browserOrigin port)) := by
      rw [hsent]
      exact toStr_of_visible (visible_browserOrigin port)
    simp [allowsOrigin, hkind, horigin, hread]
  · -- the fallback compares the stored origin with the `Host`, as the browser writes both
    have hread : (headers.get "host").bind toStr = some (utf8 (browserHost port)) := by
      rw [hbrowser]
      exact toStr_of_visible (visible_browserHost port)
    have hsame : ((headers.get "sec-fetch-site").bind toStr).any
        (fun value => eqIgnoreAsciiCase value (utf8 "same-origin")) = true := by
      rw [hsite]
      decide
    simp only [allowsOrigin, hkind, horigin, hnone, Option.bind_none,
      isSameOriginLoopbackDashboard, hread, hsame, lower_browserOrigin, Bool.true_and,
      decide_true]

/-! ## The dashboard's requests -/

/-- The grant of `dashboard`. -/
def dashboardGrant (config : AppConfig) (session : String) (bytes : List UInt8)
    (clock now : Int) (fails : Bool) : CredentialInput :=
  .dashboardGrant (dashboardOrigin config.port) "PrintLatch dashboard" session bytes clock now fails

/-- What the URL standard says of the two spellings of the dashboard's origin. -/
def ParsesDashboard (parse : String → Option Url) (port : Nat) : Prop :=
  parse (dashboardOrigin port) = some (dashboardUrl port) ∧
    parse (browserOrigin port) = some (dashboardUrl port)

section

variable (parse : String → Option Url) (sha256Hex : List UInt8 → String)

/-- The requests of the dashboard pass, after a grant of `code` for a session that left the
    state `s`:
    * their `Host` is valid;
    * the code is redeemed with the browser's `Origin`, in time, until it is redeemed;
    * from then on a same-origin `GET` and a request with the browser's `Origin` are
      authenticated, until the token expires, is rotated or its client is revoked. -/
structure DashboardPasses (config : AppConfig) (session : String) (s : Credentials) (code : String)
    (e : Int) : Prop where
  host : ∀ headers, FromBrowser config.port headers → Api.validHost headers config.port = true
  redeemed : ∀ mid, AllLeaveCode parse sha256Hex s code e mid →
    let later := run (credentialStep parse sha256Hex) s mid
    ∀ headers, FromBrowser config.port headers → WithOrigin config.port headers →
      ∃ origin, Api.requestOrigin headers = .ok origin ∧
        ∀ attempt t, later.pending attempt = none → t ≤ e →
          .redeemed code ∈ (credentialStep parse sha256Hex later
            (.redeem attempt code origin session t false)).2
  authenticated : ∀ mid headers origin attempt t fails,
    FromBrowser config.port headers → WithOrigin config.port headers →
    Api.requestOrigin headers = .ok origin →
    let later := run (credentialStep parse sha256Hex) s mid
    let redeem := .redeem attempt code origin session t fails
    .redeemed code ∈ (credentialStep parse sha256Hex later redeem).2 →
    ∀ mid', (∀ j ∈ mid', j.finishes? ≠ some attempt) →
    ∀ secret candidateId clock now fails' c token clock' e',
      (∀ b ∈ utf8 secret, visibleAscii b = true) →
      let before := run (credentialStep parse sha256Hex)
        (credentialStep parse sha256Hex later redeem).1 mid'
      let issue := .issue attempt secret candidateId clock now fails'
      .issued (some code) c token clock' e' ∈ (credentialStep parse sha256Hex before issue).2 →
      ∀ more,
        let after := (credentialStep parse sha256Hex before issue).1
        lastIssued c (trace (credentialStep parse sha256Hex) after more) = none →
        .revoked c ∉ trace (credentialStep parse sha256Hex) after more →
        ∀ headers time, FromBrowser config.port headers →
          WithOrigin config.port headers ∨ SameOriginGet headers → Carries headers token →
          time ≤ e' → ∃ client, authenticate sha256Hex
            (run (credentialStep parse sha256Hex) after more).db headers time = .ok client ∧
              client.id = c

end

/-- **The dashboard works exactly on the ports other than 80.**  For every configuration that
    `AppConfig::resolve` accepts and every grant of `dashboard`, in any state, the requests
    of the browser pass if and only if the port is not the default of `http`. -/
theorem dashboard_passes_iff (parse : String → Option Url) (sha256Hex : List UInt8 → String)
    (defaultDataDir : Except String String) (dataDir : Option String) (port : Option UInt16)
    (config : AppConfig) (session : String) (s : Credentials) (bytes : List UInt8)
    (clock now : Int) (fails : Bool) (code origin : String) (e : Int) (bound : Option String) :
    AppConfig.resolve defaultDataDir dataDir port = .ok config →
    ParsesDashboard parse config.port →
    let step := credentialStep parse sha256Hex
    let grant := dashboardGrant config session bytes clock now fails
    .granted code origin e bound ∈ (step s grant).2 →
    (DashboardPasses parse sha256Hex config session (step s grant).1 code e ↔
      config.port ≠ 80) := by
  intro _ hparses step grant hgranted
  have hnormal := normalizeOrigin_dashboardOrigin hparses.1
  have hself : normalizeOrigin parse (browserOrigin config.port) =
      .ok (browserOrigin config.port) := by
    rw [normalizeOrigin_eq_ok]
    exact ⟨dashboardUrl config.port, "127.0.0.1", hparses.2,
      ⟨rfl, rfl, rfl, rfl, rfl, rfl, Or.inr ⟨rfl, by decide⟩⟩,
      (originText_browserPort config.port).symm⟩
  have hvisible := visible_browserOrigin config.port
  have horigin : normalizeOrigin parse (dashboardOrigin config.port) = .ok origin :=
    origin_of_granted parse sha256Hex rfl hgranted
  obtain rfl : browserOrigin config.port = origin := Except.ok.inj (hnormal.symm.trans horigin)
  constructor
  · -- the browser's `Host` alone decides
    intro hpasses
    have hbrowser : FromBrowser config.port [("host", utf8 (browserHost config.port))] := rfl
    exact (validHost_browser_iff hbrowser).mp (hpasses.host _ hbrowser)
  · intro hport
    refine ⟨fun headers hbrowser => (validHost_browser_iff hbrowser).mpr hport, ?_, ?_⟩
    · intro mid hmid later headers hbrowser hsent
      have hbound : bound = some session := session_of_granted parse sha256Hex hgranted
      obtain ⟨r, hrow⟩ := grantedRow_of_granted parse sha256Hex hgranted
      have hkept := hrow.run parse sha256Hex mid hmid
      exact ⟨_, Api.requestOrigin_of_visible hsent hvisible, fun attempt t hfree ht =>
        hkept.redeemed parse sha256Hex hself hfree (Or.inr hbound) ht⟩
    · intro mid headers origin attempt t fails' hbrowser hsent hrequest later redeem hredeemed mid'
        hmid' secret candidateId clock' now' fails'' c token clock'' e' hsecret before issue hissued
        more after hunrotated hunrevoked headers' time hbrowser' hsent' hcarries htime
      obtain rfl : browserOrigin config.port = origin :=
        Except.ok.inj ((Api.requestOrigin_of_visible hsent hvisible).symm.trans hrequest)
      obtain ⟨rfl, r, hrow, hrowBrowser⟩ :=
        browserRow_of_redeemed parse sha256Hex hself hredeemed mid' hmid' hissued
      have hkept := client?_of_run parse sha256Hex hrow more hunrotated hunrevoked
      have hallows : allowsOrigin (clientFromRow r) headers' = true :=
        allowsOrigin_browser hbrowser' hsent' hrowBrowser.kind hrowBrowser.origin
      exact hrowBrowser.authenticated sha256Hex hkept hsecret hcarries hallows htime

/-! ## The default port, and another one -/

/-- The `url` crate on the two spellings. -/
def dashboardParse (port : Nat) (value : String) : Option Url :=
  if value = dashboardOrigin port ∨ value = browserOrigin port then some (dashboardUrl port)
  else none

theorem dashboardParse_parses (port : Nat) : ParsesDashboard (dashboardParse port) port :=
  ⟨if_pos (Or.inl rfl), if_pos (Or.inr rfl)⟩

/-- An agent on port 80: the command grants a code, and the browser's `Host` is refused. -/
theorem default_port_refused :
    let step := credentialStep (dashboardParse 80) exampleDigests
    let config : AppConfig := ⟨"/home/user/printlatch", 80⟩
    let grant := dashboardGrant config exampleSession exampleCodeBytes 0 0 false
    AppConfig.resolve (.ok "/home/user/printlatch") none (some 80) = .ok config ∧
      ParsesDashboard (dashboardParse 80) config.port ∧
      (step (.ofDatabase .fresh) grant).2 =
        [.granted exampleCode "http://127.0.0.1" 300 (some exampleSession)] ∧
      FromBrowser config.port [("host", utf8 "127.0.0.1")] ∧
      Api.validHost [("host", utf8 "127.0.0.1")] config.port = false ∧
      ¬ DashboardPasses (dashboardParse 80) exampleDigests config exampleSession
        (step (.ofDatabase .fresh) grant).1 exampleCode 300 := by
  refine ⟨rfl, dashboardParse_parses 80, by decide, rfl, by decide, fun hpasses => ?_⟩
  have hvalid := hpasses.host [("host", utf8 "127.0.0.1")] rfl
  revert hvalid
  decide

theorem dashboard_passes_iff_of_default :
    DashboardPasses (dashboardParse 32191) exampleDigests ⟨"/home/user/printlatch", 32191⟩
      exampleSession (credentialStep (dashboardParse 32191) exampleDigests (.ofDatabase .fresh)
        (dashboardGrant ⟨"/home/user/printlatch", 32191⟩ exampleSession exampleCodeBytes 0 0
          false)).1 exampleCode 300 :=
  (dashboard_passes_iff (dashboardParse 32191) exampleDigests (.ok "/home/user/printlatch") none
    none ⟨"/home/user/printlatch", 32191⟩ exampleSession (.ofDatabase .fresh) exampleCodeBytes 0 0
    false exampleCode "http://127.0.0.1:32191" 300 (some exampleSession) rfl
    (dashboardParse_parses 32191) (by decide)).mpr (by decide)

end PrintLatch
