/-
  PrintLatch.Dashboard.Connection

  The socket between `printlatch dashboard` and the listener it checks (`src/main.rs`,
  `verify_dashboard_agent`).

  The response comes in reads of any size, and the listener may be anybody's.
  `readResponse` is the loop over the reads.  It comes to what the check of the whole
  response says, however it is cut, and ends whatever the listener sends
  (`verifyConnection_eq`).  The request that is sent is one that the router of an agent on
  that port answers with its identity (`agent_verified`).
-/

import PrintLatch.Api.CrossOrigin
import PrintLatch.Dashboard.Browser
import PrintLatch.Dashboard.HonestAgent

namespace PrintLatch

open Reactive Text

/-! ## The loop -/

/-- The loop over `stream.read`: each read is the bytes that have come, none of them at the
    end of the stream, or an error; a listener that sends nothing more is one too. -/
def readResponse (response : List UInt8) : List (Option (List UInt8)) → Except String (List UInt8)
  | [] | none :: _ => .error "could not verify the PrintLatch agent"
  | some chunk :: reads =>
      if chunk = [] then .ok response
      else if (response ++ chunk).length ≤ 8 * 1024 then readResponse (response ++ chunk) reads
      else .error "listener response was too large to be PrintLatch"

/-- What has arrived before the stream ends, and whether it ends without an error. -/
def arrived : List (Option (List UInt8)) → List UInt8 × Bool
  | [] | none :: _ => ([], false)
  | some chunk :: reads =>
      if chunk = [] then ([], true) else (chunk ++ (arrived reads).1, (arrived reads).2)

/-- The loop reads what arrives, up to its limit. -/
theorem readResponse_eq (reads : List (Option (List UInt8))) {response : List UInt8}
    (hfits : response.length ≤ 8 * 1024) :
    readResponse response reads =
      if 8 * 1024 < (response ++ (arrived reads).1).length then
        .error "listener response was too large to be PrintLatch"
      else if (arrived reads).2 then .ok (response ++ (arrived reads).1)
      else .error "could not verify the PrintLatch agent" := by
  induction reads generalizing response with
  | nil => simp [readResponse, arrived, hfits]
  | cons read reads ih =>
      cases read with
      | none => simp [readResponse, arrived, hfits]
      | some chunk =>
          by_cases hend : chunk = []
          · simp [readResponse, arrived, hend, hfits]
          · by_cases hmore : (response ++ chunk).length ≤ 8 * 1024
            · simp only [readResponse, arrived, if_neg hend, if_pos hmore, ih hmore,
                List.append_assoc]
            · -- the limit is passed, whatever comes behind
              have hover : 8 * 1024 < (response ++ (chunk ++ (arrived reads).1)).length := by
                simp only [List.length_append] at hmore ⊢
                omega
              simp only [readResponse, arrived, if_neg hend, if_neg hmore, if_pos hover]

/-- Each read brings the loop nearer to its limit, so it reads no further than this. -/
theorem readResponse_take (n : Nat) (reads : List (Option (List UInt8))) {response : List UInt8}
    (hfits : response.length ≤ 8 * 1024) (hn : 8 * 1024 < response.length + n) :
    readResponse response (reads.take n) = readResponse response reads := by
  induction reads generalizing response n with
  | nil => rw [List.take_nil]
  | cons read reads ih =>
      obtain ⟨n, rfl⟩ : ∃ m, n = m + 1 := ⟨n - 1, by omega⟩
      rw [List.take_succ_cons]
      cases read with
      | none => rfl
      | some chunk =>
          simp only [readResponse]
          split
          · rfl
          · next hmore =>
              have hlength : 0 < chunk.length := List.length_pos_iff.mpr hmore
              split
              · next hstill =>
                  refine ih n hstill ?_
                  rw [List.length_append]
                  omega
              · rfl

section

variable (hmac : List UInt8 → List UInt8 → String)
  (parseJson : List UInt8 → Option InstanceIdentity)

/-- `verify_dashboard_agent`, from the first read on. -/
def verifyConnection (i : Installation) (challenge : String)
    (reads : List (Option (List UInt8))) (candidate : String) :
    Installation × Except String String :=
  match readResponse [] reads with
  | .error message => (i, .error message)
  | .ok response => verifyDashboardAgent hmac parseJson i challenge response candidate

/-- **How a response is cut does not matter.**  Over every sequence of reads, the check is
    that of the bytes that arrived, or the error of the read that failed before the limit;
    and no read after the 8193rd is made. -/
theorem verifyConnection_eq (i : Installation) (challenge : String)
    (reads : List (Option (List UInt8))) (candidate : String) :
    verifyConnection hmac parseJson i challenge reads candidate =
        (if 8 * 1024 < (arrived reads).1.length ∨ (arrived reads).2 = true then
          verifyDashboardAgent hmac parseJson i challenge (arrived reads).1 candidate
        else (i, .error "could not verify the PrintLatch agent")) ∧
      verifyConnection hmac parseJson i challenge (reads.take 8193) candidate =
        verifyConnection hmac parseJson i challenge reads candidate := by
  have hempty : ([] : List UInt8).length ≤ 8 * 1024 := by simp
  constructor
  · unfold verifyConnection
    rw [readResponse_eq reads hempty, List.nil_append]
    by_cases hlarge : 8 * 1024 < (arrived reads).1.length
    · -- the check of the whole response refuses it for its length too
      simp only [hlarge, true_or, if_true, verifyDashboardAgent, readIdentity]
    · rw [if_neg hlarge]
      by_cases hclosed : (arrived reads).2 = true
      · simp only [hclosed, or_true, if_true]
      · rw [if_neg hclosed, if_neg (not_or.mpr ⟨hlarge, hclosed⟩)]
  · unfold verifyConnection
    rw [readResponse_take 8193 reads hempty (by simp)]

end

/-! ## The request -/

/-- The request of `verify_dashboard_agent`, as the agent receives it. -/
def instanceRequest (port : Nat) (challenge : String) : Api.HttpRequest where
  method := .get
  path := ["health", "instance"]
  headers := [("host", utf8 s!"127.0.0.1:{port}"), ("connection", utf8 "close"),
    ("accept", utf8 "application/json")]
  limit := some none
  challenge := some challenge
  code := .error .missingContentType
  multipart := none

theorem visible_address (port : Nat) : ∀ b ∈ utf8 s!"127.0.0.1:{port}", visibleAscii b = true := by
  have haddress : ∀ b ∈ utf8 "127.0.0.1:", visibleAscii b = true := visible_of_all (by decide)
  intro b hb
  rw [show s!"127.0.0.1:{port}" = "127.0.0.1:" ++ toString port from rfl, utf8_append] at hb
  rcases List.mem_append.mp hb with hb | hb
  · exact haddress b hb
  · have hdigit := digit_of_mem_utf8_toString hb
    simp only [visibleAscii, UInt8.le_iff_toNat_le, UInt8.lt_iff_toNat_lt, decide_eq_true_eq]
    left
    show 32 ≤ b.toNat ∧ b.toNat < 127
    omega

/-- The agent on the port takes the command's `Host`, on the default port too. -/
theorem validHost_instanceRequest (port : Nat) (challenge : String) :
    Api.validHost (instanceRequest port challenge).headers port = true := by
  have hread : (HeaderMap.get (instanceRequest port challenge).headers "host").bind toStr =
      some (utf8 s!"127.0.0.1:{port}") := by
    rw [instanceRequest, Api.get_cons_self]
    exact toStr_of_visible (visible_address port)
  unfold Api.validHost
  simp only [hread, eqIgnoreAsciiCase, decide_true, Bool.true_or]

section

variable (parse : String → Option Url) (sha256Hex : List UInt8 → String)
  (validatePdf : List UInt8 → String → Except String PdfReport) (headerText : String → Bool)
  (hmac : List UInt8 → List UInt8 → String) (parseJson : List UInt8 → Option InstanceIdentity)
  (decodeSegment : String → Option String) (config : AppConfig)

theorem upgrades_instanceRequest (port : Nat) (challenge : String) :
    Api.upgradesToWebsocket (instanceRequest port challenge).headers = false := by
  unfold Api.upgradesToWebsocket instanceRequest
  rw [Api.get_cons_of_ne _ (by decide), Api.get_cons_of_ne _ (by decide),
    Api.get_cons_of_ne _ (by decide)]
  rfl

theorem dispatch_instanceRequest (session : String) (state : Api.AgentState) (port : Nat)
    (challenge : String) (o : Api.RequestOutside) :
    Api.dispatch parse sha256Hex validatePdf headerText hmac decodeSegment config session state
        (instanceRequest port challenge) o =
      Api.serveInstance hmac session state (some challenge) o := by
  have hroute : Api.routeOf (instanceRequest port challenge).path = .healthInstance := by
    show Api.routeOf ["health", "instance"] = _
    decide
  have hmethod : (instanceRequest port challenge).method = .get := rfl
  unfold Api.dispatch
  rw [hroute, hmethod, if_neg (by decide)]
  rfl

/-- The middleware leaves what the response says. -/
theorem decorate_instanceRequest (port : Nat) (challenge : String) (response : Api.HttpResponse) :
    (Api.decorate parse headerText (instanceRequest port challenge) response).content =
      response.content := by
  have hpath : Api.isApiPath (instanceRequest port challenge).path = false := by
    show Api.isApiPath ["health", "instance"] = false
    decide
  unfold Api.decorate
  rw [hpath]
  rfl

/-- **The command finds its agent.**  An agent that listens on the port answers the request
    of the command, and the command takes the response, however it is cut, for that agent's
    session, in any state of the tables that has kept the secret. -/
theorem agent_verified (state : Api.AgentState) (o : Api.RequestOutside)
    (bytes : Vector UInt8 32) (uuid : Vector UInt8 16) (candidate : String) :
    let session := newAgentSession bytes
    let challenge := newInstanceChallenge uuid
    let served := Api.serve parse sha256Hex validatePdf headerText hmac decodeSegment config
      session state (instanceRequest config.port challenge) o
    ∃ secret, served.state = { state with instanceSecret := some secret } ∧
      let identity : InstanceIdentity :=
        ⟨productName, version, session, hmac (utf8 secret) (proofMessage challenge session)⟩
      served.response.status = 200 ∧ served.response.content = .identity identity ∧
      ∀ (i : Installation) (reads : List (Option (List UInt8))),
        i.instanceSecret = some secret → (arrived reads).2 = true →
        readIdentity parseJson (arrived reads).1 = .ok identity →
        verifyConnection hmac parseJson i challenge reads candidate = (i, .ok session) := by
  intro session challenge served
  have hsession : validAgentSession session = true := validAgentSession_newAgentSession bytes
  have hchallenge : validInstanceChallenge challenge = true :=
    validInstanceChallenge_newInstanceChallenge uuid
  obtain ⟨secret, hsecret, hanswer⟩ := instanceIdentity_of_valid hmac
    ⟨state.dir.db, state.instanceSecret⟩ hsession hchallenge o.instanceCandidate
  let identity : InstanceIdentity :=
    ⟨productName, version, session, hmac (utf8 secret) (proofMessage challenge session)⟩
  have hasked : instanceIdentity hmac ⟨state.dir.db, state.instanceSecret⟩ session challenge
      o.instanceCandidate = ((instanceIdentity hmac ⟨state.dir.db, state.instanceSecret⟩ session
        challenge o.instanceCandidate).1, .ok identity) := by
    rw [← hanswer]
  have hserved : served.state = { state with instanceSecret := some secret } ∧
      served.response.status = 200 ∧ served.response.content = .identity identity := by
    -- the request passes the middleware and comes to its handler
    have hanswered : Api.serveInstance hmac session state (some challenge) o =
        ({ state with instanceSecret := some secret } : Api.AgentState).answer none
          ⟨200, [], .identity identity⟩ := by
      simp only [Api.serveInstance]
      rw [hasked]
      simp only [hsecret]
    have hserve : served = _ :=
      Api.serve_of_valid parse sha256Hex validatePdf headerText hmac decodeSegment config
        session (validHost_instanceRequest config.port challenge)
        (upgrades_instanceRequest config.port challenge)
    rw [hserve, dispatch_instanceRequest, hanswered]
    exact ⟨rfl, Api.decorate_status _ _,
      decorate_instanceRequest parse headerText config.port challenge _⟩
  obtain ⟨hstate, hstatus, hcontent⟩ := hserved
  refine ⟨secret, hstate, hstatus, hcontent, fun i reads hi hclosed hread => ?_⟩
  have hproof := instanceProof_of_valid hmac hi hchallenge hsession candidate
  rw [(verifyConnection_eq hmac parseJson i challenge reads candidate).1,
    if_pos (Or.inr hclosed)]
  exact (verifyDashboardAgent_eq_ok hmac parseJson).mpr ⟨_, hread, rfl, hproof⟩

end

/-- The example response, in two reads. -/
def exampleReads : List (Option (List UInt8)) :=
  let response := exampleHttpResponse (.ok exampleIdentity)
  [some (response.take 20), some (response.drop 20), some []]

theorem agent_verified_of_exampleReads :
    verifyConnection exampleHmac exampleParseJson ⟨.fresh, some exampleInstanceSecret⟩
        exampleChallenge exampleReads "" =
      (⟨.fresh, some exampleInstanceSecret⟩, .ok exampleSession) := by
  have hverified := agent_verified exampleLoopbackParse exampleCodeDigest
    (fun _ _ => .error "unread") (fun _ => true) exampleHmac exampleParseJson some exampleConfig
    ⟨⟨.fresh, fun _ => none⟩, some exampleInstanceSecret⟩
    ⟨⟨1, 1, "j1", some [], [], none⟩, 0, "", "", 0, 0, [], ""⟩ exampleSessionBytes exampleUuid ""
  rw [newAgentSession_example, newInstanceChallenge_example] at hverified
  obtain ⟨secret, hstate, -, -, haccepted⟩ := hverified
  have hsecret : some exampleInstanceSecret = some secret :=
    congrArg Api.AgentState.instanceSecret hstate
  obtain rfl : exampleInstanceSecret = secret := Option.some.inj hsecret
  exact haccepted _ exampleReads rfl (by decide +kernel) (by decide +kernel)

end PrintLatch
