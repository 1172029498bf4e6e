/-
  PrintLatch.Dashboard.Identity

  How `printlatch dashboard` checks the listener it finds (`src/main.rs`), and what
  an agent answers (`src/auth.rs`, `src/api.rs`).

  HMAC-SHA256 in hexadecimal is `hmac key message`, `serde_json` is `parseJson`, and
  the response in which the HTTP server sends an identity is `httpResponse`.
-/

import PrintLatch.Auth.Credentials

namespace PrintLatch

open Text

/-- `PRODUCT_NAME`. -/
def productName : String := "PrintLatch"

/-- `VERSION`. -/
def version : String := "0.1.1"

/-- `InstanceIdentity`. -/
structure InstanceIdentity where
  product : String
  version : String
  session : String
  proof : String
  deriving DecidableEq, Repr

/-- What the agents and commands of one data directory share: the tables, and the
    row of `instance_identity`. -/
structure Installation where
  db : Database
  instanceSecret : Option String

/-- `get_or_create_instance_secret`: the row that is there, or the candidate. -/
def Installation.getOrCreateInstanceSecret (i : Installation) (candidate : String) :
    Installation × String :=
  match i.instanceSecret with
  | some secret => (i, secret)
  | none => ({ i with instanceSecret := some candidate }, candidate)

/-- `valid_instance_challenge`. -/
def validInstanceChallenge (value : String) : Bool :=
  (utf8 value).length = 32 ∧ (utf8 value).all fun b =>
    (48 ≤ b ∧ b ≤ 57) ∨ (65 ≤ b ∧ b ≤ 70) ∨ (97 ≤ b ∧ b ≤ 102)

/-! ## Reading a response -/

/-- The bytes before the first empty line, and those after it. -/
def splitHead : List UInt8 → Option (List UInt8 × List UInt8)
  | [] => none
  | b :: rest =>
      if [13, 10, 13, 10].isPrefixOf (b :: rest) then some ([], rest.drop 3)
      else (splitHead rest).map fun (headers, body) => (b :: headers, body)

/-- The status line that `verify_dashboard_agent` takes. -/
def statusOk (headers : List UInt8) : Bool :=
  let line := headers.takeWhile (· ≠ 10)
  (utf8 "HTTP/1.1 200 ").isPrefixOf line || (utf8 "HTTP/1.0 200 ").isPrefixOf line

section

variable (hmac : List UInt8 → List UInt8 → String)
  (parseJson : List UInt8 → Option InstanceIdentity)

/-- The identity in a response: the part of `verify_dashboard_agent` before the
    proof. -/
def readIdentity (response : List UInt8) : Except String InstanceIdentity :=
  if 8 * 1024 < response.length then
    .error "listener response was too large to be PrintLatch"
  else
    match splitHead response with
    | none => .error "listener did not return a valid HTTP response"
    | some (headers, body) =>
        if (ByteArray.mk headers.toArray).validateUTF8 = false then
          .error "listener returned invalid HTTP headers"
        else if statusOk headers = false then
          .error "listener is not the expected PrintLatch agent"
        else
          match parseJson body with
          | none => .error "listener returned an invalid PrintLatch identity"
          | some identity =>
              if identity.product ≠ productName ∨ identity.version ≠ version then
                .error "listener is not the expected PrintLatch version"
              else if validAgentSession identity.session = false then
                .error "listener returned an invalid PrintLatch session"
              else .ok identity

/-! ## The proof -/

/-- What the proof is a MAC of: the challenge and the session. -/
def proofMessage (challenge session : String) : List UInt8 :=
  utf8 challenge ++ utf8 "." ++ utf8 session

/-- `instance_proof`. -/
def instanceProof (i : Installation) (challenge session candidate : String) :
    Except String (Installation × String) :=
  if validInstanceChallenge challenge = false then
    .error "instance challenge has an invalid shape"
  else if validAgentSession session = false then
    .error "agent session has an invalid shape"
  else
    .ok ((i.getOrCreateInstanceSecret candidate).1,
      hmac (utf8 (i.getOrCreateInstanceSecret candidate).2) (proofMessage challenge session))

/-- The handler `instance_identity` of an agent with that session. -/
def instanceIdentity (i : Installation) (instanceSession challenge candidate : String) :
    Installation × Except AppError InstanceIdentity :=
  if validInstanceChallenge challenge = false then
    (i, .error (.badRequest "instance challenge must be 32 hexadecimal characters"))
  else
    match instanceProof hmac i challenge instanceSession candidate with
    | .error _ => (i, .error .internal)
    | .ok (i', proof) => (i', .ok ⟨productName, version, instanceSession, proof⟩)

/-- `verify_dashboard_agent`, from the response on: the session of the agent. -/
def verifyDashboardAgent (i : Installation) (challenge : String) (response : List UInt8)
    (candidate : String) : Installation × Except String String :=
  match readIdentity parseJson response with
  | .error message => (i, .error message)
  | .ok identity =>
      match instanceProof hmac i challenge identity.session candidate with
      | .error message => (i, .error message)
      | .ok (i', expected) =>
          if expected = identity.proof then (i', .ok identity.session)
          else (i', .error "listener could not prove it is this PrintLatch installation")

/-! ## What they do to the secret -/

/-- A secret that is there stays. -/
theorem getOrCreateInstanceSecret_of_some {i : Installation} {secret : String}
    (h : i.instanceSecret = some secret) (candidate : String) :
    i.getOrCreateInstanceSecret candidate = (i, secret) := by
  unfold Installation.getOrCreateInstanceSecret
  rw [h]

theorem instanceSecret_getOrCreate (i : Installation) (candidate : String) :
    (i.getOrCreateInstanceSecret candidate).1.instanceSecret =
      some (i.getOrCreateInstanceSecret candidate).2 := by
  unfold Installation.getOrCreateInstanceSecret
  cases h : i.instanceSecret with
  | none => rfl
  | some secret => exact h

/-- What a proof is: a MAC under the secret that is there from then on. -/
theorem instanceProof_eq_ok {i i' : Installation} {challenge session candidate proof : String}
    (h : instanceProof hmac i challenge session candidate = .ok (i', proof)) :
    validInstanceChallenge challenge = true ∧ validAgentSession session = true ∧
      ∃ secret, i'.instanceSecret = some secret ∧
        proof = hmac (utf8 secret) (proofMessage challenge session) ∧
        ∀ old, i.instanceSecret = some old → secret = old := by
  unfold instanceProof at h
  split at h
  · cases h
  · next hchallenge =>
      split at h
      · cases h
      · next hsession =>
          cases h
          refine ⟨by simpa using hchallenge, by simpa using hsession, _,
            instanceSecret_getOrCreate i candidate, rfl, fun old hold => ?_⟩
          rw [getOrCreateInstanceSecret_of_some hold]

/-- With a secret and valid words the proof is there. -/
theorem instanceProof_of_valid {i : Installation} {challenge session secret : String}
    (hsecret : i.instanceSecret = some secret)
    (hchallenge : validInstanceChallenge challenge = true)
    (hsession : validAgentSession session = true) (candidate : String) :
    instanceProof hmac i challenge session candidate =
      .ok (i, hmac (utf8 secret) (proofMessage challenge session)) := by
  unfold instanceProof
  rw [getOrCreateInstanceSecret_of_some hsecret]
  simp [hchallenge, hsession]

/-- What an agent answers: its own session, and the proof for the challenge. -/
theorem instanceIdentity_eq_ok {i i' : Installation} {session challenge candidate : String}
    {identity : InstanceIdentity}
    (h : instanceIdentity hmac i session challenge candidate = (i', .ok identity)) :
    identity.session = session ∧
      instanceProof hmac i challenge session candidate = .ok (i', identity.proof) := by
  unfold instanceIdentity at h
  split at h
  · cases h
  · split at h
    · cases h
    · next hproof =>
        cases h
        exact ⟨rfl, hproof⟩

/-- What `verify_dashboard_agent` takes: an identity whose proof is the one it
    computes itself. -/
theorem verifyDashboardAgent_eq_ok {i i' : Installation} {challenge candidate session : String}
    {response : List UInt8} :
    verifyDashboardAgent hmac parseJson i challenge response candidate = (i', .ok session) ↔
      ∃ identity, readIdentity parseJson response = .ok identity ∧ identity.session = session ∧
        instanceProof hmac i challenge session candidate = .ok (i', identity.proof) := by
  unfold verifyDashboardAgent
  constructor
  · intro h
    split at h
    · cases h
    · next identity hread =>
        split at h
        · cases h
        · next expected hproof =>
            split at h
            · next heq =>
                cases h
                exact ⟨identity, hread, rfl, heq ▸ hproof⟩
            · cases h
  · rintro ⟨identity, hread, rfl, hproof⟩
    rw [hread]
    dsimp only
    rw [hproof]
    exact if_pos rfl

/-- The installation after a proof: it has the secret that the proof is made with. -/
theorem instanceProof_installation {i i' : Installation}
    {challenge session candidate proof : String}
    (h : instanceProof hmac i challenge session candidate = .ok (i', proof)) :
    i' = (i.getOrCreateInstanceSecret candidate).1 := by
  unfold instanceProof at h
  split at h
  · cases h
  · split at h
    · cases h
    · cases h
      rfl

/-- An answer leaves the installation as it was, or with its secret. -/
theorem instanceIdentity_installation (i : Installation) (session challenge candidate : String) :
    (instanceIdentity hmac i session challenge candidate).1 = i ∨
      (instanceIdentity hmac i session challenge candidate).1 =
        (i.getOrCreateInstanceSecret candidate).1 := by
  unfold instanceIdentity
  split
  · exact .inl rfl
  · split
    · exact .inl rfl
    · next hproof => exact .inr (instanceProof_installation hmac hproof)

/-- So does a check. -/
theorem verifyDashboardAgent_installation (i : Installation) (challenge candidate : String)
    (response : List UInt8) :
    (verifyDashboardAgent hmac parseJson i challenge response candidate).1 = i ∨
      (verifyDashboardAgent hmac parseJson i challenge response candidate).1 =
        (i.getOrCreateInstanceSecret candidate).1 := by
  unfold verifyDashboardAgent
  split
  · exact .inl rfl
  · split
    · exact .inl rfl
    · next hproof =>
        have hinstalled := instanceProof_installation hmac hproof
        split
        · exact .inr hinstalled
        · exact .inr hinstalled

end

end PrintLatch
