/-
  PrintLatch.Dashboard.HonestAgent

  The handshake between `printlatch dashboard` and an agent of its installation
  (`src/auth.rs`, `src/main.rs`).

  The secret is made by the first transaction that asks for one, and every later one reads
  it (`secret_of_mem_secrets`).  What the two sides draw has the shapes that they check,
  and the shapes keep the message of the MAC unambiguous.
-/

import PrintLatch.Dashboard.Handshake
import PrintLatch.Text.Encoding

namespace PrintLatch

open Reactive Text

/-- `new_agent_session`, of the random bytes. -/
def newAgentSession (bytes : Vector UInt8 32) : String := base64UrlNoPad bytes.toList

/-- The challenge of `verify_dashboard_agent`: a UUID in its simple form. -/
def newInstanceChallenge (uuid : Vector UInt8 16) : String := hexLower uuid.toList

/-! ## The secret -/

/-- A call of `get_or_create_instance_secret`. -/
structure SecretCall where
  process : Nat
  candidate : String
  deriving DecidableEq, Repr

/-- The call, and what it returns to its process. -/
def secretStep (i : Installation) (call : SecretCall) : Installation × List (Nat × String) :=
  let (i', secret) := i.getOrCreateInstanceSecret call.candidate
  (i', [(call.process, secret)])

/-- What the calls return, in their order. -/
def secrets (i : Installation) (calls : List SecretCall) : List (Nat × String) :=
  trace secretStep i calls

theorem secretStep_eq (i : Installation) (call : SecretCall) :
    secretStep i call = ((i.getOrCreateInstanceSecret call.candidate).1,
      [(call.process, (i.getOrCreateInstanceSecret call.candidate).2)]) := rfl

/-- A secret that is there is what every call returns. -/
theorem secret_of_mem_secrets {i : Installation} {secret : String}
    (h : i.instanceSecret = some secret) (calls : List SecretCall) :
    (run secretStep i calls).instanceSecret = some secret ∧
      ∀ o ∈ secrets i calls, o.2 = secret := by
  unfold secrets
  induction calls generalizing i with
  | nil => exact ⟨h, fun o ho => by cases ho⟩
  | cons call calls ih =>
      have hstep : secretStep i call = (i, [(call.process, secret)]) := by
        rw [secretStep_eq, getOrCreateInstanceSecret_of_some h]
      rw [run_cons, trace_cons, hstep]
      obtain ⟨hrun, htrace⟩ := ih h
      refine ⟨hrun, fun o ho => ?_⟩
      rcases List.mem_append.mp ho with ho | ho
      · rw [List.mem_singleton.mp ho]
      · exact htrace o ho

/-- All calls of a run return one secret. -/
theorem secrets_agree (i : Installation) (calls : List SecretCall) :
    ∀ o ∈ secrets i calls, ∀ o' ∈ secrets i calls, o.2 = o'.2 := by
  cases calls with
  | nil => exact fun o ho => by cases ho
  | cons call calls =>
      -- the first call leaves the secret that it returns
      have hkept := secret_of_mem_secrets (instanceSecret_getOrCreate i call.candidate) calls
      have hall : ∀ o ∈ secrets i (call :: calls),
          o.2 = (i.getOrCreateInstanceSecret call.candidate).2 := by
        intro o ho
        rcases List.mem_append.mp ho with ho | ho
        · have hcall : o = (call.process, (i.getOrCreateInstanceSecret call.candidate).2) :=
            List.mem_singleton.mp ho
          rw [hcall]
        · exact hkept.2 o ho
      exact fun o ho o' ho' => (hall o ho).trans (hall o' ho').symm

/-! ## The shapes -/

theorem validAgentSession_newAgentSession (bytes : Vector UInt8 32) :
    validAgentSession (newAgentSession bytes) = true := by
  have hlength : (utf8 (newAgentSession bytes)).length = 43 := by
    unfold newAgentSession
    rw [length_base64UrlNoPad, Vector.length_toList]
  have halphabet : (utf8 base64UrlAlphabet).all (fun b => (48 ≤ b ∧ b ≤ 57) ∨ (65 ≤ b ∧ b ≤ 90) ∨
      (97 ≤ b ∧ b ≤ 122) ∨ b = 95 ∨ b = 45) = true := by decide
  refine decide_eq_true ⟨hlength, List.all_eq_true.mpr fun b hb => ?_⟩
  exact List.all_eq_true.mp halphabet b (mem_base64UrlNoPad hb)

theorem validInstanceChallenge_newInstanceChallenge (uuid : Vector UInt8 16) :
    validInstanceChallenge (newInstanceChallenge uuid) = true := by
  have hlength : (utf8 (newInstanceChallenge uuid)).length = 32 := by
    unfold newInstanceChallenge
    rw [length_hexLower, Vector.length_toList]
  have halphabet : (utf8 hexAlphabet).all (fun b => (48 ≤ b ∧ b ≤ 57) ∨ (65 ≤ b ∧ b ≤ 70) ∨
      (97 ≤ b ∧ b ≤ 102)) = true := by decide
  refine decide_eq_true ⟨hlength, List.all_eq_true.mpr fun b hb => ?_⟩
  exact List.all_eq_true.mp halphabet b (mem_hexLower hb)

theorem length_of_validInstanceChallenge {challenge : String}
    (h : validInstanceChallenge challenge = true) : (utf8 challenge).length = 32 := by
  unfold validInstanceChallenge at h
  exact (of_decide_eq_true h).1

/-- The challenge is what stands before the separator, which has its fixed place. -/
theorem proofMessage_injective {challenge session challenge' session' : String}
    (h : validInstanceChallenge challenge = true) (h' : validInstanceChallenge challenge' = true)
    (heq : proofMessage challenge session = proofMessage challenge' session') :
    challenge = challenge' ∧ session = session' := by
  have hlength : (utf8 challenge).length = (utf8 challenge').length := by
    rw [length_of_validInstanceChallenge h, length_of_validInstanceChallenge h']
  unfold proofMessage at heq
  rw [List.append_assoc, List.append_assoc] at heq
  obtain ⟨hchallenge, hrest⟩ := List.append_inj heq hlength
  exact ⟨utf8_injective hchallenge, utf8_injective (List.append_cancel_left hrest)⟩

/-! ## The handshake -/

section

variable (hmac : List UInt8 → List UInt8 → String)
  (parseJson : List UInt8 → Option InstanceIdentity)

/-- An agent with valid words answers, and leaves its secret. -/
theorem instanceIdentity_of_valid (i : Installation) {session challenge : String}
    (hsession : validAgentSession session = true)
    (hchallenge : validInstanceChallenge challenge = true) (candidate : String) :
    ∃ secret, (instanceIdentity hmac i session challenge candidate).1.instanceSecret = some secret ∧
      (instanceIdentity hmac i session challenge candidate).2 =
        .ok ⟨productName, version, session,
          hmac (utf8 secret) (proofMessage challenge session)⟩ := by
  have hproof : instanceProof hmac i challenge session candidate =
      .ok ((i.getOrCreateInstanceSecret candidate).1,
        hmac (utf8 (i.getOrCreateInstanceSecret candidate).2)
          (proofMessage challenge session)) := by
    simp [instanceProof, hchallenge, hsession]
  refine ⟨(i.getOrCreateInstanceSecret candidate).2, ?_, ?_⟩
  · simp only [instanceIdentity, hchallenge, hproof]
    exact instanceSecret_getOrCreate i candidate
  · simp only [instanceIdentity, hchallenge, hproof]
    rfl

/-- **The honest agent is accepted.**  All calls for the secret return the same one; an agent
    answers the challenge of a command, which finds the proof it expects, whoever asked for
    the secret before and in between; and the MAC is of one challenge and session alone. -/
theorem honest_agent_accepted :
    (∀ (i : Installation) (calls : List SecretCall), ∀ o ∈ secrets i calls,
      ∀ o' ∈ secrets i calls, o.2 = o'.2) ∧
    (∀ (i : Installation) (before between : List SecretCall) (bytes : Vector UInt8 32)
      (uuid : Vector UInt8 16) (candidate candidate' : String),
      let session := newAgentSession bytes
      let challenge := newInstanceChallenge uuid
      let asked := instanceIdentity hmac (run secretStep i before) session challenge candidate
      let checked := run secretStep asked.1 between
      validAgentSession session = true ∧ validInstanceChallenge challenge = true ∧
      ∃ proof, asked.2 = .ok ⟨productName, version, session, proof⟩ ∧
        instanceProof hmac checked challenge session candidate' = .ok (checked, proof) ∧
        ∀ response, readIdentity parseJson response =
            .ok ⟨productName, version, session, proof⟩ →
          verifyDashboardAgent hmac parseJson checked challenge response candidate' =
            (checked, .ok session)) ∧
    ∀ challenge session challenge' session', validInstanceChallenge challenge = true →
      validInstanceChallenge challenge' = true → validAgentSession session = true →
      validAgentSession session' = true →
      proofMessage challenge session = proofMessage challenge' session' →
      challenge = challenge' ∧ session = session' := by
  refine ⟨secrets_agree, ?_, fun _ _ _ _ h h' _ _ heq => proofMessage_injective h h' heq⟩
  intro i before between bytes uuid candidate candidate' session challenge asked checked
  have hsession : validAgentSession session = true := validAgentSession_newAgentSession bytes
  have hchallenge : validInstanceChallenge challenge = true :=
    validInstanceChallenge_newInstanceChallenge uuid
  obtain ⟨secret, hsecret, hanswer⟩ := instanceIdentity_of_valid hmac (run secretStep i before)
    hsession hchallenge candidate
  -- the calls in between leave the secret that the answer was made with
  have hkept : checked.instanceSecret = some secret := (secret_of_mem_secrets hsecret between).1
  have hexpected := instanceProof_of_valid hmac hkept hchallenge hsession candidate'
  refine ⟨hsession, hchallenge, _, hanswer, hexpected, fun response hread => ?_⟩
  exact (verifyDashboardAgent_eq_ok hmac parseJson).mpr ⟨_, hread, rfl, hexpected⟩

end

/-! ## An agent and a command -/

/-- The bytes of the example session. -/
def exampleSessionBytes : Vector UInt8 32 := Vector.replicate 32 1

/-- The bytes of the example challenge. -/
def exampleUuid : Vector UInt8 16 :=
  #v[0x01, 0x23, 0x45, 0x67, 0x89, 0xab, 0xcd, 0xef, 0x01, 0x23, 0x45, 0x67, 0x89, 0xab, 0xcd, 0xef]

theorem newAgentSession_example : newAgentSession exampleSessionBytes = exampleSession := by
  decide

theorem newInstanceChallenge_example : newInstanceChallenge exampleUuid = exampleChallenge := by
  decide

/-- The agent makes the secret, another process asks for it with a candidate of its own, and
    the command accepts the agent; no other challenge would have had that message. -/
theorem honest_agent_accepted_example :
    (verifyDashboardAgent exampleHmac exampleParseJson
        (run secretStep (instanceIdentity exampleHmac ⟨.fresh, none⟩ exampleSession
          exampleChallenge exampleInstanceSecret).1 [⟨1, exampleSession⟩])
        exampleChallenge (exampleHttpResponse (.ok exampleIdentity)) exampleSession).2 =
      .ok exampleSession ∧
    exampleChallenge = newInstanceChallenge exampleUuid := by
  obtain ⟨-, haccepted, hmessage⟩ := honest_agent_accepted exampleHmac exampleParseJson
  obtain ⟨hsession, hchallenge, proof, hanswer, -, hverify⟩ := haccepted ⟨.fresh, none⟩ []
    [⟨1, exampleSession⟩] exampleSessionBytes exampleUuid exampleInstanceSecret exampleSession
  rw [newAgentSession_example] at hsession hanswer hverify
  rw [newInstanceChallenge_example] at hchallenge hanswer hverify
  have hidentity : (instanceIdentity exampleHmac ⟨.fresh, none⟩ exampleSession exampleChallenge
      exampleInstanceSecret).2 = .ok exampleIdentity := by decide +kernel
  have hproof : (⟨productName, version, exampleSession, proof⟩ : InstanceIdentity) =
      exampleIdentity := Except.ok.inj (hanswer.symm.trans hidentity)
  have hread : readIdentity exampleParseJson (exampleHttpResponse (.ok exampleIdentity)) =
      .ok exampleIdentity := by decide +kernel
  refine ⟨?_, ?_⟩
  · rw [hproof] at hverify
    exact congrArg Prod.snd (hverify _ hread)
  · exact (hmessage _ exampleSession _ exampleSession hchallenge
      (by rw [newInstanceChallenge_example]; exact hchallenge) hsession hsession
      (by rw [newInstanceChallenge_example])).1

end PrintLatch
