/-
  PrintLatch.Dashboard.Handshake

  `printlatch dashboard` on a loopback interface that it shares with agents of its
  installation and with an adversary (`dashboard` and `verify_dashboard_agent` in
  `src/main.rs`, `GET /health/instance` in `src/api.rs`).

  A port stays with the process that bound it.  Anyone may ask an agent for a
  proof, of any challenge; an adversary sends what it likes from its own ports.
  HMAC is ideal along a run (`Unforged`): a proof that passes was made by an agent.
  It covers the challenge and the session, and neither the port nor the asker.
-/

import PrintLatch.Dashboard.Identity
import PrintLatch.Auth.Pairing

namespace PrintLatch

open Text Reactive

/-- The process that has bound a port. -/
inductive Listener where
  /-- An agent of this installation, with its session. -/
  | agent (session : String)
  | adversary
  deriving DecidableEq, Repr

/-- How far a `printlatch dashboard` has come. -/
inductive Handshake where
  | idle
  | waiting (port : Nat) (challenge : String)
  | answered (port : Nat) (challenge : String) (response : List UInt8)
  | ended
  deriving DecidableEq, Repr

/-- The installation, its ports, and the commands that run. -/
structure Loopback where
  installation : Installation
  listener : Nat → Option Listener
  cli : Nat → Handshake

/-- Nothing listens yet, and no command runs. -/
def Loopback.ofInstallation (i : Installation) : Loopback := ⟨i, fun _ => none, fun _ => .idle⟩

/-- What happens next. -/
inductive LoopbackInput where
  | bind (port : Nat) (process : Listener)
  /-- Someone asks the agent on the port for a proof. -/
  | ask (port : Nat) (challenge candidate : String) (fails : Bool)
  /-- Another call, of an agent or of a command, on the tables. -/
  | call (change : Database → Database)
  | connect (command port : Nat) (challenge : String)
  | respond (command : Nat) (candidate : String) (fails : Bool)
  | impersonate (command : Nat) (response : List UInt8)
  | conclude (command : Nat) (candidate : String) (bytes : List UInt8) (clock now : Int)
      (fails : Bool)
  | abort (command : Nat)

/-- What has been seen on the interface. -/
inductive LoopbackObs where
  /-- An agent has given out a proof. -/
  | proved (challenge session proof : String)
  /-- `verify_dashboard_agent` returned that session, for that port. -/
  | verified (port : Nat) (session : String)
  /-- The browser was sent to that page, for a grant bound to that session. -/
  | opened (port : Nat) (session url : String)
  deriving DecidableEq, Repr

section

variable (hmac : List UInt8 → List UInt8 → String)
  (parseJson : List UInt8 → Option InstanceIdentity)
  (httpResponse : Except AppError InstanceIdentity → List UInt8)
  (parse : String → Option Url) (sha256Hex : List UInt8 → String)

/-- The answer of an agent with that session; a database call or the generator may
    fail. -/
def Loopback.answer (s : Loopback) (session challenge candidate : String) (fails : Bool) :
    Installation × Except AppError InstanceIdentity :=
  if fails then (s.installation, .error .internal)
  else instanceIdentity hmac s.installation session challenge candidate

/-- The proof in an answer. -/
def provedIn (challenge : String) : Except AppError InstanceIdentity → List LoopbackObs
  | .error _ => []
  | .ok identity => [.proved challenge identity.session identity.proof]

/-- `dashboard` after the check: the grant, and the page that the browser is sent
    to. -/
def dashboardPage (db : Database) (port : Nat) (session : String) (bytes : List UInt8)
    (clock now : Int) : Except DbError (Database × String) :=
  let origin := s!"http://127.0.0.1:{port}"
  match newDashboardPairingGrant parse sha256Hex db origin "PrintLatch dashboard" session bytes
      clock now with
  | .error error => .error error
  | .ok (db', grant) => .ok (db', s!"{origin}/app/#code={grant.code}")

/-- What `dashboard` does once the check of a port has returned a session. -/
def Loopback.openPage (s : Loopback) (port : Nat) (session : String) (bytes : List UInt8)
    (clock now : Int) (fails : Bool) : Loopback × List LoopbackObs :=
  if fails then (s, [.verified port session])
  else
    match dashboardPage parse sha256Hex s.installation.db port session bytes clock now with
    | .error _ => (s, [.verified port session])
    | .ok (db, url) =>
        ({ s with installation := { s.installation with db := db } },
          [.verified port session, .opened port session url])

/-- One step on the interface. -/
def loopbackStep (s : Loopback) : LoopbackInput → Loopback × List LoopbackObs
  | .bind port process =>
      match s.listener port with
      | some _ => (s, [])
      | none => ({ s with listener := Function.update s.listener port (some process) }, [])
  | .ask port challenge candidate fails =>
      match s.listener port with
      | some (.agent session) =>
          let (i, answer) := s.answer hmac session challenge candidate fails
          ({ s with installation := i }, provedIn challenge answer)
      | _ => (s, [])
  | .call change =>
      ({ s with installation := { s.installation with db := change s.installation.db } }, [])
  | .connect command port challenge =>
      match s.cli command, s.listener port with
      | .idle, some _ =>
          ({ s with cli := Function.update s.cli command (.waiting port challenge) }, [])
      | _, _ => (s, [])
  | .respond command candidate fails =>
      match s.cli command with
      | .waiting port challenge =>
          match s.listener port with
          | some (.agent session) =>
              let (i, answer) := s.answer hmac session challenge candidate fails
              (⟨i, s.listener, Function.update s.cli command
                (.answered port challenge (httpResponse answer))⟩, provedIn challenge answer)
          | _ => (s, [])
      | _ => (s, [])
  | .impersonate command response =>
      match s.cli command with
      | .waiting port challenge =>
          match s.listener port with
          | some .adversary =>
              (⟨s.installation, s.listener, Function.update s.cli command
                (.answered port challenge response)⟩, [])
          | _ => (s, [])
      | _ => (s, [])
  | .conclude command candidate bytes clock now fails =>
      match s.cli command with
      | .answered port challenge response =>
          let (i, result) :=
            verifyDashboardAgent hmac parseJson s.installation challenge response candidate
          let checked : Loopback := ⟨i, s.listener, Function.update s.cli command .ended⟩
          match result with
          | .error _ => (checked, [])
          | .ok session => checked.openPage parse sha256Hex port session bytes clock now fails
      | _ => (s, [])
  | .abort command => ({ s with cli := Function.update s.cli command .ended }, [])

/-! ## The claim of the handshake, and its condition -/

/-- A check that passes, and a page that is opened, is of an agent with that
    session. -/
def Authenticated (tr : List LoopbackObs) (s : Loopback) : Prop :=
  ∀ port session, (.verified port session ∈ tr ∨ ∃ url, .opened port session url ∈ tr) →
    s.listener port = some (.agent session)

/-- The identity that a command is about to check, when it came from a port of the
    adversary. -/
def Loopback.ForeignIdentity (s : Loopback) (command : Nat) (challenge : String)
    (identity : InstanceIdentity) : Prop :=
  ∃ port response, s.cli command = .answered port challenge response ∧
    s.listener port = some .adversary ∧ readIdentity parseJson response = .ok identity

/-- HMAC is ideal at this step: the adversary has no proof under the secret but those
    that agents have made. -/
def Unforged (tr : List LoopbackObs) (s : Loopback) : LoopbackInput → Prop
  | .conclude command candidate _ _ _ _ =>
      ∀ challenge identity, s.ForeignIdentity parseJson command challenge identity →
        identity.proof = hmac (utf8 (s.installation.getOrCreateInstanceSecret candidate).2)
          (proofMessage challenge identity.session) →
        .proved challenge identity.session identity.proof ∈ tr
  | _ => True

/-- No command is about to check, from a port of the adversary, a proof that an agent
    has given out for its challenge. -/
def NotRelayed (tr : List LoopbackObs) (s : Loopback) : LoopbackInput → Prop
  | .conclude command _ _ _ _ _ =>
      ∀ challenge identity, s.ForeignIdentity parseJson command challenge identity →
        .proved challenge identity.session identity.proof ∉ tr
  | _ => True

/-! ## What a step can do -/

/-- What stays: the secret, once there is one, and the ports that are bound. -/
structure Loopback.Extends (s s' : Loopback) : Prop where
  secret : ∀ secret, s.installation.instanceSecret = some secret →
    s'.installation.instanceSecret = some secret
  listener : ∀ port process, s.listener port = some process → s'.listener port = some process

/-- The responses that wait for their check in `s'` waited in `s` too, or are `fresh`. -/
def ResponsesFrom (s s' : Loopback) (fresh : Nat → List UInt8 → Prop) : Prop :=
  ∀ command port challenge response, s'.cli command = .answered port challenge response →
    s.cli command = .answered port challenge response ∨ fresh port response

/-- What one step does, by what it shows. -/
inductive LoopbackMove (s : Loopback) (i : LoopbackInput) : Loopback → List LoopbackObs → Prop
  | silent {s' : Loopback} (hextends : s.Extends s')
      (hresponses : ResponsesFrom s s' fun _ _ => False) : LoopbackMove s i s' []
  /-- An agent has answered, a command or someone else. -/
  | answered {s' : Loopback} {port : Nat} {session challenge candidate : String} {fails : Bool}
      (hagent : s.listener port = some (.agent session)) (hextends : s.Extends s')
      (hinstallation : s'.installation = (s.answer hmac session challenge candidate fails).1)
      (hresponses : ResponsesFrom s s' fun at_ response => at_ = port ∧
        response = httpResponse (s.answer hmac session challenge candidate fails).2) :
      LoopbackMove s i s' (provedIn challenge (s.answer hmac session challenge candidate fails).2)
  | impersonated {s' : Loopback} {port : Nat} (hforeign : s.listener port = some .adversary)
      (hextends : s.Extends s') (hresponses : ResponsesFrom s s' fun at_ _ => at_ = port) :
      LoopbackMove s i s' []
  /-- A check has passed. -/
  | passed {s' : Loopback} {obs : List LoopbackObs} {command port : Nat}
      {challenge candidate session : String} {response : List UInt8} {bytes : List UInt8}
      {clock now : Int} {fails : Bool}
      (hinput : i = .conclude command candidate bytes clock now fails)
      (hcli : s.cli command = .answered port challenge response)
      (hpassed : (verifyDashboardAgent hmac parseJson s.installation challenge response
        candidate).2 = .ok session)
      (hextends : s.Extends s') (hresponses : ResponsesFrom s s' fun _ _ => False)
      (hobs : obs = [.verified port session] ∨
        ∃ url, obs = [.verified port session, .opened port session url]) :
      LoopbackMove s i s' obs

theorem Loopback.Extends.rfl {s : Loopback} : s.Extends s := ⟨fun _ h => h, fun _ _ h => h⟩

/-- A secret that is there stays, whatever the installation becomes. -/
theorem instanceSecret_kept {i i' : Installation} {candidate : String}
    (h : i' = i ∨ i' = (i.getOrCreateInstanceSecret candidate).1) (secret : String)
    (hsecret : i.instanceSecret = some secret) : i'.instanceSecret = some secret := by
  rcases h with rfl | rfl
  · exact hsecret
  · rw [getOrCreateInstanceSecret_of_some hsecret]
    exact hsecret

theorem answer_installation (s : Loopback) (session challenge candidate : String) (fails : Bool) :
    (s.answer hmac session challenge candidate fails).1 = s.installation ∨
      (s.answer hmac session challenge candidate fails).1 =
        (s.installation.getOrCreateInstanceSecret candidate).1 := by
  unfold Loopback.answer
  split
  · exact .inl rfl
  · exact instanceIdentity_installation hmac s.installation session challenge candidate

/-- Changing one command to `h`, which is no response, brings in none. -/
theorem responsesFrom_update {s s' : Loopback} {command : Nat} {h : Handshake}
    (hcli : s'.cli = Function.update s.cli command h)
    (hquiet : ∀ port challenge response, h ≠ .answered port challenge response) :
    ResponsesFrom s s' fun _ _ => False := by
  intro other port challenge response hother
  rw [hcli] at hother
  rcases eq_or_ne other command with rfl | hne
  · rw [Function.update_self] at hother
    exact absurd hother (hquiet _ _ _)
  · rw [Function.update_of_ne hne] at hother
    exact .inl hother

/-- Changing one command to a response that is `fresh` brings in that one. -/
theorem responsesFrom_answered {s s' : Loopback} {command port : Nat} {challenge : String}
    {response : List UInt8} {fresh : Nat → List UInt8 → Prop}
    (hcli : s'.cli = Function.update s.cli command (.answered port challenge response))
    (hfresh : fresh port response) : ResponsesFrom s s' fresh := by
  intro other port' challenge' response' hother
  rw [hcli] at hother
  rcases eq_or_ne other command with rfl | hne
  · rw [Function.update_self] at hother
    cases hother
    exact .inr hfresh
  · rw [Function.update_of_ne hne] at hother
    exact .inl hother

theorem responsesFrom_of_cli {s s' : Loopback} (hcli : s'.cli = s.cli)
    {fresh : Nat → List UInt8 → Prop} : ResponsesFrom s s' fresh :=
  fun _ _ _ _ h => .inl (hcli ▸ h)

/-- The move of a check that has passed. -/
theorem loopbackMove_of_openPage {s : Loopback} {command port : Nat}
    {challenge candidate session : String} {response bytes : List UInt8} {clock now : Int}
    {fails : Bool} {i : Installation}
    (hcli : s.cli command = .answered port challenge response)
    (hpassed : verifyDashboardAgent hmac parseJson s.installation challenge response candidate =
      (i, .ok session)) :
    LoopbackMove hmac parseJson httpResponse s (.conclude command candidate bytes clock now fails)
      (Loopback.openPage parse sha256Hex ⟨i, s.listener, Function.update s.cli command .ended⟩
        port session bytes clock now fails).1
      (Loopback.openPage parse sha256Hex ⟨i, s.listener, Function.update s.cli command .ended⟩
        port session bytes clock now fails).2 := by
  have hkept := verifyDashboardAgent_installation hmac parseJson s.installation challenge
    candidate response
  rw [hpassed] at hkept
  have hsecret := instanceSecret_kept hkept
  have hsession : (verifyDashboardAgent hmac parseJson s.installation challenge response
      candidate).2 = .ok session := by rw [hpassed]
  unfold Loopback.openPage
  split
  · exact .passed rfl hcli hsession ⟨hsecret, fun _ _ h => h⟩
      (responsesFrom_update rfl (by simp)) (.inl rfl)
  · split
    · exact .passed rfl hcli hsession ⟨hsecret, fun _ _ h => h⟩
        (responsesFrom_update rfl (by simp)) (.inl rfl)
    · next url _ =>
        exact .passed rfl hcli hsession ⟨hsecret, fun _ _ h => h⟩
          (responsesFrom_update rfl (by simp)) (.inr ⟨url, rfl⟩)

/-- Every step is one of the moves. -/
theorem loopbackMove_of_step (s : Loopback) (i : LoopbackInput) :
    LoopbackMove hmac parseJson httpResponse s i
      (loopbackStep hmac parseJson httpResponse parse sha256Hex s i).1
      (loopbackStep hmac parseJson httpResponse parse sha256Hex s i).2 := by
  have idle : LoopbackMove hmac parseJson httpResponse s i s [] :=
    .silent .rfl (responsesFrom_of_cli rfl)
  cases i with
  | bind port process =>
      simp only [loopbackStep]
      split
      · exact idle
      · next hfree =>
          refine .silent ⟨fun _ h => h, fun bound owner h => ?_⟩ (responsesFrom_of_cli rfl)
          have hne : bound ≠ port := by
            rintro rfl
            rw [hfree] at h
            cases h
          show Function.update _ _ _ bound = _
          rw [Function.update_of_ne hne]
          exact h
  | ask port challenge candidate fails =>
      simp only [loopbackStep]
      split
      · next session hagent =>
          exact .answered hagent
            ⟨instanceSecret_kept (answer_installation hmac s session challenge candidate fails),
              fun _ _ h => h⟩ rfl (responsesFrom_of_cli rfl)
      · exact idle
  | call change => exact .silent ⟨fun _ h => h, fun _ _ h => h⟩ (responsesFrom_of_cli rfl)
  | connect command port challenge =>
      simp only [loopbackStep]
      split
      · exact .silent ⟨fun _ h => h, fun _ _ h => h⟩ (responsesFrom_update rfl (by simp))
      · exact idle
  | respond command candidate fails =>
      simp only [loopbackStep]
      split
      · next port challenge _ =>
          split
          · next session hagent =>
              exact .answered hagent
                ⟨instanceSecret_kept (answer_installation hmac s session challenge candidate
                  fails), fun _ _ h => h⟩ rfl (responsesFrom_answered rfl ⟨rfl, rfl⟩)
          · exact idle
      · exact idle
  | impersonate command response =>
      simp only [loopbackStep]
      split
      · split
        · next hforeign =>
            exact .impersonated hforeign ⟨fun _ h => h, fun _ _ h => h⟩
              (responsesFrom_answered rfl rfl)
        · exact idle
      · exact idle
  | conclude command candidate bytes clock now fails =>
      simp only [loopbackStep]
      split
      · next port challenge response hcli =>
          have hkept := verifyDashboardAgent_installation hmac parseJson s.installation challenge
            candidate response
          split
          · exact .silent ⟨instanceSecret_kept hkept, fun _ _ h => h⟩
              (responsesFrom_update rfl (by simp))
          · next session hpassed =>
              exact loopbackMove_of_openPage hmac parseJson httpResponse parse sha256Hex hcli
                (Prod.ext rfl hpassed)
      · exact idle
  | abort command =>
      exact .silent ⟨fun _ h => h, fun _ _ h => h⟩ (responsesFrom_update rfl (by simp))

theorem LoopbackMove.extends {s s' : Loopback} {i : LoopbackInput} {obs : List LoopbackObs}
    (h : LoopbackMove hmac parseJson httpResponse s i s' obs) : s.Extends s' := by
  cases h <;> assumption

/-! ## The invariant -/

/-- What holds along every run:
    * a proof that has been given out is the MAC of a challenge and a session, under the
      secret of the installation;
    * a response that waits for its check came from the adversary, or is the answer of
      the agent on its port;
    * a page is opened after a check. -/
structure LoopbackKept (tr : List LoopbackObs) (s : Loopback) : Prop where
  proofs : ∀ challenge session proof, .proved challenge session proof ∈ tr →
    validInstanceChallenge challenge = true ∧ validAgentSession session = true ∧
      ∃ secret, s.installation.instanceSecret = some secret ∧
        proof = hmac (utf8 secret) (proofMessage challenge session)
  responses : ∀ command port challenge response,
    s.cli command = .answered port challenge response →
      s.listener port = some .adversary ∨ ∃ session, s.listener port = some (.agent session) ∧
        ∃ answer, response = httpResponse answer ∧
          ∀ identity, answer = .ok identity → identity.session = session
  pages : ∀ port session url, .opened port session url ∈ tr → .verified port session ∈ tr

/-- The proof in the answer of an agent, and its session. -/
theorem answer_eq_ok {s : Loopback} {session challenge candidate : String} {fails : Bool}
    {identity : InstanceIdentity}
    (h : (s.answer hmac session challenge candidate fails).2 = .ok identity) :
    identity.session = session ∧ validInstanceChallenge challenge = true ∧
      validAgentSession session = true ∧
      ∃ secret, (s.answer hmac session challenge candidate fails).1.instanceSecret = some secret ∧
        identity.proof = hmac (utf8 secret) (proofMessage challenge session) := by
  unfold Loopback.answer at h ⊢
  split at h
  · cases h
  · next hfails =>
      rw [if_neg hfails]
      obtain ⟨hsession, hproof⟩ := instanceIdentity_eq_ok hmac (Prod.ext rfl h)
      obtain ⟨hvalid, hshape, secret, hsecret, heq, -⟩ := instanceProof_eq_ok hmac hproof
      exact ⟨hsession, hvalid, hshape, secret, hsecret, heq⟩

theorem mem_provedIn {challenge challenge' session proof : String}
    {answer : Except AppError InstanceIdentity}
    (h : .proved challenge' session proof ∈ provedIn challenge answer) :
    ∃ identity, answer = .ok identity ∧ challenge' = challenge ∧ session = identity.session ∧
      proof = identity.proof := by
  cases answer with
  | error error => simp [provedIn] at h
  | ok identity =>
      simp only [provedIn, List.mem_singleton, LoopbackObs.proved.injEq] at h
      exact ⟨identity, rfl, h⟩

theorem opened_not_mem_provedIn {challenge session url : String} {port : Nat}
    {answer : Except AppError InstanceIdentity} :
    .opened port session url ∉ provedIn challenge answer := by
  cases answer <;> simp [provedIn]

/-- Every step keeps the invariant. -/
theorem loopbackKept_step {tr obs : List LoopbackObs} {s s' : Loopback} {i : LoopbackInput}
    (h : LoopbackMove hmac parseJson httpResponse s i s' obs)
    (hkept : LoopbackKept hmac httpResponse tr s) :
    LoopbackKept hmac httpResponse (tr ++ obs) s' := by
  have hextends := h.extends
  have hold : ∀ challenge session proof, .proved challenge session proof ∈ tr →
      validInstanceChallenge challenge = true ∧ validAgentSession session = true ∧
        ∃ secret, s'.installation.instanceSecret = some secret ∧
          proof = hmac (utf8 secret) (proofMessage challenge session) := by
    intro challenge session proof hmem
    obtain ⟨hvalid, hshape, secret, hsecret, heq⟩ := hkept.proofs _ _ _ hmem
    exact ⟨hvalid, hshape, secret, hextends.secret _ hsecret, heq⟩
  -- a response that waited in `s` waits at the same port in `s'`
  have hwaited : ∀ command port challenge response,
      s.cli command = .answered port challenge response →
        s'.listener port = some .adversary ∨ ∃ session,
          s'.listener port = some (.agent session) ∧ ∃ answer, response = httpResponse answer ∧
            ∀ identity, answer = .ok identity → identity.session = session := by
    intro command port challenge response hcli
    rcases hkept.responses _ _ _ _ hcli with hforeign | ⟨session, hagent, hanswer⟩
    · exact .inl (hextends.listener _ _ hforeign)
    · exact .inr ⟨session, hextends.listener _ _ hagent, hanswer⟩
  cases h with
  | silent _ hresponses =>
      rw [List.append_nil]
      refine ⟨hold, fun command port challenge response hcli => ?_, hkept.pages⟩
      rcases hresponses _ _ _ _ hcli with hcli | hnone
      · exact hwaited _ _ _ _ hcli
      · exact hnone.elim
  | @answered port session challenge candidate fails hagent _ hinstallation hresponses =>
      refine ⟨fun challenge' session' proof hmem => ?_,
        fun command port' challenge' response hcli => ?_, fun port' session' url hmem => ?_⟩
      · rcases List.mem_append.mp hmem with hmem | hmem
        · exact hold _ _ _ hmem
        · obtain ⟨identity, hok, rfl, rfl, rfl⟩ := mem_provedIn hmem
          obtain ⟨hsame, hvalid, hshape, secret, hsecret, heq⟩ := answer_eq_ok hmac hok
          rw [hsame, hinstallation]
          exact ⟨hvalid, hshape, secret, hsecret, heq⟩
      · rcases hresponses _ _ _ _ hcli with hcli | ⟨rfl, heq⟩
        · exact hwaited _ _ _ _ hcli
        · exact .inr ⟨session, hextends.listener _ _ hagent, _, heq,
            fun identity hok => (answer_eq_ok hmac hok).1⟩
      · rcases List.mem_append.mp hmem with hmem | hmem
        · exact List.mem_append_left _ (hkept.pages _ _ _ hmem)
        · exact absurd hmem opened_not_mem_provedIn
  | impersonated hforeign _ hresponses =>
      rw [List.append_nil]
      refine ⟨hold, fun command port challenge response hcli => ?_, hkept.pages⟩
      rcases hresponses _ _ _ _ hcli with hcli | rfl
      · exact hwaited _ _ _ _ hcli
      · exact .inl (hextends.listener _ _ hforeign)
  | @passed _ command port challenge candidate session _ _ _ _ _ _ _ _ _ hresponses hobs =>
      refine ⟨fun challenge' session' proof hmem => ?_,
        fun command' port' challenge' response hcli => ?_, fun port' session' url hmem => ?_⟩
      · rcases List.mem_append.mp hmem with hmem | hmem
        · exact hold _ _ _ hmem
        · rcases hobs with rfl | ⟨url, rfl⟩ <;> simp at hmem
      · rcases hresponses _ _ _ _ hcli with hcli | hnone
        · exact hwaited _ _ _ _ hcli
        · exact hnone.elim
      · rcases List.mem_append.mp hmem with hmem | hmem
        · exact List.mem_append_left _ (hkept.pages _ _ _ hmem)
        · apply List.mem_append_right
          rcases hobs with rfl | ⟨page, rfl⟩
          · simp at hmem
          · simp only [List.mem_cons, LoopbackObs.opened.injEq, reduceCtorEq, List.not_mem_nil,
              or_false, false_or] at hmem
            obtain ⟨rfl, rfl, -⟩ := hmem
            exact List.mem_cons_self

theorem loopbackKept_run (installation : Installation) (is : List LoopbackInput) :
    LoopbackKept hmac httpResponse
      (trace (loopbackStep hmac parseJson httpResponse parse sha256Hex)
        (.ofInstallation installation) is)
      (run (loopbackStep hmac parseJson httpResponse parse sha256Hex)
        (.ofInstallation installation) is) := by
  apply run_invariant (LoopbackKept hmac httpResponse)
  · exact ⟨by simp, fun _ _ _ _ h => by simp [Loopback.ofInstallation] at h, by simp⟩
  · intro tr s i hkept
    exact loopbackKept_step hmac parseJson httpResponse
      (loopbackMove_of_step hmac parseJson httpResponse parse sha256Hex s i) hkept

/-- With the invariant the checks decide: a page comes after its check. -/
theorem LoopbackKept.authenticated {tr : List LoopbackObs} {s : Loopback}
    (hkept : LoopbackKept hmac httpResponse tr s)
    (h : ∀ port session, .verified port session ∈ tr →
      s.listener port = some (.agent session)) : Authenticated tr s := by
  rintro port session (hverified | ⟨url, hopened⟩)
  · exact h _ _ hverified
  · exact h _ _ (hkept.pages _ _ _ hopened)

/-! ## One check -/

/-- A check that passes is of an agent with that session, or of a proof from the
    adversary that an agent has made. -/
theorem agent_or_relayed {tr : List LoopbackObs} {s : Loopback} {command port : Nat}
    {challenge candidate session : String} {response bytes : List UInt8} {clock now : Int}
    {fails : Bool}
    (hreads : ∀ answer identity, readIdentity parseJson (httpResponse answer) = .ok identity →
      answer = .ok identity)
    (hkept : LoopbackKept hmac httpResponse tr s)
    (hunforged : Unforged hmac parseJson tr s
      (.conclude command candidate bytes clock now fails))
    (hcli : s.cli command = .answered port challenge response)
    (hpassed : (verifyDashboardAgent hmac parseJson s.installation challenge response
      candidate).2 = .ok session) :
    s.listener port = some (.agent session) ∨ ∃ identity,
      s.ForeignIdentity parseJson command challenge identity ∧
        .proved challenge identity.session identity.proof ∈ tr := by
  obtain ⟨identity, hread, rfl, hproof⟩ :=
    (verifyDashboardAgent_eq_ok hmac parseJson).mp (Prod.ext rfl hpassed)
  rcases hkept.responses _ _ _ _ hcli with hforeign | ⟨owner, hagent, answer, rfl, hown⟩
  · right
    have hidentity : s.ForeignIdentity parseJson command challenge identity :=
      ⟨port, response, hcli, hforeign, hread⟩
    refine ⟨identity, hidentity, hunforged challenge identity hidentity ?_⟩
    obtain ⟨-, -, secret, hsecret, heq, -⟩ := instanceProof_eq_ok hmac hproof
    have hinstalled := instanceProof_installation hmac hproof
    rw [hinstalled, instanceSecret_getOrCreate] at hsecret
    rw [heq, Option.some.inj hsecret]
  · left
    rw [hown identity (hreads answer identity hread)]
    exact hagent

/-- A relayed proof passes the check. -/
theorem relayed_verified {tr : List LoopbackObs} {s : Loopback} {command : Nat}
    {challenge candidate : String} {bytes : List UInt8} {clock now : Int} {fails : Bool}
    {identity : InstanceIdentity} (hkept : LoopbackKept hmac httpResponse tr s)
    (hforeign : s.ForeignIdentity parseJson command challenge identity)
    (hproved : .proved challenge identity.session identity.proof ∈ tr) :
    ∃ port, s.listener port = some .adversary ∧ .verified port identity.session ∈
      (loopbackStep hmac parseJson httpResponse parse sha256Hex s
        (.conclude command candidate bytes clock now fails)).2 := by
  obtain ⟨port, response, hcli, hport, hread⟩ := hforeign
  obtain ⟨hvalid, hshape, secret, hsecret, heq⟩ := hkept.proofs _ _ _ hproved
  have hpassed : verifyDashboardAgent hmac parseJson s.installation challenge response candidate =
      (s.installation, .ok identity.session) := by
    rw [verifyDashboardAgent_eq_ok]
    refine ⟨identity, hread, rfl, ?_⟩
    rw [instanceProof_of_valid hmac hsecret hvalid hshape, ← heq]
  refine ⟨port, hport, ?_⟩
  simp only [loopbackStep, hcli, hpassed]
  unfold Loopback.openPage
  split
  · exact List.mem_singleton_self _
  · split
    · exact List.mem_singleton_self _
    · exact List.mem_cons_self

/-! ## Runs -/

/-- A step that relays nothing keeps `Authenticated`. -/
theorem authenticated_step {tr obs : List LoopbackObs} {s s' : Loopback} {i : LoopbackInput}
    (hreads : ∀ answer identity, readIdentity parseJson (httpResponse answer) = .ok identity →
      answer = .ok identity)
    (h : LoopbackMove hmac parseJson httpResponse s i s' obs)
    (hkept : LoopbackKept hmac httpResponse tr s)
    (hunforged : Unforged hmac parseJson tr s i) (hcalm : NotRelayed parseJson tr s i)
    (hold : Authenticated tr s) : Authenticated (tr ++ obs) s' := by
  apply LoopbackKept.authenticated hmac httpResponse (loopbackKept_step _ _ _ h hkept)
  intro port session hmem
  rcases List.mem_append.mp hmem with hmem | hmem
  · exact h.extends.listener _ _ (hold port session (.inl hmem))
  apply h.extends.listener
  cases h with
  | silent => simp at hmem
  | impersonated => simp at hmem
  | @answered _ _ challenge candidate fails =>
      generalize (s.answer hmac _ challenge candidate fails).2 = answer at hmem
      cases answer <;> simp [provedIn] at hmem
  | @passed _ command checked challenge candidate proven _ _ _ _ _ hinput hcli hpassed _ _ hobs =>
      subst hinput
      obtain ⟨rfl, rfl⟩ : port = checked ∧ session = proven := by
        rcases hobs with rfl | ⟨url, rfl⟩ <;> simpa using hmem
      rcases agent_or_relayed hmac parseJson httpResponse hreads hkept hunforged hcli hpassed with
        hagent | ⟨identity, hforeign, hproved⟩
      · exact hagent
      · exact absurd hproved (hcalm _ _ hforeign)

/-- A step that relays a proof makes a check pass on a port of the adversary. -/
theorem impersonated_step {tr : List LoopbackObs} {s : Loopback} {i : LoopbackInput}
    (hkept : LoopbackKept hmac httpResponse tr s) (hrelayed : ¬ NotRelayed parseJson tr s i) :
    ∃ port session, s.listener port = some .adversary ∧ .verified port session ∈
      (loopbackStep hmac parseJson httpResponse parse sha256Hex s i).2 := by
  cases i with
  | conclude command candidate bytes clock now fails =>
      simp only [NotRelayed, not_forall, not_not] at hrelayed
      obtain ⟨challenge, identity, hforeign, hproved⟩ := hrelayed
      obtain ⟨port, hport, hverified⟩ := relayed_verified hmac parseJson httpResponse parse
        sha256Hex hkept hforeign hproved
      exact ⟨port, _, hport, hverified⟩
  | _ => exact absurd trivial hrelayed

/-- A run that has relayed nothing is authenticated; in one that has, a check has
    passed on a port of the adversary. -/
theorem authenticated_or_impersonated
    (hreads : ∀ answer identity, readIdentity parseJson (httpResponse answer) = .ok identity →
      answer = .ok identity)
    (installation : Installation) {is : List LoopbackInput}
    (hunforged : Along (loopbackStep hmac parseJson httpResponse parse sha256Hex)
      (Unforged hmac parseJson) (.ofInstallation installation) is) :
    let step := loopbackStep hmac parseJson httpResponse parse sha256Hex
    let s := run step (.ofInstallation installation) is
    let tr := trace step (.ofInstallation installation) is
    (Along step (NotRelayed parseJson) (.ofInstallation installation) is →
      Authenticated tr s) ∧
    (¬ Along step (NotRelayed parseJson) (.ofInstallation installation) is →
      ∃ port session, s.listener port = some .adversary ∧ .verified port session ∈ tr) := by
  intro step
  induction is using List.reverseRecOn with
  | nil => exact ⟨fun _ => by simp [Authenticated], fun h => absurd along_nil h⟩
  | append_singleton is i ih =>
      intro s tr
      obtain ⟨hunforgedBefore, hunforgedNow⟩ := along_concat.mp hunforged
      obtain ⟨hcalm, himpersonated⟩ := ih hunforgedBefore
      have hkept := loopbackKept_run hmac parseJson httpResponse parse sha256Hex installation is
      have hmove := loopbackMove_of_step hmac parseJson httpResponse parse sha256Hex
        (run step (.ofInstallation installation) is) i
      have hs : s = (step (run step (.ofInstallation installation) is) i).1 := run_concat _ _ _ _
      have htr : tr = trace step (.ofInstallation installation) is ++
        (step (run step (.ofInstallation installation) is) i).2 := trace_concat _ _ _ _
      rw [hs, htr, along_concat]
      constructor
      · rintro ⟨hbefore, hnow⟩
        exact authenticated_step hmac parseJson httpResponse hreads hmove hkept hunforgedNow hnow
          (hcalm hbefore)
      · intro hnot
        by_cases hbefore : Along step (NotRelayed parseJson) (.ofInstallation installation) is
        · obtain ⟨port, session, hport, hverified⟩ := impersonated_step hmac parseJson httpResponse
            parse sha256Hex hkept fun hnow => hnot ⟨hbefore, hnow⟩
          exact ⟨port, session, hmove.extends.listener _ _ hport,
            List.mem_append_right _ hverified⟩
        · obtain ⟨port, session, hport, hverified⟩ := himpersonated hbefore
          exact ⟨port, session, hmove.extends.listener _ _ hport,
            List.mem_append_left _ hverified⟩

end

/-- **When the handshake authenticates.**  With any agents and adversaries on the ports,
    any questions to the agents and any commands, in any order, and with HMAC ideal: every
    check that passes and every page that is opened is of the agent whose session the
    grant is bound to exactly when no command checks, from a port of the adversary, a
    proof that an agent has given out for its challenge. -/
theorem dashboard_authenticated_iff (hmac : List UInt8 → List UInt8 → String)
    (parseJson : List UInt8 → Option InstanceIdentity)
    (httpResponse : Except AppError InstanceIdentity → List UInt8)
    (parse : String → Option Url) (sha256Hex : List UInt8 → String)
    (hreads : ∀ answer identity, readIdentity parseJson (httpResponse answer) = .ok identity →
      answer = .ok identity)
    (installation : Installation) (is : List LoopbackInput)
    (hunforged : Along (loopbackStep hmac parseJson httpResponse parse sha256Hex)
      (Unforged hmac parseJson) (.ofInstallation installation) is) :
    let step := loopbackStep hmac parseJson httpResponse parse sha256Hex
    Authenticated (trace step (.ofInstallation installation) is)
        (run step (.ofInstallation installation) is) ↔
      Along step (NotRelayed parseJson) (.ofInstallation installation) is := by
  intro step
  obtain ⟨hcalm, himpersonated⟩ := authenticated_or_impersonated hmac parseJson httpResponse parse
    sha256Hex hreads installation hunforged
  constructor
  · intro hauthenticated
    by_contra hrelayed
    obtain ⟨port, session, hport, hverified⟩ := himpersonated hrelayed
    have hagent := hauthenticated port session (.inl hverified)
    rw [hport] at hagent
    cases hagent
  · exact hcalm

/-! ## An agent, and a relay -/

/-- An instance secret: 32 times the byte 3. -/
def exampleInstanceSecret : String := "AwMDAwMDAwMDAwMDAwMDAwMDAwMDAwMDAwMDAwMDAwM"

def exampleChallenge : String := "0123456789abcdef0123456789abcdef"

/-- The HMAC-SHA256 of the challenge and the example session, under that secret. -/
def exampleProof : String := "998b2fdbda6462f7dfa5474625f245514cc76bd6a611655a29517538f8026739"

def exampleHmac (key message : List UInt8) : String :=
  if key = utf8 exampleInstanceSecret ∧ message = proofMessage exampleChallenge exampleSession then
    exampleProof
  else ""

def exampleIdentity : InstanceIdentity := ⟨productName, version, exampleSession, exampleProof⟩

/-- The identity as JSON. -/
def exampleIdentityJson : List UInt8 :=
  utf8 "\x7b\"product\":\"PrintLatch\",\"version\":\"0.1.1\"," ++
    utf8 "\"session\":\"" ++ utf8 exampleSession ++ utf8 "\",\"proof\":\"" ++ utf8 exampleProof ++
    utf8 "\"\x7d"

def exampleParseJson (body : List UInt8) : Option InstanceIdentity :=
  if body = exampleIdentityJson then some exampleIdentity else none

def exampleHttpResponse : Except AppError InstanceIdentity → List UInt8
  | .ok identity =>
      if identity = exampleIdentity then utf8 "HTTP/1.1 200 OK\r\n\r\n" ++ exampleIdentityJson
      else []
  | .error _ => utf8 "HTTP/1.1 500 Internal Server Error\r\n\r\n"

/-- What the `url` crate makes of the dashboard's origin. -/
def exampleLoopbackParse (value : String) : Option Url :=
  if value = "http://127.0.0.1:32191" then
    some ⟨"http", "", none, some "127.0.0.1", some 32191, "/", none, none⟩
  else none

/-- A new installation. -/
def exampleLoopback : Loopback := .ofInstallation ⟨.fresh, none⟩

def exampleDashboardPage : String :=
  "http://127.0.0.1:32191/app/#code=PL-00010203-04050607-08090A0B-0C0D0E0F"

/-- The agent is on the port, and answers the command. -/
def exampleAnswered : List LoopbackInput :=
  [.bind 32191 (.agent exampleSession), .connect 0 32191 exampleChallenge,
    .respond 0 exampleInstanceSecret false]

/-- The agent is on another port; the adversary asks it for the command's challenge and
    passes its answer on. -/
def exampleRelayed : List LoopbackInput :=
  [.bind 32192 (.agent exampleSession), .bind 32191 .adversary, .connect 0 32191 exampleChallenge,
    .ask 32192 exampleChallenge exampleInstanceSecret false,
    .impersonate 0 (exampleHttpResponse (.ok exampleIdentity))]

/-- The command checks the answer, and grants. -/
def exampleConclude : LoopbackInput := .conclude 0 "" exampleCodeBytes 0 0 false

/-- The steps of the examples. -/
def exampleLoopbackStep : Loopback → LoopbackInput → Loopback × List LoopbackObs :=
  loopbackStep exampleHmac exampleParseJson exampleHttpResponse exampleLoopbackParse
    exampleCodeDigest

theorem example_reads (answer : Except AppError InstanceIdentity) (identity : InstanceIdentity)
    (h : readIdentity exampleParseJson (exampleHttpResponse answer) = .ok identity) :
    answer = .ok identity := by
  have hread : readIdentity exampleParseJson (exampleHttpResponse (.ok exampleIdentity)) =
      .ok exampleIdentity := by decide +kernel
  have hempty : readIdentity exampleParseJson [] =
      .error "listener did not return a valid HTTP response" := by decide +kernel
  have hfailed : readIdentity exampleParseJson (exampleHttpResponse (.error .internal)) =
      .error "listener is not the expected PrintLatch agent" := by decide +kernel
  cases answer with
  | error error =>
      rw [show exampleHttpResponse (.error error) = exampleHttpResponse (.error .internal) from rfl,
        hfailed] at h
      cases h
  | ok answered =>
      by_cases hsame : answered = exampleIdentity
      · rw [hsame, hread] at h
        rw [hsame, Except.ok.inj h]
      · rw [show exampleHttpResponse (.ok answered) = [] from if_neg hsame, hempty] at h
        cases h

/-- A guard that asks something of checks only holds along a run whose last input is
    its only check when it holds there. -/
theorem along_check {ok : List LoopbackObs → Loopback → LoopbackInput → Prop}
    {is : List LoopbackInput} (hsteps : ∀ i ∈ is, ∀ tr s, ok tr s i)
    (hlast : ok (trace exampleLoopbackStep exampleLoopback is)
      (run exampleLoopbackStep exampleLoopback is) exampleConclude) :
    Along exampleLoopbackStep ok exampleLoopback (is ++ [exampleConclude]) := by
  rw [along_concat]
  exact ⟨Along.mono (along_input_iff.mpr hsteps) fun tr s i hi => hi tr s, hlast⟩

theorem dashboard_authenticated_of_exampleHandshake :
    let is := exampleAnswered ++ [exampleConclude]
    .opened 32191 exampleSession exampleDashboardPage ∈
        trace exampleLoopbackStep exampleLoopback is ∧
      Authenticated (trace exampleLoopbackStep exampleLoopback is)
        (run exampleLoopbackStep exampleLoopback is) := by
  intro is
  obtain ⟨hcli, hagent, hopened⟩ :
      (run exampleLoopbackStep exampleLoopback exampleAnswered).cli 0 =
          .answered 32191 exampleChallenge (exampleHttpResponse (.ok exampleIdentity)) ∧
        (run exampleLoopbackStep exampleLoopback exampleAnswered).listener 32191 =
          some (.agent exampleSession) ∧
        .opened 32191 exampleSession exampleDashboardPage ∈
          trace exampleLoopbackStep exampleLoopback is := by
    decide +kernel
  have hown : ∀ challenge identity, ¬ (run exampleLoopbackStep exampleLoopback
      exampleAnswered).ForeignIdentity exampleParseJson 0 challenge identity := by
    rintro challenge identity ⟨port, response, hport, hforeign, -⟩
    rw [hcli] at hport
    cases hport
    rw [hagent] at hforeign
    cases hforeign
  refine ⟨hopened, ?_⟩
  apply (dashboard_authenticated_iff exampleHmac exampleParseJson exampleHttpResponse
    exampleLoopbackParse exampleCodeDigest example_reads ⟨.fresh, none⟩ is ?_).mpr
  · exact along_check (by simp [exampleAnswered, NotRelayed])
      fun challenge identity hforeign => absurd hforeign (hown challenge identity)
  · exact along_check (by simp [exampleAnswered, Unforged])
      fun challenge identity hforeign => absurd hforeign (hown challenge identity)

/-- The adversary's port passes the check, and the page that carries the pairing code
    is opened there. -/
theorem dashboard_impersonated :
    let is := exampleRelayed ++ [exampleConclude]
    (∀ answer identity,
        readIdentity exampleParseJson (exampleHttpResponse answer) = .ok identity →
          answer = .ok identity) ∧
      Along exampleLoopbackStep (Unforged exampleHmac exampleParseJson) exampleLoopback is ∧
      (run exampleLoopbackStep exampleLoopback is).listener 32191 = some .adversary ∧
      .opened 32191 exampleSession exampleDashboardPage ∈
        trace exampleLoopbackStep exampleLoopback is ∧
      ¬ Authenticated (trace exampleLoopbackStep exampleLoopback is)
        (run exampleLoopbackStep exampleLoopback is) := by
  intro is
  obtain ⟨hcli, hproved, hforeign, hopened⟩ :
      (run exampleLoopbackStep exampleLoopback exampleRelayed).cli 0 =
          .answered 32191 exampleChallenge (exampleHttpResponse (.ok exampleIdentity)) ∧
        .proved exampleChallenge exampleSession exampleProof ∈
          trace exampleLoopbackStep exampleLoopback exampleRelayed ∧
        (run exampleLoopbackStep exampleLoopback is).listener 32191 = some .adversary ∧
        .opened 32191 exampleSession exampleDashboardPage ∈
          trace exampleLoopbackStep exampleLoopback is := by
    decide +kernel
  refine ⟨example_reads, along_check (by simp [exampleRelayed, Unforged]) ?_, hforeign, hopened,
    fun hauthenticated => ?_⟩
  · rintro challenge identity ⟨port, response, hport, -, hread⟩ -
    rw [hcli] at hport
    cases hport
    cases example_reads _ _ hread
    exact hproved
  · have hagent := hauthenticated 32191 exampleSession (.inr ⟨_, hopened⟩)
    rw [hforeign] at hagent
    cases hagent

end PrintLatch
