/-
  PrintLatch.Desktop.Strangers

  Whoever has no token and no code neither changes the site nor learns from it.

  Anybody on the machine can send requests to a loopback port, and a page can make a
  browser send them.  A stranger's request is one for which `authenticate` finds no client
  and whose code, if it brings one, is not stored.  What such requests are answered is the
  same at two sites that differ in everything they must not learn
  (`strangers_learn_nothing`).  From the first proof on, which creates the secret of the
  installation, they can be left out of any run (`strangers_change_nothing`).
-/

import PrintLatch.Desktop.System
import PrintLatch.Api.Effects
import PrintLatch.Reactive.Simulation

namespace PrintLatch.Desktop

open Reactive Text

section

variable (parse : String → Option Url) (sha256Hex : List UInt8 → String)
  (validatePdf : List UInt8 → String → Except String PdfReport) (headerText : String → Bool)
  (hmac : List UInt8 → List UInt8 → String) (parseJson : List UInt8 → Option InstanceIdentity)
  (decodeSegment : String → Option String)

/-- The event is a request that nobody vouches for. -/
def OfStranger (s : Site) : Event → Prop
  | .request _ request o => Api.Stranger sha256Hex s.agent request o
  | _ => False

/-- The two sites have the same processes and credentials, and differ in jobs, files and
    ports. -/
structure Alike (s t : Site) : Prop where
  same : Api.SamePublic s.agent t.agent
  procs : s.world.procs = t.world.procs
  sessions : s.sessions = t.sessions

theorem Alike.refl (s : Site) : Alike s s := ⟨.refl _, rfl, rfl⟩

theorem Alike.secret {s t : Site} (h : Alike s t) : t.instanceSecret = s.instanceSecret :=
  h.same.instanceSecret.symm

theorem Alike.withSecret {s t : Site} (h : Alike s t) (secret : Option String) :
    Alike { s with instanceSecret := secret } { t with instanceSecret := secret } :=
  ⟨⟨h.same.clients, h.same.pairingCodes, rfl⟩, h.procs, h.sessions⟩

/-- One stranger's request, at all sites that are alike. -/
theorem step_stranger {s : Site} {e : Event} (h : OfStranger sha256Hex s e) :
    ∃ seen secret, Api.Follows s.instanceSecret secret ∧ ∀ t, Alike s t →
      step parse sha256Hex validatePdf headerText hmac parseJson decodeSegment t e =
        ({ t with instanceSecret := secret }, seen) := by
  have hkept : ∀ t, Alike s t → { t with instanceSecret := s.instanceSecret } = t := fun t ht => by
    rw [← ht.secret]
  cases e with
  | request pid request o =>
      cases hproc : s.world.procs pid with
      | none =>
          refine ⟨[], s.instanceSecret, fun _ => rfl, fun t ht => ?_⟩
          simp only [step, ← ht.procs, hproc, hkept t ht]
      | some p =>
          cases hlistening : p.listening with
          | false =>
              refine ⟨[], s.instanceSecret, fun _ => rfl, fun t ht => ?_⟩
              simp only [step, ← ht.procs, hproc, hlistening, hkept t ht]
              rfl
          | true =>
              obtain ⟨response, secret, hfollows, hserve⟩ := Api.blind_serve parse sha256Hex
                validatePdf headerText hmac decodeSegment p.config (s.sessions pid) h
              refine ⟨[.response pid response], secret, hfollows, fun t ht => ?_⟩
              have hserved := hserve t.agent ht.same
              rw [ht.sessions] at hserved
              -- nobody is served, so no job is acted on
              simp only [step, ← ht.procs, hproc, hlistening, answer, if_true, hserved]
              rfl
  | _ => exact absurd h id

/-! ## The secret of the installation stays -/

theorem secret_of_installation {i after : Installation} {candidate : String}
    (hafter : after = i ∨ after = (i.getOrCreateInstanceSecret candidate).1)
    (h : i.instanceSecret ≠ none) : after.instanceSecret ≠ none := by
  rcases hafter with rfl | rfl
  · exact h
  · rw [instanceSecret_getOrCreate]
    simp

theorem secret_serveInstance {state : Api.AgentState} (h : state.instanceSecret ≠ none)
    (session : String) (challenge : Option String) (o : Api.RequestOutside) :
    (Api.serveInstance hmac session state challenge o).state.instanceSecret ≠ none := by
  unfold Api.serveInstance
  split
  · exact h
  · next challenge =>
      have hafter := instanceIdentity_installation hmac ⟨state.dir.db, state.instanceSecret⟩
        session challenge o.instanceCandidate
      split
      · next heq =>
          rw [heq] at hafter
          exact secret_of_installation hafter h
      · next heq =>
          rw [heq] at hafter
          exact secret_of_installation hafter h

theorem secret_servePair {state : Api.AgentState} (h : state.instanceSecret ≠ none)
    (session : String) (request : Api.HttpRequest) (o : Api.RequestOutside) :
    (Api.servePair parse sha256Hex session state request o).state.instanceSecret ≠ none := by
  unfold Api.servePair
  split
  · exact h
  · split
    · exact h
    · split <;> exact h

theorem secret_step {s : Site} (e : Event) (h : s.instanceSecret ≠ none) :
    (step parse sha256Hex validatePdf headerText hmac parseJson decodeSegment s
      e).1.instanceSecret ≠ none := by
  cases e with
  | request pid request o =>
      simp only [step]
      split
      · exact h
      · next p _ =>
          split
          · show (Api.serve parse sha256Hex validatePdf headerText hmac decodeSegment p.config
              (s.sessions pid) s.agent request o).state.instanceSecret ≠ none
            have hmove := @Api.serve_state parse sha256Hex validatePdf headerText hmac decodeSegment
              p.config (s.sessions pid) s.agent request o
            generalize (Api.serve parse sha256Hex validatePdf headerText hmac decodeSegment p.config
              (s.sessions pid) s.agent request o).state = after at hmove ⊢
            cases hmove with
            | same => exact h
            | job => exact h
            | pair => exact secret_servePair parse sha256Hex h _ request o
            | identity => exact secret_serveInstance hmac h _ request.challenge o
          · exact h
  | command command =>
      cases command with
      | dashboard port challenge candidate response bytes clock now fails =>
          have hafter := secret_of_installation (verifyDashboardAgent_installation hmac parseJson
            ⟨s.world.db, s.instanceSecret⟩ challenge candidate response) h
          simp only [step, runCommand]
          split <;> exact hafter
      | _ => exact h
  | _ => exact h

end

/-! ## Integrity -/

/-- **Strangers change nothing.**  Take any run of a site that has its secret, in which the
    flagged events are strangers' requests when they come.  Without them the run ends in
    the same state, and everybody else sees the same. -/
theorem strangers_change_nothing (parse : String → Option Url) (sha256Hex : List UInt8 → String)
    (validatePdf : List UInt8 → String → Except String PdfReport) (headerText : String → Bool)
    (hmac : List UInt8 → List UInt8 → String) (parseJson : List UInt8 → Option InstanceIdentity)
    (decodeSegment : String → Option String) (s : Site) (is : List (Event × Bool))
    (hsecret : s.instanceSecret ≠ none) :
    let step := step parse sha256Hex validatePdf headerText hmac parseJson decodeSegment
    Along (muted step) (fun _ u i => i.2 = true → OfStranger sha256Hex u i.1) s is →
      run (muted step) s is = run step s (unflagged is) ∧
        trace (muted step) s is = trace step s (unflagged is) := by
  intro step hstrangers
  have hstill : ∀ u e, u.instanceSecret ≠ none ∧ OfStranger sha256Hex u e → (step u e).1 = u := by
    rintro u e ⟨hu, he⟩
    obtain ⟨seen, secret, hfollows, hstep⟩ := step_stranger parse sha256Hex validatePdf headerText
      hmac parseJson decodeSegment he
    obtain rfl := hfollows hu
    exact congrArg Prod.fst (hstep u (.refl u))
  -- the secret is there before every step
  have hkept : ∀ (_ : List Seen) (u : Site) (i : Event × Bool), u.instanceSecret ≠ none →
      (muted step u i).1.instanceSecret ≠ none := fun _ u i hu =>
    secret_step parse sha256Hex validatePdf headerText hmac parseJson decodeSegment i.1 hu
  refine run_muted hstill fun pre i post heq hflag => ⟨?_, hstrangers pre i post heq hflag⟩
  exact run_invariant (fun (_ : List Seen) (u : Site) => u.instanceSecret ≠ none) hsecret hkept pre

/-! ## Confidentiality -/

/-- Who is a stranger does not depend on the secret. -/
theorem ofStranger_withSecret {s : Site} {e : Event} (secret : Option String)
    (h : OfStranger sha256Hex s e) :
    OfStranger sha256Hex { s with instanceSecret := secret } e := by
  cases e with
  | request pid request o => exact ⟨h.refused, h.codeless⟩
  | _ => exact h

/-- **Strangers learn nothing.**  At two sites with the same processes and credentials,
    whatever their jobs, documents and other files, any requests by strangers get the same
    responses, and leave both sites as they were; only where the installation has no secret
    yet, a stranger's request for a proof may create one, the same at both. -/
theorem strangers_learn_nothing (parse : String → Option Url) (sha256Hex : List UInt8 → String)
    (validatePdf : List UInt8 → String → Except String PdfReport) (headerText : String → Bool)
    (hmac : List UInt8 → List UInt8 → String) (parseJson : List UInt8 → Option InstanceIdentity)
    (decodeSegment : String → Option String) (s t : Site) (es : List Event)
    (halike : Alike s t) (hstrangers : ∀ e ∈ es, OfStranger sha256Hex s e) :
    let step := step parse sha256Hex validatePdf headerText hmac parseJson decodeSegment
    trace step s es = trace step t es ∧
      ∃ secret, Api.Follows s.instanceSecret secret ∧
        run step s es = { s with instanceSecret := secret } ∧
        run step t es = { t with instanceSecret := secret } := by
  intro step
  induction es generalizing s t with
  | nil =>
      refine ⟨rfl, s.instanceSecret, fun _ => rfl, rfl, ?_⟩
      show t = _
      rw [← halike.secret]
  | cons e es ih =>
      obtain ⟨seen, secret, hfollows, hstep⟩ := step_stranger parse sha256Hex validatePdf
        headerText hmac parseJson decodeSegment (hstrangers e List.mem_cons_self)
      have hs : step s e = ({ s with instanceSecret := secret }, seen) := hstep s (.refl s)
      have ht : step t e = ({ t with instanceSecret := secret }, seen) := hstep t halike
      obtain ⟨htrace, last, hlast, hrun, hrun'⟩ := ih _ _ (halike.withSecret secret)
        fun e' he' => ofStranger_withSecret secret (hstrangers e' (List.mem_cons_of_mem e he'))
      simp only [trace_cons, run_cons, hs, ht]
      refine ⟨congrArg (seen ++ ·) htrace, last, fun h => ?_, hrun, hrun'⟩
      -- a secret that was there is there after the first request too
      obtain rfl := hfollows h
      exact hlast h

/-! ## A wrong token -/

/-- The agent of the example configuration, listening, with a job of the client. -/
def exampleSite : Site :=
  run (step (fun _ => none) exampleTokenDigest Api.examplePdfCheck (fun _ => true)
      (fun _ _ => "") (fun _ => none) some)
    { Site.ofDatabase Api.exampleShared.db Api.exampleShared.files with
      instanceSecret := some "secret" }
    [.start 0 exampleConfig exampleSession 0, .bind 0]

/-- A request for the job, with a token that nobody was given. -/
def exampleProbe : Event :=
  .request 0
    { method := .get
      path := ["v1", "jobs", "j2"]
      headers := [("host", utf8 "127.0.0.1:17890"), ("authorization", utf8 "Bearer pl_live_guess")]
      limit := none
      challenge := none
      code := .error .missingContentType
      multipart := none }
    ⟨⟨0, 0, "j3", none, [], none⟩, 0, "", "", 0, 0, [], ""⟩

theorem exampleProbe_ofStranger : OfStranger exampleTokenDigest exampleSite exampleProbe where
  refused client h := by
    have herror : (authenticate exampleTokenDigest exampleSite.agent.dir.db
        [("host", utf8 "127.0.0.1:17890"), ("authorization", utf8 "Bearer pl_live_guess")]
        0).toOption = none := by decide +kernel
    rw [show authenticate exampleTokenDigest exampleSite.agent.dir.db _ 0 = .ok client from h]
      at herror
    cases herror
  codeless code h := by cases h

theorem strangers_change_nothing_of_exampleProbe :
    trace (muted (step (fun _ => none) exampleTokenDigest Api.examplePdfCheck (fun _ => true)
        (fun _ _ => "") (fun _ => none) some)) exampleSite
        [(exampleProbe, true), (.crash 0, false)] =
      trace (step (fun _ => none) exampleTokenDigest Api.examplePdfCheck (fun _ => true)
        (fun _ _ => "") (fun _ => none) some) exampleSite [.crash 0] :=
  (strangers_change_nothing (fun _ => none) exampleTokenDigest Api.examplePdfCheck (fun _ => true)
    (fun _ _ => "") (fun _ => none) some exampleSite [(exampleProbe, true), (.crash 0, false)]
    (by decide +kernel) (along_cons.mpr ⟨fun _ => exampleProbe_ofStranger,
      along_cons.mpr ⟨fun h => absurd h (by decide), along_nil⟩⟩)).2

/-- The same agent, without a job and without files. -/
def exampleEmptySite : Site :=
  { exampleSite with
    world := { exampleSite.world with db := Api.exampleAlone.db }
    files := fun _ => none }

theorem strangers_learn_nothing_of_exampleProbe :
    trace (step (fun _ => none) exampleTokenDigest Api.examplePdfCheck (fun _ => true)
        (fun _ _ => "") (fun _ => none) some) exampleSite [exampleProbe] =
      trace (step (fun _ => none) exampleTokenDigest Api.examplePdfCheck (fun _ => true)
        (fun _ _ => "") (fun _ => none) some) exampleEmptySite [exampleProbe] :=
  (strangers_learn_nothing (fun _ => none) exampleTokenDigest Api.examplePdfCheck (fun _ => true)
    (fun _ _ => "") (fun _ => none) some exampleSite exampleEmptySite [exampleProbe]
    ⟨⟨rfl, rfl, rfl⟩, rfl, rfl⟩ fun e he => by
      obtain rfl := List.mem_singleton.mp he
      exact exampleProbe_ofStranger).1

end PrintLatch.Desktop
