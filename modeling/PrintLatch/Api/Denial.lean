/-
  PrintLatch.Api.Denial

  Who is turned away with 401 or 403 (`src/api.rs`).

  `authenticate` fails with one of the two statuses, and no handler behind it does.  So the
  status alone tells a client whether its token was taken; besides, the two answer a foreign
  `Host` and a code that cannot be redeemed, and nothing else (`denied_iff`).
-/

import PrintLatch.Api.Documents

namespace PrintLatch.Api

open Text

/-- A status of refused credentials. -/
def denied (status : Nat) : Bool := status = 401 ∨ status = 403

theorem not_denied_of_atFault {error : AppError} (h : AtFault error) :
    denied error.status = false := by
  unfold denied
  rcases h with h | h <;> rw [h] <;> rfl

/-- The responses among what a handler shows are not denials. -/
def Undenied (obs : List Obs) : Prop :=
  ∀ response, .response response ∈ obs → denied response.status = false

theorem undenied_one {response : Response} (h : denied response.status = false) :
    Undenied [.response response] := by
  intro other hmem
  obtain rfl := by simpa using hmem
  exact h

theorem Undenied.shown {obs : List Obs} (h : Undenied obs) :
    denied (shownResponse obs).status = false := by
  unfold shownResponse
  split
  · next response hlast => exact h response (List.mem_of_getLast? hlast)
  · rfl

/-! ## Behind `authenticate` -/

section

variable (parse : String → Option Url) (sha256Hex : List UInt8 → String)
  (validatePdf : List UInt8 → String → Except String PdfReport) (headerText : String → Bool)
  (hmac : List UInt8 → List UInt8 → String) (decodeSegment : String → Option String)
  (config : AppConfig) (instanceSession : String)

theorem denied_of_authenticate {db : Database} {headers : HeaderMap} {now : Int}
    {error : AppError} (h : authenticate sha256Hex db headers now = .error error) :
    denied error.status = true := by
  unfold authenticate at h
  split at h
  · cases h
    rfl
  · split at h
    · cases h
      rfl
    · split at h
      · cases h
      · cases h
        rfl

/-- A handler that ends in a job denies nothing, if the error for a missing job does not. -/
theorem not_denied_respond {missing : AppError} (h : denied missing.status = false)
    (dir : DataDir) (clientId id : String) (call : Fault) (o : Outside) :
    denied (respond (jobOrError dir clientId id call missing o)).status = false := by
  unfold jobOrError
  split
  · rfl
  · split
    · exact h
    · rfl

theorem not_denied_getDocument (dir : DataDir) (clientId id : String) (o : Outside) :
    denied (getDocument headerText dir clientId id o).status = false := by
  unfold getDocument
  split
  · rfl
  · split
    · rfl
    · split
      · rfl
      · split
        · rfl
        · split <;> rfl

theorem undenied_changeJob {refusal : AppError} (h : denied refusal.status = false)
    {notices : List Obs} (hnotices : ∀ response, .response response ∉ notices) (dir : DataDir)
    (clientId id : String) (changed : Database × Bool) (o : Outside) :
    Undenied (changeJob dir clientId id changed refusal notices o).2 := by
  unfold changeJob
  split
  · exact undenied_one rfl
  · split
    · intro response hmem
      rcases List.mem_append.mp hmem with hmem | hmem
      · exact absurd hmem (hnotices response)
      · exact undenied_one (not_denied_respond rfl _ clientId id .reload o) response hmem
    · exact undenied_one h

theorem undenied_storeJob (dir : DataDir) (clientId : String) (parsed : ParsedJob)
    (report : PdfReport) (o : Outside) :
    Undenied (storeJob config dir clientId parsed report o).2 := by
  unfold storeJob
  split
  · exact undenied_one rfl
  · dsimp only
    split
    · exact undenied_one rfl
    · intro response hmem
      rcases List.mem_append.mp hmem with hmem | hmem
      · split at hmem <;> simp at hmem
      · refine undenied_one ?_ response hmem
        -- the job that was stored, or the error of reading it again
        unfold jobOrError
        split
        · next error heq =>
            split at heq
            · cases heq
              rfl
            · split at heq
              · cases heq
                rfl
              · cases heq
        · rfl

theorem undenied_createJob (dir : DataDir) (clientId : String) (multipart : Multipart)
    (o : Outside) :
    Undenied (createJob sha256Hex validatePdf config dir clientId multipart o).2 := by
  unfold createJob
  split
  · next error herror =>
      refine undenied_one ?_
      unfold admitJob at herror
      split at herror
      · next hparse =>
          cases herror
          exact not_denied_of_atFault (atFault_parseJob hparse)
      · dsimp only at herror
        split at herror
        · next havailable =>
            cases herror
            split at havailable
            · split at havailable <;> cases havailable <;> rfl
            · cases havailable
        · split at herror
          · cases herror
            rfl
          · cases herror
  · exact undenied_storeJob config dir clientId _ _ o

/-- No handler denies a client that `authenticate` has let in. -/
theorem undenied_handleFor (dir : DataDir) (clientId : String) (r : Request) (o : Outside) :
    Undenied (handleFor sha256Hex validatePdf headerText config dir clientId r o).2 := by
  cases r with
  | createJob multipart =>
      exact undenied_createJob sha256Hex validatePdf config dir clientId multipart o
  | listJobs limit =>
      refine undenied_one ?_
      unfold listJobs
      split <;> rfl
  | getJob id => exact undenied_one (not_denied_respond rfl dir clientId id .select o)
  | getDocument id => exact undenied_one (not_denied_getDocument headerText dir clientId id o)
  | cancelJob id => exact undenied_changeJob rfl (by simp) dir clientId id _ o
  | retryJob id => exact undenied_changeJob rfl (by simp) dir clientId id _ o

/-! ## On the socket -/

variable (state : AgentState) (headers : HeaderMap) (o : RequestOutside)

theorem denied_serveJobs_iff (r : Request) :
    denied (serveJobs sha256Hex validatePdf headerText config state headers r o).response.status =
        true ↔
      ∃ error, authenticate sha256Hex state.dir.db headers o.job.authenticatedAt =
        .error error := by
  show denied (shownResponse (handle sha256Hex validatePdf headerText config state.dir
    ⟨headers, r, o.job⟩).2).status = true ↔ _
  unfold handle
  cases hauth : authenticate sha256Hex state.dir.db headers o.job.authenticatedAt with
  | error error => simp [shownResponse, errorResponse, denied_of_authenticate sha256Hex hauth]
  | ok client =>
      -- behind `authenticate` no handler denies
      have hshown := (undenied_handleFor sha256Hex validatePdf headerText config state.dir
        client.id r o.job).shown
      simp [hshown]

theorem denied_serveRead_iff {response : HttpResponse} (h : denied response.status = false) :
    denied (serveRead sha256Hex state headers response o).response.status = true ↔
      ∃ error, authenticate sha256Hex state.dir.db headers o.job.authenticatedAt =
        .error error := by
  unfold serveRead
  cases hauth : authenticate sha256Hex state.dir.db headers o.job.authenticatedAt with
  | error error =>
      simp [AgentState.answer, refusal, denied_of_authenticate sha256Hex hauth]
  | ok client => simp [AgentState.answer, h]

theorem not_denied_printersResponse (devices : Option (List PrinterDevice)) :
    denied (printersResponse sha256Hex devices).status = false := by
  unfold printersResponse
  split <;> rfl

theorem not_denied_serveInstance (challenge : Option String) :
    denied (serveInstance hmac instanceSession state challenge o).response.status = false := by
  unfold serveInstance
  split
  · rfl
  · split
    · next error heq =>
        unfold instanceIdentity at heq
        split at heq
        · cases heq
          rfl
        · split at heq <;> cases heq
          rfl
    · rfl

/-- The code in the request cannot be redeemed: the request has no origin for it, or there is
    no such code for the origin and the session. -/
def CodeDenied (state : AgentState) (request : HttpRequest) (o : RequestOutside) : Prop :=
  ∃ code, request.code = .ok code ∧ ∀ value origin,
    requestOrigin request.headers = .ok value → normalizeOrigin parse value = .ok origin →
      ¬ consumeFails o.redemptionFaults ∧
        state.dir.db.redeemableCode? (hashSecret sha256Hex code) origin o.redeemedAt
          instanceSession = none

theorem requestOrigin_error {headers : HeaderMap} {error : AppError}
    (h : requestOrigin headers = .error error) : error = .forbidden := by
  unfold requestOrigin at h
  split at h <;> cases h
  rfl

/-- The answer to a redemption with a fault, or whose code was found, is no denial. -/
theorem not_denied_of_found {db : Database} {code value origin : String} {o : RequestOutside}
    (hnormal : normalizeOrigin parse value = .ok origin)
    (h : consumeFails o.redemptionFaults ∨ ∃ r, db.redeemableCode? (hashSecret sha256Hex code)
      origin o.redeemedAt instanceSession = some r) {error : AppError}
    (herror : (consumePairingCode parse sha256Hex db code value instanceSession o.redeemedAt
      o.secret o.candidateId o.clock o.issuedAt o.redemptionFaults).2 = .error error) :
    error = .internal := by
  unfold consumePairingCode at herror
  rw [hnormal] at herror
  dsimp only at herror
  by_cases hfails : consumeFails o.redemptionFaults
  · rw [if_pos hfails] at herror
    cases herror
    rfl
  · obtain ⟨r, hr⟩ := h.resolve_left hfails
    obtain ⟨db', hconsumed, -⟩ := Database.consumePairingCode_of_some hr
    rw [if_neg hfails, hconsumed] at herror
    dsimp only at herror
    split at herror
    · cases herror
      rfl
    · split at herror <;> cases herror
      rfl

theorem denied_servePair_iff (request : HttpRequest) :
    denied (servePair parse sha256Hex instanceSession state request o).response.status = true ↔
      CodeDenied parse sha256Hex instanceSession state request o := by
  unfold servePair CodeDenied
  cases request.code with
  | error reason => cases reason <;> simp [AgentState.answer, jsonRejection, JsonRejection.status,
      denied]
  | ok code =>
      cases horigin : requestOrigin request.headers with
      | error error =>
          obtain rfl := requestOrigin_error horigin
          simp [AgentState.answer, refusal, AppError.status, denied]
      | ok value =>
          dsimp only
          cases hnormal : normalizeOrigin parse value with
          | error message =>
              refine iff_of_true ?_ ⟨code, rfl, fun value' origin hvalue horigin' => ?_⟩
              · simp [consumePairingCode, hnormal, AgentState.answer, refusal, AppError.status,
                  denied]
              · obtain rfl : value = value' := Except.ok.inj hvalue
                rw [hnormal] at horigin'
                cases horigin'
          | ok origin =>
              -- the origin is normal, so the code and the faults decide
              by_cases hfound : consumeFails o.redemptionFaults ∨
                  ∃ r, state.dir.db.redeemableCode? (hashSecret sha256Hex code) origin
                    o.redeemedAt instanceSession = some r
              · refine iff_of_false ?_ ?_
                · have herror := @not_denied_of_found parse sha256Hex instanceSession _ code _ _ _
                    hnormal hfound
                  generalize consumePairingCode parse sha256Hex state.dir.db code value
                    instanceSession o.redeemedAt o.secret o.candidateId o.clock o.issuedAt
                    o.redemptionFaults = result at herror ⊢
                  obtain ⟨db, error | token⟩ := result
                  · obtain rfl := herror rfl
                    simp [AgentState.answer, refusal, AppError.status, denied]
                  · simp [AgentState.answer, denied]
                · rintro ⟨code', hcode, hdenied⟩
                  obtain rfl : code = code' := Except.ok.inj hcode
                  obtain ⟨hworks, hnone⟩ := hdenied value origin rfl hnormal
                  rcases hfound with hfails | ⟨r, hr⟩
                  · exact hworks hfails
                  · rw [hr] at hnone
                    cases hnone
              · -- no code is found, which is `unauthorized`
                obtain ⟨hworks, hmissing⟩ := not_or.mp hfound
                have hnone := Option.eq_none_iff_forall_ne_some.mpr fun r hr => hmissing ⟨r, hr⟩
                refine iff_of_true ?_ ⟨code, rfl, fun value' origin' hvalue horigin' => ?_⟩
                · simp [consumePairingCode, hnormal, hworks,
                    Database.consumePairingCode_of_none hnone, AgentState.answer, refusal,
                    AppError.status, denied]
                · obtain rfl : value = value' := Except.ok.inj hvalue
                  obtain rfl : origin = origin' := Except.ok.inj (hnormal.symm.trans horigin')
                  exact ⟨hworks, hnone⟩

/-- Behind the middleware, only a handler that authenticates denies, and `pair`. -/
theorem asks_of_denied {request : HttpRequest}
    (hpair : ¬ (routeOf request.path = .pair ∧ request.method.handler = .post))
    (h : denied (handleRoute parse sha256Hex validatePdf headerText hmac decodeSegment config
      instanceSession state (routeOf request.path) request.method.handler request
      o).response.status = true) :
    (jobRequest? decodeSegment request).isSome = true ∨ readsOnly request = true := by
  have hsegment : ∀ (segment : String) (make : String → Request),
      denied (serveJob sha256Hex validatePdf headerText decodeSegment config state request.headers
        segment make o).response.status = true → (decodeSegment segment).isSome = true := by
    intro segment make hdenied
    unfold serveJob at hdenied
    split at hdenied
    · cases hdenied
    · next heq => simp [heq]
  -- the arms of `handleRoute`; those that are not named answer without `authenticate`
  unfold handleRoute at h
  split at h
  case h_3 hroute hmethod | h_7 hroute hmethod =>
    exact .inr (by simp only [readsOnly, hroute, hmethod])
  case h_5 => rw [not_denied_serveInstance hmac instanceSession state o] at h; cases h
  case h_6 hroute hmethod => exact absurd ⟨hroute, hmethod⟩ hpair
  case h_8 hroute hmethod | h_9 hroute hmethod =>
    split at h
    · cases h
    · next heq => exact .inl (by simp [jobRequest?, hroute, hmethod, heq])
  case h_10 hroute hmethod | h_11 hroute hmethod | h_12 hroute hmethod | h_13 hroute hmethod =>
    exact .inl (by simpa [jobRequest?, hroute, hmethod] using hsegment _ _ h)
  all_goals cases h

variable {state o} {request : HttpRequest}

/-- The status of a request that passes the middleware is that of its handler. -/
theorem serve_status (hhost : validHost request.headers config.port = true)
    (hupgrade : upgradesToWebsocket request.headers = false) :
    (serve parse sha256Hex validatePdf headerText hmac decodeSegment config instanceSession state
        request o).response.status =
      (handleRoute parse sha256Hex validatePdf headerText hmac decodeSegment config instanceSession
        state (routeOf request.path) request.method.handler request o).response.status := by
  rw [serve_of_valid parse sha256Hex validatePdf headerText hmac decodeSegment config
    instanceSession hhost hupgrade, decorate_status]
  unfold dispatch
  dsimp only
  split <;> rfl

/-- A request that comes to a handler which authenticates is denied exactly if `authenticate`
    fails. -/
theorem denied_authenticates_iff (h : Authenticates decodeSegment config request) :
    denied (serve parse sha256Hex validatePdf headerText hmac decodeSegment config
        instanceSession state request o).response.status = true ↔
      ∃ error, authenticate sha256Hex state.dir.db request.headers o.job.authenticatedAt =
        .error error := by
  obtain ⟨hhost, hupgrade, hasks⟩ := h
  rw [serve_status parse sha256Hex validatePdf headerText hmac decodeSegment config
    instanceSession hhost hupgrade]
  rcases hasks with hasked | hread
  · obtain ⟨r, hr⟩ := Option.isSome_iff_exists.mp hasked
    rw [handleRoute_asked parse sha256Hex validatePdf headerText hmac decodeSegment config
      instanceSession hr]
    exact denied_serveJobs_iff sha256Hex validatePdf headerText config state _ o r
  · unfold readsOnly at hread
    split at hread
    · next hroute hmethod =>
        rw [hroute, hmethod]
        exact denied_serveRead_iff sha256Hex state _ o rfl
    · next hroute hmethod =>
        rw [hroute, hmethod]
        exact denied_serveRead_iff sha256Hex state _ o (not_denied_printersResponse sha256Hex _)
    · cases hread

end

end PrintLatch.Api
