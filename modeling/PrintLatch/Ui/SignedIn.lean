/-
  PrintLatch.Ui.SignedIn

  When the dashboard's page has a token (`api` and `pair`, `src/ui/app.js`).

  `Resumed` says once what a reply does to the token: nothing, or it is a new one, or a request
  was refused.  The page drops its token for any refusal, also of a request that has carried
  an older one; as long as no protected request is under way when a code is redeemed
  (`Calm`), the two are the same, and the page has the last token it was given until the agent
  has refused this one (`session_kept`).
-/

import PrintLatch.Ui.Session

namespace PrintLatch.Ui

open Reactive Text

/-! ## What handlers do to the token -/

/-- A handler that leaves the token alone, and sends requests with it. -/
structure Keeps (s : Session) (result : Session × List SessionCall) : Prop where
  token : result.1.token = s.token
  stored : result.1.stored = s.stored
  carried : ∀ call ∈ result.2, ∀ endpoint token, call.sent? = some (endpoint, token) →
    s.token = some token

theorem keeps_self (s : Session) : Keeps s (s, []) := ⟨rfl, rfl, by simp⟩

/-- A call without a token. -/
theorem keeps_call {s s' : Session} {call : SessionCall} (htoken : s'.token = s.token)
    (hstored : s'.stored = s.stored) (hcall : call.sent? = none) : Keeps s (s', [call]) := by
  refine ⟨htoken, hstored, fun other hmem endpoint token hsent => ?_⟩
  obtain rfl := List.mem_singleton.mp hmem
  rw [hcall] at hsent
  cases hsent

/-- Handlers that begin with the same token. -/
theorem Keeps.congr {s s' : Session} {result : Session × List SessionCall} (h : Keeps s' result)
    (htoken : s'.token = s.token) (hstored : s'.stored = s.stored) : Keeps s result :=
  ⟨h.token.trans htoken, h.stored.trans hstored, fun call hcall endpoint token hsent =>
    htoken ▸ h.carried call hcall endpoint token hsent⟩

theorem keeps_after (s : Session) (waiter : Waiter) : Keeps s (s.after waiter, []) := by
  unfold Session.after
  split
  · exact keeps_self s
  · split <;> exact ⟨rfl, rfl, by simp⟩

theorem keeps_finish (s : Session) (waiter : Waiter) : Keeps s (s.finish waiter, []) :=
  (keeps_after { s with refreshing := false } waiter).congr rfl rfl

theorem keeps_refreshAll (s : Session) (waiter : Waiter) : Keeps s (s.refreshAll waiter) := by
  unfold Session.refreshAll
  split
  · exact keeps_after s waiter
  · exact keeps_call rfl rfl rfl

theorem keeps_loadProtectedData (s : Session) (waiter : Waiter) :
    Keeps s (s.loadProtectedData waiter) := by
  unfold Session.loadProtectedData
  split
  · exact keeps_finish s waiter
  · next token htoken =>
      split
      · exact keeps_finish s waiter
      · refine ⟨rfl, rfl, fun call hmem endpoint token' hsent => ?_⟩
        simp only [List.mem_cons, List.not_mem_nil, or_false] at hmem
        rcases hmem with rfl | rfl <;> cases hsent <;> exact htoken

theorem keeps_arrived (s : Session) : Keeps s s.arrived := by
  unfold Session.arrived
  split
  · exact keeps_call rfl rfl rfl
  · exact ⟨rfl, rfl, by simp⟩
  · exact keeps_self s

theorem keeps_loadFailed (s : Session) : Keeps s (s.loadFailed, []) := by
  unfold Session.loadFailed
  split
  · next waiter _ => exact (keeps_finish { s with loading := none } waiter).congr rfl rfl
  · exact keeps_self s

theorem keeps_loadPreview (s : Session) (waiter : Waiter) (id : String) :
    Keeps s (s.loadPreview waiter id) := by
  unfold Session.loadPreview
  split
  · exact keeps_finish s waiter
  · next token htoken =>
      split
      · exact keeps_finish s waiter
      · refine ⟨rfl, rfl, fun call hmem endpoint token' hsent => ?_⟩
        obtain rfl := List.mem_singleton.mp hmem
        cases hsent
        exact htoken

section

variable (toUpperCase : UpperCase) (decoder : Utf8Decoder)

theorem keeps_healthy (s : Session) (waiter : Waiter) :
    Keeps s (s.healthy toUpperCase decoder waiter) := by
  unfold Session.healthy
  dsimp only
  split
  · -- a code in the fragment is redeemed before anything is loaded
    split
    · exact keeps_call rfl rfl rfl
    · exact (keeps_finish _ waiter).congr rfl rfl
    · exact (keeps_finish _ waiter).congr rfl rfl
  · exact (keeps_loadProtectedData _ waiter).congr rfl rfl

theorem keeps_start (s : Session) : Keeps s (s.start decoder) :=
  (keeps_refreshAll _ .nobody).congr rfl rfl

theorem keeps_hashChanged (s : Session) : Keeps s (s.hashChanged decoder) := by
  unfold Session.hashChanged
  dsimp only
  split
  · exact ⟨rfl, rfl, by simp⟩
  · split
    · exact (keeps_refreshAll _ .fragment).congr rfl rfl
    · exact keeps_self s

theorem keeps_submit (s : Session) (code : String) : Keeps s (s.submit toUpperCase code) := by
  unfold Session.submit
  split
  · exact keeps_call rfl rfl rfl
  · exact keeps_self s

theorem keeps_ask (s : Session) (endpoint : Endpoint) : Keeps s (s.ask endpoint) := by
  unfold Session.ask
  split
  · exact keeps_self s
  · next token htoken =>
      split
      · exact keeps_self s
      · refine ⟨rfl, rfl, fun call hmem endpoint token' hsent => ?_⟩
        obtain rfl := List.mem_singleton.mp hmem
        cases hsent
        exact htoken

/-! ## What a reply does to the token -/

/-- What a reply does to the token, and what is seen of it. -/
inductive Resumed (s : Session) (call : SessionCall) (reply : SessionReply) :
    Session × List SessionCall → Prop where
  | kept (result : Session × List SessionCall) (keeps : Keeps s result)
      (seen : ∀ headers db now, seenOf call reply headers db now = []) : Resumed s call reply result
  | issued (token : String) (result : Session × List SessionCall) (redeems : call.redeems = true)
      (given : reply = .token token) (keeps : Keeps (s.paired token) result)
      (seen : ∀ headers db now, seenOf call reply headers db now = [.issued token]) :
      Resumed s call reply result
  | refused (endpoint : Endpoint) (token : String) (calls : List SessionCall)
      (sent : call.sent? = some (endpoint, token)) (silent : ∀ other ∈ calls, other.sent? = none)
      (seen : ∀ headers db now,
        seenOf call reply headers db now = [.refused token headers db now]) :
      Resumed s call reply (s.unpaired, calls)

theorem resumed_resume (s : Session) (call : SessionCall) (reply : SessionReply) :
    Resumed s call reply (s.resume toUpperCase decoder call reply) := by
  cases call with
  | health waiter =>
      cases reply with
      | ok => exact .kept _ (keeps_healthy toUpperCase decoder s waiter) fun _ _ _ => rfl
      | _ => exact .kept _ (keeps_finish s waiter) fun _ _ _ => rfl
  | fragmentPair request waiter =>
      cases reply with
      | token token =>
          exact .issued token _ rfl rfl
            ((keeps_loadProtectedData (s.paired token).fragmentDone waiter).congr rfl rfl)
            fun _ _ _ => rfl
      | _ => exact .kept _ ((keeps_finish s.fragmentDone waiter).congr rfl rfl) fun _ _ _ => rfl
  | formPair request =>
      cases reply with
      | token token => exact .issued token _ rfl rfl (keeps_refreshAll _ .nobody) fun _ _ _ => rfl
      | _ => exact .kept _ (keeps_self s) fun _ _ _ => rfl
  | data load endpoint token =>
      cases reply with
      | ok =>
          refine .kept _ ?_ fun _ _ _ => rfl
          simp only [Session.resume]
          split
          · exact keeps_arrived s
          · exact keeps_self s
      | refused =>
          -- the token is dropped, whichever the request has carried
          exact .refused endpoint token _ rfl (by simp [SessionCall.sent?]) fun _ _ _ => rfl
      | lost =>
          refine .kept _ ?_ fun _ _ _ => rfl
          simp only [Session.resume]
          split
          · exact keeps_loadFailed s
          · exact keeps_self s
      | _ => exact .kept _ (keeps_call rfl rfl rfl) fun _ _ _ => rfl
  | readError load =>
      refine .kept _ ?_ fun _ _ _ => rfl
      simp only [Session.resume]
      split
      · exact keeps_loadFailed s
      · exact keeps_self s
  | bodies waiter =>
      cases reply with
      | preview id => exact .kept _ (keeps_loadPreview s waiter id) fun _ _ _ => rfl
      | _ => exact .kept _ (keeps_finish s waiter) fun _ _ _ => rfl
  | preview waiter id token =>
      cases reply with
      | refused =>
          exact .refused (.document id) token _ rfl (by simp [SessionCall.sent?]) fun _ _ _ => rfl
      | lost => exact .kept _ (keeps_finish s waiter) fun _ _ _ => rfl
      | _ => exact .kept _ (keeps_call rfl rfl rfl) fun _ _ _ => rfl
  | previewed waiter => exact .kept _ (keeps_finish s waiter) fun _ _ _ => rfl
  | other endpoint token =>
      cases reply with
      | refused => exact .refused endpoint token _ rfl (by simp) fun _ _ _ => rfl
      | _ => exact .kept _ (keeps_self s) fun _ _ _ => rfl

end

/-! ## What is refused -/

theorem fromBrowser_browserHeaders (port : Nat) (method : Api.Method) :
    FromBrowser port (browserHeaders port method) := Api.get_cons_self _ _ _

/-- The request of a page reaches the handlers, on every port that the dashboard works on. -/
theorem request_passes {port : Nat} (hport : port ≠ 80) (endpoint : Endpoint) (token : String) :
    let request := endpoint.request port token
    Api.validHost request.headers port = true ∧
      Api.upgradesToWebsocket request.headers = false ∧ Api.routeOf request.path ≠ .pair := by
  intro request
  refine ⟨?_, ?_, ?_⟩
  · refine (validHost_browser_iff ?_).mpr hport
    show HeaderMap.get (_ :: _) "host" = _
    rw [Api.get_cons_of_ne _ (by decide)]
    exact fromBrowser_browserHeaders port _
  · have hnone : request.headers.get "upgrade" = none := by
      show HeaderMap.get (_ :: _ :: _ :: _) "upgrade" = none
      rw [Api.get_cons_of_ne _ (by decide), Api.get_cons_of_ne _ (by decide),
        Api.get_cons_of_ne _ (by decide)]
      split
      · rw [Api.get_cons_of_ne _ (by decide)]
        rfl
      · rfl
    unfold Api.upgradesToWebsocket
    rw [hnone]
    rfl
  · have hif : ∀ (id : String) (route : Api.Route), route ≠ .pair →
        (if id = "" then Api.Route.anyPath else route) ≠ .pair := by
      intro id route hroute
      split
      · simp
      · exact hroute
    cases endpoint with
    | job id | document id | cancel id | retry id => exact hif id _ (by simp)
    | printers | jobs | testPdf | create =>
        simp [request, Endpoint.request, Endpoint.path, Api.routeOf]

section

variable (toUpperCase : UpperCase) (decoder : Utf8Decoder) (parse : String → Option Url)
  (sha256Hex : List UInt8 → String)
  (validatePdf : List UInt8 → String → Except String PdfReport) (headerText : String → Bool)
  (hmac : List UInt8 → List UInt8 → String) (decodeSegment : String → Option String)

/-- A request of the page that is refused was refused by `authenticate`. -/
theorem authenticate_of_refused {port : Nat} (hport : port ≠ 80) {endpoint : Endpoint}
    {token dataDir session : String} {state : Api.AgentState} {o : Api.RequestOutside}
    (h : replyOf (Api.serve parse sha256Hex validatePdf headerText hmac decodeSegment
      ⟨dataDir, port⟩ session state (endpoint.request port token) o).response = .refused) :
    ∃ error, authenticate sha256Hex state.dir.db (endpoint.request port token).headers
      o.job.authenticatedAt = .error error := by
  obtain ⟨hhost, hupgrade, hroute⟩ := request_passes hport endpoint token
  have hdenied : Api.denied (Api.serve parse sha256Hex validatePdf headerText hmac decodeSegment
      ⟨dataDir, port⟩ session state (endpoint.request port token) o).response.status = true := by
    unfold replyOf at h
    split at h
    · assumption
    · split at h
      · cases h
      · split at h <;> cases h
  have hstatus := hdenied
  rw [Api.serve_status parse sha256Hex validatePdf headerText hmac decodeSegment ⟨dataDir, port⟩
    session hhost hupgrade] at hstatus
  have hasks := Api.asks_of_denied parse sha256Hex validatePdf headerText hmac decodeSegment
    ⟨dataDir, port⟩ session state o (fun hpair => hroute hpair.1) hstatus
  exact (Api.denied_authenticates_iff parse sha256Hex validatePdf headerText hmac decodeSegment
    ⟨dataDir, port⟩ session ⟨hhost, hupgrade, hasks⟩).mp hdenied

/-! ## Runs -/

/-- The token of a page with that history: the last one it was given, until this one is
    refused. -/
def signedIn (restored : Option String) (tr : List TabObs) : Option String :=
  tr.foldl (fun current o =>
    match o with
    | .issued token => some token
    | .refused token .. => if current = some token then none else current) restored

/-- A code is redeemed while no protected request is under way. -/
def Calm (t : Tab) : TabInput → Prop
  | .answer index .. => ∀ call, t.calls[index]? = some call → call.redeems = true →
      ∀ other ∈ t.calls, other.sent? = none
  | _ => True

instance (t : Tab) : (i : TabInput) → Decidable (Calm t i)
  | .answer index .. =>
      decidable_of_iff ((t.calls[index]?).all fun call =>
        !call.redeems || t.calls.all fun other => other.sent?.isNone) (by
          simp only [Option.all_eq_true, Bool.or_eq_true, Bool.not_eq_true', List.all_eq_true,
            Option.isNone_iff_eq_none, Calm]
          refine forall₂_congr fun call _ => ?_
          cases call.redeems <;> simp)
  | .address _ | .hashChanged | .navigate _ | .refresh | .submit _ | .ask _ | .read .. | .lose _ =>
      isTrue trivial

/-- The page has the token that its history says, and so have its requests. -/
structure SignedIn (restored : Option String) (tr : List TabObs) (t : Tab) : Prop where
  token : t.page.token = signedIn restored tr
  stored : t.page.stored = t.page.token
  carried : ∀ call ∈ t.calls, ∀ endpoint token, call.sent? = some (endpoint, token) →
    t.page.token = some token ∨ t.page.token = none

variable {restored : Option String} {tr : List TabObs} {t : Tab}

/-- A handler that leaves the token alone. -/
theorem SignedIn.keeps (h : SignedIn restored tr t) {calls : List SessionCall}
    (hcalls : ∀ call ∈ calls, call ∈ t.calls) {result : Session × List SessionCall}
    (hkeeps : Keeps t.page result) :
    SignedIn restored tr ((⟨t.page, calls⟩ : Tab).after result) where
  token := hkeeps.token.trans h.token
  stored := by
    show result.1.stored = result.1.token
    rw [hkeeps.stored, hkeeps.token, h.stored]
  carried := by
    intro call hmem endpoint token hsent
    show result.1.token = _ ∨ result.1.token = _
    rw [hkeeps.token]
    rcases List.mem_append.mp hmem with hmem | hmem
    · exact h.carried call (hcalls call hmem) endpoint token hsent
    · exact .inl (hkeeps.carried call hmem endpoint token hsent)

/-- Call `index` goes on. -/
theorem SignedIn.deliver (h : SignedIn restored tr t) {index : Nat} {call : SessionCall}
    (hcall : t.calls[index]? = some call) {reply : SessionReply}
    (hcalm : ∀ token, reply = .token token → call.redeems = true →
      ∀ other ∈ t.calls, other.sent? = none) (headers : HeaderMap) (db : Database) (now : Int) :
    SignedIn restored (tr ++ seenOf call reply headers db now)
      (t.deliver toUpperCase decoder index call reply) := by
  have hcalls : ∀ other ∈ t.calls.eraseIdx index, other ∈ t.calls :=
    fun other hmem => List.mem_of_mem_eraseIdx hmem
  have hresumed := resumed_resume toUpperCase decoder t.page call reply
  unfold Tab.deliver
  generalize t.page.resume toUpperCase decoder call reply = result at hresumed ⊢
  cases hresumed with
  | kept result keeps seen =>
      rw [seen, List.append_nil]
      exact h.keeps hcalls keeps
  | issued token result redeems given keeps seen =>
      rw [seen]
      refine ⟨?_, ?_, ?_⟩
      · show result.1.token = _
        rw [keeps.token, signedIn, List.foldl_append]
        rfl
      · show result.1.stored = result.1.token
        rw [keeps.stored, keeps.token]
        rfl
      · intro other hmem endpoint token' hsent
        show result.1.token = _ ∨ _
        rw [keeps.token]
        -- what was under way has no token
        rcases List.mem_append.mp hmem with hmem | hmem
        · rw [hcalm token given redeems other (hcalls other hmem)] at hsent
          cases hsent
        · exact .inl (keeps.carried other hmem endpoint token' hsent)
  | refused endpoint token calls sent silent seen =>
      rw [seen]
      refine ⟨?_, rfl, fun other hmem endpoint' token' hsent => .inr rfl⟩
      show none = _
      rw [signedIn, List.foldl_append]
      have hcurrent := h.token
      rw [signedIn] at hcurrent
      show none = if List.foldl _ restored tr = some token then none else _
      rw [← hcurrent]
      rcases h.carried call (List.mem_of_getElem? hcall) endpoint token sent with hpage | hpage
      · rw [hpage, if_pos rfl]
      · rw [hpage, if_neg (by simp)]

/-- A reply that shows nothing. -/
theorem SignedIn.unseen (h : SignedIn restored tr t) {index : Nat} {call : SessionCall}
    (hcall : t.calls[index]? = some call) {reply : SessionReply}
    (hseen : ∀ headers db now, seenOf call reply headers db now = [])
    (htoken : ∀ token, reply ≠ .token token) :
    SignedIn restored (tr ++ []) (t.deliver toUpperCase decoder index call reply) := by
  have hdeliver := h.deliver toUpperCase decoder hcall
    (fun token hreply => absurd hreply (htoken token)) [] .fresh 0
  rwa [hseen] at hdeliver

theorem signedIn_step {port : Nat} {i : TabInput} (hcalm : Calm t i)
    (h : SignedIn restored tr t) :
    let after := tabStep toUpperCase decoder parse sha256Hex validatePdf headerText hmac
      decodeSegment port t i
    SignedIn restored (tr ++ after.2) after.1 := by
  intro after
  have hsame : ∀ {result : Session × List SessionCall}, Keeps t.page result →
      SignedIn restored (tr ++ []) (t.after result) := fun hkeeps => by
    rw [List.append_nil]
    exact h.keeps (fun _ hcall => hcall) hkeeps
  cases i with
  | address hash | navigate view =>
      refine ⟨?_, h.stored, h.carried⟩
      show t.page.token = _
      rw [h.token]
      exact (congrArg (signedIn restored) (List.append_nil tr)).symm
  | hashChanged => exact hsame (keeps_hashChanged decoder t.page)
  | refresh => exact hsame (keeps_refreshAll t.page .nobody)
  | submit code => exact hsame (keeps_submit toUpperCase t.page code)
  | ask endpoint => exact hsame (keeps_ask t.page endpoint)
  | answer index dataDir session state o =>
      simp only [after, tabStep]
      cases hcall : t.calls[index]? with
      | none => simpa using h
      | some call =>
          dsimp only
          cases call.request? port with
          | none => simpa using h
          | some request =>
              exact h.deliver toUpperCase decoder hcall (fun _ _ => hcalm call hcall) _ _ _
  | read index preview =>
      simp only [after, tabStep]
      cases hcall : t.calls[index]? with
      | none => simpa using h
      | some call =>
          dsimp only
          split
          · simpa using h
          · -- a body is no response
            cases preview with
            | none =>
                exact h.unseen toUpperCase decoder hcall (by cases call <;> exact fun _ _ _ => rfl)
                  (by simp)
            | some id =>
                exact h.unseen toUpperCase decoder hcall (by cases call <;> exact fun _ _ _ => rfl)
                  (by simp)
  | lose index =>
      simp only [after, tabStep]
      cases hcall : t.calls[index]? with
      | none => simpa using h
      | some call =>
          exact h.unseen toUpperCase decoder hcall (by cases call <;> exact fun _ _ _ => rfl)
            (by simp)

theorem signedIn_opened (hash : String) (stored : Option String) :
    SignedIn stored [] (Tab.opened decoder hash stored) := by
  have hloaded : SignedIn stored [] ⟨.loaded hash stored, []⟩ := ⟨rfl, rfl, by simp⟩
  exact hloaded.keeps (fun _ hcall => hcall) (keeps_start decoder _)

/-- What is seen refused, `authenticate` has refused. -/
def Refused : TabObs → Prop
  | .issued _ => True
  | .refused token headers db now =>
      headers.get "authorization" = some (utf8 ("Bearer " ++ token)) ∧
        ∃ error, authenticate sha256Hex db headers now = .error error

theorem refused_of_answer {port : Nat} (hport : port ≠ 80) {call : SessionCall}
    {request : Api.HttpRequest} (hrequest : call.request? port = some request)
    (dataDir session : String) (state : Api.AgentState) (o : Api.RequestOutside) :
    ∀ seen ∈ seenOf call (replyOf (Api.serve parse sha256Hex validatePdf headerText hmac
      decodeSegment ⟨dataDir, port⟩ session state request o).response) request.headers state.dir.db
        o.job.authenticatedAt, Refused sha256Hex seen := by
  -- only a protected request is seen refused, with the token that it carries
  have hsent : ∀ {endpoint : Endpoint} {token : String}, endpoint.request port token = request →
      replyOf (Api.serve parse sha256Hex validatePdf headerText hmac decodeSegment ⟨dataDir, port⟩
        session state request o).response = .refused →
      Refused sha256Hex (.refused token request.headers state.dir.db o.job.authenticatedAt) := by
    rintro endpoint token rfl hreply
    exact ⟨Api.get_cons_self _ _ _, authenticate_of_refused parse sha256Hex validatePdf headerText
      hmac decodeSegment hport hreply⟩
  intro seen hseen
  generalize hreply : replyOf _ = reply at hseen hsent
  unfold seenOf at hseen
  split at hseen
  case h_1 | h_2 =>
    obtain rfl := List.mem_singleton.mp hseen
    trivial
  case h_3 | h_4 | h_5 =>
    obtain rfl := List.mem_singleton.mp hseen
    exact hsent (Option.some.inj hrequest) rfl
  case h_6 => cases hseen

theorem refused_step {port : Nat} (hport : port ≠ 80) (t : Tab) (i : TabInput) :
    ∀ seen ∈ (tabStep toUpperCase decoder parse sha256Hex validatePdf headerText hmac
      decodeSegment port t i).2, Refused sha256Hex seen := by
  intro seen hseen
  cases i with
  | answer index dataDir session state o =>
      simp only [tabStep] at hseen
      split at hseen
      · cases hseen
      · split at hseen
        · cases hseen
        · next request hrequest =>
            exact refused_of_answer parse sha256Hex validatePdf headerText hmac decodeSegment hport
              hrequest dataDir session state o seen hseen
  | read index preview =>
      simp only [tabStep] at hseen
      split at hseen
      · cases hseen
      · split at hseen <;> cases hseen
  | lose index =>
      simp only [tabStep] at hseen
      split at hseen <;> cases hseen
  | _ => cases hseen

/-- **A page keeps its session.**  In every run of a page in which no protected request is
    under way when a code is redeemed, whatever the agent on its port has become at each
    answer, the page has the last token that it was given or found in the storage, until
    `authenticate` has refused a request with this token; and the storage has the same. -/
theorem session_kept {port : Nat} (hport : port ≠ 80) (hash : String) (stored : Option String)
    {is : List TabInput} :
    let step := tabStep toUpperCase decoder parse sha256Hex validatePdf headerText hmac
      decodeSegment port
    let start := Tab.opened decoder hash stored
    Along step (fun _ t i => Calm t i) start is →
      (run step start is).page.token = signedIn stored (trace step start is) ∧
      (run step start is).page.stored = (run step start is).page.token ∧
      ∀ token headers db now, .refused token headers db now ∈ trace step start is →
        headers.get "authorization" = some (utf8 ("Bearer " ++ token)) ∧
          ∃ error, authenticate sha256Hex db headers now = .error error := by
  intro step start hcalm
  have hsigned : SignedIn stored (trace step start is) (run step start is) :=
    run_history_invariant (SignedIn stored) (signedIn_opened decoder hash stored)
      (fun tr t i hok h => signedIn_step toUpperCase decoder parse sha256Hex validatePdf headerText
        hmac decodeSegment hok h) hcalm
  have hrefused : ∀ seen ∈ trace step start is, Refused sha256Hex seen :=
    run_invariant (fun tr _ => ∀ seen ∈ tr, Refused sha256Hex seen) (by simp)
      (fun tr t i h seen hseen => (List.mem_append.mp hseen).elim (h seen)
        (refused_step toUpperCase decoder parse sha256Hex validatePdf headerText hmac decodeSegment
          hport t i seen)) is
  exact ⟨hsigned.token, hsigned.stored, fun token headers db now hmem => hrefused _ hmem⟩

end

/-! ## A token that is refused, and a new one -/

/-- What an agent with a code for the dashboard answers call `index`. -/
def exampleAnswer (index : Nat) : TabInput :=
  .answer index "C:\\PrintLatch" exampleSession ⟨⟨exampleDashboardGranted, fun _ => none⟩, none⟩
    ⟨⟨0, 0, "j3", none, [], none⟩, 10, exampleSecretOne, "c1", 10, 10, [], ""⟩

/-- The token from the storage is refused, and the code is typed in. -/
def exampleSignIn : List TabInput :=
  [exampleAnswer 0, exampleAnswer 0, .lose 0, .submit exampleCode, exampleAnswer 1]

theorem session_kept_of_exampleSignIn :
    let step := tabStep asciiUpper asciiDecoder (dashboardParse 32191) exampleDigests
      Api.examplePdfCheck (fun _ => true) (fun _ _ => "") some 32191
    let start := Tab.opened asciiDecoder "" (some (newToken exampleSecretTwo))
    (run step start exampleSignIn).page.token = some (newToken exampleSecretOne) ∧
      (run step start (exampleSignIn.take 2)).page.token = none := by
  intro step start
  have hkept := fun is => @session_kept asciiUpper asciiDecoder (dashboardParse 32191)
    exampleDigests Api.examplePdfCheck (fun _ => true) (fun _ _ => "") some 32191 (by decide) ""
    (some (newToken exampleSecretTwo)) is
  have hrefused : Along step (fun _ t i => Calm t i) start (exampleSignIn.take 2) :=
    along_cons.mpr ⟨by decide +kernel, along_cons.mpr ⟨by decide +kernel, along_nil⟩⟩
  have hcalm : Along step (fun _ t i => Calm t i) start exampleSignIn :=
    along_cons.mpr ⟨by decide +kernel, along_cons.mpr ⟨by decide +kernel,
      along_cons.mpr ⟨by decide +kernel, along_cons.mpr ⟨by decide +kernel,
        along_cons.mpr ⟨by decide +kernel, along_nil⟩⟩⟩⟩⟩
  constructor
  · rw [(hkept exampleSignIn hcalm).1]
    decide +kernel
  · rw [(hkept (exampleSignIn.take 2) hrefused).1]
    decide +kernel

end PrintLatch.Ui
