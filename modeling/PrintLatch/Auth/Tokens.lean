/-
  PrintLatch.Auth.Tokens

  The life of a token.

  Four statements write the token columns of a client.  `TokenMove` is the one
  inversion lemma for all of them: a transaction sets a token for a client that
  is not revoked, revokes a client, or leaves the clients alone.  From it,
  `ClientKept` says that a client's row is what the history says: the token set
  last, its expiry, and whether the client was revoked.
  `authenticate_run` reads the same of the requests that `authenticate` accepts.
-/

import PrintLatch.Auth.Credentials
import Mathlib.Data.Set.Function

namespace PrintLatch

open Reactive Text

/-! ## Histories -/

/-- The token a call may set. -/
def CredentialInput.token? : CredentialInput → Option String
  | .issue _ secret _ _ _ _ => some (newToken secret)
  | .issueLocal _ _ secret _ _ _ _ => some (newToken secret)
  | .rotate _ _ secret _ _ => some (newToken secret)
  | .grant .. | .dashboardGrant .. | .redeem .. | .revoke .. => none

/-- A token that was set. -/
def issuedToken? : CredentialObs → Option String
  | .issued _ _ token _ _ => some token
  | _ => none

/-- A token that was set for client `c`, when, and its expiry. -/
def issueFor? (c : String) : CredentialObs → Option (String × Int × Int)
  | .issued _ clientId token clock expiresAt =>
      if clientId = c then some (token, clock, expiresAt) else none
  | _ => none

/-- The last token set for client `c`. -/
def lastIssued (c : String) (tr : List CredentialObs) : Option (String × Int × Int) :=
  (tr.filterMap (issueFor? c)).getLast?

@[simp] theorem lastIssued_nil (c : String) : lastIssued c [] = none := rfl

theorem lastIssued_issued (c : String) (tr : List CredentialObs) (code : Option String)
    (token : String) (clock expiresAt : Int) :
    lastIssued c (tr ++ [.issued code c token clock expiresAt]) =
      some (token, clock, expiresAt) := by
  simp [lastIssued, issueFor?]

/-- What sets no token for `c` leaves its last one. -/
theorem lastIssued_append_of_none {c : String} {obs : List CredentialObs}
    (h : obs.filterMap (issueFor? c) = []) (tr : List CredentialObs) :
    lastIssued c (tr ++ obs) = lastIssued c tr := by
  simp [lastIssued, h]

/-- The token set last for a client was set for it. -/
theorem mem_of_lastIssued {c t : String} {clock e : Int} {tr : List CredentialObs}
    (h : lastIssued c tr = some (t, clock, e)) : ∃ code, .issued code c t clock e ∈ tr := by
  obtain ⟨o, ho, hissue⟩ := List.mem_filterMap.mp (List.mem_of_getLast? h)
  cases o with
  | issued code clientId token clock' e' =>
      by_cases hc : clientId = c
      · subst hc
        simp only [issueFor?, if_true, Option.some.injEq, Prod.mk.injEq] at hissue
        obtain ⟨rfl, rfl, rfl⟩ := hissue
        exact ⟨code, ho⟩
      · simp [issueFor?, hc] at hissue
  | _ => cases hissue

/-! ## The inversion lemma -/

section

variable (parse : String → Option Url) (sha256Hex : List UInt8 → String)

/-- Everything a transaction can do to the clients. -/
inductive TokenMove (db : Database) (i : CredentialInput) :
    Database → List CredentialObs → Prop
  | stay (db' : Database) (obs : List CredentialObs)
      (clients : db'.clients = db.clients)
      (quiet : ∀ o ∈ obs, issuedToken? o = none ∧ ∀ c, o ≠ .revoked c) :
      TokenMove db i db' obs
  | issue (r : ClientRow) (db' : Database) (code : Option String)
      (token : String) (clock : Int) (drawn : i.token? = some token)
      (digest : r.tokenHash = hashSecret sha256Hex token) (live : r.revokedAt = none)
      (soon : r.expiresAt ≤ clock + 90 * 86400)
      (before : ∀ r₀, db.client? r.id = some r₀ → r₀.revokedAt = none)
      (after : ∀ id, db'.client? id = if id = r.id then some r else db.client? id) :
      TokenMove db i db' [.issued code r.id token clock r.expiresAt]
  | revoke (r : ClientRow) (now : Int) (db' : Database)
      (row : db.client? r.id = some r)
      (after : ∀ id, db'.client? id =
        if id = r.id then some { r with revokedAt := some now } else db.client? id) :
      TokenMove db i db' [.revoked r.id]

theorem TokenMove.idle (db : Database) (i : CredentialInput) :
    TokenMove sha256Hex db i db [] :=
  .stay db [] rfl (by simp)

/-- A grant touches no client. -/
theorem tokenMove_afterGrant {s : Credentials} (i : CredentialInput) (session : Option String)
    {result : Except DbError (Database × PairingGrant)}
    (h : ∀ db g, result = .ok (db, g) → db.clients = s.db.clients) :
    TokenMove sha256Hex s.db i (afterGrant s session result).1.db
      (afterGrant s session result).2 := by
  cases result with
  | error error => exact .idle sha256Hex s.db i
  | ok granted =>
      obtain ⟨db, g⟩ := granted
      exact .stay db _ (h db g rfl) (by simp [afterGrant, issuedToken?])

theorem newPairingGrantForSession_clients {db db' : Database} {origin name : String}
    {session : Option String} {reuse : Bool} {bytes : List UInt8} {clock now : Int}
    {g : PairingGrant}
    (h : newPairingGrantForSession parse sha256Hex db origin name session reuse bytes clock now =
      .ok (db', g)) : db'.clients = db.clients := by
  obtain ⟨-, hins⟩ := newPairingGrantForSession_ok parse sha256Hex h
  exact (Database.insertPairingCode_clients hins).1

theorem redeemCode_clients (db : Database) (code requestOrigin session : String) (now : Int) :
    (redeemCode parse sha256Hex db code requestOrigin session now).1.clients = db.clients := by
  unfold redeemCode
  split
  · rfl
  · next origin _ =>
      have hsame := db.consumePairingCode_clients (hashSecret sha256Hex code) origin now session
      split
      · next db' heq =>
          rw [heq] at hsame
          exact hsame
      · next db' record heq =>
          rw [heq] at hsame
          exact hsame

/-- `issue_token` sets a token for a new client. -/
theorem tokenMove_issueToken {s : Credentials} {i : CredentialInput} (code : Option String)
    {name : String} {kind : ClientKind} {origin : Option String} {days : Int}
    {secret id : String} {clock now : Int} (hdays : days ≤ 90)
    (hdrawn : i.token? = some (newToken secret)) :
    TokenMove sha256Hex s.db i
      (afterToken s code clock
        (issueToken sha256Hex s.db name kind origin days secret id clock now)).1.db
      (afterToken s code clock
        (issueToken sha256Hex s.db name kind origin days secret id clock now)).2 := by
  unfold issueToken Database.insertClient
  dsimp only
  cases hins : s.db.clients.insert? _ with
  | none => exact .idle sha256Hex s.db i
  | some clients =>
      obtain ⟨hfree, hall⟩ := Database.client?_of_insert? hins
      refine .issue _ _ code (newToken secret) clock hdrawn rfl rfl ?_ (fun r₀ hr₀ => ?_) hall
      · dsimp only
        omega
      · rw [hfree] at hr₀
        cases hr₀

/-- `issue_stable_browser_token` sets a token for the stable client or a new
    one. -/
theorem tokenMove_issueStable {s : Credentials} {i : CredentialInput} (code : Option String)
    {name origin : String} {days : Int} {secret candidateId : String} {clock now : Int}
    (hdays : days ≤ 90) (hdrawn : i.token? = some (newToken secret)) :
    TokenMove sha256Hex s.db i
      (afterToken s code clock (issueStableBrowserToken sha256Hex s.db name origin days secret
        candidateId clock now)).1.db
      (afterToken s code clock (issueStableBrowserToken sha256Hex s.db name origin days secret
        candidateId clock now)).2 := by
  unfold issueStableBrowserToken
  dsimp only
  cases hrot : s.db.rotateOrInsertStableBrowserClient candidateId dashboardStableKey name origin
      (hashSecret sha256Hex (newToken secret)) (clock + days * 86400) now with
  | error error => exact .idle sha256Hex s.db i
  | ok result =>
      obtain ⟨db', clientId⟩ := result
      obtain ⟨r, rfl, hhash, hexp, hlive, hall, hbefore⟩ :=
        Database.rotateOrInsertStableBrowserClient_ok hrot
      have hmove : TokenMove sha256Hex s.db i db'
          [.issued code r.id (newToken secret) clock r.expiresAt] := by
        refine .issue r db' code (newToken secret) clock hdrawn hhash hlive ?_
          (fun r₀ hr₀ => ?_) hall
        · rw [hexp]
          omega
        -- a new client has no row yet, a stable one has a live row
        · rcases hbefore with ⟨-, hnone⟩ | ⟨r₁, hr₁, hlive₁⟩
          · rw [hnone] at hr₀
            cases hr₀
          · obtain rfl : r₁ = r₀ := Option.some.inj (hr₁.symm.trans hr₀)
            exact hlive₁
      rw [hexp] at hmove
      exact hmove

/-- `rotate_token` sets a token for a client that is there. -/
theorem tokenMove_rotate {s : Credentials} {i : CredentialInput} {clientId : String}
    {days : Int} {secret : String} {clock : Int} (hdrawn : i.token? = some (newToken secret)) :
    TokenMove sha256Hex s.db i
      (afterToken s none clock (rotateToken sha256Hex s.db clientId days secret clock)).1.db
      (afterToken s none clock (rotateToken sha256Hex s.db clientId days secret clock)).2 := by
  unfold rotateToken
  split
  · next hdays =>
      cases hget : s.db.getClient clientId with
      | none => exact .idle sha256Hex s.db i
      | some client =>
          have hid : client.id = clientId := by
            obtain ⟨r, hfind, rfl⟩ := Option.map_eq_some_iff.mp hget
            have hp := List.find?_some hfind
            simp only [decide_eq_true_eq] at hp
            exact hp.1
          dsimp only
          cases hrot : s.db.rotateClientToken clientId (hashSecret sha256Hex (newToken secret))
              (clock + days * 86400) with
          | error error => exact .idle sha256Hex s.db i
          | ok db' =>
              obtain ⟨r, hr, hlive, hall⟩ := Database.rotateClientToken_ok hrot
              -- `get_client` and the update name the same client
              have hrid : r.id = clientId := Database.id_of_client? hr
              have hmax : days ≤ 90 := hdays.2
              rw [hid, ← hrid]
              rw [← hrid] at hr hall
              refine TokenMove.issue
                { r with tokenHash := hashSecret sha256Hex (newToken secret),
                         expiresAt := clock + days * 86400 }
                db' none (newToken secret) clock hdrawn rfl hlive ?_ (fun r₀ hr₀ => ?_) hall
              · dsimp only
                omega
              · obtain rfl : r = r₀ := Option.some.inj (hr.symm.trans hr₀)
                exact hlive
  · exact .idle sha256Hex s.db i

/-- **The one inversion lemma for tokens.** -/
theorem tokenMove_of_step (s : Credentials) (i : CredentialInput) :
    TokenMove sha256Hex s.db i (credentialStep parse sha256Hex s i).1.db
      (credentialStep parse sha256Hex s i).2 := by
  cases i with
  | grant origin name bytes clock now fails =>
      simp only [credentialStep]
      split
      · exact .idle sha256Hex s.db _
      · exact tokenMove_afterGrant sha256Hex _ none fun db g h =>
          newPairingGrantForSession_clients parse sha256Hex h
  | dashboardGrant origin name session bytes clock now fails =>
      simp only [credentialStep]
      split
      · exact .idle sha256Hex s.db _
      · refine tokenMove_afterGrant sha256Hex _ (some session) fun db g h => ?_
        unfold newDashboardPairingGrant at h
        split at h
        · exact newPairingGrantForSession_clients parse sha256Hex h
        · cases h
  | redeem attempt code requestOrigin session now fails =>
      simp only [credentialStep]
      split
      · exact .idle sha256Hex s.db _
      · split
        · exact .idle sha256Hex s.db _
        · have hclients := redeemCode_clients parse sha256Hex s.db code requestOrigin session now
          cases hredeem : redeemCode parse sha256Hex s.db code requestOrigin session now with
          | mk db result =>
              rw [hredeem] at hclients
              cases result with
              | error error => exact .stay db [] hclients (by simp)
              | ok record => exact .stay db _ hclients (by simp [issuedToken?])
  | issue attempt secret candidateId clock now fails =>
      simp only [credentialStep]
      cases hp : s.pending attempt with
      | none => exact .idle sha256Hex s.db _
      | some p =>
          dsimp only
          split
          · exact .idle sha256Hex s.db _
          -- both branches ask for 30 days
          · have hdays : (30 : Int) ≤ 90 := by decide
            unfold issueForRecord
            split
            · exact tokenMove_issueStable sha256Hex
                (s := ⟨s.db, Function.update s.pending attempt none⟩)
                (i := .issue attempt secret candidateId clock now fails) (some p.code) hdays rfl
            · exact tokenMove_issueToken sha256Hex
                (s := ⟨s.db, Function.update s.pending attempt none⟩)
                (i := .issue attempt secret candidateId clock now fails) (some p.code) hdays rfl
  | issueLocal name days secret id clock now fails =>
      simp only [credentialStep]
      split
      · exact .idle sha256Hex s.db _
      · unfold issueLocalToken
        split
        · next hdays => exact tokenMove_issueToken sha256Hex none hdays.2 rfl
        · exact .idle sha256Hex s.db _
  | rotate clientId days secret clock fails =>
      simp only [credentialStep]
      split
      · exact .idle sha256Hex s.db _
      · exact tokenMove_rotate sha256Hex rfl
  | revoke clientId now fails =>
      simp only [credentialStep]
      split
      · exact .idle sha256Hex s.db _
      · cases hrev : s.db.revokeClient clientId now with
        | error error => exact .idle sha256Hex s.db _
        | ok db =>
            obtain ⟨r, hr, -, hall⟩ := Database.revokeClient_ok hrev
            obtain rfl := Database.id_of_client? hr
            exact .revoke r now db hr hall

/-! ## The invariant -/

/-- A client's row is what the history says of it. -/
inductive ClientKept (c : String) (tr : List CredentialObs) : Option ClientRow → Prop
  | absent (no_token : lastIssued c tr = none) (unrevoked : .revoked c ∉ tr) :
      ClientKept c tr none
  | present (r : ClientRow) (t : String) (clock : Int)
      (last : lastIssued c tr = some (t, clock, r.expiresAt))
      (digest : r.tokenHash = hashSecret sha256Hex t)
      (soon : r.expiresAt ≤ clock + 90 * 86400)
      (live : r.revokedAt = none ↔ .revoked c ∉ tr) : ClientKept c tr (some r)

/-- What is about another client, or about none, keeps a row kept. -/
theorem ClientKept.other {c : String} {tr obs : List CredentialObs} {row : Option ClientRow}
    (h : ClientKept sha256Hex c tr row) (hissue : obs.filterMap (issueFor? c) = [])
    (hrevoke : .revoked c ∉ obs) : ClientKept sha256Hex c (tr ++ obs) row := by
  have hrevoked : .revoked c ∈ tr ++ obs ↔ .revoked c ∈ tr := by simp [hrevoke]
  cases h with
  | absent hno hun =>
      exact .absent ((lastIssued_append_of_none hissue tr).trans hno) (by rwa [hrevoked])
  | present r t clock hlast hdigest hsoon hlive =>
      exact .present r t clock ((lastIssued_append_of_none hissue tr).trans hlast) hdigest hsoon
        (by rwa [hrevoked])

theorem clientKept_step {db db' : Database} {i : CredentialInput} {tr obs : List CredentialObs}
    (move : TokenMove sha256Hex db i db' obs)
    (h : ∀ c, ClientKept sha256Hex c tr (db.client? c)) (c : String) :
    ClientKept sha256Hex c (tr ++ obs) (db'.client? c) := by
  cases move with
  | stay db' obs clients quiet =>
      have hrow : db'.client? c = db.client? c := by
        unfold Database.client?
        rw [clients]
      rw [hrow]
      refine (h c).other sha256Hex ?_ fun hmem => (quiet _ hmem).2 c rfl
      rw [List.filterMap_eq_nil_iff]
      intro o ho
      have hno := (quiet o ho).1
      cases o with
      | issued => cases hno
      | _ => rfl
  | issue r db' code token clock drawn digest live soon before after =>
      rw [after]
      by_cases hc : c = r.id
      · subst hc
        rw [if_pos rfl]
        -- a token is never set for a client that was revoked
        have hun : .revoked r.id ∉ tr := by
          have hkept := h r.id
          cases hrow : db.client? r.id with
          | none =>
              rw [hrow] at hkept
              cases hkept with
              | absent hno hun => exact hun
          | some r₀ =>
              rw [hrow] at hkept
              cases hkept with
              | present r₀ t clock hlast hdigest hsoon hlive => exact hlive.mp (before r₀ hrow)
        exact .present r token clock (lastIssued_issued r.id tr code token clock r.expiresAt)
          digest soon (by simp [live, hun])
      · rw [if_neg hc]
        exact (h c).other sha256Hex (by simp [issueFor?, Ne.symm hc]) (by simp)
  | revoke r now db' row after =>
      rw [after]
      by_cases hc : c = r.id
      · subst hc
        rw [if_pos rfl]
        have hkept := h r.id
        rw [row] at hkept
        cases hkept with
        | present r t clock hlast hdigest hsoon hlive =>
            exact .present _ t clock
              ((lastIssued_append_of_none (by simp [issueFor?]) tr).trans hlast) hdigest hsoon
              (by simp)
      · rw [if_neg hc]
        exact (h c).other sha256Hex (by simp [issueFor?]) (by simp [hc])

/-- In every run from a database without clients, each client's row is what the
    history says of it. -/
theorem clientKept_run {db : Database} (hdb : db.clients.rows = []) (is : List CredentialInput)
    (c : String) :
    ClientKept sha256Hex c (trace (credentialStep parse sha256Hex) (.ofDatabase db) is)
      ((run (credentialStep parse sha256Hex) (.ofDatabase db) is).db.client? c) := by
  have hempty : ∀ c, db.client? c = none := by
    intro c
    simp [Database.client?, Relational.Table.lookup, hdb]
  refine run_invariant (fun tr (s : Credentials) =>
    ∀ c, ClientKept sha256Hex c tr (s.db.client? c)) (fun c => ?_)
    (fun tr s i h c => clientKept_step sha256Hex (tokenMove_of_step parse sha256Hex s i) h c) is c
  show ClientKept sha256Hex c [] (db.client? c)
  rw [hempty]
  exact .absent rfl (by simp)

/-- The tokens of a run are drawn by its calls, in order. -/
theorem issuedTokens_sublist (s : Credentials) (is : List CredentialInput) :
    ((trace (credentialStep parse sha256Hex) s is).filterMap issuedToken?).Sublist
      (is.filterMap (·.token?)) := by
  induction is generalizing s with
  | nil => exact List.Sublist.refl _
  | cons i is ih =>
      have hstep : ((credentialStep parse sha256Hex s i).2.filterMap issuedToken?).Sublist
          ([i].filterMap (·.token?)) := by
        have hmove := tokenMove_of_step parse sha256Hex s i
        generalize (credentialStep parse sha256Hex s i).1.db = db' at hmove
        generalize (credentialStep parse sha256Hex s i).2 = obs at hmove ⊢
        cases hmove with
        | stay db' obs clients quiet =>
            have hnil : obs.filterMap issuedToken? = [] :=
              List.filterMap_eq_nil_iff.mpr fun o ho => (quiet o ho).1
            rw [hnil]
            exact List.nil_sublist _
        | issue r db' code token clock drawn digest live soon before after =>
            simp [issuedToken?, drawn]
        | revoke => exact List.nil_sublist _
      have happend := hstep.append (ih (credentialStep parse sha256Hex s i).1)
      rw [← List.filterMap_append, ← List.filterMap_append] at happend
      exact happend

/-! ## Live tokens -/

/-- `find_client_by_token_hash` returns client `c` for token `t` at time `now`. -/
def LiveFor (db : Database) (t : String) (now : Int) (c : String) : Prop :=
  ∃ client, db.findClientByTokenHash (hashSecret sha256Hex t) now = some client ∧ client.id = c

/-- A token is live for a client exactly when it is the last one set for it, the
    client is not revoked, and it has not expired. -/
theorem liveFor_iff {db : Database} {tr : List CredentialObs} {S : Set String}
    (hkept : ∀ c, ClientKept sha256Hex c tr (db.client? c))
    (hS : Set.InjOn (hashSecret sha256Hex) S) (htr : ∀ t ∈ tr.filterMap issuedToken?, t ∈ S)
    {t : String} (ht : t ∈ S) (c : String) (now : Int) :
    LiveFor sha256Hex db t now c ↔
      ∃ clock e, lastIssued c tr = some (t, clock, e) ∧ .revoked c ∉ tr ∧ now ≤ e := by
  constructor
  · rintro ⟨client, hfind, rfl⟩
    obtain ⟨r, hmem, hhash, hnow, hlive, rfl⟩ :=
      Database.findClientByTokenHash_eq_some.mp hfind
    have hrow := hkept r.id
    rw [Database.client?_of_mem hmem] at hrow
    cases hrow with
    | present r t' clock hlast hdigest hsoon hrevoked =>
        -- the row's token has the digest of `t`, so it is `t`
        obtain ⟨code, hissued⟩ := mem_of_lastIssued hlast
        have ht' : t' ∈ S := htr t' (List.mem_filterMap.mpr ⟨_, hissued, rfl⟩)
        obtain rfl : t' = t := hS ht' ht (hdigest.symm.trans hhash)
        exact ⟨clock, r.expiresAt, hlast, hrevoked.mp hlive, hnow⟩
  · rintro ⟨clock, e, hlast, hunrevoked, hnow⟩
    have hrow := hkept c
    cases hclient : db.client? c with
    | none =>
        rw [hclient] at hrow
        cases hrow with
        | absent hno hun =>
            rw [hno] at hlast
            cases hlast
    | some r =>
        rw [hclient] at hrow
        cases hrow with
        | present r t' clock' hlast' hdigest hsoon hrevoked =>
            rw [hlast'] at hlast
            obtain ⟨rfl, rfl, rfl⟩ : t' = t ∧ clock' = clock ∧ r.expiresAt = e := by
              simpa using hlast
            exact ⟨clientFromRow r, Database.findClientByTokenHash_eq_some.mpr
              ⟨r, Database.mem_of_client? hclient, hdigest, hnow, hrevoked.mpr hunrevoked, rfl⟩,
              Database.id_of_client? hclient⟩

/-- `authenticate` accepts a request only with a live token of its client. -/
theorem liveFor_of_authenticate {db : Database} {headers : HeaderMap} {now : Int}
    {client : AuthenticatedClient}
    (h : authenticate sha256Hex db headers now = .ok client) :
    ∃ t, headers.get "authorization" = some (utf8 "Bearer " ++ utf8 t) ∧
      LiveFor sha256Hex db t now client.id := by
  obtain ⟨value, token, hvalue, hdecode, hbearer, hfound, -⟩ :=
    (authenticate_eq_ok sha256Hex).mp h
  obtain ⟨rfl, -⟩ := bearerToken_eq_some.mp hbearer
  -- the token was read as text, so `hash_secret` of that text is its digest
  have htext : utf8 (ofAscii token) = token := utf8_ofAscii fun b hb =>
    lt_of_toStr hdecode b (List.mem_append_right _ hb)
  refine ⟨ofAscii token, by rw [htext]; exact hvalue, client, ?_, rfl⟩
  rw [hashSecret, htext]
  exact hfound

/-- In every run from a database without clients, a request is accepted only with
    the last token of a client that is not revoked, before it expires. -/
theorem authenticate_run {db : Database} (hdb : db.clients.rows = []) (is : List CredentialInput)
    {S : Set String} (hS : Set.InjOn (hashSecret sha256Hex) S)
    (hdrawn : ∀ t ∈ is.filterMap (·.token?), t ∈ S) {headers : HeaderMap}
    (hsent : ∀ t, headers.get "authorization" = some (utf8 "Bearer " ++ utf8 t) → t ∈ S)
    {now : Int} {client : AuthenticatedClient}
    (h : authenticate sha256Hex (run (credentialStep parse sha256Hex) (.ofDatabase db) is).db
      headers now = .ok client) :
    ∃ t clock e, headers.get "authorization" = some (utf8 "Bearer " ++ utf8 t) ∧
      lastIssued client.id (trace (credentialStep parse sha256Hex) (.ofDatabase db) is) =
        some (t, clock, e) ∧
      .revoked client.id ∉ trace (credentialStep parse sha256Hex) (.ofDatabase db) is ∧
      now ≤ e := by
  obtain ⟨t, ht, hlive⟩ := liveFor_of_authenticate sha256Hex h
  have htokens := (issuedTokens_sublist parse sha256Hex (.ofDatabase db) is).subset
  obtain ⟨clock, e, hlast, hunrevoked, hnow⟩ :=
    (liveFor_iff sha256Hex (clientKept_run parse sha256Hex hdb is) hS
      (fun t' ht' => hdrawn t' (htokens ht')) (hsent t ht) client.id now).mp hlive
  exact ⟨t, clock, e, ht, hlast, hunrevoked, hnow⟩

end

/-- A value that `f` takes once in a list is taken by one member. -/
theorem eq_of_nodup_filterMap {α β : Type*} {f : α → Option β} {l : List α}
    (h : (l.filterMap f).Nodup) {a b : α} {v : β} (ha : a ∈ l) (hb : b ∈ l)
    (hfa : f a = some v) (hfb : f b = some v) : a = b := by
  induction l with
  | nil => cases ha
  | cons x l ih =>
      have hmem : ∀ y ∈ l, f y = some v → v ∈ l.filterMap f := fun y hy hfy =>
        List.mem_filterMap.mpr ⟨y, hy, hfy⟩
      rw [List.filterMap_cons] at h
      rcases List.mem_cons.mp ha with rfl | ha' <;> rcases List.mem_cons.mp hb with rfl | hb'
      · rfl
      · rw [hfa] at h
        exact absurd (hmem b hb' hfb) (List.nodup_cons.mp h).1
      · rw [hfb] at h
        exact absurd (hmem a ha' hfa) (List.nodup_cons.mp h).1
      · refine ih ?_ ha' hb'
        split at h
        · exact h
        · exact (List.nodup_cons.mp h).2

theorem lastIssued_append (c : String) (tr obs : List CredentialObs) :
    lastIssued c (tr ++ obs) = (lastIssued c obs).or (lastIssued c tr) := by
  simp [lastIssued, List.getLast?_append]

/-- A token that was replaced is never the last one of a client again. -/
theorem not_lastIssued_of_replaced {tr obs : List CredentialObs}
    (hfresh : ((tr ++ obs).filterMap issuedToken?).Nodup) {c c' t t' : String}
    {code : Option String} {clock clock' clock'' e e' e'' : Int}
    (hissued : .issued code c t clock e ∈ tr) (hlast : lastIssued c tr = some (t', clock', e'))
    (hne : t' ≠ t) : lastIssued c' (tr ++ obs) ≠ some (t, clock'', e'') := by
  intro hlast'
  obtain ⟨code', hissued'⟩ := mem_of_lastIssued hlast'
  have heq := eq_of_nodup_filterMap hfresh (List.mem_append_left _ hissued) hissued' rfl rfl
  obtain rfl : c = c' := by
    cases heq
    rfl
  rw [lastIssued_append] at hlast'
  -- either no token followed, or it is one of the later ones, which are new
  cases hobs : lastIssued c obs with
  | none =>
      rw [hobs, hlast] at hlast'
      simp only [Option.none_or, Option.some.injEq, Prod.mk.injEq] at hlast'
      exact hne hlast'.1
  | some last =>
      rw [hobs] at hlast'
      obtain rfl : last = (t, clock'', e'') := Option.some.inj hlast'
      obtain ⟨code'', hin⟩ := mem_of_lastIssued hobs
      rw [List.filterMap_append] at hfresh
      exact (List.nodup_append'.mp hfresh).2.2 (List.mem_filterMap.mpr ⟨_, hissued, rfl⟩)
        (List.mem_filterMap.mpr ⟨_, hin, rfl⟩)

/-- **The life of a token**, in every run whose drawn tokens never repeat and
    whose tokens have different digests: what is live is what the history says;
    so a client has one live token, what was replaced or revoked stays dead, a
    token keeps its client, and no token lives longer than 90 days. -/
theorem token_lifecycle (parse : String → Option Url) (sha256Hex : List UInt8 → String)
    (db : Database) (hdb : db.clients.rows = []) (is : List CredentialInput) (S : Set String)
    (hS : Set.InjOn (hashSecret sha256Hex) S) (hdrawn : ∀ t ∈ is.filterMap (·.token?), t ∈ S)
    (hfresh : (is.filterMap (·.token?)).Nodup) :
    let history pre := trace (credentialStep parse sha256Hex) (.ofDatabase db) pre
    let live pre := LiveFor sha256Hex (run (credentialStep parse sha256Hex) (.ofDatabase db) pre).db
    (∀ t ∈ S, ∀ c now, live is t now c ↔ ∃ clock e,
      lastIssued c (history is) = some (t, clock, e) ∧ .revoked c ∉ history is ∧ now ≤ e) ∧
    (∀ t ∈ S, ∀ t' ∈ S, ∀ c now now', live is t now c → live is t' now' c → t = t') ∧
    (∀ pre, pre <+: is → ∀ t ∈ S, ∀ code c clock e t' clock' e',
      .issued code c t clock e ∈ history pre →
      lastIssued c (history pre) = some (t', clock', e') → t' ≠ t →
      ∀ c' now, ¬ live is t now c') ∧
    (∀ pre, pre <+: is → ∀ c, .revoked c ∈ history pre → ∀ t ∈ S, ∀ now, ¬ live is t now c) ∧
    (∀ pre, pre <+: is → ∀ t ∈ S, ∀ c c' now now', live pre t now c → live is t now' c' →
      c' = c) ∧
    (∀ t ∈ S, ∀ c now, live is t now c → ∃ code clock e, .issued code c t clock e ∈ history is ∧
      now ≤ e ∧ e ≤ clock + 90 * 86400) := by
  intro history live
  have htokens : ∀ pre, pre <+: is → ((history pre).filterMap issuedToken?).Nodup ∧
      ∀ t ∈ (history pre).filterMap issuedToken?, t ∈ S := by
    intro pre hpre
    have hsub := (issuedTokens_sublist parse sha256Hex (.ofDatabase db) pre).trans
      (hpre.sublist.filterMap _)
    exact ⟨hfresh.sublist hsub, fun t ht => hdrawn t (hsub.subset ht)⟩
  have hiff : ∀ pre, pre <+: is → ∀ t ∈ S, ∀ c now, live pre t now c ↔ ∃ clock e,
      lastIssued c (history pre) = some (t, clock, e) ∧ .revoked c ∉ history pre ∧ now ≤ e :=
    fun pre hpre t ht c now => liveFor_iff sha256Hex (clientKept_run parse sha256Hex hdb pre) hS
      (htokens pre hpre).2 ht c now
  have hsplit : ∀ pre, pre <+: is → ∃ rest, history is = history pre ++ rest := by
    rintro pre ⟨post, rfl⟩
    exact ⟨_, trace_append _ _ _ _⟩
  have hself := List.prefix_refl is
  refine ⟨hiff is hself, ?_, ?_, ?_, ?_, ?_⟩
  · intro t ht t' ht' c now now' hlive hlive'
    obtain ⟨clock, e, hlast, -, -⟩ := (hiff is hself t ht c now).mp hlive
    obtain ⟨clock', e', hlast', -, -⟩ := (hiff is hself t' ht' c now').mp hlive'
    rw [hlast] at hlast'
    exact (Prod.mk.inj (Option.some.inj hlast')).1
  · intro pre hpre t ht code c clock e t' clock' e' hissued hlast hne c' now hlive
    obtain ⟨rest, heq⟩ := hsplit pre hpre
    obtain ⟨clock'', e'', hlast', -, -⟩ := (hiff is hself t ht c' now).mp hlive
    have hnodup := (htokens is hself).1
    rw [heq] at hlast' hnodup
    exact not_lastIssued_of_replaced hnodup hissued hlast hne hlast'
  · intro pre hpre c hrevoked t ht now hlive
    obtain ⟨rest, heq⟩ := hsplit pre hpre
    obtain ⟨clock, e, -, hun, -⟩ := (hiff is hself t ht c now).mp hlive
    exact hun (heq ▸ List.mem_append_left _ hrevoked)
  · intro pre hpre t ht c c' now now' hlive hlive'
    obtain ⟨rest, heq⟩ := hsplit pre hpre
    obtain ⟨clock, e, hlast, -, -⟩ := (hiff pre hpre t ht c now).mp hlive
    obtain ⟨clock', e', hlast', -, -⟩ := (hiff is hself t ht c' now').mp hlive'
    obtain ⟨code, hissued⟩ := mem_of_lastIssued hlast
    obtain ⟨code', hissued'⟩ := mem_of_lastIssued hlast'
    -- the token was set once
    have hone := eq_of_nodup_filterMap (htokens is hself).1 hissued'
      (heq ▸ List.mem_append_left _ hissued) rfl rfl
    cases hone
    rfl
  · intro t ht c now hlive
    obtain ⟨clock, e, hlast, -, hnow⟩ := (hiff is hself t ht c now).mp hlive
    -- the row of `c` holds the expiry that was set with the token
    obtain ⟨code, hissued⟩ := mem_of_lastIssued hlast
    have hkept := clientKept_run parse sha256Hex hdb is c
    cases hclient : (run (credentialStep parse sha256Hex) (.ofDatabase db) is).db.client? c with
    | none =>
        rw [hclient] at hkept
        cases hkept with
        | absent hno hun =>
            have hno : lastIssued c (history is) = none := hno
            rw [hno] at hlast
            cases hlast
    | some r =>
        rw [hclient] at hkept
        cases hkept with
        | present r t' clock' hlast' hdigest hsoon hrevoked =>
            have hlast' : lastIssued c (history is) = some (t', clock', r.expiresAt) := hlast'
            rw [hlast'] at hlast
            obtain ⟨rfl, rfl, rfl⟩ : t' = t ∧ clock' = clock ∧ r.expiresAt = e := by
              simpa using hlast
            exact ⟨code, clock', r.expiresAt, hissued, hnow, hsoon⟩

/-! ## A token that is replaced -/

/-- The random bytes of two tokens: 32 times 1 and 32 times 2. -/
def exampleSecretOne : String := "AQEBAQEBAQEBAQEBAQEBAQEBAQEBAQEBAQEBAQEBAQE"

@[inherit_doc exampleSecretOne]
def exampleSecretTwo : String := "AgICAgICAgICAgICAgICAgICAgICAgICAgICAgICAgI"

/-- The SHA-256 digests of the two tokens. -/
def exampleTokenDigests (bytes : List UInt8) : String :=
  if bytes = Text.utf8 (newToken exampleSecretOne) then
    "328cd9c993e1a2356f2d81ecf7b82a7a05b94c75ac887a088dd203ac75869f30"
  else if bytes = Text.utf8 (newToken exampleSecretTwo) then
    "47a6e8e8715a78d44bbb5eb0bf4789d8fe816f1c8c306996ed19e4c92a5ed8ea"
  else ""

/-- A local token for 30 days, replaced after 100 seconds. -/
def exampleTokenRun : List CredentialInput :=
  [.issueLocal "Local" 30 exampleSecretOne "c1" 0 0 false,
    .rotate "c1" 60 exampleSecretTwo 100 false]

theorem token_lifecycle_of_exampleTokenRun :
    LiveFor exampleTokenDigests (run (credentialStep (fun _ => none) exampleTokenDigests)
        (.ofDatabase .fresh) exampleTokenRun).db (newToken exampleSecretTwo) 200 "c1" ∧
      ¬ LiveFor exampleTokenDigests (run (credentialStep (fun _ => none) exampleTokenDigests)
        (.ofDatabase .fresh) exampleTokenRun).db (newToken exampleSecretOne) 200 "c1" := by
  have hinj : Set.InjOn (hashSecret exampleTokenDigests)
      {newToken exampleSecretOne, newToken exampleSecretTwo} := by
    have hne : hashSecret exampleTokenDigests (newToken exampleSecretOne) ≠
        hashSecret exampleTokenDigests (newToken exampleSecretTwo) := by decide
    rintro a (rfl | rfl) b (rfl | rfl) hab
    · rfl
    · exact absurd hab hne
    · exact absurd hab hne.symm
    · rfl
  obtain ⟨hlive, -, hreplaced, -, -, -⟩ := token_lifecycle (fun _ => none) exampleTokenDigests
    .fresh rfl exampleTokenRun {newToken exampleSecretOne, newToken exampleSecretTwo} hinj
    (by decide) (by decide)
  constructor
  · exact (hlive _ (by simp) "c1" 200).mpr
      ⟨100, 100 + 60 * 86400, by decide, by decide, by decide⟩
  · exact hreplaced exampleTokenRun (List.prefix_refl _) _ (by simp) none "c1" 0 (30 * 86400)
      (newToken exampleSecretTwo) 100 (100 + 60 * 86400) (by decide) (by decide) (by decide)
      "c1" 200

end PrintLatch
