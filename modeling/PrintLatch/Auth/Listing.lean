/-
  PrintLatch.Auth.Listing

  What `printlatch clients list` tells (`Database::list_clients`).

  `ClientMove` says once what a transaction does to a client that is listed.  Over a run of
  the credentials, the list shows exactly the clients that `authenticate` lets in, and until
  when (`listed_iff_admitted`), and it forgets nobody (`listed_kept`).
-/

import PrintLatch.Auth.Agreement
import PrintLatch.Auth.Tokens

namespace PrintLatch

open Reactive Text

/-- `list_clients`; clients that were created in one second come as in the table. -/
def Database.listClients (db : Database) : List (AuthenticatedClient × Int × Bool) :=
  (db.clients.rows.mergeSort fun a b => a.createdAt ≤ b.createdAt).map fun r =>
    (clientFromRow r, r.expiresAt, r.revokedAt.isSome)

theorem Database.mem_listClients {db : Database} {entry : AuthenticatedClient × Int × Bool} :
    entry ∈ db.listClients ↔ ∃ r ∈ db.clients.rows,
      (clientFromRow r, r.expiresAt, r.revokedAt.isSome) = entry := by
  simp only [listClients, List.mem_map, List.mem_mergeSort]

section

variable (parse : String → Option Url) (sha256Hex : List UInt8 → String)

/-! ## What can be sent -/

/-- The token of the row, and the origin of its client, can be sent in a header. -/
structure Sendable (r : ClientRow) : Prop where
  token : ∃ token, r.tokenHash = hashSecret sha256Hex token ∧ utf8 tokenPrefix <+: utf8 token ∧
    ∀ b ∈ utf8 token, visibleAscii b = true
  origin : r.kind = .browser → ∃ value origin, r.origin = some origin ∧
    normalizeOrigin parse value = .ok origin

/-- The random part of a token that is drawn is text for a header. -/
def DrawsText (i : CredentialInput) : Prop :=
  ∀ token, i.token? = some token → ∀ b ∈ utf8 token, visibleAscii b = true

/-- Every client can send what it needs, and every redemption has a normal origin. -/
structure AllSendable (s : Credentials) : Prop where
  rows : ∀ r ∈ s.db.clients.rows, Sendable parse sha256Hex r
  pending : ∀ attempt p, s.pending attempt = some p →
    ∃ value, normalizeOrigin parse value = .ok p.origin

/-- What a transaction does to the clients: nothing, or it writes the row of a new client or
    of one that is not revoked. -/
inductive ClientMove (db : Database) : Database → Prop
  | stay (db' : Database) (clients : db'.clients = db.clients) : ClientMove db db'
  | write (r : ClientRow) (db' : Database)
      (sendable : (∀ r₀ ∈ db.clients.rows, Sendable parse sha256Hex r₀) →
        Sendable parse sha256Hex r)
      (before : ∀ r₀, db.client? r.id = some r₀ →
        r₀.revokedAt = none ∧ r.kind = r₀.kind ∧ r.createdAt = r₀.createdAt)
      (after : ∀ id, db'.client? id = if id = r.id then some r else db.client? id) :
      ClientMove db db'

theorem sendable_of_newToken {r : ClientRow} {secret : String}
    (hhash : r.tokenHash = hashSecret sha256Hex (newToken secret))
    (hvisible : ∀ b ∈ utf8 (newToken secret), visibleAscii b = true)
    (horigin : r.kind = .browser → ∃ value origin, r.origin = some origin ∧
      normalizeOrigin parse value = .ok origin) : Sendable parse sha256Hex r where
  token := by
    refine ⟨newToken secret, hhash, ?_, hvisible⟩
    rw [newToken, utf8_append]
    exact List.prefix_append _ _
  origin := horigin

theorem clientMove_issueToken {s : Credentials} (code : Option String) {name : String}
    {kind : ClientKind} {origin : Option String} {days : Int} {secret id : String}
    {clock now : Int} (hvisible : ∀ b ∈ utf8 (newToken secret), visibleAscii b = true)
    (horigin : kind = .browser → ∃ value o, origin = some o ∧
      normalizeOrigin parse value = .ok o) :
    ClientMove parse sha256Hex s.db (afterToken s code clock
      (issueToken sha256Hex s.db name kind origin days secret id clock now)).1.db := by
  unfold issueToken Database.insertClient
  dsimp only
  cases hins : s.db.clients.insert? _ with
  | none => exact .stay s.db rfl
  | some clients =>
      obtain ⟨hfree, hall⟩ := Database.client?_of_insert? hins
      refine .write _ _ (fun _ => sendable_of_newToken parse sha256Hex rfl hvisible horigin)
        (fun r₀ hr₀ => ?_) hall
      rw [hfree] at hr₀
      cases hr₀

theorem clientMove_issueStable {s : Credentials} (code : Option String) {name origin : String}
    {days : Int} {secret candidateId : String} {clock now : Int}
    (hvisible : ∀ b ∈ utf8 (newToken secret), visibleAscii b = true)
    (horigin : ∃ value, normalizeOrigin parse value = .ok origin) :
    ClientMove parse sha256Hex s.db (afterToken s code clock
      (issueStableBrowserToken sha256Hex s.db name origin days secret candidateId clock
        now)).1.db := by
  obtain ⟨value, hvalue⟩ := horigin
  unfold issueStableBrowserToken
  dsimp only
  cases hrot : s.db.rotateOrInsertStableBrowserClient candidateId dashboardStableKey name origin
      (hashSecret sha256Hex (newToken secret)) (clock + days * 86400) now with
  | error error => exact .stay s.db rfl
  | ok result =>
      obtain ⟨db', clientId⟩ := result
      rcases Database.rotateOrInsertStableBrowserClient_cases hrot with
        ⟨r, hr, hkind, -, hlive, hall⟩ | ⟨rfl, hfree, -, hall⟩
      · obtain rfl := Database.id_of_client? hr
        refine .write { r with
            name := name, origin := some origin,
            tokenHash := hashSecret sha256Hex (newToken secret),
            expiresAt := clock + days * 86400 } db'
          (fun _ => sendable_of_newToken parse sha256Hex rfl hvisible
            fun _ => ⟨value, origin, rfl, hvalue⟩) (fun r₀ hr₀ => ?_) hall
        obtain rfl : r = r₀ := Option.some.inj (hr.symm.trans hr₀)
        exact ⟨hlive, rfl, rfl⟩
      · refine .write ⟨clientId, name, .browser, some origin, some dashboardStableKey,
            hashSecret sha256Hex (newToken secret), clock + days * 86400, now, none⟩ db'
          (fun _ => sendable_of_newToken parse sha256Hex rfl hvisible
            fun _ => ⟨value, origin, rfl, hvalue⟩) (fun r₀ hr₀ => ?_) hall
        rw [hfree] at hr₀
        cases hr₀

theorem clientMove_rotate {s : Credentials} {clientId : String} {days : Int} {secret : String}
    {clock : Int} (hvisible : ∀ b ∈ utf8 (newToken secret), visibleAscii b = true) :
    ClientMove parse sha256Hex s.db (afterToken s none clock
      (rotateToken sha256Hex s.db clientId days secret clock)).1.db := by
  unfold rotateToken
  split
  · cases hget : s.db.getClient clientId with
    | none => exact .stay s.db rfl
    | some client =>
        dsimp only
        cases hrot : s.db.rotateClientToken clientId (hashSecret sha256Hex (newToken secret))
            (clock + days * 86400) with
        | error error => exact .stay s.db rfl
        | ok db' =>
            obtain ⟨r, hr, hlive, hall⟩ := Database.rotateClientToken_ok hrot
            obtain rfl := Database.id_of_client? hr
            refine .write { r with
                tokenHash := hashSecret sha256Hex (newToken secret),
                expiresAt := clock + days * 86400 } db'
              (fun hrows => sendable_of_newToken parse sha256Hex rfl hvisible
                (hrows r (Database.mem_of_client? hr)).origin) (fun r₀ hr₀ => ?_) hall
            obtain rfl : r = r₀ := Option.some.inj (hr.symm.trans hr₀)
            exact ⟨hlive, rfl, rfl⟩
  · exact .stay s.db rfl

theorem clientMove_afterGrant {s : Credentials} (session : Option String)
    {result : Except DbError (Database × PairingGrant)}
    (h : ∀ db g, result = .ok (db, g) → db.clients = s.db.clients) :
    ClientMove parse sha256Hex s.db (afterGrant s session result).1.db := by
  cases result with
  | error error => exact .stay s.db rfl
  | ok granted => exact .stay _ (h granted.1 granted.2 rfl)

/-- **What a transaction does to the listed clients.** -/
theorem clientMove_of_step {s : Credentials} {i : CredentialInput} (hdrawn : DrawsText i)
    (hpending : ∀ attempt p, s.pending attempt = some p →
      ∃ value, normalizeOrigin parse value = .ok p.origin) :
    ClientMove parse sha256Hex s.db (credentialStep parse sha256Hex s i).1.db := by
  cases i with
  | grant origin name bytes clock now fails =>
      simp only [credentialStep]
      split
      · exact .stay s.db rfl
      · exact clientMove_afterGrant parse sha256Hex none fun db g h =>
          newPairingGrantForSession_clients parse sha256Hex h
  | dashboardGrant origin name session bytes clock now fails =>
      simp only [credentialStep]
      split
      · exact .stay s.db rfl
      · refine clientMove_afterGrant parse sha256Hex (some session) fun db g h => ?_
        unfold newDashboardPairingGrant at h
        split at h
        · exact newPairingGrantForSession_clients parse sha256Hex h
        · cases h
  | redeem attempt code requestOrigin session now fails =>
      simp only [credentialStep]
      split
      · exact .stay s.db rfl
      · split
        · exact .stay s.db rfl
        · have hclients := redeemCode_clients parse sha256Hex s.db code requestOrigin session now
          cases hredeem : redeemCode parse sha256Hex s.db code requestOrigin session now with
          | mk db result =>
              rw [hredeem] at hclients
              cases result with
              | error error => exact .stay db hclients
              | ok record => exact .stay db hclients
  | issue attempt secret candidateId clock now fails =>
      have hvisible := hdrawn (newToken secret) rfl
      simp only [credentialStep]
      cases hp : s.pending attempt with
      | none => exact .stay s.db rfl
      | some p =>
          obtain ⟨value, hvalue⟩ := hpending attempt p hp
          dsimp only
          split
          · exact .stay s.db rfl
          · unfold issueForRecord
            split
            · exact clientMove_issueStable parse sha256Hex
                (s := ⟨s.db, Function.update s.pending attempt none⟩) (some p.code) hvisible
                ⟨value, hvalue⟩
            · exact clientMove_issueToken parse sha256Hex
                (s := ⟨s.db, Function.update s.pending attempt none⟩) (some p.code) hvisible
                fun _ => ⟨value, p.origin, rfl, hvalue⟩
  | issueLocal name days secret id clock now fails =>
      simp only [credentialStep]
      split
      · exact .stay s.db rfl
      · unfold issueLocalToken
        split
        · exact clientMove_issueToken parse sha256Hex none (hdrawn (newToken secret) rfl)
            fun hkind => by cases hkind
        · exact .stay s.db rfl
  | rotate clientId days secret clock fails =>
      simp only [credentialStep]
      split
      · exact .stay s.db rfl
      · exact clientMove_rotate parse sha256Hex (hdrawn (newToken secret) rfl)
  | revoke clientId now fails =>
      simp only [credentialStep]
      split
      · exact .stay s.db rfl
      · cases hrev : s.db.revokeClient clientId now with
        | error error => exact .stay s.db rfl
        | ok db =>
            obtain ⟨r, hr, hlive, hall⟩ := Database.revokeClient_ok hrev
            obtain rfl := Database.id_of_client? hr
            refine .write { r with revokedAt := some now } db (fun hrows => ?_)
              (fun r₀ hr₀ => ?_) hall
            · have hold := hrows r (Database.mem_of_client? hr)
              exact ⟨hold.token, hold.origin⟩
            · obtain rfl : r = r₀ := Option.some.inj (hr.symm.trans hr₀)
              exact ⟨hlive, rfl, rfl⟩

/-- A record comes with the normalization of the request's origin. -/
theorem origin_of_redeemCode {db db' : Database} {code requestOrigin session : String}
    {now : Int} {record : PairingRecord} {origin : String}
    (h : redeemCode parse sha256Hex db code requestOrigin session now =
      (db', .ok (record, origin))) : normalizeOrigin parse requestOrigin = .ok origin := by
  unfold redeemCode at h
  split at h
  · cases h
  · next normal hnormal =>
      split at h
      · cases h
      · cases h
        exact hnormal

/-- A redemption under way has a normal origin. -/
theorem pending_step {s : Credentials} {i : CredentialInput}
    (hpending : ∀ attempt p, s.pending attempt = some p →
      ∃ value, normalizeOrigin parse value = .ok p.origin) {attempt : Nat} {p : PendingToken}
    (h : (credentialStep parse sha256Hex s i).1.pending attempt = some p) :
    ∃ value, normalizeOrigin parse value = .ok p.origin := by
  cases i with
  | redeem attempt' code requestOrigin session now fails =>
      simp only [credentialStep] at h
      split at h
      · exact hpending attempt p h
      · split at h
        · exact hpending attempt p h
        · cases hredeem : redeemCode parse sha256Hex s.db code requestOrigin session now with
          | mk db result =>
              rw [hredeem] at h
              cases result with
              | error error => exact hpending attempt p h
              | ok record =>
                  by_cases hattempt : attempt = attempt'
                  · subst hattempt
                    have hnew := h
                    simp only [Function.update_self, Option.some.injEq] at hnew
                    rw [← hnew]
                    exact ⟨requestOrigin, origin_of_redeemCode parse sha256Hex hredeem⟩
                  · simp only [Function.update_of_ne hattempt] at h
                    exact hpending attempt p h
  | issue attempt' secret candidateId clock now fails =>
      simp only [credentialStep] at h
      split at h
      · exact hpending attempt p h
      · have hrest : Function.update s.pending attempt' none attempt = some p := by
          split at h
          · exact h
          · rwa [afterToken_pending] at h
        by_cases hattempt : attempt = attempt'
        · rw [hattempt, Function.update_self] at hrest
          cases hrest
        · rw [Function.update_of_ne hattempt] at hrest
          exact hpending attempt p hrest
  | revoke clientId now fails =>
      simp only [credentialStep] at h
      split at h
      · exact hpending attempt p h
      · split at h <;> exact hpending attempt p h
  | _ =>
      -- the other calls have nothing to do with redemptions
      simp only [credentialStep] at h
      split at h
      · exact hpending attempt p h
      · first
        | rw [afterGrant_pending] at h
        | rw [afterToken_pending] at h
        exact hpending attempt p h

theorem allSendable_step {s : Credentials} {i : CredentialInput} (hdrawn : DrawsText i)
    (h : AllSendable parse sha256Hex s) :
    AllSendable parse sha256Hex (credentialStep parse sha256Hex s i).1 where
  rows := by
    have hmove := clientMove_of_step parse sha256Hex hdrawn h.pending
    intro r hr
    cases hmove with
    | stay db' clients => exact h.rows r (clients ▸ hr)
    | write row db' sendable before after =>
        have hrow := (after r.id).symm.trans (Database.client?_of_mem hr)
        by_cases hid : r.id = row.id
        · rw [if_pos hid] at hrow
          obtain rfl := Option.some.inj hrow
          exact sendable h.rows
        · rw [if_neg hid] at hrow
          exact h.rows r (Database.mem_of_client? hrow)
  pending := fun _ _ hp => pending_step parse sha256Hex h.pending hp

theorem allSendable_ofDatabase {db : Database} (hdb : db.clients.rows = []) :
    AllSendable parse sha256Hex (.ofDatabase db) where
  rows := fun r hr => by
    have hr : r ∈ db.clients.rows := hr
    rw [hdb] at hr
    cases hr
  pending := fun attempt p hp => by cases hp

theorem allSendable_run {db : Database} (hdb : db.clients.rows = []) {is : List CredentialInput}
    (hdrawn : ∀ i ∈ is, DrawsText i) :
    AllSendable parse sha256Hex (run (credentialStep parse sha256Hex) (.ofDatabase db) is) :=
  run_history_invariant (fun _ s => AllSendable parse sha256Hex s)
    (allSendable_ofDatabase parse sha256Hex hdb)
    (fun _ _ _ hi h => allSendable_step parse sha256Hex hi h) (along_input_iff.mpr hdrawn)

/-! ## Who is let in -/

/-- A client whose row can be sent has a request that is let in while it is listed. -/
theorem admitted_of_sendable (hlaws : UrlLaws parse) {db : Database} {r : ClientRow}
    (hmem : r ∈ db.clients.rows) (hsend : Sendable parse sha256Hex r) (hlive : r.revokedAt = none)
    {now : Int} (hnow : now ≤ r.expiresAt) :
    ∃ headers, authenticate sha256Hex db headers now = .ok (clientFromRow r) := by
  obtain ⟨token, hhash, htoken, hvisible⟩ := hsend.token
  let value := utf8 "Bearer " ++ utf8 token
  have hvalue : toStr value = some value := by
    have hbearer : ∀ b ∈ utf8 "Bearer ", visibleAscii b = true := visible_of_all (by decide)
    refine toStr_of_visible fun b hb => ?_
    exact (List.mem_append.mp hb).elim (hbearer b) (hvisible b)
  have hfound : db.findClientByTokenHash (sha256Hex (utf8 token)) now = some (clientFromRow r) :=
    Database.findClientByTokenHash_eq_some.mpr ⟨r, hmem, hhash, hnow, hlive, rfl⟩
  have hadmit : ∀ headers : HeaderMap, headers.get "authorization" = some value →
      allowsOrigin (clientFromRow r) headers = true →
      ∃ headers, authenticate sha256Hex db headers now = .ok (clientFromRow r) :=
    fun headers hget hallows => ⟨headers, (authenticate_eq_ok sha256Hex).mpr
      ⟨value, utf8 token, hget, hvalue, bearerToken_eq_some.mpr ⟨rfl, htoken⟩, hfound, hallows⟩⟩
  cases hkind : r.kind with
  | localProcess =>
      -- a local client sends no origin
      refine hadmit [("authorization", value)] (by simp [HeaderMap.get]) ?_
      simp [allowsOrigin, clientFromRow, hkind, HeaderMap.get]
  | browser =>
      obtain ⟨asked, origin, horigin, hnormal⟩ := hsend.origin hkind
      have hread := toStr_of_visible (visible_of_normalizeOrigin hlaws hnormal)
      refine hadmit [("authorization", value), ("origin", utf8 origin)]
        (by simp [HeaderMap.get]) ?_
      have hget : HeaderMap.get [("authorization", value), ("origin", utf8 origin)] "origin" =
          some (utf8 origin) := by simp [HeaderMap.get]
      simp [allowsOrigin, clientFromRow, hkind, horigin, hget, hread]

/-- **The list shows who is let in.**  In every run from a database without clients, some
    request is accepted for a client exactly if the client is listed as active, and not
    past the time that is listed with it. -/
theorem listed_iff_admitted (hlaws : UrlLaws parse) {db : Database} (hdb : db.clients.rows = [])
    {is : List CredentialInput} (hdrawn : ∀ i ∈ is, DrawsText i) (now : Int)
    (client : AuthenticatedClient) :
    let after := (run (credentialStep parse sha256Hex) (.ofDatabase db) is).db
    (∃ headers, authenticate sha256Hex after headers now = .ok client) ↔
      ∃ expiresAt, (client, expiresAt, false) ∈ after.listClients ∧ now ≤ expiresAt := by
  intro after
  have hsend := (allSendable_run parse sha256Hex hdb hdrawn).rows
  constructor
  · rintro ⟨headers, hok⟩
    obtain ⟨value, token, -, -, -, hfound, -⟩ := (authenticate_eq_ok sha256Hex).mp hok
    obtain ⟨r, hr, -, hnow, hlive, rfl⟩ := Database.findClientByTokenHash_eq_some.mp hfound
    exact ⟨r.expiresAt, Database.mem_listClients.mpr ⟨r, hr, by simp [hlive]⟩, hnow⟩
  · rintro ⟨expiresAt, hmem, hnow⟩
    obtain ⟨r, hr, hentry⟩ := Database.mem_listClients.mp hmem
    obtain ⟨rfl, rfl, hrevoked⟩ : clientFromRow r = client ∧ r.expiresAt = expiresAt ∧
        r.revokedAt.isSome = false := by simpa using hentry
    exact admitted_of_sendable parse sha256Hex hlaws hr (hsend r hr) (by simpa using hrevoked) hnow

/-! ## The trail -/

/-- What the table has kept of a row. -/
def RowKept (db : Database) (r : ClientRow) : Prop :=
  ∃ r' ∈ db.clients.rows, r'.id = r.id ∧ r'.kind = r.kind ∧ r'.createdAt = r.createdAt ∧
    (r.revokedAt ≠ none → r' = r)

theorem RowKept.step {s : Credentials} {i : CredentialInput} {r : ClientRow}
    (hdrawn : DrawsText i) (hsend : AllSendable parse sha256Hex s) (h : RowKept s.db r) :
    RowKept (credentialStep parse sha256Hex s i).1.db r := by
  have hmove := clientMove_of_step parse sha256Hex hdrawn hsend.pending
  obtain ⟨kept, hkept, hid, hkind, hcreated, hrevoked⟩ := h
  cases hmove with
  | stay db' clients => exact ⟨kept, clients ▸ hkept, hid, hkind, hcreated, hrevoked⟩
  | write row db' sendable before after =>
      by_cases hrow : kept.id = row.id
      · -- the row that is written was not revoked
        obtain ⟨hlive, hkind', hcreated'⟩ :=
          before kept (hrow ▸ Database.client?_of_mem hkept)
        have hnew := (after row.id).trans (if_pos rfl)
        refine ⟨row, Database.mem_of_client? hnew, hrow.symm.trans hid, hkind'.trans hkind,
          hcreated'.trans hcreated, fun hr => ?_⟩
        rw [hrevoked hr] at hlive
        exact absurd hlive hr
      · have hold := (after kept.id).trans (if_neg hrow)
        rw [Database.client?_of_mem hkept] at hold
        exact ⟨kept, Database.mem_of_client? hold, hid, hkind, hcreated, hrevoked⟩

/-- **The list forgets nobody.**  In every run from a database without clients, it names each
    client once; who was listed at some time is listed ever after, as the same kind of client;
    and the entry of a client that was revoked stays what it was. -/
theorem listed_kept {db : Database} (hdb : db.clients.rows = []) {is js : List CredentialInput}
    (hdrawn : ∀ i ∈ is ++ js, DrawsText i) :
    let before := (run (credentialStep parse sha256Hex) (.ofDatabase db) is).db
    let after := (run (credentialStep parse sha256Hex) (.ofDatabase db) (is ++ js)).db
    (after.listClients.map (·.1.id)).Nodup ∧
      ∀ entry ∈ before.listClients, ∃ entry' ∈ after.listClients,
        entry'.1.id = entry.1.id ∧ entry'.1.kind = entry.1.kind ∧
          (entry.2.2 = true → entry' = entry) := by
  intro before after
  constructor
  · -- the table has no id twice, and the list has the same ids
    have hperm : (after.listClients.map (·.1.id)).Perm (after.clients.rows.map (·.id)) := by
      simp only [Database.listClients, List.map_map]
      exact (List.mergeSort_perm _ _).map _
    rw [hperm.nodup_iff]
    exact List.pairwise_map.mpr (after.clients.distinct.imp fun hab heq => hab (Or.inl heq))
  · intro entry hentry
    obtain ⟨r, hr, rfl⟩ := Database.mem_listClients.mp hentry
    have hfirst := allSendable_run parse sha256Hex hdb fun i hi =>
      hdrawn i (List.mem_append_left js hi)
    have hkept : RowKept after r := by
      simp only [after, run_append]
      refine (run_history_invariant (fun _ s => AllSendable parse sha256Hex s ∧ RowKept s.db r)
        ⟨hfirst, r, hr, rfl, rfl, rfl, fun _ => rfl⟩ (fun _ s i hi h => ?_)
        (along_input_iff.mpr fun i hi => hdrawn i (List.mem_append_right is hi))).2
      exact ⟨allSendable_step parse sha256Hex hi h.1, h.2.step parse sha256Hex hi h.1⟩
    obtain ⟨r', hr', hid, hkind, -, hrevoked⟩ := hkept
    refine ⟨_, Database.mem_listClients.mpr ⟨r', hr', rfl⟩, hid, hkind, fun h => ?_⟩
    rw [hrevoked (Option.isSome_iff_ne_none.mp h)]

end

/-! ## The list of a token that is replaced -/

theorem drawsText_exampleTokenRun : ∀ i ∈ exampleTokenRun, DrawsText i := by
  have hvisible : ∀ token ∈ exampleTokenRun.filterMap (·.token?),
      (utf8 token).all visibleAscii = true := by decide +kernel
  intro i hi token htoken
  exact List.all_eq_true.mp (hvisible token (List.mem_filterMap.mpr ⟨i, hi, htoken⟩))

theorem listed_iff_admitted_of_exampleTokenRun :
    ∃ headers, authenticate exampleTokenDigests
      (run (credentialStep spelledParse exampleTokenDigests) (.ofDatabase .fresh)
        exampleTokenRun).db headers 200 = .ok ⟨"c1", "Local", .localProcess, none⟩ :=
  (listed_iff_admitted spelledParse exampleTokenDigests spelledParse_laws rfl
    drawsText_exampleTokenRun 200 _).mpr ⟨100 + 60 * 86400, by decide +kernel, by decide⟩

theorem listed_kept_of_exampleTokenRun :
    ∃ entry ∈ (run (credentialStep spelledParse exampleTokenDigests) (.ofDatabase .fresh)
        (exampleTokenRun ++ [.revoke "c1" 300 false])).db.listClients,
      entry.1.id = "c1" ∧ entry.1.kind = .localProcess := by
  have hdrawn : ∀ i ∈ exampleTokenRun ++ [.revoke "c1" 300 false], DrawsText i := by
    rintro i hi
    rcases List.mem_append.mp hi with hi | hi
    · exact drawsText_exampleTokenRun i hi
    · obtain rfl := List.mem_singleton.mp hi
      intro token htoken
      cases htoken
  obtain ⟨entry, hmem, hid, hkind, -⟩ := (listed_kept spelledParse exampleTokenDigests
    (rfl : Database.fresh.clients.rows = []) hdrawn).2
      (⟨"c1", "Local", .localProcess, none⟩, 100 + 60 * 86400, false) (by decide +kernel)
  exact ⟨entry, hmem, hid, hkind⟩

end PrintLatch
