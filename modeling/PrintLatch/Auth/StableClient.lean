/-
  PrintLatch.Auth.StableClient

  The dashboard's client (`DASHBOARD_STABLE_KEY` in `src/auth.rs`).

  A dashboard grant asks for the client with the stable key, an ordinary grant
  for a new client.  The request travels from the grant to the token in the
  column `reuse_client`: `GrantKept` says that the column of a code's row is what
  the last grant of that code asked for, and `pending_run` that the record
  of a redemption under way is what it was when the code was used up.
  `DashboardTokenSet` and `ClientAdded` say what the two kinds of redemption do.
-/

import PrintLatch.Auth.Pairing
import PrintLatch.Auth.Tokens
import PrintLatch.Db.Jobs

namespace PrintLatch

open Reactive

/-- Client `id` carries the dashboard's stable key and is not revoked. -/
def IsDashboard (db : Database) (id : String) : Prop :=
  ∃ r, db.client? id = some r ∧ r.stableKey = some dashboardStableKey ∧ r.revokedAt = none

/-- The index on active stable keys leaves room for one dashboard. -/
theorem IsDashboard.unique {db : Database} {id id' : String} (h : IsDashboard db id)
    (h' : IsDashboard db id') : id = id' := by
  obtain ⟨r, hr, hkey, hlive⟩ := h
  obtain ⟨r', hr', hkey', hlive'⟩ := h'
  have heq : r = r' := Database.eq_of_sameActiveStableKey (Database.mem_of_client? hr)
    (Database.mem_of_client? hr') ⟨by simp [hkey], hkey.trans hkey'.symm, hlive, hlive'⟩
  rw [← Database.id_of_client? hr, ← Database.id_of_client? hr', heq]

/-! ## What a call keeps of every client -/

/-- Every client is still there, under its stable key. -/
def KeysKept (db db' : Database) : Prop :=
  ∀ id r, db.client? id = some r → ∃ r', db'.client? id = some r' ∧ r'.stableKey = r.stableKey

theorem KeysKept.refl (db : Database) : KeysKept db db := fun _ r hr => ⟨r, hr, rfl⟩

theorem KeysKept.of_clients {db db' : Database} (h : db'.clients = db.clients) :
    KeysKept db db' := by
  intro id r hr
  refine ⟨r, ?_, rfl⟩
  unfold Database.client? at hr ⊢
  rw [h]
  exact hr

/-- A statement that writes one row keeps the keys when it keeps that row's. -/
theorem KeysKept.of_row {db db' : Database} {id : String} {r' : ClientRow}
    (hall : ∀ id', db'.client? id' = if id' = id then some r' else db.client? id')
    (hkey : ∀ r, db.client? id = some r → r'.stableKey = r.stableKey) : KeysKept db db' := by
  intro id' r hr
  rw [hall]
  by_cases hid : id' = id
  · rw [hid] at hr
    exact ⟨r', if_pos hid, hkey r hr⟩
  · exact ⟨r, (if_neg hid).trans hr, rfl⟩

section

variable (parse : String → Option Url) (sha256Hex : List UInt8 → String)

theorem issueToken_keysKept {db db' : Database} {name secret id : String} {kind : ClientKind}
    {origin : Option String} {days clock now : Int} {t : IssuedToken}
    (h : issueToken sha256Hex db name kind origin days secret id clock now = .ok (db', t)) :
    KeysKept db db' := by
  unfold issueToken Database.insertClient at h
  dsimp only at h
  cases hins : db.clients.insert? _ with
  | none =>
      rw [hins] at h
      cases h
  | some clients =>
      rw [hins] at h
      cases h
      obtain ⟨hfree, hall⟩ := Database.client?_of_insert? hins
      refine .of_row hall fun r hr => ?_
      rw [hfree] at hr
      cases hr

theorem issueStableBrowserToken_keysKept {db db' : Database} {name origin secret id : String}
    {days clock now : Int} {t : IssuedToken}
    (h : issueStableBrowserToken sha256Hex db name origin days secret id clock now =
      .ok (db', t)) : KeysKept db db' := by
  unfold issueStableBrowserToken at h
  dsimp only at h
  split at h
  · cases h
  · next hrotate =>
      cases h
      rcases Database.rotateOrInsertStableBrowserClient_cases hrotate with
        ⟨r, hr, -, -, -, hall⟩ | ⟨-, hfree, -, hall⟩
      · refine .of_row hall fun r₀ hr₀ => ?_
        obtain rfl : r = r₀ := Option.some.inj (hr.symm.trans hr₀)
        rfl
      · refine .of_row hall fun r₀ hr₀ => ?_
        rw [hfree] at hr₀
        cases hr₀

theorem rotateToken_keysKept {db db' : Database} {clientId secret : String} {days clock : Int}
    {t : IssuedToken}
    (h : rotateToken sha256Hex db clientId days secret clock = .ok (db', t)) :
    KeysKept db db' := by
  unfold rotateToken at h
  split at h
  · split at h
    · cases h
    · dsimp only at h
      split at h
      · cases h
      · next hrotate =>
          cases h
          obtain ⟨r, hr, -, hall⟩ := Database.rotateClientToken_ok hrotate
          refine .of_row hall fun r₀ hr₀ => ?_
          obtain rfl : r = r₀ := Option.some.inj (hr.symm.trans hr₀)
          rfl
  · cases h

theorem keysKept_afterToken {s : Credentials} (code : Option String) (clock : Int)
    {result : Except DbError (Database × IssuedToken)}
    (h : ∀ db t, result = .ok (db, t) → KeysKept s.db db) :
    KeysKept s.db (afterToken s code clock result).1.db := by
  cases result with
  | error error => exact .refl s.db
  | ok issued =>
      obtain ⟨db, t⟩ := issued
      exact h db t rfl

/-- No transaction takes a client away or changes its stable key. -/
theorem keysKept_of_step (s : Credentials) (i : CredentialInput) :
    KeysKept s.db (credentialStep parse sha256Hex s i).1.db := by
  -- what sets no token leaves the clients alone, or revokes one
  have hquiet : i.token? = none → KeysKept s.db (credentialStep parse sha256Hex s i).1.db := by
    intro hnone
    have hmove := tokenMove_of_step parse sha256Hex s i
    generalize (credentialStep parse sha256Hex s i).1.db = db' at hmove ⊢
    generalize (credentialStep parse sha256Hex s i).2 = obs at hmove
    cases hmove with
    | stay db' obs clients quiet => exact .of_clients clients
    | issue r db' code token clock drawn digest live soon before after =>
        rw [hnone] at drawn
        cases drawn
    | revoke r now db' row after =>
        refine .of_row after fun r₀ hr₀ => ?_
        obtain rfl : r = r₀ := Option.some.inj (row.symm.trans hr₀)
        rfl
  cases i with
  | issue attempt secret candidateId clock now fails =>
      simp only [credentialStep]
      cases hp : s.pending attempt with
      | none => exact .refl s.db
      | some p =>
          dsimp only
          split
          · exact .refl s.db
          · refine keysKept_afterToken (s := ⟨s.db, Function.update s.pending attempt none⟩) _ _
              fun db t h => ?_
            unfold issueForRecord at h
            split at h
            · exact issueStableBrowserToken_keysKept sha256Hex h
            · exact issueToken_keysKept sha256Hex h
  | issueLocal name days secret id clock now fails =>
      simp only [credentialStep]
      split
      · exact .refl s.db
      · refine keysKept_afterToken _ _ fun db t h => ?_
        unfold issueLocalToken at h
        split at h
        · exact issueToken_keysKept sha256Hex h
        · cases h
  | rotate clientId days secret clock fails =>
      simp only [credentialStep]
      split
      · exact .refl s.db
      · exact keysKept_afterToken _ _ fun db t h => rotateToken_keysKept sha256Hex h
  | _ => exact hquiet rfl

/-! ## The dashboard stays -/

/-- A transaction that does not revoke the dashboard leaves it the dashboard. -/
theorem isDashboard_step {s : Credentials} {i : CredentialInput} {d : String}
    (h : IsDashboard s.db d) (hrevoke : .revoked d ∉ (credentialStep parse sha256Hex s i).2) :
    IsDashboard (credentialStep parse sha256Hex s i).1.db d := by
  obtain ⟨r, hr, hkey, hlive⟩ := h
  obtain ⟨r', hr', hkey'⟩ := keysKept_of_step parse sha256Hex s i d r hr
  refine ⟨r', hr', hkey'.trans hkey, ?_⟩
  have hmove := tokenMove_of_step parse sha256Hex s i
  generalize (credentialStep parse sha256Hex s i).1.db = db' at hmove hr'
  generalize (credentialStep parse sha256Hex s i).2 = obs at hmove hrevoke
  cases hmove with
  | stay db' obs clients quiet =>
      unfold Database.client? at hr hr'
      rw [clients, hr] at hr'
      cases hr'
      exact hlive
  | issue r₁ db' code token clock drawn digest live soon before after =>
      rw [after] at hr'
      by_cases hd : d = r₁.id
      · rw [if_pos hd] at hr'
        cases hr'
        exact live
      · rw [if_neg hd, hr] at hr'
        cases hr'
        exact hlive
  | revoke r₁ now db' row after =>
      have hd : d ≠ r₁.id := by
        rintro rfl
        exact hrevoke List.mem_cons_self
      rw [after, if_neg hd, hr] at hr'
      cases hr'
      exact hlive

/-- Until it is revoked, the dashboard stays the dashboard. -/
theorem isDashboard_run {s : Credentials} {d : String} (h : IsDashboard s.db d)
    (is : List CredentialInput)
    (hrevoke : .revoked d ∉ trace (credentialStep parse sha256Hex) s is) :
    IsDashboard (run (credentialStep parse sha256Hex) s is).db d := by
  induction is generalizing s with
  | nil => exact h
  | cons i is ih =>
      rw [trace_cons, List.mem_append, not_or] at hrevoke
      exact ih (isDashboard_step parse sha256Hex h hrevoke.1) hrevoke.2

/-! ## No transaction on credentials touches a job -/

theorem newPairingGrantForSession_jobs {db db' : Database} {origin name : String}
    {session : Option String} {reuse : Bool} {bytes : List UInt8} {clock now : Int}
    {g : PairingGrant}
    (h : newPairingGrantForSession parse sha256Hex db origin name session reuse bytes clock now =
      .ok (db', g)) : db'.jobs = db.jobs := by
  obtain ⟨-, hins⟩ := newPairingGrantForSession_ok parse sha256Hex h
  exact (Database.insertPairingCode_clients hins).2

theorem redeemCode_jobs (db : Database) (code requestOrigin session : String) (now : Int) :
    (redeemCode parse sha256Hex db code requestOrigin session now).1.jobs = db.jobs := by
  unfold redeemCode
  split
  · rfl
  · next origin _ =>
      have hsame := db.consumePairingCode_jobs (hashSecret sha256Hex code) origin now session
      split
      · next heq =>
          rw [heq] at hsame
          exact hsame
      · next heq =>
          rw [heq] at hsame
          exact hsame

theorem afterGrant_jobs {s : Credentials} (session : Option String)
    {result : Except DbError (Database × PairingGrant)}
    (h : ∀ db g, result = .ok (db, g) → db.jobs = s.db.jobs) :
    (afterGrant s session result).1.db.jobs = s.db.jobs := by
  cases result with
  | error error => rfl
  | ok granted => exact h granted.1 granted.2 rfl

theorem afterToken_jobs {s : Credentials} (code : Option String) (clock : Int)
    {result : Except DbError (Database × IssuedToken)}
    (h : ∀ db t, result = .ok (db, t) → s.db.OnlyClients db) :
    (afterToken s code clock result).1.db.jobs = s.db.jobs := by
  cases result with
  | error error => rfl
  | ok issued => exact (h issued.1 issued.2 rfl).jobs

theorem jobs_of_step (s : Credentials) (i : CredentialInput) :
    (credentialStep parse sha256Hex s i).1.db.jobs = s.db.jobs := by
  cases i with
  | grant origin name bytes clock now fails =>
      simp only [credentialStep]
      split
      · rfl
      · exact afterGrant_jobs none fun db g h =>
          newPairingGrantForSession_jobs parse sha256Hex h
  | dashboardGrant origin name session bytes clock now fails =>
      simp only [credentialStep, newDashboardPairingGrant]
      split
      · rfl
      · refine afterGrant_jobs (some session) fun db g h => ?_
        split at h
        · exact newPairingGrantForSession_jobs parse sha256Hex h
        · cases h
  | redeem attempt code requestOrigin session now fails =>
      have hjobs := redeemCode_jobs parse sha256Hex s.db code requestOrigin session now
      simp only [credentialStep]
      split
      · rfl
      · split
        · rfl
        · split
          · next heq =>
              rw [heq] at hjobs
              exact hjobs
          · next heq =>
              rw [heq] at hjobs
              exact hjobs
  | issue attempt secret candidateId clock now fails =>
      simp only [credentialStep]
      split
      · rfl
      · split
        · rfl
        · exact afterToken_jobs _ _ fun db t h => issueForRecord_onlyClients sha256Hex h
  | issueLocal name days secret id clock now fails =>
      simp only [credentialStep]
      split
      · rfl
      · exact afterToken_jobs _ _ fun db t h => issueLocalToken_onlyClients sha256Hex h
  | rotate clientId days secret clock fails =>
      simp only [credentialStep]
      split
      · rfl
      · exact afterToken_jobs _ _ fun db t h => rotateToken_onlyClients sha256Hex h
  | revoke clientId now fails =>
      simp only [credentialStep]
      split
      · rfl
      · split
        · rfl
        · next hrevoke => exact (Database.revokeClient_onlyClients hrevoke).jobs

/-- The jobs of a run are the jobs it started with. -/
theorem jobs_of_run (s : Credentials) (is : List CredentialInput) :
    (run (credentialStep parse sha256Hex) s is).db.jobs = s.db.jobs := by
  induction is generalizing s with
  | nil => rfl
  | cons i is ih => exact (ih _).trans (jobs_of_step parse sha256Hex s i)

/-! ## What a grant asked for -/

/-- What a grant of a code with this digest was bound to: a dashboard grant to a
    session of the agent, an ordinary one to nothing. -/
def boundTo? (hash : String) : CredentialObs → Option (Option String)
  | .granted code _ _ session => if hashSecret sha256Hex code = hash then some session else none
  | _ => none

/-- What the last grant of a code with this digest was bound to. -/
def lastGrant (hash : String) (tr : List CredentialObs) : Option (Option String) :=
  (tr.filterMap (boundTo? sha256Hex hash)).getLast?

theorem lastGrant_append (hash : String) (tr obs : List CredentialObs) :
    lastGrant sha256Hex hash (tr ++ obs) =
      (lastGrant sha256Hex hash obs).or (lastGrant sha256Hex hash tr) := by
  simp [lastGrant, List.getLast?_append]

theorem lastGrant_granted (hash code origin : String) (e : Int) (session : Option String) :
    lastGrant sha256Hex hash [.granted code origin e session] =
      if hashSecret sha256Hex code = hash then some session else none := by
  by_cases h : hashSecret sha256Hex code = hash <;> simp [lastGrant, boundTo?, h]

/-- What shows no grant leaves the last one. -/
theorem lastGrant_append_of_none {obs : List CredentialObs}
    (h : ∀ o ∈ obs, ∀ k, grantOf? k o = none) (hash : String) (tr : List CredentialObs) :
    lastGrant sha256Hex hash (tr ++ obs) = lastGrant sha256Hex hash tr := by
  have hnil : obs.filterMap (boundTo? sha256Hex hash) = [] := by
    rw [List.filterMap_eq_nil_iff]
    intro o ho
    cases o with
    | granted code origin e session =>
        have hnone := h _ ho code
        simp [grantOf?] at hnone
    | _ => rfl
  simp [lastGrant, hnil]

/-- A code's row holds what its last grant asked for. -/
def GrantKept (tr : List CredentialObs) (db : Database) : Prop :=
  ∀ hash r, db.pairingCode? hash = some r →
    lastGrant sha256Hex hash tr = some r.instanceSession ∧
      r.reuseClient = r.instanceSession.isSome

/-- A grant writes the row it asks for; the purge only takes rows away. -/
theorem grantKept_afterGrant (session : Option String) {s : Credentials}
    {tr : List CredentialObs} {origin name : String} {bytes : List UInt8} {clock now : Int}
    (h : GrantKept sha256Hex tr s.db) :
    GrantKept sha256Hex
      (tr ++ (afterGrant s session (newPairingGrantForSession parse sha256Hex s.db origin name
        session session.isSome bytes clock now)).2)
      (afterGrant s session (newPairingGrantForSession parse sha256Hex s.db origin name session
        session.isSome bytes clock now)).1.db := by
  have hidle : GrantKept sha256Hex (tr ++ []) s.db := by
    rw [List.append_nil]
    exact h
  unfold newPairingGrantForSession
  cases normalizeOrigin parse origin with
  | error message => exact hidle
  | ok origin =>
      dsimp only
      cases hins : s.db.insertPairingCode (hashSecret sha256Hex (formatPairingCode bytes)) origin
          name (clock + pairingTtl) session session.isSome now with
      | error error => exact hidle
      | ok db' =>
          intro hash r hr
          have hr : db'.pairingCode? hash = some r := hr
          rw [Database.insertPairingCode_ok hins] at hr
          show lastGrant sha256Hex hash (tr ++ [.granted (formatPairingCode bytes) origin
            (clock + pairingTtl) session]) = _ ∧ _
          rw [lastGrant_append, lastGrant_granted]
          by_cases hhash : hash = hashSecret sha256Hex (formatPairingCode bytes)
          · rw [if_pos hhash] at hr
            cases hr
            rw [if_pos hhash.symm]
            exact ⟨rfl, rfl⟩
          · rw [if_neg hhash] at hr
            rw [if_neg (Ne.symm hhash), Option.none_or]
            exact h hash r (Option.filter_eq_some_iff.mp hr).1

theorem grantKept_of_step {s : Credentials} {tr : List CredentialObs}
    (h : GrantKept sha256Hex tr s.db) (i : CredentialInput) :
    GrantKept sha256Hex (tr ++ (credentialStep parse sha256Hex s i).2)
      (credentialStep parse sha256Hex s i).1.db := by
  -- what creates no code writes no row but to use it up
  have hother : i.grantedCode? = none →
      GrantKept sha256Hex (tr ++ (credentialStep parse sha256Hex s i).2)
        (credentialStep parse sha256Hex s i).1.db := by
    intro hnone
    have hmove := codeMove_of_step parse sha256Hex s i
    generalize (credentialStep parse sha256Hex s i).1 = s' at hmove ⊢
    generalize (credentialStep parse sha256Hex s i).2 = obs at hmove ⊢
    have hsame : s'.db.pairingCodes = s.db.pairingCodes →
        (∀ o ∈ obs, ∀ k, grantOf? k o = none) → GrantKept sha256Hex (tr ++ obs) s'.db := by
      intro hcodes hobs hash r hr
      unfold Database.pairingCode? at hr
      rw [hcodes] at hr
      rw [lastGrant_append_of_none sha256Hex hobs]
      exact h hash r hr
    cases hmove with
    | stay s' obs codes pending quiet =>
        exact hsame codes fun o ho k => ((quiet o ho).2 k).1
    | grant code now r db' drawn time digest unused after =>
        rw [hnone] at drawn
        cases drawn
    | finish attempt p db' obs waiting codes shown =>
        refine hsame codes ?_
        rcases shown with rfl | ⟨clientId, token, clock, expiresAt, rfl⟩ <;> simp [grantOf?]
    | redeem attempt code now p r db' tried free names row unused after =>
        intro hash r' hr'
        have hr' : db'.pairingCode? hash = some r' := hr'
        rw [after] at hr'
        rw [lastGrant_append_of_none sha256Hex (by simp [grantOf?])]
        by_cases hhash : hash = hashSecret sha256Hex code
        · rw [if_pos hhash] at hr'
          cases hr'
          rw [hhash]
          exact h _ r row
        · rw [if_neg hhash] at hr'
          exact h hash r' hr'
  have hidle : GrantKept sha256Hex (tr ++ []) s.db := by
    rw [List.append_nil]
    exact h
  cases i with
  | grant origin name bytes clock now fails =>
      simp only [credentialStep]
      split
      · exact hidle
      · exact grantKept_afterGrant parse sha256Hex none h
  | dashboardGrant origin name session bytes clock now fails =>
      simp only [credentialStep, newDashboardPairingGrant]
      split
      · exact hidle
      · split
        · exact grantKept_afterGrant parse sha256Hex (some session) h
        · exact hidle
  | _ => exact hother rfl

/-- In every run from a database without codes, a code's row holds what its last
    grant asked for. -/
theorem grantKept_run {db : Database} (hdb : db.pairingCodes.rows = [])
    (is : List CredentialInput) :
    GrantKept sha256Hex (trace (credentialStep parse sha256Hex) (.ofDatabase db) is)
      (run (credentialStep parse sha256Hex) (.ofDatabase db) is).db := by
  refine run_invariant (fun tr (s : Credentials) => GrantKept sha256Hex tr s.db)
    (fun hash r hr => ?_) (fun tr s i h => grantKept_of_step parse sha256Hex h i) is
  have hnone : db.pairingCode? hash = none := by
    simp [Database.pairingCode?, Relational.Table.lookup, hdb]
  have hr : db.pairingCode? hash = some r := hr
  rw [hnone] at hr
  cases hr

/-! ## A redemption under way -/

/-- The redemption whose token a call sets. -/
def CredentialInput.finishes? : CredentialInput → Option Nat
  | .issue attempt _ _ _ _ _ => some attempt
  | _ => none

theorem afterGrant_pending (s : Credentials) (session : Option String)
    (result : Except DbError (Database × PairingGrant)) :
    (afterGrant s session result).1.pending = s.pending := by
  cases result <;> rfl

theorem afterToken_pending (s : Credentials) (code : Option String) (clock : Int)
    (result : Except DbError (Database × IssuedToken)) :
    (afterToken s code clock result).1.pending = s.pending := by
  cases result <;> rfl

/-- Only its own second transaction ends a redemption. -/
theorem pending_of_step {s : Credentials} {i : CredentialInput} {attempt : Nat}
    {p : PendingToken} (hp : s.pending attempt = some p) (hi : i.finishes? ≠ some attempt) :
    (credentialStep parse sha256Hex s i).1.pending attempt = some p := by
  cases i with
  | grant origin name bytes clock now fails =>
      simp only [credentialStep]
      split
      · exact hp
      · rw [afterGrant_pending]
        exact hp
  | dashboardGrant origin name session bytes clock now fails =>
      simp only [credentialStep]
      split
      · exact hp
      · rw [afterGrant_pending]
        exact hp
  | redeem attempt' code requestOrigin session now fails =>
      simp only [credentialStep]
      split
      · exact hp
      · next hfree =>
          -- a new redemption takes an attempt that is free
          have hne : attempt ≠ attempt' := by
            rintro rfl
            rw [hp] at hfree
            cases hfree
          split
          · exact hp
          · split
            · exact hp
            · exact (Function.update_of_ne hne _ _).trans hp
  | issue attempt' secret candidateId clock now fails =>
      have hne : attempt ≠ attempt' := by
        rintro rfl
        exact hi rfl
      simp only [credentialStep]
      split
      · exact hp
      · split
        · exact (Function.update_of_ne hne _ _).trans hp
        · rw [afterToken_pending]
          exact (Function.update_of_ne hne _ _).trans hp
  | issueLocal name days secret id clock now fails =>
      simp only [credentialStep]
      split
      · exact hp
      · rw [afterToken_pending]
        exact hp
  | rotate clientId days secret clock fails =>
      simp only [credentialStep]
      split
      · exact hp
      · rw [afterToken_pending]
        exact hp
  | revoke clientId now fails =>
      simp only [credentialStep]
      split
      · exact hp
      · split <;> exact hp

theorem pending_run {s : Credentials} {attempt : Nat} {p : PendingToken}
    (hp : s.pending attempt = some p) (is : List CredentialInput)
    (his : ∀ i ∈ is, i.finishes? ≠ some attempt) :
    (run (credentialStep parse sha256Hex) s is).pending attempt = some p := by
  induction is generalizing s with
  | nil => exact hp
  | cons i is ih =>
      rw [run_cons]
      apply ih
      · exact pending_of_step parse sha256Hex hp (his i List.mem_cons_self)
      · exact fun j hj => his j (List.mem_cons_of_mem _ hj)

/-! ## What the second transaction does -/

/-- The dashboard's client got a token: the one that was there, or a new one when
    there was none.  No other client and no job changed, and a token that the
    client had before belongs to nobody. -/
structure DashboardTokenSet (db db' : Database) (candidateId clientId token : String) : Prop where
  same : ∀ d, IsDashboard db d → clientId = d
  fresh : (∀ d, ¬ IsDashboard db d) → clientId = candidateId ∧ db.client? clientId = none
  dashboard : IsDashboard db' clientId
  others : ∀ id, id ≠ clientId → db'.client? id = db.client? id
  jobs : db'.jobs = db.jobs
  replaced : ∀ r t, db.client? clientId = some r → r.tokenHash = hashSecret sha256Hex t →
    hashSecret sha256Hex t ≠ hashSecret sha256Hex token →
      ∀ now c, ¬ LiveFor sha256Hex db' t now c

/-- A new client without a stable key stands behind the clients that were there. -/
structure ClientAdded (db db' : Database) (candidateId clientId : String) : Prop where
  added : ∃ r, db'.clients.rows = db.clients.rows ++ [r] ∧ r.id = clientId ∧ r.stableKey = none
  fresh : clientId = candidateId ∧ db.client? clientId = none
  jobs : db'.jobs = db.jobs

/-- A digest that only one client held belongs to nobody once that client holds
    another. -/
theorem not_liveFor_of_replaced {db db' : Database} {r : ClientRow} (r' : ClientRow) {t : String}
    (hr : db.client? r'.id = some r) (hdigest : r.tokenHash = hashSecret sha256Hex t)
    (hall : ∀ id, db'.client? id = if id = r'.id then some r' else db.client? id)
    (hne : r'.tokenHash ≠ hashSecret sha256Hex t) (now : Int) (c : String) :
    ¬ LiveFor sha256Hex db' t now c := by
  rintro ⟨client, hfind, -⟩
  obtain ⟨found, hmem, hhash, -, -, -⟩ := Database.findClientByTokenHash_eq_some.mp hfind
  have hfound := Database.client?_of_mem hmem
  rw [hall] at hfound
  by_cases hid : found.id = r'.id
  · rw [if_pos hid] at hfound
    cases hfound
    exact hne hhash
  · rw [if_neg hid] at hfound
    -- the digest is a unique column
    have heq : found = r := Relational.Table.eq_of_key_eq (fun r : ClientRow => r.tokenHash)
      (fun _ _ h => Or.inr (Or.inl h)) (Database.mem_of_client? hfound) (Database.mem_of_client? hr)
      (hhash.trans hdigest.symm)
    rw [heq] at hid
    exact hid (Database.id_of_client? hr)

theorem dashboardTokenSet_of_issue {db db' : Database} {name origin secret candidateId : String}
    {days clock now : Int} {t : IssuedToken}
    (h : issueStableBrowserToken sha256Hex db name origin days secret candidateId clock now =
      .ok (db', t)) : DashboardTokenSet sha256Hex db db' candidateId t.clientId t.token := by
  unfold issueStableBrowserToken at h
  dsimp only at h
  split at h
  · cases h
  · next db'' clientId hrotate =>
      cases h
      have hjobs := (Database.rotateOrInsertStableBrowserClient_onlyClients hrotate).jobs
      rcases Database.rotateOrInsertStableBrowserClient_cases hrotate with
        ⟨r, hr, -, hkey, hlive, hall⟩ | ⟨hid, hfree, hnone, hall⟩
      · -- the client is there and keeps its id
        have hdash : IsDashboard db clientId := ⟨r, hr, hkey, hlive⟩
        have hrid : r.id = clientId := Database.id_of_client? hr
        subst hrid
        refine ⟨fun d hd => hdash.unique hd, fun hno => absurd hdash (hno _),
          ⟨_, (hall _).trans (if_pos rfl), hkey, hlive⟩,
          fun id hne => (hall id).trans (if_neg hne), hjobs, fun r₀ t hr₀ hdigest hne => ?_⟩
        exact not_liveFor_of_replaced sha256Hex { r with
          name := name, origin := some origin, tokenHash := hashSecret sha256Hex (newToken secret),
          expiresAt := clock + days * 86400 } hr₀ hdigest hall (Ne.symm hne)
      · -- no active client has the key, so no client is the dashboard
        have hno : ∀ d, ¬ IsDashboard db d := fun d ⟨r, hr, hkey, hlive⟩ =>
          hnone r (Database.mem_of_client? hr) hkey hlive
        refine ⟨fun d hd => absurd hd (hno d), fun _ => ⟨hid, hfree⟩,
          ⟨_, (hall _).trans (if_pos rfl), rfl, rfl⟩,
          fun id hne => (hall id).trans (if_neg hne), hjobs, fun r₀ t hr₀ => ?_⟩
        rw [hfree] at hr₀
        cases hr₀

theorem clientAdded_of_issue {db db' : Database} {name secret candidateId : String}
    {kind : ClientKind} {origin : Option String} {days clock now : Int} {t : IssuedToken}
    (h : issueToken sha256Hex db name kind origin days secret candidateId clock now =
      .ok (db', t)) : ClientAdded db db' candidateId t.clientId := by
  unfold issueToken Database.insertClient at h
  dsimp only at h
  cases hins : db.clients.insert? _ with
  | none =>
      rw [hins] at h
      cases h
  | some clients =>
      rw [hins] at h
      cases h
      have hrows := Relational.Table.rows_of_insert? hins
      exact ⟨⟨_, hrows, rfl, rfl⟩, ⟨rfl, (Database.client?_of_insert? hins).1⟩, rfl⟩

/-- The record decides which of the two a redemption does. -/
theorem issue_step {s : Credentials} {attempt : Nat} {p : PendingToken}
    (hp : s.pending attempt = some p) {secret candidateId clientId token : String}
    {code : Option String} {clock now clock' expiresAt : Int} {fails : Bool}
    (hobs : (credentialStep parse sha256Hex s (.issue attempt secret candidateId clock now
      fails)).2 = [.issued code clientId token clock' expiresAt]) :
    let db' := (credentialStep parse sha256Hex s (.issue attempt secret candidateId clock now
      fails)).1.db
    (p.record.reuseClient = true →
      DashboardTokenSet sha256Hex s.db db' candidateId clientId token) ∧
    (p.record.reuseClient = false → ClientAdded s.db db' candidateId clientId) := by
  simp only [credentialStep, hp] at hobs ⊢
  cases fails with
  | true => cases hobs
  | false =>
      simp only [Bool.false_eq_true, if_false, issueForRecord] at hobs ⊢
      cases hreuse : p.record.reuseClient with
      | true =>
          simp only [hreuse, if_true] at hobs ⊢
          cases hissue : issueStableBrowserToken sha256Hex s.db p.record.name p.origin 30 secret
              candidateId clock now with
          | error error =>
              rw [hissue] at hobs
              cases hobs
          | ok issued =>
              obtain ⟨db', t⟩ := issued
              rw [hissue] at hobs
              cases hobs
              exact ⟨fun _ => dashboardTokenSet_of_issue sha256Hex hissue,
                fun hfalse => absurd hfalse (by decide)⟩
      | false =>
          simp only [hreuse, Bool.false_eq_true, if_false] at hobs ⊢
          cases hissue : issueToken sha256Hex s.db p.record.name .browser (some p.origin) 30 secret
              candidateId clock now with
          | error error =>
              rw [hissue] at hobs
              cases hobs
          | ok issued =>
              obtain ⟨db', t⟩ := issued
              rw [hissue] at hobs
              cases hobs
              exact ⟨fun htrue => absurd htrue (by decide),
                fun _ => clientAdded_of_issue sha256Hex hissue⟩

/-- The record of a redemption is what the last grant of its code asked for. -/
theorem redeem_record {s : Credentials} {tr : List CredentialObs}
    (hkept : GrantKept sha256Hex tr s.db) {attempt : Nat} {code origin session : String}
    {now : Int} {fails : Bool}
    (hobs : (credentialStep parse sha256Hex s (.redeem attempt code origin session now fails)).2 =
      [.redeemed code]) :
    ∃ p bound, (credentialStep parse sha256Hex s
        (.redeem attempt code origin session now fails)).1.pending attempt = some p ∧
      lastGrant sha256Hex (hashSecret sha256Hex code) tr = some bound ∧
      p.record.reuseClient = bound.isSome := by
  cases hfree : s.pending attempt with
  | some p => simp [credentialStep, hfree] at hobs
  | none =>
      cases fails with
      | true => simp [credentialStep, hfree] at hobs
      | false =>
          rcases redeem_step parse sha256Hex s hfree code origin session now with
            ⟨origin', r, db', -, hrow, hstep, -⟩ | ⟨-, hstep⟩
          · obtain ⟨hlast, hreuse⟩ := hkept _ r (Option.filter_eq_some_iff.mp hrow).1
            rw [hstep]
            exact ⟨_, r.instanceSession, Function.update_self _ _ _, hlast, hreuse⟩
          · rw [hstep] at hobs
            cases hobs

/-- **One dashboard, which ordinary grants never touch.**  In every run from a
    database without codes there is one dashboard at most; it stays the dashboard,
    with its jobs, until it is revoked; and whatever comes between the two
    transactions of a redemption, a code of a dashboard grant sets the dashboard's
    token and a code of an ordinary grant adds a client. -/
theorem one_stable_dashboard (db : Database) (hdb : db.pairingCodes.rows = []) :
    let step := credentialStep parse sha256Hex
    let history is := trace step (.ofDatabase db) is
    let state is := run step (.ofDatabase db) is
    (∀ is d d', IsDashboard (state is).db d → IsDashboard (state is).db d' → d = d') ∧
    (∀ is more d, IsDashboard (state is).db d → .revoked d ∉ trace step (state is) more →
      IsDashboard (state (is ++ more)).db d ∧
      ∀ limit, (state (is ++ more)).db.listJobsForClient d limit =
        (state is).db.listJobsForClient d limit) ∧
    (∀ pre mid attempt code origin session now fails,
      let redeem := .redeem attempt code origin session now fails
      (step (state pre) redeem).2 = [.redeemed code] →
      (∀ i ∈ mid, i.finishes? ≠ some attempt) →
      (step (state pre) redeem).1.db.clients = (state pre).db.clients ∧
      (step (state pre) redeem).1.db.jobs = (state pre).db.jobs ∧
      ∃ bound, lastGrant sha256Hex (hashSecret sha256Hex code) (history pre) = some bound ∧
        ∀ secret candidateId clock now' fails' clientId token expiresAt,
          let before := state (pre ++ redeem :: mid)
          let after := step before (.issue attempt secret candidateId clock now' fails')
          after.2 = [.issued (some code) clientId token clock expiresAt] →
          (bound.isSome = true →
            DashboardTokenSet sha256Hex before.db after.1.db candidateId clientId token) ∧
          (bound.isSome = false →
            ClientAdded before.db after.1.db candidateId clientId)) := by
  intro step history state
  refine ⟨fun is d d' h h' => h.unique h', ?_, ?_⟩
  · intro is more d hd hrevoke
    have hstate : state (is ++ more) = run step (state is) more := run_append ..
    have hjobs : (state (is ++ more)).db.jobs = (state is).db.jobs := by
      rw [hstate]
      exact jobs_of_run parse sha256Hex (state is) more
    refine ⟨?_, fun limit => ?_⟩
    · rw [hstate]
      exact isDashboard_run parse sha256Hex hd more hrevoke
    · unfold Database.listJobsForClient
      rw [hjobs]
  · intro pre mid attempt code origin session now fails redeem hobs hmid
    have hkept := grantKept_run parse sha256Hex hdb pre
    obtain ⟨p, bound, hp, hlast, hreuse⟩ := redeem_record parse sha256Hex hkept hobs
    refine ⟨?_, jobs_of_step parse sha256Hex (state pre) redeem, bound, hlast, ?_⟩
    · have hmove := tokenMove_of_step parse sha256Hex (state pre) redeem
      rw [hobs] at hmove
      cases hmove with
      | stay db' obs clients quiet => exact clients
    · intro secret candidateId clock now' fails' clientId token expiresAt before after hissued
      have hbefore : before.pending attempt = some p := by
        have hstate : before = run step (step (state pre) redeem).1 mid := run_append ..
        rw [hstate]
        exact pending_run parse sha256Hex hp mid hmid
      obtain ⟨hdashboard, hordinary⟩ := issue_step parse sha256Hex hbefore hissued
      rw [hreuse] at hdashboard hordinary
      exact ⟨hdashboard, hordinary⟩

end

/-! ## The dashboard is paired again -/

/-- The SHA-256 digests of the example code and of the two example tokens. -/
def exampleDigests (bytes : List UInt8) : String :=
  if bytes = Text.utf8 exampleCode then exampleCodeDigest bytes else exampleTokenDigests bytes

/-- The dashboard is paired, and asks for a grant again. -/
def exampleDashboardRun : List CredentialInput :=
  [.dashboardGrant "https://example.com" "Dashboard" exampleSession exampleCodeBytes 0 0 false,
    .redeem 0 exampleCode "https://example.com" exampleSession 10 false,
    .issue 0 exampleSecretOne "c1" 10 10 false,
    .dashboardGrant "https://example.com" "Dashboard" exampleSession exampleCodeBytes 20 20 false]

/-- Its second redemption, up to the token. -/
def exampleSecondRedeem : CredentialInput :=
  .redeem 1 exampleCode "https://example.com" exampleSession 30 false

theorem one_stable_dashboard_of_exampleDashboardRun :
    let step := credentialStep exampleParse exampleDigests
    let before := run step (.ofDatabase .fresh) (exampleDashboardRun ++ [exampleSecondRedeem])
    DashboardTokenSet exampleDigests before.db
      (step before (.issue 1 exampleSecretTwo "c2" 30 30 false)).1.db "c2" "c1"
      (newToken exampleSecretTwo) := by
  intro step before
  obtain ⟨-, -, hredeem⟩ := one_stable_dashboard exampleParse exampleDigests .fresh rfl
  obtain ⟨-, -, bound, hbound, hissue⟩ := hredeem exampleDashboardRun [] 1 exampleCode
    "https://example.com" exampleSession 30 false (by decide +kernel) (by simp)
  have hlast : lastGrant exampleDigests (hashSecret exampleDigests exampleCode)
      (trace step (.ofDatabase .fresh) exampleDashboardRun) = some (some exampleSession) := by
    decide +kernel
  obtain rfl : some exampleSession = bound := Option.some.inj (hlast.symm.trans hbound)
  exact (hissue exampleSecretTwo "c2" 30 30 false "c1" (newToken exampleSecretTwo)
    (30 + 30 * 86400) (by decide +kernel)).1 rfl

end PrintLatch
