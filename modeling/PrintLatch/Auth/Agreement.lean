/-
  PrintLatch.Auth.Agreement

  The four places that read an origin agree on it.

  A grant and a redemption normalize an origin (`src/auth.rs`), `authenticate` compares
  bytes with the stored one, and the middleware (`src/api.rs`) echoes another
  normalization.  They agree because a normal origin is its own normalization
  (`normalizeOrigin_self`) and visible ASCII (`visible_of_normalizeOrigin`); what a code
  and a token carry from one place to the next is `GrantedRow` and `TokenSince`, each
  kept by every transaction.
-/

import PrintLatch.Api.Router
import PrintLatch.Auth.StableClient

namespace PrintLatch

open Reactive Text

/-! ## Normal origins -/

/-- The text of an origin. -/
def originText (scheme host : String) : Option Nat → String
  | none => s!"{scheme}://{host}"
  | some port => s!"{scheme}://{host}:{port}"

/-- What the URL standard says of the `url` crate on web origins: the host of a parsed URL
    is visible ASCII, and scheme, host and port, serialized, parse to themselves. -/
structure UrlLaws (parse : String → Option Url) : Prop where
  visible : ∀ value u host, parse value = some u → u.scheme = "http" ∨ u.scheme = "https" →
    u.host = some host → ∀ b ∈ utf8 host, visibleAscii b = true
  reparse : ∀ value u host, parse value = some u → u.scheme = "http" ∨ u.scheme = "https" →
    u.host = some host → parse (originText u.scheme host u.port) =
      some ⟨u.scheme, "", none, some host, u.port, "/", none, none⟩

theorem visible_of_all {bs : List UInt8} (h : bs.all visibleAscii = true) :
    ∀ b ∈ bs, visibleAscii b = true :=
  List.all_eq_true.mp h

section

variable {parse : String → Option Url}

/-- The checks of `normalize_origin`, on what the crate parsed. -/
structure NormalParts (u : Url) (host : String) : Prop where
  username : u.username = ""
  password : u.password = none
  query : u.query = none
  fragment : u.fragment = none
  path : u.path = "/"
  named : u.host = some host
  scheme : u.scheme = "https" ∨ u.scheme = "http" ∧ isLoopback host = true

theorem NormalParts.web {u : Url} {host : String} (h : NormalParts u host) :
    u.scheme = "http" ∨ u.scheme = "https" :=
  h.scheme.elim Or.inr fun hhttp => Or.inl hhttp.1

theorem normalizeOrigin_eq_ok {value n : String} :
    normalizeOrigin parse value = .ok n ↔
      ∃ u host, parse value = some u ∧ NormalParts u host ∧
        n = originText u.scheme host u.port := by
  constructor
  · intro h
    unfold normalizeOrigin at h
    split at h
    · cases h
    · next u hu =>
        split at h
        · cases h
        · next hbare =>
            push Not at hbare
            obtain ⟨husername, hpassword, hquery, hfragment, hpath⟩ := hbare
            split at h
            · cases h
            · next host hhost =>
                split at h
                · cases h
                · next hscheme =>
                    -- every check was passed
                    have hparts : NormalParts u host :=
                      { username := husername
                        password := by simpa using hpassword
                        query := by simpa using hquery
                        fragment := by simpa using hfragment
                        path := hpath
                        named := hhost
                        scheme := by
                          by_cases hhttps : u.scheme = "https"
                          · exact Or.inl hhttps
                          · exact Or.inr (not_not.mp fun hnot => hscheme ⟨hhttps, hnot⟩) }
                    refine ⟨u, host, hu, hparts, ?_⟩
                    split at h
                    · next hport =>
                        rw [hport]
                        exact (Except.ok.inj h).symm
                    · next port hport =>
                        rw [hport]
                        exact (Except.ok.inj h).symm
  · rintro ⟨u, host, hu, hparts, rfl⟩
    have hscheme : ¬ (u.scheme ≠ "https" ∧ ¬ (u.scheme = "http" ∧ isLoopback host)) := by
      rintro ⟨hhttps, hhttp⟩
      exact hparts.scheme.elim hhttps hhttp
    simp only [normalizeOrigin, hu, hparts.username, hparts.password, hparts.query,
      hparts.fragment, hparts.path, hparts.named, hscheme]
    cases hport : u.port <;> simp [originText]

/-- **A normal origin is its own normalization.** -/
theorem normalizeOrigin_self (hlaws : UrlLaws parse) {value n : String}
    (h : normalizeOrigin parse value = .ok n) : normalizeOrigin parse n = .ok n := by
  obtain ⟨u, host, hu, hparts, rfl⟩ := normalizeOrigin_eq_ok.mp h
  have hreparse := hlaws.reparse value u host hu hparts.web hparts.named
  exact normalizeOrigin_eq_ok.mpr
    ⟨_, host, hreparse, ⟨rfl, rfl, rfl, rfl, rfl, rfl, hparts.scheme⟩, rfl⟩

/-- The bytes of a normal origin can be sent in a header, and read from one. -/
theorem visible_of_normalizeOrigin (hlaws : UrlLaws parse) {value n : String}
    (h : normalizeOrigin parse value = .ok n) : ∀ b ∈ utf8 n, visibleAscii b = true := by
  obtain ⟨u, host, hu, hparts, rfl⟩ := normalizeOrigin_eq_ok.mp h
  have hhost := hlaws.visible value u host hu hparts.web hparts.named
  have hscheme : ∀ b ∈ utf8 u.scheme, visibleAscii b = true := by
    rcases hparts.web with heq | heq <;> rw [heq]
    · exact visible_of_all (by decide)
    · exact visible_of_all (by decide)
  have hslashes : ∀ b ∈ utf8 "://", visibleAscii b = true := visible_of_all (by decide)
  have hcolon : ∀ b ∈ utf8 ":", visibleAscii b = true := visible_of_all (by decide)
  have hport : ∀ port : Nat, ∀ b ∈ utf8 (toString port), visibleAscii b = true := by
    intro port b hb
    -- a numeral is made of digits
    have hdigit := digit_of_mem_utf8_toString hb
    simp only [visibleAscii, UInt8.le_iff_toNat_le, UInt8.lt_iff_toNat_lt, decide_eq_true_eq]
    left
    show 32 ≤ b.toNat ∧ b.toNat < 127
    omega
  cases u.port with
  | none =>
      intro b hb
      have hb : b ∈ utf8 (u.scheme ++ "://" ++ host) := hb
      simp only [utf8_append, List.mem_append] at hb
      rcases hb with (hb | hb) | hb
      · exact hscheme b hb
      · exact hslashes b hb
      · exact hhost b hb
  | some port =>
      intro b hb
      have hb : b ∈ utf8 (u.scheme ++ "://" ++ host ++ ":" ++ toString port) := hb
      simp only [utf8_append, List.mem_append] at hb
      rcases hb with (((hb | hb) | hb) | hb) | hb
      · exact hscheme b hb
      · exact hslashes b hb
      · exact hhost b hb
      · exact hcolon b hb
      · exact hport port b hb

end

/-- What is visible ASCII is read from a header as it is. -/
theorem toStr_of_visible {value : List UInt8} (h : ∀ b ∈ value, visibleAscii b = true) :
    toStr value = some value := by
  unfold toStr
  rw [if_pos (List.all_eq_true.mpr h)]

theorem ofAscii_of_visible {s : String} (h : ∀ b ∈ utf8 s, visibleAscii b = true) :
    ofAscii (utf8 s) = s :=
  ofAscii_utf8 (lt_of_toStr (toStr_of_visible h))

section

variable (parse : String → Option Url) (sha256Hex : List UInt8 → String)

/-! ## A granted code -/

/-- The value that a grant is asked for. -/
def CredentialInput.grantedOrigin? : CredentialInput → Option String
  | .grant origin _ _ _ _ _ => some origin
  | .dashboardGrant origin _ _ _ _ _ _ => some origin
  | _ => none

theorem origin_of_afterGrant {s : Credentials} {origin name : String} {bound : Option String}
    {session : Option String} {reuse : Bool} {bytes : List UInt8} {clock now e : Int}
    {code n : String}
    (h : .granted code n e bound ∈ (afterGrant s session (newPairingGrantForSession parse sha256Hex
      s.db origin name session reuse bytes clock now)).2) :
    normalizeOrigin parse origin = .ok n := by
  unfold newPairingGrantForSession at h
  cases horigin : normalizeOrigin parse origin with
  | error message => simp [horigin, afterGrant] at h
  | ok normal =>
      simp only [horigin] at h
      split at h
      · simp [afterGrant] at h
      · have hgrant : code = formatPairingCode bytes ∧ n = normal ∧ e = clock + pairingTtl ∧
            bound = session := by simpa [afterGrant] using h
        rw [hgrant.2.1]

/-- A code is granted for the normalization of the value asked for. -/
theorem origin_of_granted {s : Credentials} {i : CredentialInput} {value code n : String}
    {e : Int} {bound : Option String} (hvalue : i.grantedOrigin? = some value)
    (h : .granted code n e bound ∈ (credentialStep parse sha256Hex s i).2) :
    normalizeOrigin parse value = .ok n := by
  cases i with
  | grant origin name bytes clock now fails =>
      obtain rfl := Option.some.inj hvalue
      cases fails with
      | true => simp [credentialStep] at h
      | false => exact origin_of_afterGrant parse sha256Hex h
  | dashboardGrant origin name session bytes clock now fails =>
      obtain rfl := Option.some.inj hvalue
      cases fails with
      | true => simp [credentialStep] at h
      | false =>
          simp only [credentialStep, newDashboardPairingGrant, Bool.false_eq_true, if_false] at h
          split at h
          · exact origin_of_afterGrant parse sha256Hex h
          · simp [afterGrant] at h
  | _ => cases hvalue

/-- A dashboard grant is bound to its session. -/
theorem session_of_granted {s : Credentials} {origin name session : String} {bytes : List UInt8}
    {clock now : Int} {fails : Bool} {code n : String} {e : Int} {bound : Option String}
    (h : .granted code n e bound ∈ (credentialStep parse sha256Hex s
      (.dashboardGrant origin name session bytes clock now fails)).2) : bound = some session := by
  cases fails with
  | true => simp [credentialStep] at h
  | false =>
      simp only [credentialStep, Bool.false_eq_true, if_false] at h
      cases hgrant : newDashboardPairingGrant parse sha256Hex s.db origin name session bytes
          clock now with
      | error error => simp [hgrant, afterGrant] at h
      | ok granted =>
          rw [hgrant] at h
          have hobs : code = granted.2.code ∧ n = granted.2.origin ∧ e = granted.2.expiresAt ∧
              bound = some session := by simpa [afterGrant] using h
          exact hobs.2.2.2

/-- The row of a code that was granted and not yet redeemed or purged. -/
structure GrantedRow (db : Database) (code n : String) (e : Int) (bound : Option String)
    (r : PairingRow) : Prop where
  row : db.pairingCode? (hashSecret sha256Hex code) = some r
  origin : r.origin = n
  expiresAt : r.expiresAt = e
  session : r.instanceSession = bound
  unused : r.consumedAt = none

/-- A grant writes the row of its code. -/
theorem grantedRow_of_granted {s : Credentials} {i : CredentialInput} {code n : String} {e : Int}
    {bound : Option String} (h : .granted code n e bound ∈ (credentialStep parse sha256Hex s i).2) :
    ∃ r, GrantedRow sha256Hex (credentialStep parse sha256Hex s i).1.db code n e bound r := by
  have hmove := codeMove_of_step parse sha256Hex s i
  generalize (credentialStep parse sha256Hex s i).1 = s' at hmove ⊢
  generalize (credentialStep parse sha256Hex s i).2 = obs at hmove h
  cases hmove with
  | stay s' obs codes pending quiet =>
      -- what such a step shows is no grant
      have hnone := ((quiet _ h).2 code).1
      simp [grantOf?] at hnone
  | grant code' now r db' drawn time digest unused after =>
      obtain ⟨rfl, rfl, rfl, rfl⟩ : code = code' ∧ n = r.origin ∧ e = r.expiresAt ∧
        bound = r.instanceSession := by simpa using h
      have hrow := after (hashSecret sha256Hex code)
      rw [if_pos digest.symm] at hrow
      exact ⟨r, hrow, rfl, rfl, rfl, unused⟩
  | redeem => simp at h
  | finish attempt p db' obs waiting codes shown =>
      rcases shown with rfl | ⟨clientId, token, clock, expiresAt, rfl⟩ <;> simp at h

/-- A call that leaves a code alone: it reads no time after the expiry, and draws or redeems
    no code with the same digest. -/
structure LeavesCode (code : String) (e : Int) (i : CredentialInput) (obs : List CredentialObs) :
    Prop where
  time : ∀ t, i.reading? = some t → t ≤ e
  drawn : ∀ k, i.grantedCode? = some k → hashSecret sha256Hex k ≠ hashSecret sha256Hex code
  unredeemed : ∀ k, .redeemed k ∈ obs → hashSecret sha256Hex k ≠ hashSecret sha256Hex code

theorem GrantedRow.step {s : Credentials} {i : CredentialInput} {code n : String} {e : Int}
    {bound : Option String} {r : PairingRow} (h : GrantedRow sha256Hex s.db code n e bound r)
    (hleaves : LeavesCode sha256Hex code e i (credentialStep parse sha256Hex s i).2) :
    GrantedRow sha256Hex (credentialStep parse sha256Hex s i).1.db code n e bound r := by
  suffices hrow : (credentialStep parse sha256Hex s i).1.db.pairingCode?
      (hashSecret sha256Hex code) = some r by
    exact { h with row := hrow }
  have hmove := codeMove_of_step parse sha256Hex s i
  generalize (credentialStep parse sha256Hex s i).1 = s' at hmove ⊢
  generalize (credentialStep parse sha256Hex s i).2 = obs at hmove hleaves
  have hsame : ∀ db' : Database, db'.pairingCodes = s.db.pairingCodes →
      db'.pairingCode? (hashSecret sha256Hex code) = some r := by
    intro db' hcodes
    unfold Database.pairingCode?
    rw [hcodes]
    exact h.row
  cases hmove with
  | stay s' obs codes pending quiet => exact hsame _ codes
  | finish attempt p db' obs waiting codes shown => exact hsame _ codes
  | grant code' now r' db' drawn time digest unused after =>
      -- a grant purges the codes that are over or used; this one is neither
      have hne : hashSecret sha256Hex code ≠ r'.codeHash := by
        rw [digest]
        exact Ne.symm (hleaves.drawn code' drawn)
      have hnow : ¬ r.expiresAt < now := by
        have := hleaves.time now time
        rw [h.expiresAt]
        omega
      show db'.pairingCode? _ = _
      rw [after, if_neg hne, h.row, Option.filter_some, if_pos]
      simp [hnow, h.unused]
  | redeem attempt code' now p r' db' tried free names row unused after =>
      -- another code is marked as used
      have hne : hashSecret sha256Hex code ≠ hashSecret sha256Hex code' :=
        Ne.symm (hleaves.unredeemed code' List.mem_cons_self)
      show db'.pairingCode? _ = _
      rw [after, if_neg hne]
      exact h.row

/-- A stretch of calls that leave a code alone. -/
def AllLeaveCode (s : Credentials) (code : String) (e : Int) (is : List CredentialInput) : Prop :=
  (∀ t ∈ is.filterMap (·.reading?), t ≤ e) ∧
    (∀ k ∈ is.filterMap (·.grantedCode?), hashSecret sha256Hex k ≠ hashSecret sha256Hex code) ∧
    ∀ k, .redeemed k ∈ trace (credentialStep parse sha256Hex) s is →
      hashSecret sha256Hex k ≠ hashSecret sha256Hex code

theorem GrantedRow.run {s : Credentials} {code n : String} {e : Int} {bound : Option String}
    {r : PairingRow} (h : GrantedRow sha256Hex s.db code n e bound r) (is : List CredentialInput)
    (hleave : AllLeaveCode parse sha256Hex s code e is) :
    GrantedRow sha256Hex (run (credentialStep parse sha256Hex) s is).db code n e bound r := by
  induction is generalizing s with
  | nil => exact h
  | cons i is ih =>
      obtain ⟨htime, hdrawn, hunredeemed⟩ := hleave
      rw [trace_cons] at hunredeemed
      rw [run_cons]
      refine ih (h.step parse sha256Hex ⟨fun t ht => ?_, fun k hk => ?_, fun k hk => ?_⟩)
        ⟨fun t ht => ?_, fun k hk => ?_, fun k hk => ?_⟩
      · exact htime t (List.mem_filterMap.mpr ⟨i, List.mem_cons_self, ht⟩)
      · exact hdrawn k (List.mem_filterMap.mpr ⟨i, List.mem_cons_self, hk⟩)
      · exact hunredeemed k (List.mem_append_left _ hk)
      · exact htime t ((List.sublist_cons_self i is).filterMap _ |>.subset ht)
      · exact hdrawn k ((List.sublist_cons_self i is).filterMap _ |>.subset hk)
      · exact hunredeemed k (List.mem_append_right _ hk)

/-- A granted code is redeemed by a request from its origin, in time and from its session. -/
theorem GrantedRow.redeemed {s : Credentials} {code n : String} {e : Int} {bound : Option String}
    {r : PairingRow} (h : GrantedRow sha256Hex s.db code n e bound r)
    (hself : normalizeOrigin parse n = .ok n) {attempt : Nat} (hfree : s.pending attempt = none)
    {session : String} (hsession : bound = none ∨ bound = some session) {t : Int} (ht : t ≤ e) :
    .redeemed code ∈
      (credentialStep parse sha256Hex s (.redeem attempt code n session t false)).2 := by
  rcases redeem_step parse sha256Hex s hfree code n session t with
    ⟨origin, r', db', -, -, hstep, -⟩ | ⟨hnone, -⟩
  · rw [hstep]
    exact List.mem_cons_self
  · -- a redemption is refused only where no row meets the statement's condition
    have hkey : r.codeHash = hashSecret sha256Hex code :=
      Relational.Table.key_of_lookup (fun r : PairingRow => r.codeHash) h.row
    have hsome : s.db.redeemableCode? (hashSecret sha256Hex code) n t session = some r := by
      rw [Database.redeemableCode?, h.row, Option.filter_some, if_pos]
      have htime : t ≤ r.expiresAt := h.expiresAt.symm ▸ ht
      simp [Database.redeemable, hkey, h.origin, htime, h.unused, h.session, hsession]
    rw [hnone n hself] at hsome
    cases hsome

/-! ## The token of a code -/

/-- A redemption keeps the origin it normalized. -/
theorem pending_of_redeemed {s : Credentials} {attempt : Nat} {code n session : String} {t : Int}
    {fails : Bool} (hself : normalizeOrigin parse n = .ok n)
    (h : .redeemed code ∈
      (credentialStep parse sha256Hex s (.redeem attempt code n session t fails)).2) :
    ∃ p, (credentialStep parse sha256Hex s (.redeem attempt code n session t fails)).1.pending
      attempt = some p ∧ p.origin = n := by
  cases hfree : s.pending attempt with
  -- an attempt that is waiting redeems nothing
  | some p => simp [credentialStep, hfree] at h
  | none =>
      cases fails with
      | true => simp [credentialStep, hfree] at h
      | false =>
          rcases redeem_step parse sha256Hex s hfree code n session t with
            ⟨origin, r, db', horigin, -, hstep, -⟩ | ⟨-, hstep⟩
          · rw [hself] at horigin
            rw [hstep]
            exact ⟨_, Function.update_self _ _ _, (Except.ok.inj horigin).symm⟩
          · rw [hstep] at h
            cases h

/-- The row of a token that was set for a browser of origin `n`. -/
structure BrowserRow (n token : String) (e : Int) (r : ClientRow) : Prop where
  kind : r.kind = .browser
  origin : r.origin = some n
  digest : r.tokenHash = hashSecret sha256Hex token
  expiresAt : r.expiresAt = e
  live : r.revokedAt = none

theorem browserRow_of_issueForRecord {db db' : Database} {record : PairingRecord}
    {n secret candidateId : String} {clock now : Int} {t : IssuedToken}
    (h : issueForRecord sha256Hex db record n secret candidateId clock now = .ok (db', t)) :
    t.token = newToken secret ∧
      ∃ r, db'.client? t.clientId = some r ∧ BrowserRow sha256Hex n t.token t.expiresAt r := by
  unfold issueForRecord at h
  split at h
  · unfold issueStableBrowserToken at h
    dsimp only at h
    split at h
    · cases h
    · next hrotate =>
        cases h
        -- the stable client keeps its kind, a new one is a browser
        rcases Database.rotateOrInsertStableBrowserClient_cases hrotate with
          ⟨r, -, hkind, -, hlive, hall⟩ | ⟨-, -, -, hall⟩
        · exact ⟨rfl, _, (hall _).trans (if_pos rfl), hkind, rfl, rfl, rfl, hlive⟩
        · exact ⟨rfl, _, (hall _).trans (if_pos rfl), rfl, rfl, rfl, rfl, rfl⟩
  · unfold issueToken Database.insertClient at h
    dsimp only at h
    split at h
    · cases h
    · next hinsert =>
        cases h
        split at hinsert
        · cases hinsert
        · next clients hins =>
            cases hinsert
            have hall := (Database.client?_of_insert? hins).2
            exact ⟨rfl, _, (hall _).trans (if_pos rfl), rfl, rfl, rfl, rfl, rfl⟩

theorem browserRow_of_issued {s : Credentials} {attempt : Nat} {p : PendingToken}
    (hp : s.pending attempt = some p) {secret candidateId c token : String} {code : Option String}
    {clock now clock' e : Int} {fails : Bool}
    (h : .issued code c token clock' e ∈
      (credentialStep parse sha256Hex s (.issue attempt secret candidateId clock now fails)).2) :
    token = newToken secret ∧
      ∃ r, (credentialStep parse sha256Hex s (.issue attempt secret candidateId clock now
        fails)).1.db.client? c = some r ∧ BrowserRow sha256Hex p.origin token e r := by
  simp only [credentialStep, hp] at h ⊢
  cases fails with
  | true => cases h
  | false =>
      simp only [Bool.false_eq_true, if_false] at h ⊢
      cases hissue : issueForRecord sha256Hex s.db p.record p.origin secret candidateId clock
          now with
      | error error =>
          rw [hissue] at h
          cases h
      | ok issued =>
          obtain ⟨db', t⟩ := issued
          rw [hissue] at h
          obtain ⟨-, rfl, rfl, -, rfl⟩ : code = some p.code ∧ c = t.clientId ∧ token = t.token ∧
            clock' = clock ∧ e = t.expiresAt := by simpa [afterToken] using h
          exact browserRow_of_issueForRecord sha256Hex hissue

/-- The token of a redemption from origin `n` is set for a browser of this origin. -/
theorem browserRow_of_redeemed {s : Credentials} {attempt : Nat} {code n session : String}
    {t : Int} {fails : Bool} (hself : normalizeOrigin parse n = .ok n)
    (hredeemed : .redeemed code ∈
      (credentialStep parse sha256Hex s (.redeem attempt code n session t fails)).2)
    (mid : List CredentialInput) (hmid : ∀ j ∈ mid, j.finishes? ≠ some attempt)
    {secret candidateId c token : String} {issued : Option String} {clock now clock' e : Int}
    {fails' : Bool} :
    let before := run (credentialStep parse sha256Hex)
      (credentialStep parse sha256Hex s (.redeem attempt code n session t fails)).1 mid
    let issue := .issue attempt secret candidateId clock now fails'
    .issued issued c token clock' e ∈ (credentialStep parse sha256Hex before issue).2 →
    token = newToken secret ∧
      ∃ r, (credentialStep parse sha256Hex before issue).1.db.client? c = some r ∧
        BrowserRow sha256Hex n token e r := by
  intro before issue hissued
  obtain ⟨p, hp, hpn⟩ := pending_of_redeemed parse sha256Hex hself hredeemed
  -- the attempt waits for its token all the while
  have hwaiting := pending_run parse sha256Hex hp mid hmid
  obtain ⟨htoken, r, hrow, hbrowser⟩ := browserRow_of_issued parse sha256Hex hwaiting hissued
  rw [hpn] at hbrowser
  exact ⟨htoken, r, hrow, hbrowser⟩

/-- The row of client `c` since its token was set: it stands as it was until the client
    gets another token or is revoked; from then on no live row has the token's digest. -/
inductive TokenSince (c : String) (r : ClientRow) (tr : List CredentialObs) (db : Database) : Prop
  | current (unrotated : lastIssued c tr = none) (unrevoked : .revoked c ∉ tr)
      (row : db.client? c = some r)
  | lost (ended : lastIssued c tr ≠ none ∨ .revoked c ∈ tr)
      (dead : ∀ id r', db.client? id = some r' → r'.tokenHash = r.tokenHash → r'.revokedAt ≠ none)

/-- The digest is a unique column. -/
theorem row_of_sameDigest {db : Database} {c id : String} {r r' : ClientRow}
    (hr : db.client? c = some r) (hr' : db.client? id = some r')
    (h : r'.tokenHash = r.tokenHash) : r' = r :=
  Relational.Table.eq_of_key_eq (fun r : ClientRow => r.tokenHash)
    (fun _ _ h => Or.inr (Or.inl h)) (Database.mem_of_client? hr') (Database.mem_of_client? hr) h

theorem id_of_sameDigest {db : Database} {c id : String} {r r' : ClientRow}
    (hr : db.client? c = some r) (hr' : db.client? id = some r')
    (h : r'.tokenHash = r.tokenHash) : id = c := by
  rw [← Database.id_of_client? hr', ← Database.id_of_client? hr, row_of_sameDigest hr hr' h]

theorem client?_of_clients {db db' : Database} (h : db'.clients = db.clients) (id : String) :
    db'.client? id = db.client? id := by
  unfold Database.client?
  rw [h]

/-- The history of a client after a step that is not about it. -/
theorem lastIssued_of_quiet {obs : List CredentialObs}
    (quiet : ∀ o ∈ obs, issuedToken? o = none ∧ ∀ c, o ≠ .revoked c) (c : String)
    (tr : List CredentialObs) :
    lastIssued c (tr ++ obs) = lastIssued c tr ∧ (.revoked c ∈ tr ++ obs ↔ .revoked c ∈ tr) := by
  constructor
  · refine lastIssued_append_of_none (List.filterMap_eq_nil_iff.mpr fun o ho => ?_) tr
    have hno := (quiet o ho).1
    cases o with
    | issued => cases hno
    | _ => rfl
  · have hnot : .revoked c ∉ obs := fun hmem => (quiet _ hmem).2 c rfl
    simp [hnot]

theorem TokenSince.step {s : Credentials} {i : CredentialInput} {c : String} {r : ClientRow}
    {tr : List CredentialObs} (h : TokenSince c r tr s.db)
    (hfresh : ∀ t, i.token? = some t → hashSecret sha256Hex t ≠ r.tokenHash) :
    TokenSince c r (tr ++ (credentialStep parse sha256Hex s i).2)
      (credentialStep parse sha256Hex s i).1.db := by
  have hmove := tokenMove_of_step parse sha256Hex s i
  generalize (credentialStep parse sha256Hex s i).1.db = db' at hmove ⊢
  generalize (credentialStep parse sha256Hex s i).2 = obs at hmove ⊢
  cases hmove with
  | stay db' obs clients quiet =>
      obtain ⟨hlast, hrevoked⟩ := lastIssued_of_quiet quiet c tr
      cases h with
      | current unrotated unrevoked row =>
          exact .current (hlast.trans unrotated) (mt hrevoked.mp unrevoked)
            ((client?_of_clients clients c).trans row)
      | lost ended dead =>
          refine .lost (ended.imp (fun hne => hlast.symm ▸ hne) hrevoked.mpr) fun id r' hr' => ?_
          exact dead id r' ((client?_of_clients clients id).symm.trans hr')
  | issue r' db' code token clock drawn digest live soon before after =>
      -- the digest of the new token is another one
      have hnew : r'.tokenHash ≠ r.tokenHash := by
        rw [digest]
        exact hfresh token drawn
      by_cases hc : r'.id = c
      · -- the client gets another token
        subst hc
        refine .lost (Or.inl (by simp [lastIssued_issued])) fun id r₀ hr₀ hsame => ?_
        rw [after] at hr₀
        split at hr₀
        · cases hr₀
          exact absurd hsame hnew
        · next hne =>
            cases h with
            | current unrotated unrevoked row => exact absurd (id_of_sameDigest row hr₀ hsame) hne
            | lost ended dead => exact dead id r₀ hr₀ hsame
      · have hlast : lastIssued c (tr ++ [.issued code r'.id token clock r'.expiresAt]) =
            lastIssued c tr := lastIssued_append_of_none (by simp [issueFor?, hc]) tr
        cases h with
        | current unrotated unrevoked row =>
            refine .current (hlast.trans unrotated) (by simpa using unrevoked) ?_
            rw [after, if_neg (Ne.symm hc)]
            exact row
        | lost ended dead =>
            refine .lost (ended.imp (fun hne => hlast.symm ▸ hne) (by simp))
              fun id r₀ hr₀ hsame => ?_
            rw [after] at hr₀
            split at hr₀
            · cases hr₀
              exact absurd hsame hnew
            · exact dead id r₀ hr₀ hsame
  | revoke r' now db' row' after =>
      have hlast : lastIssued c (tr ++ [.revoked r'.id]) = lastIssued c tr :=
        lastIssued_append_of_none (by simp [issueFor?]) tr
      cases h with
      | lost ended dead =>
          -- a revocation brings no row to life
          refine .lost (ended.imp (fun hne => hlast.symm ▸ hne) (by simp +contextual))
            fun id r₀ hr₀ hsame => ?_
          rw [after] at hr₀
          split at hr₀
          · cases hr₀
            simp
          · exact dead id r₀ hr₀ hsame
      | current unrotated unrevoked row =>
          by_cases hc : r'.id = c
          · -- the client itself is revoked, and its row with it
            subst hc
            refine .lost (Or.inr (by simp)) fun id r₀ hr₀ hsame => ?_
            rw [after] at hr₀
            split at hr₀
            · cases hr₀
              simp
            · next hne => exact absurd (id_of_sameDigest row hr₀ hsame) hne
          · refine .current (hlast.trans unrotated) (by simp [unrevoked, Ne.symm hc]) ?_
            rw [after, if_neg (Ne.symm hc)]
            exact row

/-- The draws of a stretch give no token with this digest. -/
def FreshDraws (digest : String) (is : List CredentialInput) : Prop :=
  ∀ t ∈ is.filterMap (·.token?), hashSecret sha256Hex t ≠ digest

theorem tokenSince_run {s : Credentials} {c : String} {r : ClientRow} {tr : List CredentialObs}
    (h : TokenSince c r tr s.db) (is : List CredentialInput)
    (hfresh : FreshDraws sha256Hex r.tokenHash is) :
    TokenSince c r (tr ++ trace (credentialStep parse sha256Hex) s is)
      (run (credentialStep parse sha256Hex) s is).db := by
  induction is generalizing s tr with
  | nil => simpa using h
  | cons i is ih =>
      rw [run_cons, trace_cons, ← List.append_assoc]
      refine ih (h.step parse sha256Hex fun t ht => ?_) fun t ht => ?_
      · exact hfresh t (List.mem_filterMap.mpr ⟨i, List.mem_cons_self, ht⟩)
      · exact hfresh t ((List.sublist_cons_self i is).filterMap _ |>.subset ht)

/-- A step that neither sets a token for a client nor revokes it leaves its row. -/
theorem client?_of_step {s : Credentials} {i : CredentialInput} {c : String} {r : ClientRow}
    (hrow : s.db.client? c = some r)
    (hunrotated : lastIssued c (credentialStep parse sha256Hex s i).2 = none)
    (hunrevoked : .revoked c ∉ (credentialStep parse sha256Hex s i).2) :
    (credentialStep parse sha256Hex s i).1.db.client? c = some r := by
  have hmove := tokenMove_of_step parse sha256Hex s i
  generalize (credentialStep parse sha256Hex s i).1.db = db' at hmove ⊢
  generalize (credentialStep parse sha256Hex s i).2 = obs at hmove hunrotated hunrevoked
  cases hmove with
  | stay db' obs clients quiet => exact (client?_of_clients clients c).trans hrow
  | issue r' db' code token clock drawn digest live soon before after =>
      have hc : c ≠ r'.id := by
        rintro rfl
        rw [← List.nil_append [_], lastIssued_issued] at hunrotated
        cases hunrotated
      rw [after, if_neg hc]
      exact hrow
  | revoke r' now db' row' after =>
      have hc : c ≠ r'.id := by
        rintro rfl
        exact hunrevoked List.mem_cons_self
      rw [after, if_neg hc]
      exact hrow

theorem client?_of_run {s : Credentials} {c : String} {r : ClientRow}
    (hrow : s.db.client? c = some r) (is : List CredentialInput)
    (hunrotated : lastIssued c (trace (credentialStep parse sha256Hex) s is) = none)
    (hunrevoked : .revoked c ∉ trace (credentialStep parse sha256Hex) s is) :
    (run (credentialStep parse sha256Hex) s is).db.client? c = some r := by
  induction is generalizing s with
  | nil => exact hrow
  | cons i is ih =>
      rw [trace_cons, lastIssued_append, Option.or_eq_none_iff] at hunrotated
      rw [trace_cons, List.mem_append, not_or] at hunrevoked
      rw [run_cons]
      exact ih (client?_of_step parse sha256Hex hrow hunrotated.2 hunrevoked.1) hunrotated.1
        hunrevoked.2

/-! ## Requests with the token -/

/-- The request carries the token. -/
def Carries (headers : HeaderMap) (token : String) : Prop :=
  headers.get "authorization" = some (utf8 "Bearer " ++ utf8 token)

/-- The client of an accepted request is the live one with the digest of the token. -/
theorem row_of_authenticate {db : Database} {headers : HeaderMap} {token : String}
    (hcarries : Carries headers token) {time : Int} {client : AuthenticatedClient}
    (h : authenticate sha256Hex db headers time = .ok client) :
    ∃ r, db.client? r.id = some r ∧ r.tokenHash = hashSecret sha256Hex token ∧
      r.revokedAt = none ∧ time ≤ r.expiresAt ∧ clientFromRow r = client ∧
      allowsOrigin client headers = true := by
  obtain ⟨value, bearer, hvalue, -, hbearer, hfound, hallows⟩ :=
    (authenticate_eq_ok sha256Hex).mp h
  -- what follows the scheme in the header is the token
  obtain ⟨rfl, -⟩ := bearerToken_eq_some.mp hbearer
  have heq := Option.some.inj (hvalue.symm.trans hcarries)
  obtain rfl := List.append_cancel_left heq
  obtain ⟨r, hmem, hhash, htime, hlive, hclient⟩ :=
    Database.findClientByTokenHash_eq_some.mp hfound
  exact ⟨r, Database.client?_of_mem hmem, hhash, hlive, htime, hclient, hallows⟩

/-- A request whose origin is allowed opens the row of its token, in time. -/
theorem BrowserRow.authenticated {db : Database} {c n secret : String} {e : Int} {r : ClientRow}
    (h : BrowserRow sha256Hex n (newToken secret) e r) (hrow : db.client? c = some r)
    (hsecret : ∀ b ∈ utf8 secret, visibleAscii b = true)
    {headers : HeaderMap} (hcarries : Carries headers (newToken secret))
    (hallows : allowsOrigin (clientFromRow r) headers = true) {time : Int} (htime : time ≤ e) :
    ∃ client, authenticate sha256Hex db headers time = .ok client ∧ client.id = c := by
  have hvisible : ∀ b ∈ utf8 "Bearer " ++ utf8 (newToken secret), visibleAscii b = true := by
    have hbearer : ∀ b ∈ utf8 "Bearer ", visibleAscii b = true := visible_of_all (by decide)
    have hstart : ∀ b ∈ utf8 tokenPrefix, visibleAscii b = true := visible_of_all (by decide)
    intro b hb
    rw [newToken, utf8_append] at hb
    rcases List.mem_append.mp hb with hb | hb
    · exact hbearer b hb
    · exact (List.mem_append.mp hb).elim (hstart b) (hsecret b)
  refine ⟨clientFromRow r, (authenticate_eq_ok sha256Hex).mpr
    ⟨_, utf8 (newToken secret), hcarries, toStr_of_visible hvisible,
      bearerToken_eq_some.mpr ⟨rfl, ?_⟩, ?_, hallows⟩, Database.id_of_client? hrow⟩
  · rw [newToken, utf8_append]
    exact List.prefix_append _ _
  · exact Database.findClientByTokenHash_eq_some.mpr
      ⟨r, Database.mem_of_client? hrow, h.digest, h.expiresAt.symm ▸ htime, h.live, rfl⟩

/-- The browser's origin is allowed. -/
theorem BrowserRow.allows {n token : String} {e : Int} {r : ClientRow}
    (h : BrowserRow sha256Hex n token e r) (hn : ∀ b ∈ utf8 n, visibleAscii b = true)
    {headers : HeaderMap} (horigin : headers.get "origin" = some (utf8 n)) :
    allowsOrigin (clientFromRow r) headers = true := by
  simp [allowsOrigin, clientFromRow, h.kind, h.origin, horigin, toStr_of_visible hn]

/-- Another origin does not open it. -/
theorem BrowserRow.refused {db : Database} {c n token : String} {e : Int} {r : ClientRow}
    (h : BrowserRow sha256Hex n token e r) (hrow : db.client? c = some r) {headers : HeaderMap}
    (hcarries : Carries headers token) {value : List UInt8}
    (horigin : headers.get "origin" = some value) (hvisible : ∀ b ∈ value, visibleAscii b = true)
    (hne : value ≠ utf8 n) (time : Int) (client : AuthenticatedClient) :
    authenticate sha256Hex db headers time ≠ .ok client := by
  intro hok
  obtain ⟨r', hrow', hhash, -, -, rfl, hallows⟩ := row_of_authenticate sha256Hex hcarries hok
  -- no other row has the token's digest
  obtain rfl : r' = r := row_of_sameDigest hrow hrow' (hhash.trans h.digest.symm)
  simp only [allowsOrigin, clientFromRow, h.kind, h.origin, horigin, Option.bind_some,
    toStr_of_visible hvisible, decide_eq_true_eq] at hallows
  exact hne hallows.symm

/-! ## The four places -/

/-- What the token of a code does in a later database, after the history `tr`: under its
    origin it is accepted until it expires, is rotated or its client is revoked, and from
    then on under none; and it is never accepted under another one. -/
structure TokenBound (n c token : String) (e : Int) (tr : List CredentialObs) (db : Database)
    (fresh : Prop) : Prop where
  accepted : lastIssued c tr = none → .revoked c ∉ tr → ∀ headers time, Carries headers token →
    headers.get "origin" = some (utf8 n) → time ≤ e →
      ∃ client, authenticate sha256Hex db headers time = .ok client ∧ client.id = c
  lost : fresh → ∀ headers time client, Carries headers token →
    authenticate sha256Hex db headers time = .ok client →
      lastIssued c tr = none ∧ .revoked c ∉ tr ∧ time ≤ e
  refused : fresh → ∀ headers value time client, Carries headers token →
    headers.get "origin" = some value → (∀ b ∈ value, visibleAscii b = true) → value ≠ utf8 n →
      authenticate sha256Hex db headers time ≠ .ok client

theorem tokenBound_run {s : Credentials} {c n secret : String} {e : Int} {r : ClientRow}
    (hrow : s.db.client? c = some r) (h : BrowserRow sha256Hex n (newToken secret) e r)
    (hn : ∀ b ∈ utf8 n, visibleAscii b = true) (hsecret : ∀ b ∈ utf8 secret, visibleAscii b = true)
    (more : List CredentialInput) :
    TokenBound sha256Hex n c (newToken secret) e (trace (credentialStep parse sha256Hex) s more)
      (run (credentialStep parse sha256Hex) s more).db
      (FreshDraws sha256Hex (hashSecret sha256Hex (newToken secret)) more) := by
  -- with fresh draws, the row is followed through the run
  have hsince : FreshDraws sha256Hex (hashSecret sha256Hex (newToken secret)) more →
      TokenSince c r (trace (credentialStep parse sha256Hex) s more)
        (run (credentialStep parse sha256Hex) s more).db := by
    intro hfresh
    rw [← h.digest] at hfresh
    have hstart : TokenSince c r [] s.db := .current rfl (by simp) hrow
    exact tokenSince_run parse sha256Hex hstart more hfresh
  constructor
  · intro hunrotated hunrevoked headers time hcarries horigin htime
    have hkept := client?_of_run parse sha256Hex hrow more hunrotated hunrevoked
    exact h.authenticated sha256Hex hkept hsecret hcarries (h.allows sha256Hex hn horigin) htime
  · intro hfresh headers time client hcarries hok
    obtain ⟨r', hrow', hhash, hlive, htime, -, -⟩ := row_of_authenticate sha256Hex hcarries hok
    have hsame := hhash.trans h.digest.symm
    cases hsince hfresh with
    | current unrotated unrevoked row =>
        obtain rfl : r' = r := row_of_sameDigest row hrow' hsame
        exact ⟨unrotated, unrevoked, h.expiresAt ▸ htime⟩
    | lost ended dead => exact absurd hlive (dead _ r' hrow' hsame)
  · intro hfresh headers value time client hcarries horigin hvisible hne
    cases hsince hfresh with
    | current unrotated unrevoked row =>
        exact h.refused sha256Hex row hcarries horigin hvisible hne time client
    | lost ended dead =>
        intro hok
        obtain ⟨r', hrow', hhash, hlive, -⟩ := row_of_authenticate sha256Hex hcarries hok
        exact dead _ r' hrow' (hhash.trans h.digest.symm) hlive

end

/-! ### The middleware -/

namespace Api

variable {parse : String → Option Url}

/-- The headers of a preflight response leave the origin. -/
theorem allowPreflight_origin (headers : HeaderMap) (response : HttpResponse) :
    (allowPreflight headers response).header "access-control-allow-origin" =
      response.header "access-control-allow-origin" := by
  unfold allowPreflight
  dsimp only
  split
  · rw [HttpResponse.header_insert_of_ne _ _ (by decide),
      HttpResponse.header_insert_of_ne _ _ (by decide),
      HttpResponse.header_insert_of_ne _ _ (by decide),
      HttpResponse.header_insert_of_ne _ _ (by decide)]
  · rw [HttpResponse.header_insert_of_ne _ _ (by decide),
      HttpResponse.header_insert_of_ne _ _ (by decide),
      HttpResponse.header_insert_of_ne _ _ (by decide)]

/-- The origin of a request is what `pair` and the middleware read of it. -/
theorem requestOrigin_of_visible {headers : HeaderMap} {n : String}
    (horigin : headers.get "origin" = some (utf8 n))
    (hn : ∀ b ∈ utf8 n, visibleAscii b = true) : requestOrigin headers = .ok n := by
  simp [requestOrigin, horigin, toStr_of_visible hn, ofAscii_of_visible hn]

theorem corsOrigin_of_normal {headers : HeaderMap} {n : String}
    (horigin : headers.get "origin" = some (utf8 n)) (hn : ∀ b ∈ utf8 n, visibleAscii b = true)
    (hself : normalizeOrigin parse n = .ok n) : corsOrigin parse headers = some n := by
  simp [corsOrigin, horigin, toStr_of_visible hn, ofAscii_of_visible hn, hself, Except.toOption]

theorem decorate_origin {headerText : String → Bool} {request : HttpRequest} {n : String}
    (hpath : isApiPath request.path = true) (hcors : corsOrigin parse request.headers = some n)
    (htext : headerText n = true) (response : HttpResponse) :
    (decorate parse headerText request response).header "access-control-allow-origin" =
      some n := by
  have hallow : (allowOrigin headerText n (applyCommonHeaders response)).header
      "access-control-allow-origin" = some n := by
    unfold allowOrigin
    rw [if_pos htext, HttpResponse.header_insert_of_ne _ _ (by decide),
      HttpResponse.header_insert_self]
  unfold decorate
  simp only [hpath, hcors, if_true]
  split
  · rw [allowPreflight_origin]
    exact hallow
  · exact hallow

end Api

section

variable (parse : String → Option Url) (sha256Hex : List UInt8 → String)
  (validatePdf : List UInt8 → String → Except String PdfReport) (headerText : String → Bool)
  (hmac : List UInt8 → List UInt8 → String) (decodeSegment : String → Option String)
  (config : AppConfig) (instanceSession : String)

/-- The four places agree on the origin `n` of `value`:
    * `n` is its own normalization;
    * a code granted for `value` can be redeemed by every request from `n`, in time and from
      its session, until it is redeemed;
    * the token issued for it is bound to `n`;
    * every response to a request from `n` below `/v1/` allows `n`, unless the checks of
      `Host` and of WebSockets stopped the request. -/
structure OriginAgrees (value n : String) : Prop where
  normal : normalizeOrigin parse n = .ok n
  redeemable : ∀ s i code o e bound, i.grantedOrigin? = some value →
    .granted code o e bound ∈ (credentialStep parse sha256Hex s i).2 →
    o = n ∧ ∀ mid, AllLeaveCode parse sha256Hex (credentialStep parse sha256Hex s i).1 code e mid →
      let later := run (credentialStep parse sha256Hex) (credentialStep parse sha256Hex s i).1 mid
      ∀ headers : HeaderMap, headers.get "origin" = some (utf8 n) →
        ∃ origin, Api.requestOrigin headers = .ok origin ∧
          ∀ attempt session t, later.pending attempt = none →
            (bound = none ∨ bound = some session) → t ≤ e →
            .redeemed code ∈ (credentialStep parse sha256Hex later
              (.redeem attempt code origin session t false)).2
  bound : ∀ s headers origin attempt code session t fails,
    headers.get "origin" = some (utf8 n) → Api.requestOrigin headers = .ok origin →
    let redeem := .redeem attempt code origin session t fails
    .redeemed code ∈ (credentialStep parse sha256Hex s redeem).2 →
    ∀ mid, (∀ j ∈ mid, j.finishes? ≠ some attempt) →
    ∀ secret candidateId clock now fails' c token clock' e,
      (∀ b ∈ utf8 secret, visibleAscii b = true) →
      let before := run (credentialStep parse sha256Hex)
        (credentialStep parse sha256Hex s redeem).1 mid
      let issue := .issue attempt secret candidateId clock now fails'
      .issued (some code) c token clock' e ∈ (credentialStep parse sha256Hex before issue).2 →
      ∀ more,
        let after := (credentialStep parse sha256Hex before issue).1
        TokenBound sha256Hex n c token e (trace (credentialStep parse sha256Hex) after more)
          (run (credentialStep parse sha256Hex) after more).db
          (FreshDraws sha256Hex (hashSecret sha256Hex token) more)
  allowed : ∀ (state : Api.AgentState) (request : Api.HttpRequest) (o : Api.RequestOutside),
    request.headers.get "origin" = some (utf8 n) → Api.isApiPath request.path = true →
    Api.validHost request.headers config.port = true →
    Api.upgradesToWebsocket request.headers = false →
    (Api.serve parse sha256Hex validatePdf headerText hmac decodeSegment config instanceSession
      state request o).response.header "access-control-allow-origin" = some n

end

/-- **Origin handling agrees on every path**, for every text that `normalize_origin` accepts,
    where `HeaderValue::from_str` takes what is visible ASCII and the random part of a token
    is. -/
theorem origins_agree (parse : String → Option Url) (sha256Hex : List UInt8 → String)
    (validatePdf : List UInt8 → String → Except String PdfReport) (headerText : String → Bool)
    (hmac : List UInt8 → List UInt8 → String) (decodeSegment : String → Option String)
    (config : AppConfig) (instanceSession : String) (hlaws : UrlLaws parse)
    (htext : ∀ s, (∀ b ∈ utf8 s, visibleAscii b = true) → headerText s = true)
    (value n : String) (hvalue : normalizeOrigin parse value = .ok n) :
    OriginAgrees parse sha256Hex validatePdf headerText hmac decodeSegment config instanceSession
      value n := by
  have hself := normalizeOrigin_self hlaws hvalue
  have hn := visible_of_normalizeOrigin hlaws hvalue
  refine ⟨hself, ?_, ?_, ?_⟩
  · -- a grant: its row stands until the redemption
    intro s i code o e bound hgrant hgranted
    have ho : normalizeOrigin parse value = .ok o :=
      origin_of_granted parse sha256Hex hgrant hgranted
    obtain rfl : n = o := Except.ok.inj (hvalue.symm.trans ho)
    refine ⟨rfl, ?_⟩
    intro mid hmid later headers horigin
    obtain ⟨r, hrow⟩ := grantedRow_of_granted parse sha256Hex hgranted
    have hkept := hrow.run parse sha256Hex mid hmid
    exact ⟨n, Api.requestOrigin_of_visible horigin hn, fun attempt session t hfree hsession ht =>
      hkept.redeemed parse sha256Hex hself hfree hsession ht⟩
  · -- a token: its row was written for the origin that the redemption has normalized
    intro s headers origin attempt code session t fails horigin hrequest redeem hredeemed mid hmid
      secret candidateId clock now fails' c token clock' e hsecret before issue hissued more after
    obtain rfl : n = origin :=
      Except.ok.inj ((Api.requestOrigin_of_visible horigin hn).symm.trans hrequest)
    obtain ⟨rfl, r, hrow, hbrowser⟩ :=
      browserRow_of_redeemed parse sha256Hex hself hredeemed mid hmid hissued
    exact tokenBound_run parse sha256Hex hrow hbrowser hn hsecret more
  · -- a response, whatever the handler has made of the request
    intro state request o horigin hpath hhost hwebsocket
    have hcors := Api.corsOrigin_of_normal horigin hn hself
    unfold Api.serve
    rw [if_neg (by simp [hhost]), if_neg (by simp [hwebsocket])]
    exact Api.decorate_origin hpath hcors (htext n hn) _

/-! ## A spelling of an origin -/

/-- What the `url` crate makes of another spelling of the first origin, too. -/
def spelledParse (value : String) : Option Url :=
  if value = "HTTPS://Example.com:443/" then
    some ⟨"https", "", none, some "example.com", none, "/", none, none⟩
  else exampleParse value

theorem spelledParse_laws : UrlLaws spelledParse := by
  have hcases : ∀ value u, spelledParse value = some u →
      u = ⟨"https", "", none, some "example.com", none, "/", none, none⟩ ∨
        u = ⟨"http", "", none, some "localhost", some 5173, "/", none, none⟩ := by
    intro value u h
    unfold spelledParse exampleParse at h
    split at h
    · exact Or.inl (Option.some.inj h).symm
    · split at h
      · exact Or.inl (Option.some.inj h).symm
      · split at h
        · exact Or.inr (Option.some.inj h).symm
        · cases h
  constructor
  · intro value u host h _ hhost
    rcases hcases value u h with rfl | rfl
    · obtain rfl := Option.some.inj hhost
      exact visible_of_all (by decide)
    · obtain rfl := Option.some.inj hhost
      exact visible_of_all (by decide)
  · intro value u host h _ hhost
    rcases hcases value u h with rfl | rfl
    · obtain rfl := Option.some.inj hhost
      decide
    · obtain rfl := Option.some.inj hhost
      decide

theorem origins_agree_of_spelling :
    OriginAgrees spelledParse exampleDigests (fun _ _ => .error "not a PDF")
      (fun s => (utf8 s).all visibleAscii) (fun _ _ => "") some exampleConfig exampleSession
      "HTTPS://Example.com:443/" "https://example.com" :=
  origins_agree spelledParse exampleDigests (fun _ _ => .error "not a PDF")
    (fun s => (utf8 s).all visibleAscii) (fun _ _ => "") some exampleConfig exampleSession
    spelledParse_laws (fun _ h => List.all_eq_true.mpr h) "HTTPS://Example.com:443/"
    "https://example.com" (by decide)

end PrintLatch
