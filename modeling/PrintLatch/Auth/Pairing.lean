/-
  PrintLatch.Auth.Pairing

  The life of a pairing code.

  A code's row is written by the grant that creates it, by the redemption that
  uses it up and by the purge in every later grant.  `CodeKept` says what the row
  is for each history of the code, and `TokenKept` the same for the redemptions
  under way; both go from one step to the whole run through `CodeMove`, the one
  inversion lemma for transactions on codes.

  The purge and the redemption compare the expiry with different clock readings.
  A code that was purged could still be redeemed by a reading before the purge's,
  so what a redemption returns follows the history only when readings do not go
  backwards.
-/

import PrintLatch.Auth.Credentials
import Mathlib.Data.Set.Function

namespace PrintLatch

open Reactive

/-! ## Histories -/

/-- The code a call may create. -/
def CredentialInput.grantedCode? : CredentialInput → Option String
  | .grant _ _ bytes _ _ _ => some (formatPairingCode bytes)
  | .dashboardGrant _ _ _ bytes _ _ _ => some (formatPairingCode bytes)
  | _ => none

/-- The code a call is about. -/
def CredentialInput.code? : CredentialInput → Option String
  | .redeem _ code _ _ _ _ => some code
  | i => i.grantedCode?

/-- The time that a purge or a redemption compares with the expiries. -/
def CredentialInput.reading? : CredentialInput → Option Int
  | .grant _ _ _ _ now _ => some now
  | .dashboardGrant _ _ _ _ _ now _ => some now
  | .redeem _ _ _ _ now _ => some now
  | _ => none

/-- What a grant of `k` gave it: origin, expiry and session. -/
def grantOf? (k : String) : CredentialObs → Option (String × Int × Option String)
  | .granted code origin expiresAt session =>
      if code = k then some (origin, expiresAt, session) else none
  | _ => none

/-- The grants of `k`. -/
def grantsOf (k : String) (tr : List CredentialObs) : List (String × Int × Option String) :=
  tr.filterMap (grantOf? k)

/-- How often `k` was redeemed. -/
def redemptions (k : String) (tr : List CredentialObs) : Nat := tr.count (.redeemed k)

/-- The code that a token was issued for. -/
def tokenFor? : CredentialObs → Option String
  | .issued code _ _ _ _ => code
  | _ => none

/-- How many tokens were issued for `k`. -/
def tokensFor (k : String) (tr : List CredentialObs) : Nat := (tr.filterMap tokenFor?).count k

/-- Nothing that happened is about a code. -/
def Quiet (obs : List CredentialObs) : Prop :=
  ∀ o ∈ obs, tokenFor? o = none ∧ ∀ k, grantOf? k o = none ∧ o ≠ .redeemed k

theorem grantsOf_append (k : String) (tr obs : List CredentialObs) :
    grantsOf k (tr ++ obs) = grantsOf k tr ++ grantsOf k obs := List.filterMap_append ..

theorem redemptions_append (k : String) (tr obs : List CredentialObs) :
    redemptions k (tr ++ obs) = redemptions k tr + redemptions k obs := List.count_append ..

theorem tokensFor_append (k : String) (tr obs : List CredentialObs) :
    tokensFor k (tr ++ obs) = tokensFor k tr + tokensFor k obs := by
  simp [tokensFor]

/-! One observation. -/

@[simp] theorem grantsOf_granted (k code origin : String) (e : Int) (bound : Option String) :
    grantsOf k [.granted code origin e bound] = if code = k then [(origin, e, bound)] else [] := by
  by_cases h : code = k <;> simp [grantsOf, grantOf?, h]

@[simp] theorem grantsOf_redeemed (k code : String) : grantsOf k [.redeemed code] = [] := rfl

@[simp] theorem redemptions_granted (k code origin : String) (e : Int) (bound : Option String) :
    redemptions k [.granted code origin e bound] = 0 := by
  simp [redemptions]

@[simp] theorem redemptions_redeemed (k code : String) :
    redemptions k [.redeemed code] = if code = k then 1 else 0 := by
  by_cases h : code = k <;> simp [redemptions, h]

@[simp] theorem redemptions_issued (k : String) (code : Option String) (clientId token : String)
    (clock e : Int) : redemptions k [.issued code clientId token clock e] = 0 := by
  simp [redemptions]

@[simp] theorem tokensFor_granted (k code origin : String) (e : Int) (bound : Option String) :
    tokensFor k [.granted code origin e bound] = 0 := rfl

@[simp] theorem tokensFor_redeemed (k code : String) : tokensFor k [.redeemed code] = 0 := rfl

@[simp] theorem tokensFor_issued (k code clientId token : String) (clock e : Int) :
    tokensFor k [.issued (some code) clientId token clock e] = if code = k then 1 else 0 := by
  by_cases h : code = k <;> simp [tokensFor, tokenFor?, h]

theorem mem_grantsOf {k origin : String} {e : Int} {bound : Option String}
    {tr : List CredentialObs} :
    (origin, e, bound) ∈ grantsOf k tr ↔ .granted k origin e bound ∈ tr := by
  unfold grantsOf
  rw [List.mem_filterMap]
  constructor
  · rintro ⟨o, ho, hgrant⟩
    cases o with
    | granted code origin' e' bound' =>
        by_cases hcode : code = k
        · subst hcode
          obtain ⟨rfl, rfl, rfl⟩ : origin' = origin ∧ e' = e ∧ bound' = bound := by
            simpa [grantOf?] using hgrant
          exact ho
        · simp [grantOf?, hcode] at hgrant
    | _ => cases hgrant
  · intro h
    exact ⟨_, h, by simp [grantOf?]⟩

theorem redemptions_eq_zero {k : String} {tr : List CredentialObs} :
    redemptions k tr = 0 ↔ .redeemed k ∉ tr := List.count_eq_zero

/-- What is quiet leaves the history of every code. -/
theorem Quiet.unchanged {obs : List CredentialObs} (h : Quiet obs) (k : String) :
    grantsOf k obs = [] ∧ redemptions k obs = 0 ∧ tokensFor k obs = 0 := by
  refine ⟨List.filterMap_eq_nil_iff.mpr fun o ho => ((h o ho).2 k).1,
    redemptions_eq_zero.mpr fun hmem => ((h _ hmem).2 k).2 rfl, ?_⟩
  have hnone : obs.filterMap tokenFor? = [] :=
    List.filterMap_eq_nil_iff.mpr fun o ho => (h o ho).1
  simp [tokensFor, hnone]

/-! ## The inversion lemma -/

section

variable (parse : String → Option Url) (sha256Hex : List UInt8 → String)

/-- Everything a transaction can do to the pairing codes and to the redemptions
    under way. -/
inductive CodeMove (s : Credentials) (i : CredentialInput) :
    Credentials → List CredentialObs → Prop
  | stay (s' : Credentials) (obs : List CredentialObs)
      (codes : s'.db.pairingCodes = s.db.pairingCodes) (pending : s'.pending = s.pending)
      (quiet : Quiet obs) : CodeMove s i s' obs
  | grant (code : String) (now : Int) (r : PairingRow) (db' : Database)
      (drawn : i.grantedCode? = some code) (time : i.reading? = some now)
      (digest : r.codeHash = hashSecret sha256Hex code) (unused : r.consumedAt = none)
      (after : ∀ hash, db'.pairingCode? hash = if hash = r.codeHash then some r else
        (s.db.pairingCode? hash).filter fun r => !(r.expiresAt < now ∨ r.consumedAt.isSome)) :
      CodeMove s i { s with db := db' } [.granted code r.origin r.expiresAt r.instanceSession]
  | redeem (attempt : Nat) (code : String) (now : Int) (p : PendingToken) (r : PairingRow)
      (db' : Database) (tried : i.code? = some code) (free : s.pending attempt = none)
      (names : p.code = code) (row : s.db.pairingCode? (hashSecret sha256Hex code) = some r)
      (unused : r.consumedAt = none)
      (after : ∀ hash, db'.pairingCode? hash = if hash = hashSecret sha256Hex code then
        some { r with consumedAt := some now } else s.db.pairingCode? hash) :
      CodeMove s i ⟨db', Function.update s.pending attempt (some p)⟩ [.redeemed code]
  | finish (attempt : Nat) (p : PendingToken) (db' : Database) (obs : List CredentialObs)
      (waiting : s.pending attempt = some p) (codes : db'.pairingCodes = s.db.pairingCodes)
      (shown : obs = [] ∨ ∃ clientId token clock expiresAt,
        obs = [.issued (some p.code) clientId token clock expiresAt]) :
      CodeMove s i ⟨db', Function.update s.pending attempt none⟩ obs

theorem CodeMove.idle (s : Credentials) (i : CredentialInput) : CodeMove sha256Hex s i s [] :=
  .stay s [] rfl rfl (by simp [Quiet])

/-- A grant creates its code and purges others. -/
theorem codeMove_afterGrant {s : Credentials} {i : CredentialInput} {origin name : String}
    {session : Option String} {reuse : Bool} {bytes : List UInt8} {clock now : Int}
    (hdrawn : i.grantedCode? = some (formatPairingCode bytes)) (htime : i.reading? = some now) :
    CodeMove sha256Hex s i
      (afterGrant s session (newPairingGrantForSession parse sha256Hex s.db origin name session
        reuse bytes clock now)).1
      (afterGrant s session (newPairingGrantForSession parse sha256Hex s.db origin name session
        reuse bytes clock now)).2 := by
  unfold newPairingGrantForSession
  cases normalizeOrigin parse origin with
  | error message => exact .idle sha256Hex s i
  | ok origin =>
      dsimp only
      cases hins : s.db.insertPairingCode (hashSecret sha256Hex (formatPairingCode bytes)) origin
          name (clock + pairingTtl) session reuse now with
      | error error => exact .idle sha256Hex s i
      | ok db' =>
          exact .grant (formatPairingCode bytes) now
            ⟨hashSecret sha256Hex (formatPairingCode bytes), origin, name, clock + pairingTtl, none,
              session, reuse⟩
            db' hdrawn htime rfl rfl (Database.insertPairingCode_ok hins)

theorem issueToken_onlyClients {db db' : Database} {name secret id : String} {kind : ClientKind}
    {origin : Option String} {days clock now : Int} {t : IssuedToken}
    (h : issueToken sha256Hex db name kind origin days secret id clock now = .ok (db', t)) :
    db.OnlyClients db' := by
  unfold issueToken at h
  dsimp only at h
  split at h
  · cases h
  · next hins =>
      cases h
      exact Database.insertClient_onlyClients hins

theorem issueForRecord_onlyClients {db db' : Database} {record : PairingRecord}
    {origin secret candidateId : String} {clock now : Int} {t : IssuedToken}
    (h : issueForRecord sha256Hex db record origin secret candidateId clock now = .ok (db', t)) :
    db.OnlyClients db' := by
  unfold issueForRecord at h
  split at h
  · unfold issueStableBrowserToken at h
    dsimp only at h
    split at h
    · cases h
    · next hrotate =>
        cases h
        exact Database.rotateOrInsertStableBrowserClient_onlyClients hrotate
  · exact issueToken_onlyClients sha256Hex h

theorem issueLocalToken_onlyClients {db db' : Database} {name secret id : String}
    {days clock now : Int} {t : IssuedToken}
    (h : issueLocalToken sha256Hex db name days secret id clock now = .ok (db', t)) :
    db.OnlyClients db' := by
  unfold issueLocalToken at h
  split at h
  · exact issueToken_onlyClients sha256Hex h
  · cases h

theorem rotateToken_onlyClients {db db' : Database} {clientId secret : String}
    {days clock : Int} {t : IssuedToken}
    (h : rotateToken sha256Hex db clientId days secret clock = .ok (db', t)) :
    db.OnlyClients db' := by
  unfold rotateToken at h
  split at h
  · split at h
    · cases h
    · dsimp only at h
      split at h
      · cases h
      · next hrotate =>
          cases h
          exact Database.rotateClientToken_onlyClients hrotate
  · cases h

/-- Setting a token for no code is quiet. -/
theorem codeMove_afterToken {s : Credentials} (i : CredentialInput) (clock : Int)
    {result : Except DbError (Database × IssuedToken)}
    (h : ∀ db t, result = .ok (db, t) → db.pairingCodes = s.db.pairingCodes) :
    CodeMove sha256Hex s i (afterToken s none clock result).1
      (afterToken s none clock result).2 := by
  cases result with
  | error error => exact .idle sha256Hex s i
  | ok issued =>
      obtain ⟨db, t⟩ := issued
      exact .stay _ _ (h db t rfl) rfl (by simp [afterToken, Quiet, tokenFor?, grantOf?])

/-- Setting the token of a redemption ends it, and so does failing to. -/
theorem codeMove_finish {s : Credentials} (i : CredentialInput) {attempt : Nat}
    {p : PendingToken} (hp : s.pending attempt = some p) (clock : Int)
    {result : Except DbError (Database × IssuedToken)}
    (h : ∀ db t, result = .ok (db, t) → db.pairingCodes = s.db.pairingCodes) :
    CodeMove sha256Hex s i
      (afterToken ⟨s.db, Function.update s.pending attempt none⟩ (some p.code) clock result).1
      (afterToken ⟨s.db, Function.update s.pending attempt none⟩ (some p.code) clock result).2 := by
  cases result with
  | error error => exact .finish attempt p s.db [] hp rfl (Or.inl rfl)
  | ok issued =>
      obtain ⟨db, t⟩ := issued
      exact .finish attempt p db _ hp (h db t rfl)
        (Or.inr ⟨t.clientId, t.token, clock, t.expiresAt, rfl⟩)

/-! ## Redemption -/

/-- What a redemption does to a free attempt: it uses up the row it selects, or
    nothing happens. -/
theorem redeem_step (s : Credentials) {attempt : Nat} (hfree : s.pending attempt = none)
    (code requestOrigin session : String) (now : Int) :
    (∃ origin r db', normalizeOrigin parse requestOrigin = .ok origin ∧
      s.db.redeemableCode? (hashSecret sha256Hex code) origin now session = some r ∧
      credentialStep parse sha256Hex s (.redeem attempt code requestOrigin session now false) =
        (⟨db', Function.update s.pending attempt
          (some ⟨code, ⟨r.origin, r.name, r.reuseClient⟩, origin⟩)⟩, [.redeemed code]) ∧
      ∀ hash, db'.pairingCode? hash = if hash = hashSecret sha256Hex code then
        some { r with consumedAt := some now } else s.db.pairingCode? hash) ∨
    ((∀ origin, normalizeOrigin parse requestOrigin = .ok origin →
      s.db.redeemableCode? (hashSecret sha256Hex code) origin now session = none) ∧
      credentialStep parse sha256Hex s (.redeem attempt code requestOrigin session now false) =
        (s, [])) := by
  simp only [credentialStep, hfree, redeemCode]
  cases normalizeOrigin parse requestOrigin with
  | error message => exact Or.inr ⟨fun origin h => (nomatch h), rfl⟩
  | ok origin =>
      dsimp only
      -- the update finds the row that the select found, in one transaction
      cases hrow : s.db.redeemableCode? (hashSecret sha256Hex code) origin now session with
      | none =>
          refine Or.inr ⟨fun origin' h => ?_, ?_⟩
          · cases h
            exact hrow
          · rw [Database.consumePairingCode_of_none hrow]
            rfl
      | some r =>
          obtain ⟨db', hconsume, hafter⟩ := Database.consumePairingCode_of_some hrow
          refine Or.inl ⟨origin, r, db', rfl, hrow, ?_, hafter⟩
          rw [hconsume]
          rfl

/-- **The one inversion lemma for codes.** -/
theorem codeMove_of_step (s : Credentials) (i : CredentialInput) :
    CodeMove sha256Hex s i (credentialStep parse sha256Hex s i).1
      (credentialStep parse sha256Hex s i).2 := by
  cases i with
  | grant origin name bytes clock now fails =>
      simp only [credentialStep]
      split
      · exact .idle sha256Hex s _
      · exact codeMove_afterGrant parse sha256Hex rfl rfl
  | dashboardGrant origin name session bytes clock now fails =>
      simp only [credentialStep, newDashboardPairingGrant]
      split
      · exact .idle sha256Hex s _
      · split
        · exact codeMove_afterGrant parse sha256Hex rfl rfl
        · exact .idle sha256Hex s _
  | redeem attempt code requestOrigin session now fails =>
      cases hp : s.pending attempt with
      | some p =>
          simp only [credentialStep, hp]
          exact .idle sha256Hex s _
      | none =>
          cases fails with
          | true =>
              simp only [credentialStep, hp]
              exact .idle sha256Hex s _
          | false =>
              rcases redeem_step parse sha256Hex s hp code requestOrigin session now with
                ⟨origin, r, db', -, hrow, hstep, hafter⟩ | ⟨-, hstep⟩
              · rw [hstep]
                obtain ⟨hfound, hr⟩ := Option.filter_eq_some_iff.mp hrow
                simp only [Database.redeemable, decide_eq_true_eq] at hr
                exact .redeem attempt code now _ r db' rfl hp rfl hfound hr.2.2.2.1 hafter
              · rw [hstep]
                exact .idle sha256Hex s _
  | issue attempt secret candidateId clock now fails =>
      simp only [credentialStep]
      cases hp : s.pending attempt with
      | none => exact .idle sha256Hex s _
      | some p =>
          dsimp only
          split
          · exact .finish attempt p s.db [] hp rfl (Or.inl rfl)
          · exact codeMove_finish sha256Hex _ hp clock fun db t h =>
              (issueForRecord_onlyClients sha256Hex h).pairingCodes
  | issueLocal name days secret id clock now fails =>
      simp only [credentialStep]
      split
      · exact .idle sha256Hex s _
      · exact codeMove_afterToken sha256Hex _ clock fun db t h =>
          (issueLocalToken_onlyClients sha256Hex h).pairingCodes
  | rotate clientId days secret clock fails =>
      simp only [credentialStep]
      split
      · exact .idle sha256Hex s _
      · exact codeMove_afterToken sha256Hex _ clock fun db t h =>
          (rotateToken_onlyClients sha256Hex h).pairingCodes
  | revoke clientId now fails =>
      simp only [credentialStep]
      split
      · exact .idle sha256Hex s _
      · cases hrev : s.db.revokeClient clientId now with
        | error error => exact .idle sha256Hex s _
        | ok db =>
            exact .stay _ _ (Database.revokeClient_onlyClients hrev).pairingCodes rfl
              (by simp [Quiet, tokenFor?, grantOf?])

/-! ## The invariant -/

/-- A code's row is what the history says of it: `readings` are the times that
    were compared with the expiries so far. -/
inductive CodeKept (k : String) (readings : List Int) (tr : List CredentialObs) :
    Option PairingRow → Prop
  | ungranted (no_grant : grantsOf k tr = []) (unused : redemptions k tr = 0) :
      CodeKept k readings tr none
  | ready (r : PairingRow)
      (granted : grantsOf k tr = [(r.origin, r.expiresAt, r.instanceSession)])
      (unused : redemptions k tr = 0) (unconsumed : r.consumedAt = none) :
      CodeKept k readings tr (some r)
  | used (row : Option PairingRow) (g : String × Int × Option String)
      (granted : grantsOf k tr = [g]) (once : redemptions k tr = 1)
      (consumed : ∀ r, row = some r → r.consumedAt ≠ none) : CodeKept k readings tr row
  | purged (g : String × Int × Option String) (now : Int) (granted : grantsOf k tr = [g])
      (unused : redemptions k tr = 0) (read : now ∈ readings) (late : g.2.1 < now) :
      CodeKept k readings tr none

/-- What is about other codes keeps a row kept. -/
theorem CodeKept.other {k : String} {readings : List Int} {tr obs : List CredentialObs}
    {row : Option PairingRow} (h : CodeKept k readings tr row) (hgrant : grantsOf k obs = [])
    (hredeem : redemptions k obs = 0) (more : List Int) :
    CodeKept k (readings ++ more) (tr ++ obs) row := by
  have hgrants : grantsOf k (tr ++ obs) = grantsOf k tr := by
    rw [grantsOf_append, hgrant, List.append_nil]
  have hcount : redemptions k (tr ++ obs) = redemptions k tr := by
    rw [redemptions_append, hredeem, Nat.add_zero]
  cases h with
  | ungranted no_grant unused => exact .ungranted (hgrants.trans no_grant) (hcount.trans unused)
  | ready r granted unused unconsumed =>
      exact .ready r (hgrants.trans granted) (hcount.trans unused) unconsumed
  | used row g granted once consumed =>
      exact .used row g (hgrants.trans granted) (hcount.trans once) consumed
  | purged g now granted unused read late =>
      exact .purged g now (hgrants.trans granted) (hcount.trans unused)
        (List.mem_append_left _ read) late

/-- The purge keeps a row kept: it takes what was used, or what is past its
    expiry at a time that was read. -/
theorem CodeKept.purge {k : String} {readings : List Int} {tr : List CredentialObs}
    {row : Option PairingRow} (h : CodeKept k readings tr row) {now : Int}
    (hnow : now ∈ readings) :
    CodeKept k readings tr (row.filter fun r => !(r.expiresAt < now ∨ r.consumedAt.isSome)) := by
  cases h with
  | ungranted no_grant unused => exact .ungranted no_grant unused
  | ready r granted unused unconsumed =>
      -- the purge takes a ready code only when its time is over
      by_cases hlate : r.expiresAt < now
      · rw [Option.filter_some, if_neg (by simp [hlate])]
        exact .purged _ now granted unused hnow hlate
      · rw [Option.filter_some, if_pos (by simp [hlate, unconsumed])]
        exact .ready r granted unused unconsumed
  | used row g granted once consumed =>
      exact .used _ g granted once fun r hr => consumed r (Option.filter_eq_some_iff.mp hr).1
  | purged g now' granted unused read late => exact .purged g now' granted unused read late

/-- A code that no grant created was not redeemed. -/
theorem CodeKept.not_redeemed {k : String} {readings : List Int} {tr : List CredentialObs}
    {row : Option PairingRow} (h : CodeKept k readings tr row) (hnone : grantsOf k tr = []) :
    redemptions k tr = 0 := by
  cases h with
  | ungranted no_grant unused => exact unused
  | ready r granted unused unconsumed => exact unused
  | purged g now granted unused read late => exact unused
  | used row g granted once consumed =>
      rw [hnone] at granted
      cases granted

/-- The row of a code that is there and not used up. -/
theorem CodeKept.unused {k : String} {readings : List Int} {tr : List CredentialObs}
    {r : PairingRow} (h : CodeKept k readings tr (some r)) (hr : r.consumedAt = none) :
    grantsOf k tr = [(r.origin, r.expiresAt, r.instanceSession)] ∧ redemptions k tr = 0 := by
  cases h with
  | ready r granted unused unconsumed => exact ⟨granted, unused⟩
  | used row g granted once consumed => exact absurd hr (consumed r rfl)

theorem codeKept_step {s s' : Credentials} {i : CredentialInput} {obs : List CredentialObs}
    (move : CodeMove sha256Hex s i s' obs) {S : Set String}
    (hS : Set.InjOn (hashSecret sha256Hex) S) (hi : ∀ code, i.code? = some code → code ∈ S)
    {k : String} (hk : k ∈ S) {readings : List Int} {tr : List CredentialObs}
    (hfresh : i.grantedCode? = some k → grantsOf k tr = [])
    (h : CodeKept k readings tr (s.db.pairingCode? (hashSecret sha256Hex k))) :
    CodeKept k (readings ++ i.reading?.toList) (tr ++ obs)
      (s'.db.pairingCode? (hashSecret sha256Hex k)) := by
  cases move with
  | stay s' obs codes pending quiet =>
      obtain ⟨hgrant, hredeem, -⟩ := quiet.unchanged k
      unfold Database.pairingCode? at h ⊢
      rw [codes]
      exact h.other hgrant hredeem _
  | finish attempt p db' obs waiting codes shown =>
      -- a token is neither a grant nor a redemption
      have hquiet : grantsOf k obs = [] ∧ redemptions k obs = 0 := by
        rcases shown with rfl | ⟨clientId, token, clock, expiresAt, rfl⟩
        · exact ⟨rfl, rfl⟩
        · exact ⟨rfl, by simp⟩
      unfold Database.pairingCode? at h ⊢
      rw [codes]
      exact h.other hquiet.1 hquiet.2 _
  | grant code now r db' drawn time digest unused after =>
      rw [after, digest]
      by_cases hcode : code = k
      · subst hcode
        have hnone := hfresh drawn
        have hcount := h.not_redeemed hnone
        rw [if_pos rfl]
        exact .ready r (by simp [grantsOf_append, hnone]) (by simp [redemptions_append, hcount])
          unused
      · -- another code's digest is another key, so this row is only purged
        have hdrawn : i.code? = some code := by
          cases i with
          | redeem => cases drawn
          | _ => exact drawn
        have hne : hashSecret sha256Hex k ≠ hashSecret sha256Hex code := fun heq =>
          hcode (hS (hi code hdrawn) hk heq.symm)
        rw [if_neg hne]
        exact (h.other (by simp [hcode]) (by simp) _).purge (by simp [time])
  | redeem attempt code now p r db' tried free names row unused after =>
      rw [after]
      by_cases hcode : code = k
      · subst hcode
        rw [row] at h
        -- the row was not used up, so this is the first redemption
        obtain ⟨hgrants, hcount⟩ := h.unused unused
        rw [if_pos rfl]
        refine .used _ (r.origin, r.expiresAt, r.instanceSession)
          (by simp [grantsOf_append, hgrants]) (by simp [redemptions_append, hcount]) ?_
        rintro r' hr'
        cases hr'
        simp
      · have hne : hashSecret sha256Hex k ≠ hashSecret sha256Hex code := fun heq =>
          hcode (hS (hi code tried) hk heq.symm)
        rw [if_neg hne]
        exact h.other (by simp) (by simp [hcode]) _

/-- The redemptions of a code are what the history says: one at most, which is
    under way or has ended, with one token at most. -/
inductive TokenKept (k : String) (tr : List CredentialObs) (pending : Nat → Option PendingToken) :
    Prop
  | unused (none_yet : redemptions k tr = 0) (no_token : tokensFor k tr = 0)
      (idle : ∀ a p, pending a = some p → p.code ≠ k)
  | waiting (attempt : Nat) (once : redemptions k tr = 1) (no_token : tokensFor k tr = 0)
      (only : ∀ a p, pending a = some p → p.code = k → a = attempt)
  | ended (once : redemptions k tr = 1) (token : tokensFor k tr ≤ 1)
      (idle : ∀ a p, pending a = some p → p.code ≠ k)

/-- What is about other codes keeps a redemption kept. -/
theorem TokenKept.other {k : String} {tr obs : List CredentialObs}
    {pending : Nat → Option PendingToken} (h : TokenKept k tr pending)
    (hredeem : redemptions k obs = 0) (htoken : tokensFor k obs = 0) :
    TokenKept k (tr ++ obs) pending := by
  have hcount : redemptions k (tr ++ obs) = redemptions k tr := by
    rw [redemptions_append, hredeem, Nat.add_zero]
  have htokens : tokensFor k (tr ++ obs) = tokensFor k tr := by
    rw [tokensFor_append, htoken, Nat.add_zero]
  cases h with
  | unused none_yet no_token idle =>
      exact .unused (hcount.trans none_yet) (htokens.trans no_token) idle
  | waiting attempt once no_token only =>
      exact .waiting attempt (hcount.trans once) (htokens.trans no_token) only
  | ended once token idle => exact .ended (hcount.trans once) (htokens.trans_le token) idle

/-- Fewer redemptions of the code under way keep it kept. -/
theorem TokenKept.of_pending {k : String} {tr : List CredentialObs}
    {pending pending' : Nat → Option PendingToken} (h : TokenKept k tr pending)
    (hsub : ∀ a p, pending' a = some p → p.code = k → pending a = some p) :
    TokenKept k tr pending' := by
  cases h with
  | unused none_yet no_token idle =>
      exact .unused none_yet no_token fun a p hp hcode => idle a p (hsub a p hp hcode) hcode
  | waiting attempt once no_token only =>
      exact .waiting attempt once no_token fun a p hp hcode =>
        only a p (hsub a p hp hcode) hcode
  | ended once token idle =>
      exact .ended once token fun a p hp hcode => idle a p (hsub a p hp hcode) hcode

theorem TokenKept.at_most_one {k : String} {tr : List CredentialObs}
    {pending : Nat → Option PendingToken} (h : TokenKept k tr pending) :
    redemptions k tr ≤ 1 ∧ tokensFor k tr ≤ 1 := by
  cases h with
  | unused none_yet no_token idle => omega
  | waiting attempt once no_token only => omega
  | ended once token idle => omega

theorem tokenKept_step {s s' : Credentials} {i : CredentialInput} {obs : List CredentialObs}
    (move : CodeMove sha256Hex s i s' obs) {k : String} {readings : List Int}
    {tr : List CredentialObs}
    (hcode : CodeKept k readings tr (s.db.pairingCode? (hashSecret sha256Hex k)))
    (h : TokenKept k tr s.pending) : TokenKept k (tr ++ obs) s'.pending := by
  cases move with
  | stay s' obs codes pending quiet =>
      obtain ⟨-, hredeem, htoken⟩ := quiet.unchanged k
      rw [pending]
      exact h.other hredeem htoken
  | grant code now r db' drawn time digest unused after =>
      exact h.other (by simp) (by simp)
  | redeem attempt code now p r db' tried free names row unused after =>
      by_cases hk : code = k
      · subst hk
        rw [row] at hcode
        obtain ⟨-, hcount⟩ := hcode.unused unused
        -- a code that was not redeemed is under way nowhere else
        cases h with
        | unused none_yet no_token idle =>
            refine .waiting attempt (by simp [redemptions_append, hcount])
              (by simp [tokensFor_append, no_token]) fun a q hq hcode => ?_
            by_contra ha
            exact idle a q ((Function.update_of_ne ha _ _).symm.trans hq) hcode
        | waiting attempt' once no_token only => omega
        | ended once token idle => omega
      · refine (h.other (by simp [hk]) (by simp)).of_pending fun a q hq hcode => ?_
        by_cases ha : a = attempt
        · subst ha
          have hp : some p = some q := by simpa using hq
          obtain rfl : p = q := Option.some.inj hp
          exact absurd (names.symm.trans hcode) hk
        · exact (Function.update_of_ne ha _ _).symm.trans hq
  | finish attempt p db' obs waiting codes shown =>
      have hpending : ∀ a q, Function.update s.pending attempt none a = some q →
          a ≠ attempt ∧ s.pending a = some q := by
        intro a q hq
        by_cases ha : a = attempt
        · rw [ha, Function.update_self] at hq
          cases hq
        · exact ⟨ha, (Function.update_of_ne ha _ _).symm.trans hq⟩
      rcases shown with rfl | ⟨clientId, token, clock, expiresAt, rfl⟩
      · exact (h.other rfl rfl).of_pending fun a q hq _ => (hpending a q hq).2
      · by_cases hk : p.code = k
        · subst hk
          -- the attempt that gets its token is the one that waits for it
          cases h with
          | waiting attempt' once no_token only =>
              have hself := only attempt p waiting rfl
              refine .ended (by simp [redemptions_append, once])
                (by simp [tokensFor_append, no_token]) fun a q hq hcode => ?_
              obtain ⟨hne, hold⟩ := hpending a q hq
              exact hne ((only a q hold hcode).trans hself.symm)
          | unused none_yet no_token idle => exact absurd rfl (idle attempt p waiting)
          | ended once token idle => exact absurd rfl (idle attempt p waiting)
        · exact (h.other (by simp) (by simp [hk])).of_pending
            fun a q hq _ => (hpending a q hq).2

/-! ## Runs -/

/-- The codes that grants created were drawn by their calls. -/
theorem grantedCode_of_trace (s : Credentials) (is : List CredentialInput) {k : String}
    (h : grantsOf k (trace (credentialStep parse sha256Hex) s is) ≠ []) :
    k ∈ is.filterMap (·.grantedCode?) := by
  induction is generalizing s with
  | nil => exact absurd rfl h
  | cons i is ih =>
      rw [trace_cons, grantsOf_append] at h
      have hmove := codeMove_of_step parse sha256Hex s i
      generalize (credentialStep parse sha256Hex s i).1 = s' at hmove h ih
      generalize (credentialStep parse sha256Hex s i).2 = obs at hmove h
      have hrest : grantsOf k obs = [] → k ∈ (i :: is).filterMap (·.grantedCode?) := by
        intro hobs
        rw [hobs, List.nil_append] at h
        have hmem := List.mem_filterMap.mp (ih s' h)
        exact List.mem_filterMap.mpr (hmem.imp fun j hj => ⟨List.mem_cons_of_mem _ hj.1, hj.2⟩)
      cases hmove with
      | stay s' obs codes pending quiet => exact hrest (quiet.unchanged k).1
      | redeem attempt code now p r db' tried free names row unused after => exact hrest (by simp)
      | finish attempt p db' obs waiting codes shown =>
          refine hrest ?_
          rcases shown with rfl | ⟨clientId, token, clock, expiresAt, rfl⟩ <;> rfl
      | grant code now r db' drawn time digest unused after =>
          by_cases hcode : code = k
          · subst hcode
            exact List.mem_filterMap.mpr ⟨i, List.mem_cons_self, drawn⟩
          · exact hrest (by simp [hcode])

/-- In every run from a database without codes, each code's row and redemptions
    are what the history says. -/
theorem codeKept_run {db : Database} (hdb : db.pairingCodes.rows = []) {S : Set String}
    (hS : Set.InjOn (hashSecret sha256Hex) S) {k : String} (hk : k ∈ S)
    (is : List CredentialInput) (hcodes : ∀ code ∈ is.filterMap (·.code?), code ∈ S)
    (hfresh : (is.filterMap (·.grantedCode?)).Nodup) :
    CodeKept k (is.filterMap (·.reading?)) (trace (credentialStep parse sha256Hex)
        (.ofDatabase db) is)
        ((run (credentialStep parse sha256Hex) (.ofDatabase db) is).db.pairingCode?
          (hashSecret sha256Hex k)) ∧
      TokenKept k (trace (credentialStep parse sha256Hex) (.ofDatabase db) is)
        (run (credentialStep parse sha256Hex) (.ofDatabase db) is).pending := by
  induction is using List.reverseRecOn with
  | nil =>
      have hnone : db.pairingCode? (hashSecret sha256Hex k) = none := by
        simp [Database.pairingCode?, Relational.Table.lookup, hdb]
      constructor
      · show CodeKept k [] [] (db.pairingCode? (hashSecret sha256Hex k))
        rw [hnone]
        exact .ungranted rfl rfl
      · exact .unused rfl rfl fun a p hp => absurd hp (Option.some_ne_none p).symm
  | append_singleton is i ih =>
      rw [List.filterMap_append] at hcodes hfresh
      have hold := ih (fun code hcode => hcodes code (List.mem_append_left _ hcode))
        (List.nodup_append'.mp hfresh).1
      have hmove := codeMove_of_step parse sha256Hex
        (run (credentialStep parse sha256Hex) (.ofDatabase db) is) i
      have hi : ∀ code, i.code? = some code → code ∈ S := fun code hcode =>
        hcodes code (List.mem_append_right _ (List.mem_filterMap.mpr ⟨i, by simp, hcode⟩))
      -- a code that this call draws was drawn by no earlier one
      have hnew : i.grantedCode? = some k →
          grantsOf k (trace (credentialStep parse sha256Hex) (.ofDatabase db) is) = [] := by
        intro hdrawn
        by_contra hgrants
        exact (List.nodup_append'.mp hfresh).2.2
          (grantedCode_of_trace parse sha256Hex (.ofDatabase db) is hgrants)
          (List.mem_filterMap.mpr ⟨i, by simp, hdrawn⟩)
      rw [run_concat, trace_concat, List.filterMap_append]
      have hreading : [i].filterMap (·.reading?) = i.reading?.toList := by
        cases hread : i.reading? <;> simp [hread]
      rw [hreading]
      exact ⟨codeKept_step sha256Hex hmove hS hi hk hnew hold.1,
        tokenKept_step sha256Hex hmove hold.1 hold.2⟩

/-- What a redemption returns follows the history, when no earlier reading of
    the clock was later than its own. -/
theorem redeemed_iff {s : Credentials} {k : String} {readings : List Int}
    {tr : List CredentialObs}
    (hkept : CodeKept k readings tr (s.db.pairingCode? (hashSecret sha256Hex k)))
    {attempt : Nat} (hfree : s.pending attempt = none) {t : Int} (hclock : ∀ T ∈ readings, T ≤ t)
    (o session : String) :
    .redeemed k ∈ (credentialStep parse sha256Hex s (.redeem attempt k o session t false)).2 ↔
      ∃ origin e bound, normalizeOrigin parse o = .ok origin ∧ .granted k origin e bound ∈ tr ∧
        t ≤ e ∧ (bound = none ∨ bound = some session) ∧ .redeemed k ∉ tr := by
  rcases redeem_step parse sha256Hex s hfree k o session t with
    ⟨origin, r, db', horigin, hrow, hstep, -⟩ | ⟨hnone, hstep⟩
  · obtain ⟨hfound, hr⟩ := Option.filter_eq_some_iff.mp hrow
    simp only [Database.redeemable, decide_eq_true_eq] at hr
    obtain ⟨-, rfl, htime, hunused, hbound⟩ := hr
    rw [hfound] at hkept
    obtain ⟨hgrants, hcount⟩ := hkept.unused hunused
    refine iff_of_true (by simp [hstep]) ⟨r.origin, r.expiresAt, r.instanceSession, horigin,
      mem_grantsOf.mp (by simp [hgrants]), htime, hbound, redemptions_eq_zero.mp hcount⟩
  -- nothing was redeemed: a grant that allows it would show in the row
  · refine iff_of_false (by simp [hstep]) ?_
    rintro ⟨origin, e, bound, horigin, hgranted, htime, hbound, hunredeemed⟩
    have hmem := mem_grantsOf.mpr hgranted
    cases hrow : s.db.pairingCode? (hashSecret sha256Hex k) with
    | none =>
        rw [hrow] at hkept
        cases hkept with
        | ungranted no_grant unused => simp [no_grant] at hmem
        | used row g granted once consumed =>
            rw [redemptions_eq_zero.mpr hunredeemed] at once
            cases once
        | purged g now granted unused read late =>
            -- purged by a reading after the expiry, hence after this one
            obtain rfl : (origin, e, bound) = g := by simpa [granted] using hmem
            have := hclock now read
            dsimp only at late
            omega
    | some r =>
        rw [hrow] at hkept
        cases hkept with
        | used row g granted once consumed =>
            rw [redemptions_eq_zero.mpr hunredeemed] at once
            cases once
        | ready r granted unused unconsumed =>
            obtain ⟨rfl, rfl, rfl⟩ : origin = r.origin ∧ e = r.expiresAt ∧
              bound = r.instanceSession := by simpa [granted] using hmem
            have hkey : r.codeHash = hashSecret sha256Hex k :=
              Relational.Table.key_of_lookup (fun r : PairingRow => r.codeHash) hrow
            have hsome : s.db.redeemableCode? (hashSecret sha256Hex k) r.origin t session =
                some r := by
              rw [Database.redeemableCode?, hrow, Option.filter_some, if_pos]
              simp [Database.redeemable, hkey, htime, unconsumed, hbound]
            rw [hnone r.origin horigin] at hsome
            cases hsome

end

/-- **Pairing codes are redeemed once, and only as granted**, in every run whose
    drawn codes never repeat, whose codes have different digests and whose
    readings of the clock do not go backwards.  What a redemption returns follows
    the grants and redemptions before it; one that returns nothing changes
    nothing; a code that was not redeemed keeps its row until a time after its
    expiry is read; and no code is redeemed twice or gives two tokens. -/
theorem pairing_codes_redeemed_once (parse : String → Option Url)
    (sha256Hex : List UInt8 → String) (db : Database) (hdb : db.pairingCodes.rows = [])
    (is : List CredentialInput) (S : Set String) (hS : Set.InjOn (hashSecret sha256Hex) S)
    (hcodes : ∀ k ∈ is.filterMap (·.code?), k ∈ S)
    (hfresh : (is.filterMap (·.grantedCode?)).Nodup)
    (hclock : (is.filterMap (·.reading?)).Pairwise (· ≤ ·)) :
    let step := credentialStep parse sha256Hex
    let history pre := trace step (.ofDatabase db) pre
    let state pre := run step (.ofDatabase db) pre
    (∀ pre post attempt k o session t,
      is = pre ++ .redeem attempt k o session t false :: post →
      (state pre).pending attempt = none →
      (.redeemed k ∈ (step (state pre) (.redeem attempt k o session t false)).2 ↔
        ∃ origin e bound, normalizeOrigin parse o = .ok origin ∧
          .granted k origin e bound ∈ history pre ∧ t ≤ e ∧
          (bound = none ∨ bound = some session) ∧ .redeemed k ∉ history pre) ∧
      (.redeemed k ∉ (step (state pre) (.redeem attempt k o session t false)).2 →
        (step (state pre) (.redeem attempt k o session t false)).1 = state pre)) ∧
    (∀ pre, pre <+: is → ∀ k origin e bound, .granted k origin e bound ∈ history pre →
      .redeemed k ∉ history pre → (∀ now ∈ pre.filterMap (·.reading?), now ≤ e) →
      ∃ row, (state pre).db.pairingCode? (hashSecret sha256Hex k) = some row ∧
        row.origin = origin ∧ row.expiresAt = e ∧ row.instanceSession = bound ∧
        row.consumedAt = none) ∧
    (∀ k ∈ S, redemptions k (history is) ≤ 1 ∧ tokensFor k (history is) ≤ 1) := by
  intro step history state
  have hrun : ∀ pre, pre <+: is → ∀ k ∈ S,
      CodeKept k (pre.filterMap (·.reading?)) (history pre)
        ((state pre).db.pairingCode? (hashSecret sha256Hex k)) ∧
      TokenKept k (history pre) (state pre).pending := fun pre hpre k hk =>
    codeKept_run parse sha256Hex hdb hS hk pre
      (fun code hcode => hcodes code ((hpre.sublist.filterMap _).subset hcode))
      (hfresh.sublist (hpre.sublist.filterMap _))
  refine ⟨?_, ?_, fun k hk => (hrun is (List.prefix_refl is) k hk).2.at_most_one⟩
  · intro pre post attempt k o session t his hfree
    have hpre : pre <+: is := ⟨_, his.symm⟩
    have hk : k ∈ S := hcodes k (List.mem_filterMap.mpr
      ⟨.redeem attempt k o session t false, by simp [his], rfl⟩)
    -- the clock of this attempt is the latest so far
    have hbefore : ∀ T ∈ pre.filterMap (·.reading?), T ≤ t := by
      intro T hT
      rw [his, List.filterMap_append, List.pairwise_append] at hclock
      exact hclock.2.2 T hT t (List.mem_filterMap.mpr
        ⟨.redeem attempt k o session t false, List.mem_cons_self, rfl⟩)
    refine ⟨redeemed_iff parse sha256Hex (hrun pre hpre k hk).1 hfree hbefore o session,
      fun hnot => ?_⟩
    rcases redeem_step parse sha256Hex (state pre) hfree k o session t with
      ⟨origin, r, db', -, -, hstep, -⟩ | ⟨-, hstep⟩
    · exact absurd (by simp [step, hstep]) hnot
    · exact congrArg Prod.fst hstep
  · intro pre hpre k origin e bound hgranted hunredeemed htime
    have hmem := mem_grantsOf.mpr hgranted
    have hdrawn := grantedCode_of_trace parse sha256Hex (.ofDatabase db) pre
      (List.ne_nil_of_mem hmem)
    have hk : k ∈ S := by
      obtain ⟨i, hi, hcode⟩ := List.mem_filterMap.mp hdrawn
      refine hcodes k (List.mem_filterMap.mpr ⟨i, hpre.subset hi, ?_⟩)
      cases i with
      | redeem => cases hcode
      | _ => exact hcode
    have hkept := (hrun pre hpre k hk).1
    generalize (state pre).db.pairingCode? (hashSecret sha256Hex k) = row at hkept ⊢
    cases hkept with
    | ungranted no_grant unused => simp [no_grant] at hmem
    | ready r granted unused unconsumed =>
        obtain ⟨rfl, rfl, rfl⟩ : origin = r.origin ∧ e = r.expiresAt ∧
          bound = r.instanceSession := by simpa [granted] using hmem
        exact ⟨r, rfl, rfl, rfl, rfl, unconsumed⟩
    | used row g granted once consumed =>
        rw [redemptions_eq_zero.mpr hunredeemed] at once
        cases once
    | purged g now granted unused read late =>
        obtain rfl : (origin, e, bound) = g := by simpa [granted] using hmem
        have := htime now read
        dsimp only at late
        omega

/-! ## A code that outlives a refused attempt -/

/-- What the `url` crate makes of the two origins below. -/
def exampleParse (value : String) : Option Url :=
  if value = "https://example.com" then
    some ⟨"https", "", none, some "example.com", none, "/", none, none⟩
  else if value = "http://localhost:5173" then
    some ⟨"http", "", none, some "localhost", some 5173, "/", none, none⟩
  else none

/-- The random bytes 0 to 15. -/
def exampleCodeBytes : List UInt8 := [0, 1, 2, 3, 4, 5, 6, 7, 8, 9, 10, 11, 12, 13, 14, 15]

def exampleCode : String := "PL-00010203-04050607-08090A0B-0C0D0E0F"

/-- The SHA-256 digest of the code. -/
def exampleCodeDigest (bytes : List UInt8) : String :=
  if bytes = Text.utf8 exampleCode then
    "0d6f91ce4b7593aa327bc5c393478b1ec5efc31cbcb787ec9dc892d28ffbf1da"
  else ""

/-- A session of the agent: 32 times the byte 1. -/
def exampleSession : String := "AQEBAQEBAQEBAQEBAQEBAQEBAQEBAQEBAQEBAQEBAQE"

/-- A grant for `https://example.com`, and an attempt from another origin. -/
def exampleRefused : List CredentialInput :=
  [.grant "https://example.com" "Demo" exampleCodeBytes 0 0 false,
    .redeem 0 exampleCode "http://localhost:5173" exampleSession 10 false]

theorem pairing_codes_redeemed_once_of_exampleRefused :
    .redeemed exampleCode ∈ (credentialStep exampleParse exampleCodeDigest
      (run (credentialStep exampleParse exampleCodeDigest) (.ofDatabase .fresh) exampleRefused)
      (.redeem 1 exampleCode "https://example.com" exampleSession 300 false)).2 := by
  have hinj : Set.InjOn (hashSecret exampleCodeDigest) {exampleCode} := by
    rintro a rfl b rfl -
    rfl
  obtain ⟨hredeem, -, -⟩ := pairing_codes_redeemed_once exampleParse exampleCodeDigest .fresh rfl
    (exampleRefused ++ [.redeem 1 exampleCode "https://example.com" exampleSession 300 false])
    {exampleCode} hinj (by decide) (by decide) (by decide)
  refine (hredeem exampleRefused [] 1 exampleCode "https://example.com" exampleSession 300 rfl
    rfl).1.mpr ⟨"https://example.com", 300, none, by decide, by decide, by decide, Or.inl rfl,
    by decide⟩

end PrintLatch
