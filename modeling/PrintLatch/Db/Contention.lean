/-
  PrintLatch.Db.Contention

  `Database::consume_pairing_code` among the commits of other connections.

  The call is a deferred transaction: its select takes the snapshot and its
  update needs the writer's lock.  `Commit` lists what the worker, the handlers
  and the command line commit meanwhile.  `rotate_or_insert_stable_browser_client`
  is an immediate transaction, and the same commits cannot defeat it.
-/

import PrintLatch.Db.Clients
import PrintLatch.Db.Jobs
import PrintLatch.Relational.Snapshot

namespace PrintLatch

open Relational Reactive

/-! ## What others commit -/

/-- A writing call of `Database`, with what it reads from outside. -/
inductive Commit where
  | insertJob (job : NewJob) (now : Int)
  | claimNextJob (now : Int) (tie : Nat)
  | finishJob (id : String) (state : JobState) (detail : String) (now : Int)
  | cancelJob (id clientId : String) (now : Int)
  | retryJob (id clientId : String) (now : Int)
  | recoverInterruptedJobs (now : Int)
  | insertClient (id name : String) (kind : ClientKind) (origin : Option String)
      (tokenHash : String) (expiresAt now : Int)
  | rotateClientToken (id tokenHash : String) (expiresAt : Int)
  | rotateOrInsertStableBrowserClient (newId stableKey name origin tokenHash : String)
      (expiresAt now : Int)
  | revokeClient (id : String) (now : Int)
  | insertPairingCode (codeHash origin name : String) (expiresAt : Int)
      (instanceSession : Option String) (reuseClient : Bool) (now : Int)
  | consumePairingCode (codeHash origin : String) (now : Int) (instanceSession : String)
  deriving DecidableEq, Repr

/-- The database after a statement that changed `count` rows. -/
def changed (count : Nat) (db : Database) : Option Database := if count = 0 then none else some db

/-- What a call writes; `none` when it fails or changes no row. -/
def Commit.apply : Commit → Database → Option Database
  | .insertJob job now, db => (db.insertJob job now).toOption
  | .claimNextJob now tie, db =>
      (db.claimNextJob now tie).2.map fun _ => (db.claimNextJob now tie).1
  | .finishJob id state detail now, db =>
      changed (db.jobs.rows.countP fun r => r.id = id ∧ r.state = .printing)
        (db.finishJob id state detail now)
  | .cancelJob id clientId now, db =>
      if (db.cancelJob id clientId now).2 then some (db.cancelJob id clientId now).1 else none
  | .retryJob id clientId now, db =>
      if (db.retryJob id clientId now).2 then some (db.retryJob id clientId now).1 else none
  | .recoverInterruptedJobs now, db =>
      changed (db.recoverInterruptedJobs now).2 (db.recoverInterruptedJobs now).1
  | .insertClient id name kind origin tokenHash expiresAt now, db =>
      (db.insertClient id name kind origin tokenHash expiresAt now).toOption
  | .rotateClientToken id tokenHash expiresAt, db =>
      (db.rotateClientToken id tokenHash expiresAt).toOption
  | .rotateOrInsertStableBrowserClient newId stableKey name origin tokenHash expiresAt now, db =>
      ((db.rotateOrInsertStableBrowserClient newId stableKey name origin tokenHash expiresAt
        now).toOption).map Prod.fst
  | .revokeClient id now, db => (db.revokeClient id now).toOption
  | .insertPairingCode codeHash origin name expiresAt instanceSession reuseClient now, db =>
      (db.insertPairingCode codeHash origin name expiresAt instanceSession reuseClient
        now).toOption
  | .consumePairingCode codeHash origin now instanceSession, db =>
      (db.consumePairingCode codeHash origin now instanceSession).2.map fun _ =>
        (db.consumePairingCode codeHash origin now instanceSession).1

/-- The call does not touch the code with digest `hash`: a grant or a redemption is
    of another code, and a grant's purge comes before the code expires. -/
def Commit.Spares (hash : String) (expiresAt : Int) : Commit → Prop
  | .insertPairingCode codeHash _ _ _ _ _ now => codeHash ≠ hash ∧ now ≤ expiresAt
  | .consumePairingCode codeHash _ _ _ => codeHash ≠ hash
  | _ => True

theorem pairingCode?_of_eq {db db' : Database} (h : db'.pairingCodes = db.pairingCodes)
    (hash : String) : db'.pairingCode? hash = db.pairingCode? hash := by
  unfold Database.pairingCode?
  rw [h]

theorem eq_ok_of_toOption {ε β : Type*} {x : Except ε β} {b : β} (h : x.toOption = some b) :
    x = .ok b := by
  cases x with
  | error e => cases h
  | ok a =>
      cases h
      rfl

theorem eq_of_changed {count : Nat} {db db' : Database} (h : changed count db = some db') :
    db = db' := by
  unfold changed at h
  split at h
  · cases h
  · exact Option.some.inj h

/-- A claim writes the job table only. -/
theorem Database.claimNextJob_pairingCodes (db : Database) (now : Int) (tie : Nat) :
    (db.claimNextJob now tie).1.pairingCodes = db.pairingCodes := by
  unfold Database.claimNextJob
  split <;> rfl

theorem Database.insertJob_pairingCodes {db db' : Database} {job : NewJob} {now : Int}
    (h : db.insertJob job now = .ok db') : db'.pairingCodes = db.pairingCodes := by
  unfold Database.insertJob at h
  split at h
  · cases h
  split at h
  · cases h
  split at h
  · cases h
  split at h
  · cases h
  · cases h
    rfl

/-- A code that a call spares keeps its row. -/
theorem Commit.apply_pairingCode? {c : Commit} {hash : String} {r : PairingRow}
    (hspares : c.Spares hash r.expiresAt) (hunused : r.consumedAt = none) {db db' : Database}
    (hr : db.pairingCode? hash = some r) (h : c.apply db = some db') :
    db'.pairingCode? hash = some r := by
  have hsame : db'.pairingCodes = db.pairingCodes → db'.pairingCode? hash = some r :=
    fun heq => (pairingCode?_of_eq heq hash).trans hr
  cases c with
  | insertJob job now => exact hsame (Database.insertJob_pairingCodes (eq_ok_of_toOption h))
  | claimNextJob now tie =>
      obtain ⟨-, -, rfl⟩ := Option.map_eq_some_iff.mp h
      exact hsame (db.claimNextJob_pairingCodes now tie)
  | finishJob id state detail now =>
      obtain rfl := eq_of_changed h
      exact hsame rfl
  | cancelJob id clientId now =>
      simp only [Commit.apply] at h
      split at h
      · cases h
        exact hsame rfl
      · cases h
  | retryJob id clientId now =>
      simp only [Commit.apply] at h
      split at h
      · cases h
        exact hsame rfl
      · cases h
  | recoverInterruptedJobs now =>
      obtain rfl := eq_of_changed h
      exact hsame rfl
  | insertClient id name kind origin tokenHash expiresAt now =>
      exact hsame (Database.insertClient_onlyClients (eq_ok_of_toOption h)).pairingCodes
  | rotateClientToken id tokenHash expiresAt =>
      exact hsame (Database.rotateClientToken_onlyClients (eq_ok_of_toOption h)).pairingCodes
  | rotateOrInsertStableBrowserClient newId stableKey name origin tokenHash expiresAt now =>
      obtain ⟨⟨db'', id⟩, hrotate, rfl⟩ := Option.map_eq_some_iff.mp h
      have hrotate := eq_ok_of_toOption hrotate
      exact hsame (Database.rotateOrInsertStableBrowserClient_onlyClients hrotate).pairingCodes
  | revokeClient id now =>
      exact hsame (Database.revokeClient_onlyClients (eq_ok_of_toOption h)).pairingCodes
  | insertPairingCode codeHash origin name expiresAt instanceSession reuseClient now =>
      obtain ⟨hne, hearly⟩ := hspares
      rw [Database.insertPairingCode_ok (eq_ok_of_toOption h), if_neg (Ne.symm hne), hr]
      -- the purge takes used and expired codes only
      rw [Option.filter_some, if_pos]
      simp [hunused, hearly]
  | consumePairingCode codeHash origin now instanceSession =>
      have hne : hash ≠ codeHash := Ne.symm hspares
      obtain ⟨record, hrecord, rfl⟩ := Option.map_eq_some_iff.mp h
      cases hrow : db.redeemableCode? codeHash origin now instanceSession with
      | none =>
          rw [Database.consumePairingCode_of_none hrow] at hrecord
          cases hrecord
      | some r' =>
          obtain ⟨db', hconsume, hall⟩ := Database.consumePairingCode_of_some hrow
          rw [hconsume]
          show db'.pairingCode? hash = some r
          rw [hall, if_neg hne]
          exact hr

/-! ## The two calls as transactions -/

/-- `consume_pairing_code` over the state it sees: it writes when its select finds
    a row. -/
def consumeBody (codeHash origin : String) (now : Int) (instanceSession : String)
    (db : Database) : Option Database × Option PairingRecord :=
  match db.consumePairingCode codeHash origin now instanceSession with
  | (_, none) => (none, none)
  | (db', some record) => (some db', some record)

/-- `rotate_or_insert_stable_browser_client` over the state it sees: it writes
    unless it fails. -/
def rotateBody (newId stableKey name origin tokenHash : String) (expiresAt now : Int)
    (db : Database) : Option Database × Except DbError String :=
  match db.rotateOrInsertStableBrowserClient newId stableKey name origin tokenHash expiresAt
      now with
  | .error error => (none, .error error)
  | .ok (db', id) => (some db', .ok id)

/-- The steps of `consume_pairing_code` among the commits of others. -/
def consumeStep (codeHash origin : String) (now : Int) (instanceSession : String)
    (s : Store Database (Option PairingRecord)) (e : Event Commit) :
    Store Database (Option PairingRecord) × List (Outcome (Option PairingRecord)) :=
  s.step Commit.apply .deferred (consumeBody codeHash origin now instanceSession) e

/-- The steps of `rotate_or_insert_stable_browser_client` among the commits of
    others. -/
def rotateStep (newId stableKey name origin tokenHash : String) (expiresAt now : Int)
    (s : Store Database (Except DbError String)) (e : Event Commit) :
    Store Database (Except DbError String) × List (Outcome (Except DbError String)) :=
  s.step Commit.apply .immediate
    (rotateBody newId stableKey name origin tokenHash expiresAt now) e

/-- The row of a code that the call could redeem at once is there. -/
theorem consumeBody_of_row {codeHash origin : String} {now : Int} {instanceSession : String}
    {r : PairingRow}
    (hredeemable : Database.redeemable codeHash origin now instanceSession r = true)
    {db : Database} (hr : db.pairingCode? codeHash = some r) :
    ∃ db', consumeBody codeHash origin now instanceSession db =
        (some db', some ⟨r.origin, r.name, r.reuseClient⟩) ∧
      db'.pairingCode? codeHash = some { r with consumedAt := some now } := by
  have hrow : db.redeemableCode? codeHash origin now instanceSession = some r := by
    rw [Database.redeemableCode?, hr, Option.filter_some, if_pos hredeemable]
  obtain ⟨db', hconsume, hall⟩ := Database.consumePairingCode_of_some hrow
  refine ⟨db', ?_, (hall codeHash).trans (if_pos rfl)⟩
  unfold consumeBody
  rw [hconsume]

/-- **When a redemption is defeated.**  For a code that can be redeemed and every
    order of its steps and the commits that spare the code, the call returns within
    three turns; it returns the record and marks the code used exactly when no change
    was committed between its select and its update, and nobody else had the lock
    when the update came. -/
theorem consumePairingCode_undefeated_iff (db : Database) (codeHash origin : String) (now : Int)
    (instanceSession : String) (r : PairingRow)
    (hcode : db.redeemableCode? codeHash origin now instanceSession = some r)
    (es : List (Event Commit)) (hes : ∀ c, .commit c ∈ es → c.Spares codeHash r.expiresAt) :
    let step := consumeStep codeHash origin now instanceSession
    let s := run step (.ofState db) es
    (∀ outcome, (step s .turn).2 = [outcome] →
      ((outcome = .returned (some ⟨r.origin, r.name, r.reuseClient⟩) ∧
        (step s .turn).1.db.pairingCode? codeHash = some { r with consumedAt := some now }) ↔
        Along step (Undisturbed Commit.apply) (.ofState db) (es ++ [.turn]))) ∧
    ((∀ outcome, s.phase ≠ .done outcome) →
      ∃ outcome, trace step s (List.replicate 3 .turn) = [outcome]) := by
  intro step s
  obtain ⟨hrow, hredeemable⟩ := Option.filter_eq_some_iff.mp hcode
  have hunused : r.consumedAt = none := by
    simp only [Database.redeemable, decide_eq_true_eq] at hredeemable
    exact hredeemable.2.2.2.1
  have hwrites : ∀ d : Database, d.pairingCode? codeHash = some r →
      (consumeBody codeHash origin now instanceSession d).1.isSome = true := by
    intro d hd
    obtain ⟨db', hbody, -⟩ := consumeBody_of_row hredeemable hd
    rw [hbody]
    rfl
  refine ⟨fun outcome hreturn => ?_, fun hopen => deferred_returns hopen⟩
  obtain ⟨hcalm, hloud⟩ := deferred_outcome hwrites hrow
    (fun c hc d d' hd happly => Commit.apply_pairingCode? (hes c hc) hunused hd happly) hreturn
  constructor
  · rintro ⟨rfl, -⟩
    by_contra hdisturbed
    cases (hloud hdisturbed).1
  · intro hundisturbed
    obtain ⟨d, next, hd, hbody, rfl, hnext⟩ := hcalm hundisturbed
    obtain ⟨db', hbody', hused⟩ := consumeBody_of_row hredeemable hd
    rw [hbody'] at hbody ⊢
    obtain rfl : db' = next := by simpa using hbody
    refine ⟨rfl, ?_⟩
    have hnext : (step s .turn).1.db = db' := hnext
    rw [hnext]
    exact hused

/-- The stable rotation is not defeated: it returns what it makes of the latest
    state, in every order of its steps and the commits of others. -/
theorem rotateOrInsertStableBrowserClient_undefeated (db : Database)
    (newId stableKey name origin tokenHash : String) (expiresAt now : Int)
    (es : List (Event Commit)) :
    let step := rotateStep newId stableKey name origin tokenHash expiresAt now
    let s := run step (.ofState db) es
    ∀ outcome, (step s .turn).2 = [outcome] →
      outcome =
        .returned (rotateBody newId stableKey name origin tokenHash expiresAt now s.db).2 := by
  intro step s outcome hreturn
  exact (immediate_outcome (P := fun _ => True) trivial (fun _ _ _ _ _ _ => trivial) hreturn).2.1

/-! ## A redemption that is defeated -/

/-- A grant of `https://example.com` that runs until 300. -/
def contendedCode : PairingRow :=
  ⟨"0d6f91ce4b7593aa327bc5c393478b1ec5efc31cbcb787ec9dc892d28ffbf1da", "https://example.com",
    "Demo", 300, none, none, false⟩

/-- The example client's token is replaced after the select and before the
    update. -/
def contendedRun : List (Event Commit) :=
  [.turn, .acquire,
    .commit (.rotateClientToken exampleClient.id
      "328cd9c993e1a2356f2d81ecf7b82a7a05b94c75ac887a088dd203ac75869f30" 5184100)]

/-- The example client, and the code. -/
def contendedDatabase : Database :=
  { exampleDatabase with pairingCodes := ⟨[contendedCode], by simp⟩ }

/-- Others write before the select, and give up between it and the update. -/
def calmRun : List (Event Commit) :=
  [.acquire, .commit (.revokeClient exampleClient.id 9), .turn, .acquire, .rollback, .turn]

theorem consumePairingCode_undefeated_of_calm :
    let step := consumeStep contendedCode.codeHash contendedCode.origin 10 "s"
    let s := run step (.ofState contendedDatabase) calmRun
    (step s .turn).1.db.pairingCode? contendedCode.codeHash =
      some { contendedCode with consumedAt := some 10 } := by
  intro step s
  obtain ⟨houtcome, -⟩ := consumePairingCode_undefeated_iff contendedDatabase
    contendedCode.codeHash contendedCode.origin 10 "s" contendedCode (by decide) calmRun (by
      intro c hc
      obtain rfl : c = .revokeClient exampleClient.id 9 := by simpa [calmRun] using hc
      trivial)
  have hidle : ¬ (run step (.ofState contendedDatabase) [.acquire]).isReading :=
    fun ⟨_, _, hread⟩ => nomatch hread
  have hquiet : Along step (Undisturbed Commit.apply) (.ofState contendedDatabase)
      (calmRun ++ [.turn]) :=
    along_cons.mpr ⟨nofun, along_cons.mpr ⟨fun _ => hidle,
      along_cons.mpr ⟨nofun, along_cons.mpr ⟨nofun, along_cons.mpr ⟨nofun,
        along_cons.mpr ⟨nofun, along_cons.mpr ⟨nofun, along_nil⟩⟩⟩⟩⟩⟩⟩
  exact ((houtcome (.returned (some ⟨"https://example.com", "Demo", false⟩)) (by decide)).mpr
    hquiet).2

/-- An update that comes while another connection has the lock is refused, though
    that connection changes nothing. -/
example :
    let step := consumeStep contendedCode.codeHash contendedCode.origin 10 "s"
    trace step (.ofState contendedDatabase) [.turn, .acquire, .turn, .rollback] = [.busy] := by
  decide

/-- The commit has nothing to do with the code, and the call is busy: no record is
    returned and the code is not used. -/
theorem consumePairingCode_defeated :
    let step := consumeStep contendedCode.codeHash contendedCode.origin 10 "s"
    let s := run step (.ofState contendedDatabase) contendedRun
    contendedDatabase.redeemableCode? contendedCode.codeHash contendedCode.origin 10 "s" =
        some contendedCode ∧
      (∀ c, .commit c ∈ contendedRun → c.Spares contendedCode.codeHash contendedCode.expiresAt) ∧
      (step s .turn).2 = [.busy] ∧
      (step s .turn).1.db.pairingCode? contendedCode.codeHash = some contendedCode := by
  refine ⟨by decide, ?_, by decide, by decide⟩
  intro c hc
  simp only [contendedRun, List.mem_cons, reduceCtorEq, Event.commit.injEq, List.not_mem_nil,
    or_false, false_or] at hc
  rw [hc]
  trivial

end PrintLatch
