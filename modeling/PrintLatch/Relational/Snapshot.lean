/-
  PrintLatch.Relational.Snapshot

  One transaction among the transactions of other connections, as a write-ahead
  log orders them.

  A store has a committed state, a count of its commits and one writer's lock.

    * A *deferred* transaction takes its snapshot at its first read.  Its first
      write does not wait: it is refused as busy when another connection holds
      the lock or has committed since the snapshot.
    * An *immediate* transaction waits for the lock before it reads.

  The transactions of others are `acquire` and then `commit` or `rollback`: a
  commit that finds nothing to write leaves the count alone.  What a
  transaction does is a function of the state it sees.  `Kept` is the one
  invariant: it ties what the transaction has read to whether it was disturbed
  in between.
-/

import PrintLatch.Reactive.Machine

namespace Relational

open Reactive

variable {δ α κ : Type*}

/-- What a transaction returns: its result, or that the store is busy. -/
inductive Outcome (α : Type*) where
  | returned (a : α)
  | busy
  deriving DecidableEq, Repr

/-- When a transaction takes the writer's lock. -/
inductive Behavior where
  | deferred
  | immediate
  deriving DecidableEq, Repr

/-- Where the transaction stands: `writing` holds the lock and what it will
    commit. -/
inductive Phase (δ α : Type*) where
  | idle
  | reading (version : Nat) (snapshot : δ)
  | writing (next : Option δ) (result : α)
  | done (outcome : Outcome α)

/-- The store and the transaction. -/
structure Store (δ α : Type*) where
  db : δ
  version : Nat
  /-- Another connection holds the writer's lock. -/
  locked : Bool
  phase : Phase δ α

/-- The store before the transaction. -/
def Store.ofState (db : δ) : Store δ α := ⟨db, 0, false, .idle⟩

/-- Whose turn it is: another connection's, which may commit `c`, or the
    transaction's own. -/
inductive Event (κ : Type*) where
  | acquire
  | commit (c : κ)
  | rollback
  | turn
  deriving DecidableEq, Repr

section

variable (apply : κ → δ → Option δ) (behavior : Behavior) (body : δ → Option δ × α)

/-- What a transaction that has the lock leaves to commit. -/
def Store.begin (s : Store δ α) (snapshot : δ) : Store δ α :=
  { s with phase := .writing (body snapshot).1 (body snapshot).2 }

/-- The transaction's own next step. -/
def Store.turn (s : Store δ α) : Store δ α × List (Outcome α) :=
  match s.phase with
  | .idle =>
      match behavior with
      | .deferred => ({ s with phase := .reading s.version s.db }, [])
      | .immediate => if s.locked then (s, []) else (s.begin body s.db, [])
  | .reading version snapshot =>
      match (body snapshot).1 with
      | none => ({ s with phase := .done (.returned (body snapshot).2) },
          [.returned (body snapshot).2])
      | some _ =>
          -- who has read does not wait, or two readers could wait for each other
          if s.locked ∨ version ≠ s.version then ({ s with phase := .done .busy }, [.busy])
          else (s.begin body snapshot, [])
  | .writing none result => ({ s with phase := .done (.returned result) }, [.returned result])
  | .writing (some next) result =>
      ({ s with db := next, version := s.version + 1, phase := .done (.returned result) },
        [.returned result])
  | .done _ => (s, [])

/-- Whether the transaction holds the writer's lock. -/
def Phase.holds : Phase δ α → Bool
  | .writing _ _ => true
  | _ => false

/-- One event; an event that is not possible changes nothing. -/
def Store.step (s : Store δ α) : Event κ → Store δ α × List (Outcome α)
  | .acquire => (if s.locked ∨ s.phase.holds then s else { s with locked := true }, [])
  | .commit c =>
      if s.locked then
        match apply c s.db with
        | none => ({ s with locked := false }, [])
        | some db => ({ s with db := db, version := s.version + 1, locked := false }, [])
      else (s, [])
  | .rollback => ({ s with locked := false }, [])
  | .turn => s.turn behavior body

/-! ## What comes between a read and a write -/

/-- Another connection commits a change, or holds the lock at the transaction's own
    turn. -/
def Store.disturbedBy (s : Store δ α) : Event κ → Prop
  | .commit c => s.locked = true ∧ (apply c s.db).isSome = true
  | .turn => s.locked = true
  | _ => False

/-- The transaction has read and has not written. -/
def Store.isReading (s : Store δ α) : Prop :=
  ∃ version snapshot, s.phase = .reading version snapshot

/-- No change comes between the read and the write, and the lock is free for the
    write. -/
def Undisturbed (_ : List (Outcome α)) (s : Store δ α) (e : Event κ) : Prop :=
  s.disturbedBy apply e → ¬ s.isReading

/-- Where a deferred transaction stands when it reads a state with `P`, and
    whether it is `calm`: nothing has disturbed it. -/
def Kept (P : δ → Prop) (calm : Prop) (s : Store δ α) : Prop :=
  match s.phase with
  | .idle => calm ∧ P s.db
  | .reading version snapshot => P snapshot ∧ version ≤ s.version ∧ (calm ↔ version = s.version) ∧
      (calm → snapshot = s.db)
  | .writing next result => calm ∧ s.locked = false ∧
      ∃ snapshot, P snapshot ∧ body snapshot = (next, result)
  | .done outcome => calm ↔ outcome ≠ .busy

/-- Where an immediate transaction stands: it reads only once it has the lock, and
    commits over the state that it read. -/
def Held (P : δ → Prop) (s : Store δ α) : Prop :=
  match s.phase with
  | .idle => P s.db
  | .reading _ _ => False
  | .writing next result => s.locked = false ∧ P s.db ∧ body s.db = (next, result)
  | .done outcome => outcome ≠ .busy

variable {apply behavior body} {P : δ → Prop}

/-- The transaction's own turn is calm unless another has the lock at the write. -/
theorem Kept.turn (hwrites : ∀ d, P d → (body d).1.isSome = true) {s : Store δ α} {calm : Prop}
    (h : Kept body P calm s) :
    Kept body P (calm ∧ Undisturbed apply [] s .turn) (s.turn .deferred body).1 := by
  obtain ⟨db, version, locked, phase⟩ := s
  have hquiet : ¬ (⟨db, version, locked, phase⟩ : Store δ α).isReading →
      (calm ∧ Undisturbed apply [] (⟨db, version, locked, phase⟩ : Store δ α) .turn ↔ calm) :=
    fun hread => and_iff_left fun _ => hread
  cases phase with
  | idle =>
      rw [hquiet fun ⟨_, _, hread⟩ => nomatch hread]
      obtain ⟨hcalm, hP⟩ := h
      exact ⟨hP, Nat.le_refl _, iff_of_true hcalm rfl, fun _ => rfl⟩
  | reading v snapshot =>
      obtain ⟨hP, hle, hiff, hsame⟩ := h
      have hiff : calm ↔ v = version := hiff
      obtain ⟨next, hnext⟩ := Option.isSome_iff_exists.mp (hwrites snapshot hP)
      simp only [Store.turn, hnext]
      cases locked with
      | true =>
          -- another has the lock, and the write is refused at once
          have hloud : ¬ (calm ∧ Undisturbed apply []
              (⟨db, version, true, .reading v snapshot⟩ : Store δ α) .turn) :=
            fun hcalm => hcalm.2 rfl ⟨v, snapshot, rfl⟩
          rw [if_pos (Or.inl rfl)]
          exact iff_of_false hloud fun hbusy => hbusy rfl
      | false =>
          have hfree : Undisturbed apply []
              (⟨db, version, false, .reading v snapshot⟩ : Store δ α) .turn := nofun
          rw [and_iff_left hfree]
          -- what was read must still be the latest state
          by_cases hv : v = version
          · rw [if_neg (by simp [hv])]
            exact ⟨hiff.mpr hv, rfl, snapshot, hP, rfl⟩
          · rw [if_pos (Or.inr hv)]
            exact iff_of_false (fun hcalm => hv (hiff.mp hcalm)) fun hbusy => hbusy rfl
  | writing next result =>
      rw [hquiet fun ⟨_, _, hread⟩ => nomatch hread]
      obtain ⟨hcalm, -⟩ := h
      cases next with
      | none => exact iff_of_true hcalm nofun
      | some next => exact iff_of_true hcalm nofun
  | done outcome =>
      rw [hquiet fun ⟨_, _, hread⟩ => nomatch hread]
      exact h

/-- A commit of another connection keeps `P`; it ends the calm of a transaction
    that has read. -/
theorem Kept.commit {c : κ} (hc : ∀ d d', P d → apply c d = some d' → P d') {s : Store δ α}
    {calm : Prop} (h : Kept body P calm s) :
    Kept body P (calm ∧ Undisturbed apply [] s (.commit c))
      (s.step apply .deferred body (.commit c)).1 := by
  obtain ⟨db, version, locked, phase⟩ := s
  simp only [Store.step]
  cases locked with
  | false =>
      -- without the lock nothing can be committed
      have hno : Undisturbed apply [] (⟨db, version, false, phase⟩ : Store δ α) (.commit c) := by
        rintro ⟨hlocked, -⟩
        cases hlocked
      simpa [hno] using h
  | true =>
      cases happly : apply c db with
      | none =>
          have hno : Undisturbed apply [] (⟨db, version, true, phase⟩ : Store δ α)
              (.commit c) := by
            rintro ⟨-, hsome⟩
            rw [happly] at hsome
            cases hsome
          rw [and_iff_left hno]
          cases phase with
          | writing next result => cases h.2.1  -- then the lock is not another's
          | _ => exact h
      | some db' =>
          have hchanged : (⟨db, version, true, phase⟩ : Store δ α).disturbedBy apply
              (.commit c) := ⟨rfl, by rw [happly]; rfl⟩
          cases phase with
          | idle =>
              obtain ⟨hcalm, hP⟩ := h
              exact ⟨⟨hcalm, fun _ ⟨v, snapshot, hread⟩ => nomatch hread⟩, hc db db' hP happly⟩
          | reading v snapshot =>
              obtain ⟨hP, hle, -, -⟩ := h
              have hle : v ≤ version := hle
              have hloud : ¬ (calm ∧ Undisturbed apply []
                  (⟨db, version, true, .reading v snapshot⟩ : Store δ α) (.commit c)) :=
                fun hcalm => hcalm.2 hchanged ⟨v, snapshot, rfl⟩
              refine ⟨hP, Nat.le_succ_of_le hle, iff_of_false hloud ?_, fun h => absurd h hloud⟩
              show v ≠ version + 1
              omega
          | writing next result => cases h.2.1
          | done outcome =>
              have hquiet : Undisturbed apply [] (⟨db, version, true, .done outcome⟩ : Store δ α)
                  (.commit c) := fun _ ⟨v, snapshot, hread⟩ => nomatch hread
              simpa [hquiet, Kept] using h

theorem Kept.step (hwrites : ∀ d, P d → (body d).1.isSome = true) {s : Store δ α} {e : Event κ}
    (he : ∀ c, e = .commit c → ∀ d d', P d → apply c d = some d' → P d') {calm : Prop}
    (h : Kept body P calm s) :
    Kept body P (calm ∧ Undisturbed apply [] s e) (s.step apply .deferred body e).1 := by
  cases e with
  | commit c => exact h.commit (he c rfl)
  | turn => exact h.turn hwrites
  | acquire =>
      rw [and_iff_left (show Undisturbed apply [] s .acquire from nofun)]
      simp only [Store.step]
      split
      · exact h
      · next hfree =>
          -- only a transaction that does not write lets another take the lock
          obtain ⟨db, version, locked, phase⟩ := s
          cases phase with
          | writing next result => exact absurd (Or.inr rfl) hfree
          | _ => exact h
  | rollback =>
      rw [and_iff_left (show Undisturbed apply [] s .rollback from nofun)]
      obtain ⟨db, version, locked, phase⟩ := s
      cases phase with
      | writing next result => exact ⟨h.1, rfl, h.2.2⟩
      | _ => exact h

/-- In every run a deferred transaction is calm exactly when nothing disturbed it. -/
theorem kept_run (hwrites : ∀ d, P d → (body d).1.isSome = true) {db : δ} (hP : P db)
    {es : List (Event κ)}
    (hes : ∀ c, .commit c ∈ es → ∀ d d', P d → apply c d = some d' → P d') :
    Kept body P
      (Along (Store.step apply .deferred body) (Undisturbed apply) (.ofState db) es)
      (run (Store.step apply .deferred body) (.ofState db) es) := by
  induction es using List.reverseRecOn with
  | nil => exact ⟨along_nil, hP⟩
  | append_singleton es e ih =>
      rw [along_concat, run_concat]
      refine Kept.step hwrites (fun c he => ?_) (ih fun c hc => ?_)
      · exact hes c (List.mem_append_right _ (by rw [he]; exact List.mem_singleton_self _))
      · exact hes c (List.mem_append_left _ hc)

/-- **What a deferred transaction returns.**  It returns a result, of a state with
    `P`, exactly when nothing disturbed it up to its last turn; otherwise it is busy,
    and has changed nothing. -/
theorem deferred_outcome (hwrites : ∀ d, P d → (body d).1.isSome = true) {db : δ} (hP : P db)
    {es : List (Event κ)}
    (hes : ∀ c, .commit c ∈ es → ∀ d d', P d → apply c d = some d' → P d') {r : Outcome α}
    (hreturn : ((run (Store.step apply .deferred body) (.ofState db) es).turn .deferred body).2 =
      [r]) :
    let s := run (Store.step apply .deferred body) (.ofState db) es
    let calm := Along (Store.step apply .deferred body) (Undisturbed apply) (.ofState db)
      (es ++ [.turn])
    (calm → ∃ d next, P d ∧ body d = (some next, (body d).2) ∧ r = .returned (body d).2 ∧
        (s.turn .deferred body).1.db = next) ∧
    (¬ calm → r = .busy ∧ (s.turn .deferred body).1.db = s.db) := by
  intro s calm
  have hkept : Kept body P
      (Along (Store.step apply .deferred body) (Undisturbed apply) (.ofState db) es) s :=
    kept_run hwrites hP hes
  have hcalm : calm ↔ Along (Store.step apply .deferred body) (Undisturbed apply)
      (.ofState db) es ∧ Undisturbed apply [] s .turn := along_concat
  have hreturn : (s.turn .deferred body).2 = [r] := hreturn
  generalize Along (Store.step apply .deferred body) (Undisturbed apply) (.ofState db) es = before
    at hkept hcalm
  generalize calm = calm at hcalm ⊢
  obtain ⟨db, version, locked, phase⟩ := s
  cases phase with
  | idle => cases hreturn
  | done outcome => cases hreturn
  | reading v snapshot =>
      obtain ⟨hP, -, hiff, -⟩ := hkept
      have hiff : before ↔ v = version := hiff
      obtain ⟨next, hnext⟩ := Option.isSome_iff_exists.mp (hwrites snapshot hP)
      simp only [Store.turn, hnext] at hreturn ⊢
      -- a write that is not refused returns with the commit, not here
      by_cases hbusy : locked ∨ v ≠ version
      · have hloud : ¬ calm := by
          rw [hcalm]
          rintro ⟨hbefore, hturn⟩
          rcases hbusy with hlocked | hv
          · exact hturn hlocked ⟨v, snapshot, rfl⟩
          · exact hv (hiff.mp hbefore)
        rw [if_pos hbusy] at hreturn ⊢
        cases hreturn
        exact ⟨fun h => absurd h hloud, fun _ => ⟨rfl, rfl⟩⟩
      · rw [if_neg hbusy] at hreturn
        cases hreturn
  | writing next result =>
      obtain ⟨hbefore, -, snapshot, hP, hbody⟩ := hkept
      have hquiet : calm := hcalm.mpr ⟨hbefore, fun _ ⟨_, _, hread⟩ => nomatch hread⟩
      obtain ⟨next', hnext'⟩ := Option.isSome_iff_exists.mp (hwrites snapshot hP)
      rw [hbody] at hnext'
      obtain rfl : next = some next' := hnext'
      cases hreturn
      refine ⟨fun _ => ⟨snapshot, next', hP, ?_, ?_, rfl⟩, fun hloud => absurd hquiet hloud⟩
      · rw [hbody]
      · rw [hbody]

theorem Held.step {s : Store δ α} {e : Event κ}
    (he : ∀ c, e = .commit c → ∀ d d', P d → apply c d = some d' → P d')
    (h : Held body P s) : Held body P (s.step apply .immediate body e).1 := by
  obtain ⟨db, version, locked, phase⟩ := s
  cases e with
  | acquire =>
      simp only [Store.step]
      split
      · exact h
      · next hfree =>
          cases phase with
          | writing next result => exact absurd (Or.inr rfl) hfree
          | _ => exact h
  | rollback =>
      cases phase with
      | writing next result => exact ⟨rfl, h.2⟩
      | _ => exact h
  | commit c =>
      simp only [Store.step]
      cases locked with
      | false => exact h
      | true =>
          cases phase with
          | writing next result => cases h.1
          | reading v snapshot => exact absurd h id
          | idle =>
              cases happly : apply c db with
              | none => exact h
              | some db' => exact he c rfl db db' h happly
          | done outcome =>
              cases apply c db with
              | none => exact h
              | some db' => exact h
  | turn =>
      simp only [Store.step, Store.turn]
      cases phase with
      | idle =>
          cases locked with
          | true => exact h
          | false => exact ⟨rfl, h, rfl⟩
      | reading v snapshot => exact absurd h id
      | writing next result => cases next <;> exact nofun
      | done outcome => exact h

/-- **What an immediate transaction returns**: the result of the latest state,
    whatever others commit. -/
theorem immediate_outcome {db : δ} (hP : P db) {es : List (Event κ)}
    (hes : ∀ c, .commit c ∈ es → ∀ d d', P d → apply c d = some d' → P d') {r : Outcome α}
    (hreturn : ((run (Store.step apply .immediate body) (.ofState db) es).turn .immediate
      body).2 = [r]) :
    let s := run (Store.step apply .immediate body) (.ofState db) es
    P s.db ∧ r = .returned (body s.db).2 ∧
      (s.turn .immediate body).1.db = (body s.db).1.getD s.db := by
  intro s
  have hheld : Held body P s := by
    have hspared : Along (Store.step apply .immediate body) (fun _ _ e => ∀ c, e = .commit c →
        ∀ d d', P d → apply c d = some d' → P d') (.ofState db) es := by
      rw [along_input_iff]
      rintro e he c rfl
      exact hes c he
    have hstart : Held body P (.ofState db) := hP
    exact run_history_invariant (fun _ (s : Store δ α) => Held body P s) hstart
      (fun _ s e he h => h.step he) hspared
  have hreturn : (s.turn .immediate body).2 = [r] := hreturn
  obtain ⟨db, version, locked, phase⟩ := s
  cases phase with
  | idle => cases locked <;> cases hreturn
  | reading v snapshot => exact absurd hheld id
  | done outcome => cases hreturn
  | writing next result =>
      obtain ⟨-, hP, hbody⟩ := hheld
      have hbody : body db = (next, result) := hbody
      refine ⟨hP, ?_⟩
      show r = .returned (body db).2 ∧ _ = (body db).1.getD db
      rw [hbody]
      cases next <;> cases hreturn <;> exact ⟨rfl, rfl⟩

/-! ## Turns -/

theorem trace_turns_done {s : Store δ α} {outcome : Outcome α} (h : s.phase = .done outcome)
    (n : Nat) : trace (Store.step apply behavior body) s (List.replicate n .turn) = [] := by
  induction n with
  | zero => rfl
  | succ n ih =>
      have hstay : s.turn behavior body = (s, []) := by
        unfold Store.turn
        rw [h]
      rw [List.replicate_succ, trace_cons]
      simp only [Store.step, hstay, List.nil_append]
      exact ih

theorem trace_turns_writing {s : Store δ α} {next : Option δ} {result : α}
    (h : s.phase = .writing next result) (n : Nat) :
    ∃ r, trace (Store.step apply behavior body) s (List.replicate (n + 1) .turn) = [r] := by
  rw [List.replicate_succ, trace_cons]
  refine ⟨.returned result, ?_⟩
  cases next with
  | none =>
      simp only [Store.step, Store.turn, h]
      rw [trace_turns_done rfl]
      rfl
  | some next =>
      simp only [Store.step, Store.turn, h]
      rw [trace_turns_done rfl]
      rfl

theorem trace_turns_reading {s : Store δ α} {v : Nat} {snapshot : δ}
    (h : s.phase = .reading v snapshot) (n : Nat) :
    ∃ r, trace (Store.step apply behavior body) s (List.replicate (n + 2) .turn) = [r] := by
  rw [List.replicate_succ, trace_cons]
  cases hnext : (body snapshot).1 with
  | none =>
      simp only [Store.step, Store.turn, h, hnext]
      rw [trace_turns_done rfl]
      exact ⟨_, rfl⟩
  | some next =>
      simp only [Store.step, Store.turn, h, hnext]
      split
      · rw [trace_turns_done rfl]
        exact ⟨_, rfl⟩
      · exact trace_turns_writing rfl n

/-- Three turns of its own end a deferred transaction, whoever holds the lock. -/
theorem deferred_returns {s : Store δ α} (hopen : ∀ outcome, s.phase ≠ .done outcome) :
    ∃ r, trace (Store.step apply .deferred body) s (List.replicate 3 .turn) = [r] := by
  cases hphase : s.phase with
  | idle =>
      rw [List.replicate_succ, trace_cons]
      simp only [Store.step, Store.turn, hphase, List.nil_append]
      exact trace_turns_reading (s := { s with phase := .reading s.version s.db }) rfl 0
  | reading v snapshot => exact trace_turns_reading hphase 1
  | writing next result => exact trace_turns_writing hphase 2
  | done outcome => exact absurd hphase (hopen outcome)

end

end Relational
