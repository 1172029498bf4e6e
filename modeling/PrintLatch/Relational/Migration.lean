/-
  PrintLatch.Relational.Migration

  Several processes that run the same schema script at once.

  Statements are atomic, and one process's statements come in the script's order;
  nothing else is ordered.  `aloneUpTo script c m` is the catalog after the first
  `m` statements of one process alone.  `RaceKept` says that a race never leaves
  these catalogs: the catalog is the one after as many statements as the process
  that is furthest has run.  A process behind it finds its work done, so it can only
  fail where it adds a column that it did not find when it looked (`Late`).
-/

import PrintLatch.Reactive.Machine
import PrintLatch.Relational.Catalog
import Mathlib.Logic.Function.Basic

namespace Relational

open Reactive

/-! ## One process alone -/

/-- What the check before a statement finds, when nothing comes in between. -/
def Statement.found (c : Catalog) : Statement → Bool
  | .addColumn table column => c.has table column.name
  | _ => false

/-- A statement of a process alone. -/
def Statement.alone (st : Statement) (c : Catalog) : Option Catalog :=
  (st.exec (st.found c) c).map Prod.fst

/-- The catalog after the first `m` statements of a process alone. -/
def aloneUpTo (script : List Statement) (c : Catalog) (m : Nat) : Option Catalog :=
  (script.take m).foldlM (fun c st => st.alone c) c

/-- Every `ALTER` of the script follows the check for its column. -/
def Checked (script : List Statement) : Prop :=
  ∀ k table column, script[k]? = some (.addColumn table column) →
    ∃ j, k = j + 1 ∧ script[j]? = some (.checkColumn table column.name)

variable {script : List Statement} {c₀ : Catalog}

theorem aloneUpTo_succ {m : Nat} {st : Statement} (hst : script[m]? = some st) :
    aloneUpTo script c₀ (m + 1) = (aloneUpTo script c₀ m).bind st.alone := by
  unfold aloneUpTo
  rw [List.take_add_one, hst, List.foldlM_append]
  cases (script.take m).foldlM (fun c st => st.alone c) c₀ <;> simp

/-- Where a process alone gets, it gets to every earlier statement. -/
theorem aloneUpTo_of_le {m m' : Nat} {b : Catalog} (hle : m ≤ m')
    (h : aloneUpTo script c₀ m' = some b) (hlen : m' ≤ script.length) :
    ∃ a, aloneUpTo script c₀ m = some a ∧ a.Extends script b := by
  induction m' generalizing b with
  | zero =>
      obtain rfl : m = 0 := by omega
      exact ⟨b, h, .refl script b⟩
  | succ m' ih =>
      by_cases heq : m = m' + 1
      · rw [heq]
        exact ⟨b, h, .refl script b⟩
      · have hst : script[m']? = some script[m'] := List.getElem?_eq_getElem (by omega)
        rw [aloneUpTo_succ hst] at h
        obtain ⟨b', hb', halone⟩ := Option.bind_eq_some_iff.mp h
        obtain ⟨a, ha, hext⟩ := ih (by omega) hb' (by omega)
        obtain ⟨⟨b'', found'⟩, hexec, rfl⟩ := Option.map_eq_some_iff.mp halone
        exact ⟨a, ha, hext.trans (Statement.extends_of_exec (List.getElem_mem _) hexec)⟩

/-- After `m` statements the work of the first `m` is done. -/
theorem done_of_aloneUpTo {m k : Nat} {b : Catalog} {st : Statement}
    (h : aloneUpTo script c₀ m = some b) (hlen : m ≤ script.length) (hk : k < m)
    (hst : script[k]? = some st) : st.Done b := by
  obtain ⟨a, ha, hext⟩ := aloneUpTo_of_le (m := k + 1) hk h hlen
  rw [aloneUpTo_succ hst] at ha
  obtain ⟨a', -, halone⟩ := Option.bind_eq_some_iff.mp ha
  obtain ⟨⟨a'', found'⟩, hexec, rfl⟩ := Option.map_eq_some_iff.mp halone
  refine hext.done (Statement.done_of_exec (fun table column heq hfound => ?_) hexec)
  rw [heq] at hfound
  exact hfound

/-- What a check found matters to the `ALTER` behind it only. -/
theorem Statement.exec_eq_alone {st : Statement} {c : Catalog} {found : Bool}
    (hfound : ∀ table column, st = .addColumn table column → found = c.has table column.name) :
    (st.exec found c).map Prod.fst = st.alone c := by
  unfold Statement.alone
  cases st with
  | createTable name columns =>
      simp only [Statement.exec]
      split <;> rfl
  | createIndex i =>
      simp only [Statement.exec]
      split
      · rfl
      · split
        · rfl
        · split <;> rfl
  | checkColumn table column => rfl
  | addColumn table column =>
      rw [hfound table column rfl]
      rfl

/-! ## The race -/

/-- One process: how many statements it has run, what its last check found, and
    whether it has failed. -/
structure Opening where
  pc : Nat
  found : Bool
  failed : Bool
  deriving DecidableEq, Repr

/-- The catalog and the processes. -/
structure Race where
  catalog : Catalog
  opens : Nat → Opening

/-- Before any process has begun. -/
def Race.start (c : Catalog) : Race := ⟨c, fun _ => ⟨0, false, false⟩⟩

/-- How a process ended. -/
inductive OpenObs where
  | opened (n : Nat)
  | failed (n : Nat)
  deriving DecidableEq, Repr

/-- The next statement of process `n`. -/
def raceStep (script : List Statement) (s : Race) (n : Nat) : Race × List OpenObs :=
  let o := s.opens n
  if o.failed then (s, [])
  else
    match script[o.pc]? with
    | none => (s, [])
    | some st =>
        match st.exec o.found s.catalog with
        | none => ({ s with opens := Function.update s.opens n { o with failed := true } },
            [.failed n])
        | some (c, found) =>
            (⟨c, Function.update s.opens n ⟨o.pc + 1, found, false⟩⟩,
              if o.pc + 1 = script.length then [.opened n] else [])

/-- Process `n` is about to add a column that it did not find and that is there. -/
def Late (script : List Statement) (s : Race) (n : Nat) : Prop :=
  (s.opens n).failed = false ∧ ∃ table column,
    script[(s.opens n).pc]? = some (.addColumn table column) ∧ (s.opens n).found = false ∧
      s.catalog.has table column.name = true

/-- The catalog is the one after as many statements as the furthest process has
    run, and a process about to add a column that it found finds it still. -/
structure RaceKept (script : List Statement) (c₀ : Catalog) (m : Nat) (s : Race) : Prop where
  most : m ≤ script.length
  catalog : aloneUpTo script c₀ m = some s.catalog
  behind : ∀ n, (s.opens n).pc ≤ m
  found : ∀ n table column, script[(s.opens n).pc]? = some (.addColumn table column) →
    (s.opens n).found = true → s.catalog.has table column.name = true

theorem raceKept_start (hchecked : Checked script) : RaceKept script c₀ 0 (.start c₀) := by
  refine ⟨Nat.zero_le _, rfl, fun _ => Nat.le_refl 0, fun n table column hst => ?_⟩
  obtain ⟨j, hj, -⟩ := hchecked 0 table column hst
  omega

/-- What the next statement of a process does: it fails, because it is late; it
    finds its work done; or the process is the furthest and goes on alone. -/
theorem RaceKept.exec_cases {m : Nat} {s : Race} (h : RaceKept script c₀ m s)
    (hlone : ∃ c, aloneUpTo script c₀ script.length = some c) {n : Nat} {st : Statement}
    (hst : script[(s.opens n).pc]? = some st) (hrun : (s.opens n).failed = false) :
    (st.exec (s.opens n).found s.catalog = none ∧ Late script s n) ∨
    (¬ Late script s n ∧ (s.opens n).pc < m ∧
      ∃ found', st.exec (s.opens n).found s.catalog = some (s.catalog, found')) ∨
    (¬ Late script s n ∧ (s.opens n).pc = m ∧ ∃ c' found',
      st.exec (s.opens n).found s.catalog = some (c', found') ∧
        aloneUpTo script c₀ (m + 1) = some c') := by
  by_cases hlate : Late script s n
  · refine Or.inl ⟨?_, hlate⟩
    obtain ⟨-, table, column, hadd, hfound, hhas⟩ := hlate
    obtain rfl : st = .addColumn table column := Option.some.inj (hst.symm.trans hadd)
    simp [Statement.exec, hfound, hhas]
  · right
    -- a process that is not late knows whether its column is there
    have hfound : ∀ table column, st = .addColumn table column →
        (s.opens n).found = s.catalog.has table column.name := by
      rintro table column rfl
      cases hf : (s.opens n).found with
      | true => exact (h.found n table column hst hf).symm
      | false =>
          cases hhas : s.catalog.has table column.name with
          | false => rfl
          | true => exact absurd ⟨hrun, table, column, hst, hf, hhas⟩ hlate
    rcases Nat.lt_or_eq_of_le (h.behind n) with hlt | heq
    · refine Or.inl ⟨hlate, hlt, ?_⟩
      have hdone := done_of_aloneUpTo h.catalog h.most hlt hst
      refine Statement.exec_of_done hdone fun table column hadd => ?_
      rw [hfound table column hadd]
      rw [hadd] at hdone
      exact hdone
    · refine Or.inr ⟨hlate, heq, ?_⟩
      have hlen : m < script.length := by
        rw [← heq]
        exact (List.getElem?_eq_some_iff.mp hst).1
      obtain ⟨c, hc⟩ := hlone
      obtain ⟨c', hc', -⟩ := aloneUpTo_of_le (m := m + 1) hlen hc (Nat.le_refl _)
      have halone := hc'
      rw [aloneUpTo_succ (heq ▸ hst), h.catalog, Option.bind_some,
        ← Statement.exec_eq_alone hfound] at halone
      obtain ⟨⟨c'', found'⟩, hexec, rfl⟩ := Option.map_eq_some_iff.mp halone
      exact ⟨c'', found', hexec, hc'⟩

/-- A statement that succeeds keeps the catalogs of a process alone. -/
theorem RaceKept.advance {m m' : Nat} {s : Race} (h : RaceKept script c₀ m s)
    (hchecked : Checked script) {n : Nat} {st : Statement}
    (hst : script[(s.opens n).pc]? = some st) {c' : Catalog} {found' : Bool}
    (hexec : st.exec (s.opens n).found s.catalog = some (c', found')) (hmost : m' ≤ script.length)
    (hcatalog : aloneUpTo script c₀ m' = some c') (hle : m ≤ m') (hpc : (s.opens n).pc < m') :
    RaceKept script c₀ m'
      ⟨c', Function.update s.opens n ⟨(s.opens n).pc + 1, found', false⟩⟩ := by
  have hext : s.catalog.Extends script c' :=
    Statement.extends_of_exec (List.mem_of_getElem? hst) hexec
  refine ⟨hmost, hcatalog, fun n' => ?_, fun n' table column hadd hfound => ?_⟩
  · by_cases hn : n' = n
    · subst hn
      simp only [Function.update_self]
      omega
    · simp only [Function.update_of_ne hn]
      exact Nat.le_trans (h.behind n') hle
  · by_cases hn : n' = n
    · subst hn
      simp only [Function.update_self] at hadd hfound
      -- the statement was the check for this column
      obtain ⟨j, hj, hcheck⟩ := hchecked _ table column hadd
      obtain rfl : (s.opens n').pc = j := by omega
      obtain rfl : st = .checkColumn table column.name := Option.some.inj (hst.symm.trans hcheck)
      cases hexec
      exact hfound
    · simp only [Function.update_of_ne hn] at hadd hfound
      exact hext.has (h.found n' table column hadd hfound)

/-- **One step of a race.**  It keeps the catalogs of a process alone, and it fails
    exactly when the process is late. -/
theorem RaceKept.step {m : Nat} {s : Race} (h : RaceKept script c₀ m s)
    (hchecked : Checked script) (hlone : ∃ c, aloneUpTo script c₀ script.length = some c)
    (n : Nat) :
    (∃ m', m ≤ m' ∧ RaceKept script c₀ m' (raceStep script s n).1) ∧
      ((∀ n', .failed n' ∉ (raceStep script s n).2) ↔ ¬ Late script s n) := by
  have hstay : ¬ Late script s n → raceStep script s n = (s, []) →
      (∃ m', m ≤ m' ∧ RaceKept script c₀ m' (raceStep script s n).1) ∧
        ((∀ n', .failed n' ∉ (raceStep script s n).2) ↔ ¬ Late script s n) := by
    intro hlate heq
    rw [heq]
    exact ⟨⟨m, Nat.le_refl m, h⟩, by simp [hlate]⟩
  cases hrun : (s.opens n).failed with
  | true =>
      refine hstay (fun hlate => ?_) (by simp [raceStep, hrun])
      obtain ⟨hrunning, -⟩ := hlate
      rw [hrun] at hrunning
      cases hrunning
  | false =>
      cases hst : script[(s.opens n).pc]? with
      | none =>
          refine hstay (fun hlate => ?_) (by simp [raceStep, hrun, hst])
          obtain ⟨-, table, column, hadd, -⟩ := hlate
          rw [hst] at hadd
          cases hadd
      | some st =>
          rcases h.exec_cases hlone hst hrun with
            ⟨hexec, hlate⟩ | ⟨hlate, hlt, found', hexec⟩ | ⟨hlate, heq, c', found', hexec, hnext⟩
          · -- the process stops where it is
            have hstep : raceStep script s n =
                ({ s with opens := Function.update s.opens n { s.opens n with failed := true } },
                  [.failed n]) := by simp [raceStep, hrun, hst, hexec]
            rw [hstep]
            have hpc : ∀ n', (Function.update s.opens n { s.opens n with failed := true } n').pc =
                (s.opens n').pc ∧
                (Function.update s.opens n { s.opens n with failed := true } n').found =
                  (s.opens n').found := by
              intro n'
              by_cases hn : n' = n
              · subst hn
                simp
              · simp [Function.update_of_ne hn]
            refine ⟨⟨m, Nat.le_refl m, h.most, h.catalog, fun n' => ?_,
              fun n' table column hadd hfound => ?_⟩, iff_of_false (by simp) (not_not.mpr hlate)⟩
            · show (Function.update s.opens n _ n').pc ≤ m
              rw [(hpc n').1]
              exact h.behind n'
            · have hadd : script[(Function.update s.opens n
                { s.opens n with failed := true } n').pc]? = _ := hadd
              have hfound : (Function.update s.opens n
                { s.opens n with failed := true } n').found = true := hfound
              rw [(hpc n').1] at hadd
              rw [(hpc n').2] at hfound
              exact h.found n' table column hadd hfound
          · have hstep : raceStep script s n = (⟨s.catalog, Function.update s.opens n
                ⟨(s.opens n).pc + 1, found', false⟩⟩,
                if (s.opens n).pc + 1 = script.length then [.opened n] else []) := by
              simp [raceStep, hrun, hst, hexec]
            rw [hstep]
            refine ⟨⟨m, Nat.le_refl m, h.advance hchecked hst hexec h.most h.catalog
              (Nat.le_refl m) hlt⟩, ?_⟩
            split <;> simp [hlate]
          · have hstep : raceStep script s n = (⟨c', Function.update s.opens n
                ⟨(s.opens n).pc + 1, found', false⟩⟩,
                if (s.opens n).pc + 1 = script.length then [.opened n] else []) := by
              simp [raceStep, hrun, hst, hexec]
            have hlen : (s.opens n).pc < script.length := (List.getElem?_eq_some_iff.mp hst).1
            rw [hstep]
            refine ⟨⟨m + 1, Nat.le_succ m, h.advance hchecked hst hexec (by omega) hnext
              (Nat.le_succ m) (by omega)⟩, ?_⟩
            split <;> simp [hlate]

/-! ## Runs -/

theorem raceKept_run (hchecked : Checked script)
    (hlone : ∃ c, aloneUpTo script c₀ script.length = some c) (is : List Nat) :
    ∃ m, RaceKept script c₀ m (run (raceStep script) (.start c₀) is) :=
  run_invariant (fun _ s => ∃ m, RaceKept script c₀ m s) ⟨0, raceKept_start hchecked⟩
    (fun _ _ n ⟨_, h⟩ => ((h.step hchecked hlone n).1).imp fun _ h' => h'.2) is

/-- No process fails exactly when none is ever late. -/
theorem not_failed_iff (hchecked : Checked script)
    (hlone : ∃ c, aloneUpTo script c₀ script.length = some c) (is : List Nat) :
    (∀ n, .failed n ∉ trace (raceStep script) (.start c₀) is) ↔
      Along (raceStep script) (fun _ s n => ¬ Late script s n) (.start c₀) is := by
  induction is using List.reverseRecOn with
  | nil => simp
  | append_singleton is i ih =>
      obtain ⟨m, hkept⟩ := raceKept_run hchecked hlone is
      have hstep := (hkept.step hchecked hlone i).2
      rw [along_concat, trace_concat, ← ih, ← hstep, ← forall_and]
      refine forall_congr' fun n => ?_
      rw [List.mem_append, not_or]

/-- What the history says of one process. -/
structure Tracked (script : List Statement) (is : List Nat) (tr : List OpenObs) (n : Nat)
    (o : Opening) : Prop where
  turns : o.failed = false → o.pc = min (is.count n) script.length
  failed : o.failed = true → .failed n ∈ tr
  opened : .opened n ∈ tr ↔ o.pc = script.length

/-- What is about other processes leaves a process tracked. -/
theorem Tracked.other {is : List Nat} {tr obs : List OpenObs} {n i : Nat} {o : Opening}
    (h : Tracked script is tr n o) (hn : n ≠ i) (hobs : ∀ b ∈ obs, b = .opened i ∨ b = .failed i) :
    Tracked script (is ++ [i]) (tr ++ obs) n o := by
  have hopened : .opened n ∉ obs := fun hmem => by
    rcases hobs _ hmem with heq | heq
    · exact hn (OpenObs.opened.inj heq)
    · cases heq
  refine ⟨fun hrun => ?_, fun hfail => List.mem_append_left _ (h.failed hfail), ?_⟩
  · rw [List.count_append, List.count_singleton, h.turns hrun]
    simp [Ne.symm hn]
  · rw [List.mem_append, or_iff_left hopened]
    exact h.opened

theorem Tracked.step {is : List Nat} {tr : List OpenObs} {s : Race}
    (h : ∀ n, Tracked script is tr n (s.opens n)) (i n : Nat) :
    Tracked script (is ++ [i]) (tr ++ (raceStep script s i).2) n
      ((raceStep script s i).1.opens n) := by
  have hobs : ∀ b ∈ (raceStep script s i).2, b = .opened i ∨ b = .failed i := by
    intro b hb
    simp only [raceStep] at hb
    split at hb
    · cases hb
    · split at hb
      · cases hb
      · split at hb
        · exact Or.inr (List.mem_singleton.mp hb)
        · split at hb
          · exact Or.inl (List.mem_singleton.mp hb)
          · cases hb
  by_cases hn : n = i
  · subst hn
    have hn := h n
    have hcount : (is ++ [n]).count n = is.count n + 1 := by simp
    simp only [raceStep]
    cases hrun : (s.opens n).failed with
    | true =>
        simp only [if_true, List.append_nil]
        refine ⟨fun hfalse => ?_, hn.failed, hn.opened⟩
        rw [hrun] at hfalse
        cases hfalse
    | false =>
        have hpc := hn.turns hrun
        simp only [Bool.false_eq_true, if_false]
        cases hst : script[(s.opens n).pc]? with
        | none =>
            have hend := List.getElem?_eq_none_iff.mp hst
            simp only [List.append_nil]
            refine ⟨fun _ => ?_, hn.failed, hn.opened⟩
            rw [hcount]
            omega
        | some st =>
            have hlt : (s.opens n).pc < script.length := (List.getElem?_eq_some_iff.mp hst).1
            have hnot : .opened n ∉ tr := fun hmem => by
              have := hn.opened.mp hmem
              omega
            dsimp only
            cases st.exec (s.opens n).found s.catalog with
            | none =>
                simp only [Function.update_self]
                refine ⟨nofun, fun _ => by simp, ?_⟩
                simp [hnot]
                omega
            | some result =>
                obtain ⟨c, found⟩ := result
                simp only [Function.update_self]
                refine ⟨fun _ => ?_, nofun, ?_⟩
                · rw [hcount]
                  show (s.opens n).pc + 1 = _
                  omega
                · show _ ↔ (s.opens n).pc + 1 = script.length
                  rw [List.mem_append, or_iff_right hnot]
                  split
                  · next heq => simp [heq]
                  · next hne => simp [hne]
  · have hsame : (raceStep script s i).1.opens n = s.opens n := by
      simp only [raceStep]
      split
      · rfl
      · split
        · rfl
        · split <;> exact Function.update_of_ne hn _ _
    rw [hsame]
    exact (h n).other hn hobs

theorem tracked_run (hscript : script ≠ []) (is : List Nat) (n : Nat) :
    Tracked script is (trace (raceStep script) (.start c₀) is) n
      ((run (raceStep script) (.start c₀) is).opens n) := by
  induction is using List.reverseRecOn generalizing n with
  | nil =>
      have hpos := List.length_pos_iff.mpr hscript
      refine ⟨fun _ => ?_, nofun, ?_⟩
      · simp [Race.start]
      · simp only [trace_nil, List.not_mem_nil, false_iff]
        show 0 ≠ script.length
        omega
  | append_singleton is i ih =>
      rw [run_concat, trace_concat]
      exact Tracked.step ih i n

/-- A process alone runs the script. -/
theorem run_alone (hchecked : Checked script)
    (hlone : ∃ c, aloneUpTo script c₀ script.length = some c) (n : Nat) {j : Nat}
    (hj : j ≤ script.length) :
    let s := run (raceStep script) (.start c₀) (List.replicate j n)
    (s.opens n).pc = j ∧ (s.opens n).failed = false ∧ aloneUpTo script c₀ j = some s.catalog ∧
      ∀ table column, script[j]? = some (.addColumn table column) →
        (s.opens n).found = s.catalog.has table column.name := by
  induction j with
  | zero =>
      refine ⟨rfl, rfl, rfl, fun table column hst => ?_⟩
      obtain ⟨j, hj, -⟩ := hchecked 0 table column hst
      omega
  | succ j ih =>
      obtain ⟨hpc, hrun, hcatalog, hfound⟩ := ih (by omega)
      intro s
      have hs : s = (raceStep script (run (raceStep script) (.start c₀) (List.replicate j n))
          n).1 := by
        show run _ _ (List.replicate (j + 1) n) = _
        rw [List.replicate_succ', run_concat]
      generalize run (raceStep script) (.start c₀) (List.replicate j n) = s' at *
      have hst : script[j]? = some script[j] := List.getElem?_eq_getElem (by omega)
      obtain ⟨c, hc⟩ := hlone
      obtain ⟨c', hc', -⟩ := aloneUpTo_of_le (m := j + 1) hj hc (Nat.le_refl _)
      have hsame : (script[j].exec (s'.opens n).found s'.catalog).map Prod.fst =
          script[j].alone s'.catalog := Statement.exec_eq_alone fun table column heq =>
        hfound table column (by rw [hst, heq])
      have halone := hc'
      rw [aloneUpTo_succ hst, hcatalog, Option.bind_some, ← hsame] at halone
      obtain ⟨⟨c'', found'⟩, hexec, rfl⟩ := Option.map_eq_some_iff.mp halone
      have hstep : s = ⟨c'', Function.update s'.opens n ⟨j + 1, found', false⟩⟩ := by
        rw [hs]
        simp only [raceStep, hrun, hpc, hst, hexec]
        rfl
      rw [hstep]
      simp only [Function.update_self]
      refine ⟨trivial, trivial, hc', fun table column hadd => ?_⟩
      -- the statement before an `ALTER` is its check
      obtain ⟨k, hk, hcheck⟩ := hchecked _ table column hadd
      obtain rfl : j = k := by omega
      obtain heq : script[j] = .checkColumn table column.name :=
        Option.some.inj (hst.symm.trans hcheck)
      rw [heq] at hexec
      cases hexec
      rfl

/-- **Races that end well.**  No process fails exactly when none is late; a process
    that does not fail and has its turns ends; and once one has ended, the catalog
    is the one that a process leaves alone. -/
theorem race_ends_well (hscript : script ≠ []) (hchecked : Checked script)
    (hlone : ∃ c, aloneUpTo script c₀ script.length = some c) (is : List Nat) :
    let s := run (raceStep script) (.start c₀) is
    let tr := trace (raceStep script) (.start c₀) is
    ((∀ n, .failed n ∉ tr) ↔
      Along (raceStep script) (fun _ s n => ¬ Late script s n) (.start c₀) is) ∧
    (∀ n, .failed n ∉ tr → script.length ≤ is.count n → .opened n ∈ tr) ∧
    (∀ n n', .opened n ∈ tr → s.catalog =
      (run (raceStep script) (.start c₀) (List.replicate script.length n')).catalog) ∧
    c₀.Extends script s.catalog ∧
    (∀ n, .opened n ∈ tr → ∀ st ∈ script, st.Done s.catalog) := by
  intro s tr
  obtain ⟨m, hkept⟩ := raceKept_run hchecked hlone is
  have hend : ∀ n, .opened n ∈ tr → m = script.length := by
    intro n hopened
    have hpc := (tracked_run hscript is n).opened.mp hopened
    have := hkept.behind n
    have := hkept.most
    omega
  have hcatalog : aloneUpTo script c₀ m = some s.catalog := hkept.catalog
  refine ⟨not_failed_iff hchecked hlone is, fun n hnot hcount => ?_, fun n n' hopened => ?_, ?_,
    fun n hopened st hst => ?_⟩
  · have htracked : Tracked script is tr n (s.opens n) := tracked_run hscript is n
    cases hrun : (s.opens n).failed with
    | true => exact absurd (htracked.failed hrun) hnot
    | false =>
        have hpc := htracked.turns hrun
        exact htracked.opened.mpr (by omega)
  · obtain ⟨-, -, halone, -⟩ := run_alone hchecked hlone n' (Nat.le_refl _)
    rw [hend n hopened, halone] at hcatalog
    exact (Option.some.inj hcatalog).symm
  · obtain ⟨a, ha, hext⟩ := aloneUpTo_of_le (m := 0) (Nat.zero_le m) hcatalog hkept.most
    obtain rfl : c₀ = a := Option.some.inj ha
    exact hext
  · obtain ⟨k, hk, rfl⟩ := List.mem_iff_getElem.mp hst
    refine done_of_aloneUpTo hcatalog hkept.most ?_ (List.getElem?_eq_getElem hk)
    rw [hend n hopened]
    exact hk

end Relational
