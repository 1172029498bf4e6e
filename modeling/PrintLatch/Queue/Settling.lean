/-
  PrintLatch.Queue.Settling

  The record of a job comes to rest.

  Every statement that changes a job moves it on: a claim begins one of at most three
  attempts, an end is reached once for each, and only a retry puts the job back.  So a
  record changes at most nine times from its insertion on, whatever agents, workers and
  clients do and in which order, and a job that was printed or canceled never changes again.
-/

import PrintLatch.Queue.Refinement
import PrintLatch.Reactive.Potential

namespace PrintLatch.Queue

open Reactive

/-- How often a record can still change. -/
def changesLeft : Option JobRow → Nat
  | none => 9
  | some r =>
      match r.state with
      | .queued => 2 + 3 * (2 - r.attempts)
      | .printing => 1 + 3 * (3 - r.attempts)
      | .failed | .unknown => 3 * (3 - r.attempts)
      | .previewReady | .succeeded | .canceled => 0

theorem changesLeft_of_entry {r : JobRow} {mode : JobMode} (h : entry r = Entry.created mode) :
    changesLeft (some r) < changesLeft none := by
  have hstate : r.state = initialState mode := congrArg Entry.state h
  have hattempts : r.attempts = 0 := congrArg Entry.attempts h
  cases mode with
  | preview => simp [changesLeft, hstate, initialState]
  | print => simp [changesLeft, hstate, hattempts, initialState]

/-- A move of a record leaves fewer. -/
theorem RowMove.changesLeft_lt {j : String} {row row' : Option JobRow} {obs : List Obs}
    (h : RowMove j row obs row') (hne : row' ≠ row) : changesLeft row' < changesLeft row := by
  cases h with
  | create client mode r entry _ => exact changesLeft_of_entry entry
  | claim pid now r queued =>
      simp only [changesLeft, queued, JobRow.claim_state, JobRow.claim_attempts]
      omega
  | cancel now r queued =>
      simp only [changesLeft, queued, JobRow.cancel_state]
      omega
  | retry now r ended left =>
      have hended : changesLeft (some r) = 3 * (3 - r.attempts) := by
        rcases ended with hfailed | hunknown
        · simp only [changesLeft, hfailed]
        · simp only [changesLeft, hunknown]
      rw [hended]
      simp only [changesLeft, JobRow.retry_state, JobRow.retry_attempts]
      omega
  | recover pid now r printing =>
      simp only [changesLeft, printing, JobRow.recover_state, JobRow.recover_attempts]
      omega
  | record pid attempt now state detail r printing state_eq =>
      rcases state_eq with rfl | rfl
      · simp only [changesLeft, printing, JobRow.finish_state]
        omega
      · simp only [changesLeft, printing, JobRow.finish_state, JobRow.finish_attempts]
        omega
  | stay row obs quiet => exact absurd rfl hne

/-- **Every record settles.**  Over any run, from any world, the record of a job changes at
    most as often as it could when the run began; a job that was not there yet, nine times. -/
theorem record_settles (sha256Hex : List UInt8 → String) (w : World) (is : List Input)
    (j : String) :
    let changed := total (step sha256Hex) (changes (step sha256Hex) fun w => w.db.job? j) w is
    changed + changesLeft ((run (step sha256Hex) w is).db.job? j) ≤ changesLeft (w.db.job? j) ∧
      (w.db.job? j = none → changed ≤ 9) := by
  intro changed
  have hbound : changed + changesLeft ((run (step sha256Hex) w is).db.job? j) ≤
      changesLeft (w.db.job? j) :=
    total_changes_le (step sha256Hex)
      (fun w i hne => (rowMove_step sha256Hex w i j).changesLeft_lt hne) w is
  refine ⟨hbound, fun hnone => ?_⟩
  rw [hnone] at hbound
  have hnine : changesLeft none = 9 := rfl
  omega

end PrintLatch.Queue
