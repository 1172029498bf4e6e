/-
  PrintLatch.Queue.Lifecycle

  What the queue is for, one job at a time.

  `Entry` is a job as its owner sees it: mode, state and attempts.  `Action` is
  one thing that can happen to it.  A history of actions is accepted when
  `replay` can perform it from the job's creation.  The law of the queue is
  about accepted histories only: every claim uses up the creation or one
  explicit retry, so nothing is printed twice without being asked for, and
  there are at most three attempts.

  This is the abstract model.  `PrintLatch.Queue.Refinement` shows that the
  statements and the worker of the agent only ever perform accepted histories.
-/

import PrintLatch.Db.Schema
import Mathlib.Data.List.Induction

namespace PrintLatch.Queue

/-- A job as its owner sees it. -/
structure Entry where
  mode : JobMode
  state : JobState
  attempts : Nat
  deriving DecidableEq, Repr

/-- What can happen to a job after its creation. -/
inductive Action where
  | claim
  | cancel
  | retry
  | recover
  | succeed
  | fail
  deriving DecidableEq, Repr

/-- The state `create_job` gives a job of mode `mode`. -/
def initialState : JobMode → JobState
  | .preview => .previewReady
  | .print => .queued

/-- A job at its creation. -/
def Entry.created (mode : JobMode) : Entry := ⟨mode, initialState mode, 0⟩

/-- The state may be tried again by its owner. -/
def retryable (s : JobState) : Prop := s = .failed ∨ s = .unknown

instance : DecidablePred retryable := fun s => by unfold retryable; infer_instance

/-- One action, where it is allowed. -/
def Entry.act (e : Entry) : Action → Option Entry
  | .claim =>
      if e.state = .queued then some { e with state := .printing, attempts := e.attempts + 1 }
      else none
  | .cancel => if e.state = .queued then some { e with state := .canceled } else none
  | .retry =>
      if retryable e.state ∧ e.attempts < 3 then some { e with state := .queued } else none
  | .recover => if e.state = .printing then some { e with state := .unknown } else none
  | .succeed => if e.state = .printing then some { e with state := .succeeded } else none
  | .fail => if e.state = .printing then some { e with state := .failed } else none

/-- A whole history of actions, where each is allowed. -/
def Entry.replay (e : Entry) : List Action → Option Entry
  | [] => some e
  | a :: as => (e.act a).bind fun e' => e'.replay as

@[simp] theorem Entry.replay_nil (e : Entry) : e.replay [] = some e := rfl

@[simp] theorem Entry.replay_cons (e : Entry) (a : Action) (as : List Action) :
    e.replay (a :: as) = (e.act a).bind fun e' => e'.replay as := rfl

theorem Entry.replay_append (e : Entry) (as bs : List Action) :
    e.replay (as ++ bs) = (e.replay as).bind fun e' => e'.replay bs := by
  induction as generalizing e with
  | nil => rfl
  | cons a as ih => simp [ih, Option.bind_assoc]

theorem Entry.replay_concat (e : Entry) (as : List Action) (a : Action) :
    e.replay (as ++ [a]) = (e.replay as).bind fun e' => e'.act a := by
  rw [replay_append]
  congr 1
  funext e'
  simp

/-! ## The law -/

/-- The accounts of a job after a history: what the history's counts say of its
    state. -/
structure Accounts (mode : JobMode) (as : List Action) (e : Entry) : Prop where
  mode_eq : e.mode = mode
  /-- Every claim and every cancel uses up the creation or one retry. -/
  printed : mode = .print →
    as.count .claim + as.count .cancel + (if e.state = .queued then 1 else 0) =
      1 + as.count .retry
  /-- Nothing ever happens to a preview. -/
  previewed : mode = .preview → as = [] ∧ e.state = .previewReady
  attempts_eq : e.attempts = as.count .claim
  attempts_le : e.attempts ≤ 3
  attempts_queued : e.state = .queued → e.attempts ≤ 2
  attempts_pos : e.state = .printing ∨ e.state = .failed ∨ e.state = .unknown ∨
    e.state = .succeeded → 1 ≤ e.attempts
  /-- A queued job was created or retried last. -/
  queued_last : e.state = .queued → as = [] ∨ ∃ pre, as = pre ++ [.retry]
  /-- A canceled job was canceled last, out of the queue. -/
  canceled_last : e.state = .canceled →
    ∃ pre, as = pre ++ [.cancel] ∧ (pre = [] ∨ ∃ before, pre = before ++ [.retry])
  cancels_eq : as.count .cancel = if e.state = .canceled then 1 else 0

theorem accounts_created (mode : JobMode) : Accounts mode [] (Entry.created mode) := by
  cases mode <;> constructor <;> simp [Entry.created, initialState]

theorem Accounts.claim {mode : JobMode} {as : List Action} {e : Entry} (h : Accounts mode as e)
    (hs : e.state = .queued) :
    Accounts mode (as ++ [.claim]) { e with state := .printing, attempts := e.attempts + 1 } where
  mode_eq := h.mode_eq
  printed hm := by
    have hp := h.printed hm
    simp only [hs, if_true] at hp
    simp
    omega
  previewed hm := by simp [(h.previewed hm).2] at hs
  attempts_eq := by simp [h.attempts_eq]
  attempts_le := by have := h.attempts_queued hs; simp; omega
  attempts_queued := by simp
  attempts_pos := by simp
  queued_last := by simp
  canceled_last := by simp
  cancels_eq := by simp [h.cancels_eq, hs]

theorem Accounts.cancel {mode : JobMode} {as : List Action} {e : Entry} (h : Accounts mode as e)
    (hs : e.state = .queued) :
    Accounts mode (as ++ [.cancel]) { e with state := .canceled } where
  mode_eq := h.mode_eq
  printed hm := by
    have hp := h.printed hm
    simp only [hs, if_true] at hp
    simp
    omega
  previewed hm := by simp [(h.previewed hm).2] at hs
  attempts_eq := by simp [h.attempts_eq]
  attempts_le := h.attempts_le
  attempts_queued := by simp
  attempts_pos := by simp
  queued_last := by simp
  canceled_last _ := ⟨as, rfl, h.queued_last hs⟩
  cancels_eq := by simp [h.cancels_eq, hs]

theorem Accounts.retry {mode : JobMode} {as : List Action} {e : Entry} (h : Accounts mode as e)
    (hs : retryable e.state) (hlt : e.attempts < 3) :
    Accounts mode (as ++ [.retry]) { e with state := .queued } := by
  have hnq : e.state ≠ .queued ∧ e.state ≠ .canceled ∧ e.state ≠ .previewReady := by
    rcases hs with hs | hs <;> simp [hs]
  exact {
    mode_eq := h.mode_eq
    printed := fun hm => by
      have hp := h.printed hm
      simp only [if_neg hnq.1] at hp
      simp
      omega
    previewed := fun hm => absurd (h.previewed hm).2 hnq.2.2
    attempts_eq := by simp [h.attempts_eq]
    attempts_le := h.attempts_le
    attempts_queued := fun _ => Nat.le_of_lt_succ hlt
    attempts_pos := by simp
    queued_last := fun _ => Or.inr ⟨as, rfl⟩
    canceled_last := by simp
    cancels_eq := by simp [h.cancels_eq, hnq.2.1] }

/-- The end of a submission: recovery, success and failure only change the
    state, from `printing` to a state that is neither queued nor canceled. -/
theorem Accounts.ended {mode : JobMode} {as : List Action} {e : Entry} (h : Accounts mode as e)
    (hs : e.state = .printing) {a : Action} {s : JobState}
    (ha : a = .recover ∨ a = .succeed ∨ a = .fail)
    (hne : s = .unknown ∨ s = .succeeded ∨ s = .failed) :
    Accounts mode (as ++ [a]) { e with state := s } := by
  have hcounts : (as ++ [a]).count .claim = as.count .claim ∧
      (as ++ [a]).count .cancel = as.count .cancel ∧
      (as ++ [a]).count .retry = as.count .retry := by
    rcases ha with rfl | rfl | rfl <;> simp
  have hs' : s ≠ .queued ∧ s ≠ .canceled := by
    rcases hne with rfl | rfl | rfl <;> simp
  exact {
    mode_eq := h.mode_eq
    printed := fun hm => by
      have hp := h.printed hm
      simp only [hs, reduceCtorEq, if_false] at hp
      simp only [hcounts, hs'.1, if_false]
      omega
    previewed := fun hm => by simp [(h.previewed hm).2] at hs
    attempts_eq := by rw [hcounts.1]; exact h.attempts_eq
    attempts_le := h.attempts_le
    attempts_queued := fun hq => absurd hq hs'.1
    attempts_pos := fun _ => h.attempts_pos (Or.inl hs)
    queued_last := fun hq => absurd hq hs'.1
    canceled_last := fun hc => absurd hc hs'.2
    cancels_eq := by rw [hcounts.2.1, h.cancels_eq]; simp [hs, hs'.2] }

/-- One allowed action keeps the accounts. -/
theorem Accounts.act {mode : JobMode} {as : List Action} {e e' : Entry} {a : Action}
    (h : Accounts mode as e) (ha : e.act a = some e') : Accounts mode (as ++ [a]) e' := by
  cases a <;> simp only [Entry.act, Option.ite_none_right_eq_some, Option.some.injEq] at ha <;>
    obtain ⟨hs, rfl⟩ := ha
  case claim => exact h.claim hs
  case cancel => exact h.cancel hs
  case retry => exact h.retry hs.1 hs.2
  case recover => exact h.ended hs (by simp) (by simp)
  case succeed => exact h.ended hs (by simp) (by simp)
  case fail => exact h.ended hs (by simp) (by simp)

/-- **The law of the queue.**  Every accepted history of a job keeps the
    accounts. -/
theorem accounts_of_replay {mode : JobMode} {as : List Action} {e : Entry}
    (h : (Entry.created mode).replay as = some e) : Accounts mode as e := by
  induction as using List.reverseRecOn generalizing e with
  | nil =>
      obtain rfl := Option.some.inj h
      exact accounts_created mode
  | append_singleton as a ih =>
      rw [Entry.replay_concat] at h
      obtain ⟨e', hpre, hact⟩ := Option.bind_eq_some_iff.mp h
      exact (ih hpre).act hact

end PrintLatch.Queue
