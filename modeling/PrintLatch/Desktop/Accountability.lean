/-
  PrintLatch.Desktop.Accountability

  Nothing is handed to a printer that its owner has not asked for.

  The refinement carries the accounts of the queue to the socket: a submission needs a
  claim, a claim uses up the creation of the job or one retry, and each of these is a
  request that `authenticate` took for the job's owner.
-/

import PrintLatch.Desktop.Refinement
import PrintLatch.Queue.Accounting
import PrintLatch.Queue.Columns

namespace PrintLatch.Queue

open Reactive

/-- Only `retry_job` shows that a job is retried. -/
theorem retried_step (sha256Hex : List UInt8 → String) (w : World) {i : Input}
    {j client : String} (h : .retried j client ∈ (step sha256Hex w i).2) :
    ∃ now, i = .retry j client now := by
  cases i with
  | retry id owner now =>
      simp only [step] at h
      split at h
      · simp only [List.mem_singleton, Obs.retried.injEq] at h
        obtain ⟨rfl, rfl⟩ := h
        exact ⟨now, rfl⟩
      · cases h
  | create parsed report id owner path now =>
      simp only [step] at h
      split at h <;> simp at h
  | cancel id owner now =>
      simp only [step] at h
      split at h <;> simp at h
  | start pid config now =>
      simp only [step] at h
      split at h <;> simp at h
  | bind pid =>
      simp only [step] at h
      repeat' split at h
      all_goals simp at h
  | shutdown pid =>
      simp only [step] at h
      split at h <;> simp at h
  | crash pid => simp [step] at h
  | worker pid input =>
      -- what a worker shows is of a worker
      have hmove := move_of_step sha256Hex w (.worker pid input)
      generalize (step sha256Hex w (.worker pid input)).1 = w' at hmove
      generalize (step sha256Hex w (.worker pid input)).2 = obs at hmove h
      cases hmove with
      | worker _ _ _ _ _ _ _ _ move => exact absurd (move.worker?_obs _ h) (by simp [Obs.worker?])
      | idle => cases h
      | other _ _ _ turn => exact absurd rfl (turn pid input)

/-- A job that is there was seen to be created. -/
theorem created_of_row (sha256Hex : List UInt8 → String) (db : Database) (is : List Input)
    {j : String} {r : JobRow}
    (h : (run (step sha256Hex) (World.noJobs db) is).db.job? j = some r) :
    ∃ client mode, .created j client mode ∈ trace (step sha256Hex) (World.noJobs db) is := by
  refine run_invariant (fun tr w => ∀ r, w.db.job? j = some r →
    ∃ client mode, Obs.created j client mode ∈ tr) ?_ (fun tr w i ih r hr => ?_) is r h
  · intro r hr
    cases hr
  · have hmove := rowMove_step sha256Hex w i j
    rw [hr] at hmove
    cases hold : w.db.job? j with
    | none =>
        rw [hold] at hmove
        obtain ⟨client, mode, hcreated⟩ := hmove.created
        exact ⟨client, mode, List.mem_append_right _ (mem_about.mp hcreated).1⟩
    | some old =>
        obtain ⟨client, mode, hcreated⟩ := ih old hold
        exact ⟨client, mode, List.mem_append_left _ hcreated⟩

/-- What submissions presuppose, in any run of the queue. -/
theorem submissions_presuppose (sha256Hex : List UInt8 → String) (db : Database)
    (is : List Input) (j : String)
    (h : submissions j (trace (step sha256Hex) (World.noJobs db) is) ≠ 0) :
    ∃ client mode, .created j client mode ∈ trace (step sha256Hex) (World.noJobs db) is ∧
      mode = .print ∧
      submissions j (trace (step sha256Hex) (World.noJobs db) is) ≤
        1 + (trace (step sha256Hex) (World.noJobs db) is).count (.retried j client) := by
  have htracks := tracks_run sha256Hex db is j
  have hclaims : submissions j (trace (step sha256Hex) (World.noJobs db) is) ≤
      claims j (trace (step sha256Hex) (World.noJobs db) is) :=
    submissions_le_claims sha256Hex _ is j
  cases hrow : (run (step sha256Hex) (World.noJobs db) is).db.job? j with
  | none =>
      rw [hrow] at htracks
      cases htracks with
      | absent hnil _ _ =>
          rw [claims, hnil, List.count_nil] at hclaims
          omega
  | some r =>
      obtain ⟨client, mode, hcreated⟩ := created_of_row sha256Hex db is hrow
      rw [hrow] at htracks
      cases htracks with
      | present r hreplay hfrom hown =>
          obtain ⟨rfl, rfl⟩ := hfrom client mode hcreated
          have hacc := accounts_of_replay hreplay
          have hprint : r.mode = .print := by
            cases hmode : r.mode with
            | print => rfl
            | preview =>
                -- nothing ever happens to a preview
                rw [claims, (hacc.previewed hmode).1, List.count_nil] at hclaims
                omega
          refine ⟨r.clientId, r.mode, hcreated, hprint, ?_⟩
          have hprinted : claims j _ + cancels j _ + (if r.state = .queued then 1 else 0) =
            1 + retries j _ := hacc.printed hprint
          rw [← hown]
          unfold retries at hprinted
          omega

end PrintLatch.Queue

namespace PrintLatch.Desktop

open Reactive
open Queue (submissions)

/-- **Every submission was asked for by the owner.**  In every run from a site without jobs,
    a job that `printers::submit` was started for was created by a print request that an
    agent had authenticated as its owner, and it was submitted at most once for that
    request and for each of the owner's requests to retry it that took effect. -/
theorem submissions_asked_for (parse : String → Option Url) (sha256Hex : List UInt8 → String)
    (validatePdf : List UInt8 → String → Except String PdfReport) (headerText : String → Bool)
    (hmac : List UInt8 → List UInt8 → String) (parseJson : List UInt8 → Option InstanceIdentity)
    (decodeSegment : String → Option String) (db : Database)
    (files : String → Option (List UInt8)) (es : List Event) (j : String) :
    let step := step parse sha256Hex validatePdf headerText hmac parseJson decodeSegment
    let start := Site.ofDatabase { db with jobs := Relational.Table.empty _ } files
    let asked := CausedIn step (Causes sha256Hex validatePdf decodeSegment) start es
    let tr := (trace step start es).filterMap Seen.job?
    submissions j tr ≠ 0 → ∃ owner,
      (∃ parsed report path now, parsed.mode = .print ∧
        asked (.create parsed report j owner path now)) ∧
      submissions j tr ≤ 1 + tr.count (.retried j owner) ∧
      (.retried j owner ∈ tr → ∃ now, asked (.retry j owner now)) := by
  intro step start asked tr hsubmitted
  obtain ⟨qs, -, htrace, hcauses⟩ := exists_queueRun parse sha256Hex validatePdf headerText hmac
    parseJson decodeSegment { db with jobs := Relational.Table.empty _ } files es
  have htr : tr = _ := htrace.symm
  rw [htr] at hsubmitted ⊢
  obtain ⟨owner, mode, hcreated, hmode, hbound⟩ := Queue.submissions_presuppose sha256Hex
    { db with clients := (run step start es).world.db.clients } qs j hsubmitted
  refine ⟨owner, ?_, hbound, fun hretried => ?_⟩
  · obtain ⟨pre, q, post, rfl, hq⟩ := exists_step_of_mem_trace hcreated
    obtain ⟨parsed, report, path, now, rfl⟩ := Queue.created_step sha256Hex _ hq
    refine ⟨parsed, report, path, now, ?_, hcauses _ (by simp)⟩
    -- the creation shows the mode that was parsed
    simp only [Queue.step] at hq
    split at hq
    · simp only [List.mem_singleton, Obs.created.injEq] at hq
      exact hq.2.2.symm.trans hmode
    · cases hq
  · obtain ⟨pre, q, post, rfl, hq⟩ := exists_step_of_mem_trace hretried
    obtain ⟨now, rfl⟩ := Queue.retried_step sha256Hex _ hq
    exact ⟨now, hcauses _ (by simp)⟩

/-! ## A captured job -/

/-- A check that takes every document of the right type. -/
def exampleReport (bytes : List UInt8) (mime : String) : Except String PdfReport :=
  if mime = "application/pdf" then .ok ⟨bytes.length, 1, "d1"⟩
  else .error "MIME type must be application/pdf"

/-- A request of the client. -/
def exampleClientRequest (path : List String) (multipart : Option Api.Multipart) :
    Api.HttpRequest where
  method := .post
  path := path
  headers := [("host", Text.utf8 "127.0.0.1:17890"),
    ("authorization", Text.utf8 "Bearer pl_live_demo")]
  limit := none
  challenge := none
  code := .error .missingContentType
  multipart := multipart

/-- The client sends a job for the capture, whose directory the worker cannot write to, and
    then has it tried again. -/
def examplePrintEvents : List Event :=
  [.start 0 exampleConfig exampleSession 0, .bind 0,
    .request 0 (exampleClientRequest ["v1", "jobs"] (some
        [.ok ⟨some "mode", none, .ok (Text.utf8 "print"), .ok "print"⟩,
          .ok ⟨some "file", some "application/pdf", .ok (Text.utf8 "%PDF-1.7"), .ok "%PDF-1.7"⟩]))
      ⟨⟨1, 1, "j1", some [], [], none⟩, 0, "", "", 0, 0, [], ""⟩,
    .worker 0 (.claim 2 0), .worker 0 (.submit (some [])), .worker 0 (.copyFile false),
    .worker 0 (.finish 3),
    .request 0 (exampleClientRequest ["v1", "jobs", "j1", "retry"] none)
      ⟨⟨4, 4, "j2", some [], [], none⟩, 0, "", "", 0, 0, [], ""⟩,
    .worker 0 (.claim 5 0), .worker 0 (.submit (some []))]

/-- Two submissions, for the request and for the retry. -/
theorem submissions_asked_for_of_examplePrintEvents :
    let step := step (fun _ => none) exampleTokenDigest exampleReport (fun _ => true)
      (fun _ _ => "") (fun _ => none) some
    let start := Site.ofDatabase { exampleDatabase with jobs := Relational.Table.empty _ }
      fun _ => none
    let tr := (trace step start examplePrintEvents).filterMap Seen.job?
    submissions "j1" tr = 2 ∧ ∃ owner parsed report path now, parsed.mode = .print ∧
      CausedIn step (Causes exampleTokenDigest exampleReport some) start examplePrintEvents
        (.create parsed report "j1" owner path now) ∧ 2 ≤ 1 + tr.count (.retried "j1" owner) := by
  intro step start tr
  have htwo : submissions "j1" tr = 2 := by decide +kernel
  obtain ⟨owner, ⟨parsed, report, path, now, hmode, hasked⟩, hbound, -⟩ := submissions_asked_for
    (fun _ => none) exampleTokenDigest exampleReport (fun _ => true) (fun _ _ => "")
    (fun _ => none) some exampleDatabase (fun _ => none) examplePrintEvents "j1"
    (by decide +kernel)
  exact ⟨htwo, owner, parsed, report, path, now, hmode, hasked, htwo ▸ hbound⟩

end PrintLatch.Desktop
