/-
  PrintLatch.Desktop.Destination

  Where a document is printed: on the target that its owner's request has named.

  `Aimed` says that a submission goes to a target.  Along every run of the queue, it is that
  of the job's row (`aimed_run`); the row keeps the target it was created with, and the
  refinement carries both to the site (`printed_where_chosen`).
-/

import PrintLatch.Desktop.Accountability

namespace PrintLatch

open Reactive

/-- The identifier of a Windows printer is not that of the capture. -/
theorem printerId_ne_capture (sha256Hex : List UInt8 → String) (name : String) :
    printerId sha256Hex name ≠ capturePrinterId := by
  intro h
  have hhead : (printerId sha256Hex name).toList.head? = some 'w' := by simp [printerId]
  rw [h] at hhead
  exact absurd hhead (by decide)

namespace Queue

section

variable (sha256Hex : List UInt8 → String)

/-- The submission goes to this target. -/
def Aimed (target : String) : Submission → Prop
  | .capture _ => target = capturePrinterId
  | .windows printer _ => target = printerId sha256Hex printer

/-- Every submission under way goes to the target of its row, and was seen to start. -/
def AllAimed (tr : List Obs) (w : World) : Prop :=
  ∀ pid job submission, w.worker? pid = some (.submitting job submission) →
    Aimed sha256Hex job.printerId submission ∧ .submitStarted pid job.id job.attempts ∈ tr

variable {sha256Hex}

/-- `submit` looks for the target of the row. -/
theorem aimed_of_submitStart {config : AppConfig} {job : JobRow}
    {devices : Option (List PrinterDevice)} {submission : Submission}
    (h : submitStart sha256Hex config job devices = .inl submission) :
    Aimed sha256Hex job.printerId submission := by
  unfold submitStart at h
  split at h
  · next hcapture =>
      obtain rfl := Sum.inl.inj h
      exact hcapture
  · split at h
    · cases h
    · split at h
      · cases h
      · next device hdevice =>
          obtain ⟨rfl, -⟩ := nextCopy_eq_inl h
          have hfound : printerId sha256Hex device.name = job.printerId := by
            simpa using List.find?_some hdevice
          exact hfound.symm

/-- The next copy goes where the last one went. -/
theorem aimed_of_printCopy {target printer : String} {accepted copies : Nat} {taken : Bool}
    {submission : Submission} (h : printCopy printer accepted copies taken = .inl submission)
    (haimed : Aimed sha256Hex target (.windows printer accepted)) :
    Aimed sha256Hex target submission := by
  unfold printCopy at h
  split at h
  · obtain ⟨rfl, -⟩ := nextCopy_eq_inl h
    exact haimed
  · cases h

theorem eq_of_afterSubmit {job job' : JobRow} {result : Submission ⊕ SubmitResult}
    {submission : Submission} (h : afterSubmit job result = .submitting job' submission) :
    job' = job ∧ result = .inl submission := by
  cases result with
  | inl started =>
      obtain ⟨rfl, rfl⟩ : job = job' ∧ started = submission := by simpa [afterSubmit] using h
      exact ⟨rfl, rfl⟩
  | inr result => cases h

/-- A worker's submission is one it had, or one it has just aimed. -/
theorem aimed_worker {config : AppConfig} {pid : Nat} {db db' : Database}
    {worker worker' : Worker} {input : WorkerInput} {obs tr : List Obs}
    (move : WorkerMove sha256Hex config pid db worker input db' worker' obs)
    (h : ∀ job submission, worker = .submitting job submission →
      Aimed sha256Hex job.printerId submission ∧ .submitStarted pid job.id job.attempts ∈ tr)
    {job : JobRow} {submission : Submission} (hworker : worker' = .submitting job submission) :
    Aimed sha256Hex job.printerId submission ∧
      .submitStarted pid job.id job.attempts ∈ tr ++ obs := by
  have hkept : ∀ {submission' : Submission}, worker = .submitting job submission' →
      Obs.submitStarted pid job.id job.attempts ∈ tr ++ obs :=
    fun hold => List.mem_append_left obs (h job _ hold).2
  cases move with
  | submit claimed devices =>
      obtain ⟨rfl, hstart⟩ := eq_of_afterSubmit hworker
      exact ⟨aimed_of_submitStart hstart, by simp⟩
  | accept claimed printer accepted =>
      obtain ⟨rfl, hnext⟩ := eq_of_afterSubmit hworker
      exact ⟨aimed_of_printCopy hnext (h _ _ rfl).1, hkept rfl⟩
  | claim | empty | cancel | record | miss | lose => cases hworker
  | quiet _ _ _ same started ended =>
      rcases ended with heq | hnone | ⟨_, _, _, -, heq, -⟩
      · exact ⟨(h job submission (heq ▸ hworker)).1, hkept (heq ▸ hworker)⟩
      · rw [hworker] at hnone
        cases hnone
      · rw [heq] at hworker
        cases hworker

theorem allAimed_step {tr : List Obs} {w : World} (i : Input) (h : AllAimed sha256Hex tr w) :
    AllAimed sha256Hex (tr ++ (step sha256Hex w i).2) (step sha256Hex w i).1 := by
  intro pid job submission hworker
  have hmove := move_of_step sha256Hex w i
  generalize (step sha256Hex w i).1 = w' at hmove hworker
  generalize (step sha256Hex w i).2 = obs at hmove ⊢
  have hold : w.worker? pid = some (.submitting job submission) →
      Aimed sha256Hex job.printerId submission ∧
        .submitStarted pid job.id job.attempts ∈ tr ++ obs := fun hw =>
    ⟨(h pid job submission hw).1, List.mem_append_left obs (h pid job submission hw).2⟩
  cases hmove with
  | idle => exact hold hworker
  | other _ _ _ _ workers => exact hold (worker?_of_busy (workers pid) hworker rfl)
  | worker q p input db' worker' _ proc _ move =>
      rw [worker?_update] at hworker
      split at hworker
      · next heq =>
          subst heq
          exact aimed_worker move (fun job submission hbusy => h pid job submission
            ((worker?_of_proc proc).trans (congrArg some hbusy))) (Option.some.inj hworker)
      · exact hold hworker

/-- **Every submission goes where its row points**, along every run. -/
theorem aimed_run (db : Database) (is : List Input) :
    AllAimed sha256Hex (trace (step sha256Hex) (World.noJobs db) is)
      (run (step sha256Hex) (World.noJobs db) is) :=
  run_invariant (AllAimed sha256Hex) (fun _ _ _ hworker => by cases hworker)
    (fun _ _ i h => allAimed_step i h) is

theorem heldRows_run (db : Database) (is : List Input) :
    HeldRows (run (step sha256Hex) (World.noJobs db) is) :=
  run_invariant (fun _ w => HeldRows w) (heldRows_ofDatabase _)
    (fun _ _ i h => heldRows_step sha256Hex i h) is

theorem fixed_run (w : World) (is : List Input) {j : String} {r : JobRow}
    (h : w.db.job? j = some r) :
    ∃ r', (run (step sha256Hex) w is).db.job? j = some r' ∧ fixed r' = fixed r := by
  refine run_invariant (fun _ (w : World) => ∃ r', w.db.job? j = some r' ∧ fixed r' = fixed r)
    ⟨r, h, rfl⟩ (fun _ w i hrow => ?_) is
  obtain ⟨r', hr', hfixed⟩ := hrow
  obtain ⟨r'', hr'', hkept⟩ := fixed_step sha256Hex w i hr'
  exact ⟨r'', hr'', hkept.trans hfixed⟩

/-- A creation that shows itself has made the row. -/
theorem row_of_created {w : World} {parsed : ParsedJob} {report : PdfReport}
    {j client path : String} {now : Int} {o : Obs}
    (h : o ∈ (step sha256Hex w (.create parsed report j client path now)).2) :
    (step sha256Hex w (.create parsed report j client path now)).1.db.job? j =
        some ((newJob parsed report j client path).row now) ∧
      o = .created j client parsed.mode := by
  simp only [step] at h ⊢
  cases hins : w.db.insertJob (newJob parsed report j client path) now with
  | error error =>
      rw [hins] at h
      cases h
  | ok db =>
      rw [hins] at h
      obtain ⟨-, -, hall⟩ := Database.insertJob_ok hins
      exact ⟨(hall j).trans (if_pos rfl), List.mem_singleton.mp h⟩

/-- A row that is there has the columns of the request that created it. -/
theorem fixed_of_created (db : Database) (is : List Input) {j : String} {r : JobRow}
    (h : (run (step sha256Hex) (World.noJobs db) is).db.job? j = some r) :
    ∃ parsed report client path now,
      Input.create parsed report j client path now ∈ is ∧
        .created j client parsed.mode ∈ trace (step sha256Hex) (World.noJobs db) is ∧
        fixed r = fixed ((newJob parsed report j client path).row now) := by
  obtain ⟨client, mode, hcreated⟩ := created_of_row sha256Hex db is h
  obtain ⟨pre, i, post, rfl, hi⟩ := exists_step_of_mem_trace hcreated
  obtain ⟨parsed, report, path, now, rfl⟩ := created_step sha256Hex _ hi
  obtain ⟨hrow, heq⟩ := row_of_created hi
  obtain ⟨r', hr', hfixed⟩ := fixed_run _ post hrow
  rw [run_append, run_cons, hr'] at h
  obtain rfl := Option.some.inj h
  exact ⟨parsed, report, client, path, now, by simp, heq ▸ hcreated, hfixed⟩

/-- Who was seen to start was submitted. -/
theorem submissions_of_mem {tr : List Obs} {pid attempt : Nat} {j : String}
    (h : .submitStarted pid j attempt ∈ tr) : submissions j tr ≠ 0 := by
  have hmem : pid ∈ tr.filterMap (submitBy? j) :=
    List.mem_filterMap.mpr ⟨_, h, by simp [submitBy?]⟩
  exact (List.length_pos_of_mem hmem).ne'

/-- A submission goes to the target of the print request that created its job. -/
theorem submitted_as_created (db : Database) (is : List Input) {pid : Nat} {job : JobRow}
    {submission : Submission} (h : (run (step sha256Hex) (World.noJobs db) is).worker? pid =
      some (.submitting job submission)) :
    ∃ parsed report path now, Input.create parsed report job.id job.clientId path now ∈ is ∧
      parsed.mode = .print ∧ Aimed sha256Hex parsed.printerId submission := by
  obtain ⟨haimed, hstarted⟩ := aimed_run db is pid job submission h
  obtain ⟨r, hrow, hheld⟩ := heldRows_run db is pid _ job h rfl
  obtain ⟨parsed, report, client, path, now, hmem, hcreated, hfixed⟩ := fixed_of_created db is hrow
  have hsame := hheld.symm.trans hfixed
  obtain rfl : job.clientId = client := congrArg Fixed.clientId hsame
  -- what was submitted was to be printed
  have hmode : parsed.mode = .print := by
    obtain ⟨client, mode, hasked, hprint, -⟩ := submissions_presuppose sha256Hex db is job.id
      (submissions_of_mem hstarted)
    have htracks := tracks_run sha256Hex db is job.id
    rw [hrow] at htracks
    cases htracks with
    | present r hreplay hfrom hown =>
        exact ((hfrom _ _ hcreated).2.trans (hfrom _ _ hasked).2.symm).trans hprint
  have htarget : job.printerId = (newJob parsed report job.id job.clientId path).printerId :=
    congrArg Fixed.printerId hsame
  rw [htarget] at haimed
  refine ⟨parsed, report, path, now, hmem, hmode, ?_⟩
  simpa [newJob, hmode] using haimed

end

end Queue

namespace Desktop

open Queue (World)

/-- A printer of the list that is not the capture has the identifier of its name. -/
theorem id_of_listed {sha256Hex : List UInt8 → String} {devices : Option (List PrinterDevice)}
    {printers : List PrinterInfo} (hlist : listPrinters sha256Hex devices = some printers)
    {info : PrinterInfo} (hinfo : info ∈ printers) (hid : info.id ≠ capturePrinterId) :
    info.id = printerId sha256Hex info.name := by
  obtain ⟨found, hfound, rfl⟩ := Option.map_eq_some_iff.mp hlist
  obtain ⟨ds, rfl, rfl⟩ := Option.map_eq_some_iff.mp hfound
  rcases List.mem_cons.mp hinfo with rfl | hmem
  · exact absurd rfl hid
  · obtain ⟨device, -, rfl⟩ := List.mem_map.mp hmem
    rfl

/-- **A document is printed where its owner has asked.**  In every run from a site without
    jobs, whatever printers the system has on the way: a worker that hands a document on
    hands it to the target of a print request that an agent has authenticated as the
    owner's.  Where the owner has taken that from a list of printers, it is the printer of
    the name in the list, unless the digests of two names agree. -/
theorem printed_where_chosen (parse : String → Option Url) (sha256Hex : List UInt8 → String)
    (validatePdf : List UInt8 → String → Except String PdfReport) (headerText : String → Bool)
    (hmac : List UInt8 → List UInt8 → String) (parseJson : List UInt8 → Option InstanceIdentity)
    (decodeSegment : String → Option String) (db : Database)
    (files : String → Option (List UInt8)) (es : List Event) (pid : Nat) (job : JobRow)
    (submission : Submission) :
    let step := step parse sha256Hex validatePdf headerText hmac parseJson decodeSegment
    let start := Site.ofDatabase { db with jobs := Relational.Table.empty _ } files
    let asked := CausedIn step (Causes sha256Hex validatePdf decodeSegment) start es
    (run step start es).world.worker? pid = some (.submitting job submission) →
      ∃ parsed report path now, asked (.create parsed report job.id job.clientId path now) ∧
        parsed.mode = .print ∧ Queue.Aimed sha256Hex parsed.printerId submission ∧
        ∀ printer accepted devices printers info, submission = .windows printer accepted →
          listPrinters sha256Hex devices = some printers → info ∈ printers →
          info.id = parsed.printerId → Set.InjOn (printerId sha256Hex) {info.name, printer} →
            info.name = printer := by
  intro step start asked hworker
  obtain ⟨qs, ⟨codes, hend⟩, -, hcauses⟩ := exists_queueRun parse sha256Hex validatePdf headerText
    hmac parseJson decodeSegment { db with jobs := Relational.Table.empty _ } files es
  let clients := (run step start es).world.db.clients
  have hbusy : (run (Queue.step sha256Hex) (World.noJobs { db with clients := clients })
      qs).worker? pid = some (.submitting job submission) := by
    have hend : run (Queue.step sha256Hex) (World.noJobs { db with clients := clients }) qs = _ :=
      hend
    rw [hend]
    exact hworker
  obtain ⟨parsed, report, path, now, hmem, hmode, haimed⟩ :=
    Queue.submitted_as_created _ qs hbusy
  refine ⟨parsed, report, path, now, hcauses _ hmem, hmode, haimed, ?_⟩
  rintro printer accepted devices printers info rfl hlist hinfo hid hinj
  have hprinter : info.id = printerId sha256Hex printer := hid.trans haimed
  have hname := id_of_listed hlist hinfo (hprinter ▸ printerId_ne_capture sha256Hex printer)
  exact hinj (by simp) (by simp) (hname.symm.trans hprinter)

/-! ## A page for the office -/

/-- The client sends a job for a Windows printer, and the worker hands it on. -/
def exampleOfficeEvents : List Event :=
  [.start 0 exampleConfig exampleSession 0, .bind 0,
    .request 0
      { method := .post
        path := ["v1", "jobs"]
        headers := [("host", Text.utf8 "127.0.0.1:17890"),
          ("authorization", Text.utf8 "Bearer pl_live_demo")]
        limit := none
        challenge := none
        code := .error .missingContentType
        multipart := some
          [.ok ⟨some "mode", none, .ok (Text.utf8 "print"), .ok "print"⟩,
            .ok ⟨some "printer_id", none, .ok (Text.utf8 "win:"), .ok "win:"⟩,
            .ok ⟨some "file", some "application/pdf", .ok (Text.utf8 "%PDF-1.7"), .ok "%PDF-1.7"⟩] }
      ⟨⟨1, 1, "j1", some [⟨"Office", false⟩], [], none⟩, 0, "", "", 0, 0, [], ""⟩,
    .worker 0 (.claim 2 0), .worker 0 (.submit (some [⟨"Office", false⟩]))]

theorem printed_where_chosen_of_exampleOfficeEvents :
    ∃ parsed report path now,
      CausedIn (step (fun _ => none) exampleTokenDigest exampleReport (fun _ => true)
          (fun _ _ => "") (fun _ => none) some)
        (Causes exampleTokenDigest exampleReport some)
        (Site.ofDatabase { exampleDatabase with jobs := Relational.Table.empty _ } fun _ => none)
        exampleOfficeEvents (.create parsed report "j1" "c1" path now) ∧
      parsed.printerId = printerId exampleTokenDigest "Office" := by
  obtain ⟨parsed, report, path, now, hasked, -, haimed, -⟩ := printed_where_chosen
    (fun _ => none) exampleTokenDigest exampleReport (fun _ => true) (fun _ _ => "")
    (fun _ => none) some exampleDatabase (fun _ => none) exampleOfficeEvents 0
    ⟨⟨"j1", "c1", "win:", .printing, .print, 1, 1, 8, "d1", 1, none, 1, 2⟩,
      "C:\\PrintLatch\\jobs\\j1.pdf"⟩ (.windows "Office" 0) (by decide +kernel)
  exact ⟨parsed, report, path, now, hasked, haimed⟩

end Desktop

end PrintLatch
