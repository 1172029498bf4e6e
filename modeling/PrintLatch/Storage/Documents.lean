/-
  PrintLatch.Storage.Documents

  Accepted documents stay retrievable: over every run with any number of agents, each
  in its own current directory with its own `--data-dir`, for every job row.

  The file that `create_job` has written never changes.  What can be lost is the way
  to it: the row holds a text of the writer's path, and each agent reads that text as a
  path of its own (`PathsFound` says when it finds the file).
-/

import PrintLatch.PdfGuard
import PrintLatch.Storage.System

namespace PrintLatch.Storage

open Files Reactive

section

variable (sha256Hex : List UInt8 → String)
  (validatePdf : List UInt8 → String → Except String PdfReport)
  (resolve : AbsPath → OsString → AbsPath) (directory : AbsPath)

/-! ## The claim about documents, and its condition -/

/-- Accepted documents are retrievable:
    * under the path of each row every agent finds the document accepted with the job,
      whose length and digest are the row's;
    * so does the worker that submits it, under the path it was given;
    * `get_document` answers with it, unless the job is canceled. -/
structure Retrievable (tr : List HostObs) (s : Host) : Prop where
  rows : ∀ id r, s.world.db.job? id = some r → ∃ bytes,
    (∀ other, .accepted id other ∈ tr ↔ other = bytes) ∧
      bytes.length = r.byteCount ∧ sha256Hex bytes = r.sha256 ∧
      ∀ pid home, s.homes pid = some home → home.read resolve s.files r.filePath = some bytes
  workers : ∀ pid home worker job, s.homes pid = some home →
    s.world.worker? pid = some worker → worker.job? = some job → ∃ bytes,
      .accepted job.id bytes ∈ tr ∧ home.read resolve s.files job.filePath = some bytes
  documents : ∀ headerText pid home id r o, s.homes pid = some home →
    s.world.db.job? id = some r → r.state ≠ .canceled → .select ∉ o.faults →
    .readFile ∉ o.faults → headerText s!"inline; filename=\"printlatch-{id}.pdf\"" = true →
    ∃ bytes, .accepted id bytes ∈ tr ∧
      Api.getDocument headerText ⟨s.world.db, home.read resolve s.files⟩ r.clientId id o =
        Api.documentResponse id bytes

/-- To an agent the text is the path of job `id`'s document. -/
def Home.Finds (home : Home) (text id : String) : Prop :=
  resolve home.cwd (ofText text) = jobFile directory id

/-- The request makes a job. -/
def Host.Stores (s : Host) (client : String) (multipart : Api.Multipart) (o : Api.Outside) :
    Prop :=
  ∃ parsed report, Api.admitJob sha256Hex validatePdf multipart o = .ok (parsed, report) ∧
    (.writeFile ∉ o.faults ∧ .renameFile ∉ o.faults ∧ .insert ∉ o.faults) ∧
    s.world.db.insertable (newJob parsed report o.id client "")

/-- The stored text of a new job is found by the agents that run, and the texts that are
    stored by an agent that is started. -/
def PathsFound (s : Host) : HostInput → Prop
  | .start pid home _ _ => s.world.procs pid = none → home.In resolve directory →
      ∀ id r, s.world.db.job? id = some r → home.Finds resolve directory r.filePath id
  | .create pid client multipart o => s.Stores sha256Hex validatePdf client multipart o →
      ∀ writer, s.homes pid = some writer → ∀ reader home, s.homes reader = some home →
        home.Finds resolve directory (writer.storedPath o.id) o.id
  | _ => True

/-! ## The invariant -/

/-- What is accepted is in its file, with its row; each row's text leads every agent to
    that file. -/
structure DocumentsKept (tr : List HostObs) (s : Host) : Prop where
  accepted : ∀ id bytes, .accepted id bytes ∈ tr → ∃ r, s.world.db.job? id = some r ∧
    bytes.length = r.byteCount ∧ sha256Hex bytes = r.sha256 ∧
    s.files (jobFile directory id) = some bytes
  rows : ∀ id r, s.world.db.job? id = some r → ∃ bytes, .accepted id bytes ∈ tr
  found : ∀ id r, s.world.db.job? id = some r → ∀ pid home, s.homes pid = some home →
    home.Finds resolve directory r.filePath id

variable {sha256Hex validatePdf resolve directory}

theorem documentsKept_fresh (db : Database) (outside : AbsPath → Option (List UInt8)) :
    DocumentsKept sha256Hex resolve directory [] (.fresh directory db outside) where
  accepted _ _ h := by cases h
  rows _ _ h := by cases h
  found _ _ h := by cases h

/-- The invariant gives the claim. -/
theorem DocumentsKept.retrievable {tr : List HostObs} {s : Host}
    (h : DocumentsKept sha256Hex resolve directory tr s)
    (hs : s.Settled resolve directory) : Retrievable sha256Hex resolve tr s := by
  have hread : ∀ id r, s.world.db.job? id = some r → ∃ bytes,
      (∀ other, .accepted id other ∈ tr ↔ other = bytes) ∧
        bytes.length = r.byteCount ∧ sha256Hex bytes = r.sha256 ∧
        ∀ pid home, s.homes pid = some home →
          home.read resolve s.files r.filePath = some bytes := by
    intro id r hr
    obtain ⟨bytes, hbytes⟩ := h.rows id r hr
    obtain ⟨r', hr', hlength, hdigest, hfile⟩ := h.accepted id bytes hbytes
    obtain rfl : r = r' := Option.some.inj (hr.symm.trans hr')
    refine ⟨bytes, fun other => ⟨fun hother => ?_, fun heq => heq ▸ hbytes⟩, hlength, hdigest,
      fun pid home hhome => ?_⟩
    · obtain ⟨-, -, -, -, hfile'⟩ := h.accepted id other hother
      exact Option.some.inj (hfile'.symm.trans hfile)
    · unfold Home.read
      rw [h.found id r hr pid home hhome]
      exact hfile
  refine ⟨hread, fun pid home worker job hhome hworker hjob => ?_,
    fun headerText pid home id r o hhome hr hstate hselect hreadFile hheader => ?_⟩
  · obtain ⟨r, hr, hfixed⟩ := hs.held pid worker job hworker hjob
    obtain ⟨bytes, hbytes, -, -, hopen⟩ := hread job.id r hr
    have hpath : r.filePath = job.filePath := congrArg Queue.Fixed.filePath hfixed
    exact ⟨bytes, (hbytes bytes).mpr rfl, hpath ▸ hopen pid home hhome⟩
  · obtain ⟨bytes, hbytes, -, -, hopen⟩ := hread id r hr
    refine ⟨bytes, (hbytes bytes).mpr rfl, ?_⟩
    have hhas : Api.hasDocument r.toJob.state = true := by
      show Api.hasDocument r.state = true
      cases hr : r.state <;> simp_all [Api.hasDocument]
    have hown : s.world.db.ownJob? id r.clientId = some r := by
      rw [Database.ownJob?_eq_some]
      exact ⟨Database.mem_of_job? hr, Database.id_of_job? hr, rfl⟩
    unfold Api.getDocument
    rw [if_neg hselect, Database.getJobFileForClient_eq, hown]
    simp only [Option.map_some, hhas, hreadFile, hopen pid home hhome, hheader, not_true_eq_false,
      if_false, if_true]

/-! ## Steps -/

/-- What the PDF check says of the document that it lets through. -/
def ReportsBytes (sha256Hex : List UInt8 → String)
    (validatePdf : List UInt8 → String → Except String PdfReport) : Prop :=
  ∀ bytes mime report, validatePdf bytes mime = .ok report →
    report.byteCount = bytes.length ∧ report.sha256 = sha256Hex bytes

/-- An admitted request has passed the PDF check. -/
theorem validate_of_admitJob {multipart : Api.Multipart} {o : Api.Outside} {parsed : ParsedJob}
    {report : PdfReport}
    (h : Api.admitJob sha256Hex validatePdf multipart o = .ok (parsed, report)) :
    validatePdf parsed.bytes parsed.mime = .ok report := by
  unfold Api.admitJob at h
  split at h
  · cases h
  · dsimp only at h
    split at h
    · cases h
    · split at h
      · cases h
      · next hvalid =>
          cases h
          exact hvalid

/-- Files beside the documents change. -/
theorem DocumentsKept.of_files {tr : List HostObs} {s s' : Host}
    (h : DocumentsKept sha256Hex resolve directory tr s) (hworld : s'.world = s.world)
    (hhomes : s'.homes = s.homes)
    (hfiles : ∀ id, s.world.db.job? id ≠ none →
      s'.files (jobFile directory id) = s.files (jobFile directory id)) :
    DocumentsKept sha256Hex resolve directory tr s' := by
  refine ⟨fun id bytes hmem => ?_, fun id r hr => ?_, fun id r hr pid home hhome => ?_⟩
  · obtain ⟨r, hr, hlength, hdigest, hfile⟩ := h.accepted id bytes hmem
    rw [hworld]
    exact ⟨r, hr, hlength, hdigest, (hfiles id (by simp [hr])).trans hfile⟩
  · exact h.rows id r (hworld ▸ hr)
  · exact h.found id r (hworld ▸ hr) pid home (hhomes ▸ hhome)

/-- A step of the queue's system, with the agents that it starts and ends. -/
theorem DocumentsKept.queued {tr : List HostObs} {s : Host} {i : HostInput}
    {homes : Nat → Option Home} {copies : Nat → Option Copying}
    (h : DocumentsKept sha256Hex resolve directory tr s) (qi : Queue.Input)
    (hcreate : ∀ parsed report id client path now, qi ≠ .create parsed report id client path now)
    (hhomes : ∀ pid home, homes pid = some home → s.homes pid = some home ∨
      (∃ port now, i = .start pid home port now) ∧ s.world.procs pid = none ∧
        home.In resolve directory)
    (hfound : PathsFound sha256Hex validatePdf resolve directory s i) :
    DocumentsKept sha256Hex resolve directory
      (tr ++ (Queue.step sha256Hex s.world qi).2.map .queue)
      ⟨(Queue.step sha256Hex s.world qi).1, s.files, homes, copies⟩ := by
  refine ⟨fun id bytes haccepted => ?_, fun id r' hr' => ?_, fun id r' hr' pid home hhome => ?_⟩
  · obtain ⟨r, hr, hlength, hdigest, hfile⟩ :=
      h.accepted id bytes (accepted_mem_queued.mp haccepted)
    obtain ⟨r', hr', hfixed⟩ := Queue.fixed_step sha256Hex s.world qi hr
    have hcount : r'.byteCount = r.byteCount := congrArg Queue.Fixed.byteCount hfixed
    have hsha : r'.sha256 = r.sha256 := congrArg Queue.Fixed.sha256 hfixed
    exact ⟨r', hr', hcount ▸ hlength, hsha ▸ hdigest, hfile⟩
  · obtain ⟨r, hr, -⟩ := Queue.row_of_step sha256Hex s.world hr' hcreate
    obtain ⟨bytes, hbytes⟩ := h.rows id r hr
    exact ⟨bytes, accepted_mem_queued.mpr hbytes⟩
  · obtain ⟨r, hr, hfixed⟩ := Queue.row_of_step sha256Hex s.world hr' hcreate
    have hpath : r'.filePath = r.filePath := congrArg Queue.Fixed.filePath hfixed
    rw [hpath]
    rcases hhomes pid home hhome with hold | ⟨⟨port, now, rfl⟩, hfree, hin⟩
    · exact h.found id r hr pid home hold
    · exact hfound hfree hin id r hr

/-- A stored job. -/
theorem DocumentsKept.stored {tr : List HostObs} {s : Host} {client : String}
    {o : Api.Outside} {files : AbsPath → Option (List UInt8)} {writer : Home}
    {parsed : ParsedJob} {report : PdfReport} {db : Database}
    (h : DocumentsKept sha256Hex resolve directory tr s)
    (hreport : report.byteCount = parsed.bytes.length ∧ report.sha256 = sha256Hex parsed.bytes)
    (hinsert : s.world.db.insertJob (newJob parsed report o.id client (writer.storedPath o.id))
      o.now = .ok db)
    (hfile : files (jobFile directory o.id) = some parsed.bytes)
    (hfiles : SameButFilesOf directory o.id s.files files)
    (hfound : ∀ reader home, s.homes reader = some home →
      home.Finds resolve directory (writer.storedPath o.id) o.id) :
    DocumentsKept sha256Hex resolve directory
      (tr ++ [.queue (.created o.id client parsed.mode), .accepted o.id parsed.bytes])
      ⟨{ s.world with db := db }, files, s.homes, s.copies⟩ := by
  obtain ⟨hfree, -, hrows⟩ := Database.insertJob_ok hinsert
  rw [newJob_id] at hfree
  have hnew : db.job? o.id = some
      ((newJob parsed report o.id client (writer.storedPath o.id)).row o.now) := by
    rw [hrows, newJob_id, if_pos rfl]
  have hother : ∀ id, id ≠ o.id → db.job? id = s.world.db.job? id := by
    intro id hne
    rw [hrows, newJob_id, if_neg hne]
  refine ⟨fun id bytes hmem => ?_, fun id r hr => ?_, fun id r hr pid home hhome => ?_⟩
  · rcases List.mem_append.mp hmem with hold | hmem
    · -- an older document: its file is another one
      obtain ⟨r, hr, hlength, hdigest, hkept⟩ := h.accepted id bytes hold
      have hne : id ≠ o.id := by
        rintro rfl
        rw [hfree] at hr
        cases hr
      have hsame : files (jobFile directory id) = s.files (jobFile directory id) :=
        hfiles _ (fun heq => hne (jobFile_inj.mp heq)) jobFile_ne_temporaryFile
      exact ⟨r, (hother id hne).trans hr, hlength, hdigest, hsame.trans hkept⟩
    · obtain ⟨rfl, rfl⟩ : id = o.id ∧ bytes = parsed.bytes := by simpa using hmem
      exact ⟨_, hnew, hreport.1.symm, hreport.2.symm, hfile⟩
  · by_cases hid : id = o.id
    · subst hid
      exact ⟨parsed.bytes, by simp⟩
    · obtain ⟨bytes, hbytes⟩ := h.rows id r ((hother id hid).symm.trans hr)
      exact ⟨bytes, List.mem_append_left _ hbytes⟩
  · by_cases hid : id = o.id
    · subst hid
      obtain rfl := Option.some.inj (hnew.symm.trans hr)
      exact hfound pid home hhome
    · exact h.found id r ((hother id hid).symm.trans hr) pid home hhome

theorem documentsKept_move (hreports : ReportsBytes sha256Hex validatePdf) {tr obs : List HostObs}
    {s s' : Host} {i : HostInput}
    (hmove : HostMove sha256Hex validatePdf resolve directory s i s' obs)
    (hs : s.Settled resolve directory) (hi : Drawn s i)
    (hfound : PathsFound sha256Hex validatePdf resolve directory s i)
    (h : DocumentsKept sha256Hex resolve directory tr s) :
    DocumentsKept sha256Hex resolve directory (tr ++ obs) s' := by
  cases hmove with
  | idle => rwa [List.append_nil]
  | queued qi hcreate hhomes _ _ => exact h.queued qi hcreate hhomes hfound
  | refused hfiles =>
      rw [List.append_nil]
      refine h.of_files rfl rfl fun id hid => ?_
      -- the drawn id is of no job
      have hne : id ≠ _ := fun heq => hid (heq ▸ hi.2)
      exact hfiles _ (fun heq => hne (jobFile_inj.mp heq)) jobFile_ne_temporaryFile
  | @stored pid client multipart o files writer parsed report db hhome hadmitted hfaults hinsert
      hfile hfiles =>
      have hstores : s.Stores sha256Hex validatePdf client multipart o :=
        ⟨parsed, report, hadmitted, hfaults,
          ((Database.insertJob_isOk_iff _ _ _).mp ⟨db, hinsert⟩).2⟩
      exact h.stored (hreports _ _ _ (validate_of_admitJob hadmitted)) hinsert hfile hfiles
        (hfound hstores writer hhome)
  | opened _ _ _ _ =>
      rw [List.append_nil]
      exact h.of_files rfl rfl fun id _ => Function.update_of_ne jobFile_ne_captureFile _ _
  | @wrote _ _ c _ hcopy _ =>
      rw [List.append_nil]
      obtain ⟨captured, hdestination⟩ := hs.copies _ _ hcopy
      refine h.of_files rfl rfl fun id _ => ?_
      show Function.update _ _ _ _ = _
      rw [hdestination]
      exact Function.update_of_ne jobFile_ne_captureFile _ _

/-- Documents are retrievable in every state of a run whose stored texts are found. -/
theorem retrievable_run (hreports : ReportsBytes sha256Hex validatePdf)
    (hresolve : Resolves resolve) {db : Database} {outside : AbsPath → Option (List UInt8)}
    {is : List HostInput}
    (hdrawn : Along (hostStep sha256Hex validatePdf resolve directory) (fun _ s i => Drawn s i)
      (.fresh directory db outside) is)
    (hfound : Along (hostStep sha256Hex validatePdf resolve directory)
      (fun _ s i => PathsFound sha256Hex validatePdf resolve directory s i)
      (.fresh directory db outside) is) :
    Retrievable sha256Hex resolve
      (trace (hostStep sha256Hex validatePdf resolve directory) (.fresh directory db outside) is)
      (run (hostStep sha256Hex validatePdf resolve directory)
        (.fresh directory db outside) is) := by
  obtain ⟨hsettled, hkept⟩ := host_run_invariant hresolve
    (DocumentsKept sha256Hex resolve directory) (documentsKept_fresh db outside)
    (fun _ _ _ _ _ hmove hs hi hok hinv => documentsKept_move hreports hmove hs hi hok hinv)
    hdrawn hfound
  exact hkept.retrievable hsettled

/-- The report of `validate_pdf` is about the bytes it was given. -/
theorem reportsBytes_validate (inflate : List UInt8 → List UInt8 × Bool)
    (sha256Hex : List UInt8 → String) (loadMem : List UInt8 → Option PdfGuard.Document)
    (pageCount : PdfGuard.Document → Nat) :
    ReportsBytes sha256Hex (PdfGuard.validate inflate sha256Hex loadMem pageCount) := by
  intro bytes mime report hvalid
  obtain ⟨hcount, -, hdigest⟩ := PdfGuard.validate_eq_ok inflate sha256Hex loadMem pageCount hvalid
  exact ⟨hcount, hdigest⟩

end

/-! ## Runs -/

/-- **When accepted documents stay retrievable.**  Over every run of agents that are
    started from any directories, requests, workers, copies and crashes: they do in every
    state, when the stored text of each document leads every agent that runs then or is
    started later to the file that was written. -/
theorem documents_retrievable (inflate : List UInt8 → List UInt8 × Bool)
    (sha256Hex : List UInt8 → String) (loadMem : List UInt8 → Option PdfGuard.Document)
    (pageCount : PdfGuard.Document → Nat) (resolve : AbsPath → OsString → AbsPath)
    (hresolve : Resolves resolve) (directory : AbsPath) (db : Database)
    (outside : AbsPath → Option (List UInt8)) (is : List HostInput) :
    let validatePdf := PdfGuard.validate inflate sha256Hex loadMem pageCount
    let step := hostStep sha256Hex validatePdf resolve directory
    let start := Host.fresh directory db outside
    Along step (fun _ s i => Drawn s i) start is →
    Along step (fun _ s i => PathsFound sha256Hex validatePdf resolve directory s i) start is →
      Retrievable sha256Hex resolve (trace step start is) (run step start is) := by
  intro validatePdf step start hdrawn hfound
  exact retrievable_run (reportsBytes_validate inflate sha256Hex loadMem pageCount) hresolve hdrawn
    hfound

/-! ## Absolute data directories -/

section

variable {sha256Hex : List UInt8 → String}
  {validatePdf : List UInt8 → String → Except String PdfReport}
  {resolve : AbsPath → OsString → AbsPath} {directory : AbsPath}

/-- The `--data-dir` is text, and means the same in every directory. -/
def Home.Absolute (resolve : AbsPath → OsString → AbsPath) (home : Home) : Prop :=
  Unicode home.dataDir ∧ ∀ cwd cwd', resolve cwd home.dataDir = resolve cwd' home.dataDir

/-- What an agent with an absolute `--data-dir` stores every agent finds. -/
theorem Home.finds_of_absolute (hresolve : Resolves resolve) {writer : Home} {id : String}
    (hin : writer.In resolve directory) (hid : UuidText id) (hwriter : writer.Absolute resolve)
    (reader : Home) : reader.Finds resolve directory (writer.storedPath id) id := by
  obtain ⟨hunicode, habsolute⟩ := hwriter
  have hthere : (Home.mk reader.cwd writer.dataDir).In resolve directory :=
    (habsolute reader.cwd writer.cwd).trans hin
  have htext : ofText (writer.storedPath id) = writer.jobPath id := by
    unfold Home.storedPath
    exact ofText_toStringLossy
      (unicode_join (unicode_join hunicode (unicode_ofText _)) (unicode_ofText _))
  unfold Home.Finds
  rw [htext]
  exact resolve_jobPath hresolve hthere hid

/-- Agents are started with an absolute `--data-dir`. -/
def StartsAbsolute (resolve : AbsPath → OsString → AbsPath) : HostInput → Prop
  | .start _ home _ _ => home.Absolute resolve
  | _ => True

/-- Every agent's data directory is absolute, and so was that of every job's writer. -/
structure AbsoluteHomes (resolve : AbsPath → OsString → AbsPath) (directory : AbsPath)
    (s : Host) : Prop where
  homes : ∀ pid home, s.homes pid = some home → home.Absolute resolve
  rows : ∀ id r, s.world.db.job? id = some r → ∃ writer : Home, writer.In resolve directory ∧
    writer.Absolute resolve ∧ r.filePath = writer.storedPath id

theorem absoluteHomes_fresh (db : Database) (outside : AbsPath → Option (List UInt8)) :
    AbsoluteHomes resolve directory (.fresh directory db outside) where
  homes _ _ h := by cases h
  rows _ _ h := by cases h

theorem absoluteHomes_move {s s' : Host} {i : HostInput} {obs : List HostObs}
    (hmove : HostMove sha256Hex validatePdf resolve directory s i s' obs)
    (hs : s.Settled resolve directory) (hi : StartsAbsolute resolve i)
    (h : AbsoluteHomes resolve directory s) : AbsoluteHomes resolve directory s' := by
  cases hmove with
  | idle => exact h
  | queued qi hcreate hhomes _ _ =>
      refine ⟨fun pid home hhome => ?_, fun id r' hr' => ?_⟩
      · rcases hhomes pid home hhome with hold | ⟨⟨port, now, rfl⟩, -, -⟩
        · exact h.homes pid home hold
        · exact hi
      · obtain ⟨r, hr, hfixed⟩ := Queue.row_of_step sha256Hex s.world hr' hcreate
        have hpath : r'.filePath = r.filePath := congrArg Queue.Fixed.filePath hfixed
        rw [hpath]
        exact h.rows id r hr
  | @stored pid client _ o _ writer parsed report _ hhome _ _ hinsert _ _ =>
      refine ⟨h.homes, fun id r hr => ?_⟩
      rcases Database.row_of_insertJob hinsert hr with ⟨hid, rfl⟩ | hold
      · rw [newJob_id] at hid
        exact ⟨writer, hs.homes pid writer hhome, h.homes pid writer hhome, hid ▸ rfl⟩
      · exact h.rows id r hold
  | refused | opened | wrote => exact ⟨h.homes, h.rows⟩

/-- With absolute data directories the condition holds along every run. -/
theorem pathsFound_of_absolute (hresolve : Resolves resolve) {db : Database}
    {outside : AbsPath → Option (List UInt8)} {is : List HostInput}
    (hdrawn : Along (hostStep sha256Hex validatePdf resolve directory) (fun _ s i => Drawn s i)
      (.fresh directory db outside) is)
    (habsolute : ∀ i ∈ is, StartsAbsolute resolve i) :
    Along (hostStep sha256Hex validatePdf resolve directory)
      (fun _ s i => PathsFound sha256Hex validatePdf resolve directory s i)
      (.fresh directory db outside) is := by
  intro pre i post heq
  have hpre : pre <+: is := ⟨i :: post, heq.symm⟩
  obtain ⟨hsettled, hhomes, hrows⟩ := host_run_invariant hresolve
    (fun _ s => AbsoluteHomes resolve directory s) (absoluteHomes_fresh db outside)
    (fun _ _ _ _ _ hmove hs _ hi h => absoluteHomes_move hmove hs hi h) (hdrawn.of_prefix hpre)
    (Along.of_prefix (along_input_iff.mpr habsolute) hpre)
  have hi := hdrawn pre i post heq
  cases i with
  | start pid home port now =>
      intro _ _ id r hr
      obtain ⟨writer, hin, hwriter, hpath⟩ := hrows id r hr
      rw [hpath]
      exact Home.finds_of_absolute hresolve hin (hsettled.ids id r hr) hwriter home
  | create pid client multipart o =>
      intro _ writer hwriter _ home _
      exact Home.finds_of_absolute hresolve (hsettled.homes pid writer hwriter) hi.1
        (hhomes pid writer hwriter) home
  | _ => trivial

end

/-! ## A document that is kept, and one that is lost -/

def exampleDirectory : AbsPath := ["C:", "Users", "op", "data"].map ofText

/-- `--data-dir data`, from the directory above it. -/
def exampleRelative : Home := ⟨["C:", "Users", "op"].map ofText, ofText "data"⟩

/-- The same directory, written out, from another one. -/
def exampleAbsolute : Home := ⟨["C:", "Windows"].map ofText, ofText "C:\\Users\\op\\data"⟩

/-- The same directory, spelled with slashes. -/
def exampleSlashes : Home := ⟨["C:", "Users", "op"].map ofText, ofText "C:/Users/op/data"⟩

def exampleJobId : String := "1f0c6b0e-8d3a-4c1e-9b57-2a4d6e8f0a1b"

/-- The example client sends a document for the capture printer. -/
def exampleStored (home : Home) : List HostInput :=
  [.start 0 home 17890 0,
    .create 0 exampleClient.id [.ok ⟨some "mode", none, .ok (Text.utf8 "print"), .ok "print"⟩,
      .ok ⟨some "file", some "application/pdf", .ok PdfGuard.minimalPdf, .ok ""⟩]
      ⟨0, 0, exampleJobId, some [], [], none⟩]

/-- The agent crashes, and one is started again. -/
def exampleRestart (first second : Home) : List HostInput :=
  exampleStored first ++ [.crash 0, .start 1 second 17890 1]

def exampleHostStep : Host → HostInput → Host × List HostObs :=
  hostStep (fun _ => PdfGuard.minimalReport.sha256) PdfGuard.minimalCheck resolveWindows
    exampleDirectory

def exampleHost : Host := .fresh exampleDirectory exampleDatabase fun _ => none

/-- The id is new, and no other is drawn. -/
theorem drawn_exampleStored {home : Home} (hin : home.In resolveWindows exampleDirectory)
    {is : List HostInput}
    (his : ∀ i ∈ is, ∀ pid client multipart o, i ≠ .create pid client multipart o) :
    Along exampleHostStep (fun _ s i => Drawn s i) exampleHost (exampleStored home ++ is) := by
  have hrest : ∀ i ∈ is, ∀ s, Drawn s i := by
    intro i hi s
    cases i with
    | create pid client multipart o => exact absurd rfl (his _ hi pid client multipart o)
    | _ => trivial
  rw [along_append, exampleStored, along_cons, along_cons]
  have huuid : UuidText exampleJobId := by decide
  refine ⟨⟨trivial, ⟨huuid, ?_⟩, along_nil⟩,
    Along.mono (along_input_iff.mpr hrest) fun _ s i hi => hi s⟩
  simp only [exampleHostStep, hostStep]
  rw [if_pos ⟨rfl, hin⟩]
  exact Queue.job?_step_of_none _ _ rfl (by simp)

theorem absolute_examples :
    exampleAbsolute.Absolute resolveWindows ∧ exampleSlashes.Absolute resolveWindows := by
  have habsolute : ofText "C:\\Users\\op\\data" =
      .char 'C' :: .char ':' :: .char '\\' :: ofText "Users\\op\\data" := by decide
  have hslashes : ofText "C:/Users/op/data" =
      .char 'C' :: .char ':' :: .char '/' :: ofText "Users/op/data" := by decide
  constructor
  · refine ⟨unicode_ofText _, fun cwd cwd' => ?_⟩
    show resolveWindows _ (ofText _) = resolveWindows _ (ofText _)
    rw [habsolute]
    exact resolveWindows_rooted (by decide) (by decide) _ _ _
  · refine ⟨unicode_ofText _, fun cwd cwd' => ?_⟩
    show resolveWindows _ (ofText _) = resolveWindows _ (ofText _)
    rw [hslashes]
    exact resolveWindows_rooted (by decide) (by decide) _ _ _

theorem documents_retrievable_of_exampleRestart :
    let s := run exampleHostStep exampleHost (exampleRestart exampleAbsolute exampleSlashes)
    ∃ r, s.world.db.job? exampleJobId = some r ∧
      exampleSlashes.read resolveWindows s.files r.filePath = some PdfGuard.minimalPdf := by
  intro s
  obtain ⟨hjob, hhome, hin, haccepted⟩ : (s.world.db.job? exampleJobId).isSome = true ∧
      s.homes 1 = some exampleSlashes ∧ exampleAbsolute.In resolveWindows exampleDirectory ∧
      .accepted exampleJobId PdfGuard.minimalPdf ∈ trace exampleHostStep exampleHost
        (exampleRestart exampleAbsolute exampleSlashes) := by
    decide +kernel
  have hdrawn : Along exampleHostStep (fun _ s i => Drawn s i) exampleHost
      (exampleRestart exampleAbsolute exampleSlashes) := drawn_exampleStored hin (by simp)
  have hfound := pathsFound_of_absolute resolves_resolveWindows hdrawn
    (by simp [exampleRestart, exampleStored, StartsAbsolute, absolute_examples])
  have hkept : Retrievable (fun _ => PdfGuard.minimalReport.sha256) resolveWindows
      (trace exampleHostStep exampleHost (exampleRestart exampleAbsolute exampleSlashes)) s :=
    documents_retrievable _ _ _ _ resolveWindows resolves_resolveWindows exampleDirectory
      exampleDatabase _ _ hdrawn hfound
  obtain ⟨r, hr⟩ := Option.isSome_iff_exists.mp hjob
  obtain ⟨bytes, hbytes, -, -, hread⟩ := hkept.rows exampleJobId r hr
  refine ⟨r, hr, ?_⟩
  rw [(hbytes _).mp haccepted]
  exact hread 1 exampleSlashes hhome

/-- The second agent reads the stored `data\jobs\...` in its own directory. -/
theorem document_lost :
    let s := run exampleHostStep exampleHost (exampleRestart exampleRelative exampleAbsolute)
    let tr := trace exampleHostStep exampleHost (exampleRestart exampleRelative exampleAbsolute)
    Along exampleHostStep (fun _ s i => Drawn s i) exampleHost
        (exampleRestart exampleRelative exampleAbsolute) ∧
      (s.world.db.job? exampleJobId).map (fun r => (r.state, r.filePath)) =
        some (.queued, "data\\jobs\\1f0c6b0e-8d3a-4c1e-9b57-2a4d6e8f0a1b.pdf") ∧
      s.files (jobFile exampleDirectory exampleJobId) = some PdfGuard.minimalPdf ∧
      exampleAbsolute.read resolveWindows s.files
        "data\\jobs\\1f0c6b0e-8d3a-4c1e-9b57-2a4d6e8f0a1b.pdf" = none ∧
      ¬ Retrievable (fun _ => PdfGuard.minimalReport.sha256) resolveWindows tr s := by
  intro s tr
  obtain ⟨hrow, hfile, hnone, hhome, hin⟩ :
      (s.world.db.job? exampleJobId).map (fun r => (r.state, r.filePath)) =
          some (.queued, "data\\jobs\\1f0c6b0e-8d3a-4c1e-9b57-2a4d6e8f0a1b.pdf") ∧
        s.files (jobFile exampleDirectory exampleJobId) = some PdfGuard.minimalPdf ∧
        exampleAbsolute.read resolveWindows s.files
          "data\\jobs\\1f0c6b0e-8d3a-4c1e-9b57-2a4d6e8f0a1b.pdf" = none ∧
        s.homes 1 = some exampleAbsolute ∧ exampleRelative.In resolveWindows exampleDirectory := by
    decide +kernel
  refine ⟨drawn_exampleStored hin (by simp), hrow, hfile, hnone, fun hkept => ?_⟩
  obtain ⟨r, hr, hcolumns⟩ := Option.map_eq_some_iff.mp hrow
  obtain ⟨bytes, -, -, -, hread⟩ := hkept.rows exampleJobId r hr
  have hfound := hread 1 exampleAbsolute hhome
  rw [(Prod.mk.inj hcolumns).2, hnone] at hfound
  cases hfound

/-- A directory whose name is no text: the agent does not even find what it has stored
    itself. -/
example : ¬ (Home.mk (["C:"].map ofText) (ofText "C:\\" ++ [.raw 0xD800])).Finds resolveWindows
    (["C:"].map ofText ++ [[.raw 0xD800]])
    ((Home.mk (["C:"].map ofText) (ofText "C:\\" ++ [.raw 0xD800])).storedPath exampleJobId)
    exampleJobId := by
  unfold Home.Finds
  decide +kernel

end PrintLatch.Storage
