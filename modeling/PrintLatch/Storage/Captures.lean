/-
  PrintLatch.Storage.Captures

  Captures are complete or absent: over every run of claims, captures, failures,
  crashes, restarts and retries, `captures/<job id>.pdf` is the accepted document
  whenever no copy is in progress, if it is there.

  `submit` copies straight to that name, so a copy that is cut short leaves a part
  of the document there (`CopiesWhole` is the condition under which none is).  Two
  agents may copy to one name at once; `Files.Covered` is the invariant for that.
-/

import PrintLatch.Storage.Documents

namespace PrintLatch.Storage

open Files Reactive

section

variable (resolve : AbsPath → OsString → AbsPath) (directory : AbsPath)

/-! ## The claim about captures, and its condition -/

/-- When no copy is in progress, a capture is absent or the accepted document, and it is
    there when a print job for the capture printer is succeeded. -/
def CapturesComplete (tr : List HostObs) (s : Host) : Prop :=
  (∀ pid, s.copies pid = none) → ∀ id,
    (s.files (captureFile directory id) = none ∨ ∃ bytes, .accepted id bytes ∈ tr ∧
      s.files (captureFile directory id) = some bytes) ∧
    ∀ r, s.world.db.job? id = some r → r.mode = .print → r.printerId = capturePrinterId →
      r.state = .succeeded → s.files (captureFile directory id) ≠ none

/-- A copy that opens its source opens the accepted document. -/
def OpensAccepted (tr : List HostObs) (s : Host) : HostInput → Prop
  | .copyOpen pid => ∀ home job destination content, s.homes pid = some home →
      s.copies pid = none →
      s.world.worker? pid = some (.submitting job (.capture destination)) →
      home.read resolve s.files job.filePath = some content → .accepted job.id content ∈ tr
  | _ => True

/-- No copy is cut short: one that fails, or whose thread or process ends, has written
    everything. -/
def CutsNoCopy (s : Host) : HostInput → Prop
  | .copyFails pid | .panic pid | .crash pid =>
      ∀ c, s.copies pid = some c → c.content.length ≤ c.position
  | _ => True

/-- Every copy is of the accepted document, and whole. -/
def CopiesWhole (tr : List HostObs) (s : Host) (i : HostInput) : Prop :=
  OpensAccepted resolve tr s i ∧ CutsNoCopy s i

/-! ## Submissions -/

/-- What a worker knows of captures: a spooler job is no capture, and a capture that has
    ended well is `there`. -/
def KnowsCaptures (there : String → Prop) : Worker → Prop
  | .submitting job (.windows _ _) => job.printerId ≠ capturePrinterId
  | .finishing job (.ok _) => job.printerId = capturePrinterId → there job.id
  | _ => True

theorem knowsCaptures_nextCopy {there : String → Prop} {job : JobRow}
    (h : job.printerId ≠ capturePrinterId) (printer : String) (accepted copies : Nat) :
    KnowsCaptures there (afterSubmit job (nextCopy printer accepted copies)) := by
  unfold nextCopy
  split
  · exact h
  · exact fun hcapture => absurd hcapture h

theorem knowsCaptures_submitStart {there : String → Prop} (sha256Hex : List UInt8 → String)
    (config : AppConfig) (job : JobRow) (devices : Option (List PrinterDevice)) :
    KnowsCaptures there (afterSubmit job (submitStart sha256Hex config job devices)) := by
  unfold submitStart
  split
  · trivial
  · next hprinter =>
      split
      · trivial
      · split
        · trivial
        · exact knowsCaptures_nextCopy hprinter ..

/-- One step of the worker, where a copy that ends well leaves its file. -/
theorem knowsCaptures_workerStep {there : String → Prop} (sha256Hex : List UInt8 → String)
    (config : AppConfig) (pid : Nat) (db : Database) {worker : Worker} {input : WorkerInput}
    (h : KnowsCaptures there worker)
    (hcopied : ∀ job destination, worker = .submitting job (.capture destination) →
      input = .copyFile true → there job.id) :
    KnowsCaptures there (workerStep sha256Hex config pid db worker input).2.1 := by
  cases worker with
  | ready =>
      cases input with
      | claim now tie =>
          simp only [workerStep]
          split <;> trivial
      | _ => trivial
  | waiting => cases input <;> trivial
  | backoff => cases input <;> trivial
  | claimed job =>
      cases input with
      | submit devices => exact knowsCaptures_submitStart sha256Hex config job devices
      | _ => trivial
  | submitting job submission =>
      cases submission with
      | capture destination =>
          cases input with
          | copyFile copied =>
              cases copied with
              | true => exact fun _ => hcopied job destination rfl rfl
              | false => trivial
          | _ => trivial
      | windows printer accepted =>
          cases input with
          | print taken =>
              cases taken with
              | true => exact knowsCaptures_nextCopy h ..
              | false => trivial
          | panic => trivial
          | _ => exact h
  | finishing job result =>
      cases input with
      | finish now => trivial
      | finishFails => trivial
      | _ => exact h

/-- A row that becomes succeeded is set by a worker whose submission ended well. -/
theorem succeeded_step (sha256Hex : List UInt8 → String) {w : Queue.World} {i : Queue.Input}
    {id : String} {r' : JobRow} (h : (Queue.step sha256Hex w i).1.db.job? id = some r')
    (hstate : r'.state = .succeeded)
    (hcreate : ∀ parsed report id client path now, i ≠ .create parsed report id client path now) :
    (∃ r, w.db.job? id = some r ∧ r.state = .succeeded) ∨
      ∃ pid job detail, w.worker? pid = some (.finishing job (.ok detail)) ∧ job.id = id := by
  obtain ⟨r, hr, -⟩ := Queue.row_of_step sha256Hex w h hcreate
  have hmove := Queue.rowMove_step sha256Hex w i id
  rw [h, hr] at hmove
  generalize hobs : Queue.about id (Queue.step sha256Hex w i).2 = obs at hmove
  cases hmove with
  | claim => cases hstate
  | cancel => cases hstate
  | retry => cases hstate
  | recover => cases hstate
  | stay => exact .inl ⟨_, hr, hstate⟩
  | record pid attempt now state detail =>
      right
      have hstate : state = .succeeded := hstate
      have hrecorded : .recorded pid id attempt state ∈ (Queue.step sha256Hex w i).2 :=
        (Queue.mem_about.mp (hobs ▸ List.mem_singleton_self _)).1
      -- the worker that is seen to record it has finished its submission
      obtain ⟨config, worker, input, db', worker', -, hworker, move⟩ :=
        Queue.workerMove_of_obs hrecorded rfl
      generalize (Queue.step sha256Hex w i).2 = shown at move hrecorded
      cases move with
      | record job result =>
          obtain ⟨-, hid, -, houtcome⟩ : pid = pid ∧ id = job.id ∧ attempt = job.attempts ∧
              state = result.outcome.1 := by simpa using hrecorded
          rw [hstate] at houtcome
          cases result with
          | ok detail => exact ⟨pid, job, detail, hworker, hid.symm⟩
          | err message => cases houtcome
          | stopped => cases houtcome
      | _ => simp at hrecorded

/-! ## The invariant -/

/-- The position of each process that copies to job `id`'s capture. -/
def Host.writers (directory : AbsPath) (s : Host) (id : String) (pid : Nat) : Option Nat :=
  (s.copies pid).bind fun c =>
    if c.destination = captureFile directory id then some c.position else none

/-- What holds of captures along every run in which no copy is cut short. -/
structure CapturesKept (tr : List HostObs) (s : Host) : Prop where
  known : ∀ id bytes, .accepted id bytes ∈ tr → s.world.db.job? id ≠ none
  unique : ∀ id bytes other, .accepted id bytes ∈ tr → .accepted id other ∈ tr → other = bytes
  copies : ∀ pid c, s.copies pid = some c → ∃ job destination,
    s.world.worker? pid = some (.submitting job (.capture destination)) ∧
      c.destination = captureFile directory job.id ∧ .accepted job.id c.content ∈ tr ∧
      s.files c.destination ≠ none
  files : ∀ id, s.files (captureFile directory id) = none ∨ ∃ bytes file,
    .accepted id bytes ∈ tr ∧ s.files (captureFile directory id) = some file ∧
      Covered bytes file (s.writers directory id)
  workers : ∀ pid worker, s.world.worker? pid = some worker →
    KnowsCaptures (fun id => s.files (captureFile directory id) ≠ none) worker
  rows : ∀ id r, s.world.db.job? id = some r → r.printerId = capturePrinterId →
    r.state = .succeeded → s.files (captureFile directory id) ≠ none

variable {directory}

theorem writers_eq_some {s : Host} {id : String} {pid position : Nat} :
    s.writers directory id pid = some position ↔ ∃ c, s.copies pid = some c ∧
      c.destination = captureFile directory id ∧ c.position = position := by
  unfold Host.writers
  rw [Option.bind_eq_some_iff]
  constructor
  · rintro ⟨c, hc, hposition⟩
    split at hposition
    · next hplace => exact ⟨c, hc, hplace, Option.some.inj hposition⟩
    · cases hposition
  · rintro ⟨c, hc, hplace, rfl⟩
    exact ⟨c, hc, if_pos hplace⟩

/-- A copy writes the document accepted with the job whose capture it writes. -/
theorem CapturesKept.content_eq {tr : List HostObs} {s : Host} (h : CapturesKept directory tr s)
    {pid : Nat} {c : Copying} {id : String} {bytes : List UInt8} (hc : s.copies pid = some c)
    (hplace : c.destination = captureFile directory id) (haccepted : .accepted id bytes ∈ tr) :
    c.content = bytes := by
  obtain ⟨job, -, -, hplace', hcontent, -⟩ := h.copies pid c hc
  obtain rfl : job.id = id := captureFile_inj.mp (hplace'.symm.trans hplace)
  exact h.unique _ _ _ haccepted hcontent

theorem CapturesKept.complete {tr : List HostObs} {s : Host} (h : CapturesKept directory tr s) :
    CapturesComplete directory tr s := by
  intro hidle id
  refine ⟨?_, fun r hr _ hprinter hstate => h.rows id r hr hprinter hstate⟩
  rcases h.files id with hnone | ⟨bytes, file, haccepted, hfile, hcovered⟩
  · exact .inl hnone
  · have hwriters : ∀ pid, s.writers directory id pid = none := by
      intro pid
      unfold Host.writers
      rw [hidle pid]
      rfl
    rw [hcovered.eq hwriters] at hfile
    exact .inr ⟨bytes, haccepted, hfile⟩

theorem capturesKept_fresh (db : Database) (outside : AbsPath → Option (List UInt8)) :
    CapturesKept directory [] (.fresh directory db outside) where
  known _ _ h := by cases h
  unique _ _ _ h := by cases h
  copies _ _ h := by cases h
  files id := by
    left
    exact if_pos (List.prefix_append directory _)
  workers _ _ h := by cases h
  rows _ _ h := by cases h

/-! ## Steps -/

variable {sha256Hex : List UInt8 → String}
  {validatePdf : List UInt8 → String → Except String PdfReport}
  {resolve : AbsPath → OsString → AbsPath}

/-- The workers after a step of the queue's system know of captures. -/
theorem knowsCaptures_step {there : String → Prop} {w : Queue.World} (i : Queue.Input)
    (h : ∀ pid worker, w.worker? pid = some worker → KnowsCaptures there worker)
    (hcopied : ∀ pid job destination, i = .worker pid (.copyFile true) →
      w.worker? pid = some (.submitting job (.capture destination)) → there job.id)
    (pid : Nat) (worker : Worker)
    (hworker : (Queue.step sha256Hex w i).1.worker? pid = some worker) :
    KnowsCaptures there worker := by
  by_cases hinput : ∃ q input, i = .worker q input
  · obtain ⟨q, input, rfl⟩ := hinput
    simp only [Queue.step] at hworker
    split at hworker
    · exact h pid worker hworker
    · next p hp =>
        split at hworker
        · exact h pid worker hworker
        · rw [Queue.worker?_update] at hworker
          split at hworker
          · next heq =>
              subst heq
              cases hworker
              refine knowsCaptures_workerStep sha256Hex p.config pid w.db
                (h pid p.worker (Queue.worker?_of_proc hp)) fun job destination hsub hdone => ?_
              exact hcopied pid job destination (by rw [hdone])
                ((Queue.worker?_of_proc hp).trans (congrArg some hsub))
          · exact h pid worker hworker
  · have hmove := Queue.move_of_step sha256Hex w i
    generalize (Queue.step sha256Hex w i).1 = w' at hmove hworker
    generalize (Queue.step sha256Hex w i).2 = obs at hmove
    cases hmove with
    | worker q _ input => exact absurd ⟨q, input, rfl⟩ hinput
    | idle => exact h pid worker hworker
    | other _ _ _ _ workers =>
        -- a worker stays, or is spawned
        rcases workers pid with hsame | hnone | hready
        · exact h pid worker (hsame ▸ hworker)
        · rw [hnone] at hworker
          cases hworker
        · rw [hready] at hworker
          cases hworker
          trivial

/-- A step of the queue's system, with the copies that it ends. -/
theorem CapturesKept.queued {tr : List HostObs} {s : Host} {homes : Nat → Option Home}
    {copies : Nat → Option Copying} (h : CapturesKept directory tr s)
    (hs : s.Settled resolve directory) (qi : Queue.Input)
    (hcreate : ∀ parsed report id client path now, qi ≠ .create parsed report id client path now)
    (hcopies : ∀ pid, copies pid = s.copies pid ∧ ¬ qi.endsSubmission pid ∨
      copies pid = none ∧ ∀ c, s.copies pid = some c → c.content.length ≤ c.position)
    (hcopied : ∀ pid, qi = .worker pid (.copyFile true) → ∃ c, s.copies pid = some c) :
    CapturesKept directory (tr ++ (Queue.step sha256Hex s.world qi).2.map .queue)
      ⟨(Queue.step sha256Hex s.world qi).1, s.files, homes, copies⟩ := by
  refine ⟨fun id bytes haccepted => ?_, fun id bytes other hone hother => ?_,
    fun pid c hc => ?_, fun id => ?_, fun pid worker hworker => ?_,
    fun id r' hr' hprinter hstate => ?_⟩
  · intro hnone
    cases hr : s.world.db.job? id with
    | none => exact h.known id bytes (accepted_mem_queued.mp haccepted) hr
    | some r =>
        obtain ⟨r', hr', -⟩ := Queue.fixed_step sha256Hex s.world qi hr
        rw [hr'] at hnone
        cases hnone
  · exact h.unique id bytes other (accepted_mem_queued.mp hone)
      (accepted_mem_queued.mp hother)
  · dsimp only at hc
    rcases hcopies pid with ⟨hsame, hgoes⟩ | ⟨hnone, -⟩
    · obtain ⟨job, destination, hworker, hplace, haccepted, hthere⟩ := h.copies pid c (hsame ▸ hc)
      exact ⟨job, destination, Queue.worker?_step_capture sha256Hex hworker hgoes, hplace,
        accepted_mem_queued.mpr haccepted, hthere⟩
    · rw [hnone] at hc
      cases hc
  · rcases h.files id with hnone | ⟨bytes, file, haccepted, hfile, hcovered⟩
    · exact .inl hnone
    · refine .inr ⟨bytes, file, accepted_mem_queued.mpr haccepted, hfile,
        hcovered.stop fun pid => ?_⟩
      rcases hcopies pid with ⟨hsame, -⟩ | ⟨-, hdone⟩
      · left
        unfold Host.writers
        rw [← hsame]
      · right
        intro position hposition
        obtain ⟨c, hc, hplace, rfl⟩ := writers_eq_some.mp hposition
        rw [← h.content_eq hc hplace haccepted]
        exact hdone c hc
  · refine knowsCaptures_step qi h.workers (fun q job destination hqi hsub => ?_) pid worker
      hworker
    obtain ⟨c, hc⟩ := hcopied q hqi
    obtain ⟨job', destination', hsub', hplace, -, hthere⟩ := h.copies q c hc
    rw [hsub] at hsub'
    cases hsub'
    exact hplace ▸ hthere
  · obtain ⟨r, hr, hfixed⟩ := Queue.row_of_step sha256Hex s.world hr' hcreate
    have hsame : r'.printerId = r.printerId := congrArg Queue.Fixed.printerId hfixed
    rcases succeeded_step sha256Hex hr' hstate hcreate with
      ⟨r₀, hr₀, hbefore⟩ | ⟨pid, job, detail, hworker, rfl⟩
    · obtain rfl : r = r₀ := Option.some.inj (hr.symm.trans hr₀)
      exact h.rows id r hr (hsame ▸ hprinter) hbefore
    · obtain ⟨r₀, hr₀, hheld⟩ := hs.held pid _ job hworker rfl
      obtain rfl : r = r₀ := Option.some.inj (hr.symm.trans hr₀)
      have hjob : job.printerId = capturePrinterId :=
        (congrArg Queue.Fixed.printerId hheld).symm.trans (hsame.symm.trans hprinter)
      exact h.workers pid _ hworker hjob

/-- Files that are no captures change. -/
theorem CapturesKept.of_files {tr : List HostObs} {s : Host}
    {files : AbsPath → Option (List UInt8)} (h : CapturesKept directory tr s)
    (hfiles : ∀ id, files (captureFile directory id) = s.files (captureFile directory id)) :
    CapturesKept directory tr { s with files := files } := by
  refine ⟨h.known, h.unique, fun pid c hc => ?_, fun id => ?_, fun pid worker hworker => ?_,
    fun id r hr hprinter hstate => ?_⟩
  · obtain ⟨job, destination, hworker, hplace, haccepted, hthere⟩ := h.copies pid c hc
    refine ⟨job, destination, hworker, hplace, haccepted, ?_⟩
    dsimp only
    rw [hplace, hfiles, ← hplace]
    exact hthere
  · dsimp only
    rw [hfiles]
    exact h.files id
  · simp only [hfiles]
    exact h.workers pid worker hworker
  · dsimp only
    rw [hfiles]
    exact h.rows id r hr hprinter hstate

/-- A job with a new id is added. -/
theorem CapturesKept.inserted {tr : List HostObs} {s : Host} {client : String} {o : Api.Outside}
    {parsed : ParsedJob} {report : PdfReport} {path : String} {db : Database}
    (h : CapturesKept directory tr s)
    (hinsert : s.world.db.insertJob (newJob parsed report o.id client path) o.now = .ok db) :
    CapturesKept directory
      (tr ++ [.queue (.created o.id client parsed.mode), .accepted o.id parsed.bytes])
      { s with world := { s.world with db := db } } := by
  obtain ⟨hfree, -, hrows⟩ := Database.insertJob_ok hinsert
  rw [newJob_id] at hfree
  have hmem : ∀ id bytes, .accepted id bytes ∈
      tr ++ [.queue (.created o.id client parsed.mode), .accepted o.id parsed.bytes] ↔
        .accepted id bytes ∈ tr ∨ id = o.id ∧ bytes = parsed.bytes := by
    intro id bytes
    simp
  -- nothing has been accepted with the drawn id
  have hnew : ∀ bytes, .accepted o.id bytes ∉ tr := fun bytes hold => h.known _ _ hold hfree
  refine ⟨fun id bytes haccepted => ?_, fun id bytes other hone hother => ?_,
    fun pid c hc => ?_, fun id => ?_, h.workers, fun id r hr hprinter hstate => ?_⟩
  · show db.job? id ≠ none
    rw [hrows, newJob_id]
    rcases (hmem id bytes).mp haccepted with hold | ⟨rfl, -⟩
    · split
      · simp
      · exact h.known id bytes hold
    · simp
  · rcases (hmem id bytes).mp hone with hone | ⟨rfl, rfl⟩
    · rcases (hmem id other).mp hother with hother | ⟨rfl, -⟩
      · exact h.unique id bytes other hone hother
      · exact absurd hone (hnew bytes)
    · rcases (hmem _ other).mp hother with hother | ⟨-, rfl⟩
      · exact absurd hother (hnew other)
      · rfl
  · obtain ⟨job, destination, hworker, hplace, haccepted, hthere⟩ := h.copies pid c hc
    exact ⟨job, destination, hworker, hplace, (hmem _ _).mpr (.inl haccepted), hthere⟩
  · rcases h.files id with hnone | ⟨bytes, file, haccepted, hfile, hcovered⟩
    · exact .inl hnone
    · exact .inr ⟨bytes, file, (hmem _ _).mpr (.inl haccepted), hfile, hcovered⟩
  · rcases Database.row_of_insertJob hinsert hr with ⟨-, rfl⟩ | hold
    · -- a new job is queued or a preview
      exfalso
      have hmode : (newJob parsed report o.id client path).state = .succeeded := hstate
      unfold newJob at hmode
      dsimp only at hmode
      split at hmode <;> cases hmode
    · exact h.rows id r hold hprinter hstate

theorem KnowsCaptures.mono {there there' : String → Prop} (himp : ∀ id, there id → there' id)
    {worker : Worker} (h : KnowsCaptures there worker) : KnowsCaptures there' worker := by
  unfold KnowsCaptures at h ⊢
  split <;> simp_all

/-- The capture of a job is written further, by a process that submits it. -/
theorem CapturesKept.write {tr : List HostObs} {s : Host} {pid position : Nat} {job : JobRow}
    {destination : String} {content file : List UInt8} (h : CapturesKept directory tr s)
    (hworker : s.world.worker? pid = some (.submitting job (.capture destination)))
    (haccepted : .accepted job.id content ∈ tr)
    (hplace : ∀ c, s.copies pid = some c → c.destination = captureFile directory job.id)
    (hcovered : Covered content file
      (Function.update (s.writers directory job.id) pid (some position))) :
    CapturesKept directory tr { s with
      files := Function.update s.files (captureFile directory job.id) (some file)
      copies := Function.update s.copies pid
        (some ⟨captureFile directory job.id, content, position⟩) } := by
  have hkept : ∀ path, s.files path ≠ none →
      Function.update s.files (captureFile directory job.id) (some file) path ≠ none := by
    intro path hpath
    by_cases heq : path = captureFile directory job.id
    · rw [heq, Function.update_self]
      simp
    · rwa [Function.update_of_ne heq]
  refine ⟨h.known, h.unique, fun q c hc => ?_, fun id => ?_, fun q worker hq => ?_,
    fun id r hr hprinter hstate => hkept _ (h.rows id r hr hprinter hstate)⟩
  · dsimp only at hc
    by_cases hq : q = pid
    · subst hq
      rw [Function.update_self] at hc
      cases hc
      exact ⟨job, destination, hworker, rfl, haccepted, by simp⟩
    · rw [Function.update_of_ne hq] at hc
      obtain ⟨other, place, hsub, hdest, hcontent, hthere⟩ := h.copies q c hc
      exact ⟨other, place, hsub, hdest, hcontent, hkept _ hthere⟩
  · dsimp only
    by_cases hid : id = job.id
    · subst hid
      refine .inr ⟨content, file, haccepted, Function.update_self .., ?_⟩
      convert hcovered using 1
      funext q
      unfold Host.writers
      by_cases hq : q = pid
      · subst hq
        simp
      · dsimp only
        rw [Function.update_of_ne hq, Function.update_of_ne hq]
    · have hne : captureFile directory id ≠ captureFile directory job.id :=
        fun heq => hid (captureFile_inj.mp heq)
      rw [Function.update_of_ne hne]
      rcases h.files id with hnone | ⟨bytes, old, hbytes, hold, hcov⟩
      · exact .inl hnone
      · refine .inr ⟨bytes, old, hbytes, hold, ?_⟩
        convert hcov using 1
        funext q
        unfold Host.writers
        by_cases hq : q = pid
        · subst hq
          -- neither the old nor the new copy writes this capture
          cases hc : s.copies q with
          | none => simp [Ne.symm hne]
          | some c => simp [Ne.symm hne, hplace c hc]
        · dsimp only
          rw [Function.update_of_ne hq]
  · exact (h.workers q worker hq).mono fun id hthere => hkept _ hthere

/-- `fs::copy` has opened its files. -/
theorem CapturesKept.opened {tr : List HostObs} {s : Host} {pid : Nat} {job : JobRow}
    {destination : String} {content : List UInt8} (h : CapturesKept directory tr s)
    (hfree : s.copies pid = none)
    (hworker : s.world.worker? pid = some (.submitting job (.capture destination)))
    (haccepted : .accepted job.id content ∈ tr) :
    CapturesKept directory tr { s with
      files := Function.update s.files (captureFile directory job.id) (some [])
      copies := Function.update s.copies pid
        (some ⟨captureFile directory job.id, content, 0⟩) } :=
  h.write hworker haccepted (fun c hc => by cases hfree.symm.trans hc)
    (covered_truncate content (Function.update_self ..))

/-- `fs::copy` has written its next chunk. -/
theorem CapturesKept.wrote {tr : List HostObs} {s : Host} {pid : Nat} {c : Copying}
    {file : List UInt8} (h : CapturesKept directory tr s) (hcopy : s.copies pid = some c)
    (hfile : s.files c.destination = some file) (count : Nat) :
    CapturesKept directory tr { s with
      files := Function.update s.files c.destination
        (some (writeAt file c.position (nextChunk c.content c.position count)))
      copies := Function.update s.copies pid (some { c with
        position := c.position + (nextChunk c.content c.position count).length }) } := by
  obtain ⟨job, destination, hworker, hplace, haccepted, -⟩ := h.copies pid c hcopy
  have hwriter : s.writers directory job.id pid = some c.position :=
    writers_eq_some.mpr ⟨c, hcopy, hplace, rfl⟩
  obtain ⟨bytes, old, hbytes, hold, hcovered⟩ : ∃ bytes old, .accepted job.id bytes ∈ tr ∧
      s.files (captureFile directory job.id) = some old ∧
      Covered bytes old (s.writers directory job.id) := by
    rcases h.files job.id with hnone | hthere
    · rw [hplace, hnone] at hfile
      cases hfile
    · exact hthere
  obtain rfl : c.content = bytes := h.content_eq hcopy hplace hbytes
  obtain rfl : old = file := by
    rw [hplace, hold] at hfile
    exact Option.some.inj hfile
  have hnext := h.write hworker haccepted
    (fun c' hc' => by cases hcopy.symm.trans hc'; exact hplace) (hcovered.write hwriter count)
  rwa [← hplace] at hnext

/-- A copy that ends has written everything, where no copy is cut short. -/
theorem done_of_endsCopy {s : Host} {i : HostInput} {pid : Nat}
    (hwhole : CutsNoCopy s i) (hends : EndsCopy s pid i) (c : Copying)
    (hc : s.copies pid = some c) : c.content.length ≤ c.position := by
  cases i with
  | copyDone q => exact hends.2 c hc
  | copyFails q =>
      obtain rfl : q = pid := hends
      exact hwhole c hc
  | panic q =>
      obtain rfl : q = pid := hends
      exact hwhole c hc
  | crash q =>
      obtain rfl : q = pid := hends
      exact hwhole c hc
  | _ => exact hends.elim

theorem capturesKept_move {tr obs : List HostObs} {s s' : Host} {i : HostInput}
    (hmove : HostMove sha256Hex validatePdf resolve directory s i s' obs)
    (hs : s.Settled resolve directory) (hwhole : CopiesWhole resolve tr s i)
    (h : CapturesKept directory tr s) : CapturesKept directory (tr ++ obs) s' := by
  have hcaptures : ∀ {id files}, SameButFilesOf directory id s.files files →
      ∀ other, files (captureFile directory other) = s.files (captureFile directory other) :=
    fun hfiles other => hfiles _ jobFile_ne_captureFile.symm temporaryFile_ne_captureFile.symm
  cases hmove with
  | idle => rwa [List.append_nil]
  | queued qi hcreate _ hcopies hcopied =>
      refine h.queued hs qi hcreate (fun pid => ?_) hcopied
      rcases hcopies pid with hgoes | ⟨hnone, hends⟩
      · exact .inl hgoes
      · exact .inr ⟨hnone, done_of_endsCopy hwhole.2 hends⟩
  | refused hfiles =>
      rw [List.append_nil]
      exact h.of_files (hcaptures hfiles)
  | stored _ _ _ hinsert _ hfiles => exact (h.inserted hinsert).of_files (hcaptures hfiles)
  | opened hhome hfree hworker hsource =>
      rw [List.append_nil]
      exact h.opened hfree hworker (hwhole.1 _ _ _ _ hhome hfree hworker hsource)
  | wrote hcopy hfile =>
      rw [List.append_nil]
      exact h.wrote hcopy hfile _

/-! ## Runs -/

/-- **When captures are complete or absent.**  Over every run of claims, captures,
    failures, crashes, restarts and retries: they are in every state in which no copy is
    in progress, when every copy is of the accepted document and no copy is cut short. -/
theorem captures_complete (sha256Hex : List UInt8 → String)
    (validatePdf : List UInt8 → String → Except String PdfReport)
    (resolve : AbsPath → OsString → AbsPath) (hresolve : Resolves resolve) (directory : AbsPath)
    (db : Database) (outside : AbsPath → Option (List UInt8)) (is : List HostInput) :
    let step := hostStep sha256Hex validatePdf resolve directory
    let start := Host.fresh directory db outside
    Along step (fun _ s i => Drawn s i) start is → Along step (CopiesWhole resolve) start is →
      CapturesComplete directory (trace step start is) (run step start is) := by
  intro step start hdrawn hwhole
  obtain ⟨-, hkept⟩ := host_run_invariant hresolve (CapturesKept directory)
    (capturesKept_fresh db outside)
    (fun _ _ _ _ _ hmove hs _ hi h => capturesKept_move hmove hs hi h) hdrawn hwhole
  exact hkept.complete

/-- Where accepted documents are retrievable, a copy opens the accepted document. -/
theorem opensAccepted_of_pathsFound (hreports : ReportsBytes sha256Hex validatePdf)
    (hresolve : Resolves resolve) {db : Database} {outside : AbsPath → Option (List UInt8)}
    {is : List HostInput}
    (hdrawn : Along (hostStep sha256Hex validatePdf resolve directory) (fun _ s i => Drawn s i)
      (.fresh directory db outside) is)
    (hfound : Along (hostStep sha256Hex validatePdf resolve directory)
      (fun _ s i => PathsFound sha256Hex validatePdf resolve directory s i)
      (.fresh directory db outside) is) :
    Along (hostStep sha256Hex validatePdf resolve directory) (OpensAccepted resolve)
      (.fresh directory db outside) is := by
  intro before i after heq
  have hbefore : before <+: is := ⟨i :: after, heq.symm⟩
  have hkept := retrievable_run hreports hresolve (hdrawn.of_prefix hbefore)
    (hfound.of_prefix hbefore)
  cases i with
  | copyOpen pid =>
      intro home job destination content hhome _ hworker hread
      obtain ⟨bytes, haccepted, hopen⟩ := hkept.workers pid home _ job hhome hworker rfl
      rw [hread] at hopen
      cases hopen
      exact haccepted
  | _ => trivial

/-- A process that opens no files copies nothing. -/
theorem copies_eq_none (hresolve : Resolves resolve) {db : Database}
    {outside : AbsPath → Option (List UInt8)} {is : List HostInput} {pid : Nat}
    (hdrawn : Along (hostStep sha256Hex validatePdf resolve directory) (fun _ s i => Drawn s i)
      (.fresh directory db outside) is)
    (hopens : ∀ i ∈ is, i ≠ .copyOpen pid) :
    (run (hostStep sha256Hex validatePdf resolve directory)
      (.fresh directory db outside) is).copies pid = none := by
  have halong : Along (hostStep sha256Hex validatePdf resolve directory)
      (fun _ _ i => i ≠ .copyOpen pid) (.fresh directory db outside) is :=
    along_input_iff.mpr hopens
  refine (host_run_invariant hresolve (fun _ s => s.copies pid = none) rfl
    (fun _ s s' i obs hmove _ _ hi h => ?_) hdrawn halong).2
  cases hmove with
  | idle => exact h
  | queued _ _ _ hcopies _ =>
      rcases hcopies pid with ⟨hsame, -⟩ | ⟨hnone, -⟩
      · exact hsame.trans h
      · exact hnone
  | refused => exact h
  | stored => exact h
  | @opened q =>
      have hq : pid ≠ q := fun heq => hi (heq ▸ rfl)
      exact (Function.update_of_ne hq _ _).trans h
  | @wrote q _ _ _ hcopy _ =>
      have hq : pid ≠ q := by
        rintro rfl
        cases h.symm.trans hcopy
      exact (Function.update_of_ne hq _ _).trans h

end

/-! ## A capture that is whole, and one that is cut short -/

/-- The worker has claimed the example job, and its copy has opened its files. -/
def exampleCopying : List HostInput :=
  exampleStored exampleAbsolute ++ [.queue (.worker 0 (.claim 1 0)),
    .queue (.worker 0 (.submit (some []))), .copyOpen 0]

/-- The rest of a copy in two chunks, and the job is recorded. -/
def exampleCaptured : List HostInput :=
  exampleCopying ++ [.copyChunk 0 200, .copyChunk 0 200, .copyDone 0,
    .queue (.worker 0 (.finish 2))]

/-- The disk is full after 100 bytes, and the job is recorded. -/
def exampleDiskFull : List HostInput :=
  exampleCopying ++ [.copyChunk 0 100, .copyFails 0, .queue (.worker 0 (.finish 2))]

theorem exampleAbsolute_in : exampleAbsolute.In resolveWindows exampleDirectory := by
  decide +kernel

/-- Only process 0 copies in the examples. -/
theorem copies_example {is : List HostInput}
    (hdrawn : Along exampleHostStep (fun _ s i => Drawn s i) exampleHost is)
    (hopens : ∀ i ∈ is, ∀ pid, i = .copyOpen pid → pid = 0)
    (hzero : (run exampleHostStep exampleHost is).copies 0 = none) (pid : Nat) :
    (run exampleHostStep exampleHost is).copies pid = none := by
  by_cases hpid : pid = 0
  · subst hpid
    exact hzero
  · exact copies_eq_none resolves_resolveWindows hdrawn fun i hi heq => hpid (hopens i hi pid heq)

theorem captures_complete_of_exampleCaptured :
    let s := run exampleHostStep exampleHost exampleCaptured
    s.files (captureFile exampleDirectory exampleJobId) = some PdfGuard.minimalPdf := by
  intro s
  obtain ⟨hzero, hthere, honly⟩ : (s.copies 0).isNone = true ∧
      (s.files (captureFile exampleDirectory exampleJobId)).isSome = true ∧
      (trace exampleHostStep exampleHost exampleCaptured).filterMap (fun
        | .accepted _ bytes => some bytes
        | _ => none) = [PdfGuard.minimalPdf] := by
    decide +kernel
  have hdrawn : Along exampleHostStep (fun _ s i => Drawn s i) exampleHost exampleCaptured := by
    unfold exampleCaptured exampleCopying
    rw [List.append_assoc]
    exact drawn_exampleStored exampleAbsolute_in (by simp)
  have hopens : Along exampleHostStep (OpensAccepted resolveWindows) exampleHost exampleCaptured :=
    opensAccepted_of_pathsFound (reportsBytes_validate _ _ _ _) resolves_resolveWindows hdrawn
      (pathsFound_of_absolute resolves_resolveWindows hdrawn (by
        simp [exampleCaptured, exampleCopying, exampleStored, StartsAbsolute, absolute_examples]))
  have hcuts : ∀ i ∈ exampleCaptured, ∀ s, CutsNoCopy s i := by
    simp [exampleCaptured, exampleCopying, exampleStored, CutsNoCopy]
  have hwhole : Along exampleHostStep (CopiesWhole resolveWindows) exampleHost exampleCaptured := by
    intro before i after heq
    have hi : i ∈ exampleCaptured := by
      rw [heq]
      exact List.mem_append_right before List.mem_cons_self
    exact ⟨hopens before i after heq, hcuts i hi _⟩
  have hkept : CapturesComplete exampleDirectory
      (trace exampleHostStep exampleHost exampleCaptured) s :=
    captures_complete _ _ resolveWindows resolves_resolveWindows exampleDirectory exampleDatabase
      _ _ hdrawn hwhole
  have hidle : ∀ pid, s.copies pid = none :=
    copies_example hdrawn (by simp [exampleCaptured, exampleCopying, exampleStored])
      (Option.isNone_iff_eq_none.mp hzero)
  rcases (hkept hidle exampleJobId).1 with hnone | ⟨bytes, haccepted, hfile⟩
  · rw [hnone] at hthere
    cases hthere
  · have hbytes : bytes ∈ [PdfGuard.minimalPdf] := by
      rw [← honly]
      exact List.mem_filterMap.mpr ⟨_, haccepted, rfl⟩
    rw [hfile, List.mem_singleton.mp hbytes]

/-- A copy that fails leaves a part of the document under the capture's name. -/
theorem capture_cut_short :
    let s := run exampleHostStep exampleHost exampleDiskFull
    let tr := trace exampleHostStep exampleHost exampleDiskFull
    Along exampleHostStep (fun _ s i => Drawn s i) exampleHost exampleDiskFull ∧
      (∀ pid, s.copies pid = none) ∧
      (s.world.db.job? exampleJobId).map (·.state) = some .failed ∧
      s.files (captureFile exampleDirectory exampleJobId) =
        some (PdfGuard.minimalPdf.take 100) ∧
      ¬ CapturesComplete exampleDirectory tr s := by
  intro s tr
  obtain ⟨hzero, hstate, hfile, hpart, haccepted⟩ : (s.copies 0).isNone = true ∧
      (s.world.db.job? exampleJobId).map (·.state) = some .failed ∧
      s.files (captureFile exampleDirectory exampleJobId) =
        some (PdfGuard.minimalPdf.take 100) ∧
      PdfGuard.minimalPdf.take 100 ≠ PdfGuard.minimalPdf ∧
      tr.filterMap (fun
        | .accepted _ bytes => some bytes
        | _ => none) = [PdfGuard.minimalPdf] := by
    decide +kernel
  have hdrawn : Along exampleHostStep (fun _ s i => Drawn s i) exampleHost exampleDiskFull := by
    unfold exampleDiskFull exampleCopying
    rw [List.append_assoc]
    exact drawn_exampleStored exampleAbsolute_in (by simp)
  have hidle : ∀ pid, s.copies pid = none :=
    copies_example hdrawn (by simp [exampleDiskFull, exampleCopying, exampleStored])
      (Option.isNone_iff_eq_none.mp hzero)
  refine ⟨hdrawn, hidle, hstate, hfile, fun hkept => ?_⟩
  rcases (hkept hidle exampleJobId).1 with hnone | ⟨bytes, hmem, hwhole⟩
  · rw [hnone] at hfile
    cases hfile
  · have hbytes : bytes ∈ [PdfGuard.minimalPdf] := by
      rw [← haccepted]
      exact List.mem_filterMap.mpr ⟨_, hmem, rfl⟩
    rw [List.mem_singleton.mp hbytes, hfile] at hwhole
    exact hpart (Option.some.inj hwhole)

end PrintLatch.Storage
