/-
  PrintLatch.Storage.System

  The agents of one data directory with the files of the machine: the queue's system,
  and the calls that write and read documents (`write_job_file` and `create_job` in
  `src/api.rs`, `submit` in `src/printers.rs`).

  An agent is started from a current directory with a `--data-dir`; both decide what a
  path means to it.  Files are kept by their absolute paths.  `directory` is the data
  directory; an agent whose `--data-dir` names another one is none of this system's.

  A `create` is the whole handler after authentication: nothing else reads or writes
  the files of a drawn id before its row is there.  A crash in the middle of it leaves
  what a failure there leaves.  A capture is `fs::copy`, which creates or truncates the
  destination and then writes chunk after chunk; other steps come in between.
-/

import PrintLatch.Api.Handlers
import PrintLatch.Files.Chunks
import PrintLatch.Files.OsPath
import PrintLatch.Queue.Columns
import Mathlib.Data.List.Infix
import Mathlib.Data.UInt

namespace PrintLatch.Storage

open Files Reactive

/-- Where an agent runs: its current directory, and its `--data-dir`. -/
structure Home where
  cwd : AbsPath
  dataDir : OsString
  deriving DecidableEq, Repr

/-- A running `fs::copy`: the source is open, and written up to a position. -/
structure Copying where
  destination : AbsPath
  content : List UInt8
  position : Nat
  deriving DecidableEq, Repr

/-- The queue's system, the files, where each agent runs and what it copies. -/
structure Host where
  world : Queue.World
  files : AbsPath → Option (List UInt8)
  homes : Nat → Option Home
  copies : Nat → Option Copying

/-- What happens next. -/
inductive HostInput where
  | start (pid : Nat) (home : Home) (port : Nat) (now : Int)
  | create (pid : Nat) (client : String) (multipart : Api.Multipart) (o : Api.Outside)
  | copyOpen (pid : Nat)
  | copyChunk (pid count : Nat)
  | copyDone (pid : Nat)
  | copyFails (pid : Nat)
  /-- The blocking thread of `submit` panics. -/
  | panic (pid : Nat)
  | crash (pid : Nat)
  /-- Any other step of the queue's system. -/
  | queue (i : Queue.Input)

/-- What is seen: what the queue's system shows, and the documents accepted with a
    job. -/
inductive HostObs where
  | queue (o : Obs)
  | accepted (id : String) (bytes : List UInt8)
  deriving DecidableEq, Repr

/-- The steps of the queue's system that touch no file and no process. -/
def touchesNoFile : Queue.Input → Bool
  | .cancel .. | .retry .. | .bind _ | .shutdown _ => true
  | .create .. | .start .. | .crash _ => false
  | .worker _ (.copyFile _) | .worker _ .panic => false
  | .worker .. => true

/-! ## Paths -/

/-- `AppConfig::jobs_dir`. -/
def Home.jobsDir (home : Home) : OsString := join home.dataDir (ofText "jobs")

/-- `AppConfig::captures_dir`. -/
def Home.capturesDir (home : Home) : OsString := join home.dataDir (ofText "captures")

/-- The path of job `id`'s document in `create_job`. -/
def Home.jobPath (home : Home) (id : String) : OsString :=
  join home.jobsDir (ofText (id ++ ".pdf"))

/-- `path.with_extension("pdf.tmp")` of it. -/
def Home.temporaryPath (home : Home) (id : String) : OsString :=
  join home.jobsDir (ofText (id ++ ".pdf.tmp"))

/-- The destination of job `id` in `submit`. -/
def Home.capturePath (home : Home) (id : String) : OsString :=
  join home.capturesDir (ofText (id ++ ".pdf"))

/-- The text that `create_job` stores. -/
def Home.storedPath (home : Home) (id : String) : String := toStringLossy (home.jobPath id)

/-- The configuration as its texts are shown. -/
def Home.config (home : Home) (port : Nat) : AppConfig := ⟨toStringLossy home.dataDir, port⟩

/-! ## The machine -/

section

variable (sha256Hex : List UInt8 → String)
  (validatePdf : List UInt8 → String → Except String PdfReport)
  (resolve : AbsPath → OsString → AbsPath) (directory : AbsPath)

/-- A data directory without jobs and files, among other files. -/
def Host.fresh (db : Database) (outside : AbsPath → Option (List UInt8)) : Host where
  world := .noJobs db
  files path := if directory <+: path then none else outside path
  homes _ := none
  copies _ := none

/-- The `--data-dir` names the data directory. -/
def Home.In (home : Home) : Prop := resolve home.cwd home.dataDir = directory

instance (home : Home) : Decidable (home.In resolve directory) := by
  unfold Home.In; infer_instance

/-- What an agent finds under a stored path. -/
def Home.read (home : Home) (files : AbsPath → Option (List UInt8)) (text : String) :
    Option (List UInt8) := files (resolve home.cwd (ofText text))

/-- `write_job_file`: whether it succeeded. -/
def writeJobFile (files : AbsPath → Option (List UInt8)) (path temporary : AbsPath)
    (bytes : List UInt8) (o : Api.Outside) : (AbsPath → Option (List UInt8)) × Bool :=
  if .writeFile ∈ o.faults then (Function.update files temporary o.leftover, false)
  else
    let written := Function.update files temporary (some bytes)
    if .renameFile ∈ o.faults then (written, false)
    else (Function.update (Function.update written temporary none) path (some bytes), true)

/-- `create_job` after the PDF check. -/
def storeJob (s : Host) (home : Home) (client : String) (parsed : ParsedJob)
    (report : PdfReport) (o : Api.Outside) : Host × List HostObs :=
  let path := resolve home.cwd (home.jobPath o.id)
  let temporary := resolve home.cwd (home.temporaryPath o.id)
  match writeJobFile s.files path temporary parsed.bytes o with
  | (files, false) => ({ s with files := files }, [])
  | (files, true) =>
      let job := newJob parsed report o.id client (home.storedPath o.id)
      let inserted : Except DbError Database :=
        if .insert ∈ o.faults then .error (.message "database call failed")
        else s.world.db.insertJob job o.now
      match inserted with
      | .error _ =>
          -- the error of `remove_file` is ignored
          ({ s with files :=
              if .removeFile ∈ o.faults then files else Function.update files path none }, [])
      | .ok db =>
          ({ s with world := { s.world with db := db }, files := files },
            [.queue (.created o.id client parsed.mode), .accepted o.id parsed.bytes])

/-- A step of the queue's system. -/
def queueStep (s : Host) (i : Queue.Input) : Host × List HostObs :=
  ({ s with world := (Queue.step sha256Hex s.world i).1 },
    (Queue.step sha256Hex s.world i).2.map .queue)

/-- The end of `fs::copy`. -/
def endCopy (s : Host) (pid : Nat) (copied : Bool) : Host × List HostObs :=
  queueStep sha256Hex { s with copies := Function.update s.copies pid none }
    (.worker pid (.copyFile copied))

/-- One step of the system. -/
def hostStep (s : Host) : HostInput → Host × List HostObs
  | .start pid home port now =>
      if s.world.procs pid = none ∧ home.In resolve directory then
        queueStep sha256Hex { s with homes := Function.update s.homes pid (some home) }
          (.start pid (home.config port) now)
      else (s, [])
  | .create pid client multipart o =>
      match s.homes pid with
      | none => (s, [])
      | some home =>
          match Api.admitJob sha256Hex validatePdf multipart o with
          | .error _ => (s, [])
          | .ok (parsed, report) => storeJob resolve s home client parsed report o
  | .copyOpen pid =>
      match s.homes pid, s.copies pid, s.world.worker? pid with
      | some home, none, some (.submitting job (.capture _)) =>
          match home.read resolve s.files job.filePath with
          | none => (s, [])
          | some content =>
              let destination := resolve home.cwd (home.capturePath job.id)
              ({ s with
                  files := Function.update s.files destination (some [])
                  copies := Function.update s.copies pid (some ⟨destination, content, 0⟩) }, [])
      | _, _, _ => (s, [])
  | .copyChunk pid count =>
      match s.copies pid with
      | none => (s, [])
      | some c =>
          match s.files c.destination with
          | none => (s, [])
          | some file =>
              let chunk := nextChunk c.content c.position count
              ({ s with
                  files := Function.update s.files c.destination
                    (some (writeAt file c.position chunk))
                  copies := Function.update s.copies pid
                    (some { c with position := c.position + chunk.length }) }, [])
  | .copyDone pid =>
      match s.copies pid with
      | none => (s, [])
      | some c =>
          if c.content.length ≤ c.position then endCopy sha256Hex s pid true else (s, [])
  | .copyFails pid => endCopy sha256Hex s pid false
  | .panic pid =>
      queueStep sha256Hex { s with copies := Function.update s.copies pid none }
        (.worker pid .panic)
  | .crash pid =>
      queueStep sha256Hex
        { s with
          homes := Function.update s.homes pid none
          copies := Function.update s.copies pid none } (.crash pid)
  | .queue i => if touchesNoFile i then queueStep sha256Hex s i else (s, [])

end

/-! ## Places -/

/-- The document of job `id`. -/
def jobFile (directory : AbsPath) (id : String) : AbsPath :=
  directory ++ [ofText "jobs", ofText (id ++ ".pdf")]

/-- Its temporary file. -/
def temporaryFile (directory : AbsPath) (id : String) : AbsPath :=
  directory ++ [ofText "jobs", ofText (id ++ ".pdf.tmp")]

/-- Its capture. -/
def captureFile (directory : AbsPath) (id : String) : AbsPath :=
  directory ++ [ofText "captures", ofText (id ++ ".pdf")]

/-- The digits and hyphens of a drawn id: `Uuid::to_string`. -/
def UuidText (id : String) : Prop :=
  ∀ c ∈ id.toList, c ∈ "0123456789abcdef-".toList

instance (id : String) : Decidable (UuidText id) :=
  List.decidableBAll (· ∈ "0123456789abcdef-".toList) id.toList

section

variable {directory : AbsPath} {id id' : String}

/-- A name with an ending has one stem. -/
theorem leaf_inj {suffix : String} : ofText (id ++ suffix) = ofText (id' ++ suffix) ↔ id = id' := by
  simp [ofText_inj]

theorem jobFile_inj : jobFile directory id = jobFile directory id' ↔ id = id' := by
  constructor
  · intro h
    exact leaf_inj.mp (List.cons.inj (List.cons.inj (List.append_cancel_left h)).2).1
  · rintro rfl
    rfl

theorem captureFile_inj : captureFile directory id = captureFile directory id' ↔ id = id' := by
  constructor
  · intro h
    exact leaf_inj.mp (List.cons.inj (List.cons.inj (List.append_cancel_left h)).2).1
  · rintro rfl
    rfl

theorem jobFile_ne_captureFile : jobFile directory id ≠ captureFile directory id' := by
  intro h
  have hnames := List.append_cancel_left h
  have hjobs : ofText "jobs" = ofText "captures" := (List.cons.inj hnames).1
  simp at hjobs

theorem temporaryFile_ne_captureFile : temporaryFile directory id ≠ captureFile directory id' := by
  intro h
  have hnames := List.append_cancel_left h
  have hjobs : ofText "jobs" = ofText "captures" := (List.cons.inj hnames).1
  simp at hjobs

theorem jobFile_ne_temporaryFile : jobFile directory id ≠ temporaryFile directory id' := by
  intro h
  have hnames := List.append_cancel_left h
  have hleaf : ofText (id ++ ".pdf") = ofText (id' ++ ".pdf.tmp") :=
    (List.cons.inj (List.cons.inj hnames).2).1
  -- the names end in different letters
  have hlast : (ofText (id ++ ".pdf")).getLast? = (ofText (id' ++ ".pdf.tmp")).getLast? :=
    congrArg List.getLast? hleaf
  have hdoc : (ofText ".pdf").getLast? = some (.char 'f') := by decide
  have htmp : (ofText ".pdf.tmp").getLast? = some (.char 'p') := by decide
  rw [ofText_append, ofText_append, List.getLast?_append, List.getLast?_append, hdoc, htmp] at hlast
  simp at hlast

/-- A text of more than two characters without separators and colons is a name. -/
theorem plain_ofText {name : String} (hlong : 2 < name.toList.length)
    (hname : ∀ c ∈ name.toList, c ≠ '\\' ∧ c ≠ '/' ∧ c ≠ ':') : Plain (ofText name) := by
  have hne : ∀ short : String, short.toList.length ≤ 2 → ofText name ≠ ofText short := by
    rintro short hshort heq
    rw [ofText_injective heq] at hlong
    omega
  refine ⟨hne "" (by decide), fun u hu => ?_, hne "." (by decide), hne ".." (by decide)⟩
  obtain ⟨c, hc, rfl⟩ := List.mem_map.mp hu
  simp [isSep, hname c hc]

/-- A drawn id with an ending is a name. -/
theorem UuidText.plain (h : UuidText id) {ending : String} (hlong : 2 < ending.toList.length)
    (hending : ∀ c ∈ ending.toList, c ≠ '\\' ∧ c ≠ '/' ∧ c ≠ ':') :
    Plain (ofText (id ++ ending)) := by
  have hdigits : ∀ c ∈ "0123456789abcdef-".toList, c ≠ '\\' ∧ c ≠ '/' ∧ c ≠ ':' := by simp
  apply plain_ofText
  · rw [String.toList_append, List.length_append]
    omega
  · intro c hc
    rw [String.toList_append] at hc
    rcases List.mem_append.mp hc with hc | hc
    · exact hdigits c (h c hc)
    · exact hending c hc

end

/-! ## Agents at home -/

section

variable {resolve : AbsPath → OsString → AbsPath} {directory : AbsPath} {home : Home} {id : String}

/-- A path of two names in the data directory. -/
theorem resolve_join_join (hresolve : Resolves resolve) (hin : home.In resolve directory)
    {folder leaf : OsString} (hfolder : Plain folder) (hleaf : Plain leaf) :
    resolve home.cwd (join (join home.dataDir folder) leaf) = directory ++ [folder, leaf] := by
  rw [hresolve.join _ _ _ hleaf, hresolve.join _ _ _ hfolder, hin, List.append_assoc]
  rfl

/-- An agent writes the document of a job to its place. -/
theorem resolve_jobPath (hresolve : Resolves resolve) (hin : home.In resolve directory)
    (hid : UuidText id) : resolve home.cwd (home.jobPath id) = jobFile directory id :=
  resolve_join_join hresolve hin (plain_ofText (by decide) (by simp))
    (hid.plain (by decide) (by simp))

theorem resolve_temporaryPath (hresolve : Resolves resolve) (hin : home.In resolve directory)
    (hid : UuidText id) : resolve home.cwd (home.temporaryPath id) = temporaryFile directory id :=
  resolve_join_join hresolve hin (plain_ofText (by decide) (by simp))
    (hid.plain (by decide) (by simp))

theorem resolve_capturePath (hresolve : Resolves resolve) (hin : home.In resolve directory)
    (hid : UuidText id) : resolve home.cwd (home.capturePath id) = captureFile directory id :=
  resolve_join_join hresolve hin (plain_ofText (by decide) (by simp))
    (hid.plain (by decide) (by simp))

end

/-! ## What a step can do -/

section

variable (sha256Hex : List UInt8 → String)
  (validatePdf : List UInt8 → String → Except String PdfReport)
  (resolve : AbsPath → OsString → AbsPath) (directory : AbsPath)

/-- The `uuid` crate: a drawn id is a UUID in text form, and new. -/
def Drawn (s : Host) : HostInput → Prop
  | .create _ _ _ o => UuidText o.id ∧ s.world.db.job? o.id = none
  | _ => True

/-- What holds of the agents and their jobs along every run. -/
structure Host.Settled (s : Host) : Prop where
  homes : ∀ pid home, s.homes pid = some home → home.In resolve directory
  ids : ∀ id r, s.world.db.job? id = some r → UuidText id
  held : Queue.HeldRows s.world
  copies : ∀ pid c, s.copies pid = some c → ∃ id, c.destination = captureFile directory id

/-- Nothing but the two files of job `id` differs. -/
def SameButFilesOf (id : String) (files files' : AbsPath → Option (List UInt8)) : Prop :=
  ∀ path, path ≠ jobFile directory id → path ≠ temporaryFile directory id →
    files' path = files path

/-- The copy of process `pid` ends with this input. -/
def EndsCopy (s : Host) (pid : Nat) : HostInput → Prop
  | .copyDone q => q = pid ∧ ∀ c, s.copies pid = some c → c.content.length ≤ c.position
  | .copyFails q | .panic q | .crash q => q = pid
  | _ => False

/-- What one step does. -/
inductive HostMove (s : Host) : HostInput → Host → List HostObs → Prop
  | idle (i : HostInput) : HostMove s i s []
  /-- A step of the queue's system that adds no job; agents start and end, and copies
      end. -/
  | queued {i : HostInput} {homes : Nat → Option Home} {copies : Nat → Option Copying}
      (qi : Queue.Input)
      (hcreate : ∀ parsed report id client path now,
        qi ≠ .create parsed report id client path now)
      (hhomes : ∀ pid home, homes pid = some home → s.homes pid = some home ∨
        (∃ port now, i = .start pid home port now) ∧ s.world.procs pid = none ∧
          home.In resolve directory)
      (hcopies : ∀ pid, copies pid = s.copies pid ∧ ¬ qi.endsSubmission pid ∨
        copies pid = none ∧ EndsCopy s pid i)
      (hcopied : ∀ pid, qi = .worker pid (.copyFile true) → ∃ c, s.copies pid = some c) :
      HostMove s i ⟨(Queue.step sha256Hex s.world qi).1, s.files, homes, copies⟩
        ((Queue.step sha256Hex s.world qi).2.map .queue)
  | refused {pid : Nat} {client : String} {multipart : Api.Multipart} {o : Api.Outside}
      {files : AbsPath → Option (List UInt8)}
      (hfiles : SameButFilesOf directory o.id s.files files) :
      HostMove s (.create pid client multipart o) { s with files := files } []
  | stored {pid : Nat} {client : String} {multipart : Api.Multipart} {o : Api.Outside}
      {files : AbsPath → Option (List UInt8)} {home : Home} {parsed : ParsedJob}
      {report : PdfReport} {db : Database} (hhome : s.homes pid = some home)
      (hadmitted : Api.admitJob sha256Hex validatePdf multipart o = .ok (parsed, report))
      (hfaults : .writeFile ∉ o.faults ∧ .renameFile ∉ o.faults ∧ .insert ∉ o.faults)
      (hinsert : s.world.db.insertJob (newJob parsed report o.id client (home.storedPath o.id))
        o.now = .ok db)
      (hfile : files (jobFile directory o.id) = some parsed.bytes)
      (hfiles : SameButFilesOf directory o.id s.files files) :
      HostMove s (.create pid client multipart o)
        ⟨{ s.world with db := db }, files, s.homes, s.copies⟩
        [.queue (.created o.id client parsed.mode), .accepted o.id parsed.bytes]
  | opened {pid : Nat} {home : Home} {job : JobRow} {destination : String}
      {content : List UInt8} (hhome : s.homes pid = some home) (hfree : s.copies pid = none)
      (hworker : s.world.worker? pid = some (.submitting job (.capture destination)))
      (hsource : home.read resolve s.files job.filePath = some content) :
      HostMove s (.copyOpen pid)
        { s with
          files := Function.update s.files (captureFile directory job.id) (some [])
          copies := Function.update s.copies pid
            (some ⟨captureFile directory job.id, content, 0⟩) } []
  | wrote {pid count : Nat} {c : Copying} {file : List UInt8} (hcopy : s.copies pid = some c)
      (hfile : s.files c.destination = some file) :
      HostMove s (.copyChunk pid count)
        { s with
          files := Function.update s.files c.destination
            (some (writeAt file c.position (nextChunk c.content c.position count)))
          copies := Function.update s.copies pid (some { c with
            position := c.position + (nextChunk c.content c.position count).length }) } []

variable {sha256Hex validatePdf resolve directory}

/-- The queue's system accepts no document. -/
theorem accepted_mem_queued {tr : List HostObs} {obs : List Obs} {id : String}
    {bytes : List UInt8} :
    .accepted id bytes ∈ tr ++ obs.map HostObs.queue ↔ .accepted id bytes ∈ tr := by
  simp

theorem sameButFilesOf_writeJobFile {files : AbsPath → Option (List UInt8)} {id : String}
    {bytes : List UInt8} {o : Api.Outside} :
    SameButFilesOf directory id files (writeJobFile files (jobFile directory id)
      (temporaryFile directory id) bytes o).1 := by
  intro path hjob htmp
  unfold writeJobFile
  split
  · exact Function.update_of_ne htmp _ _
  · dsimp only
    split
    · exact Function.update_of_ne htmp _ _
    · dsimp only
      rw [Function.update_of_ne hjob, Function.update_of_ne htmp, Function.update_of_ne htmp]

/-- When `write_job_file` succeeds, the document is at its place. -/
theorem writeJobFile_eq {files files' : AbsPath → Option (List UInt8)} {path temporary : AbsPath}
    {bytes : List UInt8} {o : Api.Outside}
    (h : writeJobFile files path temporary bytes o = (files', true)) :
    .writeFile ∉ o.faults ∧ .renameFile ∉ o.faults ∧ files' path = some bytes := by
  unfold writeJobFile at h
  split at h
  · cases h
  · next hwrite =>
      dsimp only at h
      split at h
      · cases h
      · next hrename =>
          cases h
          exact ⟨hwrite, hrename, Function.update_self ..⟩

/-- The move of a `create_job` that has passed the PDF check. -/
theorem hostMove_of_storeJob {s : Host} {pid : Nat} {client : String}
    {multipart : Api.Multipart} {o : Api.Outside} {home : Home} {parsed : ParsedJob}
    {report : PdfReport} (hresolve : Resolves resolve) (hhome : s.homes pid = some home)
    (hin : home.In resolve directory) (hid : UuidText o.id)
    (hadmitted : Api.admitJob sha256Hex validatePdf multipart o = .ok (parsed, report)) :
    HostMove sha256Hex validatePdf resolve directory s (.create pid client multipart o)
      (storeJob resolve s home client parsed report o).1
      (storeJob resolve s home client parsed report o).2 := by
  have hsame : SameButFilesOf directory o.id s.files (writeJobFile s.files
      (jobFile directory o.id) (temporaryFile directory o.id) parsed.bytes o).1 :=
    sameButFilesOf_writeJobFile
  unfold storeJob
  rw [resolve_jobPath hresolve hin hid, resolve_temporaryPath hresolve hin hid]
  dsimp only
  generalize hwritten : writeJobFile s.files (jobFile directory o.id)
    (temporaryFile directory o.id) parsed.bytes o = written at hsame ⊢
  obtain ⟨files, success⟩ := written
  cases success with
  | false => exact .refused hsame
  | true =>
      obtain ⟨hwrite, hrename, hfile⟩ := writeJobFile_eq hwritten
      -- a refused row takes the document back, or leaves it
      have hremoved : SameButFilesOf directory o.id s.files
          (if .removeFile ∈ o.faults then files
            else Function.update files (jobFile directory o.id) none) := by
        intro path hjob htmp
        split
        · exact hsame path hjob htmp
        · rw [Function.update_of_ne hjob]
          exact hsame path hjob htmp
      dsimp only
      split
      · exact .refused hremoved
      · next db hinserted =>
          split at hinserted
          · cases hinserted
          · next hinsert =>
              exact .stored hhome hadmitted ⟨hwrite, hrename, hinsert⟩ hinserted hfile hsame

/-- A step of the queue's system that touches no file adds no job and ends no
    submission. -/
theorem not_endsSubmission {qi : Queue.Input} (h : touchesNoFile qi = true) (pid : Nat) :
    ¬ qi.endsSubmission pid := by
  cases qi with
  | worker q input => cases input <;> simp_all [touchesNoFile, Queue.Input.endsSubmission]
  | _ => simp_all [touchesNoFile, Queue.Input.endsSubmission]

/-- The copy of one process ends; what the others copy goes on. -/
theorem endsCopy_update {s : Host} {q : Nat} {i : HostInput} {qi : Queue.Input}
    (hi : EndsCopy s q i) (hqi : ∀ pid, qi.endsSubmission pid → pid = q) (pid : Nat) :
    Function.update s.copies q none pid = s.copies pid ∧ ¬ qi.endsSubmission pid ∨
      Function.update s.copies q none pid = none ∧ EndsCopy s pid i := by
  by_cases hpid : pid = q
  · subst hpid
    exact .inr ⟨Function.update_self .., hi⟩
  · exact .inl ⟨Function.update_of_ne hpid _ _, fun hends => hpid (hqi pid hends)⟩

/-- Every step is one of the moves. -/
theorem hostMove_of_step (hresolve : Resolves resolve) {s : Host} {i : HostInput}
    (hs : s.Settled resolve directory) (hi : Drawn s i) :
    HostMove sha256Hex validatePdf resolve directory s i
      (hostStep sha256Hex validatePdf resolve directory s i).1
      (hostStep sha256Hex validatePdf resolve directory s i).2 := by
  cases i with
  | start pid home port now =>
      simp only [hostStep]
      split
      · next hstart =>
          refine .queued _ (by simp) (fun q other hother => ?_)
            (fun q => .inl ⟨rfl, by simp [Queue.Input.endsSubmission]⟩) (by simp)
          dsimp only at hother
          by_cases hq : q = pid
          · subst hq
            rw [Function.update_self] at hother
            cases hother
            exact .inr ⟨⟨port, now, rfl⟩, hstart⟩
          · rw [Function.update_of_ne hq] at hother
            exact .inl hother
      · exact .idle _
  | create pid client multipart o =>
      simp only [hostStep]
      split
      · exact .idle _
      · next home hhome =>
          split
          · exact .idle _
          · next parsed report hadmitted =>
              exact hostMove_of_storeJob hresolve hhome (hs.homes pid home hhome) hi.1 hadmitted
  | copyOpen pid =>
      simp only [hostStep]
      split
      · next home job destination hhome hfree hworker =>
          split
          · exact .idle _
          · next content hsource =>
              obtain ⟨r, hr, -⟩ := hs.held pid _ job hworker rfl
              rw [resolve_capturePath hresolve (hs.homes pid home hhome) (hs.ids _ r hr)]
              exact .opened hhome hfree hworker hsource
      · exact .idle _
  | copyChunk pid count =>
      simp only [hostStep]
      split
      · exact .idle _
      · next c hcopy =>
          split
          · exact .idle _
          · next file hfile => exact .wrote hcopy hfile
  | copyDone pid =>
      simp only [hostStep]
      split
      · exact .idle _
      · next c hcopy =>
          split
          · next hdone =>
              have hall : ∀ c', s.copies pid = some c' → c'.content.length ≤ c'.position := by
                intro c' hc'
                obtain rfl : c = c' := Option.some.inj (hcopy.symm.trans hc')
                exact hdone
              refine .queued _ (by simp) (fun q home hhome => .inl hhome)
                (endsCopy_update ⟨rfl, hall⟩ fun q hq => hq.symm) fun q hq => ?_
              obtain rfl : pid = q := by simpa using hq
              exact ⟨c, hcopy⟩
          · exact .idle _
  | copyFails pid =>
      exact .queued _ (by simp) (fun q home hhome => .inl hhome)
        (endsCopy_update rfl fun q hq => hq.symm) (by simp)
  | panic pid =>
      exact .queued _ (by simp) (fun q home hhome => .inl hhome)
        (endsCopy_update rfl fun q hq => hq.symm) (by simp)
  | crash pid =>
      refine .queued _ (by simp) (fun q home hhome => .inl ?_)
        (endsCopy_update rfl fun q hq => hq.symm) (by simp)
      dsimp only at hhome
      by_cases hq : q = pid
      · subst hq
        simp at hhome
      · rwa [Function.update_of_ne hq] at hhome
  | queue qi =>
      simp only [hostStep]
      split
      · next hplain =>
          refine .queued qi (fun _ _ _ _ _ _ heq => ?_) (fun q home hhome => .inl hhome)
            (fun q => .inl ⟨rfl, not_endsSubmission hplain q⟩) fun q hq => ?_
          · rw [heq] at hplain
            cases hplain
          · rw [hq] at hplain
            cases hplain
      · exact .idle _

/-! ## What holds along every run -/

theorem settled_fresh (db : Database) (outside : AbsPath → Option (List UInt8)) :
    (Host.fresh directory db outside).Settled resolve directory where
  homes _ _ h := by cases h
  ids _ _ h := by cases h
  held := Queue.heldRows_ofDatabase _
  copies _ _ h := by cases h

/-- The queue's part of a stored job is its `create`. -/
theorem step_create {w : Queue.World} {db : Database} {parsed : ParsedJob} {report : PdfReport}
    {id client path : String} {now : Int}
    (h : w.db.insertJob (newJob parsed report id client path) now = .ok db) :
    (Queue.step sha256Hex w (.create parsed report id client path now)).1 =
      { w with db := db } := by
  simp only [Queue.step, h]

theorem settled_move {s s' : Host} {i : HostInput} {obs : List HostObs}
    (h : HostMove sha256Hex validatePdf resolve directory s i s' obs)
    (hs : s.Settled resolve directory) (hi : Drawn s i) : s'.Settled resolve directory := by
  cases h with
  | idle => exact hs
  | queued qi hcreate hhomes hcopies _ =>
      refine ⟨fun pid home hhome => ?_, fun id r hr => ?_,
        Queue.heldRows_step sha256Hex qi hs.held, fun pid c hc => ?_⟩
      · rcases hhomes pid home hhome with hold | ⟨-, -, hin⟩
        · exact hs.homes pid home hold
        · exact hin
      · obtain ⟨old, hold, -⟩ := Queue.row_of_step sha256Hex s.world hr hcreate
        exact hs.ids id old hold
      · rcases hcopies pid with ⟨hsame, -⟩ | ⟨hnone, -⟩
        · exact hs.copies pid c (hsame ▸ hc)
        · dsimp only at hc
          rw [hnone] at hc
          cases hc
  | refused _ => exact ⟨hs.homes, hs.ids, hs.held, hs.copies⟩
  | @stored _ client _ o _ home parsed report _ _ _ _ hinsert _ _ =>
      refine ⟨hs.homes, fun id r hr => ?_, ?_, hs.copies⟩
      · rcases Database.row_of_insertJob hinsert hr with ⟨hid, -⟩ | hold
        · rw [newJob_id] at hid
          exact hid ▸ hi.1
        · exact hs.ids id r hold
      · have hheld := Queue.heldRows_step sha256Hex (.create parsed report o.id client
          (home.storedPath o.id) o.now) hs.held
        rwa [step_create hinsert] at hheld
  | @opened pid _ job =>
      refine ⟨hs.homes, hs.ids, hs.held, fun q c hc => ?_⟩
      dsimp only at hc
      rcases eq_or_ne q pid with rfl | hq
      · rw [Function.update_self] at hc
        cases hc
        exact ⟨job.id, rfl⟩
      · rw [Function.update_of_ne hq] at hc
        exact hs.copies q c hc
  | @wrote pid _ c _ hcopy =>
      refine ⟨hs.homes, hs.ids, hs.held, fun q c' hc => ?_⟩
      dsimp only at hc
      rcases eq_or_ne q pid with rfl | hq
      · rw [Function.update_self] at hc
        cases hc
        exact hs.copies q c hcopy
      · rw [Function.update_of_ne hq] at hc
        exact hs.copies q c' hc

/-- An invariant that every move keeps holds along every run with drawn ids. -/
theorem host_run_invariant (hresolve : Resolves resolve) {db : Database}
    {outside : AbsPath → Option (List UInt8)} {ok : List HostObs → Host → HostInput → Prop}
    (Inv : List HostObs → Host → Prop) (hfresh : Inv [] (.fresh directory db outside))
    (hmove : ∀ tr s s' i obs, HostMove sha256Hex validatePdf resolve directory s i s' obs →
      s.Settled resolve directory → Drawn s i → ok tr s i → Inv tr s → Inv (tr ++ obs) s')
    {is : List HostInput}
    (hdrawn : Along (hostStep sha256Hex validatePdf resolve directory) (fun _ s i => Drawn s i)
      (.fresh directory db outside) is)
    (hok : Along (hostStep sha256Hex validatePdf resolve directory) ok
      (.fresh directory db outside) is) :
    let step := hostStep sha256Hex validatePdf resolve directory
    let s := run step (.fresh directory db outside) is
    s.Settled resolve directory ∧ Inv (trace step (.fresh directory db outside) is) s := by
  intro step s
  have hboth : Along step (fun tr s i => Drawn s i ∧ ok tr s i) (.fresh directory db outside) is :=
    fun pre i post heq => ⟨hdrawn pre i post heq, hok pre i post heq⟩
  refine run_history_invariant (fun tr s => s.Settled resolve directory ∧ Inv tr s)
    ⟨settled_fresh db outside, hfresh⟩ ?_ hboth
  rintro tr t i ⟨hdraw, hokay⟩ ⟨hsettled, hinv⟩
  have hstep : HostMove sha256Hex validatePdf resolve directory t i (step t i).1 (step t i).2 :=
    hostMove_of_step hresolve hsettled hdraw
  exact ⟨settled_move hstep hsettled hdraw, hmove _ _ _ _ _ hstep hsettled hdraw hokay hinv⟩

end

end PrintLatch.Storage
