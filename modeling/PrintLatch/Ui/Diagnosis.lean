/-
  PrintLatch.Ui.Diagnosis

  A failure on its way to the operator: `printers::submit` (`src/printers.rs`) wraps its
  cause, the worker (`src/worker.rs`) stores what `to_string` shows of the error, and
  `jobDiagnosis` (`ui/model.js`) looks for words in that.

  `to_string` shows the outermost context alone, so the words of the cause are lost
  wherever there is a context.  `submit` is the whole submission with what the operating
  system says of its failures; the machine of `PrintLatch.Printers` is the same without
  these texts (`driven_submitStart`).
-/

import PrintLatch.Text.Casing
import PrintLatch.Text.Host
import PrintLatch.Worker
import Mathlib.Data.List.TakeWhile

namespace PrintLatch

open Text

/-! ## Diagnosis -/

inductive DiagnosisKind where
  | interrupted
  | paper
  | permission
  | timeout
  | driver
  | offline
  | generic
  deriving DecidableEq, Repr

/-- What `jobDiagnosis` returns. -/
structure Diagnosis where
  kind : DiagnosisKind
  title : String
  help : String
  deriving DecidableEq, Repr

namespace Ui

/-- `jobDiagnosis`, of a detail in lower case. -/
def diagnoseDetail (detail : List Char) : Diagnosis :=
  if includes detail "paper" || includes detail "out of media" then
    { kind := .paper
      title := "The printer reported a paper or media problem"
      help := "Check paper, media size, and the Windows queue. Retry this same job only after the device is ready." }
  else if includes detail "access denied" || includes detail "permission" ||
      includes detail "unauthorized" then
    { kind := .permission
      title := "Windows denied access to the printer"
      help := "Check the current Windows user and printer permissions, then retry this same job." }
  else if includes detail "timed out" || includes detail "timeout" then
    { kind := .timeout
      title := "The printer handoff timed out"
      help := "Check the device and Windows queue. A retry keeps the same job ID and is limited to three attempts." }
  else if includes detail "driver" || includes detail "windows rejected" ||
      includes detail "spooler" then
    { kind := .driver
      title := "Windows or the installed driver rejected the handoff"
      help := "Check the printer driver and Windows queue. PrintLatch cannot repair or replace a driver." }
  else if includes detail "no longer available" || includes detail "offline" then
    { kind := .offline
      title := "The selected printer is unavailable"
      help := "Reconnect the printer or choose another Windows-installed target before retrying." }
  else
    { kind := .generic
      title := "The printer handoff failed"
      help := "Review the bounded diagnostic below, check Windows, then retry this same job if it is safe." }

/-- `jobDiagnosis`. -/
def jobDiagnosis (toLowerCase : LowerCase) (state : JobState) (detail : Option String) :
    Diagnosis :=
  if state = .unknown then
    { kind := .interrupted
      title := "The agent restarted during submission"
      help := "PrintLatch will not replay this job automatically. Check the Windows queue and physical output before retrying." }
  else diagnoseDetail (toLowerCase.apply (detail.getD "").toList)

end Ui

/-! ## The errors of a submission -/

/-- An `anyhow::Error`: its contexts, the outermost first, and its root cause. -/
structure ErrorChain where
  contexts : List String
  rootCause : String
  deriving DecidableEq, Repr

/-- `to_string`. -/
def ErrorChain.shown (error : ErrorChain) : String := error.contexts.headD error.rootCause

/-- Where a submission fails, with what the operating system says. -/
inductive Failure where
  | copyFile (cause : String)
  | enumeration (cause : String)
  | lookup
  | print (copy : Nat) (cause : String)
  deriving DecidableEq, Repr

/-- The file that a capture writes. -/
def captureDestination (config : AppConfig) (jobId : String) : String :=
  joinPath config.capturesDir s!"{jobId}.pdf"

/-- The error that `submit` returns for a failure. -/
def Failure.error (config : AppConfig) (jobId : String) : Failure → ErrorChain
  | .copyFile cause => ⟨[s!"could not write {captureDestination config jobId}"], cause⟩
  | .enumeration cause => ⟨["Windows printer enumeration failed"], cause⟩
  | .lookup => ⟨[], "printer is no longer available"⟩
  | .print copy cause => ⟨[s!"Windows rejected copy {copy + 1}"], cause⟩

/-- What the operating system answers to a submission. -/
structure Answers where
  copied : Except String Unit
  devices : Except String (List PrinterDevice)
  printed : Nat → Except String Unit

/-- The loop over the copies, from one of them on. -/
def printCopies (printed : Nat → Except String Unit) : (remaining copy : Nat) → Except Failure Unit
  | 0, _ => .ok ()
  | remaining + 1, copy =>
      match printed copy with
      | .error cause => .error (.print copy cause)
      | .ok () => printCopies printed remaining (copy + 1)

/-- `submit`. -/
def submit (sha256Hex : List UInt8 → String) (config : AppConfig) (job : JobRow)
    (answers : Answers) : Except Failure String :=
  if job.printerId = capturePrinterId then
    match answers.copied with
    | .error cause => .error (.copyFile cause)
    | .ok () =>
        .ok s!"Captured one PDF artifact at {captureDestination config job.id} (requested copies: {job.copies})"
  else
    match answers.devices with
    | .error cause => .error (.enumeration cause)
    | .ok devices =>
        match devices.find? fun device => printerId sha256Hex device.name = job.printerId with
        | none => .error .lookup
        | some device =>
            match printCopies answers.printed job.copies 0 with
            | .error failure => .error failure
            | .ok () =>
                .ok s!"Submitted {job.copies} copy/copies to the Windows spooler for {device.name}. Physical output is not observable by PrintLatch."

/-- The detail that the worker stores for a failure. -/
def Failure.detail (config : AppConfig) (jobId : String) (failure : Failure) : String :=
  (SubmitResult.err (failure.error config jobId).shown).outcome.2

/-! ## The machine and the whole submission -/

/-- What comes back from a submission. -/
def submitResult (config : AppConfig) (jobId : String) : Except Failure String → SubmitResult
  | .ok detail => .ok detail
  | .error failure => .err (failure.error config jobId).shown

/-- The machine run to its end. -/
def Answers.drive (answers : Answers) (copies : Nat) :
    Nat → Submission ⊕ SubmitResult → SubmitResult
  | _, .inr result => result
  | _, .inl (.capture destination) => copyFile destination copies answers.copied.isOk
  | 0, .inl (.windows _ _) => .stopped
  | rounds + 1, .inl (.windows printer accepted) =>
      answers.drive copies rounds
        (printCopy printer accepted copies (answers.printed accepted).isOk)

@[simp] theorem drive_inr (answers : Answers) (copies rounds : Nat) (result : SubmitResult) :
    answers.drive copies rounds (.inr result) = result := by
  cases rounds <;> rfl

@[simp] theorem drive_capture (answers : Answers) (copies rounds : Nat) (destination : String) :
    answers.drive copies rounds (.inl (.capture destination)) =
      copyFile destination copies answers.copied.isOk := by
  cases rounds <;> rfl

section

variable (config : AppConfig) (jobId : String) (answers : Answers)

/-- The loop over the copies that are left. -/
theorem drive_nextCopy (printer : String) (rounds accepted : Nat) :
    answers.drive (accepted + rounds) rounds (nextCopy printer accepted (accepted + rounds)) =
      submitResult config jobId (match printCopies answers.printed rounds accepted with
        | .error failure => .error failure
        | .ok () => .ok s!"Submitted {accepted + rounds} copy/copies to the Windows spooler for {printer}. Physical output is not observable by PrintLatch.") := by
  induction rounds generalizing accepted with
  | zero =>
      unfold nextCopy
      rw [if_neg (by omega)]
      rfl
  | succ rounds ih =>
      have hnext : nextCopy printer accepted (accepted + (rounds + 1)) =
          .inl (.windows printer accepted) := by
        unfold nextCopy
        rw [if_pos (by omega)]
      rw [hnext, Answers.drive, printCopies]
      cases hprinted : answers.printed accepted with
      | error cause => simp [printCopy, Except.isOk, Except.toBool, submitResult,
          Failure.error, ErrorChain.shown]
      | ok _ =>
          have hcount : accepted + (rounds + 1) = accepted + 1 + rounds := by omega
          have hih := ih (accepted + 1)
          rw [← hcount] at hih
          exact hih

/-- **The machine of a submission ends as the submission does.** -/
theorem drive_submitStart (sha256Hex : List UInt8 → String) (job : JobRow) :
    answers.drive job.copies job.copies
        (submitStart sha256Hex config job answers.devices.toOption) =
      submitResult config job.id (submit sha256Hex config job answers) := by
  unfold submitStart submit
  split
  · -- a capture
    rw [drive_capture]
    cases hcopied : answers.copied <;> rfl
  · cases hdevices : answers.devices with
    | error cause => exact drive_inr _ _ _ _
    | ok devices =>
        cases hfind : devices.find? fun device =>
            printerId sha256Hex device.name = job.printerId with
        | none =>
            simp only [Except.toOption, hfind]
            exact drive_inr _ _ _ _
        | some device =>
            simp only [Except.toOption, hfind]
            have hloop := drive_nextCopy config job.id answers device.name job.copies 0
            rw [Nat.zero_add] at hloop
            rw [hloop]

end

/-! ## What the worker keeps of an error -/

theorem safeError_of_toList {value : String} {line : List Char} (hline : value.toList = line)
    (hne : line ≠ []) (hnewline : '\n' ∉ line) :
    safeError value = String.ofList (line.take 300) := by
  have hspan : line.span (· ≠ '\n') = (line, []) := by
    have hplain : ∀ c ∈ line, decide (c ≠ '\n') = true := fun c hc =>
      decide_eq_true fun heq => hnewline (heq ▸ hc)
    rw [List.span_eq_takeWhile_dropWhile, List.takeWhile_eq_self_iff.mpr hplain,
      List.dropWhile_eq_nil_iff.mpr hplain]
  have hfirst : firstLine line = some line := by
    unfold firstLine
    rw [hspan]
    cases line with
    | nil => exact absurd rfl hne
    | cons c line => rfl
  unfold safeError
  rw [hline, hfirst]
  rfl

/-- A long first line is cut. -/
theorem safeError_of_long {value : String} {start rest : List Char}
    (hvalue : value.toList = start ++ rest) (hlength : start.length = 300)
    (hnewline : '\n' ∉ start) (hreturn : start.getLast? ≠ some '\r') :
    safeError value = String.ofList start := by
  have hne : start ≠ [] := by
    rintro rfl
    cases hlength
  have htake : ∀ tail : List Char, (start ++ tail).take 300 = start := fun tail => by
    rw [← hlength, List.take_left]
  have hline : (start ++ rest).takeWhile (· ≠ '\n') = start ++ rest.takeWhile (· ≠ '\n') := by
    exact List.takeWhile_append_of_pos fun c hc =>
      decide_eq_true fun heq => hnewline (heq ▸ hc)
  have hfirst : ∃ tail, firstLine (start ++ rest) = some (start ++ tail) := by
    obtain ⟨c, more, hcons⟩ :=
      List.exists_cons_of_ne_nil (List.append_ne_nil_of_left_ne_nil hne rest)
    unfold firstLine
    rw [List.span_eq_takeWhile_dropWhile, hline, hcons]
    cases (c :: more).dropWhile (· ≠ '\n') with
    | nil => exact ⟨_, rfl⟩
    | cons newline below =>
        dsimp only
        split
        · next hlast =>
            -- the carriage return is none of the start
            have htail : rest.takeWhile (· ≠ '\n') ≠ [] := by
              intro hnil
              rw [hnil, List.append_nil] at hlast
              exact hreturn hlast
            exact ⟨_, by rw [List.dropLast_append_of_ne_nil htail]⟩
        · exact ⟨_, rfl⟩
  obtain ⟨tail, htail⟩ := hfirst
  unfold safeError
  rw [hvalue, htail, Option.getD_some, htake]

namespace Ui

/-! ## Words -/

/-- The text has one of the words. -/
def mentions (toLowerCase : LowerCase) (text : String) (words : List String) : Bool :=
  words.any fun word => includes (toLowerCase.apply text.toList) word

def paperWords : List String := ["paper", "out of media"]

def permissionWords : List String := ["access denied", "permission", "unauthorized"]

def timeoutWords : List String := ["timed out", "timeout"]

def driverWords : List String := ["driver", "windows rejected", "spooler"]

def offlineWords : List String := ["no longer available", "offline"]

/-- Nothing in the text that is looked for before the driver's words. -/
def Unmentioned (toLowerCase : LowerCase) (text : String) : Prop :=
  mentions toLowerCase text paperWords = false ∧
    mentions toLowerCase text permissionWords = false ∧
    mentions toLowerCase text timeoutWords = false

section

variable (toLowerCase : LowerCase)

/-- The kind of a failed job with that detail. -/
def failedKind (detail : String) : DiagnosisKind :=
  (jobDiagnosis toLowerCase .failed (some detail)).kind

/-- The kinds, by the words that are looked for one after the other. -/
theorem failedKind_eq (text : String) :
    failedKind toLowerCase text =
      if mentions toLowerCase text paperWords then .paper
      else if mentions toLowerCase text permissionWords then .permission
      else if mentions toLowerCase text timeoutWords then .timeout
      else if mentions toLowerCase text driverWords then .driver
      else if mentions toLowerCase text offlineWords then .offline
      else .generic := by
  show (diagnoseDetail _).kind = _
  unfold diagnoseDetail
  simp only [apply_ite Diagnosis.kind, mentions, paperWords, permissionWords, timeoutWords,
    driverWords, offlineWords, List.any_cons, List.any_nil, Bool.or_false, Bool.or_assoc,
    Option.getD_some]

/-- When a text is of no kind, and when of no kind but the driver's. -/
theorem failedKind_iff (text : String) :
    (failedKind toLowerCase text = .generic ↔ Unmentioned toLowerCase text ∧
      mentions toLowerCase text driverWords = false ∧
      mentions toLowerCase text offlineWords = false) ∧
    ((failedKind toLowerCase text ≠ .generic → .driver = failedKind toLowerCase text) ↔
      Unmentioned toLowerCase text ∧ (mentions toLowerCase text driverWords = true ∨
        mentions toLowerCase text offlineWords = false)) := by
  rw [failedKind_eq, Unmentioned]
  generalize mentions toLowerCase text paperWords = paper
  generalize mentions toLowerCase text permissionWords = permission
  generalize mentions toLowerCase text timeoutWords = timeout
  generalize mentions toLowerCase text driverWords = driver
  generalize mentions toLowerCase text offlineWords = offline
  revert paper permission timeout driver offline
  decide

/-- Digits at the end decide nothing. -/
theorem diagnoseDetail_append {text digits : List Char}
    (hdigits : ∀ c ∈ digits, c.isDigit = true) :
    diagnoseDetail (text ++ digits) = diagnoseDetail text := by
  have hincludes : ∀ word : String, word.toList ≠ [] → word.toList.any Char.isDigit = false →
      includes (text ++ digits) word = includes text word := by
    intro word hne hword
    refine includes_append hne fun c hc hmem => ?_
    have hany : word.toList.any Char.isDigit = true := List.any_eq_true.mpr ⟨c, hmem, hdigits c hc⟩
    rw [hword] at hany
    cases hany
  unfold diagnoseDetail
  simp (disch := decide) only [hincludes]

theorem code_of_isDigit {c : Char} (h : c.isDigit = true) :
    48 ≤ c.val.toNat ∧ c.val.toNat ≤ 57 := by
  simpa [Char.isDigit, UInt32.le_iff_toNat_le] using h

theorem toLower_of_isDigit {c : Char} (h : c.isDigit = true) : c.toLower = c := by
  unfold Char.toLower
  rw [dif_neg]
  rintro ⟨hupper, -⟩
  have hcode : 65 ≤ c.val.toNat := UInt32.le_iff_toNat_le.mp hupper
  have := code_of_isDigit h
  omega

/-- An ASCII text and digits behind it. -/
theorem failedKind_ofList {text digits : List Char} (htext : Ascii text)
    (hdigits : ∀ c ∈ digits, c.isDigit = true) :
    failedKind toLowerCase (String.ofList (text ++ digits)) =
      (diagnoseDetail (text.map Char.toLower)).kind := by
  have hascii : Ascii (text ++ digits) := by
    intro c hc
    rcases List.mem_append.mp hc with hc | hc
    · exact htext c hc
    · have hcode := code_of_isDigit (hdigits c hc)
      show c.val.toNat < 128
      omega
  have hlower : toLowerCase.apply (text ++ digits) =
      text.map Char.toLower ++ digits.map Char.toLower := by
    rw [toLowerCase.ascii _ hascii, List.map_append]
  have hmapped : ∀ c ∈ digits.map Char.toLower, c.isDigit = true := by
    intro c hc
    obtain ⟨d, hd, rfl⟩ := List.mem_map.mp hc
    rw [toLower_of_isDigit (hdigits d hd)]
    exact hdigits d hd
  show (diagnoseDetail (toLowerCase.apply (String.ofList (text ++ digits)).toList)).kind = _
  rw [String.toList_ofList, hlower, diagnoseDetail_append hmapped]

/-! ## The kinds of the stored details -/

/-- A text of one line of ASCII characters. -/
def plainLine (text : String) : Bool := text.toList.all fun c => c.toNat < 128 ∧ c ≠ '\n'

theorem plainLine_iff {text : String} (h : plainLine text = true) :
    Ascii text.toList ∧ '\n' ∉ text.toList := by
  have hall : ∀ c ∈ text.toList, c.toNat < 128 ∧ c ≠ '\n' := fun c hc => by
    simpa using List.all_eq_true.mp h c hc
  exact ⟨fun c hc => (hall c hc).1, fun hmem => (hall _ hmem).2 rfl⟩

/-- The detail of a short error is its text, and digits behind it decide nothing. -/
theorem failedKind_safeError (text : String) (digits : List Char) {value : String}
    (hvalue : value.toList = text.toList ++ digits) (hplain : plainLine text = true)
    (hne : text.toList ≠ []) (hlength : text.toList.length ≤ 300)
    (hdigits : ∀ c ∈ digits, c.isDigit = true) :
    failedKind toLowerCase (safeError value) =
      (diagnoseDetail (text.toList.map Char.toLower)).kind := by
  obtain ⟨hascii, hline⟩ := plainLine_iff hplain
  have hnewline : '\n' ∉ text.toList ++ digits := by
    intro hmem
    rcases List.mem_append.mp hmem with hmem | hmem
    · exact hline hmem
    · exact absurd (hdigits _ hmem) (by decide)
  rw [safeError_of_toList hvalue (List.append_ne_nil_of_left_ne_nil hne _) hnewline,
    List.take_append, List.take_of_length_le hlength]
  exact failedKind_ofList toLowerCase hascii fun c hc => hdigits c (List.mem_of_mem_take hc)

theorem failedKind_enumeration (config : AppConfig) (jobId cause : String) :
    failedKind toLowerCase ((Failure.enumeration cause).detail config jobId) = .generic := by
  have hkind := failedKind_safeError toLowerCase "Windows printer enumeration failed" []
    (List.append_nil _).symm (by decide) (by decide) (by decide) (by simp)
  exact hkind.trans (by decide)

/-- A printer that is gone: the error has no context. -/
theorem failedKind_lookup (config : AppConfig) (jobId : String) :
    failedKind toLowerCase (Failure.lookup.detail config jobId) = .offline ∧
      failedKind toLowerCase (Failure.lookup.error config jobId).rootCause = .offline := by
  have hplain : plainLine "printer is no longer available" = true := by decide
  have hdetail := failedKind_safeError toLowerCase "printer is no longer available" []
    (List.append_nil _).symm hplain (by decide) (by decide) (by simp)
  have hroot := @failedKind_ofList toLowerCase _ [] (plainLine_iff hplain).1 (by simp)
  rw [List.append_nil, String.ofList_toList] at hroot
  exact ⟨hdetail.trans (by decide), hroot.trans (by decide)⟩

/-- Whatever the spooler says of a copy. -/
theorem failedKind_print (config : AppConfig) (jobId cause : String) (copy : Nat) :
    failedKind toLowerCase ((Failure.print copy cause).detail config jobId) = .driver := by
  have hshown : ((Failure.print copy cause).error config jobId).shown.toList =
      "Windows rejected copy ".toList ++ (toString (copy + 1)).toList := by
    show ("Windows rejected copy " ++ toString (copy + 1)).toList = _
    rw [String.toList_append]
  have hkind := failedKind_safeError toLowerCase "Windows rejected copy " _ hshown (by decide)
    (by decide) (by decide) fun c hc => by
      rw [toList_toString] at hc
      exact isDigit_of_mem_toDigits hc
  exact hkind.trans (by decide)

/-- A data directory with a word in front and a long name. -/
def longDir (word : String) : AppConfig :=
  ⟨String.ofList (word.toList ++ List.replicate 300 '0'), 1⟩

theorem joinPath_append (base leaf : String) :
    ∃ more, (joinPath base leaf).toList = base.toList ++ more := by
  unfold joinPath
  split
  · next hnone =>
      rw [List.getLast?_eq_none_iff.mp hnone]
      exact ⟨leaf.toList, rfl⟩
  · split
    · exact ⟨_, String.toList_append⟩
    · exact ⟨_, by rw [String.toList_append, String.toList_append, List.append_assoc]⟩

/-- What the operator is told of a failed capture is in the name of the data directory. -/
theorem failedKind_copyFile (word jobId cause : String)
    (hplain : plainLine ("could not write " ++ word) = true)
    (hlength : ("could not write " ++ word).toList.length < 300) :
    failedKind toLowerCase ((Failure.copyFile cause).detail (longDir word) jobId) =
      (diagnoseDetail (("could not write " ++ word).toList.map Char.toLower)).kind := by
  obtain ⟨hascii, hline⟩ := plainLine_iff hplain
  generalize htext : ("could not write " ++ word).toList = text at hascii hline hlength ⊢
  obtain ⟨captures, hcaptures⟩ := joinPath_append (longDir word).dataDir "captures"
  obtain ⟨file, hfile⟩ := joinPath_append (longDir word).capturesDir s!"{jobId}.pdf"
  -- the zeros fill what is kept of the line
  have hzeros : List.replicate 300 '0' = List.replicate (300 - text.length) '0' ++
      List.replicate text.length '0' := by
    rw [List.replicate_append_replicate, Nat.sub_add_cancel hlength.le]
  have hshown : ((Failure.copyFile cause).error (longDir word) jobId).shown.toList =
      (text ++ List.replicate (300 - text.length) '0') ++
        (List.replicate text.length '0' ++ captures ++ file) := by
    have hdir : (longDir word).dataDir.toList = word.toList ++ List.replicate 300 '0' :=
      String.toList_ofList
    have hdestination : (captureDestination (longDir word) jobId).toList =
        word.toList ++ List.replicate 300 '0' ++ captures ++ file := by
      rw [← hdir, ← hcaptures]
      exact hfile
    have hstart : text = "could not write ".toList ++ word.toList := by
      rw [← htext, String.toList_append]
    show ("could not write " ++ captureDestination (longDir word) jobId).toList = _
    rw [String.toList_append, hdestination, hzeros, hstart]
    simp only [List.append_assoc]
  have hdigits : ∀ c ∈ List.replicate (300 - text.length) '0', c.isDigit = true := by
    intro c hc
    rw [List.eq_of_mem_replicate hc]
    decide
  have hdetail : (Failure.copyFile cause).detail (longDir word) jobId =
      String.ofList (text ++ List.replicate (300 - text.length) '0') := by
    refine safeError_of_long hshown ?_ ?_ ?_
    · rw [List.length_append, List.length_replicate]
      omega
    · intro hmem
      rcases List.mem_append.mp hmem with hmem | hmem
      · exact hline hmem
      · exact absurd (hdigits _ hmem) (by decide)
    · have hlast : (text ++ List.replicate (300 - text.length) '0').getLast? = some '0' := by
        rw [List.getLast?_append_of_ne_nil _ (by simp; omega), List.getLast?_replicate]
        rw [if_neg (by omega)]
      rw [hlast]
      decide
  rw [hdetail]
  exact failedKind_ofList toLowerCase hascii hdigits

/-! ## What reaches the operator -/

/-- The operator is told the kind of the cause, and told the same whatever the data
    directory and the printers are. -/
structure ReachesOperator (sha256Hex : List UInt8 → String) (config : AppConfig) (jobId : String)
    (failure : Failure) : Prop where
  kind : failedKind toLowerCase (failure.error config jobId).rootCause ≠ .generic →
    failedKind toLowerCase (failure.detail config jobId) =
      failedKind toLowerCase (failure.error config jobId).rootCause
  independent : ∀ config' job' answers', job'.id = jobId →
    submit sha256Hex config' job' answers' = .error failure →
    failedKind toLowerCase (failure.detail config' jobId) =
      failedKind toLowerCase (failure.detail config jobId)

/-- A failure whose cause is not lost: a printer that is gone, or one with a cause that has
    none of the words that the context leaves out. -/
def CauseKept : Failure → Prop
  | .copyFile _ => False
  | .enumeration cause => Unmentioned toLowerCase cause ∧
      mentions toLowerCase cause driverWords = false ∧
      mentions toLowerCase cause offlineWords = false
  | .lookup => True
  | .print _ cause => Unmentioned toLowerCase cause ∧
      (mentions toLowerCase cause driverWords = true ∨
        mentions toLowerCase cause offlineWords = false)

theorem printCopies_ne_copyFile (printed : Nat → Except String Unit) (remaining copy : Nat)
    (cause : String) : printCopies printed remaining copy ≠ .error (.copyFile cause) := by
  induction remaining generalizing copy with
  | zero =>
      intro h
      cases h
  | succ remaining ih =>
      rw [printCopies]
      cases printed copy with
      | error cause' =>
          intro h
          cases h
      | ok _ => exact ih (copy + 1)

/-- A capture fails at the copy whatever the data directory is. -/
theorem submit_copyFile {sha256Hex : List UInt8 → String} {config : AppConfig} {job : JobRow}
    {answers : Answers} {cause : String}
    (h : submit sha256Hex config job answers = .error (.copyFile cause)) (config' : AppConfig) :
    submit sha256Hex config' job answers = .error (.copyFile cause) := by
  unfold submit at h ⊢
  by_cases hcapture : job.printerId = capturePrinterId
  · rw [if_pos hcapture] at h ⊢
    cases hcopied : answers.copied with
    | error cause' =>
        rw [hcopied] at h
        exact h
    | ok _ =>
        rw [hcopied] at h
        cases h
  · -- nothing else fails at this copy
    rw [if_neg hcapture] at h
    cases hdevices : answers.devices with
    | error cause' =>
        rw [hdevices] at h
        cases h
    | ok devices =>
        rw [hdevices] at h
        dsimp only at h
        split at h
        · cases h
        · split at h
          · next failure hprint =>
              obtain rfl : failure = .copyFile cause := Except.error.inj h
              exact absurd hprint (printCopies_ne_copyFile _ _ _ _)
          · cases h

/-- **When the cause of a failure reaches the operator.** -/
theorem reachesOperator_iff {sha256Hex : List UInt8 → String} {config : AppConfig} {job : JobRow}
    {answers : Answers} {failure : Failure}
    (h : submit sha256Hex config job answers = .error failure) :
    ReachesOperator toLowerCase sha256Hex config job.id failure ↔
      CauseKept toLowerCase failure := by
  cases failure with
  | copyFile cause =>
      refine ⟨fun hreaches => ?_, fun hkept => hkept.elim⟩
      -- one directory is called after paper, another after nothing
      have hpaper := hreaches.independent (longDir "paper") job answers rfl
        (submit_copyFile h _)
      have hplain := hreaches.independent (longDir "") job answers rfl (submit_copyFile h _)
      rw [← hplain, failedKind_copyFile toLowerCase "paper" _ _ (by decide) (by decide),
        failedKind_copyFile toLowerCase "" _ _ (by decide) (by decide)] at hpaper
      exact absurd hpaper (by decide)
  | enumeration cause =>
      rw [CauseKept, ← (failedKind_iff toLowerCase cause).1]
      constructor
      · intro hreaches
        by_contra hne
        have hkind := hreaches.kind hne
        rw [failedKind_enumeration] at hkind
        exact hne hkind.symm
      · intro hgeneric
        refine ⟨fun hne => absurd hgeneric hne, fun config' job' answers' _ _ => ?_⟩
        rw [failedKind_enumeration, failedKind_enumeration]
  | lookup =>
      refine ⟨fun _ => trivial, fun _ => ⟨fun _ => ?_, fun config' job' answers' _ _ => ?_⟩⟩
      · rw [(failedKind_lookup toLowerCase config job.id).1,
          (failedKind_lookup toLowerCase config job.id).2]
      · rw [(failedKind_lookup toLowerCase config' job.id).1,
          (failedKind_lookup toLowerCase config job.id).1]
  | print copy cause =>
      rw [CauseKept, ← (failedKind_iff toLowerCase cause).2]
      constructor
      · intro hreaches hne
        have hkind := hreaches.kind hne
        rwa [failedKind_print] at hkind
      · intro hdriver
        refine ⟨fun hne => ?_, fun config' job' answers' _ _ => ?_⟩
        · rw [failedKind_print]
          exact hdriver hne
        · rw [failedKind_print, failedKind_print]

end

/-! ## A printer without paper -/

/-- SHA-256 of the printer's name. -/
def officeDigest (bytes : List UInt8) : String :=
  if bytes = utf8 "Office printer" then
    "78cab87dd649522d24e04e12c25bac12c38136633adb0ab47c6ac9d2a1625673"
  else ""

/-- A job for that printer. -/
def officeJob : JobRow where
  id := "0d4f4c1e-7c5e-4f39-8a0b-2f1c6a9be111"
  clientId := "c1"
  printerId := printerId officeDigest "Office printer"
  state := .printing
  mode := .print
  copies := 1
  pageCount := 1
  byteCount := 9
  sha256 := "d1"
  attempts := 1
  detail := none
  createdAt := 1
  updatedAt := 2
  filePath := "C:\\PrintLatch\\jobs\\0d4f4c1e-7c5e-4f39-8a0b-2f1c6a9be111.pdf"

/-- The printer is there and refuses every copy, for that reason. -/
def refuses (reason : String) : Answers where
  copied := .ok ()
  devices := .ok [⟨"Office printer", false⟩]
  printed := fun _ => .error reason

theorem submit_refuses (reason : String) :
    submit officeDigest exampleConfig officeJob (refuses reason) = .error (.print 0 reason) := by
  have hcapture : officeJob.printerId ≠ capturePrinterId := by decide
  unfold submit
  rw [if_neg hcapture]
  rfl

/-- A refusal that names the driver is diagnosed. -/
theorem reachesOperator_driver :
    ReachesOperator asciiLower officeDigest exampleConfig officeJob.id
      (.print 0 "Printer driver failed") :=
  (reachesOperator_iff asciiLower (submit_refuses "Printer driver failed")).mpr (by
    have hwords : mentions asciiLower "Printer driver failed" paperWords = false ∧
        mentions asciiLower "Printer driver failed" permissionWords = false ∧
        mentions asciiLower "Printer driver failed" timeoutWords = false ∧
        mentions asciiLower "Printer driver failed" driverWords = true := by decide
    exact ⟨⟨hwords.1, hwords.2.1, hwords.2.2.1⟩, Or.inl hwords.2.2.2⟩)

/-- A printer that is out of paper is diagnosed as one with a bad driver. -/
theorem not_reachesOperator_paper :
    submit officeDigest exampleConfig officeJob (refuses "Printer is out of paper") =
        .error (.print 0 "Printer is out of paper") ∧
      failedKind asciiLower "Printer is out of paper" = .paper ∧
      failedKind asciiLower ((Failure.print 0 "Printer is out of paper").detail exampleConfig
        officeJob.id) = .driver ∧
      ¬ ReachesOperator asciiLower officeDigest exampleConfig officeJob.id
        (.print 0 "Printer is out of paper") := by
  have hpaper : failedKind asciiLower "Printer is out of paper" = .paper := by decide
  have hdriver := failedKind_print asciiLower exampleConfig officeJob.id "Printer is out of paper" 0
  refine ⟨submit_refuses _, hpaper, hdriver, fun h => ?_⟩
  have hkind := h.kind (by
    show failedKind asciiLower "Printer is out of paper" ≠ _
    rw [hpaper]
    decide)
  rw [hdriver] at hkind
  exact absurd (hkind.trans hpaper) (by decide)

end Ui

end PrintLatch
