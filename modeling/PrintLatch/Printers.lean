/-
  PrintLatch.Printers

  Print targets and `printers::submit` (`src/printers.rs`, the Windows build).

  A submission takes time and can fail in the middle, so it is a small-step
  computation here: `submitStart` runs up to the first call that hands pages
  on, `copyFile` ends a capture, and `printCopy` is one round of the loop over
  the copies.  What the operating system answers (the enumerated devices,
  whether `fs::copy` or one `printer.print` succeeds) is an argument.

  The SHA-256 crate is the parameter `sha256Hex`, from bytes to the hex digest.
-/

import PrintLatch.Config
import PrintLatch.Db.Schema
import PrintLatch.Text.Utf8

namespace PrintLatch

/-- `PrinterInfo`. -/
structure PrinterInfo where
  id : String
  name : String
  kind : String
  tested : Bool
  detail : String
  deriving DecidableEq, Repr

/-- What `PrinterDevice::all` tells of one Windows printer. -/
structure PrinterDevice where
  name : String
  isRemote : Bool
  deriving DecidableEq, Repr

/-- `CAPTURE_PRINTER_ID`. -/
def capturePrinterId : String := "capture:pdf"

section

variable (sha256Hex : List UInt8 → String)

/-- `printer_id`: the first 24 hex digits of the name's digest. -/
def printerId (name : String) : String :=
  "win:" ++ String.ofList ((sha256Hex (Text.utf8 name)).toList.take 24)

/-- `platform_printers`; `none` when the enumeration fails. -/
def platformPrinters (devices : Option (List PrinterDevice)) : Option (List PrinterInfo) :=
  devices.map fun ds => ds.map fun device =>
    { id := printerId sha256Hex device.name
      name := device.name
      kind := if device.isRemote then "windows_remote" else "windows_local"
      tested := false
      detail := "Discovered through the Windows print subsystem. Output depends on the installed driver and printer." }

/-- `list_printers`: the capture target, then the Windows printers. -/
def listPrinters (devices : Option (List PrinterDevice)) : Option (List PrinterInfo) :=
  (platformPrinters sha256Hex devices).map fun ps =>
    { id := capturePrinterId
      name := "PrintLatch PDF Capture"
      kind := "capture"
      tested := true
      detail := "Writes the accepted PDF to the local captures directory without contacting a printer." }
    :: ps

/-- `printer_exists`. -/
def printerExists (devices : Option (List PrinterDevice)) (id : String) : Option Bool :=
  (listPrinters sha256Hex devices).map fun ps => ps.any fun p => p.id = id

end

/-! ## Submission -/

/-- Where a running `submit` stands. -/
inductive Submission where
  /-- `fs::copy` to `destination` is running. -/
  | capture (destination : String)
  /-- The spooler has accepted `accepted` copies in this call. -/
  | windows (printer : String) (accepted : Nat)
  deriving DecidableEq, Repr

/-- What `spawn_blocking(submit)` comes back with: `submit`'s result (an error
    is shown by its outermost context, as `error.to_string()` does), or a
    `JoinError` when the closure stopped. -/
inductive SubmitResult where
  | ok (detail : String)
  | err (message : String)
  | stopped
  deriving DecidableEq, Repr

/-- The head of the loop `for copy in 0..copies`: submit the next copy, or
    return after the last. -/
def nextCopy (printer : String) (accepted copies : Nat) : Submission ⊕ SubmitResult :=
  if accepted < copies then .inl (.windows printer accepted)
  else .inr (.ok s!"Submitted {copies} copy/copies to the Windows spooler for {printer}. Physical output is not observable by PrintLatch.")

/-- `submit` up to its first copy: the capture target, or `platform_submit` with
    the enumerated devices. -/
def submitStart (sha256Hex : List UInt8 → String) (config : AppConfig) (job : JobRow)
    (devices : Option (List PrinterDevice)) : Submission ⊕ SubmitResult :=
  if job.printerId = capturePrinterId then
    .inl (.capture (joinPath config.capturesDir s!"{job.id}.pdf"))
  else
    match devices with
    | none => .inr (.err "Windows printer enumeration failed")
    | some ds =>
        match ds.find? fun device => printerId sha256Hex device.name = job.printerId with
        | none => .inr (.err "printer is no longer available")
        | some device => nextCopy device.name 0 job.copies

/-- The end of the capture branch. -/
def copyFile (destination : String) (copies : Nat) (copied : Bool) : SubmitResult :=
  if copied then
    .ok s!"Captured one PDF artifact at {destination} (requested copies: {copies})"
  else .err s!"could not write {destination}"

/-- One `printer.print` of the loop and what follows it. -/
def printCopy (printer : String) (accepted copies : Nat) (taken : Bool) :
    Submission ⊕ SubmitResult :=
  if taken then nextCopy printer (accepted + 1) copies
  else .inr (.err s!"Windows rejected copy {accepted + 1}")

/-- A loop that is still running has copies left. -/
theorem nextCopy_eq_inl {printer : String} {accepted copies : Nat} {sub : Submission}
    (h : nextCopy printer accepted copies = .inl sub) :
    sub = .windows printer accepted ∧ accepted < copies := by
  unfold nextCopy at h
  split at h
  · next hlt => exact ⟨(Sum.inl.inj h).symm, hlt⟩
  · cases h

/-- A loop that has ended submitted every copy. -/
theorem nextCopy_eq_inr {printer : String} {accepted copies : Nat} {res : SubmitResult}
    (h : nextCopy printer accepted copies = .inr res) :
    (∃ detail, res = .ok detail) ∧ copies ≤ accepted := by
  unfold nextCopy at h
  split at h
  · cases h
  · next hge => exact ⟨⟨_, (Sum.inr.inj h).symm⟩, Nat.le_of_not_lt hge⟩

end PrintLatch
