/-
  PrintLatch.Api.NewJob

  The row `create_job` (`src/api.rs`) makes of a parsed request and the report
  of the PDF check.
-/

import PrintLatch.Db.Schema
import PrintLatch.Printers

namespace PrintLatch

/-- `ParsedJob`: the fields of an accepted multipart body. -/
structure ParsedJob where
  bytes : List UInt8
  mime : String
  mode : JobMode
  printerId : String
  copies : Nat
  deriving DecidableEq, Repr

/-- The fields of `PdfReport` that `create_job` reads. -/
structure PdfReport where
  byteCount : Nat
  pageCount : Nat
  sha256 : String
  deriving DecidableEq, Repr

/-- The `NewJob` of `create_job`. -/
def newJob (parsed : ParsedJob) (report : PdfReport) (id clientId storedPath : String) :
    NewJob where
  id := id
  clientId := clientId
  printerId := if parsed.mode = .preview then capturePrinterId else parsed.printerId
  state := if parsed.mode = .preview then .previewReady else .queued
  mode := parsed.mode
  copies := parsed.copies
  pageCount := report.pageCount
  byteCount := report.byteCount
  sha256 := report.sha256
  filePath := storedPath

@[simp] theorem newJob_id (parsed : ParsedJob) (report : PdfReport) (id clientId path : String) :
    (newJob parsed report id clientId path).id = id := rfl

end PrintLatch
