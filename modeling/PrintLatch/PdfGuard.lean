/-
  PrintLatch.PdfGuard

  `validate_pdf` (`src/pdf_guard.rs`).

  The `lopdf` parser is the parameter `loadMem`, with its count of pages, and
  the zlib decoder is `inflate`: the bytes it yields, and whether it ends
  without an error.  A `u64` is a number below `2 ^ 64`; the checked and the
  saturating operations on it are the ones of the source.
-/

import PrintLatch.Api.NewJob
import Mathlib.Algebra.GroupWithZero.Nat
import Mathlib.Data.List.Infix
import Mathlib.Data.Rat.Defs

namespace PrintLatch.PdfGuard

open Text

/-! ## Parsed documents -/

/-- `lopdf::ObjectId`. -/
abbrev ObjectId := Nat × Nat

/-- `lopdf::Object`; a dictionary is the list of its entries. -/
inductive PdfObject where
  | null
  | boolean (value : Bool)
  | integer (value : Int)
  | real (value : ℚ)
  | name (bytes : List UInt8)
  | string (bytes : List UInt8)
  | array (items : List PdfObject)
  | dictionary (entries : List (List UInt8 × PdfObject))
  | stream (dict : List (List UInt8 × PdfObject)) (content : List UInt8)
  | reference (id : ObjectId)

/-- `lopdf::Dictionary`. -/
abbrev Dictionary := List (List UInt8 × PdfObject)

/-- `Dictionary::get`. -/
def Dictionary.get (dictionary : Dictionary) (key : String) : Option PdfObject :=
  (dictionary.find? fun entry => entry.1 = utf8 key).map (·.2)

/-- `lopdf::Document`: the trailer and the objects, in the order of their ids. -/
structure Document where
  trailer : Dictionary
  objects : List (ObjectId × PdfObject)

/-! ## Limits -/

/-- `MAX_JOB_BYTES`. -/
def maxJobBytes : Nat := 10 * 1024 * 1024

/-- `MAX_PAGES`. -/
def maxPages : Nat := 100

/-- `MAX_OBJECTS`. -/
def maxObjects : Nat := 20000

/-- `MAX_DECODED_STREAM_BYTES`. -/
def maxDecodedStreamBytes : Nat := 100 * 1024 * 1024

/-- `MAX_IMAGE_PIXELS`. -/
def maxImagePixels : Nat := 100000000

/-- `FORBIDDEN_NAMES`. -/
def forbiddenNames : List String :=
  ["/JavaScript", "/JS", "/Launch", "/OpenAction", "/EmbeddedFile", "/Filespec", "/RichMedia",
    "/XFA", "/AcroForm"]

/-! ## `u64` -/

/-- `u64::saturating_mul`. -/
def saturatingMul (a b : Nat) : Nat := min (a * b) (2 ^ 64 - 1)

/-- `u64::checked_add`, with the context of its failure. -/
def checkedAdd (a b : Nat) (context : String) : Except String Nat :=
  if a + b < 2 ^ 64 then .ok (a + b) else .error context

/-- `try_from` into the unsigned type of `width` bits, with the context of its
    failure. -/
def tryFrom (width n : Nat) (context : String) : Except String Nat :=
  if n < 2 ^ width then .ok n else .error context

/-! ## The report -/

/-- `PdfReport`: what `create_job` reads, and `object_count`. -/
structure CheckedPdf extends PdfReport where
  objectCount : Nat
  deriving DecidableEq, Repr

/-- `slice.windows(n).any(|window| window == marker)`. -/
def hasWindow (bytes : List UInt8) (marker : String) : Bool :=
  let window := utf8 marker
  bytes.tails.any fun rest => window.isPrefixOf rest

theorem hasWindow_iff {bytes : List UInt8} {marker : String} :
    hasWindow bytes marker = true ↔ utf8 marker <:+: bytes := by
  simp only [hasWindow, List.any_eq_true, List.mem_tails, List.isPrefixOf_iff_prefix]
  constructor
  · rintro ⟨rest, hsuffix, hprefix⟩
    exact hprefix.isInfix.trans hsuffix.isInfix
  · rintro ⟨pre, post, rfl⟩
    rw [List.append_assoc]
    exact ⟨utf8 marker ++ post, List.suffix_append .., List.prefix_append ..⟩

/-- `validate_pdf` up to the parser. -/
def checkBytes (bytes : List UInt8) (declaredMime : String) : Except String Unit :=
  if declaredMime ≠ "application/pdf" then .error "MIME type must be application/pdf"
  else if bytes = [] then .error "PDF is empty"
  else if maxJobBytes < bytes.length then .error "PDF exceeds the 10 MiB V1 limit"
  else if ¬ hasWindow (bytes.take 1024) "%PDF-" then .error "PDF signature is missing"
  else if ¬ hasWindow (bytes.drop (bytes.length - 2048)) "%%EOF" then
    .error "PDF end marker is missing"
  else
    match forbiddenNames.find? fun name => hasWindow bytes name with
    | some name => .error s!"active or embedded PDF feature {name} is not accepted"
    | none => .ok ()

/-! ## Streams -/

/-- `dictionary_name`. -/
def dictionaryName (dictionary : Dictionary) (key : String) : Option (List UInt8) :=
  match dictionary.get key with
  | some (.name name) => some name
  | _ => none

/-- `dictionary_positive_integer`: only an integer object answers `as_i64`. -/
def dictionaryPositiveInteger (dictionary : Dictionary) (key : String) : Option Nat :=
  match dictionary.get key with
  | some (.integer (.ofNat value)) => some value
  | _ => none

/-- `has_filter`. -/
def hasFilter (dictionary : Dictionary) (filter : String) : Bool :=
  let isFilter : PdfObject → Bool := fun value => match value with
    | .name name => name = utf8 filter
    | _ => false
  match dictionary.get "Filter" with
  | some (.name name) => isFilter (.name name)
  | some (.array filters) => filters.any isFilter
  | _ => false

/-- The accumulators of the loop over the objects. -/
structure Totals where
  decoded : Nat
  imagePixels : Nat
  deriving DecidableEq, Repr

section

variable (inflate : List UInt8 → List UInt8 × Bool)

/-- `io::copy` from the decoder behind `take(MAX_DECODED_STREAM_BYTES + 1)`: how
    many bytes were copied.  Past the limit the decoder is not asked again. -/
def copied (content : List UInt8) : Option Nat :=
  let (decoded, ended) := inflate content
  if maxDecodedStreamBytes + 1 ≤ decoded.length then some (maxDecodedStreamBytes + 1)
  else if ended then some decoded.length
  else none

/-- The pixels an object adds. -/
def addPixels (totals : Totals) (dict : Dictionary) : Except String Totals :=
  if dictionaryName dict "Subtype" = some (utf8 "Image") then
    let width := (dictionaryPositiveInteger dict "Width").getD 0
    let height := (dictionaryPositiveInteger dict "Height").getD 0
    match checkedAdd totals.imagePixels (saturatingMul width height)
      "image dimensions overflow" with
    | .error context => .error context
    | .ok pixels =>
        if maxImagePixels < pixels then
          .error "PDF image dimensions exceed the 100-megapixel safety limit"
        else .ok { totals with imagePixels := pixels }
  else .ok totals

/-- The length of a stream as the loop counts it, and the context of an overflow. -/
def streamLength (dict : Dictionary) (content : List UInt8) : Except String (Nat × String) :=
  match tryFrom 64 content.length "stream is too large" with
  | .error context => .error context
  | .ok compressedLen =>
      if hasFilter dict "FlateDecode" then
        match copied inflate content with
        | none => .error "invalid FlateDecode stream"
        | some count => .ok (count, "decoded stream sizes overflow")
      else .ok (compressedLen, "stream sizes overflow")

/-- The body of the loop over the objects. -/
def checkObject (totals : Totals) : PdfObject → Except String Totals
  | .stream dict content =>
      match addPixels totals dict with
      | .error error => .error error
      | .ok totals =>
          match streamLength inflate dict content with
          | .error error => .error error
          | .ok (length, overflow) =>
              match checkedAdd totals.decoded length overflow with
              | .error error => .error error
              | .ok decoded =>
                  if maxDecodedStreamBytes < decoded then
                    .error "PDF streams exceed the 100 MiB decoded safety limit"
                  else .ok { totals with decoded := decoded }
  | _ => .ok totals

/-- The loop over the objects. -/
def checkObjects (totals : Totals) : List PdfObject → Except String Totals
  | [] => .ok totals
  | object :: rest =>
      match checkObject inflate totals object with
      | .error error => .error error
      | .ok totals => checkObjects totals rest

/-! ## `validate_pdf` -/

variable (sha256Hex : List UInt8 → String) (loadMem : List UInt8 → Option Document)
  (pageCount : Document → Nat)

/-- `validate_pdf` between the parser and the report. -/
def checkDocument (document : Document) : Except String Totals :=
  if (document.trailer.get "Encrypt").isSome then
    .error "encrypted PDFs are not supported in V1"
  else if maxObjects < document.objects.length then .error "PDF contains too many objects"
  else if pageCount document = 0 then .error "PDF contains no pages"
  else if maxPages < pageCount document then .error "PDF exceeds the 100-page V1 limit"
  else checkObjects inflate ⟨0, 0⟩ (document.objects.map (·.2))

/-- The report of an accepted document. -/
def report (bytes : List UInt8) (document : Document) : Except String CheckedPdf :=
  match tryFrom 64 bytes.length "file size is out of range" with
  | .error context => .error context
  | .ok byteCount =>
      match tryFrom 32 (pageCount document) "page count is out of range" with
      | .error context => .error context
      | .ok pages =>
          match tryFrom 32 document.objects.length "object count is out of range" with
          | .error context => .error context
          | .ok objects => .ok
              { byteCount := byteCount
                pageCount := pages
                sha256 := sha256Hex bytes
                objectCount := objects }

/-- `validate_pdf`. -/
def validatePdf (bytes : List UInt8) (declaredMime : String) : Except String CheckedPdf :=
  match checkBytes bytes declaredMime with
  | .error error => .error error
  | .ok () =>
      match loadMem bytes with
      | none => .error "PDF parser rejected the document"
      | some document =>
          match checkDocument inflate pageCount document with
          | .error error => .error error
          | .ok _ => report sha256Hex pageCount bytes document

/-- `validate_pdf` as `create_job` uses it. -/
def validate (bytes : List UInt8) (declaredMime : String) : Except String PdfReport :=
  (validatePdf inflate sha256Hex loadMem pageCount bytes declaredMime).map (·.toPdfReport)

/-! ## What a report says -/

theorem tryFrom_eq_ok {width n m : Nat} {context : String} :
    tryFrom width n context = .ok m ↔ n < 2 ^ width ∧ m = n := by
  unfold tryFrom
  split
  · next h => simp [h, eq_comm]
  · next h => simp [h]

theorem length_le_of_checkBytes {bytes : List UInt8} {mime : String}
    (h : checkBytes bytes mime = .ok ()) : bytes.length ≤ maxJobBytes := by
  unfold checkBytes at h
  split at h
  · cases h
  · split at h
    · cases h
    · split at h
      · cases h
      · next hle => exact Nat.le_of_not_lt hle

theorem report_eq_ok {bytes : List UInt8} {document : Document} {checked : CheckedPdf}
    (h : report sha256Hex pageCount bytes document = .ok checked) :
    checked.byteCount = bytes.length ∧ checked.sha256 = sha256Hex bytes := by
  unfold report at h
  split at h
  · cases h
  · next hbytes =>
      split at h
      · cases h
      · split at h
        · cases h
        · cases h
          exact ⟨(tryFrom_eq_ok.mp hbytes).2, rfl⟩

/-- The report of a document is about its bytes: their number, at most 10 MiB,
    and their digest. -/
theorem validate_eq_ok {bytes : List UInt8} {mime : String} {pdf : PdfReport}
    (h : validate inflate sha256Hex loadMem pageCount bytes mime = .ok pdf) :
    pdf.byteCount = bytes.length ∧ bytes.length ≤ maxJobBytes ∧ pdf.sha256 = sha256Hex bytes := by
  unfold validate validatePdf at h
  split at h
  · cases h
  · next hbytes =>
      have hle := length_le_of_checkBytes hbytes
      split at h
      · cases h
      · split at h
        · cases h
        · next document _ _ _ _ =>
            -- the report itself
            cases hreport : report sha256Hex pageCount bytes document with
            | error context =>
                rw [hreport] at h
                cases h
            | ok checked =>
                rw [hreport] at h
                cases h
                obtain ⟨hcount, hdigest⟩ := report_eq_ok sha256Hex pageCount hreport
                exact ⟨hcount, hle, hdigest⟩

end

/-! ## The document of the source's tests -/

/-- `minimal_pdf`, line by line. -/
def minimalPdf : List UInt8 :=
  ["%PDF-1.4",
    "1 0 obj", "<< /Type /Catalog /Pages 2 0 R >>", "endobj",
    "2 0 obj", "<< /Type /Pages /Kids [3 0 R] /Count 1 >>", "endobj",
    "3 0 obj", "<< /Type /Page /Parent 2 0 R /MediaBox [0 0 200 200] >>", "endobj",
    "xref", "0 4", "0000000000 65535 f ", "0000000009 00000 n ", "0000000058 00000 n ",
    "0000000115 00000 n ",
    "trailer", "<< /Size 4 /Root 1 0 R >>", "startxref", "186", "%%EOF"].flatMap
    fun line => utf8 (line ++ "\n")

/-- What `lopdf` reads in it. -/
def minimalParsed : Document where
  trailer := [(utf8 "Size", .integer 4), (utf8 "Root", .reference (1, 0))]
  objects :=
    [((1, 0), .dictionary [(utf8 "Type", .name (utf8 "Catalog")),
        (utf8 "Pages", .reference (2, 0))]),
      ((2, 0), .dictionary [(utf8 "Type", .name (utf8 "Pages")),
        (utf8 "Kids", .array [.reference (3, 0)]), (utf8 "Count", .integer 1)]),
      ((3, 0), .dictionary [(utf8 "Type", .name (utf8 "Page")),
        (utf8 "Parent", .reference (2, 0)),
        (utf8 "MediaBox", .array [.integer 0, .integer 0, .integer 200, .integer 200])])]

/-- Its report. -/
def minimalReport : PdfReport :=
  ⟨329, 1, "7d5371d3d9d5588cdb4c7851773488380aa8e9644001ad32ba5dad8084272746"⟩

/-- `validate_pdf` with a parser that knows this document. -/
def minimalCheck : List UInt8 → String → Except String PdfReport :=
  validate (fun content => (content, false)) (fun _ => minimalReport.sha256)
    (fun bytes => if bytes = minimalPdf then some minimalParsed else none) fun _ => 1

end PrintLatch.PdfGuard
