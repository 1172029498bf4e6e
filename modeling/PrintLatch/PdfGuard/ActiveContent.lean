/-
  PrintLatch.PdfGuard.ActiveContent

  Whether an accepted file can hold a forbidden name.

  The guard searches the bytes of the file for the nine names as they are usually
  written.  A parser finds names that are written otherwise: a name may have its
  characters escaped as `#xx`, and whole objects may stand in compressed object streams.
  `no_active_content_iff` says what the search is worth for a file, and
  `inactive_of_plain` that it is enough where names are written plainly in the file
  itself.
-/

import PrintLatch.PdfGuard.Acceptance

namespace PrintLatch.PdfGuard

open Text

variable {inflate : List UInt8 → List UInt8 × Bool} {sha256Hex : List UInt8 → String}
  {loadMem : List UInt8 → Option Document} {pageCount : Document → Nat}

/-! ## The search and the parsed names -/

/-- An accepted file has no forbidden name in its parsed document if and only if, whenever
    the document has one, the file spells one of them out or fails another check. -/
theorem no_active_content_iff (bytes : List UInt8) (mime : String) :
    (∀ document checked, loadMem bytes = some document →
        validatePdf inflate sha256Hex loadMem pageCount bytes mime = .ok checked →
        document.active = false) ↔
      ∀ document, loadMem bytes = some document → document.active = true →
        spelledOut bytes = true ∨ ¬ OtherChecks inflate pageCount bytes mime document := by
  constructor
  · -- an active document that is not refused would be accepted
    intro h document hload hactive
    by_contra hnot
    obtain ⟨hspelled, hchecks⟩ := not_or.mp hnot
    obtain ⟨checked, hok⟩ : ∃ checked,
        validatePdf inflate sha256Hex loadMem pageCount bytes mime = .ok checked :=
      (validatePdf_isOk hload).mpr ⟨not_not.mp hchecks, Bool.not_eq_true _ ▸ hspelled⟩
    rw [h document checked hload hok] at hactive
    cases hactive
  · intro h document checked hload hok
    obtain ⟨hchecks, hspelled⟩ := (validatePdf_isOk hload).mp ⟨checked, hok⟩
    by_contra hactive
    rcases h document hload (Bool.not_eq_false _ ▸ hactive) with hspelled' | hrefused
    · rw [hspelled] at hspelled'
      cases hspelled'
    · exact hrefused hchecks

/-! ## A file that escapes a name -/

/-- `minimal_pdf` with an `/OpenAction` whose name has one character escaped. -/
def escapedPdf : List UInt8 :=
  pdfLines ["%PDF-1.4",
    "1 0 obj", "<< /Type /Catalog /Pages 2 0 R /OpenA#63tion 3 0 R >>", "endobj",
    "2 0 obj", "<< /Type /Pages /Kids [3 0 R] /Count 1 >>", "endobj",
    "3 0 obj", "<< /Type /Page /Parent 2 0 R /MediaBox [0 0 200 200] >>", "endobj",
    "xref", "0 4", "0000000000 65535 f ", "0000000009 00000 n ", "0000000078 00000 n ",
    "0000000135 00000 n ",
    "trailer", "<< /Size 4 /Root 1 0 R >>", "startxref", "206", "%%EOF"]

/-- What `lopdf` reads in it. -/
def escapedParsed : Document where
  trailer := minimalParsed.trailer
  objects :=
    ((1, 0), .dictionary [(utf8 "Type", .name (utf8 "Catalog")),
      (utf8 "Pages", .reference (2, 0)), (utf8 "OpenAction", .reference (3, 0))]) ::
      minimalParsed.objects.tail

/-- A parser that knows this file. -/
def escapedLoad (bytes : List UInt8) : Option Document :=
  if bytes = escapedPdf then some escapedParsed else none

/-- Its report. -/
def escapedReport : CheckedPdf where
  byteCount := 349
  pageCount := 1
  sha256 := "61b0676b7e9a2297d54393ef5d0d31746e2086c38296c6ba381a1b843a255e65"
  objectCount := 3

/-- The escaped name goes past the search. -/
theorem escaped_name_accepted :
    ∃ document checked, escapedLoad escapedPdf = some document ∧
      validatePdf (fun content => (content, false)) (fun _ => escapedReport.sha256) escapedLoad
        (fun _ => 1) escapedPdf "application/pdf" = .ok checked ∧
      document.active = true :=
  ⟨escapedParsed, escapedReport, if_pos rfl, by decide +kernel, by decide +kernel⟩

/-! ## Plain files -/

/-- The value of a hexadecimal digit. -/
def hexDigit (byte : UInt8) : Option UInt8 :=
  if 48 ≤ byte ∧ byte ≤ 57 then some (byte - 48)
  else if 65 ≤ byte ∧ byte ≤ 70 then some (byte - 55)
  else if 97 ≤ byte ∧ byte ≤ 102 then some (byte - 87)
  else none

/-- A name as it is written, with its `#xx` escapes resolved. -/
def decodeName : List UInt8 → List UInt8
  | 35 :: high :: low :: rest =>
      match hexDigit high, hexDigit low with
      | some h, some l => (16 * h + l) :: decodeName rest
      | _, _ => 35 :: decodeName (high :: low :: rest)
  | byte :: rest => byte :: decodeName rest
  | [] => []

/-- Without a number sign a name is written as it is read. -/
theorem decodeName_of_plain {spelling : List UInt8} (h : (35 : UInt8) ∉ spelling) :
    decodeName spelling = spelling := by
  induction spelling with
  | nil => rfl
  | cons byte rest ih =>
      obtain ⟨hbyte, hrest⟩ := not_or.mp (List.mem_cons.not.mp h)
      rw [decodeName.eq_2 _ _ fun high low others heq => absurd heq (Ne.symm hbyte), ih hrest]

/-- The parser reads every name from a spelling of it behind a slash, in the file or in one
    of its object streams. -/
def ReadsNames (loadMem : List UInt8 → Option Document)
    (objectStreams : List UInt8 → List (List UInt8)) : Prop :=
  ∀ bytes document, loadMem bytes = some document →
    ∀ name ∈ document.names, ∃ source ∈ bytes :: objectStreams bytes,
      ∃ spelling, 47 :: spelling <:+: source ∧ decodeName spelling = name

/-- A file without object streams and without a number sign is refused if its document has
    a forbidden name. -/
theorem inactive_of_plain {objectStreams : List UInt8 → List (List UInt8)}
    (hreads : ReadsNames loadMem objectStreams) {bytes : List UInt8} {mime : String}
    {document : Document} {checked : CheckedPdf} (hload : loadMem bytes = some document)
    (hstreams : objectStreams bytes = []) (hplain : (35 : UInt8) ∉ bytes)
    (hok : validatePdf inflate sha256Hex loadMem pageCount bytes mime = .ok checked) :
    document.active = false := by
  obtain ⟨-, hspelled⟩ := (validatePdf_isOk hload).mp ⟨checked, hok⟩
  by_contra hactive
  obtain ⟨name, hname, hforbidden⟩ := List.any_eq_true.mp (Bool.not_eq_false _ ▸ hactive)
  obtain ⟨marker, hmarker, hslash⟩ := List.any_eq_true.mp hforbidden
  obtain ⟨source, hsource, spelling, hfound, hdecode⟩ := hreads bytes document hload name hname
  -- without object streams, the name is spelled in the file
  rw [hstreams, List.mem_singleton] at hsource
  subst hsource
  -- the spelling is the name itself
  have hspelling : (35 : UInt8) ∉ spelling := fun hmem =>
    hplain (hfound.subset (List.mem_cons_of_mem _ hmem))
  rw [decodeName_of_plain hspelling] at hdecode
  subst hdecode
  have hsearch : spelledOut source = true :=
    spelledOut_iff.mpr ⟨marker, hmarker, of_decide_eq_true hslash ▸ hfound⟩
  rw [hspelled] at hsearch
  cases hsearch

end PrintLatch.PdfGuard
