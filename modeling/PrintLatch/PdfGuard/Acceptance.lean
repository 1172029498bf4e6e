/-
  PrintLatch.PdfGuard.Acceptance

  Which files `validate_pdf` accepts.

  `OtherChecks` collects what the guard asks besides the search for the forbidden names,
  over exact sums; a file is accepted if and only if it holds and none of the names
  stands in the bytes (`validatePdf_isOk`).  A static document within the limits can
  still be refused, and `static_accepted_iff` says when.
-/

import PrintLatch.PdfGuard.Limits
import PrintLatch.PdfGuard.Meaning
import Mathlib.Algebra.Order.Ring.Rat
import Mathlib.Data.Nat.Cast.Order.Ring

namespace PrintLatch.PdfGuard

open Text

/-! ## The checks, one by one -/

/-- What the bytes of a file have to be, apart from the forbidden names. -/
structure Framed (bytes : List UInt8) (mime : String) : Prop where
  mime : mime = "application/pdf"
  nonempty : bytes ≠ []
  size : bytes.length ≤ maxJobBytes
  signature : hasWindow (bytes.take 1024) "%PDF-" = true
  ending : hasWindow (bytes.drop (bytes.length - 2048)) "%%EOF" = true

/-- A forbidden name stands in the bytes, behind its slash. -/
def spelledOut (bytes : List UInt8) : Bool := forbiddenNames.any fun name => hasWindow bytes name

theorem spelledOut_iff {bytes : List UInt8} :
    spelledOut bytes = true ↔ ∃ name ∈ forbiddenNames, utf8 name <:+: bytes := by
  simp [spelledOut, hasWindow_iff]

/-- The search in one pass, which stops to compare only at a slash. -/
def scanNames : List UInt8 → Bool
  | [] => false
  | byte :: rest =>
      (byte = 47 && forbiddenNames.any fun name => (utf8 name).isPrefixOf (byte :: rest)) ||
        scanNames rest

theorem spelledOut_eq_scanNames {bytes : List UInt8} : spelledOut bytes = scanNames bytes := by
  -- every name begins with a slash
  have hslash : ∀ name ∈ forbiddenNames, ∃ letters, utf8 name = 47 :: letters := by
    simp [forbiddenNames, utf8, String.utf8EncodeChar]
  rw [Bool.eq_iff_iff, spelledOut_iff]
  induction bytes with
  | nil =>
      simp only [scanNames, List.infix_nil, Bool.false_eq_true, iff_false]
      rintro ⟨name, hname, hempty⟩
      obtain ⟨letters, hletters⟩ := hslash name hname
      rw [hletters] at hempty
      cases hempty
  | cons byte rest ih =>
      simp only [scanNames, Bool.or_eq_true, Bool.and_eq_true, decide_eq_true_eq,
        List.any_eq_true, List.isPrefixOf_iff_prefix, ← ih, List.infix_cons_iff]
      constructor
      · rintro ⟨name, hname, hprefix | hinfix⟩
        · -- a name that stands here begins with its slash
          obtain ⟨letters, hletters⟩ := hslash name hname
          have hbyte : 47 = byte := (List.cons_prefix_cons.mp (hletters ▸ hprefix)).1
          exact Or.inl ⟨hbyte.symm, name, hname, hprefix⟩
        · exact Or.inr ⟨name, hname, hinfix⟩
      · rintro (⟨-, name, hname, hprefix⟩ | ⟨name, hname, hinfix⟩)
        · exact ⟨name, hname, Or.inl hprefix⟩
        · exact ⟨name, hname, Or.inr hinfix⟩

theorem checkBytes_eq_ok {bytes : List UInt8} {mime : String} :
    checkBytes bytes mime = .ok () ↔ Framed bytes mime ∧ spelledOut bytes = false := by
  have hfind : (forbiddenNames.find? fun name => hasWindow bytes name) = none ↔
      spelledOut bytes = false := by
    rw [List.find?_eq_none, spelledOut, List.any_eq_false]
  unfold checkBytes
  constructor
  · -- the checks in the order of the source
    intro h
    split at h
    · cases h
    · next hmime =>
        split at h
        · cases h
        · next hnonempty =>
            split at h
            · cases h
            · next hsize =>
                split at h
                · cases h
                · next hsignature =>
                    split at h
                    · cases h
                    · next hending =>
                        refine ⟨⟨not_not.mp hmime, hnonempty, not_lt.mp hsize,
                          not_not.mp hsignature, not_not.mp hending⟩, hfind.mp ?_⟩
                        split at h
                        · cases h
                        · next hnone => exact hnone
  · rintro ⟨hframed, hspelled⟩
    rw [if_neg (not_not.mpr hframed.mime), if_neg hframed.nonempty,
      if_neg (not_lt.mpr hframed.size), if_neg (not_not.mpr hframed.signature),
      if_neg (not_not.mpr hframed.ending), hfind.mpr hspelled]

section

variable {inflate : List UInt8 → List UInt8 × Bool}

/-- Only streams whose length is a `usize` get through. -/
theorem sized_of_checkObjects {totals final : Totals} {objects : List PdfObject}
    (h : checkObjects inflate totals objects = .ok final) :
    ∀ object ∈ objects, object.Sized := by
  induction objects generalizing totals with
  | nil => simp
  | cons object rest ih =>
      unfold checkObjects at h
      split at h
      · cases h
      · next next hnext =>
          refine List.forall_mem_cons.mpr ⟨?_, ih h⟩
          cases object with
          | stream dict content =>
              simp only [checkObject] at hnext
              split at hnext
              · cases hnext
              · split at hnext
                · cases hnext
                · next hlength =>
                    -- the length was converted first
                    unfold streamLength at hlength
                    split at hlength
                    · cases hlength
                    · next hfrom => exact (tryFrom_eq_ok.mp hfrom).1
          | _ => trivial

/-- What a document has to be. -/
structure Bounded (inflate : List UInt8 → List UInt8 × Bool) (pageCount : Document → Nat)
    (document : Document) : Prop where
  unencrypted : (document.trailer.get "Encrypt").isSome = false
  objects : document.objects.length ≤ maxObjects
  pages : pageCount document ≠ 0
  pagesLimit : pageCount document ≤ maxPages
  sized : ∀ object ∈ document.objects.map (·.2), object.Sized
  limits : WithinLimits inflate (document.objects.map (·.2))

variable {pageCount : Document → Nat} {document : Document}

theorem checkDocument_isOk :
    (∃ final, checkDocument inflate pageCount document = .ok final) ↔
      Bounded inflate pageCount document := by
  unfold checkDocument
  constructor
  · rintro ⟨final, h⟩
    split at h
    · cases h
    · next hencrypt =>
        split at h
        · cases h
        · next hobjects =>
            split at h
            · cases h
            · next hpages =>
                split at h
                · cases h
                · next hlimit =>
                    have hsized := sized_of_checkObjects h
                    exact ⟨Bool.not_eq_true _ ▸ hencrypt, not_lt.mp hobjects, hpages,
                      not_lt.mp hlimit, hsized, (checkObjects_isOk hsized).mp ⟨final, h⟩⟩
  · intro h
    obtain ⟨final, hok⟩ := (checkObjects_isOk h.sized).mpr h.limits
    refine ⟨final, ?_⟩
    rw [if_neg (by simp [h.unencrypted]), if_neg (not_lt.mpr h.objects), if_neg h.pages,
      if_neg (not_lt.mpr h.pagesLimit)]
    exact hok

/-- Whatever `validate_pdf` asks besides the search for the forbidden names. -/
structure OtherChecks (inflate : List UInt8 → List UInt8 × Bool) (pageCount : Document → Nat)
    (bytes : List UInt8) (mime : String) (document : Document) : Prop where
  framed : Framed bytes mime
  bounded : Bounded inflate pageCount document

variable {sha256Hex : List UInt8 → String} {loadMem : List UInt8 → Option Document}
  {bytes : List UInt8} {mime : String}

/-- The conversions in the report never fail on a document within the limits. -/
theorem report_isOk (hsize : bytes.length ≤ maxJobBytes)
    (hbounded : Bounded inflate pageCount document) :
    ∃ checked, report sha256Hex pageCount bytes document = .ok checked := by
  have hbytes : tryFrom 64 bytes.length "file size is out of range" = .ok bytes.length :=
    tryFrom_eq_ok.mpr ⟨hsize.trans_lt (by decide), rfl⟩
  have hpages : tryFrom 32 (pageCount document) "page count is out of range" =
      .ok (pageCount document) :=
    tryFrom_eq_ok.mpr ⟨hbounded.pagesLimit.trans_lt (by decide), rfl⟩
  have hobjects : tryFrom 32 document.objects.length "object count is out of range" =
      .ok document.objects.length :=
    tryFrom_eq_ok.mpr ⟨hbounded.objects.trans_lt (by decide), rfl⟩
  unfold report
  rw [hbytes, hpages, hobjects]
  exact ⟨_, rfl⟩

/-- A file is accepted if and only if no forbidden name stands in its bytes and it passes
    the other checks. -/
theorem validatePdf_isOk (hload : loadMem bytes = some document) :
    (∃ checked, validatePdf inflate sha256Hex loadMem pageCount bytes mime = .ok checked) ↔
      OtherChecks inflate pageCount bytes mime document ∧ spelledOut bytes = false := by
  unfold validatePdf
  constructor
  · rintro ⟨checked, h⟩
    split at h
    · cases h
    · next hbytes =>
        obtain ⟨hframed, hspelled⟩ := checkBytes_eq_ok.mp hbytes
        rw [hload] at h
        dsimp only at h
        split at h
        · cases h
        · next final hdocument =>
            exact ⟨⟨hframed, checkDocument_isOk.mp ⟨final, hdocument⟩⟩, hspelled⟩
  · rintro ⟨⟨hframed, hbounded⟩, hspelled⟩
    obtain ⟨final, hdocument⟩ := checkDocument_isOk.mpr hbounded
    rw [checkBytes_eq_ok.mpr ⟨hframed, hspelled⟩, hload]
    dsimp only
    rw [hdocument]
    exact report_isOk hframed.size hbounded

/-! ## Static documents -/

/-- The bytes behind all filters of an object. -/
def Document.decodedLength
    (decode : Dictionary → Nat → List UInt8 → List UInt8 → List UInt8 × Bool)
    (document : Document) : PdfObject → Nat
  | .stream dict content => (document.decodedStream decode dict content).1.length
  | _ => 0

/-- The filters of an object end without an error. -/
def Document.decodesFully
    (decode : Dictionary → Nat → List UInt8 → List UInt8 → List UInt8 × Bool)
    (document : Document) : PdfObject → Bool
  | .stream dict content => (document.decodedStream decode dict content).2
  | _ => true

/-- A static PDF within the documented limits, as a reader of the format sees it. -/
structure StaticPdf (decode : Dictionary → Nat → List UInt8 → List UInt8 → List UInt8 × Bool)
    (pageCount : Document → Nat) (bytes : List UInt8) (mime : String) (document : Document) :
    Prop where
  mime : mime = "application/pdf"
  size : bytes.length ≤ maxJobBytes
  signature : utf8 "%PDF-" <:+: bytes.take 1024
  ending : utf8 "%%EOF" <:+: bytes.drop (bytes.length - 2048)
  unencrypted : document.trailer.get "Encrypt" = none
  pages : 1 ≤ pageCount document ∧ pageCount document ≤ maxPages
  objects : document.objects.length ≤ maxObjects
  sized : ∀ object ∈ document.objects.map (·.2), object.Sized
  inactive : document.active = false
  decodes : ∀ object ∈ document.objects.map (·.2), document.decodesFully decode object = true
  decoded : ((document.objects.map (·.2)).map (document.decodedLength decode)).sum ≤
    maxDecodedStreamBytes
  pixels : ((document.objects.map (·.2)).map document.declaredPixels).sum ≤ (maxImagePixels : ℚ)

variable {decode : Dictionary → Nat → List UInt8 → List UInt8 → List UInt8 × Bool}

theorem StaticPdf.framed (h : StaticPdf decode pageCount bytes mime document) :
    Framed bytes mime where
  mime := h.mime
  nonempty := by
    rintro rfl
    have hempty : utf8 "%PDF-" = [] := List.infix_nil.mp h.signature
    cases hempty
  size := h.size
  signature := hasWindow_iff.mpr h.signature
  ending := hasWindow_iff.mpr h.ending

/-- A static PDF is accepted if and only if no forbidden name stands anywhere in its bytes,
    every stream with a direct `FlateDecode` inflates from the bytes it is stored in, and
    the sums over what the guard decodes and over the directly declared dimensions fit. -/
theorem static_accepted_iff (hload : loadMem bytes = some document)
    (hstatic : StaticPdf decode pageCount bytes mime document) :
    (∃ checked, validatePdf inflate sha256Hex loadMem pageCount bytes mime = .ok checked) ↔
      (∀ name ∈ forbiddenNames, ¬ utf8 name <:+: bytes) ∧
        (∀ object ∈ document.objects.map (·.2), object.decodes inflate = true) ∧
          totalDecoded inflate (document.objects.map (·.2)) ≤ maxDecodedStreamBytes ∧
            totalPixels (document.objects.map (·.2)) ≤ maxImagePixels := by
  have hspelled : spelledOut bytes = false ↔ ∀ name ∈ forbiddenNames, ¬ utf8 name <:+: bytes := by
    rw [← Bool.not_eq_true, spelledOut_iff]
    simp
  rw [validatePdf_isOk hload, hspelled]
  constructor
  · -- accepted, so the loop found the sums within the limits
    rintro ⟨hchecks, hnames⟩
    have hlimits := hchecks.bounded.limits
    exact ⟨hnames, hlimits.decodes, hlimits.decoded, hlimits.pixels⟩
  · -- what is asked besides is among the premises of a static document
    rintro ⟨hnames, hdecodes, hdecoded, hpixels⟩
    refine ⟨⟨hstatic.framed, ?_⟩, hnames⟩
    exact
      { unencrypted := by simp [hstatic.unencrypted]
        objects := hstatic.objects
        pages := Nat.one_le_iff_ne_zero.mp hstatic.pages.1
        pagesLimit := hstatic.pages.2
        sized := hstatic.sized
        limits := ⟨hpixels, hdecodes, hdecoded⟩ }

end

/-- The document of the source's tests is static and accepted. -/
theorem minimal_static : StaticPdf (fun _ _ _ content => (content, true)) (fun _ => 1)
    minimalPdf "application/pdf" minimalParsed where
  mime := rfl
  size := by decide +kernel
  signature := hasWindow_iff.mp (by decide +kernel)
  ending := hasWindow_iff.mp (by decide +kernel)
  unencrypted := rfl
  pages := by decide
  objects := by decide
  sized := by simp [minimalParsed, PdfObject.Sized]
  inactive := by decide +kernel
  decodes := by simp [minimalParsed, Document.decodesFully]
  decoded := by simp [minimalParsed, Document.decodedLength]
  pixels := by simp [minimalParsed, Document.declaredPixels]

theorem minimal_accepted : ∃ checked, validatePdf (fun content => (content, true))
    (fun _ => minimalReport.sha256) (fun bytes => if bytes = minimalPdf then some minimalParsed
      else none) (fun _ => 1) minimalPdf "application/pdf" = .ok checked := by
  refine (static_accepted_iff (if_pos rfl) minimal_static).mpr ⟨?_, ?_, ?_, ?_⟩
  · have hspelled : ¬ spelledOut minimalPdf = true := by
      rw [spelledOut_eq_scanNames]
      decide +kernel
    rw [spelledOut_iff] at hspelled
    exact fun name hname hinfix => hspelled ⟨name, hname, hinfix⟩
  · simp [minimalParsed, PdfObject.decodes]
  · simp [totalDecoded, minimalParsed, PdfObject.decodedBytes]
  · simp [totalPixels, minimalParsed, PdfObject.pixels]

/-! ## A static document that is refused -/

/-- The bytes of a file, line by line. -/
def pdfLines (lines : List String) : List UInt8 := lines.flatMap fun line => utf8 (line ++ "\n")

/-- `minimal_pdf` with a page entry whose key merely begins with a forbidden name. -/
def launchDatePdf : List UInt8 :=
  pdfLines ["%PDF-1.4",
    "1 0 obj", "<< /Type /Catalog /Pages 2 0 R >>", "endobj",
    "2 0 obj", "<< /Type /Pages /Kids [3 0 R] /Count 1 >>", "endobj",
    "3 0 obj", "<< /Type /Page /Parent 2 0 R /MediaBox [0 0 200 200] /LaunchDate (2026) >>",
    "endobj",
    "xref", "0 4", "0000000000 65535 f ", "0000000009 00000 n ", "0000000058 00000 n ",
    "0000000115 00000 n ",
    "trailer", "<< /Size 4 /Root 1 0 R >>", "startxref", "205", "%%EOF"]

/-- What `lopdf` reads in it. -/
def launchDateParsed : Document where
  trailer := minimalParsed.trailer
  objects := minimalParsed.objects.take 2 ++
    [((3, 0), .dictionary [(utf8 "Type", .name (utf8 "Page")),
      (utf8 "Parent", .reference (2, 0)),
      (utf8 "MediaBox", .array [.integer 0, .integer 0, .integer 200, .integer 200]),
      (utf8 "LaunchDate", .string (utf8 "2026"))])]

/-- A parser that knows this file. -/
def launchDateLoad (bytes : List UInt8) : Option Document :=
  if bytes = launchDatePdf then some launchDateParsed else none

theorem launchDate_refused :
    launchDateLoad launchDatePdf = some launchDateParsed ∧
      StaticPdf (fun _ _ _ content => (content, true)) (fun _ => 1) launchDatePdf
        "application/pdf" launchDateParsed ∧
      validatePdf (fun content => (content, true)) (fun _ => minimalReport.sha256)
        launchDateLoad (fun _ => 1) launchDatePdf "application/pdf" =
          .error "active or embedded PDF feature /Launch is not accepted" := by
  refine ⟨if_pos rfl, ?_, by decide +kernel⟩
  exact
    { mime := rfl
      size := by decide +kernel
      signature := hasWindow_iff.mp (by decide +kernel)
      ending := hasWindow_iff.mp (by decide +kernel)
      unencrypted := rfl
      pages := by decide
      objects := by decide
      sized := by simp [launchDateParsed, minimalParsed, PdfObject.Sized]
      inactive := by decide +kernel
      decodes := by simp [launchDateParsed, minimalParsed, Document.decodesFully]
      decoded := by simp [launchDateParsed, minimalParsed, Document.decodedLength]
      pixels := by simp [launchDateParsed, minimalParsed, Document.declaredPixels] }

end PrintLatch.PdfGuard
