/-
  PrintLatch.PdfGuard.Declarations

  Filters and image dimensions that are declared in ways the guard does not read.

  The guard counts a stream and an image by what stands in the dictionary itself.  What
  it counts in full (`countedInFull`, `countedImage`) keeps the limits in every accepted
  document; a stream or an image that it counts short breaks them as soon as the others
  use up the rest (`decodedLimit_exact`, `imageLimit_exact`).
-/

import PrintLatch.PdfGuard.Acceptance
import Mathlib.Algebra.BigOperators.Ring.Finset
import Mathlib.Tactic.NormNum

namespace PrintLatch.PdfGuard

open Text

variable {inflate : List UInt8 → List UInt8 × Bool} {sha256Hex : List UInt8 → String}
  {loadMem : List UInt8 → Option Document} {pageCount : Document → Nat}
  {decode : Dictionary → Nat → List UInt8 → List UInt8 → List UInt8 × Bool}

/-- The parsed objects, without their ids. -/
def Document.values (document : Document) : List PdfObject := document.objects.map (·.2)

theorem limits_of_accepted {bytes : List UInt8} {mime : String} {document : Document}
    {checked : CheckedPdf} (hload : loadMem bytes = some document)
    (hok : validatePdf inflate sha256Hex loadMem pageCount bytes mime = .ok checked) :
    WithinLimits inflate document.values :=
  ((validatePdf_isOk hload).mp ⟨checked, hok⟩).1.bounded.limits

theorem sized_of_accepted {bytes : List UInt8} {mime : String} {document : Document}
    {checked : CheckedPdf} (hload : loadMem bytes = some document)
    (hok : validatePdf inflate sha256Hex loadMem pageCount bytes mime = .ok checked) :
    ∀ object ∈ document.values, object.Sized :=
  ((validatePdf_isOk hload).mp ⟨checked, hok⟩).1.bounded.sized

/-! ## Filters -/

/-- The bytes a stream stands for in the document: those behind its filters if one of them
    is `FlateDecode`, else those it is stored in. -/
def Document.declaredBytes
    (decode : Dictionary → Nat → List UInt8 → List UInt8 → List UInt8 × Bool)
    (document : Document) : PdfObject → Nat
  | .stream dict content =>
      if utf8 "FlateDecode" ∈ document.filters dict then
        (document.decodedStream decode dict content).1.length
      else content.length
  | _ => 0

/-- All bytes the streams stand for. -/
def Document.allBytes
    (decode : Dictionary → Nat → List UInt8 → List UInt8 → List UInt8 × Bool)
    (document : Document) : Nat :=
  (document.values.map (document.declaredBytes decode)).sum

/-- The guard counts the object for all bytes it stands for: the filters of a Flate stream
    yield no more than one zlib layer does, if `FlateDecode` stands in the dictionary itself,
    and no more than is stored, if it does not. -/
def Document.countedInFull (inflate : List UInt8 → List UInt8 × Bool)
    (decode : Dictionary → Nat → List UInt8 → List UInt8 → List UInt8 × Bool)
    (document : Document) : PdfObject → Prop
  | .stream dict content =>
      utf8 "FlateDecode" ∈ document.filters dict →
        (document.decodedStream decode dict content).1.length ≤
          if hasFilter dict "FlateDecode" then (inflate content).1.length else content.length
  | _ => True

/-- A filter that stands in the dictionary is one of the declared filters. -/
theorem Document.mem_filters_of_hasFilter {document : Document} {dict : Dictionary}
    {filter : String} (h : hasFilter dict filter = true) :
    utf8 filter ∈ document.filters dict := by
  unfold hasFilter at h
  unfold filters
  split at h
  · next name hget =>
      rw [document.entry_of_get hget fun id heq => by cases heq]
      exact List.mem_singleton.mpr (of_decide_eq_true h).symm
  · next items hget =>
      rw [document.entry_of_get hget fun id heq => by cases heq]
      obtain ⟨item, hitem, hname⟩ := List.any_eq_true.mp h
      refine List.mem_filterMap.mpr ⟨item, hitem, ?_⟩
      split at hname
      · rw [document.resolve_of_not_reference fun id heq => by cases heq]
        exact congrArg some (of_decide_eq_true hname)
      · cases hname
  · cases h

theorem Document.countedInFull_iff {document : Document} {object : PdfObject} :
    document.countedInFull inflate decode object ↔
      document.declaredBytes decode object ≤ object.decodedBytes inflate := by
  cases object with
  | stream dict content =>
      simp only [Document.countedInFull, Document.declaredBytes, PdfObject.decodedBytes,
        streamBytes]
      by_cases hmem : utf8 "FlateDecode" ∈ document.filters dict
      · simp only [hmem, forall_const, if_true]
      · -- without a Flate filter both count what is stored
        have hfilter : ¬ hasFilter dict "FlateDecode" = true := fun h =>
          hmem (document.mem_filters_of_hasFilter h)
        simp only [hmem, false_implies, if_false, if_neg hfilter, le_refl]
  | null | boolean | integer | real | name | string | array | dictionary | reference =>
      exact iff_of_true trivial le_rfl

/-- A Flate filter yields at most the bytes that inflate: a predictor takes bytes away. -/
def FlateBounded (inflate : List UInt8 → List UInt8 × Bool)
    (decode : Dictionary → Nat → List UInt8 → List UInt8 → List UInt8 × Bool) : Prop :=
  ∀ dict index content,
    (decode dict index (utf8 "FlateDecode") content).1.length ≤ (inflate content).1.length

/-- The filter never yields more bytes than it gets, as `ASCIIHexDecode` does not. -/
def Shrinks (decode : Dictionary → Nat → List UInt8 → List UInt8 → List UInt8 × Bool)
    (filter : List UInt8) : Prop :=
  ∀ dict index content, (decode dict index filter content).1.length ≤ content.length

theorem length_applyFilters_le {dict : Dictionary} {filters : List (List UInt8)}
    (hfilters : ∀ filter ∈ filters, Shrinks decode filter) (index : Nat)
    (content : List UInt8) :
    (applyFilters decode dict index filters content).1.length ≤ content.length := by
  induction filters generalizing index content with
  | nil => exact le_rfl
  | cons filter rest ih =>
      have hfirst : (decode dict index filter content).1.length ≤ content.length :=
        hfilters filter (by simp) dict index content
      have hrest := ih (fun other hother => hfilters other (by simp [hother])) (index + 1)
        (decode dict index filter content).1
      exact hrest.trans hfirst

/-- A direct `FlateDecode` that is applied first, before filters that add nothing, is
    counted in full. -/
theorem Document.countedInFull_of_shrinks (hflate : FlateBounded inflate decode)
    {document : Document} {dict : Dictionary} {rest : List (List UInt8)}
    (hfilters : document.filters dict = utf8 "FlateDecode" :: rest)
    (hdirect : hasFilter dict "FlateDecode" = true)
    (hrest : ∀ filter ∈ rest, Shrinks decode filter) (content : List UInt8) :
    document.countedInFull inflate decode (.stream dict content) := by
  intro _
  -- the guard counts what the first filter yields, and the others only take away
  have hinner : (applyFilters decode dict 1 rest
      (decode dict 0 (utf8 "FlateDecode") content).1).1.length ≤
        (decode dict 0 (utf8 "FlateDecode") content).1.length :=
    length_applyFilters_le hrest 1 _
  rw [if_pos hdirect, Document.decodedStream, hfilters]
  exact hinner.trans (hflate dict 0 content)

/-! ## The limits of one object and another -/

theorem WithinLimits.pixels_le {objects : List PdfObject} (h : WithinLimits inflate objects)
    {object : PdfObject} (hobject : object ∈ objects) : object.pixels ≤ maxImagePixels :=
  (List.single_le_sum (fun _ _ => Nat.zero_le _) _
    (List.mem_map_of_mem (f := PdfObject.pixels) hobject)).trans h.pixels

theorem WithinLimits.decodedBytes_le {objects : List PdfObject}
    (h : WithinLimits inflate objects) {object : PdfObject} (hobject : object ∈ objects) :
    object.decodedBytes inflate ≤ maxDecodedStreamBytes :=
  (List.single_le_sum (fun _ _ => Nat.zero_le _) _
    (List.mem_map_of_mem (f := PdfObject.decodedBytes inflate) hobject)).trans h.decoded

/-- What passes the loop is within the limits. -/
theorem withinLimits_of_passes {objects : List PdfObject}
    (h : ∃ totals, checkObjects inflate ⟨0, 0⟩ objects = .ok totals) :
    WithinLimits inflate objects := by
  obtain ⟨totals, htotals⟩ := h
  exact (checkObjects_isOk (sized_of_checkObjects htotals)).mp ⟨totals, htotals⟩

/-- Two objects pass the loop if their counts fit. -/
theorem pair_passes {object filler : PdfObject} (hobject : object.Sized)
    (hfiller : filler.Sized) (hpixels : object.pixels + filler.pixels ≤ maxImagePixels)
    (hdecodes : object.decodes inflate = true ∧ filler.decodes inflate = true)
    (hdecoded : object.decodedBytes inflate + filler.decodedBytes inflate ≤
      maxDecodedStreamBytes) :
    ∃ totals, checkObjects inflate ⟨0, 0⟩ [object, filler] = .ok totals := by
  refine (checkObjects_isOk ?_).mpr ⟨?_, ?_, ?_⟩
  · simp [hobject, hfiller]
  · simpa [totalPixels] using hpixels
  · simp [hdecodes.1, hdecodes.2]
  · simpa [totalDecoded] using hdecoded

/-! ## The limit of the decoded bytes -/

/-- A run of zeros. -/
def zeros (count : Nat) : List UInt8 := List.replicate count 0

@[simp] theorem length_zeros {count : Nat} : (zeros count).length = count :=
  List.length_replicate

/-- A stream without a filter stands for what is stored, and the guard counts that. -/
theorem unfiltered_bytes {document : Document} {content : List UInt8} :
    document.declaredBytes decode (.stream [] content) = content.length ∧
      (PdfObject.stream [] content).decodedBytes inflate = content.length := by
  have hnone : document.filters [] = [] := by
    have hentry : document.entry [] "Filter" = .null :=
      document.resolve_of_not_reference fun id heq => by cases heq
    rw [Document.filters, hentry]
  constructor
  · rw [Document.declaredBytes, hnone, if_neg List.not_mem_nil]
  · rfl

/-- **The limit holds for what the guard counts in full.**  An accepted document keeps it
    if all its streams are; and whatever objects that are counted in full stand beside it
    in the loop, a stream of an accepted document keeps it exactly if it is so too. -/
theorem decodedLimit_exact {bytes : List UInt8} {mime : String} {document : Document}
    {checked : CheckedPdf} (hload : loadMem bytes = some document)
    (hok : validatePdf inflate sha256Hex loadMem pageCount bytes mime = .ok checked) :
    ((∀ object ∈ document.values, document.countedInFull inflate decode object) →
        document.allBytes decode ≤ maxDecodedStreamBytes) ∧
      ∀ object ∈ document.values,
        ((∀ others, (∀ other ∈ others, document.countedInFull inflate decode other) →
            (∃ totals, checkObjects inflate ⟨0, 0⟩ (object :: others) = .ok totals) →
            ((object :: others).map (document.declaredBytes decode)).sum ≤
              maxDecodedStreamBytes) ↔
          document.countedInFull inflate decode object) := by
  have hlimits := limits_of_accepted hload hok
  have hsized := sized_of_accepted hload hok
  refine ⟨fun hall => ?_, fun object hobject => ?_⟩
  · exact Ledger.sum_worth_le (fun object hobject => Document.countedInFull_iff.mp
      (hall object hobject)) hlimits.decoded
  · -- a stored run of zeros uses up what the stream leaves
    have hle := hlimits.decodedBytes_le hobject
    have hfiller : document.declaredBytes decode (.stream []
        (zeros (maxDecodedStreamBytes - object.decodedBytes inflate))) = _ ∧
        (PdfObject.stream [] (zeros (maxDecodedStreamBytes -
          object.decodedBytes inflate))).decodedBytes inflate = _ := unfiltered_bytes
    rw [length_zeros] at hfiller
    simp only [Document.countedInFull_iff]
    refine Ledger.keeps_limit_iff (fun items hpass => (withinLimits_of_passes hpass).decoded)
      (hfiller.1.trans hfiller.2.symm) (by rw [hfiller.2]; omega) ?_
    refine pair_passes (hsized object hobject) ?_ ?_ ⟨hlimits.decodes object hobject, rfl⟩ ?_
    · show (zeros _).length < 2 ^ 64
      rw [length_zeros]
      have hlimit := maxDecodedStreamBytes_lt
      omega
    · exact hlimits.pixels_le hobject
    · rw [hfiller.2]
      omega

/-! ## A stream behind two filters -/

/-- More than 100 MiB of zeros behind `FlateDecode`: a zlib stream of one block. -/
def zerosDeflated : List UInt8 :=
  [120, 218, 237, 192, 129, 0, 0, 0, 0, 128, 160, 253, 169, 23, 169] ++
    zeros 101606 ++ [24, 93, 243, 0, 1]

/-- The same behind a second `FlateDecode`. -/
def twiceDeflated : List UInt8 :=
  [120, 94, 237, 193, 65, 17, 128, 32, 16, 0, 192, 51, 133, 148, 179, 135, 79, 109, 226, 247,
    90, 144, 131, 14, 188, 120, 51, 35, 57, 152, 221, 189, 91, 175, 111, 44, 207, 55, 243,
    204] ++ zeros 98 ++ [96, 67, 229, 26, 113, 252, 42, 42, 8, 112]

/-- A decoder that knows these two. -/
def inflateTwice (content : List UInt8) : List UInt8 × Bool :=
  if content = twiceDeflated then (zerosDeflated, true)
  else if content = zerosDeflated then (zeros 104857651, true)
  else ([], false)

/-- A document whose page has that stream for its content. -/
def twicePdf : List UInt8 :=
  pdfLines ["%PDF-1.4",
    "1 0 obj", "<< /Type /Catalog /Pages 2 0 R >>", "endobj",
    "2 0 obj", "<< /Type /Pages /Kids [3 0 R] /Count 1 >>", "endobj",
    "3 0 obj", "<< /Type /Page /Parent 2 0 R /MediaBox [0 0 200 200] /Contents 4 0 R >>",
    "endobj",
    "4 0 obj", "<< /Length 148 /Filter [/FlateDecode /FlateDecode] >>", "stream"] ++
  twiceDeflated ++
  pdfLines ["", "endstream", "endobj",
    "xref", "0 5", "0000000000 65535 f ", "0000000009 00000 n ", "0000000058 00000 n ",
    "0000000115 00000 n ", "0000000202 00000 n ",
    "trailer", "<< /Size 5 /Root 1 0 R >>", "startxref", "437", "%%EOF"]

/-- The dictionary of the stream. -/
def twiceDict : Dictionary :=
  [(utf8 "Length", .integer 148),
    (utf8 "Filter", .array [.name (utf8 "FlateDecode"), .name (utf8 "FlateDecode")])]

/-- What `lopdf` reads in it. -/
def twiceParsed : Document where
  trailer := [(utf8 "Size", .integer 5), (utf8 "Root", .reference (1, 0))]
  objects := minimalParsed.objects.take 2 ++
    [((3, 0), .dictionary [(utf8 "Type", .name (utf8 "Page")),
        (utf8 "Parent", .reference (2, 0)),
        (utf8 "MediaBox", .array [.integer 0, .integer 0, .integer 200, .integer 200]),
        (utf8 "Contents", .reference (4, 0))]),
      ((4, 0), .stream twiceDict twiceDeflated)]

/-- A parser that knows this file. -/
def twiceLoad (bytes : List UInt8) : Option Document :=
  if bytes = twicePdf then some twiceParsed else none

/-- Its digest. -/
def twiceDigest : String := "dab507d1468ef137f3468364e549e59bc086c79c759a8c7b1e23ba7634d7b6a6"

/-- The filters by name: only `FlateDecode` is known. -/
def decodeTwice (_ : Dictionary) (_ : Nat) (filter content : List UInt8) :
    List UInt8 × Bool :=
  if filter = utf8 "FlateDecode" then inflateTwice content else ([], false)

theorem inflateTwice_outer : inflateTwice twiceDeflated = (zerosDeflated, true) := if_pos rfl

theorem length_framed {head tail : List UInt8} {count : Nat} :
    (head ++ zeros count ++ tail).length = head.length + count + tail.length := by
  rw [List.length_append, List.length_append, length_zeros]

theorem zerosDeflated_length : zerosDeflated.length = 101626 := by
  rw [zerosDeflated, length_framed]
  show 15 + 101606 + 5 = 101626
  rfl

theorem twiceDeflated_length : twiceDeflated.length = 148 := by
  rw [twiceDeflated, length_framed]
  show 40 + 98 + 10 = 148
  rfl

theorem inflateTwice_inner :
    inflateTwice zerosDeflated = (zeros 104857651, true) := by
  have hne : zerosDeflated ≠ twiceDeflated := by
    intro h
    have hlength := congrArg List.length h
    rw [zerosDeflated_length, twiceDeflated_length] at hlength
    omega
  unfold inflateTwice
  rw [if_neg hne, if_pos rfl]

theorem twiceParsed_values : ∃ first second third, twiceParsed.values =
    [.dictionary first, .dictionary second, .dictionary third,
      .stream twiceDict twiceDeflated] :=
  ⟨_, _, _, rfl⟩

/-- The filter stands in the dictionary itself. -/
theorem twiceDict_hasFilter : hasFilter twiceDict "FlateDecode" = true := by
  simp [hasFilter, twiceDict, Dictionary.get, utf8, String.utf8EncodeChar]

/-- The guard accepts the file: it counts the bytes between the two filters. -/
theorem twice_accepted : ∃ checked, validatePdf inflateTwice (fun _ => twiceDigest) twiceLoad
    (fun _ => 1) twicePdf "application/pdf" = .ok checked := by
  have hpixels : imagePixels twiceDict = 0 := by
    simp [imagePixels, dictionaryName, twiceDict, Dictionary.get, utf8, String.utf8EncodeChar]
  obtain ⟨first, second, third, hvalues⟩ := twiceParsed_values
  refine (validatePdf_isOk (if_pos rfl)).mpr ⟨⟨?_, ?_⟩, ?_⟩
  rotate_right
  · rw [spelledOut_eq_scanNames]
    decide +kernel
  · exact ⟨rfl, by decide +kernel, by decide +kernel, by decide +kernel, by decide +kernel⟩
  · refine ⟨rfl, by decide, by decide, by decide, ?_, ?_⟩
    · show ∀ object ∈ twiceParsed.values, object.Sized
      rw [hvalues]
      simp [PdfObject.Sized, twiceDeflated]
    · show WithinLimits inflateTwice twiceParsed.values
      rw [hvalues]
      refine ⟨?_, ?_, ?_⟩
      · simp [totalPixels, PdfObject.pixels, hpixels]
      · simp [PdfObject.decodes, inflateTwice_outer]
      · simp [totalDecoded, PdfObject.decodedBytes, streamBytes, twiceDict_hasFilter,
          inflateTwice_outer, zerosDeflated_length, maxDecodedStreamBytes]

theorem twiceParsed_filters :
    twiceParsed.filters twiceDict = [utf8 "FlateDecode", utf8 "FlateDecode"] := by
  have hentry : twiceParsed.entry twiceDict "Filter" =
      .array [.name (utf8 "FlateDecode"), .name (utf8 "FlateDecode")] :=
    Document.entry_of_get
      (by simp [twiceDict, Dictionary.get, utf8, String.utf8EncodeChar]) (by simp)
  simp [Document.filters, hentry, Document.resolve_of_not_reference]

/-- Only the stream of such a document stands for bytes. -/
theorem allBytes_of_values {document : Document} {first second third : Dictionary}
    {object : PdfObject} (hvalues : document.values =
      [.dictionary first, .dictionary second, .dictionary third, object]) :
    document.allBytes decode = document.declaredBytes decode object := by
  simp [Document.allBytes, hvalues, Document.declaredBytes]

/-- Both filters together yield the zeros. -/
theorem twiceParsed_decoded :
    (twiceParsed.decodedStream decodeTwice twiceDict twiceDeflated).1 = zeros 104857651 := by
  have houter : decodeTwice twiceDict 0 (utf8 "FlateDecode") twiceDeflated =
      (zerosDeflated, true) := (if_pos rfl).trans inflateTwice_outer
  have hinner : decodeTwice twiceDict 1 (utf8 "FlateDecode") zerosDeflated =
      (zeros 104857651, true) := (if_pos rfl).trans inflateTwice_inner
  rw [Document.decodedStream, twiceParsed_filters, applyFilters_pair _ houter hinner]

/-- The page content is more than 100 MiB. -/
theorem twice_decoded :
    ∃ document checked, twiceLoad twicePdf = some document ∧
      validatePdf inflateTwice (fun _ => twiceDigest) twiceLoad (fun _ => 1) twicePdf
        "application/pdf" = .ok checked ∧
      ¬ document.allBytes decodeTwice ≤ maxDecodedStreamBytes := by
  obtain ⟨checked, hok⟩ := twice_accepted
  refine ⟨twiceParsed, checked, if_pos rfl, hok, ?_⟩
  have hmem : utf8 "FlateDecode" ∈ twiceParsed.filters twiceDict := by
    simp [twiceParsed_filters]
  have hstream : twiceParsed.declaredBytes decodeTwice (.stream twiceDict twiceDeflated) =
      104857651 := by
    rw [Document.declaredBytes, if_pos hmem, twiceParsed_decoded, length_zeros]
  obtain ⟨first, second, third, hvalues⟩ := twiceParsed_values
  rw [allBytes_of_values hvalues, hstream]
  decide

/-- The guard counts the stream short, so it breaks the limit in some company. -/
theorem decodedLimit_exact_of_twicePdf :
    ∃ others, (∀ other ∈ others, twiceParsed.countedInFull inflateTwice decodeTwice other) ∧
      (∃ totals, checkObjects inflateTwice ⟨0, 0⟩
        (.stream twiceDict twiceDeflated :: others) = .ok totals) ∧
      maxDecodedStreamBytes < ((.stream twiceDict twiceDeflated :: others).map
        (twiceParsed.declaredBytes decodeTwice)).sum := by
  have hmem : utf8 "FlateDecode" ∈ twiceParsed.filters twiceDict := by
    simp [twiceParsed_filters]
  have hshort : ¬ twiceParsed.countedInFull inflateTwice decodeTwice
      (.stream twiceDict twiceDeflated) := by
    intro h
    have hlength := h hmem
    rw [twiceParsed_decoded, length_zeros, if_pos twiceDict_hasFilter, inflateTwice_outer,
      zerosDeflated_length] at hlength
    omega
  have hvalue : PdfObject.stream twiceDict twiceDeflated ∈ twiceParsed.values := by
    obtain ⟨first, second, third, hvalues⟩ := twiceParsed_values
    simp [hvalues]
  obtain ⟨checked, hok⟩ := twice_accepted
  have hbreaks := mt ((decodedLimit_exact (if_pos rfl) hok).2 _ hvalue).mp hshort
  simp only [not_forall, not_le] at hbreaks
  obtain ⟨others, hothers, hpass, hover⟩ := hbreaks
  exact ⟨others, hothers, hpass, hover⟩

/-! ## Images -/

/-- The stream is no image, or a direct one with direct dimensions that are not negative. -/
def Document.plainImage (document : Document) : PdfObject → Bool
  | .stream dict _ =>
      (document.entry dict "Subtype").isName "Image" = false ∨
        (dictionaryName dict "Subtype" = some (utf8 "Image") ∧
          (dictionaryPositiveInteger dict "Width").isSome ∧
            (dictionaryPositiveInteger dict "Height").isSome)
  | _ => true

/-- All pixels the images declare. -/
def Document.allPixels (document : Document) : ℚ :=
  (document.values.map document.declaredPixels).sum

/-- The guard counts the object for all pixels it declares: it is declared plainly, or its
    area is not positive. -/
def Document.countedImage (document : Document) (object : PdfObject) : Prop :=
  document.plainImage object = true ∨ document.declaredPixels object ≤ 0

/-- A direct integer that is not negative denotes the number the guard reads. -/
theorem Document.entry_number {document : Document} {dict : Dictionary} {key : String}
    {value : Nat} (h : dictionaryPositiveInteger dict key = some value) :
    (document.entry dict key).number = value := by
  unfold dictionaryPositiveInteger at h
  split at h
  · next hget =>
      cases h
      rw [document.entry_of_get hget fun id heq => by cases heq]
      simp [PdfObject.number]
  · cases h

/-- The guard counts a plainly declared image for what it declares. -/
theorem declaredPixels_le_of_plain {document : Document} {object : PdfObject}
    (hplain : document.plainImage object = true) :
    document.declaredPixels object ≤ (object.pixels : ℚ) := by
  cases object with
  | stream dict content =>
      simp only [Document.declaredPixels, Document.imageArea, PdfObject.pixels, imagePixels]
      rcases of_decide_eq_true hplain with hother | ⟨hsubtype, hwidth, hheight⟩
      · rw [hother]
        exact Nat.cast_nonneg _
      · obtain ⟨width, hwidth⟩ := Option.isSome_iff_exists.mp hwidth
        obtain ⟨height, hheight⟩ := Option.isSome_iff_exists.mp hheight
        rw [if_pos hsubtype, hwidth, hheight, document.entry_number hwidth,
          document.entry_number hheight]
        split
        · simp
        · exact Nat.cast_nonneg _
  | null | boolean | integer | real | name | string | array | dictionary | reference =>
      simp [Document.declaredPixels, PdfObject.pixels]

/-- Any other image the guard counts for nothing. -/
theorem pixels_eq_zero_of_not_plain {document : Document} {object : PdfObject}
    (h : ¬ document.plainImage object = true) : object.pixels = 0 := by
  cases object with
  | stream dict content =>
      simp only [Document.plainImage, decide_eq_true_eq, not_or, Bool.not_eq_false] at h
      simp only [PdfObject.pixels, imagePixels]
      split
      · next hsubtype =>
          have hdimension : dictionaryPositiveInteger dict "Width" = none ∨
              dictionaryPositiveInteger dict "Height" = none := by
            by_contra hboth
            obtain ⟨hwidth, hheight⟩ := not_or.mp hboth
            exact h.2 ⟨hsubtype, Option.isSome_iff_ne_none.mpr hwidth,
              Option.isSome_iff_ne_none.mpr hheight⟩
          rcases hdimension with hnone | hnone <;> simp [hnone]
      · rfl
  | null | boolean | integer | real | name | string | array | dictionary | reference => rfl

theorem Document.countedImage_iff {document : Document} {object : PdfObject} :
    document.countedImage object ↔ document.declaredPixels object ≤ (object.pixels : ℚ) := by
  by_cases hplain : document.plainImage object = true
  · exact iff_of_true (Or.inl hplain) (declaredPixels_le_of_plain hplain)
  · rw [pixels_eq_zero_of_not_plain hplain, Nat.cast_zero]
    exact or_iff_right hplain

/-- An image of one row, declared plainly. -/
def plainRow (width : Nat) : PdfObject :=
  .stream [(utf8 "Subtype", .name (utf8 "Image")), (utf8 "Width", .integer width),
    (utf8 "Height", .integer 1)] []

theorem plainRow_pixels {document : Document} {width : Nat} :
    document.declaredPixels (plainRow width) = width ∧ (plainRow width).pixels = width := by
  let dict : Dictionary := [(utf8 "Subtype", .name (utf8 "Image")),
    (utf8 "Width", .integer width), (utf8 "Height", .integer 1)]
  have hkeys : utf8 "Subtype" ≠ utf8 "Width" ∧ utf8 "Subtype" ≠ utf8 "Height" ∧
      utf8 "Width" ≠ utf8 "Height" := by
    simp [utf8, String.utf8EncodeChar]
  have hsubtype : dict.get "Subtype" = some (.name (utf8 "Image")) := by
    simp [dict, Dictionary.get]
  have hwidth : dict.get "Width" = some (.integer width) := by
    simp [dict, Dictionary.get, hkeys]
  have hheight : dict.get "Height" = some (.integer 1) := by
    simp [dict, Dictionary.get, hkeys]
  have himage : (document.entry dict "Subtype").isName "Image" = true := by
    rw [document.entry_of_get hsubtype fun id heq => by cases heq]
    simp [PdfObject.isName]
  have hdirectWidth : dictionaryPositiveInteger dict "Width" = some width := by
    rw [dictionaryPositiveInteger, hwidth]
  have hdirectHeight : dictionaryPositiveInteger dict "Height" = some 1 := by
    rw [dictionaryPositiveInteger, hheight]
  have hname : dictionaryName dict "Subtype" = some (utf8 "Image") := by
    simp only [dictionaryName, hsubtype]
  constructor
  · show document.imageArea dict = width
    rw [Document.imageArea, if_pos himage, document.entry_number hdirectWidth,
      document.entry_number hdirectHeight, Nat.cast_one, mul_one]
  · show imagePixels dict = width
    rw [imagePixels, if_pos hname, hdirectWidth, hdirectHeight, Option.getD_some, Option.getD_some,
      mul_one]

/-- **The limit holds for what the guard counts in full.**  An accepted document keeps it
    if every image with a positive area is declared plainly; and whatever objects that are
    counted in full stand beside it in the loop, an image of an accepted document keeps it
    exactly if it is so too. -/
theorem imageLimit_exact {bytes : List UInt8} {mime : String} {document : Document}
    {checked : CheckedPdf} (hload : loadMem bytes = some document)
    (hok : validatePdf inflate sha256Hex loadMem pageCount bytes mime = .ok checked) :
    ((∀ object ∈ document.values, document.countedImage object) →
        document.allPixels ≤ maxImagePixels) ∧
      ∀ object ∈ document.values,
        ((∀ others, (∀ other ∈ others, document.countedImage other) →
            (∃ totals, checkObjects inflate ⟨0, 0⟩ (object :: others) = .ok totals) →
            ((object :: others).map document.declaredPixels).sum ≤ (maxImagePixels : ℚ)) ↔
          document.countedImage object) := by
  have hlimits := limits_of_accepted hload hok
  have hsized := sized_of_accepted hload hok
  have hcast : ∀ {objects : List PdfObject}, WithinLimits inflate objects →
      (objects.map fun object => (object.pixels : ℚ)).sum ≤ maxImagePixels := by
    intro objects h
    have hsum : (objects.map fun object => (object.pixels : ℚ)).sum =
        (totalPixels objects : ℚ) := by
      rw [totalPixels, Nat.cast_list_sum, List.map_map]
      rfl
    rw [hsum]
    exact Nat.cast_le.mpr h.pixels
  refine ⟨fun hall => ?_, fun object hobject => ?_⟩
  · exact Ledger.sum_worth_le (fun object hobject => Document.countedImage_iff.mp
      (hall object hobject)) (hcast hlimits)
  · -- one more row uses up what the image leaves
    have hle := hlimits.pixels_le hobject
    obtain ⟨hdeclared, hcounted⟩ :
        document.declaredPixels (plainRow (maxImagePixels - object.pixels)) = _ ∧
          (plainRow (maxImagePixels - object.pixels)).pixels = _ := plainRow_pixels
    have hfair : document.declaredPixels (plainRow (maxImagePixels - object.pixels)) =
        ((plainRow (maxImagePixels - object.pixels)).pixels : ℚ) := by
      rw [hdeclared, hcounted]
    simp only [Document.countedImage_iff]
    refine Ledger.keeps_limit_iff
      (fun items hpass => hcast (withinLimits_of_passes hpass)) hfair ?_ ?_
    · rw [hcounted, ← Nat.cast_add, Nat.add_sub_cancel' hle]
    · refine pair_passes (hsized object hobject) (by simp [plainRow, PdfObject.Sized]) ?_
        ⟨hlimits.decodes object hobject, rfl⟩ ?_
      · rw [hcounted]
        omega
      · exact hlimits.decodedBytes_le hobject

/-! ## An image whose width is a reference -/

/-- The bomb of the source's tests, with its width behind a reference. -/
def posterPdf : List UInt8 :=
  pdfLines ["%PDF-1.4",
    "1 0 obj", "<< /Type /Catalog /Pages 2 0 R >>", "endobj",
    "2 0 obj", "<< /Type /Pages /Kids [3 0 R] /Count 1 >>", "endobj",
    "3 0 obj", "<< /Type /Page /Parent 2 0 R /MediaBox [0 0 200 200] >>", "endobj",
    "4 0 obj",
    "<< /Type /XObject /Subtype /Image /Width 5 0 R /Height 50000 /Length 0 >>",
    "stream", "", "endstream", "endobj",
    "5 0 obj", "50000", "endobj",
    "xref", "0 6", "0000000000 65535 f ", "0000000009 00000 n ", "0000000058 00000 n ",
    "0000000115 00000 n ", "0000000186 00000 n ", "0000000293 00000 n ",
    "trailer", "<< /Size 6 /Root 1 0 R >>", "startxref", "314", "%%EOF"]

/-- The dictionary of the image. -/
def posterDict : Dictionary :=
  [(utf8 "Type", .name (utf8 "XObject")), (utf8 "Subtype", .name (utf8 "Image")),
    (utf8 "Width", .reference (5, 0)), (utf8 "Height", .integer 50000),
    (utf8 "Length", .integer 0)]

/-- What `lopdf` reads in it. -/
def posterParsed : Document where
  trailer := [(utf8 "Size", .integer 6), (utf8 "Root", .reference (1, 0))]
  objects := minimalParsed.objects ++
    [((4, 0), .stream posterDict []), ((5, 0), .integer 50000)]

/-- A parser that knows this file. -/
def posterLoad (bytes : List UInt8) : Option Document :=
  if bytes = posterPdf then some posterParsed else none

/-- Its digest. -/
def posterDigest : String := "582fd7a1393e866afc22440adf5b48ffcd8fcd508f3d0f92b632bdc660ad9e8b"

theorem posterDict_get :
    posterDict.get "Subtype" = some (.name (utf8 "Image")) ∧
      posterDict.get "Width" = some (.reference (5, 0)) ∧
      posterDict.get "Height" = some (.integer 50000) := by
  simp [posterDict, Dictionary.get, utf8, String.utf8EncodeChar]

theorem posterParsed_subtype :
    posterParsed.entry posterDict "Subtype" = .name (utf8 "Image") :=
  Document.entry_of_get posterDict_get.1 (by simp)

theorem posterParsed_imageArea : posterParsed.imageArea posterDict = 50000 * 50000 := by
  obtain ⟨-, hwidth, hheight⟩ := posterDict_get
  -- the width is object 5
  have hwide : posterParsed.entry posterDict "Width" = .integer 50000 := by
    simp [Document.entry, Document.resolve, Document.follow, Document.lookup, hwidth,
      posterParsed, minimalParsed]
  have hhigh : posterParsed.entry posterDict "Height" = .integer 50000 :=
    Document.entry_of_get hheight (by simp)
  simp [Document.imageArea, posterParsed_subtype, hwide, hhigh, PdfObject.isName,
    PdfObject.number]

/-- The guard accepts the file: it counts the image for no pixels. -/
theorem poster_accepted : ∃ checked, validatePdf (fun content => (content, true))
    (fun _ => posterDigest) posterLoad (fun _ => 1) posterPdf "application/pdf" = .ok checked := by
  have hflate : hasFilter posterDict "FlateDecode" = false := by
    simp [hasFilter, posterDict, Dictionary.get, utf8, String.utf8EncodeChar]
  have hpixels : imagePixels posterDict = 0 := by
    simp [imagePixels, dictionaryPositiveInteger, posterDict_get]
  refine (validatePdf_isOk (if_pos rfl)).mpr ⟨⟨?_, ?_⟩, ?_⟩
  · exact ⟨rfl, by decide +kernel, by decide +kernel, by decide +kernel, by decide +kernel⟩
  · refine ⟨rfl, by decide, by decide, by decide, ?_, ?_, ?_, ?_⟩
    · simp [posterParsed, minimalParsed, PdfObject.Sized]
    · simp [posterParsed, minimalParsed, totalPixels, PdfObject.pixels, hpixels]
    · simp [posterParsed, minimalParsed, PdfObject.decodes]
    · simp [posterParsed, minimalParsed, totalDecoded, PdfObject.decodedBytes, streamBytes,
        hflate]
  · rw [spelledOut_eq_scanNames]
    decide +kernel

/-- The image has 2500 megapixels. -/
theorem poster_pixels :
    ∃ document checked, posterLoad posterPdf = some document ∧
      validatePdf (fun content => (content, true)) (fun _ => posterDigest) posterLoad
        (fun _ => 1) posterPdf "application/pdf" = .ok checked ∧
      ¬ document.allPixels ≤ maxImagePixels := by
  obtain ⟨checked, hok⟩ := poster_accepted
  refine ⟨posterParsed, checked, if_pos rfl, hok, ?_⟩
  have hsum : posterParsed.allPixels = posterParsed.imageArea posterDict := by
    simp [Document.allPixels, Document.values, posterParsed, minimalParsed,
      Document.declaredPixels]
  rw [hsum, posterParsed_imageArea, maxImagePixels]
  norm_num

/-- The guard counts the image short, so it breaks the limit in some company. -/
theorem imageLimit_exact_of_posterPdf :
    ∃ others, (∀ other ∈ others, posterParsed.countedImage other) ∧
      (∃ totals, checkObjects (fun content => (content, true)) ⟨0, 0⟩
        (.stream posterDict [] :: others) = .ok totals) ∧
      (maxImagePixels : ℚ) <
        ((.stream posterDict [] :: others).map posterParsed.declaredPixels).sum := by
  have hshort : ¬ posterParsed.countedImage (.stream posterDict []) := by
    rintro (hplain | hnone)
    · simp [Document.plainImage, posterParsed_subtype, dictionaryPositiveInteger,
        posterDict_get, PdfObject.isName] at hplain
    · have harea : posterParsed.declaredPixels (.stream posterDict []) = 50000 * 50000 :=
        posterParsed_imageArea
      rw [harea] at hnone
      norm_num at hnone
  have hvalue : PdfObject.stream posterDict [] ∈ posterParsed.values := by
    simp [Document.values, posterParsed]
  obtain ⟨checked, hok⟩ := poster_accepted
  have hexact := (imageLimit_exact (if_pos rfl) hok).2 _ hvalue
  have hbreaks := mt hexact.mp hshort
  simp only [not_forall, not_le] at hbreaks
  obtain ⟨others, hothers, hpass, hover⟩ := hbreaks
  exact ⟨others, hothers, hpass, hover⟩

end PrintLatch.PdfGuard
