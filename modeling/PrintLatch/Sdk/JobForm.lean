/-
  PrintLatch.Sdk.JobForm

  The form of `createJob` (`packages/sdk/src/index.ts`) and `parse_job` (`src/api.rs`).

  The SDK writes the options of a job as texts, and the agent reads them back with limits
  and defaults of its own.  `Describes` says which job the options mean; the agent reads
  that one and no other (`jobForm_read`).
-/

import PrintLatch.Sdk.Arrival

namespace PrintLatch.Sdk

open Text

/-! ## Line breaks -/

theorem normalizeNewlines_of_plain {text : List Char} (h : ∀ c ∈ text, c ≠ '\r' ∧ c ≠ '\n') :
    normalizeNewlines text = text := by
  fun_induction normalizeNewlines text with
  | case1 => rfl
  | case2 rest ih => exact absurd rfl (h '\r' List.mem_cons_self).1
  | case3 c rest _ hbreak ih =>
      have hc := h c List.mem_cons_self
      exact absurd hbreak (not_or.mpr hc)
  | case4 c rest _ hbreak ih => rw [ih fun d hd => h d (List.mem_cons_of_mem _ hd)]

/-- A text that was sent without line breaks had none. -/
theorem eq_of_normalizeNewlines {text : List Char}
    (h : ∀ c ∈ normalizeNewlines text, c ≠ '\r' ∧ c ≠ '\n') : normalizeNewlines text = text := by
  fun_induction normalizeNewlines text with
  | case1 => rfl
  | case2 rest ih => exact absurd rfl (h '\r' List.mem_cons_self).1
  | case3 c rest _ hbreak ih => exact absurd rfl (h '\r' List.mem_cons_self).1
  | case4 c rest _ hbreak ih => rw [ih fun d hd => h d (List.mem_cons_of_mem _ hd)]

theorem sentText_of_plain {text : String} (h : ∀ c ∈ text.toList, c ≠ '\r' ∧ c ≠ '\n') :
    sentText text = text := by
  rw [sentText, normalizeNewlines_of_plain h, String.ofList_toList]

theorem parseMode_eq_none {text : String} (hpreview : text ≠ "preview") (hprint : text ≠ "print") :
    Api.parseMode text = none := by
  unfold Api.parseMode
  split
  · exact absurd rfl hpreview
  · exact absurd rfl hprint
  · rfl

/-- One of the two words is what was sent only if it is what was meant. -/
theorem parseMode_sentText (text : String) :
    Api.parseMode (sentText text) = Api.parseMode text := by
  by_cases hplain : sentText text = text
  · rw [hplain]
  · have hbreak : ∃ c ∈ (sentText text).toList, ¬ (c ≠ '\r' ∧ c ≠ '\n') := by
      by_contra hnot
      push Not at hnot
      refine hplain ?_
      have hself : normalizeNewlines text.toList = text.toList := by
        refine eq_of_normalizeNewlines fun c hc => hnot c ?_
        rwa [sentText, String.toList_ofList]
      rw [sentText, hself, String.ofList_toList]
    have hnone : ∀ word : String, word.toList.all (fun c => c ≠ '\r' ∧ c ≠ '\n') →
        sentText text ≠ word ∧ text ≠ word := by
      intro word hall
      have hword : ∀ c ∈ word.toList, c ≠ '\r' ∧ c ≠ '\n' := fun c hc =>
        of_decide_eq_true (List.all_eq_true.mp hall c hc)
      refine ⟨fun heq => ?_, fun heq => ?_⟩
      · obtain ⟨c, hc, hbad⟩ := hbreak
        exact hbad (hword c (heq ▸ hc))
      · exact hplain (sentText_of_plain (heq ▸ hword))
    have hpreview := hnone "preview" (by decide)
    have hprint := hnone "print" (by decide)
    rw [parseMode_eq_none hpreview.1 hprint.1, parseMode_eq_none hpreview.2 hprint.2]

/-! ## The byte order mark -/

theorem withoutMark_of_head {text : String} (h : text.toList.head? ≠ some '\uFEFF') :
    withoutMark text = text := by
  unfold withoutMark
  split
  · next rest heq => exact absurd (congrArg List.head? heq) h
  · rfl

theorem withoutMark_of_mark {text : String} {rest : List Char}
    (h : text.toList = '\uFEFF' :: rest) : withoutMark text = String.ofList rest := by
  unfold withoutMark
  split
  · next rest' heq =>
      obtain ⟨-, rfl⟩ := List.cons.inj (heq.symm.trans h)
      rfl
  · next hnot => exact absurd h (hnot rest)

/-- The mark is taken away from what was sent as from what was meant. -/
theorem readText_eq (text : String) : readText text = sentText (withoutMark text) := by
  have hhead : ∀ l : List Char, (normalizeNewlines l).head? = some '\uFEFF' →
      l.head? = some '\uFEFF' := by
    intro l h
    unfold normalizeNewlines at h
    split at h
    · cases h
    · cases h
    · split at h
      · cases h
      · exact h
  unfold readText
  by_cases hmark : ∃ rest, text.toList = '\uFEFF' :: rest
  · obtain ⟨rest, hrest⟩ := hmark
    have hsent : (sentText text).toList = '\uFEFF' :: normalizeNewlines rest := by
      rw [sentText, String.toList_ofList, hrest]
      rfl
    rw [withoutMark_of_mark hsent, withoutMark_of_mark hrest, sentText, String.toList_ofList]
  · have hnone : text.toList.head? ≠ some '\uFEFF' := by
      intro h
      obtain ⟨rest, hrest⟩ := List.head?_eq_some_iff.mp h
      exact hmark ⟨rest, hrest⟩
    rw [withoutMark_of_head hnone, withoutMark_of_head fun h => ?_]
    rw [sentText, String.toList_ofList] at h
    exact hnone (hhead _ h)

theorem parseMode_readText (text : String) :
    Api.parseMode (readText text) = Api.parseMode (withoutMark text) := by
  rw [readText_eq, parseMode_sentText]

/-- What is read of a text of visible ASCII. -/
theorem readText_of_plain {text : String}
    (h : ∀ c ∈ text.toList, 32 < c.toNat ∧ c.toNat < 127) : readText text = text := by
  have hmark : text.toList.head? ≠ some '\uFEFF' := by
    intro hhead
    have hc := h _ (List.mem_of_mem_head? hhead)
    exact absurd hc (by decide)
  rw [readText_eq, withoutMark_of_head hmark, sentText_of_plain fun c hc => ?_]
  have hc := h c hc
  constructor <;> rintro rfl <;> exact absurd hc (by decide)

/-! ## The fields -/

/-- The options mean this job. -/
structure Describes (options : CreateJobOptions) (job : ParsedJob) : Prop where
  bytes : job.bytes = options.pdf.bytes
  mime : job.mime = options.pdf.type
  mode : Api.parseMode (withoutMark options.mode) = some job.mode
  copies : options.copies.getD (.finite 1) = .finite job.copies
  inRange : 1 ≤ job.copies ∧ job.copies ≤ 10
  printerId : job.printerId = (options.printerId.map readText).getD capturePrinterId
  short : ∀ id, options.printerId = some id → (utf8 (readText id)).length ≤ 128
  printable : job.mode = .print → job.printerId ≠ ""

section

variable {decoder : Utf8Decoder} {numberText : JsNumber → String}

theorem textField_formField (name value : String) (max : Nat) :
    Api.textField (formField decoder (name, .text value)) max =
      if max < (utf8 (readText value)).length then
        .error (.badRequest "multipart field is too long")
      else .ok (readText value) := by
  simp only [Api.textField, formField]

theorem partOf_mode (value : String) :
    Api.partOf (.ok (formField decoder ("mode", .text value))) =
      if (utf8 (readText value)).length ≤ 16 then some (.mode (readText value)) else none := by
  unfold Api.partOf
  simp only [textField_formField]
  simp only [formField]
  by_cases h : (utf8 (readText value)).length ≤ 16
  · simp [h, Nat.not_lt.mpr h]
  · simp [h, Nat.not_le.mp h]

theorem partOf_printerId (value : String) :
    Api.partOf (.ok (formField decoder ("printer_id", .text value))) =
      if (utf8 (readText value)).length ≤ 128 then some (.printerId (readText value))
      else none := by
  unfold Api.partOf
  simp only [textField_formField]
  simp only [formField]
  by_cases h : (utf8 (readText value)).length ≤ 128
  · simp [h, Nat.not_lt.mpr h]
  · simp [h, Nat.not_le.mp h]

theorem partOf_copies (value : String) :
    Api.partOf (.ok (formField decoder ("copies", .text value))) =
      if (utf8 (readText value)).length ≤ 3 then
        (Api.parseU8 (readText value)).map .copies
      else none := by
  unfold Api.partOf
  simp only [textField_formField]
  simp only [formField]
  by_cases h : (utf8 (readText value)).length ≤ 3
  · simp [h, Nat.not_lt.mpr h]
  · simp [h, Nat.not_le.mp h]

theorem partOf_file (blob : Blob) (filename : String) :
    Api.partOf (.ok (formField decoder ("file", .file blob filename))) =
      some (.file blob.bytes (some (fileType blob))) := by
  unfold Api.partOf
  simp [formField]

/-- The number of copies that the agent reads. -/
theorem partOf_count (hnumbers : NumberText numberText) {x : JsNumber} {n : Nat}
    (h : Api.partOf (.ok (formField decoder ("copies", .text (numberText x)))) =
      some (.copies n)) : x = .finite n := by
  rw [partOf_copies, readText_of_plain (hnumbers.plain x), Api.parseU8_eq] at h
  split at h
  · next hshort =>
      by_cases hnatural : ∃ m : Nat, m < exponentFrom ∧ x = .finite m
      · obtain ⟨m, hm, rfl⟩ := hnatural
        by_cases hexact : m ≤ maxExact
        · rw [hnumbers.natural m hexact, Api.parseUnsigned_toString] at h
          split at h
          · obtain rfl : m = n := by simpa using h
            rfl
          · cases h
        · -- a longer number has more than three digits
          have hlong := hnumbers.large m (Nat.not_le.mp hexact) hm
          omega
      · push Not at hnatural
        obtain ⟨hplus, hdigit⟩ := hnumbers.other x hnatural
        rw [Api.parseUnsigned_of_not_digit 256 hplus hdigit] at h
        cases h
  · cases h

theorem partOf_finite (hnumbers : NumberText numberText) {n : Nat} (h : n ≤ 10) :
    Api.partOf (.ok (formField decoder ("copies", .text (numberText (.finite n))))) =
      some (.copies n) := by
  have hlength : ∀ k : Fin 11, (utf8 (toString k.val)).length ≤ 3 := by decide
  have htext := hnumbers.natural n (le_trans h (by decide))
  rw [partOf_copies, readText_of_plain (hnumbers.plain _), htext, Api.parseU8_eq,
    Api.parseUnsigned_toString, if_pos (hlength ⟨n, by omega⟩), if_pos (by omega)]
  rfl

/-- What the fields of the form say. -/
theorem parts_form {options : CreateJobOptions} {n : Nat}
    (htype : options.pdf.type = "application/pdf")
    (hmode : (utf8 (readText options.mode)).length ≤ 16)
    (hcopies : Api.partOf (.ok (formField decoder ("copies",
      .text (numberText (options.copies.getD (.finite 1)))))) = some (.copies n))
    (hprinter : ∀ id, options.printerId = some id → (utf8 (readText id)).length ≤ 128) :
    Api.parts (formFields decoder (jobForm numberText options)) =
      [.mode (readText options.mode), .copies n] ++
        ((options.printerId.map fun id => Api.Part.printerId (readText id)).toList ++
          [.file options.pdf.bytes (some "application/pdf")]) := by
  have hfile : Api.partOf (.ok (formField decoder ("file",
      .file options.pdf (options.filename.getD "document.pdf")))) =
        some (.file options.pdf.bytes (some "application/pdf")) := by
    rw [partOf_file, fileType, htype]
    rfl
  unfold Api.parts formFields jobForm
  cases hid : options.printerId with
  | none =>
      simp [partOf_mode, hmode, hcopies, hfile]
  | some id =>
      simp [partOf_mode, hmode, hcopies, hfile, partOf_printerId, hprinter id hid]

/-- What the loop gathers from the form. -/
theorem gathered_form {options : CreateJobOptions} {n : Nat}
    (hparts : Api.parts (formFields decoder (jobForm numberText options)) =
      [.mode (readText options.mode), .copies n] ++
        ((options.printerId.map fun id => Api.Part.printerId (readText id)).toList ++
          [.file options.pdf.bytes (some "application/pdf")])) :
    (Api.files (formFields decoder (jobForm numberText options))).length ≤ 1 ∧
      Api.gathered (formFields decoder (jobForm numberText options)) =
        ⟨some options.pdf.bytes, some "application/pdf", some (readText options.mode),
          options.printerId.map readText, some n⟩ := by
  unfold Api.gathered Api.files Api.modes Api.printerIds Api.copyCounts
  rw [hparts]
  cases options.printerId with
  | none => exact ⟨Nat.le_refl 1, rfl⟩
  | some id => exact ⟨Nat.le_refl 1, rfl⟩

/-- What it takes for the fields to be read. -/
theorem readable_form {options : CreateJobOptions}
    (hread : ∀ item ∈ formFields decoder (jobForm numberText options),
      (Api.partOf item).isSome) :
    (utf8 (readText options.mode)).length ≤ 16 ∧
      (∃ n, Api.partOf (.ok (formField decoder ("copies",
        .text (numberText (options.copies.getD (.finite 1)))))) = some (.copies n)) ∧
      ∀ id, options.printerId = some id → (utf8 (readText id)).length ≤ 128 := by
  have hentry : ∀ entry ∈ jobForm numberText options,
      (Api.partOf (.ok (formField decoder entry))).isSome = true :=
    fun entry hentry => hread _ (List.mem_map_of_mem hentry)
  have hmode := hentry ("mode", .text options.mode) (by simp [jobForm])
  have hcopies := hentry ("copies", .text (numberText (options.copies.getD (.finite 1))))
    (by simp [jobForm])
  refine ⟨?_, ?_, fun id hid => ?_⟩
  · rw [partOf_mode] at hmode
    by_contra hlong
    rw [if_neg hlong] at hmode
    cases hmode
  · obtain ⟨part, hpart⟩ := Option.isSome_iff_exists.mp hcopies
    rw [partOf_copies] at hpart ⊢
    split at hpart
    · next hshort =>
        obtain ⟨n, hn, rfl⟩ := Option.map_eq_some_iff.mp hpart
        exact ⟨n, by rw [if_pos hshort, hn]; rfl⟩
    · cases hpart
  · have hprinter := hentry ("printer_id", .text id) (by simp [jobForm, hid])
    rw [partOf_printerId] at hprinter
    by_contra hlong
    rw [if_neg hlong] at hprinter
    cases hprinter

/-- What the agent accepts is what the options mean. -/
theorem describes_of_parseJob (hnumbers : NumberText numberText) {options : CreateJobOptions}
    (htype : options.pdf.type = "application/pdf") {job : ParsedJob}
    (h : Api.parseJob (formFields decoder (jobForm numberText options)) = .ok job) :
    Describes options job := by
  obtain ⟨hread, -, hmakes⟩ := Api.parseJob_eq_ok.mp h
  obtain ⟨hmode, ⟨n, hcopies⟩, hprinter⟩ := readable_form hread
  have hgathered := (gathered_form (parts_form htype hmode hcopies hprinter)).2
  rw [hgathered] at hmakes
  have hcount := partOf_count hnumbers hcopies
  obtain rfl : n = job.copies := hmakes.copies
  exact
    { bytes := (Option.some.inj hmakes.bytes).symm
      mime := (Option.some.inj hmakes.mime).symm.trans htype.symm
      mode := by
        rw [← parseMode_readText]
        exact hmakes.mode
      copies := hcount
      inRange := hmakes.inRange
      printerId := hmakes.printerId.symm
      short := hprinter
      printable := hmakes.printable }

/-- A mode that is one of the two words is short. -/
theorem Describes.short_mode {options : CreateJobOptions} {job : ParsedJob}
    (h : Describes options job) : (utf8 (readText options.mode)).length ≤ 16 := by
  have hword := h.mode
  rw [← parseMode_readText] at hword
  unfold Api.parseMode at hword
  split at hword
  · next heq =>
      rw [heq]
      decide
  · next heq =>
      rw [heq]
      decide
  · cases hword

/-- And everything that they mean is accepted, when all of it is there. -/
theorem parseJob_of_describes (hnumbers : NumberText numberText) {options : CreateJobOptions}
    (htype : options.pdf.type = "application/pdf") {job : ParsedJob}
    (h : Describes options job) :
    Api.parseJob (formFields decoder (jobForm numberText options)) = .ok job := by
  rw [Api.parseJob_eq_ok]
  have hmode := h.short_mode
  have hcopies : Api.partOf (.ok (formField decoder ("copies",
      .text (numberText (options.copies.getD (.finite 1)))))) = some (.copies job.copies) := by
    rw [h.copies]
    exact partOf_finite hnumbers h.inRange.2
  have hparts := parts_form htype hmode hcopies h.short
  obtain ⟨hfiles, hgathered⟩ := gathered_form hparts
  refine ⟨fun item hitem => ?_, hfiles, ?_⟩
  · obtain ⟨entry, hentry, rfl⟩ := List.mem_map.mp hitem
    simp only [jobForm, List.mem_append, List.mem_cons, List.not_mem_nil, or_false] at hentry
    -- the fields in the order of the form; `printer_id` may be absent
    rcases hentry with ((rfl | rfl) | hid) | rfl
    · rw [partOf_mode, if_pos hmode]
      rfl
    · rw [hcopies]
      rfl
    · cases hprinter : options.printerId with
      | none =>
          rw [hprinter] at hid
          exact absurd hid List.not_mem_nil
      | some id =>
          rw [hprinter] at hid
          obtain rfl := List.mem_singleton.mp hid
          rw [partOf_printerId, if_pos (h.short id hprinter)]
          rfl
    · rw [partOf_file]
      rfl
  · rw [hgathered]
    exact
      { mode := by
          rw [← h.mode, ← parseMode_readText]
          rfl
        copies := rfl
        inRange := h.inRange
        printerId := h.printerId.symm
        printable := h.printable
        bytes := congrArg some h.bytes.symm
        mime := congrArg some (h.mime.trans htype).symm }

/-- What is accepted was delivered, and is what the options mean. -/
theorem describes_of_delivered (hnumbers : NumberText numberText) {options : CreateJobOptions}
    (htype : options.pdf.type = "application/pdf") {t : Transfer} {job : ParsedJob}
    (h : Api.parseJob (delivered decoder t (jobForm numberText options)) = .ok job) :
    Describes options job ∧ t.Delivers (jobForm numberText options) := by
  have hdelivers : t.Delivers (jobForm numberText options) := by
    by_contra hnot
    exact parseJob_not_ok hnot job h
  rw [delivered_eq_formFields.mpr hdelivers] at h
  exact ⟨describes_of_parseJob hnumbers htype h, hdelivers⟩

end

/-! ## Room for a job -/

theorem length_quoteName (name : String) :
    (quoteName name).length ≤ 3 * (utf8 name).length := by
  unfold quoteName
  induction utf8 name with
  | nil => exact Nat.le_refl 0
  | cons b rest ih =>
      rw [List.flatMap_cons, List.length_append, List.length_cons]
      have hbyte : ∀ quoted : List UInt8, quoted.length ≤ 3 →
          quoted.length + (rest.flatMap fun b =>
            if b = 10 then utf8 "%0A" else if b = 13 then utf8 "%0D" else if b = 34 then utf8 "%22"
            else [b]).length ≤ 3 * (rest.length + 1) := fun quoted hquoted => by omega
      apply hbyte
      split
      · decide
      · split
        · decide
        · split
          · decide
          · simp

theorem length_formPart (boundary : List UInt8) (entry : String × FormValue) :
    (formPart boundary entry).length =
      boundary.length + 8 + ((partHead entry).map fun line => line.length + 2).sum +
        (partContent entry).length := by
  have hmark : (utf8 "--").length = 2 := by decide
  have hbreak : (utf8 "\r\n").length = 2 := by decide
  unfold formPart
  simp only [List.length_append, List.length_flatMap, hmark, hbreak]
  omega

theorem length_formPart_text (boundary : List UInt8) (name value : String)
    (hname : name ∈ ["mode", "copies", "printer_id"]) :
    (formPart boundary (name, .text value)).length ≤
      boundary.length + 59 + (utf8 (sentText value)).length := by
  have hhead : ((partHead (name, .text value)).map fun line => line.length + 2).sum ≤ 51 := by
    rw [show partHead (name, .text value) = partHead (name, .text "") from rfl]
    simp only [List.mem_cons, List.not_mem_nil, or_false] at hname
    rcases hname with rfl | rfl | rfl <;> decide +kernel
  rw [length_formPart]
  show _ + _ + (utf8 (sentText value)).length ≤ _
  omega

theorem length_formPart_file (boundary : List UInt8) {blob : Blob}
    (htype : blob.type = "application/pdf") (filename : String) :
    (formPart boundary ("file", .file blob filename)).length ≤
      boundary.length + 97 + 3 * (utf8 filename).length + blob.bytes.length := by
  have hname := length_quoteName filename
  have hdisposition : (utf8 "Content-Disposition: form-data; name=\"").length +
      (quoteName "file").length + (utf8 "\"").length + (utf8 "; filename=\"").length = 55 := by
    decide +kernel
  have hline : (utf8 "Content-Type: ").length + (utf8 "application/pdf").length = 29 := by
    decide +kernel
  have hquote : (utf8 "\"").length = 1 := by decide
  rw [length_formPart]
  simp only [partHead, partContent, fileType, htype, List.map_cons, List.map_nil, List.sum_cons,
    List.sum_nil, List.length_append]
  rw [if_neg (by decide)]
  omega

/-- The byte order mark has three bytes. -/
theorem length_sentText (value : String) :
    (utf8 (sentText value)).length ≤ (utf8 (readText value)).length + 3 := by
  unfold readText withoutMark
  split
  · next rest heq =>
      have hmark : (String.utf8EncodeChar '\uFEFF').length = 3 := by decide
      unfold utf8
      rw [heq, List.flatMap_cons, List.length_append, hmark, String.toList_ofList]
      omega
  · omega

/-- A job of 10 MiB has room, with a file name of ordinary length. -/
theorem whole_of_describes {numberText : JsNumber → String} (hnumbers : NumberText numberText)
    {options : CreateJobOptions} (htype : options.pdf.type = "application/pdf") {t : Transfer}
    {job : ParsedJob} (h : Describes options job)
    (hsize : options.pdf.bytes.length ≤ PdfGuard.maxJobBytes) (hboundary : t.boundary.length ≤ 70)
    (hname : ∀ name, options.filename = some name → (utf8 name).length ≤ 20000) :
    t.Whole (jobForm numberText options) := by
  left
  have hmode := length_formPart_text t.boundary "mode" options.mode (by simp)
  have hmodeText := length_sentText options.mode
  have hmodeShort := h.short_mode
  have hcopies := length_formPart_text t.boundary "copies"
    (numberText (options.copies.getD (.finite 1))) (by simp)
  have hcopiesText : (utf8 (sentText (numberText (options.copies.getD (.finite 1))))).length ≤
      6 := by
    have hlength : ∀ k : Fin 11, (utf8 (toString k.val)).length ≤ 3 := by decide
    have hrange := h.inRange
    have hsent := length_sentText (numberText (options.copies.getD (.finite 1)))
    rw [readText_of_plain (hnumbers.plain _)] at hsent
    rw [h.copies, hnumbers.natural job.copies (le_trans hrange.2 (by decide))] at hsent ⊢
    have hcount := hlength ⟨job.copies, by omega⟩
    dsimp only at hcount
    omega
  have hfile := length_formPart_file t.boundary htype (options.filename.getD "document.pdf")
  have hfilename : (utf8 (options.filename.getD "document.pdf")).length ≤ 20000 := by
    cases hgiven : options.filename with
    | none => decide +kernel
    | some name => exact hname name hgiven
  -- what is left of the 64 KiB holds the heads, the texts and the boundaries
  have hends : (utf8 "--").length = 2 ∧ (utf8 "--\r\n").length = 4 := by decide
  have hlimits : PdfGuard.maxJobBytes + 65536 = Api.maxBody := by decide +kernel
  unfold formBody jobForm
  simp only [List.flatMap_append, List.flatMap_cons, List.flatMap_nil, List.append_nil,
    List.length_append, hends.1, hends.2]
  cases hid : options.printerId with
  | none =>
      simp only [List.flatMap_nil, List.length_nil]
      omega
  | some id =>
      have hprinter := length_formPart_text t.boundary "printer_id" id (by simp)
      have hprinterText := length_sentText id
      have hprinterShort := h.short id hid
      simp only [List.flatMap_cons, List.flatMap_nil, List.append_nil]
      omega

/-- **The agent reads the job that the options mean**, or refuses the form: what the SDK
    lets through is accepted exactly if it describes a job and is delivered.  A job that is
    longer than the limit is refused as that, and a document of 10 MiB is not. -/
theorem jobForm_read (decoder : Utf8Decoder) (numberText : JsNumber → String)
    (hnumbers : NumberText numberText) (options : CreateJobOptions)
    (htype : options.pdf.type = "application/pdf") (t : Transfer) (job : ParsedJob) :
    (Api.parseJob (delivered decoder t (jobForm numberText options)) = .ok job ↔
        Describes options job ∧ t.Delivers (jobForm numberText options)) ∧
      (Describes options job → ¬ t.Whole (jobForm numberText options) →
        (∀ entry ∈ jobForm numberText options, HeadReadable entry) →
          Api.parseJob (delivered decoder t (jobForm numberText options)) =
            .error (.payloadTooLarge "job exceeds the 10 MiB V1 limit")) ∧
      (Describes options job → options.pdf.bytes.length ≤ PdfGuard.maxJobBytes →
        t.boundary.length ≤ 70 →
        (∀ name, options.filename = some name → (utf8 name).length ≤ 20000) →
          t.Whole (jobForm numberText options)) := by
  refine ⟨⟨describes_of_delivered hnumbers htype, ?_⟩, fun hdescribes hcut hreadable => ?_,
    whole_of_describes hnumbers htype⟩
  · rintro ⟨hdescribes, hdelivers⟩
    rw [delivered_eq_formFields.mpr hdelivers]
    exact parseJob_of_describes hnumbers htype hdescribes
  · exact parseJob_tooLarge hcut hreadable (parseJob_of_describes hnumbers htype hdescribes)

/-- Two copies for a printer whose name was pasted with its line break. -/
def exampleOptions : CreateJobOptions where
  pdf := ⟨"application/pdf", utf8 "%PDF-1.7"⟩
  mode := "print"
  printerId := some "office\n"
  copies := some (.finite 2)
  filename := none

theorem jobForm_read_of_exampleOptions :
    Api.parseJob (delivered asciiDecoder exampleTransfer
        (jobForm exampleNumberText exampleOptions)) =
      .ok ⟨utf8 "%PDF-1.7", "application/pdf", .print, "office\r\n", 2⟩ :=
  (jobForm_read asciiDecoder exampleNumberText exampleNumberText_law exampleOptions rfl
    exampleTransfer ⟨utf8 "%PDF-1.7", "application/pdf", .print, "office\r\n", 2⟩).1.mpr
    ⟨{ bytes := rfl
       mime := rfl
       mode := rfl
       copies := rfl
       inRange := by decide
       printerId := by decide
       short := fun id hid => by
         obtain rfl := Option.some.inj hid
         decide
       printable := fun _ => by decide },
      { whole := by decide +kernel
        readable := by decide +kernel }⟩

end PrintLatch.Sdk
