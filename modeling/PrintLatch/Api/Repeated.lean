/-
  PrintLatch.Api.Repeated

  What `parse_job` (`src/api.rs`) makes of fields that are sent more than once.

  A second `file` is refused, but a second `mode`, `printer_id` or `copies` takes the
  place of the first, so the order of the fields can decide about the job.  `gathered`
  is the loop's result in terms of the fields alone (`readFields_eq_ok`): of every name
  the last one counts.  A field that is moved to the end is the last of its name and
  leaves the other names alone (`exists_perm_getLast?`).
-/

import PrintLatch.Api.Multipart
import Mathlib.Data.List.Basic

namespace PrintLatch.Api

/-! ## The last one counts -/

section

variable {α β : Type}

/-- Any of the values that `f` reads can be made the last one, by moving a field that
    only `f` reads. -/
theorem exists_perm_getLast? {f : α → Option β} {l : List α} {v : β} (hv : v ∈ l.filterMap f) :
    ∃ (x : α) (l' : List α), f x = some v ∧ l'.Perm l ∧ (l'.filterMap f).getLast? = some v ∧
      ∀ {γ : Type} (g : α → Option γ), g x = none → l'.filterMap g = l.filterMap g := by
  obtain ⟨x, hmem, hx⟩ := List.mem_filterMap.mp hv
  obtain ⟨before, after, rfl⟩ := List.append_of_mem hmem
  refine ⟨x, before ++ after ++ [x], hx, ?_, ?_, fun g hg => ?_⟩
  · rw [List.append_assoc]
    exact List.Perm.append_left before (List.perm_append_singleton x after)
  · rw [List.filterMap_append, List.filterMap_cons_some hx]
    simp
  · simp [List.filterMap_append, hg]

/-- Values that agree have one last value in every order. -/
theorem getLast?_of_perm {l l' : List α} (h : l'.Perm l) (hagree : ∀ x ∈ l, ∀ y ∈ l, x = y) :
    l'.getLast? = l.getLast? := by
  cases hl : l.getLast? with
  | none =>
      obtain rfl : l = [] := List.getLast?_eq_none_iff.mp hl
      rw [h.eq_nil]
      rfl
  | some x =>
      have hx : x ∈ l := List.mem_of_getLast? hl
      cases hl' : l'.getLast? with
      | none =>
          rw [List.getLast?_eq_none_iff.mp hl'] at h
          rw [← h.nil_eq] at hx
          cases hx
      | some y => rw [hagree y (h.mem_iff.mp (List.mem_of_getLast? hl')) x hx]

/-- In every order the last value is one of them, or there is none. -/
theorem getD_getLast?_of_perm {l l' : List α} (h : l'.Perm l) (d : α) :
    l = [] ∨ ∃ x ∈ l, l'.getLast?.getD d = x := by
  cases hlast : l'.getLast? with
  | none =>
      rw [List.getLast?_eq_none_iff.mp hlast] at h
      exact Or.inl h.nil_eq.symm
  | some x => exact Or.inr ⟨x, h.mem_iff.mp (List.mem_of_getLast? hlast), rfl⟩

/-- One value at most is the only one. -/
theorem eq_singleton_of_mem {l : List α} (hlength : l.length ≤ 1) {x : α} (hx : x ∈ l) :
    l = [x] := by
  cases l with
  | nil => cases hx
  | cons first rest =>
      rw [List.length_cons] at hlength
      obtain rfl : rest = [] := List.length_eq_zero_iff.mp (by omega)
      rw [List.mem_singleton.mp hx]

end

/-! ## What the fields say -/

/-- What the loop takes from a field. -/
inductive Part where
  | file (bytes : List UInt8) (mime : Option String)
  | mode (text : String)
  | printerId (text : String)
  | copies (count : Nat)
  deriving DecidableEq, Repr

namespace Part

def file? : Part → Option (List UInt8 × Option String)
  | .file bytes mime => some (bytes, mime)
  | _ => none

def mode? : Part → Option String
  | .mode text => some text
  | _ => none

def printerId? : Part → Option String
  | .printerId text => some text
  | _ => none

def copies? : Part → Option Nat
  | .copies count => some count
  | _ => none

end Part

/-- What a field says, when it has a known name and a value that can be read. -/
def partOf : Except MultipartError Field → Option Part
  | .error _ => none
  | .ok field =>
      match field.name with
      | some "file" =>
          match field.bytes with
          | .error _ => none
          | .ok bytes => some (.file bytes field.contentType)
      | some "mode" =>
          match textField field 16 with
          | .error _ => none
          | .ok text => some (.mode text)
      | some "printer_id" =>
          match textField field 128 with
          | .error _ => none
          | .ok text => some (.printerId text)
      | some "copies" =>
          match textField field 3 with
          | .error _ => none
          | .ok text => (parseU8 text).map .copies
      | _ => none

/-- What the fields of a request say. -/
def parts (multipart : Multipart) : List Part := multipart.filterMap partOf

/-- The values sent for each name. -/
def files (multipart : Multipart) : List (List UInt8 × Option String) :=
  (parts multipart).filterMap Part.file?

def modes (multipart : Multipart) : List String := (parts multipart).filterMap Part.mode?

def printerIds (multipart : Multipart) : List String :=
  (parts multipart).filterMap Part.printerId?

def copyCounts (multipart : Multipart) : List Nat := (parts multipart).filterMap Part.copies?

/-- The local variables after the loop. -/
def gathered (multipart : Multipart) : JobFields where
  bytes := (files multipart).getLast?.map (·.1)
  mime := (files multipart).getLast?.bind (·.2)
  mode := (modes multipart).getLast?
  printerId := (printerIds multipart).getLast?
  copies := (copyCounts multipart).getLast?

/-- The assignment that a field makes. -/
def JobFields.assign (fields : JobFields) : Part → JobFields
  | .file bytes mime => { fields with mime := mime, bytes := some bytes }
  | .mode text => { fields with mode := some text }
  | .printerId text => { fields with printerId := some text }
  | .copies count => { fields with copies := some count }

/-- One round of the loop: the field's assignment, unless it is a second file. -/
theorem readField_eq_ok {fields f : JobFields} {field : Field} :
    readField fields field = .ok f ↔ ∃ part, partOf (.ok field) = some part ∧
      (part.file?.isSome → fields.bytes = none) ∧ fields.assign part = f := by
  unfold readField partOf
  dsimp only
  split
  · next hname => simp [hname]
  · next hname =>
      cases hfirst : fields.bytes <;> cases field.bytes <;>
        simp [hname, hfirst, Part.file?, JobFields.assign]
  · next hname => cases textField field 16 <;> simp [hname, Part.file?, JobFields.assign]
  · next hname => cases textField field 128 <;> simp [hname, Part.file?, JobFields.assign]
  · next hname =>
      cases textField field 3 with
      | error error => simp [hname]
      | ok text =>
          cases hcount : parseU8 text <;> simp [hname, hcount, Part.file?, JobFields.assign]
  · next name hfile hmode hprinter hcopies hname =>
      rw [hname]
      split
      · next heq => exact absurd (Option.some.inj heq) hfile
      · next heq => exact absurd (Option.some.inj heq) hmode
      · next heq => exact absurd (Option.some.inj heq) hprinter
      · next heq => exact absurd (Option.some.inj heq) hcopies
      · simp

theorem readFields_single {before f : JobFields} {item : Except MultipartError Field} :
    readFields before [item] = .ok f ↔ ∃ part, partOf item = some part ∧
      (part.file?.isSome → before.bytes = none) ∧ before.assign part = f := by
  cases item with
  | error multipartFault =>
      constructor
      · intro h
        cases h
      · rintro ⟨part, hpart, -⟩
        cases hpart
  | ok field =>
      rw [← readField_eq_ok, readFields]
      cases readField before field with
      | error error => exact Iff.rfl
      | ok fields => exact Iff.rfl

theorem parts_append (l : Multipart) {item : Except MultipartError Field} {part : Part}
    (hpart : partOf item = some part) : parts (l ++ [item]) = parts l ++ [part] := by
  unfold parts
  rw [List.filterMap_append, List.filterMap_cons_some hpart]
  rfl

theorem gathered_append (l : Multipart) {item : Except MultipartError Field} {part : Part}
    (hpart : partOf item = some part) : gathered (l ++ [item]) = (gathered l).assign part := by
  have hparts := parts_append l hpart
  cases part <;> simp [gathered, files, modes, printerIds, copyCounts, hparts, JobFields.assign,
    Part.file?, Part.mode?, Part.printerId?, Part.copies?]

theorem length_files_append (l : Multipart) {item : Except MultipartError Field} {part : Part}
    (hpart : partOf item = some part) :
    (files (l ++ [item])).length = (files l).length + if part.file?.isSome then 1 else 0 := by
  unfold files
  rw [parts_append l hpart, List.filterMap_append, List.length_append]
  cases part <;> rfl

theorem bytes_gathered (l : Multipart) : (gathered l).bytes = none ↔ (files l).length = 0 := by
  show (files l).getLast?.map (·.1) = none ↔ _
  rw [Option.map_eq_none_iff, List.getLast?_eq_none_iff, List.length_eq_zero_iff]

theorem readFields_append (fields : JobFields) (first second : Multipart) :
    readFields fields (first ++ second) =
      match readFields fields first with
      | .error error => .error error
      | .ok fields' => readFields fields' second := by
  induction first generalizing fields with
  | nil => rfl
  | cons item rest ih =>
      cases item with
      | error multipartFault => rfl
      | ok field =>
          rw [List.cons_append, readFields, readFields]
          cases readField fields field with
          | error error => rfl
          | ok fields' => exact ih fields'

/-- **What the loop makes of a request**: nothing, when a field cannot be read or there are
    two files, and otherwise the last value of each name. -/
theorem readFields_eq_ok {l : Multipart} {f : JobFields} :
    readFields .empty l = .ok f ↔
      (∀ item ∈ l, (partOf item).isSome) ∧ (files l).length ≤ 1 ∧ gathered l = f := by
  -- one more field at the end
  induction l using List.reverseRecOn generalizing f with
  | nil => simp [readFields, files, parts, gathered, modes, printerIds, copyCounts,
      JobFields.empty]
  | append_singleton l item ih =>
      have hround : readFields .empty (l ++ [item]) = .ok f ↔
          ∃ before, readFields .empty l = .ok before ∧ readFields before [item] = .ok f := by
        rw [readFields_append]
        cases readFields .empty l with
        | error error => simp
        | ok before => simp
      rw [hround]
      simp only [ih, readFields_single]
      constructor
      · rintro ⟨before, ⟨hread, hlength, rfl⟩, part, hpart, hfile, rfl⟩
        refine ⟨fun item' hitem => ?_, ?_, gathered_append l hpart⟩
        · rcases List.mem_append.mp hitem with hitem | hitem
          · exact hread item' hitem
          · rw [List.mem_singleton.mp hitem, hpart]
            rfl
        · rw [length_files_append l hpart]
          split
          · next hisfile => rw [(bytes_gathered l).mp (hfile hisfile)]
          · exact hlength
      · rintro ⟨hread, hlength, rfl⟩
        obtain ⟨part, hpart⟩ := Option.isSome_iff_exists.mp (hread item (by simp))
        rw [length_files_append l hpart] at hlength
        refine ⟨gathered l, ⟨fun item' hitem => hread item' (List.mem_append_left _ hitem),
          by omega, rfl⟩, part, hpart, fun hisfile => ?_, (gathered_append l hpart).symm⟩
        rw [if_pos hisfile] at hlength
        exact (bytes_gathered l).mpr (by omega)

/-! ## Accepted requests -/

/-- The checks after the loop, on the variables that a job is made of. -/
structure JobFields.Makes (fields : JobFields) (job : ParsedJob) : Prop where
  mode : fields.mode.bind parseMode = some job.mode
  copies : fields.copies.getD 1 = job.copies
  inRange : 1 ≤ job.copies ∧ job.copies ≤ 10
  printerId : fields.printerId.getD capturePrinterId = job.printerId
  printable : job.mode = .print → job.printerId ≠ ""
  bytes : fields.bytes = some job.bytes
  mime : fields.mime = some job.mime

theorem checkFields_eq_ok {fields : JobFields} {job : ParsedJob} :
    checkFields fields = .ok job ↔ fields.Makes job := by
  constructor
  · intro h
    unfold checkFields at h
    split at h
    · cases h
    · next text htext =>
        split at h
        · cases h
        · next mode hmode =>
            dsimp only at h
            split at h
            · cases h
            · next hcopies =>
                split at h
                · cases h
                · next hprinter =>
                    split at h
                    · cases h
                    · next bytes hbytes =>
                        split at h
                        · cases h
                        · next mime hmime =>
                            cases h
                            exact
                              { mode := by rw [htext]; exact hmode
                                copies := rfl
                                inRange := not_not.mp hcopies
                                printerId := rfl
                                printable := fun hprint hempty => hprinter ⟨hprint, hempty⟩
                                bytes := hbytes
                                mime := hmime }
  · intro h
    obtain ⟨text, htext, hmode⟩ := Option.bind_eq_some_iff.mp h.mode
    have hcopies : ¬ ¬ (1 ≤ fields.copies.getD 1 ∧ fields.copies.getD 1 ≤ 10) := by
      rw [h.copies]
      exact not_not.mpr h.inRange
    have hprinter : ¬ (job.mode = .print ∧ fields.printerId.getD capturePrinterId = "") := by
      rw [h.printerId]
      exact fun ⟨hprint, hempty⟩ => h.printable hprint hempty
    unfold checkFields
    simp only [htext, hmode]
    rw [if_neg hcopies, if_neg hprinter, h.bytes, h.mime, h.copies, h.printerId]

/-- What `parse_job` accepts. -/
theorem parseJob_eq_ok {l : Multipart} {job : ParsedJob} :
    parseJob l = .ok job ↔ (∀ item ∈ l, (partOf item).isSome) ∧ (files l).length ≤ 1 ∧
      (gathered l).Makes job := by
  unfold parseJob
  constructor
  · intro h
    cases hread : readFields .empty l with
    | error error =>
        rw [hread] at h
        cases h
    | ok fields =>
        rw [hread] at h
        obtain ⟨hreadable, hlength, rfl⟩ := readFields_eq_ok.mp hread
        exact ⟨hreadable, hlength, checkFields_eq_ok.mp h⟩
  · rintro ⟨hreadable, hlength, hmakes⟩
    rw [readFields_eq_ok.mpr ⟨hreadable, hlength, rfl⟩]
    exact checkFields_eq_ok.mpr hmakes

/-! ## Order -/

/-- The same answer for the fields in every order: the same job, or none. -/
def OrderFree (l : Multipart) : Prop :=
  ∀ l' : Multipart, l'.Perm l → ∀ job, parseJob l' = .ok job ↔ parseJob l = .ok job

/-- What is sent for a name is sent alike. -/
structure Agreeing (l : Multipart) : Prop where
  modes : ∀ x ∈ modes l, ∀ y ∈ modes l, x = y
  printerIds : ∀ x ∈ printerIds l, ∀ y ∈ printerIds l, x = y
  copyCounts : ∀ x ∈ copyCounts l, ∀ y ∈ copyCounts l, x = y

/-- Among what is sent there is what a job needs. -/
structure Sufficient (l : Multipart) : Prop where
  readable : ∀ item ∈ l, (partOf item).isSome
  file : ∃ bytes mime, files l = [(bytes, some mime)]
  /-- A mode, and a printer for it when it is `print` and printers are named. -/
  mode : "preview" ∈ modes l ∨
    "print" ∈ modes l ∧ (printerIds l = [] ∨ ∃ id ∈ printerIds l, id ≠ "")
  copies : copyCounts l = [] ∨ ∃ n ∈ copyCounts l, 1 ≤ n ∧ n ≤ 10

theorem parts_perm {l l' : Multipart} (h : l'.Perm l) : (parts l').Perm (parts l) :=
  h.filterMap partOf

theorem readable_perm {l l' : Multipart} (h : l'.Perm l) :
    (∀ item ∈ l', (partOf item).isSome) ↔ ∀ item ∈ l, (partOf item).isSome :=
  forall_congr' fun _ => imp_congr_left h.mem_iff

/-- Fields that agree leave the same variables in every order. -/
theorem gathered_perm {l l' : Multipart} (h : l'.Perm l) (hlength : (files l).length ≤ 1)
    (hagree : Agreeing l) : gathered l' = gathered l := by
  have hparts := parts_perm h
  have hfiles : (files l').getLast? = (files l).getLast? :=
    getLast?_of_perm (hparts.filterMap Part.file?) fun x hx y hy => by
      rw [eq_singleton_of_mem hlength hx] at hy
      exact (List.mem_singleton.mp hy).symm
  have hmodes : (modes l').getLast? = (modes l).getLast? :=
    getLast?_of_perm (hparts.filterMap Part.mode?) hagree.modes
  have hprinters : (printerIds l').getLast? = (printerIds l).getLast? :=
    getLast?_of_perm (hparts.filterMap Part.printerId?) hagree.printerIds
  have hcopies : (copyCounts l').getLast? = (copyCounts l).getLast? :=
    getLast?_of_perm (hparts.filterMap Part.copies?) hagree.copyCounts
  unfold gathered
  rw [hfiles, hmodes, hprinters, hcopies]

theorem parseJob_perm {l l' : Multipart} (h : l'.Perm l) (hagree : Agreeing l) (job : ParsedJob) :
    parseJob l' = .ok job ↔ parseJob l = .ok job := by
  have hfiles : (files l').length = (files l).length :=
    ((parts_perm h).filterMap Part.file?).length_eq
  rw [parseJob_eq_ok, parseJob_eq_ok, readable_perm h, hfiles]
  refine and_congr_right fun _ => and_congr_right fun hlength => ?_
  rw [gathered_perm h hlength hagree]

/-- What is accepted is sufficient, in whatever order it was sent. -/
theorem sufficient_of_parseJob {l l' : Multipart} (h : l'.Perm l) {job : ParsedJob}
    (hjob : parseJob l' = .ok job) : Sufficient l := by
  obtain ⟨hreadable, hlength, hmakes⟩ := parseJob_eq_ok.mp hjob
  have hparts := parts_perm h
  have hprinters : (printerIds l').Perm (printerIds l) := hparts.filterMap Part.printerId?
  refine
    { readable := (readable_perm h).mp hreadable
      file := ?_
      mode := ?_
      copies := ?_ }
  · obtain ⟨file, hfile, hbytes⟩ := Option.map_eq_some_iff.mp hmakes.bytes
    have hmime : file.2 = some job.mime := by
      have := hmakes.mime
      unfold gathered at this
      rwa [hfile] at this
    have hone : files l' = [file] := eq_singleton_of_mem hlength (List.mem_of_getLast? hfile)
    have hperm : [file].Perm (files l) := hone ▸ hparts.filterMap Part.file?
    refine ⟨file.1, job.mime, ?_⟩
    rw [List.perm_singleton.mp hperm.symm, ← hmime]
  · obtain ⟨text, htext, hmode⟩ := Option.bind_eq_some_iff.mp hmakes.mode
    have hmem : text ∈ modes l := (hparts.filterMap Part.mode?).mem_iff.mp
      (List.mem_of_getLast? htext)
    unfold parseMode at hmode
    split at hmode
    · exact Or.inl hmem
    · refine Or.inr ⟨hmem, ?_⟩
      have hprint : job.mode = .print := (Option.some.inj hmode).symm
      refine (getD_getLast?_of_perm hprinters capturePrinterId).imp_right ?_
      rintro ⟨id, hid, hlast⟩
      have hprinter : job.printerId = id := hmakes.printerId.symm.trans hlast
      exact ⟨id, hid, hprinter ▸ hmakes.printable hprint⟩
    · cases hmode
  · have hcounts : (copyCounts l').Perm (copyCounts l) := hparts.filterMap Part.copies?
    refine (getD_getLast?_of_perm hcounts 1).imp_right ?_
    rintro ⟨n, hn, hlast⟩
    have hcopies : job.copies = n := hmakes.copies.symm.trans hlast
    exact ⟨n, hn, hcopies ▸ hmakes.inRange⟩

/-! ## A field that decides -/

section

variable {β : Type} {select : Part → Option β}

/-- A value that was sent can be made the last one of its name. -/
theorem exists_perm_last {l : Multipart} {v : β} (hv : v ∈ (parts l).filterMap select) :
    ∃ (part : Part) (l' : Multipart), select part = some v ∧ l'.Perm l ∧
      ((parts l').filterMap select).getLast? = some v ∧
      ∀ {γ : Type} (other : Part → Option γ), other part = none →
        (parts l').filterMap other = (parts l).filterMap other := by
  unfold parts at hv ⊢
  rw [List.filterMap_filterMap] at hv
  obtain ⟨item, l', hitem, hperm, hlast, hsame⟩ := exists_perm_getLast? hv
  obtain ⟨part, hpart, hselect⟩ := Option.bind_eq_some_iff.mp hitem
  refine ⟨part, l', hselect, hperm, ?_, fun other hother => ?_⟩
  · rw [List.filterMap_filterMap]
    exact hlast
  · rw [List.filterMap_filterMap, List.filterMap_filterMap]
    exact hsame _ (by rw [hpart]; exact hother)

end

section

variable {l : Multipart}

theorem exists_mode_last {text : String} (h : text ∈ modes l) :
    ∃ l' : Multipart, l'.Perm l ∧ (modes l').getLast? = some text ∧ files l' = files l ∧
      printerIds l' = printerIds l ∧ copyCounts l' = copyCounts l := by
  obtain ⟨part, l', hpart, hperm, hlast, hsame⟩ := exists_perm_last h
  cases part with
  | mode _ => exact ⟨l', hperm, hlast, hsame _ rfl, hsame _ rfl, hsame _ rfl⟩
  | _ => cases hpart

theorem exists_printerId_last {text : String} (h : text ∈ printerIds l) :
    ∃ l' : Multipart, l'.Perm l ∧ (printerIds l').getLast? = some text ∧ files l' = files l ∧
      modes l' = modes l ∧ copyCounts l' = copyCounts l := by
  obtain ⟨part, l', hpart, hperm, hlast, hsame⟩ := exists_perm_last h
  cases part with
  | printerId _ => exact ⟨l', hperm, hlast, hsame _ rfl, hsame _ rfl, hsame _ rfl⟩
  | _ => cases hpart

theorem exists_copies_last {count : Nat} (h : count ∈ copyCounts l) :
    ∃ l' : Multipart, l'.Perm l ∧ (copyCounts l').getLast? = some count ∧ files l' = files l ∧
      modes l' = modes l ∧ printerIds l' = printerIds l := by
  obtain ⟨part, l', hpart, hperm, hlast, hsame⟩ := exists_perm_last h
  cases part with
  | copies _ => exact ⟨l', hperm, hlast, hsame _ rfl, hsame _ rfl, hsame _ rfl⟩
  | _ => cases hpart

/-- A printer that does for the mode can be made the last. -/
theorem exists_printable_last {mode : JobMode}
    (h : mode = .print → printerIds l = [] ∨ ∃ id ∈ printerIds l, id ≠ "") :
    ∃ l' : Multipart, l'.Perm l ∧ files l' = files l ∧ modes l' = modes l ∧
      copyCounts l' = copyCounts l ∧
      (mode = .print → (printerIds l').getLast?.getD capturePrinterId ≠ "") := by
  by_cases hprint : mode = .print
  · rcases h hprint with hnone | ⟨id, hid, hne⟩
    · refine ⟨l, List.Perm.refl l, rfl, rfl, rfl, fun _ => ?_⟩
      rw [hnone]
      decide
    · obtain ⟨l', hperm, hlast, hfiles, hmodes, hcopies⟩ := exists_printerId_last hid
      refine ⟨l', hperm, hfiles, hmodes, hcopies, fun _ => ?_⟩
      rw [hlast]
      exact hne
  · exact ⟨l, List.Perm.refl l, rfl, rfl, rfl, fun hprint' => absurd hprint' hprint⟩

/-- A count in the range can be made the last. -/
theorem exists_count_last (h : copyCounts l = [] ∨ ∃ n ∈ copyCounts l, 1 ≤ n ∧ n ≤ 10) :
    ∃ l' : Multipart, l'.Perm l ∧ files l' = files l ∧ modes l' = modes l ∧
      printerIds l' = printerIds l ∧ 1 ≤ (copyCounts l').getLast?.getD 1 ∧
      (copyCounts l').getLast?.getD 1 ≤ 10 := by
  rcases h with hnone | ⟨n, hn, hlow, hhigh⟩
  · refine ⟨l, List.Perm.refl l, rfl, rfl, rfl, ?_⟩
    rw [hnone]
    decide
  · obtain ⟨l', hperm, hlast, hfiles, hmodes, hprinters⟩ := exists_copies_last hn
    refine ⟨l', hperm, hfiles, hmodes, hprinters, ?_⟩
    rw [hlast]
    exact ⟨hlow, hhigh⟩

/-- What is sufficient is accepted in some order. -/
theorem exists_parseJob_ok (h : Sufficient l) :
    ∃ (l' : Multipart) (job : ParsedJob), l'.Perm l ∧ parseJob l' = .ok job := by
  obtain ⟨bytes, mime, hfile⟩ := h.file
  -- the mode that is to count, then a printer for it, then a number of copies
  obtain ⟨text, mode, htext, hmode, hprintable⟩ : ∃ text mode, text ∈ modes l ∧
      parseMode text = some mode ∧
      (mode = .print → printerIds l = [] ∨ ∃ id ∈ printerIds l, id ≠ "") := by
    rcases h.mode with hpreview | ⟨hprint, hids⟩
    · exact ⟨"preview", .preview, hpreview, rfl, fun hprint => by cases hprint⟩
    · exact ⟨"print", .print, hprint, rfl, fun _ => hids⟩
  obtain ⟨l₁, hperm₁, hlast₁, hfiles₁, hprinters₁, hcopies₁⟩ := exists_mode_last htext
  rw [← hprinters₁] at hprintable
  obtain ⟨l₂, hperm₂, hfiles₂, hmodes₂, hcopies₂, hprinter₂⟩ := exists_printable_last hprintable
  have hcopies := h.copies
  rw [← hcopies₁, ← hcopies₂] at hcopies
  obtain ⟨l₃, hperm₃, hfiles₃, hmodes₃, hprinters₃, hlow, hhigh⟩ := exists_count_last hcopies
  have hperm : l₃.Perm l := hperm₃.trans (hperm₂.trans hperm₁)
  have hfiles : files l₃ = [(bytes, some mime)] := by rw [hfiles₃, hfiles₂, hfiles₁, hfile]
  refine ⟨l₃, ⟨bytes, mime, mode, (printerIds l₃).getLast?.getD capturePrinterId,
    (copyCounts l₃).getLast?.getD 1⟩, hperm, parseJob_eq_ok.mpr
      ⟨(readable_perm hperm).mpr h.readable, by rw [hfiles]; exact Nat.le_refl 1, ?_⟩⟩
  exact
    { mode := by
        show (modes l₃).getLast?.bind parseMode = some mode
        rw [hmodes₃, hmodes₂, hlast₁]
        exact hmode
      copies := rfl
      inRange := ⟨hlow, hhigh⟩
      printerId := rfl
      printable := by
        intro hprint
        show (printerIds l₃).getLast?.getD capturePrinterId ≠ ""
        rw [hprinters₃]
        exact hprinter₂ hprint
      bytes := by
        show (files l₃).getLast?.map (·.1) = _
        rw [hfiles]
        rfl
      mime := by
        show (files l₃).getLast?.bind (·.2) = _
        rw [hfiles]
        rfl }

theorem parseMode_injective {x y : String} {mode : JobMode} (hx : parseMode x = some mode)
    (hy : parseMode y = some mode) : x = y := by
  unfold parseMode at hx hy
  split at hx <;> split at hy <;> cases hx <;> cases hy <;> rfl

/-- In a request that is accepted alike in every order the fields agree. -/
theorem agreeing_of_orderFree (h : OrderFree l) (hsufficient : Sufficient l) : Agreeing l := by
  obtain ⟨l₀, job, hperm₀, hjob₀⟩ := exists_parseJob_ok hsufficient
  have hjob : parseJob l = .ok job := (h l₀ hperm₀ job).mp hjob₀
  have hmakes : ∀ l' : Multipart, l'.Perm l → (gathered l').Makes job := fun l' hperm =>
    (parseJob_eq_ok.mp ((h l' hperm job).mpr hjob)).2.2
  refine
    { modes := ?_
      printerIds := ?_
      copyCounts := ?_ }
  · have hmode : ∀ text ∈ modes l, parseMode text = some job.mode := by
      intro text htext
      obtain ⟨l', hperm, hlast, -⟩ := exists_mode_last htext
      have := (hmakes l' hperm).mode
      unfold gathered at this
      rwa [hlast] at this
    exact fun x hx y hy => parseMode_injective (hmode x hx) (hmode y hy)
  · have hprinter : ∀ id ∈ printerIds l, id = job.printerId := by
      intro id hid
      obtain ⟨l', hperm, hlast, -⟩ := exists_printerId_last hid
      have := (hmakes l' hperm).printerId
      unfold gathered at this
      rwa [hlast] at this
    exact fun x hx y hy => (hprinter x hx).trans (hprinter y hy).symm
  · have hcopies : ∀ n ∈ copyCounts l, n = job.copies := by
      intro n hn
      obtain ⟨l', hperm, hlast, -⟩ := exists_copies_last hn
      have := (hmakes l' hperm).copies
      unfold gathered at this
      rwa [hlast] at this
    exact fun x hx y hy => (hcopies x hx).trans (hcopies y hy).symm

/-- **When the order of the fields does not matter**: when what is sent for a name is sent
    alike, or when no order of the fields makes a job. -/
theorem orderFree_iff : OrderFree l ↔ (Sufficient l → Agreeing l) := by
  constructor
  · exact fun h hsufficient => agreeing_of_orderFree h hsufficient
  · intro h l' hperm job
    by_cases hsufficient : Sufficient l
    · exact parseJob_perm hperm (h hsufficient) job
    · -- neither is accepted
      exact ⟨fun hjob => absurd (sufficient_of_parseJob hperm hjob) hsufficient,
        fun hjob => absurd (sufficient_of_parseJob (List.Perm.refl l) hjob) hsufficient⟩

end

/-- A field as a browser sends it. -/
def sentField (name : String) (contentType : Option String) (value : String) :
    Except MultipartError Field :=
  .ok ⟨some name, contentType, .ok (Text.utf8 value), .ok value⟩

/-- A preview and a print in one request. -/
def bothModes : Multipart :=
  [sentField "file" (some "application/pdf") "%PDF-", sentField "mode" none "preview",
    sentField "mode" none "print"]

/-- The same fields, with the modes exchanged. -/
def bothModesExchanged : Multipart :=
  [sentField "file" (some "application/pdf") "%PDF-", sentField "mode" none "print",
    sentField "mode" none "preview"]

/-- One order of the fields prints, the other previews. -/
theorem not_orderFree_bothModes : ¬ OrderFree bothModes := by
  intro h
  have hperm : bothModesExchanged.Perm bothModes :=
    List.Perm.cons _ (List.Perm.swap _ _ [])
  have hprint : (parseJob bothModes).toOption.map (·.mode) = some .print := by decide
  have hpreview : (parseJob bothModesExchanged).toOption.map (·.mode) = some .preview := by decide
  cases hjob : parseJob bothModes with
  | error error =>
      rw [hjob] at hprint
      cases hprint
  | ok job =>
      rw [(h _ hperm job).mpr hjob, ← hjob, hprint] at hpreview
      cases hpreview

end PrintLatch.Api
