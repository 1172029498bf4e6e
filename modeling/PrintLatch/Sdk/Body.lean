/-
  PrintLatch.Sdk.Body

  The bodies that the SDK sends, and what the limit of the router leaves of them
  (`DefaultBodyLimit` in `router`, `multipart_error` in `src/api.rs`).

  `formBody` is the multipart text of a form.  The reader of the agent sees a body up to
  `maxBody`: a form that is not longer is read field by field (`form`), and of a longer one
  the fields before the cut are read, then comes an error (`Transfer.cutForm`).  A form that
  is cut is refused, and one that would have been a job is refused as too long
  (`readFields_cutForm`).
-/

import PrintLatch.Api.Repeated
import PrintLatch.Api.Router
import PrintLatch.Sdk.Client
import PrintLatch.Text.Urlencoded

namespace PrintLatch.Sdk

open Text

/-! ## JSON -/

/-- `QuoteJSONString`, on one character. -/
def quoteChar (c : Char) : String :=
  match c.toNat with
  | 8 => "\\b"
  | 9 => "\\t"
  | 10 => "\\n"
  | 12 => "\\f"
  | 13 => "\\r"
  | 34 => "\\\""
  | 92 => "\\\\"
  | n =>
      if n < 32 then "\\u00" ++ String.ofList [Nat.digitChar (n / 16), Nat.digitChar (n % 16)]
      else String.singleton c

/-- `QuoteJSONString`. -/
def quoteJson (text : String) : String :=
  "\"" ++ String.join (text.toList.map quoteChar) ++ "\""

section

variable (numberText : JsNumber → String)

mutual

/-- `JSON.stringify`. -/
def stringify : Json → String
  | .null => "null"
  | .boolean value => if value then "true" else "false"
  | .number (.finite value) => numberText (.finite value)
  | .number _ => "null"
  | .string value => quoteJson value
  | .array items => "[" ++ ",".intercalate (stringifyItems items) ++ "]"
  | .object entries => "\x7b" ++ ",".intercalate (stringifyEntries entries) ++ "\x7d"

def stringifyItems : List Json → List String
  | [] => []
  | item :: rest => stringify item :: stringifyItems rest

def stringifyEntries : List (String × Json) → List String
  | [] => []
  | (name, value) :: rest =>
      (quoteJson name ++ ":" ++ stringify value) :: stringifyEntries rest

end

/-- The `code` of `Json<PairRequest>`: the limit comes before the parser. -/
def codeOf (request : HttpRequest) : Except Api.JsonRejection String :=
  match request.body with
  | .json value =>
      if Api.maxBody < (utf8 (stringify numberText value)).length then .error .tooLarge
      else
        match value.get "code" with
        | some (.string code) => .ok code
        | _ => .error .dataError
  | _ => .error .missingContentType

/-- The JSON of `pair`. -/
def pairBody (code : String) : List UInt8 :=
  utf8 (stringify numberText (.object [("code", .string code)]))

/-- The code of `pair`, as it is read. -/
def pairCode (code : String) : Except Api.JsonRejection String :=
  if Api.maxBody < (pairBody numberText code).length then .error .tooLarge else .ok code

theorem codeOf_pair (url method code : String) (headers : List (String × String)) :
    codeOf numberText ⟨url, method, headers, .json (.object [("code", .string code)])⟩ =
      pairCode numberText code := by
  have hget : (Json.object [("code", .string code)]).get "code" = some (.string code) := rfl
  simp only [codeOf, hget, pairCode, pairBody]
  rfl

theorem pairCode_eq_ok {code code' : String} :
    pairCode numberText code = .ok code' ↔
      (pairBody numberText code).length ≤ Api.maxBody ∧ code = code' := by
  unfold pairCode
  split
  · next hlong => exact iff_of_false (fun h => by cases h) fun h => Nat.not_le.mpr hlong h.1
  · next hshort => simp [Nat.not_lt.mp hshort]

end

/-! ## Forms -/

/-- A line break in a form is sent as two characters. -/
def normalizeNewlines : List Char → List Char
  | [] => []
  | '\r' :: '\n' :: rest => '\r' :: '\n' :: normalizeNewlines rest
  | c :: rest =>
      if c = '\r' ∨ c = '\n' then '\r' :: '\n' :: normalizeNewlines rest
      else c :: normalizeNewlines rest

/-- A text of a form, as it is sent. -/
def sentText (value : String) : String := String.ofList (normalizeNewlines value.toList)

/-- A name in the head of a part. -/
def quoteName (name : String) : List UInt8 :=
  (utf8 name).flatMap fun b =>
    if b = 10 then utf8 "%0A" else if b = 13 then utf8 "%0D" else if b = 34 then utf8 "%22"
    else [b]

/-- The type of a file in a form. -/
def fileType (blob : Blob) : String :=
  if blob.type = "" then "application/octet-stream" else blob.type

/-- The lines of the head of a part. -/
def partHead (entry : String × FormValue) : List (List UInt8) :=
  let disposition := utf8 "Content-Disposition: form-data; name=\"" ++ quoteName entry.1 ++
    utf8 "\""
  match entry.2 with
  | .text _ => [disposition]
  | .file blob filename =>
      [disposition ++ utf8 "; filename=\"" ++ quoteName filename ++ utf8 "\"",
        utf8 "Content-Type: " ++ utf8 (fileType blob)]

/-- The content of a part. -/
def partContent (entry : String × FormValue) : List UInt8 :=
  match entry.2 with
  | .text value => utf8 (sentText value)
  | .file blob _ => blob.bytes

/-- A part of a form, with its boundary. -/
def formPart (boundary : List UInt8) (entry : String × FormValue) : List UInt8 :=
  utf8 "--" ++ boundary ++ utf8 "\r\n" ++
    (partHead entry).flatMap (· ++ utf8 "\r\n") ++ utf8 "\r\n" ++
    partContent entry ++ utf8 "\r\n"

/-- The multipart text of a form. -/
def formBody (boundary : List UInt8) (entries : List (String × FormValue)) : List UInt8 :=
  entries.flatMap (formPart boundary) ++ utf8 "--" ++ boundary ++ utf8 "--\r\n"

/-! ## The reader -/

/-- A text is decoded without the byte order mark that it may begin with. -/
def withoutMark (text : String) : String :=
  match text.toList with
  | '\uFEFF' :: rest => String.ofList rest
  | _ => text

/-- A text of a form, as it is read. -/
def readText (value : String) : String := withoutMark (sentText value)

/-- A byte that may stand in the head of a part. -/
def isHeadByte (b : UInt8) : Bool := b = 9 ∨ 32 ≤ b ∧ b ≠ 127

/-- The reader takes the head of the part: a control character in a file name is sent as it
    is, and refused. -/
def HeadReadable (entry : String × FormValue) : Prop :=
  ∀ line ∈ partHead entry, line.all isHeadByte = true

instance (entry : String × FormValue) : Decidable (HeadReadable entry) :=
  inferInstanceAs (Decidable (∀ _ ∈ _, _))

/-- The error of the reader on what is no multipart text. -/
def parseError : Api.MultipartError := ⟨400, "Error parsing `multipart/form-data` request"⟩

/-- The error of the reader on a body that is longer than the limit. -/
def limitError : Api.MultipartError := ⟨413, "Error parsing `multipart/form-data` request"⟩

section

variable (decoder : Utf8Decoder)

/-- The field that the multipart reader finds for an entry. -/
def formField (entry : String × FormValue) : Api.Field :=
  match entry.2 with
  | .text value => ⟨some entry.1, none, .ok (utf8 (sentText value)), .ok (readText value)⟩
  | .file blob _ =>
      ⟨some entry.1, some (fileType blob), .ok blob.bytes, .ok (decoder.apply blob.bytes)⟩

/-- Every field as it was sent. -/
def formFields (entries : List (String × FormValue)) : Api.Multipart :=
  entries.map fun entry => .ok (formField decoder entry)

/-- What the reader makes of an entry. -/
def formItem (entry : String × FormValue) : Except Api.MultipartError Api.Field :=
  if HeadReadable entry then .ok (formField decoder entry) else .error parseError

/-- A form that is read to its end. -/
def form (entries : List (String × FormValue)) : Api.Multipart := entries.map (formItem decoder)

/-- A field whose content does not come to its end. -/
def lostField (field : Api.Field) : Api.Field :=
  { field with bytes := .error limitError, text := .error limitError }

/-- How a form is sent, and how its reader comes to the limit. -/
structure Transfer where
  /-- What the sender draws between the parts. -/
  boundary : List UInt8
  /-- Of a form that is too long, the reader has read so many fields at most. -/
  fieldsRead : Nat
  /-- It comes to the limit in a field, and not before the next one. -/
  inField : Bool
  /-- It has seen the last boundary before the limit counts the line break behind that. -/
  closed : Bool
  deriving DecidableEq, Repr

/-- The reader comes to the end of the form. -/
def Transfer.Whole (t : Transfer) (entries : List (String × FormValue)) : Prop :=
  (formBody t.boundary entries).length ≤ Api.maxBody ∨
    (formBody t.boundary entries).length ≤ Api.maxBody + 2 ∧ t.closed = true

instance (t : Transfer) (entries : List (String × FormValue)) : Decidable (t.Whole entries) :=
  inferInstanceAs (Decidable (_ ∨ _))

/-- What the reader comes to when it does not come to an end. -/
def Transfer.atCut (t : Transfer) (next : Option (String × FormValue)) :
    Except Api.MultipartError Api.Field :=
  match next with
  | some entry => if t.inField then (formItem decoder entry).map lostField else .error limitError
  | none => .error limitError

/-- A form that is cut, after so many fields at most and with so much room for them: a field
    is read when the boundary behind it is there. -/
def Transfer.cutForm (t : Transfer) : Nat → Nat → List (String × FormValue) → Api.Multipart
  | count + 1, room, entry :: rest =>
      let size := (formPart t.boundary entry).length
      if size + (utf8 "--" ++ t.boundary).length ≤ room then
        formItem decoder entry :: t.cutForm count (room - size) rest
      else [t.atCut decoder (some entry)]
  | _, _, entries => [t.atCut decoder entries.head?]

/-- The form, as the reader of the agent finds it. -/
def delivered (t : Transfer) (entries : List (String × FormValue)) : Api.Multipart :=
  if t.Whole entries then form decoder entries
  else t.cutForm decoder t.fieldsRead Api.maxBody entries

end

/-- Every field of the form is read as it was sent. -/
structure Transfer.Delivers (t : Transfer) (entries : List (String × FormValue)) : Prop where
  whole : t.Whole entries
  readable : ∀ entry ∈ entries, HeadReadable entry

/-! ## A form that is cut -/

section

variable {decoder : Utf8Decoder}

/-- The reader gives no content. -/
def Lost (item : Except Api.MultipartError Api.Field) : Prop :=
  ∀ field, item = .ok field →
    field.bytes = .error limitError ∧ field.text = .error limitError

theorem Lost.partOf {item : Except Api.MultipartError Api.Field} (h : Lost item) :
    Api.partOf item = none := by
  cases item with
  | error error => rfl
  | ok field =>
      obtain ⟨hbytes, htext⟩ := h field rfl
      unfold Api.partOf Api.textField
      simp only [hbytes, htext]
      split <;> rfl

/-- A field that would have been read is an error of the limit when its content is lost. -/
theorem readField_lostField {fields f : Api.JobFields} {field : Api.Field}
    (h : Api.readField fields field = .ok f) :
    Api.readField fields (lostField field) = .error (Api.multipartError limitError) := by
  unfold Api.readField at h ⊢
  simp only [lostField, Api.textField] at h ⊢
  split at h
  · cases h
  · split at h
    · cases h
    · next hfirst => rw [if_neg hfirst]
  · rfl
  · rfl
  · rfl
  · cases h

theorem lost_atCut (t : Transfer) (next : Option (String × FormValue)) :
    Lost (t.atCut decoder next) := by
  intro field hfield
  unfold Transfer.atCut at hfield
  split at hfield
  · next entry =>
      split at hfield
      · unfold formItem at hfield
        split at hfield
        · obtain rfl := Except.ok.inj hfield
          exact ⟨rfl, rfl⟩
        · cases hfield
      · cases hfield
  · cases hfield

/-- A form that is cut has an item without content. -/
theorem exists_lost (t : Transfer) (count room : Nat) (entries : List (String × FormValue)) :
    ∃ item ∈ t.cutForm decoder count room entries, Lost item := by
  fun_induction Transfer.cutForm decoder t count room entries with
  | case1 count room entry rest size hfits ih =>
      obtain ⟨item, hitem, hlost⟩ := ih
      exact ⟨item, List.mem_cons_of_mem _ hitem, hlost⟩
  | case2 => exact ⟨_, List.mem_singleton_self _, lost_atCut t _⟩
  | case3 => exact ⟨_, List.mem_singleton_self _, lost_atCut t _⟩

/-- At the cut the reader gives the error of the limit, with the next field or without. -/
theorem readFields_atCut (t : Transfer) {entries : List (String × FormValue)}
    {fields f : Api.JobFields} (h : Api.readFields fields (form decoder entries) = .ok f) :
    Api.readFields fields [t.atCut decoder entries.head?] =
      .error (Api.multipartError limitError) := by
  cases entries with
  | nil => rfl
  | cons entry rest =>
      simp only [List.head?_cons, Transfer.atCut]
      split
      · -- the head of the field is there, and its content is lost
        simp only [form, List.map_cons, formItem] at h ⊢
        split at h
        · next hhead =>
            rw [if_pos hhead]
            simp only [Except.map, Api.readFields] at h ⊢
            split at h
            · cases h
            · next hread => rw [readField_lostField hread]
        · cases h
      · rfl

/-- What would have been read to its end is refused as too long where it is cut. -/
theorem readFields_cutForm (t : Transfer) (count room : Nat)
    (entries : List (String × FormValue)) {fields f : Api.JobFields}
    (h : Api.readFields fields (form decoder entries) = .ok f) :
    Api.readFields fields (t.cutForm decoder count room entries) =
      .error (Api.multipartError limitError) := by
  induction entries generalizing count room fields with
  | nil => cases count <;> exact readFields_atCut t h
  | cons entry rest ih =>
      cases count with
      | zero => exact readFields_atCut t h
      | succ count =>
          unfold Transfer.cutForm
          dsimp only
          split
          · -- the field is read, and the cut comes later
            simp only [form, List.map_cons] at h
            cases hitem : formItem decoder entry with
            | error error =>
                rw [hitem] at h
                cases h
            | ok field =>
                rw [hitem] at h
                simp only [Api.readFields] at h ⊢
                split at h
                · cases h
                · exact ih _ _ h
          · exact readFields_atCut t h

/-! ## What is delivered -/

theorem delivered_of_not_whole {t : Transfer} {entries : List (String × FormValue)}
    (h : ¬ t.Whole entries) :
    delivered decoder t entries = t.cutForm decoder t.fieldsRead Api.maxBody entries := if_neg h

/-- A form that does not come whole lacks a field's content. -/
theorem lost_of_not_whole {t : Transfer} {entries : List (String × FormValue)}
    (h : ¬ t.Whole entries) : ∃ item ∈ delivered decoder t entries, Lost item := by
  rw [delivered_of_not_whole h]
  exact exists_lost t _ _ entries

/-- The form is delivered as it was sent if every field of it is. -/
theorem delivered_eq_formFields {t : Transfer} {entries : List (String × FormValue)} :
    delivered decoder t entries = formFields decoder entries ↔ t.Delivers entries := by
  constructor
  · intro h
    have hwhole : t.Whole entries := by
      by_contra hnot
      obtain ⟨item, hitem, hlost⟩ := lost_of_not_whole hnot
      rw [h] at hitem
      obtain ⟨entry, -, rfl⟩ := List.mem_map.mp hitem
      obtain ⟨hbytes, -⟩ := hlost _ rfl
      unfold formField at hbytes
      split at hbytes <;> cases hbytes
    rw [delivered, if_pos hwhole, form, formFields, List.map_inj_left] at h
    refine ⟨hwhole, fun entry hentry => ?_⟩
    have hitem := h entry hentry
    unfold formItem at hitem
    split at hitem
    · next hhead => exact hhead
    · cases hitem
  · intro h
    rw [delivered, if_pos h.whole, form, formFields, List.map_inj_left]
    exact fun entry hentry => if_pos (h.readable entry hentry)

/-- A form that is not delivered is no job. -/
theorem parseJob_not_ok {t : Transfer} {entries : List (String × FormValue)}
    (h : ¬ t.Delivers entries) (job : ParsedJob) :
    Api.parseJob (delivered decoder t entries) ≠ .ok job := by
  intro hparsed
  obtain ⟨hread, -⟩ := Api.parseJob_eq_ok.mp hparsed
  by_cases hwhole : t.Whole entries
  · rw [delivered, if_pos hwhole] at hread
    refine h ⟨hwhole, fun entry hentry => ?_⟩
    by_contra hhead
    have hitem := hread _ (List.mem_map_of_mem hentry)
    rw [formItem, if_neg hhead] at hitem
    cases hitem
  · obtain ⟨item, hitem, hlost⟩ := lost_of_not_whole hwhole
    have hsome := hread item hitem
    rw [hlost.partOf] at hsome
    cases hsome

/-- A job that does not come to its end is too long. -/
theorem parseJob_tooLarge {t : Transfer} {entries : List (String × FormValue)} {job : ParsedJob}
    (hcut : ¬ t.Whole entries) (hreadable : ∀ entry ∈ entries, HeadReadable entry)
    (h : Api.parseJob (formFields decoder entries) = .ok job) :
    Api.parseJob (delivered decoder t entries) =
      .error (.payloadTooLarge "job exceeds the 10 MiB V1 limit") := by
  have hform : form decoder entries = formFields decoder entries := by
    rw [form, formFields, List.map_inj_left]
    exact fun entry hentry => if_pos (hreadable entry hentry)
  rw [← hform] at h
  unfold Api.parseJob at h
  split at h
  · cases h
  · next fields hfields =>
      unfold Api.parseJob
      rw [delivered_of_not_whole hcut, readFields_cutForm t _ _ entries hfields]
      rfl

end

end PrintLatch.Sdk
