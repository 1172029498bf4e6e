/-
  PrintLatch.Api.Multipart

  `parse_job` (`src/api.rs`): the job in a multipart body, or why it is refused.

  The `multer` reader is the list of what `next_field` returns, and a field is
  what its accessors return: either can be an error instead, which ends the
  request.
-/

import PrintLatch.Api.NewJob
import PrintLatch.Error
import PrintLatch.Text.Utf8
import Mathlib.Data.List.Infix

namespace PrintLatch.Api

open Text

/-- `MultipartError`: its status and its text. -/
structure MultipartError where
  status : Nat
  message : String
  deriving DecidableEq, Repr

/-- `Field`, by what its accessors return. -/
structure Field where
  name : Option String
  contentType : Option String
  bytes : Except MultipartError (List UInt8)
  text : Except MultipartError String

/-- What `next_field` returns until it returns none. -/
abbrev Multipart := List (Except MultipartError Field)

/-- `str::contains`. -/
def contains (text pattern : String) : Bool := utf8 pattern <:+: utf8 text

/-- `multipart_error`. -/
def multipartError (error : MultipartError) : AppError :=
  if error.status = 413 then .payloadTooLarge "job exceeds the 10 MiB V1 limit"
  else if contains error.message "length limit" ∨ contains error.message "body too large" then
    .payloadTooLarge "job exceeds the 10 MiB V1 limit"
  else .badRequest s!"invalid multipart body: {error.message}"

/-- `text_field`. -/
def textField (field : Field) (max : Nat) : Except AppError String :=
  match field.text with
  | .error error => .error (multipartError error)
  | .ok value =>
      if max < (utf8 value).length then .error (.badRequest "multipart field is too long")
      else .ok value

/-- `str::parse::<u8>`: decimal digits, after one `+` at most, of a value below
    256. -/
def parseU8 (text : String) : Option Nat :=
  -- a `-` is no digit, and there is no other sign for an unsigned type
  let digits := match text.toList with
    | '+' :: rest => rest
    | all => all
  if digits ≠ [] ∧ digits.all Char.isDigit then
    let value := digits.foldl (fun n c => 10 * n + (c.toNat - 48)) 0
    if value < 256 then some value else none
  else none

/-! ## The fields -/

/-- The local variables of the loop. -/
structure JobFields where
  bytes : Option (List UInt8)
  mime : Option String
  mode : Option String
  printerId : Option String
  copies : Option Nat
  deriving DecidableEq, Repr

/-- No field was read. -/
def JobFields.empty : JobFields := ⟨none, none, none, none, none⟩

/-- The body of the loop. -/
def readField (fields : JobFields) (field : Field) : Except AppError JobFields :=
  match field.name with
  | none => .error (.badRequest "multipart field name is missing")
  | some "file" =>
      if fields.bytes.isSome then .error (.badRequest "exactly one PDF file is required")
      else
        match field.bytes with
        | .error error => .error (multipartError error)
        | .ok value => .ok { fields with mime := field.contentType, bytes := some value }
  | some "mode" =>
      match textField field 16 with
      | .error error => .error error
      | .ok value => .ok { fields with mode := some value }
  | some "printer_id" =>
      match textField field 128 with
      | .error error => .error error
      | .ok value => .ok { fields with printerId := some value }
  | some "copies" =>
      match textField field 3 with
      | .error error => .error error
      | .ok raw =>
          match parseU8 raw with
          | none => .error (.badRequest "copies must be an integer from 1 to 10")
          | some copies => .ok { fields with copies := some copies }
  | some name => .error (.badRequest s!"unexpected multipart field: {name}")

/-- The loop. -/
def readFields (fields : JobFields) : Multipart → Except AppError JobFields
  | [] => .ok fields
  | .error error :: _ => .error (multipartError error)
  | .ok field :: rest =>
      match readField fields field with
      | .error error => .error error
      | .ok fields' => readFields fields' rest

/-- The words `mode` may be. -/
def parseMode : String → Option JobMode
  | "preview" => some .preview
  | "print" => some .print
  | _ => none

/-- The checks after the loop, in their order. -/
def checkFields (fields : JobFields) : Except AppError ParsedJob :=
  match fields.mode with
  | none => .error (.badRequest "mode is required")
  | some mode =>
      match parseMode mode with
      | none => .error (.badRequest "mode must be preview or print")
      | some mode =>
          let copies := fields.copies.getD 1
          if ¬ (1 ≤ copies ∧ copies ≤ 10) then
            .error (.badRequest "copies must be between 1 and 10")
          else
            let printerId := fields.printerId.getD capturePrinterId
            if mode = .print ∧ printerId = "" then
              .error (.badRequest "printer_id is required for print mode")
            else
              match fields.bytes with
              | none => .error (.badRequest "file is required")
              | some bytes =>
                  match fields.mime with
                  | none => .error (.badRequest "file Content-Type must be application/pdf")
                  | some mime => .ok ⟨bytes, mime, mode, printerId, copies⟩

/-- `parse_job`. -/
def parseJob (multipart : Multipart) : Except AppError ParsedJob :=
  match readFields .empty multipart with
  | .error error => .error error
  | .ok fields => checkFields fields

/-! ## What is accepted, and what errors say -/

/-- An accepted job has 1 to 10 copies, and a printer when it is to be printed. -/
theorem parseJob_ok {multipart : Multipart} {job : ParsedJob}
    (h : parseJob multipart = .ok job) :
    1 ≤ job.copies ∧ job.copies ≤ 10 ∧ (job.mode = .print → job.printerId ≠ "") := by
  unfold parseJob at h
  split at h
  · cases h
  · next fields _ =>
      unfold checkFields at h
      split at h
      · cases h
      · split at h
        · cases h
        · dsimp only at h
          split at h
          · cases h
          · next hcopies =>
              split at h
              · cases h
              · next hprinter =>
                  split at h
                  · cases h
                  · split at h
                    · cases h
                    · cases h
                      have hcopies := not_not.mp hcopies
                      exact ⟨hcopies.1, hcopies.2, fun hmode hid => hprinter ⟨hmode, hid⟩⟩

/-- The request is at fault. -/
def AtFault (error : AppError) : Prop := error.status = 400 ∨ error.status = 413

theorem atFault_multipartError (error : MultipartError) : AtFault (multipartError error) := by
  unfold multipartError
  split
  · exact Or.inr rfl
  · split
    · exact Or.inr rfl
    · exact Or.inl rfl

theorem atFault_textField {field : Field} {max : Nat} {error : AppError}
    (h : textField field max = .error error) : AtFault error := by
  unfold textField at h
  split at h
  · cases h
    exact atFault_multipartError _
  · split at h
    · cases h
      exact Or.inl rfl
    · cases h

theorem atFault_readField {fields : JobFields} {field : Field} {error : AppError}
    (h : readField fields field = .error error) : AtFault error := by
  unfold readField at h
  split at h
  · cases h
    exact Or.inl rfl
  · split at h
    · cases h
      exact Or.inl rfl
    · split at h
      · cases h
        exact atFault_multipartError _
      · cases h
  · split at h
    · next htext =>
        cases h
        exact atFault_textField htext
    · cases h
  · split at h
    · next htext =>
        cases h
        exact atFault_textField htext
    · cases h
  · split at h
    · next htext =>
        cases h
        exact atFault_textField htext
    · split at h
      · cases h
        exact Or.inl rfl
      · cases h
  · cases h
    exact Or.inl rfl

theorem atFault_readFields {fields : JobFields} {multipart : Multipart} {error : AppError}
    (h : readFields fields multipart = .error error) : AtFault error := by
  -- on the fields that are left, for any that were read before
  induction multipart generalizing fields with
  | nil => cases h
  | cons next rest ih =>
      cases next with
      | error multipartFault =>
          cases h
          exact atFault_multipartError multipartFault
      | ok field =>
          rw [readFields] at h
          split at h
          · next hfield =>
              cases h
              exact atFault_readField hfield
          · exact ih h

theorem atFault_checkFields {fields : JobFields} {error : AppError}
    (h : checkFields fields = .error error) : AtFault error := by
  -- every check refuses with 400
  suffices hbad : ∃ message, error = .badRequest message by
    obtain ⟨message, rfl⟩ := hbad
    exact Or.inl rfl
  unfold checkFields at h
  split at h
  · exact ⟨_, (Except.error.inj h).symm⟩
  · split at h
    · exact ⟨_, (Except.error.inj h).symm⟩
    · dsimp only at h
      split at h
      · exact ⟨_, (Except.error.inj h).symm⟩
      · split at h
        · exact ⟨_, (Except.error.inj h).symm⟩
        · split at h
          · exact ⟨_, (Except.error.inj h).symm⟩
          · split at h
            · exact ⟨_, (Except.error.inj h).symm⟩
            · cases h

/-- **A body that is refused is the request's fault**: whatever the reader
    returns, `parse_job` answers 400 or 413. -/
theorem atFault_parseJob {multipart : Multipart} {error : AppError}
    (h : parseJob multipart = .error error) : AtFault error := by
  unfold parseJob at h
  split at h
  · next hread =>
      cases h
      exact atFault_readFields hread
  · exact atFault_checkFields h

end PrintLatch.Api
