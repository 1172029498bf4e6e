/-
  PrintLatch.Auth.Headers

  Request headers as the code reads them.

  A header value is bytes; `HeaderValue::to_str` gives the text only when every
  byte is visible ASCII or a tab.  A `&str` obtained that way is its bytes here,
  so comparisons with stored strings go through `Text.utf8`.
-/

import PrintLatch.Text.Utf8
import Mathlib.Data.List.Basic

namespace PrintLatch

/-- `HeaderMap`: names in lower case, values in the order they were sent. -/
abbrev HeaderMap := List (String × List UInt8)

/-- `HeaderMap::get`: the first value of that name. -/
def HeaderMap.get (headers : HeaderMap) (name : String) : Option (List UInt8) :=
  (headers.find? fun h => h.1 = name).map (·.2)

/-- A byte that `to_str` accepts. -/
def visibleAscii (b : UInt8) : Bool := (32 ≤ b ∧ b < 127) ∨ b = 9

/-- `HeaderValue::to_str`. -/
def toStr (value : List UInt8) : Option (List UInt8) :=
  if value.all visibleAscii then some value else none

/-- `u8::to_ascii_lowercase`. -/
def lowerByte (b : UInt8) : UInt8 := if 65 ≤ b ∧ b ≤ 90 then b + 32 else b

/-- `to_ascii_lowercase`. -/
def toAsciiLowercase (s : List UInt8) : List UInt8 := s.map lowerByte

/-- `eq_ignore_ascii_case`. -/
def eqIgnoreAsciiCase (s t : List UInt8) : Bool := toAsciiLowercase s = toAsciiLowercase t

theorem toStr_eq_some {value s : List UInt8} (h : toStr value = some s) : s = value := by
  unfold toStr at h
  split at h
  · exact (Option.some.inj h).symm
  · cases h

/-- What is read as text is ASCII. -/
theorem lt_of_toStr {value s : List UInt8} (h : toStr value = some s) :
    ∀ b ∈ value, b.toNat < 128 := by
  unfold toStr at h
  split at h
  · next hall =>
      intro b hb
      have hvisible := List.all_eq_true.mp hall b hb
      simp only [visibleAscii, decide_eq_true_eq, UInt8.lt_iff_toNat_lt] at hvisible
      have h127 : (127 : UInt8).toNat = 127 := rfl
      have h9 : (9 : UInt8).toNat = 9 := rfl
      rcases hvisible with ⟨-, hlt⟩ | rfl <;> omega
  · cases h

/-- A value is read as its own bytes, or not at all. -/
theorem toStr_cases (value : List UInt8) : toStr value = some value ∨ toStr value = none := by
  unfold toStr
  split
  · exact Or.inl rfl
  · exact Or.inr rfl

/-- Lower case keeps a byte's being visible. -/
theorem visibleAscii_lowerByte (b : UInt8) : visibleAscii (lowerByte b) = visibleAscii b := by
  unfold visibleAscii lowerByte
  split
  · next h =>
      obtain ⟨hl, hu⟩ := h
      rw [UInt8.le_iff_toNat_le] at hl hu
      have hadd : (b + 32).toNat = b.toNat + 32 := by
        rw [UInt8.toNat_add]
        have : (90 : UInt8).toNat = 90 := rfl
        have : (32 : UInt8).toNat = 32 := rfl
        omega
      have h65 : (65 : UInt8).toNat = 65 := rfl
      have h90 : (90 : UInt8).toNat = 90 := rfl
      have h32 : (32 : UInt8).toNat = 32 := rfl
      have h127 : (127 : UInt8).toNat = 127 := rfl
      simp only [UInt8.le_iff_toNat_le, UInt8.lt_iff_toNat_lt, hadd, h32, h127]
      have hb : 32 ≤ b.toNat ∧ b.toNat < 127 := by omega
      have hb' : 32 ≤ b.toNat + 32 ∧ b.toNat + 32 < 127 := by omega
      simp [hb, hb']
  · rfl

theorem toStr_toAsciiLowercase (value : List UInt8) :
    (toStr (toAsciiLowercase value)).isSome = (toStr value).isSome := by
  have hall : (toAsciiLowercase value).all visibleAscii = value.all visibleAscii := by
    simp [toAsciiLowercase, List.all_map, Function.comp_def, visibleAscii_lowerByte]
  unfold toStr
  rw [hall]
  split <;> rfl

end PrintLatch
