/-
  PrintLatch.Text.Utf8

  The bytes of a string, and strings read back from ASCII bytes.

  `utf8 s` is the UTF-8 encoding of `s` as a list of bytes; it determines `s`
  (`utf8_injective`).  `ofAscii bs` reads every byte as one character; on bytes
  below 128 it is inverse to `utf8` (`utf8_ofAscii`).
-/

import Mathlib.Data.List.Basic
import Mathlib.Logic.Function.Basic

namespace Text

/-- The UTF-8 bytes of a string. -/
def utf8 (s : String) : List UInt8 := s.toList.flatMap String.utf8EncodeChar

/-- The string whose characters have the given codes. -/
def ofAscii (bs : List UInt8) : String := String.ofList (bs.map fun b => Char.ofNat b.toNat)

theorem utf8_toByteArray (s : String) : (utf8 s).toByteArray = s.toByteArray := by
  rw [← String.utf8Encode_toList]
  rfl

theorem utf8_injective : Function.Injective utf8 := by
  intro s t h
  rw [← String.toByteArray_inj, ← utf8_toByteArray, ← utf8_toByteArray, h]

@[simp] theorem utf8_inj {s t : String} : utf8 s = utf8 t ↔ s = t := utf8_injective.eq_iff

/-- A character below 128 is encoded as the one byte that is its code. -/
theorem utf8EncodeChar_ofNat {b : UInt8} (hb : b.toNat < 128) :
    String.utf8EncodeChar (Char.ofNat b.toNat) = [b] := by
  have hval : (Char.ofNat b.toNat).val.toNat = b.toNat := by
    have hvalid : b.toNat.isValidChar := Or.inl (by omega)
    rw [Char.ofNat, dif_pos hvalid]
    rfl
  unfold String.utf8EncodeChar
  simp only [hval]
  rw [if_pos (by omega)]
  simp

theorem utf8_ofAscii {bs : List UInt8} (h : ∀ b ∈ bs, b.toNat < 128) :
    utf8 (ofAscii bs) = bs := by
  unfold utf8 ofAscii
  rw [String.toList_ofList]
  induction bs with
  | nil => rfl
  | cons b bs ih =>
      rw [List.map_cons, List.flatMap_cons, utf8EncodeChar_ofNat (h b (by simp)),
        ih fun c hc => h c (by simp [hc])]
      rfl

theorem ofAscii_utf8 {s : String} (h : ∀ b ∈ utf8 s, b.toNat < 128) : ofAscii (utf8 s) = s :=
  utf8_injective (utf8_ofAscii h)

theorem utf8_append (s t : String) : utf8 (s ++ t) = utf8 s ++ utf8 t := by
  unfold utf8
  rw [String.toList_append, List.flatMap_append]

/-- The bytes of ASCII text are the codes of its characters. -/
theorem code_of_mem_utf8 {s : String} (hascii : ∀ c ∈ s.toList, c.toNat < 128) {b : UInt8}
    (hb : b ∈ utf8 s) : ∃ c ∈ s.toList, c.toNat = b.toNat := by
  obtain ⟨c, hc, hb⟩ := List.mem_flatMap.mp hb
  have hcode : (UInt8.ofNat c.toNat).toNat = c.toNat := by
    rw [UInt8.toNat_ofNat']
    have := hascii c hc
    omega
  have hone : String.utf8EncodeChar c = [UInt8.ofNat c.toNat] := by
    have hbyte := utf8EncodeChar_ofNat (hcode ▸ hascii c hc)
    rwa [hcode, Char.ofNat_toNat] at hbyte
  rw [hone, List.mem_singleton] at hb
  exact ⟨c, hc, by rw [hb, hcode]⟩

/-- A numeral is digits. -/
theorem digit_of_mem_utf8_toString {n : Nat} {b : UInt8} (h : b ∈ utf8 (toString n)) :
    48 ≤ b.toNat ∧ b.toNat ≤ 57 := by
  have hdigits : ∀ c ∈ (toString n).toList, 48 ≤ c.toNat ∧ c.toNat ≤ 57 := by
    intro c hc
    have hdigit : c.isDigit = true :=
      Nat.isDigit_of_mem_toDigits (b := 10) (n := n) (by omega) (by omega) (by simpa using hc)
    simpa [Char.isDigit, UInt32.le_iff_toNat_le] using hdigit
  obtain ⟨c, hc, hcode⟩ := code_of_mem_utf8 (fun c hc => by have := hdigits c hc; omega) h
  rw [← hcode]
  exact hdigits c hc

end Text
