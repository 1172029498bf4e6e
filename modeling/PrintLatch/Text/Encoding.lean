/-
  PrintLatch.Text.Encoding

  Bytes as text: base64 with the URL-safe alphabet and no padding, and hexadecimal.

  Of both encodings the length (`length_base64UrlNoPad`, `length_hexLower`) and the alphabet
  (`mem_base64UrlNoPad`, `mem_hexLower`) are known, in bytes of UTF-8.  The halves of bytes
  (`nibbles`) are read back by `ofNibbles`, and only they are.
-/

import PrintLatch.Text.Utf8

namespace Text

/-- The byte of a digit, in an alphabet. -/
def digitByte (alphabet : String) (n : Nat) : UInt8 := (utf8 alphabet).getD n 0

theorem digitByte_mem {alphabet : String} {n : Nat} (h : n < (utf8 alphabet).length) :
    digitByte alphabet n ∈ utf8 alphabet := by
  unfold digitByte
  rw [List.getD_eq_getElem?_getD, List.getElem?_eq_getElem h]
  exact List.getElem_mem h

/-- Text of an ASCII alphabet is its bytes. -/
theorem utf8_digits {alphabet : String} (hascii : (utf8 alphabet).all (· < 128) = true)
    {digits : List Nat} (hdigits : ∀ n ∈ digits, n < (utf8 alphabet).length) :
    utf8 (ofAscii (digits.map (digitByte alphabet))) = digits.map (digitByte alphabet) := by
  refine utf8_ofAscii fun b hb => ?_
  obtain ⟨n, hn, rfl⟩ := List.mem_map.mp hb
  have hlt := List.all_eq_true.mp hascii _ (digitByte_mem (hdigits n hn))
  simpa [UInt8.lt_iff_toNat_lt] using hlt

/-! ## Base64 -/

/-- The digits of RFC 4648, section 5. -/
def base64UrlAlphabet : String := "ABCDEFGHIJKLMNOPQRSTUVWXYZabcdefghijklmnopqrstuvwxyz0123456789-_"

/-- Six bits at a time, the last ones filled with zeros. -/
def sextets : List UInt8 → List Nat
  | [] => []
  | [a] => [a.toNat / 4, a.toNat % 4 * 16]
  | [a, b] => [a.toNat / 4, a.toNat % 4 * 16 + b.toNat / 16, b.toNat % 16 * 4]
  | a :: b :: c :: rest =>
      a.toNat / 4 :: (a.toNat % 4 * 16 + b.toNat / 16) :: (b.toNat % 16 * 4 + c.toNat / 64) ::
        (c.toNat % 64) :: sextets rest

/-- `URL_SAFE_NO_PAD.encode`. -/
def base64UrlNoPad (bytes : List UInt8) : String :=
  ofAscii ((sextets bytes).map (digitByte base64UrlAlphabet))

theorem length_sextets (bytes : List UInt8) :
    (sextets bytes).length = (4 * bytes.length + 2) / 3 := by
  induction bytes using sextets.induct with
  | case1 => rfl
  | case2 a => simp [sextets]
  | case3 a b => simp [sextets]
  | case4 a b c rest ih =>
      simp only [sextets, List.length_cons, ih]
      omega

theorem sextet_lt (bytes : List UInt8) : ∀ n ∈ sextets bytes, n < 64 := by
  have hbyte : ∀ b : UInt8, b.toNat < 256 := fun b => b.toNat_lt
  induction bytes using sextets.induct with
  | case1 => simp [sextets]
  | case2 a =>
      have := hbyte a
      simp only [sextets, List.mem_cons, List.not_mem_nil, or_false]
      omega
  | case3 a b =>
      have := hbyte a
      have := hbyte b
      simp only [sextets, List.mem_cons, List.not_mem_nil, or_false]
      omega
  | case4 a b c rest ih =>
      have := hbyte a
      have := hbyte b
      have := hbyte c
      simp only [sextets, List.mem_cons]
      rintro n (rfl | rfl | rfl | rfl | hn)
      · omega
      · omega
      · omega
      · omega
      · exact ih n hn

theorem utf8_base64UrlNoPad (bytes : List UInt8) :
    utf8 (base64UrlNoPad bytes) = (sextets bytes).map (digitByte base64UrlAlphabet) :=
  utf8_digits (by decide) (sextet_lt bytes)

theorem length_base64UrlNoPad (bytes : List UInt8) :
    (utf8 (base64UrlNoPad bytes)).length = (4 * bytes.length + 2) / 3 := by
  rw [utf8_base64UrlNoPad, List.length_map, length_sextets]

theorem mem_base64UrlNoPad {bytes : List UInt8} {b : UInt8}
    (h : b ∈ utf8 (base64UrlNoPad bytes)) : b ∈ utf8 base64UrlAlphabet := by
  rw [utf8_base64UrlNoPad] at h
  obtain ⟨n, hn, rfl⟩ := List.mem_map.mp h
  exact digitByte_mem (sextet_lt bytes n hn)

/-! ## Hexadecimal -/

def hexAlphabet : String := "0123456789abcdef"

/-- Four bits at a time. -/
def nibbles (bytes : List UInt8) : List Nat :=
  bytes.flatMap fun b => [b.toNat / 16, b.toNat % 16]

/-- Two lowercase digits for each byte. -/
def hexLower (bytes : List UInt8) : String :=
  ofAscii ((nibbles bytes).map (digitByte hexAlphabet))

theorem length_nibbles (bytes : List UInt8) : (nibbles bytes).length = 2 * bytes.length := by
  induction bytes with
  | nil => rfl
  | cons b bytes ih =>
      unfold nibbles at ih ⊢
      rw [List.flatMap_cons, List.length_append, ih]
      show 2 + 2 * bytes.length = 2 * (bytes.length + 1)
      omega

theorem nibble_lt (bytes : List UInt8) : ∀ n ∈ nibbles bytes, n < 16 := by
  intro n hn
  obtain ⟨b, -, hn⟩ := List.mem_flatMap.mp hn
  have := b.toNat_lt
  simp only [List.mem_cons, List.not_mem_nil, or_false] at hn
  omega

/-- The bytes with these halves. -/
def ofNibbles : List Nat → List UInt8
  | high :: low :: rest => UInt8.ofNat (16 * high + low) :: ofNibbles rest
  | _ => []

theorem ofNibbles_nibbles (bytes : List UInt8) : ofNibbles (nibbles bytes) = bytes := by
  induction bytes with
  | nil => rfl
  | cons b bytes ih =>
      show UInt8.ofNat (16 * (b.toNat / 16) + b.toNat % 16) :: ofNibbles (nibbles bytes) = _
      rw [ih, Nat.div_add_mod, UInt8.ofNat_toNat]

theorem nibbles_ofNibbles {digits : List Nat} (hlt : ∀ n ∈ digits, n < 16)
    (heven : digits.length % 2 = 0) : nibbles (ofNibbles digits) = digits := by
  induction digits using ofNibbles.induct with
  | case1 high low rest ih =>
      have hhigh : high < 16 := hlt high (by simp)
      have hlow : low < 16 := hlt low (by simp)
      have hrest := ih (fun n hn => hlt n (by simp [hn])) (by
        rw [List.length_cons, List.length_cons] at heven
        omega)
      have hbyte : (UInt8.ofNat (16 * high + low)).toNat = 16 * high + low := by
        rw [UInt8.toNat_ofNat']
        omega
      show (UInt8.ofNat (16 * high + low)).toNat / 16 ::
        (UInt8.ofNat (16 * high + low)).toNat % 16 :: nibbles (ofNibbles rest) = _
      rw [hrest, hbyte]
      congr 2 <;> omega
  | case2 digits hshort =>
      match digits with
      | [] => rfl
      | [_] => simp at heven
      | high :: low :: rest => exact absurd rfl (hshort high low rest)

theorem length_ofNibbles (digits : List Nat) : (ofNibbles digits).length = digits.length / 2 := by
  induction digits using ofNibbles.induct with
  | case1 high low rest ih =>
      rw [ofNibbles, List.length_cons, ih, List.length_cons, List.length_cons]
      omega
  | case2 digits hshort =>
      match digits with
      | [] => rfl
      | [_] => simp [ofNibbles]
      | high :: low :: rest => exact absurd rfl (hshort high low rest)

theorem utf8_hexLower (bytes : List UInt8) :
    utf8 (hexLower bytes) = (nibbles bytes).map (digitByte hexAlphabet) :=
  utf8_digits (by decide) (nibble_lt bytes)

theorem length_hexLower (bytes : List UInt8) :
    (utf8 (hexLower bytes)).length = 2 * bytes.length := by
  rw [utf8_hexLower, List.length_map, length_nibbles]

theorem mem_hexLower {bytes : List UInt8} {b : UInt8} (h : b ∈ utf8 (hexLower bytes)) :
    b ∈ utf8 hexAlphabet := by
  rw [utf8_hexLower] at h
  obtain ⟨n, hn, rfl⟩ := List.mem_map.mp h
  exact digitByte_mem (nibble_lt bytes n hn)

end Text
