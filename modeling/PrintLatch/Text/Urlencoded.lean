/-
  PrintLatch.Text.Urlencoded

  The fragment of a URL, and `application/x-www-form-urlencoded` as `URLSearchParams`
  reads it.

  The reader undoes two encodings, `+` and `%`.  Where neither occurs, and no `&`, one
  name and its value are read as they were written (`urlSearchParams_single`).
-/

import PrintLatch.Text.Utf8
import Mathlib.Data.List.TakeWhile

namespace Text

/-- A UTF-8 decoder; what it makes of bytes that are not UTF-8 is left open. -/
structure Utf8Decoder where
  apply : List UInt8 → String
  ascii : ∀ bytes : List UInt8, (∀ b ∈ bytes, b.toNat < 128) → apply bytes = ofAscii bytes

/-- A decoder that is right on ASCII. -/
def asciiDecoder : Utf8Decoder := ⟨ofAscii, fun _ _ => rfl⟩

/-! ## Percent-encoding -/

/-- The value of an ASCII hexadecimal digit. -/
def hexValue (b : UInt8) : Option UInt8 :=
  if 48 ≤ b ∧ b ≤ 57 then some (b - 48)
  else if 65 ≤ b ∧ b ≤ 70 then some (b - 55)
  else if 97 ≤ b ∧ b ≤ 102 then some (b - 87)
  else none

/-- A `%` that no two digits follow stays. -/
def percentDecode : List UInt8 → List UInt8
  | [] => []
  | 37 :: high :: low :: rest =>
      match hexValue high, hexValue low with
      | some h, some l => (16 * h + l) :: percentDecode rest
      | _, _ => 37 :: percentDecode (high :: low :: rest)
  | b :: rest => b :: percentDecode rest

theorem percentDecode_of_not_mem {bytes : List UInt8} (h : 37 ∉ bytes) :
    percentDecode bytes = bytes := by
  induction bytes with
  | nil => rfl
  | cons b rest ih =>
      have hb : b ≠ 37 := fun heq => h (heq ▸ List.mem_cons_self)
      rw [percentDecode.eq_3 b rest fun _ _ _ heq => absurd heq hb,
        ih fun hrest => h (List.mem_cons_of_mem _ hrest)]

/-! ## Fragments -/

/-- The fragment percent-encode set. -/
def inFragmentSet (b : UInt8) : Bool :=
  b < 0x20 ∨ 0x7E < b ∨ b = 0x20 ∨ b = 0x22 ∨ b = 0x3C ∨ b = 0x3E ∨ b = 0x60

/-- A byte of a fragment, as the URL parser writes it. -/
def encodeFragmentByte (b : UInt8) : List UInt8 :=
  if inFragmentSet b then
    let digit (n : UInt8) : UInt8 := if n < 10 then 48 + n else 55 + n
    [37, digit (b / 16), digit (b % 16)]
  else [b]

/-- `location.hash` at a URL without white space. -/
def locationHash (url : String) : String :=
  match url.toList.dropWhile (· ≠ '#') with
  | [] => ""
  | [_] => ""
  | _ :: fragment => "#" ++ ofAscii ((utf8 (String.ofList fragment)).flatMap encodeFragmentByte)

theorem flatMap_encodeFragmentByte {bytes : List UInt8}
    (h : ∀ b ∈ bytes, inFragmentSet b = false) : bytes.flatMap encodeFragmentByte = bytes := by
  induction bytes with
  | nil => rfl
  | cons b rest ih =>
      have hb : encodeFragmentByte b = [b] := by
        rw [encodeFragmentByte, h b List.mem_cons_self]
        rfl
      rw [List.flatMap_cons, hb, ih fun c hc => h c (List.mem_cons_of_mem _ hc),
        List.singleton_append]

/-- A fragment that needs no encoding is the hash. -/
theorem locationHash_append {before fragment : String} (hbefore : '#' ∉ before.toList)
    (hne : fragment ≠ "") (hplain : ∀ b ∈ utf8 fragment, inFragmentSet b = false) :
    locationHash (before ++ "#" ++ fragment) = "#" ++ fragment := by
  have hascii : ∀ b ∈ utf8 fragment, b.toNat < 128 := by
    intro b hb
    have := hplain b hb
    simp only [inFragmentSet, decide_eq_false_iff_not, not_or, UInt8.lt_iff_toNat_lt] at this
    have hle : ¬ 126 < b.toNat := this.2.1
    omega
  have hpassed : ∀ c ∈ before.toList, decide (c ≠ '#') = true :=
    fun c hc => decide_eq_true fun heq => hbefore (heq ▸ hc)
  have hdrop : (before ++ "#" ++ fragment).toList.dropWhile (· ≠ '#') = '#' :: fragment.toList := by
    rw [String.toList_append, String.toList_append, List.append_assoc,
      List.dropWhile_append_of_pos hpassed]
    rfl
  obtain ⟨c, rest, hcons⟩ : ∃ c rest, fragment.toList = c :: rest :=
    List.exists_cons_of_ne_nil fun hnil => hne (String.toList_eq_nil_iff.mp hnil)
  have hchars : String.ofList (c :: rest) = fragment := by
    rw [← hcons, String.ofList_toList]
  rw [locationHash, hdrop, hcons]
  show "#" ++ ofAscii ((utf8 (String.ofList (c :: rest))).flatMap encodeFragmentByte) = _
  rw [hchars, flatMap_encodeFragmentByte hplain, ofAscii_utf8 hascii]

/-! ## Names and values -/

/-- `+` becomes a space, then `%` is undone. -/
def decodeComponent (decoder : Utf8Decoder) (bytes : List UInt8) : String :=
  decoder.apply (percentDecode (bytes.map fun b => if b = 43 then 32 else b))

/-- A sequence between two `&`: its name before the first `=`, its value behind it. -/
def nameAndValue (decoder : Utf8Decoder) (bytes : List UInt8) : String × String :=
  (decodeComponent decoder (bytes.takeWhile (· ≠ 61)),
    decodeComponent decoder ((bytes.dropWhile (· ≠ 61)).drop 1))

/-- The `application/x-www-form-urlencoded` parser. -/
def parseUrlencoded (decoder : Utf8Decoder) (bytes : List UInt8) : List (String × String) :=
  ((bytes.splitOn 38).filter (· ≠ [])).map (nameAndValue decoder)

/-- `new URLSearchParams(init)`, without a leading `?`. -/
def urlSearchParams (decoder : Utf8Decoder) (init : String) : List (String × String) :=
  match init.toList with
  | '?' :: rest => parseUrlencoded decoder (utf8 (String.ofList rest))
  | _ => parseUrlencoded decoder (utf8 init)

/-- `URLSearchParams.get`. -/
def getParam (params : List (String × String)) (name : String) : Option String :=
  (params.find? fun param => param.1 = name).map (·.2)

/-- Bytes that the reader leaves as they are. -/
def Literal (bytes : List UInt8) : Prop :=
  ∀ b ∈ bytes, b.toNat < 128 ∧ b ≠ 37 ∧ b ≠ 38 ∧ b ≠ 43

instance (bytes : List UInt8) : Decidable (Literal bytes) :=
  decidable_of_iff (bytes.all fun b => b.toNat < 128 ∧ b ≠ 37 ∧ b ≠ 38 ∧ b ≠ 43)
    (by simp [Literal])

theorem decodeComponent_literal (decoder : Utf8Decoder) {text : String}
    (h : Literal (utf8 text)) : decodeComponent decoder (utf8 text) = text := by
  have hplus : (utf8 text).map (fun b => if b = 43 then 32 else b) = utf8 text := by
    refine (List.map_congr_left fun b hb => ?_).trans (List.map_id _)
    exact if_neg (h b hb).2.2.2
  have hpercent : 37 ∉ utf8 text := fun hmem => (h 37 hmem).2.1 rfl
  have hascii : ∀ b ∈ utf8 text, b.toNat < 128 := fun b hb => (h b hb).1
  rw [decodeComponent, hplus, percentDecode_of_not_mem hpercent, decoder.ascii _ hascii,
    ofAscii_utf8 hascii]

/-- What does not begin with `?` is read as it is. -/
theorem urlSearchParams_eq (decoder : Utf8Decoder) {init : String}
    (hquery : init.toList.head? ≠ some '?') :
    urlSearchParams decoder init = parseUrlencoded decoder (utf8 init) := by
  unfold urlSearchParams
  split
  · next rest hchars => exact absurd (congrArg List.head? hchars) hquery
  · rfl

/-- Without `&` there is one sequence. -/
theorem parseUrlencoded_single (decoder : Utf8Decoder) {bytes : List UInt8} (hne : bytes ≠ [])
    (hsingle : 38 ∉ bytes) : parseUrlencoded decoder bytes = [nameAndValue decoder bytes] := by
  rw [parseUrlencoded, List.splitOn_eq_singleton hsingle, List.filter_cons_of_pos (by simp [hne]),
    List.filter_nil, List.map_singleton]

section

variable {name : String} (hname : Literal (utf8 name)) (hequals : 61 ∉ utf8 name)

include hname hequals

/-- A name alone has an empty value. -/
theorem nameAndValue_name (decoder : Utf8Decoder) :
    nameAndValue decoder (utf8 name) = (name, "") := by
  have hbefore : ∀ b ∈ utf8 name, decide (b ≠ 61) = true :=
    fun b hb => decide_eq_true fun heq => hequals (heq ▸ hb)
  have hempty : decodeComponent decoder (utf8 "") = "" :=
    decodeComponent_literal decoder fun _ hb => absurd hb List.not_mem_nil
  rw [nameAndValue, List.takeWhile_eq_self_iff.mpr hbefore, List.dropWhile_eq_nil_iff.mpr hbefore,
    decodeComponent_literal decoder hname]
  exact congrArg (Prod.mk name) hempty

/-- A name and its value are read as they were written. -/
theorem nameAndValue_append (decoder : Utf8Decoder) {value : String}
    (hvalue : Literal (utf8 value)) :
    nameAndValue decoder (utf8 (name ++ "=" ++ value)) = (name, value) := by
  have hbytes : utf8 (name ++ "=" ++ value) = utf8 name ++ 61 :: utf8 value := by
    rw [utf8_append, utf8_append, List.append_assoc]
    rfl
  have hbefore : ∀ b ∈ utf8 name, decide (b ≠ 61) = true :=
    fun b hb => decide_eq_true fun heq => hequals (heq ▸ hb)
  rw [hbytes, nameAndValue, List.takeWhile_append_of_pos hbefore,
    List.dropWhile_append_of_pos hbefore]
  show (decodeComponent decoder (utf8 name ++ []), decodeComponent decoder (utf8 value)) = _
  rw [List.append_nil, decodeComponent_literal decoder hname,
    decodeComponent_literal decoder hvalue]

/-- One name and its value. -/
theorem urlSearchParams_single (decoder : Utf8Decoder) {value : String}
    (hquery : (name ++ "=" ++ value).toList.head? ≠ some '?') (hvalue : Literal (utf8 value)) :
    urlSearchParams decoder (name ++ "=" ++ value) = [(name, value)] := by
  have hne : utf8 (name ++ "=" ++ value) ≠ [] := by
    rw [utf8_append, utf8_append]
    exact List.append_ne_nil_of_left_ne_nil
      (List.append_ne_nil_of_right_ne_nil _ (List.cons_ne_nil _ _)) _
  have hsingle : 38 ∉ utf8 (name ++ "=" ++ value) := by
    rw [utf8_append, utf8_append]
    intro hmem
    rcases List.mem_append.mp hmem with hmem | hmem
    · rcases List.mem_append.mp hmem with hmem | hmem
      · exact (hname 38 hmem).2.2.1 rfl
      · exact absurd hmem (by decide)
    · exact (hvalue 38 hmem).2.2.1 rfl
  rw [urlSearchParams_eq decoder hquery, parseUrlencoded_single decoder hne hsingle,
    nameAndValue_append hname hequals decoder hvalue]

/-- One name alone. -/
theorem urlSearchParams_name (decoder : Utf8Decoder) (hne : utf8 name ≠ [])
    (hquery : name.toList.head? ≠ some '?') : urlSearchParams decoder name = [(name, "")] := by
  rw [urlSearchParams_eq decoder hquery,
    parseUrlencoded_single decoder hne fun hmem => (hname 38 hmem).2.2.1 rfl,
    nameAndValue_name hname hequals decoder]

end

end Text
