/-
  PrintLatch.Ui.PairingCode

  A pairing code on its way from `format_pairing_code` (`src/auth.rs`) to the request of
  `POST /v1/pair`: in the fragment of the page that `dashboard` opens
  (`pairingCodeFromHash` in `ui/model.js`, `start`, `codeFromFragment` and
  `pairFromFragment` in `ui/app.js`), or typed (`pair`).

  The encoder writes the digits of the bytes in groups (`dashed`), and the check of the
  page takes the same groups apart; so the two meet in the digits.
-/

import PrintLatch.Dashboard.Handshake
import PrintLatch.Text.Casing
import PrintLatch.Text.Encoding
import PrintLatch.Text.Host
import PrintLatch.Text.Urlencoded
import Mathlib.Tactic.IntervalCases

namespace PrintLatch

open Text

/-- `PairRequest`, the body of `POST /v1/pair`. -/
structure PairRequest where
  code : String
  deriving DecidableEq, Repr

namespace Ui

/-! ## The check of the page -/

/-- `[A-F0-9]`. -/
def codeDigit (c : Char) : Bool :=
  (65 ≤ c.toNat ∧ c.toNat ≤ 70) ∨ (48 ≤ c.toNat ∧ c.toNat ≤ 57)

/-- `[A-F0-9]{8}`, with what is behind it. -/
def codeGroup (text : List Char) : Option (List Char) :=
  if (text.take 8).length = 8 ∧ (text.take 8).all codeDigit then some (text.drop 8) else none

/-- `(?:[A-F0-9]{8}-){n}[A-F0-9]{8}$`. -/
def codeGroups : Nat → List Char → Bool
  | 0, text => codeGroup text = some []
  | n + 1, text =>
      match codeGroup text with
      | some ('-' :: rest) => codeGroups n rest
      | _ => false

/-- `/^PL-(?:[A-F0-9]{8}-){3}[A-F0-9]{8}$/`. -/
def validPairingCode : List Char → Bool
  | 'P' :: 'L' :: '-' :: rest => codeGroups 3 rest
  | _ => false

/-- `pair`, up to its request. -/
def pair (toUpperCase : UpperCase) (code : String) : Except String PairRequest :=
  let normalized := toUpperCase.apply (trim code.toList)
  if validPairingCode normalized then .ok ⟨String.ofList normalized⟩
  else .error "Enter the complete PrintLatch pairing code."

/-! ## The fragment -/

/-- `pairingCodeFromHash`. -/
def pairingCodeFromHash (decoder : Utf8Decoder) (hash : String) : Option String :=
  let init :=
    match hash.toList with
    | '#' :: rest => String.ofList rest
    | _ => hash
  getParam (urlSearchParams decoder init) "code"

/-- The page as far as pairing reads it. -/
structure PairingPage where
  /-- `window.location.hash`. -/
  hash : String
  pendingPairingCode : Option String
  pairingInProgress : Bool
  deriving DecidableEq, Repr

/-- A string that is there, and is not empty. -/
def truthy (value : Option String) : Bool := value.getD "" ≠ ""

/-- The keys of `VIEW_TITLES`. -/
def views : List String := ["overview", "jobs", "integrate", "about"]

namespace PairingPage

/-- A page that was just loaded. -/
def loaded (hash : String) : PairingPage := ⟨hash, none, false⟩

/-- What `navigate` does to the address. -/
def navigate (page : PairingPage) (view : String) : PairingPage :=
  { page with hash := "#" ++ (if view ∈ views then view else "overview") }

section

variable (toUpperCase : UpperCase) (decoder : Utf8Decoder)

/-- `codeFromFragment`. -/
def codeFromFragment (page : PairingPage) : PairingPage × Option String :=
  let code := pairingCodeFromHash decoder page.hash
  let page := if truthy code then { page with hash := "", pendingPairingCode := code } else page
  (page, page.pendingPairingCode)

/-- `pairFromFragment`, up to its request. -/
def pairFromFragment (page : PairingPage) :
    PairingPage × Option (Except String PairRequest) :=
  let (page, fragmentCode) := page.codeFromFragment decoder
  if !truthy fragmentCode || page.pairingInProgress then (page, none)
  else ({ page with pairingInProgress := true }, some (pair toUpperCase (fragmentCode.getD "")))

/-- `refreshAll` on a healthy agent, up to the request of `pair`. -/
def refreshAll (page : PairingPage) : PairingPage × Option (Except String PairRequest) :=
  let (page, code) := page.codeFromFragment decoder
  if truthy code then page.pairFromFragment toUpperCase decoder else (page, none)

/-- `start` on a healthy agent, up to the request of `pair`. -/
def start (page : PairingPage) : PairingPage × Option (Except String PairRequest) :=
  let intendedView := String.ofList (page.hash.toList.drop 1)
  let (page, _) := page.codeFromFragment decoder
  (page.navigate intendedView).refreshAll toUpperCase decoder

end

end PairingPage

/-! ## Digits -/

/-- The value of a digit. -/
def codeDigitValue (c : Char) : Option Nat := "0123456789ABCDEF".toList.idxOf? c

theorem hexDigit_valid {n : Nat} (h : n < 16) :
    codeDigit (hexDigit n) = true ∧ codeDigitValue (hexDigit n) = some n := by
  interval_cases n <;> decide

theorem exists_hexDigit {c : Char} (h : codeDigit c = true) : ∃ n < 16, hexDigit n = c := by
  have hlt : c.toNat < 71 := by
    simp only [codeDigit, decide_eq_true_eq] at h
    omega
  have hall : codeDigit c = true → ∃ n < 16, hexDigit n = c :=
    forall_code_lt (P := fun c => codeDigit c = true → ∃ n < 16, hexDigit n = c)
      (by decide +kernel) hlt
  exact hall h

theorem codeDigit_ne_dash {c : Char} (h : codeDigit c = true) : c ≠ '-' := by
  rintro rfl
  exact absurd h (by decide)

/-- Digits are those of values. -/
theorem exists_map_hexDigit {digits : List Char} (h : ∀ c ∈ digits, codeDigit c = true) :
    ∃ values : List Nat, (∀ n ∈ values, n < 16) ∧ values.map hexDigit = digits := by
  induction digits with
  | nil => exact ⟨[], fun _ hn => absurd hn List.not_mem_nil, rfl⟩
  | cons c rest ih =>
      obtain ⟨n, hn, hc⟩ := exists_hexDigit (h c List.mem_cons_self)
      obtain ⟨values, hvalues, hrest⟩ := ih fun d hd => h d (List.mem_cons_of_mem _ hd)
      refine ⟨n :: values, fun m hm => ?_, by rw [List.map_cons, hc, hrest]⟩
      rcases List.mem_cons.mp hm with rfl | hm
      · exact hn
      · exact hvalues m hm

theorem mapM_codeDigitValue {values : List Nat} (h : ∀ n ∈ values, n < 16) :
    (values.map hexDigit).mapM codeDigitValue = some values := by
  induction values with
  | nil => rfl
  | cons n rest ih =>
      rw [List.map_cons, List.mapM_cons, (hexDigit_valid (h n List.mem_cons_self)).2,
        ih fun m hm => h m (List.mem_cons_of_mem _ hm)]
      rfl

/-! ## Groups -/

/-- `n + 1` groups of eight digits, with dashes between them. -/
def dashed : Nat → List Char → List Char
  | 0, digits => digits.take 8
  | n + 1, digits => digits.take 8 ++ '-' :: dashed n (digits.drop 8)

theorem codeGroup_eq_some {text rest : List Char} :
    codeGroup text = some rest ↔
      ∃ group : List Char, group.length = 8 ∧ (∀ c ∈ group, codeDigit c = true) ∧
        text = group ++ rest := by
  unfold codeGroup
  constructor
  · intro h
    split at h
    · next hgroup =>
        cases h
        exact ⟨text.take 8, hgroup.1, List.all_eq_true.mp hgroup.2,
          (List.take_append_drop 8 text).symm⟩
    · cases h
  · rintro ⟨group, hlen, hdigits, rfl⟩
    have htake : (group ++ rest).take 8 = group := List.take_left' hlen
    rw [htake, if_pos ⟨hlen, List.all_eq_true.mpr hdigits⟩, List.drop_left' hlen]

/-- The check accepts digits with dashes between their groups, and nothing else. -/
theorem codeGroups_iff (n : Nat) (text : List Char) :
    codeGroups n text = true ↔
      ∃ digits : List Char, digits.length = 8 * (n + 1) ∧ (∀ c ∈ digits, codeDigit c = true) ∧
        text = dashed n digits := by
  induction n generalizing text with
  | zero =>
      simp only [codeGroups, decide_eq_true_eq, codeGroup_eq_some, List.append_nil]
      constructor
      · rintro ⟨group, hlen, hdigits, rfl⟩
        exact ⟨text, hlen, hdigits, (List.take_of_length_le hlen.le).symm⟩
      · rintro ⟨digits, hlen, hdigits, rfl⟩
        have hall : digits.take 8 = digits := List.take_of_length_le hlen.le
        exact ⟨digits, hlen, hdigits, hall⟩
  | succ n ih =>
      constructor
      · intro h
        rw [codeGroups] at h
        split at h
        · next rest hgroup =>
            obtain ⟨group, hlen, hdigits, rfl⟩ := codeGroup_eq_some.mp hgroup
            obtain ⟨digits, hrestlen, hrest, rfl⟩ := (ih rest).mp h
            refine ⟨group ++ digits, ?_, ?_, ?_⟩
            · rw [List.length_append, hlen, hrestlen]
              omega
            · intro c hc
              exact (List.mem_append.mp hc).elim (hdigits c) (hrest c)
            · rw [dashed, List.take_left' hlen, List.drop_left' hlen]
        · cases h
      · rintro ⟨digits, hlen, hdigits, rfl⟩
        have hgroup : codeGroup (dashed (n + 1) digits) = some ('-' :: dashed n (digits.drop 8)) :=
          codeGroup_eq_some.mpr ⟨digits.take 8, by rw [List.length_take]; omega,
            fun c hc => hdigits c (List.mem_of_mem_take hc), rfl⟩
        rw [codeGroups, hgroup]
        exact (ih _).mpr ⟨digits.drop 8, by rw [List.length_drop]; omega,
          fun c hc => hdigits c (List.mem_of_mem_drop hc), rfl⟩

theorem validPairingCode_iff (text : List Char) :
    validPairingCode text = true ↔
      ∃ digits : List Char, digits.length = 32 ∧ (∀ c ∈ digits, codeDigit c = true) ∧
        text = 'P' :: 'L' :: '-' :: dashed 3 digits := by
  unfold validPairingCode
  split
  · next rest =>
      rw [codeGroups_iff]
      simp only [List.cons.injEq, true_and]
  · next hother =>
      constructor
      · intro h
        cases h
      · rintro ⟨digits, -, -, rfl⟩
        exact absurd rfl (hother _)

/-- Without the dashes there are the digits. -/
theorem filter_dashed {n : Nat} {digits : List Char} (hlen : digits.length = 8 * (n + 1))
    (hdigits : ∀ c ∈ digits, c ≠ '-') : (dashed n digits).filter (· ≠ '-') = digits := by
  have hkept : ∀ l : List Char, (∀ c ∈ l, c ≠ '-') → l.filter (· ≠ '-') = l :=
    fun l hl => List.filter_eq_self.mpr fun c hc => decide_eq_true (hl c hc)
  induction n generalizing digits with
  | zero => rw [dashed, List.take_of_length_le hlen.le, hkept _ hdigits]
  | succ n ih =>
      have hrest := @ih (digits.drop 8) (by rw [List.length_drop]; omega)
        fun c hc => hdigits c (List.mem_of_mem_drop hc)
      rw [dashed, List.filter_append, hkept _ fun c hc => hdigits c (List.mem_of_mem_take hc),
        List.filter_cons_of_neg (by decide), hrest, List.take_append_drop]

theorem mem_dashed {n : Nat} {digits : List Char} {c : Char} (h : c ∈ dashed n digits) :
    c ∈ digits ∨ c = '-' := by
  induction n generalizing digits with
  | zero => exact Or.inl (List.mem_of_mem_take h)
  | succ n ih =>
      rcases List.mem_append.mp h with h | h
      · exact Or.inl (List.mem_of_mem_take h)
      · rcases List.mem_cons.mp h with h | h
        · exact Or.inr h
        · exact (ih h).imp_left List.mem_of_mem_drop

/-! ## Codes and bytes -/

/-- The bytes that the digits of a code stand for. -/
def decodePairingCode (code : String) : Option (List UInt8) :=
  (((code.toList.drop 3).filter (· ≠ '-')).mapM codeDigitValue).map ofNibbles

theorem toList_formatPairingCode (b : List UInt8) :
    (formatPairingCode b).toList =
      'P' :: 'L' :: '-' :: dashed 3 ((nibbles b).map hexDigit) := by
  have hencoded : (nibbles b).map hexDigit =
      b.flatMap fun b => [hexDigit (b.toNat / 16), hexDigit (b.toNat % 16)] := by
    unfold nibbles
    rw [List.map_flatMap]
    rfl
  have htext : ∀ s : String, toString s = s := fun _ => rfl
  rw [hencoded]
  simp [formatPairingCode, dashed, List.drop_drop, htext]

section

variable {b : List UInt8} (hb : b.length = 16)

include hb

/-- The digits of sixteen bytes. -/
theorem codeDigits : ((nibbles b).map hexDigit).length = 32 ∧
    ∀ c ∈ (nibbles b).map hexDigit, codeDigit c = true := by
  refine ⟨by rw [List.length_map, length_nibbles, hb], fun c hc => ?_⟩
  obtain ⟨n, hn, rfl⟩ := List.mem_map.mp hc
  exact (hexDigit_valid (nibble_lt b n hn)).1

theorem validPairingCode_formatPairingCode :
    validPairingCode (formatPairingCode b).toList = true :=
  (validPairingCode_iff _).mpr ⟨_, (codeDigits hb).1, (codeDigits hb).2, toList_formatPairingCode b⟩

/-- A code names its bytes. -/
theorem decodePairingCode_formatPairingCode :
    decodePairingCode (formatPairingCode b) = some b := by
  have hdigits : ((formatPairingCode b).toList.drop 3).filter (· ≠ '-') =
      (nibbles b).map hexDigit := by
    rw [toList_formatPairingCode]
    exact filter_dashed (codeDigits hb).1 fun c hc => codeDigit_ne_dash ((codeDigits hb).2 c hc)
  rw [decodePairingCode, hdigits, mapM_codeDigitValue (nibble_lt b), Option.map_some,
    ofNibbles_nibbles]

end

/-- What the check accepts is the code of some bytes, and of no others. -/
theorem existsUnique_formatPairingCode {text : List Char} (h : validPairingCode text = true) :
    ∃! b : List UInt8, b.length = 16 ∧ (formatPairingCode b).toList = text := by
  obtain ⟨digits, hlen, hdigits, rfl⟩ := (validPairingCode_iff text).mp h
  obtain ⟨values, hvalues, rfl⟩ := exists_map_hexDigit hdigits
  rw [List.length_map] at hlen
  have hread : nibbles (ofNibbles values) = values :=
    nibbles_ofNibbles hvalues (by rw [hlen])
  refine ⟨ofNibbles values, ⟨by rw [length_ofNibbles, hlen], ?_⟩, ?_⟩
  · rw [toList_formatPairingCode, hread]
  · rintro b ⟨hb, htext⟩
    rw [← hread, ← toList_formatPairingCode, String.toList_inj] at htext
    have hb' : (ofNibbles values).length = 16 := by rw [length_ofNibbles, hlen]
    have hsame : some b = some (ofNibbles values) := by
      rw [← decodePairingCode_formatPairingCode hb,
        ← decodePairingCode_formatPairingCode hb', htext]
    exact Option.some.inj hsame

/-! ## What a code is made of -/

/-- The characters of a code. -/
def codeChar (c : Char) : Bool := codeDigit c || c = 'P' || c = 'L' || c = '-'

/-- They are capitals, `trim` leaves them, and so do a fragment and its reader. -/
theorem codeChar_stable {c : Char} (h : codeChar c = true) :
    c.toNat < 128 ∧ c.toUpper = c ∧ whiteSpace c = false ∧
      inFragmentSet (UInt8.ofNat c.toNat) = false ∧ c.toNat ≠ 37 ∧ c.toNat ≠ 38 ∧ c.toNat ≠ 43 := by
  have hlt : c.toNat < 128 := by
    simp only [codeChar, codeDigit, Bool.or_eq_true, decide_eq_true_eq] at h
    rcases h with ((h | rfl) | rfl) | rfl
    · omega
    · decide
    · decide
    · decide
  have hall : codeChar c = true → c.toUpper = c ∧ whiteSpace c = false ∧
      inFragmentSet (UInt8.ofNat c.toNat) = false ∧ c.toNat ≠ 37 ∧ c.toNat ≠ 38 ∧ c.toNat ≠ 43 :=
    forall_code_lt (P := fun c => codeChar c = true → c.toUpper = c ∧ whiteSpace c = false ∧
        inFragmentSet (UInt8.ofNat c.toNat) = false ∧ c.toNat ≠ 37 ∧ c.toNat ≠ 38 ∧ c.toNat ≠ 43)
      (by decide +kernel) hlt
  exact ⟨hlt, hall h⟩

section

variable {b : List UInt8} (hb : b.length = 16)

include hb

theorem codeChar_of_mem {c : Char} (hc : c ∈ (formatPairingCode b).toList) :
    codeChar c = true := by
  rw [toList_formatPairingCode] at hc
  rcases List.mem_cons.mp hc with rfl | hc
  · rfl
  rcases List.mem_cons.mp hc with rfl | hc
  · rfl
  rcases List.mem_cons.mp hc with rfl | hc
  · rfl
  rcases mem_dashed hc with hdigit | rfl
  · simp [codeChar, (codeDigits hb).2 c hdigit]
  · rfl

theorem ascii_formatPairingCode : Ascii (formatPairingCode b).toList :=
  fun _ hc => (codeChar_stable (codeChar_of_mem hb hc)).1

/-- The bytes of a code are those of its characters. -/
theorem codeByte_stable {byte : UInt8} (hbyte : byte ∈ utf8 (formatPairingCode b)) :
    byte.toNat < 128 ∧ inFragmentSet byte = false ∧ byte ≠ 37 ∧ byte ≠ 38 ∧ byte ≠ 43 := by
  obtain ⟨c, hc, hcode⟩ := code_of_mem_utf8 (ascii_formatPairingCode hb) hbyte
  obtain ⟨hlt, -, -, hfragment, h37, h38, h43⟩ := codeChar_stable (codeChar_of_mem hb hc)
  rw [hcode, UInt8.ofNat_toNat] at hfragment
  rw [hcode] at hlt h37 h38 h43
  refine ⟨hlt, hfragment, ?_, ?_, ?_⟩
  · rintro rfl
    exact h37 rfl
  · rintro rfl
    exact h38 rfl
  · rintro rfl
    exact h43 rfl

/-! ## From the keyboard -/

/-- White space around a code, and the case of its letters, do not matter. -/
theorem pair_typed (toUpperCase : UpperCase) {before typed after : List Char}
    (hbefore : Blank before) (hafter : Blank after)
    (htyped : SameUpToCase typed (formatPairingCode b).toList) :
    pair toUpperCase (String.ofList (before ++ typed ++ after)) = .ok ⟨formatPairingCode b⟩ := by
  have hsolid := whiteSpace_sameUpToCase (ascii_formatPairingCode hb)
    (fun c hc => (codeChar_stable (codeChar_of_mem hb hc)).2.2.1) htyped
  have hupper := toUpperCase.apply_sameUpToCase (ascii_formatPairingCode hb)
    (fun c hc => (codeChar_stable (codeChar_of_mem hb hc)).2.1) htyped
  have hnormalized : toUpperCase.apply (trim (String.ofList (before ++ typed ++ after)).toList) =
      (formatPairingCode b).toList := by
    rw [String.toList_ofList, trim_surrounded hbefore hafter hsolid, hupper]
  unfold pair
  rw [hnormalized, if_pos (validPairingCode_formatPairingCode hb), String.ofList_toList]

/-- A code passes as it is. -/
theorem pair_formatPairingCode (toUpperCase : UpperCase) :
    pair toUpperCase (formatPairingCode b) = .ok ⟨formatPairingCode b⟩ := by
  have hsame : SameUpToCase (formatPairingCode b).toList (formatPairingCode b).toList :=
    List.forall₂_same.mpr fun _ _ => Or.inl rfl
  have hnone : Blank [] := fun _ hc => absurd hc List.not_mem_nil
  have hpair := pair_typed hb toUpperCase hnone hnone hsame
  rwa [List.nil_append, List.append_nil, String.ofList_toList] at hpair

/-! ## From the fragment -/

/-- The hash of the page that `dashboard` opens. -/
theorem locationHash_dashboard (port : Nat) :
    locationHash s!"http://127.0.0.1:{port}/app/#code={formatPairingCode b}" =
      "#code=" ++ formatPairingCode b := by
  have htext : ∀ s : String, toString s = s := fun _ => rfl
  have hbefore : '#' ∉ s!"http://127.0.0.1:{port}/app/".toList := by
    have hport : '#' ∉ Nat.toDigits 10 port := fun hmem =>
      absurd (isDigit_of_mem_toDigits hmem) (by decide)
    simp [htext, String.toList_append, hport]
  have hplain : ∀ byte ∈ utf8 ("code=" ++ formatPairingCode b), inFragmentSet byte = false := by
    intro byte hbyte
    rw [utf8_append] at hbyte
    rcases List.mem_append.mp hbyte with hbyte | hbyte
    · have hname : (utf8 "code=").all (fun c => !inFragmentSet c) = true := by decide
      simpa using List.all_eq_true.mp hname byte hbyte
    · exact (codeByte_stable hb hbyte).2.1
  have hurl : s!"http://127.0.0.1:{port}/app/#code={formatPairingCode b}" =
      s!"http://127.0.0.1:{port}/app/" ++ "#" ++ ("code=" ++ formatPairingCode b) :=
    String.toList_inj.mp (by simp [htext, String.toList_append])
  rw [hurl, locationHash_append hbefore (by simp) hplain, ← String.append_assoc]
  rfl

theorem pairingCodeFromHash_code (decoder : Utf8Decoder) :
    pairingCodeFromHash decoder ("#code=" ++ formatPairingCode b) = some (formatPairingCode b) := by
  have hliteral : Literal (utf8 (formatPairingCode b)) := fun byte hbyte => by
    obtain ⟨hlt, -, h37, h38, h43⟩ := codeByte_stable hb hbyte
    exact ⟨hlt, h37, h38, h43⟩
  have hname : Literal (utf8 "code") := by decide
  have hinit : ("#code=" ++ formatPairingCode b).toList =
      '#' :: ("code" ++ "=" ++ formatPairingCode b).toList := by
    simp [String.toList_append]
  unfold pairingCodeFromHash
  rw [hinit]
  show getParam (urlSearchParams decoder (String.ofList _)) "code" = _
  rw [String.ofList_toList,
    urlSearchParams_single hname (by decide) decoder (by simp [String.toList_append]) hliteral]
  rfl

end

/-- The hash of a view has no code. -/
theorem pairingCodeFromHash_view (decoder : Utf8Decoder) {view : String} (h : view ∈ views) :
    pairingCodeFromHash decoder ("#" ++ view) = none := by
  have hviews : ∀ v ∈ views, Literal (utf8 v) ∧ 61 ∉ utf8 v ∧ utf8 v ≠ [] ∧
      v.toList.head? ≠ some '?' ∧ v ≠ "code" := by decide
  obtain ⟨hliteral, hequals, hne, hquery, hother⟩ := hviews view h
  unfold pairingCodeFromHash
  rw [String.toList_append]
  show getParam (urlSearchParams decoder (String.ofList view.toList)) "code" = none
  rw [String.ofList_toList, urlSearchParams_name hliteral hequals decoder hne hquery]
  simp [getParam, hother]

/-- The page that `dashboard` opens sends the code that was granted. -/
theorem start_dashboard (toUpperCase : UpperCase) (decoder : Utf8Decoder) {b : List UInt8}
    (hb : b.length = 16) :
    ((PairingPage.loaded ("#code=" ++ formatPairingCode b)).start toUpperCase decoder).2 =
      some (.ok ⟨formatPairingCode b⟩) := by
  have hsome : truthy (some (formatPairingCode b)) = true := by
    have hne : formatPairingCode b ≠ "" := fun heq => by
      have hlist := toList_formatPairingCode b
      rw [heq] at hlist
      cases hlist
    simp [truthy, hne]
  -- the first reading takes the code out of the address
  have hread : (PairingPage.loaded ("#code=" ++ formatPairingCode b)).codeFromFragment decoder =
      (⟨"", some (formatPairingCode b), false⟩, some (formatPairingCode b)) := by
    simp [PairingPage.codeFromFragment, PairingPage.loaded, pairingCodeFromHash_code hb, hsome]
  -- later ones find a view there, and the code that was kept
  have hkept : ∀ view : String,
      PairingPage.codeFromFragment decoder
          (PairingPage.navigate ⟨"", some (formatPairingCode b), false⟩ view) =
        (PairingPage.navigate ⟨"", some (formatPairingCode b), false⟩ view,
          some (formatPairingCode b)) := by
    intro view
    have hview : (if view ∈ views then view else "overview") ∈ views := by
      split
      · assumption
      · decide
    simp [PairingPage.codeFromFragment, PairingPage.navigate,
      pairingCodeFromHash_view decoder hview, truthy]
  unfold PairingPage.start
  rw [hread]
  show (PairingPage.refreshAll toUpperCase decoder (PairingPage.navigate _ _)).2 = _
  rw [PairingPage.refreshAll, hkept]
  show (if truthy (some (formatPairingCode b)) = true then _ else _ : PairingPage × _).2 = _
  rw [if_pos hsome, PairingPage.pairFromFragment, hkept]
  simp [hsome, PairingPage.navigate, pair_formatPairingCode hb]

/-! ## The way of a code -/

/-- The row of a grant; its key is the digest of the code in the request. -/
def StoredFor (sha256Hex : List UInt8 → String) (db : Database) (grant : PairingGrant)
    (request : PairRequest) : Prop :=
  ∃ row, db.pairingCode? (hashSecret sha256Hex request.code) = some row ∧
    row.codeHash = hashSecret sha256Hex request.code ∧ row.origin = grant.origin ∧
    row.expiresAt = grant.expiresAt ∧ row.consumedAt = none

theorem storedFor_grant {parse : String → Option Url} {sha256Hex : List UInt8 → String}
    {db db' : Database} {origin name : String} {session : Option String} {reuse : Bool}
    {b : List UInt8} {clock now : Int} {grant : PairingGrant}
    (h : newPairingGrantForSession parse sha256Hex db origin name session reuse b clock now =
      .ok (db', grant)) : StoredFor sha256Hex db' grant ⟨formatPairingCode b⟩ := by
  obtain ⟨hcode, hins⟩ := newPairingGrantForSession_ok parse sha256Hex h
  have hrow := Database.insertPairingCode_ok hins (hashSecret sha256Hex (formatPairingCode b))
  rw [hcode, if_pos rfl] at hrow
  exact ⟨_, hrow, rfl, rfl, rfl, rfl⟩

theorem dashboardPage_ok {parse : String → Option Url} {sha256Hex : List UInt8 → String}
    {db db' : Database} {port : Nat} {session : String} {b : List UInt8} {clock now : Int}
    {url : String}
    (h : dashboardPage parse sha256Hex db port session b clock now = .ok (db', url)) :
    url = s!"http://127.0.0.1:{port}/app/#code={formatPairingCode b}" ∧
      ∃ grant, newPairingGrantForSession parse sha256Hex db s!"http://127.0.0.1:{port}"
        "PrintLatch dashboard" (some session) true b clock now = .ok (db', grant) := by
  unfold dashboardPage at h
  dsimp only at h
  split at h
  · cases h
  · next db'' grant hgrant =>
      cases h
      unfold newDashboardPairingGrant at hgrant
      split at hgrant
      · rw [(newPairingGrantForSession_ok parse sha256Hex hgrant).1]
        exact ⟨rfl, grant, hgrant⟩
      · cases hgrant

/-- A pairing code names its bytes.  Typed, in any case and among white space, and read from
    the page that `dashboard` opens, it passes the check and is sent as it was granted; and
    what the check accepts is the code of one value. -/
theorem pairing_code_survives (toUpperCase : UpperCase) (decoder : Utf8Decoder)
    (parse : String → Option Url) (sha256Hex : List UInt8 → String) :
    (∀ b : List UInt8, b.length = 16 →
      decodePairingCode (formatPairingCode b) = some b ∧
      (∀ db db' origin name session reuse clock now grant,
        newPairingGrantForSession parse sha256Hex db origin name session reuse b clock now =
          .ok (db', grant) →
        ∀ before typed after, Blank before → Blank after →
          SameUpToCase typed grant.code.toList →
          ∃ request, pair toUpperCase (String.ofList (before ++ typed ++ after)) = .ok request ∧
            request.code = formatPairingCode b ∧ StoredFor sha256Hex db' grant request) ∧
      ∀ db db' port session clock now url,
        dashboardPage parse sha256Hex db port session b clock now = .ok (db', url) →
        ∃ grant request,
          newPairingGrantForSession parse sha256Hex db s!"http://127.0.0.1:{port}"
            "PrintLatch dashboard" (some session) true b clock now = .ok (db', grant) ∧
          pairingCodeFromHash decoder (locationHash url) = some (formatPairingCode b) ∧
          ((PairingPage.loaded (locationHash url)).start toUpperCase decoder).2 =
            some (.ok request) ∧
          request.code = formatPairingCode b ∧ StoredFor sha256Hex db' grant request) ∧
    ∀ text, validPairingCode text = true →
      ∃! b : List UInt8, b.length = 16 ∧ (formatPairingCode b).toList = text := by
  refine ⟨fun b hb => ⟨decodePairingCode_formatPairingCode hb, ?_, ?_⟩,
    fun text htext => existsUnique_formatPairingCode htext⟩
  · intro db db' origin name session reuse clock now grant hgrant before typed after hbefore
      hafter htyped
    rw [(newPairingGrantForSession_ok parse sha256Hex hgrant).1] at htyped
    exact ⟨⟨formatPairingCode b⟩, pair_typed hb toUpperCase hbefore hafter htyped, rfl,
      storedFor_grant hgrant⟩
  · intro db db' port session clock now url hpage
    obtain ⟨rfl, grant, hgrant⟩ := dashboardPage_ok hpage
    have hhash := locationHash_dashboard hb port
    refine ⟨grant, ⟨formatPairingCode b⟩, hgrant, ?_, ?_, rfl, storedFor_grant hgrant⟩
    · rw [hhash, pairingCodeFromHash_code hb]
    · rw [hhash, start_dashboard toUpperCase decoder hb]

/-- The tables once the dashboard's code was granted. -/
def exampleDashboardGranted : Database :=
  { Database.fresh with
    pairingCodes := ⟨[⟨hashSecret exampleCodeDigest exampleCode, "http://127.0.0.1:32191",
      "PrintLatch dashboard", 300, none, some exampleSession, true⟩], by simp⟩ }

theorem pairing_code_survives_example :
    let grant : PairingGrant := ⟨exampleCode, "http://127.0.0.1:32191", 300⟩
    decodePairingCode exampleCode = some exampleCodeBytes ∧
      (∃ request,
        pair asciiUpper "\t pl-00010203-04050607-08090a0b-0c0D0E0F\u00A0\n" = .ok request ∧
        request.code = exampleCode ∧
        StoredFor exampleCodeDigest exampleDashboardGranted grant request) ∧
      (∃ request,
        ((PairingPage.loaded (locationHash exampleDashboardPage)).start asciiUpper
          asciiDecoder).2 = some (.ok request) ∧ request.code = exampleCode) ∧
      ∃! b : List UInt8, b.length = 16 ∧ (formatPairingCode b).toList = exampleCode.toList := by
  intro grant
  have hcode : formatPairingCode exampleCodeBytes = exampleCode := by decide +kernel
  have hpage : dashboardPage exampleLoopbackParse exampleCodeDigest .fresh 32191 exampleSession
      exampleCodeBytes 0 0 = .ok (exampleDashboardGranted, exampleDashboardPage) := by
    rfl
  obtain ⟨hall, hunique⟩ :=
    pairing_code_survives asciiUpper asciiDecoder exampleLoopbackParse exampleCodeDigest
  obtain ⟨hdecode, htyped, hopened⟩ := hall exampleCodeBytes rfl
  rw [hcode] at hdecode
  refine ⟨hdecode, ?_, ?_, hunique _ (by decide +kernel)⟩
  · obtain ⟨request, hpair, hsame, hstored⟩ := htyped .fresh exampleDashboardGranted
      "http://127.0.0.1:32191" "PrintLatch dashboard" (some exampleSession) true 0 0 grant rfl
      ['\t', ' '] "pl-00010203-04050607-08090a0b-0c0D0E0F".toList ['\u00A0', '\n']
      (by decide) (by decide) (by
        unfold SameUpToCase
        decide +kernel)
    rw [hcode] at hsame
    exact ⟨request, hpair, hsame, hstored⟩
  · obtain ⟨-, request, -, -, hstart, hsame, -⟩ := hopened .fresh exampleDashboardGranted 32191
      exampleSession 0 0 exampleDashboardPage hpage
    rw [hcode] at hsame
    exact ⟨request, hstart, hsame⟩

end Ui

end PrintLatch
