/-
  PrintLatch.Text.Casing

  Case mappings, white space and substrings, as JavaScript has them.

  The case mappings are those of Unicode; of them only the ASCII part is fixed here.
-/

import Mathlib.Data.List.Infix
import Mathlib.Data.List.DropRight
import Mathlib.Data.List.Basic

namespace Text

/-- A text of ASCII characters. -/
def Ascii (text : List Char) : Prop := ∀ c ∈ text, c.toNat < 128

/-- A property of the characters below a code, checked one by one. -/
theorem forall_code_lt {bound : Nat} {P : Char → Prop} (h : ∀ n < bound, P (Char.ofNat n))
    {c : Char} (hc : c.toNat < bound) : P c := by
  have hchar := h c.toNat hc
  rwa [Char.ofNat_toNat] at hchar

/-- A `toLowerCase`: on ASCII text it maps `A` to `Z`, and nothing else. -/
structure LowerCase where
  apply : List Char → List Char
  ascii : ∀ text, Ascii text → apply text = text.map Char.toLower

/-- A `toUpperCase`: on ASCII text it maps `a` to `z`, and nothing else. -/
structure UpperCase where
  apply : List Char → List Char
  ascii : ∀ text, Ascii text → apply text = text.map Char.toUpper

/-- Lower-casing that leaves everything but ASCII alone. -/
def asciiLower : LowerCase := ⟨List.map Char.toLower, fun _ _ => rfl⟩

/-- Upper-casing that leaves everything but ASCII alone. -/
def asciiUpper : UpperCase := ⟨List.map Char.toUpper, fun _ _ => rfl⟩

/-- A text that differs from `text` in the case of letters only. -/
def SameUpToCase (typed text : List Char) : Prop :=
  List.Forall₂ (fun t c => t = c ∨ t = c.toLower) typed text

/-- What is upper case stays ASCII in lower case, and comes back. -/
theorem toUpper_toLower {c : Char} (hascii : c.toNat < 128) (hupper : c.toUpper = c) :
    c.toLower.toNat < 128 ∧ c.toLower.toUpper = c := by
  have hall : c.toUpper = c → c.toLower.toNat < 128 ∧ c.toLower.toUpper = c :=
    forall_code_lt (P := fun c => c.toUpper = c → c.toLower.toNat < 128 ∧ c.toLower.toUpper = c)
      (by decide +kernel) hascii
  exact hall hupper

/-- What holds of the letters of a text, in both cases, holds of its variants. -/
theorem SameUpToCase.forall {P : Char → Prop} {typed text : List Char}
    (h : SameUpToCase typed text) (htext : ∀ c ∈ text, P c ∧ P c.toLower) :
    ∀ t ∈ typed, P t := by
  unfold SameUpToCase at h
  induction h with
  | nil => exact fun _ ht => absurd ht List.not_mem_nil
  | @cons t c typed text htc hrest ih =>
      intro d hd
      rcases List.mem_cons.mp hd with rfl | hd
      · have hc := htext c List.mem_cons_self
        rcases htc with rfl | rfl
        · exact hc.1
        · exact hc.2
      · exact ih (fun e he => htext e (List.mem_cons_of_mem _ he)) d hd

/-- `toUpperCase` brings back a text that has no lower-case letter. -/
theorem UpperCase.apply_sameUpToCase (toUpperCase : UpperCase) {typed text : List Char}
    (hascii : Ascii text) (hupper : ∀ c ∈ text, c.toUpper = c) (h : SameUpToCase typed text) :
    toUpperCase.apply typed = text := by
  have htyped : Ascii typed := h.forall fun c hc =>
    ⟨hascii c hc, (toUpper_toLower (hascii c hc) (hupper c hc)).1⟩
  rw [toUpperCase.ascii typed htyped]
  unfold SameUpToCase at h
  induction h with
  | nil => rfl
  | @cons t c typed text htc hrest ih =>
      have hc := hupper c List.mem_cons_self
      have ht : t.toUpper = c := by
        rcases htc with rfl | rfl
        · exact hc
        · exact (toUpper_toLower (hascii c List.mem_cons_self) hc).2
      rw [List.map_cons, ht, ih (fun d hd => hascii d (List.mem_cons_of_mem _ hd))
        (fun d hd => hupper d (List.mem_cons_of_mem _ hd))
        (fun d hd => htyped d (List.mem_cons_of_mem _ hd))]

/-! ## White space -/

/-- What `trim` takes off: the white space and the line ends of ECMAScript. -/
def whiteSpace (c : Char) : Bool :=
  (9 ≤ c.toNat ∧ c.toNat ≤ 13) ∨ c.toNat = 0x20 ∨ c.toNat = 0xA0 ∨ c.toNat = 0x1680 ∨
    (0x2000 ≤ c.toNat ∧ c.toNat ≤ 0x200A) ∨ c.toNat = 0x2028 ∨ c.toNat = 0x2029 ∨
    c.toNat = 0x202F ∨ c.toNat = 0x205F ∨ c.toNat = 0x3000 ∨ c.toNat = 0xFEFF

/-- `trim`. -/
def trim (text : List Char) : List Char := (text.dropWhile whiteSpace).rdropWhile whiteSpace

/-- Text of white space. -/
def Blank (text : List Char) : Prop := ∀ c ∈ text, whiteSpace c = true

instance (text : List Char) : Decidable (Blank text) :=
  decidable_of_iff (text.all whiteSpace = true) List.all_eq_true

theorem rdropWhile_append_of_blank {text after : List Char} (hafter : Blank after) :
    (text ++ after).rdropWhile whiteSpace = text.rdropWhile whiteSpace := by
  unfold List.rdropWhile
  rw [List.reverse_append,
    List.dropWhile_append_of_pos fun c hc => hafter c (List.mem_reverse.mp hc)]

/-- The case of letters does not make white space. -/
theorem whiteSpace_sameUpToCase {typed text : List Char} (hascii : Ascii text)
    (htext : ∀ c ∈ text, whiteSpace c = false) (h : SameUpToCase typed text) :
    ∀ t ∈ typed, whiteSpace t = false := by
  refine h.forall fun c hc => ⟨htext c hc, ?_⟩
  have hlower : whiteSpace c.toLower = whiteSpace c :=
    forall_code_lt (P := fun c => whiteSpace c.toLower = whiteSpace c) (by decide +kernel)
      (hascii c hc)
  rw [hlower, htext c hc]

/-- `trim` takes off what surrounds a text without white space. -/
theorem trim_surrounded {before text after : List Char} (hbefore : Blank before)
    (hafter : Blank after) (htext : ∀ c ∈ text, whiteSpace c = false) :
    trim (before ++ text ++ after) = text := by
  unfold trim
  rw [List.append_assoc, List.dropWhile_append_of_pos hbefore]
  cases text with
  | nil =>
      rw [List.nil_append, List.dropWhile_eq_nil_iff.mpr hafter]
      rfl
  | cons c rest =>
      have hhead : whiteSpace c = false := htext c List.mem_cons_self
      rw [List.cons_append, List.dropWhile_cons_of_neg (by simp [hhead]), ← List.cons_append,
        rdropWhile_append_of_blank hafter, List.rdropWhile_eq_self_iff]
      intro hne
      rw [htext _ (List.getLast_mem hne)]
      exact Bool.false_ne_true

/-! ## Substrings -/

/-- `includes`. -/
def includes (text : List Char) (word : String) : Bool := word.toList <:+: text

/-- A word that has no character of the end stands in the rest. -/
theorem infix_append_iff {α : Type} {word text tail : List α} (hne : word ≠ [])
    (hfree : ∀ c ∈ tail, c ∉ word) : word <:+: text ++ tail ↔ word <:+: text := by
  refine ⟨?_, fun h => h.trans (List.prefix_append text tail).isInfix⟩
  rintro ⟨before, after, heq⟩
  rcases List.append_eq_append_iff.mp heq with ⟨rest, hrest, -⟩ | ⟨rest, hrest, htail⟩
  · -- the word ends in the text
    exact ⟨before, rest, hrest.symm⟩
  · cases rest with
    | nil =>
        rw [List.append_nil] at hrest
        exact ⟨before, [], by rw [List.append_nil, hrest]⟩
    | cons c rest =>
        -- the word's last character would be one of the end's
        exfalso
        have hlast : (before ++ word).getLast? = (c :: rest).getLast? := by
          rw [hrest, List.getLast?_append_of_ne_nil _ (by simp)]
        have hword : (before ++ word).getLast? = word.getLast? :=
          List.getLast?_append_of_ne_nil _ hne
        obtain ⟨d, hd⟩ := Option.isSome_iff_exists.mp (List.getLast?_isSome.mpr hne)
        rw [hword, hd] at hlast
        have hmem : d ∈ c :: rest := List.mem_of_getLast? hlast.symm
        exact hfree d (htail ▸ List.mem_append_left _ hmem) (List.mem_of_getLast? hd)

theorem includes_append {text tail : List Char} {word : String} (hne : word.toList ≠ [])
    (hfree : ∀ c ∈ tail, c ∉ word.toList) :
    includes (text ++ tail) word = includes text word :=
  decide_eq_decide.mpr (infix_append_iff hne hfree)

end Text
