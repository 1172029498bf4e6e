/-
  PrintLatch.Text.Html

  HTML text: the five entities that stand for the characters of markup.

  `escapeText` writes a text with them, `decodeEntities` reads them.  What is written is
  read back (`decodeEntities_escapeText`) and is inert in a document
  (`inert_escapeText`).
-/

import Mathlib.Data.List.Basic

namespace Text

/-- The entities, with what they stand for. -/
def entities : List (List Char × Char) :=
  [("&amp;".toList, '&'), ("&lt;".toList, '<'), ("&gt;".toList, '>'), ("&quot;".toList, '"'),
    ("&#39;".toList, '\'')]

/-- A character of a text, as it is written in a document. -/
def escapeChar (c : Char) : List Char :=
  if c = '&' then "&amp;".toList
  else if c = '<' then "&lt;".toList
  else if c = '>' then "&gt;".toList
  else if c = '"' then "&quot;".toList
  else if c = '\'' then "&#39;".toList
  else [c]

def escapeText (text : List Char) : List Char := text.flatMap escapeChar

/-- A text with its entities replaced by what they stand for. -/
def decodeEntities : List Char → List Char
  | [] => []
  | '&' :: 'a' :: 'm' :: 'p' :: ';' :: rest => '&' :: decodeEntities rest
  | '&' :: 'l' :: 't' :: ';' :: rest => '<' :: decodeEntities rest
  | '&' :: 'g' :: 't' :: ';' :: rest => '>' :: decodeEntities rest
  | '&' :: 'q' :: 'u' :: 'o' :: 't' :: ';' :: rest => '"' :: decodeEntities rest
  | '&' :: '#' :: '3' :: '9' :: ';' :: rest => '\'' :: decodeEntities rest
  | c :: rest => c :: decodeEntities rest

/-- Text that is no markup: no bracket and no quote, and an ampersand only where an entity
    starts. -/
structure Inert (html : List Char) : Prop where
  plain : ∀ c ∈ html, c ≠ '<' ∧ c ≠ '>' ∧ c ≠ '"' ∧ c ≠ '\''
  ampersand : ∀ before after, html = before ++ '&' :: after →
    ∃ e ∈ entities, e.1 <+: '&' :: after

/-! ## Writing and reading -/

theorem decodeEntities_cons {c : Char} (h : c ≠ '&') (rest : List Char) :
    decodeEntities (c :: rest) = c :: decodeEntities rest := by
  rw [decodeEntities] <;> simp [h]

theorem decodeEntities_escapeChar (c : Char) (rest : List Char) :
    decodeEntities (escapeChar c ++ rest) = c :: decodeEntities rest := by
  by_cases hamp : c = '&'
  · subst hamp
    rfl
  by_cases hlt : c = '<'
  · subst hlt
    rfl
  by_cases hgt : c = '>'
  · subst hgt
    rfl
  by_cases hquot : c = '"'
  · subst hquot
    rfl
  by_cases hapos : c = '\''
  · subst hapos
    rfl
  have hself : escapeChar c = [c] := by simp [escapeChar, hamp, hlt, hgt, hquot, hapos]
  rw [hself]
  exact decodeEntities_cons hamp rest

/-- What is written is read back. -/
theorem decodeEntities_escapeText (text : List Char) : decodeEntities (escapeText text) = text := by
  induction text with
  | nil => rfl
  | cons c text ih =>
      unfold escapeText at ih ⊢
      rw [List.flatMap_cons, decodeEntities_escapeChar, ih]

/-! ## Inert text -/

/-- A character that stands for itself. -/
def plainChar (c : Char) : Bool := c ≠ '&' ∧ c ≠ '<' ∧ c ≠ '>' ∧ c ≠ '"' ∧ c ≠ '\''

/-- A written character is itself, or an entity. -/
theorem escapeChar_cases (c : Char) :
    (escapeChar c = [c] ∧ plainChar c = true) ∨ (escapeChar c, c) ∈ entities := by
  by_cases hplain : plainChar c = true
  · have h : c ≠ '&' ∧ c ≠ '<' ∧ c ≠ '>' ∧ c ≠ '"' ∧ c ≠ '\'' := by
      simpa [plainChar] using hplain
    obtain ⟨hamp, hlt, hgt, hquot, hapos⟩ := h
    exact Or.inl ⟨by simp [escapeChar, hamp, hlt, hgt, hquot, hapos], hplain⟩
  · have h : c = '&' ∨ c = '<' ∨ c = '>' ∨ c = '"' ∨ c = '\'' := by
      by_contra hnone
      push Not at hnone
      exact hplain (decide_eq_true hnone)
    rcases h with rfl | rfl | rfl | rfl | rfl <;> exact Or.inr (by decide)

/-- An entity is an ampersand and plain characters. -/
theorem entity_plain {e : List Char × Char} (h : e ∈ entities) :
    ∃ name, e.1 = '&' :: name ∧ ∀ c ∈ name, plainChar c = true := by
  have hall : entities.all (fun e => e.1.head? = some '&' && e.1.tail.all plainChar) = true := by
    decide
  have he := List.all_eq_true.mp hall e h
  rw [Bool.and_eq_true, decide_eq_true_eq] at he
  obtain ⟨hhead, htail⟩ := he
  cases hname : e.1 with
  | nil =>
      rw [hname] at hhead
      cases hhead
  | cons c name =>
      rw [hname] at hhead htail
      obtain rfl : c = '&' := Option.some.inj hhead
      exact ⟨name, rfl, List.all_eq_true.mp htail⟩

/-- The ampersand of a written character starts it, and it is an entity. -/
theorem ampersand_escapeChar {c : Char} {before after : List Char}
    (h : escapeChar c = before ++ '&' :: after) :
    before = [] ∧ ∃ e ∈ entities, e.1 = '&' :: after := by
  have hnotplain : ∀ name : List Char, (∀ c ∈ name, plainChar c = true) → '&' ∉ name :=
    fun name hname hmem => absurd (hname _ hmem) (by decide)
  rcases escapeChar_cases c with ⟨hself, hplain⟩ | hentity
  · rw [hself] at h
    have hmem : '&' ∈ [c] := h ▸ List.mem_append_right _ List.mem_cons_self
    exact absurd hmem (hnotplain [c] (by simpa using hplain))
  · obtain ⟨name, hname, hplain⟩ := entity_plain hentity
    have hname : escapeChar c = '&' :: name := hname
    cases before with
    | nil => exact ⟨rfl, _, hentity, h⟩
    | cons x before =>
        -- a second ampersand would be in the name
        rw [hname, List.cons_append] at h
        obtain ⟨-, hrest⟩ := List.cons.inj h
        exact absurd (hrest ▸ List.mem_append_right _ List.mem_cons_self) (hnotplain name hplain)

/-- Written text is inert. -/
theorem inert_escapeText (text : List Char) : Inert (escapeText text) where
  plain := by
    intro c hc
    obtain ⟨x, -, hx⟩ := List.mem_flatMap.mp hc
    have hchar : c = '&' ∨ plainChar c = true := by
      rcases escapeChar_cases x with ⟨hself, hplain⟩ | hentity
      · rw [hself, List.mem_singleton] at hx
        rw [hx]
        exact Or.inr hplain
      · obtain ⟨name, hname, hplain⟩ := entity_plain hentity
        have hname : escapeChar x = '&' :: name := hname
        rw [hname] at hx
        exact (List.mem_cons.mp hx).imp_right (hplain c)
    rcases hchar with rfl | hplain
    · decide
    · have h : c ≠ '&' ∧ c ≠ '<' ∧ c ≠ '>' ∧ c ≠ '"' ∧ c ≠ '\'' := by
        simpa [plainChar] using hplain
      exact h.2
  ampersand := by
    induction text with
    | nil =>
        intro before after h
        have hlength := congrArg List.length h
        simp [escapeText] at hlength
    | cons c text ih =>
        intro before after h
        have hsplit : escapeText (c :: text) = escapeChar c ++ escapeText text :=
          List.flatMap_cons
        rw [hsplit] at h
        rcases List.append_eq_append_iff.mp h with ⟨rest, rfl, hrest⟩ | ⟨rest, hrest, hafter⟩
        · -- behind the first character
          exact ih rest after hrest
        · cases rest with
          | nil => exact ih [] after hafter.symm
          | cons x rest =>
              rw [List.cons_append] at hafter
              obtain ⟨rfl, hafter⟩ := List.cons.inj hafter
              obtain ⟨-, e, he, hname⟩ := ampersand_escapeChar hrest
              exact ⟨e, he, escapeText text, by rw [hname, hafter, List.cons_append]⟩

end Text
