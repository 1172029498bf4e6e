/-
  PrintLatch.Text.PowerShell

  Command lines of PowerShell that are made of the call operator, plain words and
  single-quoted literals.

  PowerShell takes the typographic single quotes for the straight one.  So a literal whose
  straight quotes are doubled says what was quoted exactly when there is no typographic
  one in it (`literal_quoted`, `straight_of_literal_quoted`).
-/

import Mathlib.Data.List.Basic

namespace Text

/-- The characters that delimit a single-quoted literal. -/
def isSingleQuote (c : Char) : Bool :=
  c = '\'' ∨ c = '\u2018' ∨ c = '\u2019' ∨ c = '\u201a' ∨ c = '\u201b'

/-- A single quote that is not the straight one. -/
def typographic (c : Char) : Bool :=
  c = '\u2018' ∨ c = '\u2019' ∨ c = '\u201a' ∨ c = '\u201b'

/-- White space within a line. -/
def isBlank (c : Char) : Bool := c = ' ' ∨ c = '\t'

/-- A character of a plain word. -/
def isWordChar (c : Char) : Bool := c.isAlphanum ∨ c = '-'

/-- A token of a command line. -/
inductive Token where
  /-- The call operator. -/
  | call
  | argument (text : List Char)
  deriving DecidableEq, Repr

/-- The rest of a single-quoted literal: what it says, and what follows it.  Two quotes in
    a row are one, the second. -/
def literal : List Char → Option (List Char × List Char)
  | [] => none
  | [c] => if isSingleQuote c then some ([], []) else none
  | c :: d :: rest =>
      if isSingleQuote c then
        if isSingleQuote d then (literal rest).map fun (text, after) => (d :: text, after)
        else some ([], d :: rest)
      else (literal (d :: rest)).map fun (text, after) => (c :: text, after)

theorem length_literal {input text after : List Char} (h : literal input = some (text, after)) :
    after.length < input.length := by
  induction input using literal.induct generalizing text after with
  | case1 => cases h
  | case2 c hc =>
      rw [literal, if_pos hc] at h
      cases h
      exact Nat.one_pos
  | case3 c hc =>
      rw [literal, if_neg hc] at h
      cases h
  | case4 c d rest hc hd ih =>
      rw [literal, if_pos hc, if_pos hd] at h
      obtain ⟨⟨text', after'⟩, hrest, heq⟩ := Option.map_eq_some_iff.mp h
      cases heq
      have := ih hrest
      simp only [List.length_cons]
      omega
  | case5 c d rest hc hd =>
      rw [literal, if_pos hc, if_neg hd] at h
      cases h
      exact Nat.lt_succ_self _
  | case6 c d rest hc ih =>
      rw [literal, if_neg hc] at h
      obtain ⟨⟨text', after'⟩, hrest, heq⟩ := Option.map_eq_some_iff.mp h
      cases heq
      have := ih hrest
      simp only [List.length_cons] at this ⊢
      omega

/-- The tokens of a line, or none where it has something else. -/
def tokens : List Char → Option (List Token)
  | [] => some []
  | c :: rest =>
      if isBlank c then tokens rest
      else if c = '&' then (tokens rest).map (Token.call :: ·)
      else if isSingleQuote c then
        match _h : literal rest with
        | none => none
        | some (text, after) => (tokens after).map (Token.argument text :: ·)
      else if isWordChar c then
        let after := rest.dropWhile isWordChar
        if after.head?.all isBlank then
          (tokens after).map (Token.argument (c :: rest.takeWhile isWordChar) :: ·)
        else none
      else none
termination_by line => line.length
decreasing_by
  · exact Nat.lt_succ_self _
  · exact Nat.lt_succ_self _
  · exact Nat.lt_succ_of_lt (length_literal _h)
  · exact Nat.lt_succ_of_le (List.dropWhile_sublist _).length_le

/-- A text with its straight quotes doubled. -/
def doubleQuotes (text : List Char) : List Char :=
  text.flatMap fun c => if c = '\'' then ['\'', '\''] else [c]

/-! ## Literals -/

theorem isSingleQuote_of_typographic {c : Char} (h : typographic c = true) :
    isSingleQuote c = true := by
  simp only [typographic, isSingleQuote, decide_eq_true_eq] at h ⊢
  exact Or.inr h

theorem typographic_or_straight {c : Char} (h : isSingleQuote c = true) :
    c = '\'' ∨ typographic c = true := by
  simpa only [typographic, isSingleQuote, decide_eq_true_eq] using h

theorem literal_cons {c : Char} (h : isSingleQuote c = false) (rest : List Char) :
    literal (c :: rest) = (literal rest).map fun (text, after) => (c :: text, after) := by
  have hno : ¬ isSingleQuote c = true := by simp [h]
  cases rest with
  | nil => simp [literal, h]
  | cons d rest => rw [literal, if_neg hno]

theorem literal_pair {c d : Char} (hc : isSingleQuote c = true) (hd : isSingleQuote d = true)
    (rest : List Char) :
    literal (c :: d :: rest) = (literal rest).map fun (text, after) => (d :: text, after) := by
  rw [literal, if_pos hc, if_pos hd]

/-- A quote that no quote follows ends the literal. -/
theorem literal_end {c : Char} (hc : isSingleQuote c = true) {rest : List Char}
    (hrest : rest.head?.any isSingleQuote = false) : literal (c :: rest) = some ([], rest) := by
  cases rest with
  | nil => rw [literal, if_pos hc]
  | cons d rest =>
      have hd : ¬ isSingleQuote d = true := by simpa using hrest
      rw [literal, if_pos hc, if_neg hd]

@[simp] theorem doubleQuotes_nil : doubleQuotes [] = [] := rfl

theorem doubleQuotes_straight (text : List Char) :
    doubleQuotes ('\'' :: text) = '\'' :: '\'' :: doubleQuotes text := rfl

theorem doubleQuotes_cons {c : Char} (h : c ≠ '\'') (text : List Char) :
    doubleQuotes (c :: text) = c :: doubleQuotes text := by
  unfold doubleQuotes
  rw [List.flatMap_cons, if_neg h]
  rfl

section

variable {rest : List Char}

/-- A text without typographic quotes is quoted by doubling its straight ones. -/
theorem literal_quoted (hrest : rest.head?.any isSingleQuote = false) {text : List Char}
    (htext : ∀ c ∈ text, typographic c = false) :
    literal (doubleQuotes text ++ '\'' :: rest) = some (text, rest) := by
  induction text with
  | nil => exact literal_end (by decide) hrest
  | cons c text ih =>
      have ih := ih fun d hd => htext d (List.mem_cons_of_mem _ hd)
      by_cases hc : c = '\''
      · rw [hc, doubleQuotes_straight, List.cons_append, List.cons_append,
          literal_pair (by decide) (by decide), ih]
        rfl
      · have hplain : isSingleQuote c = false := by
          cases hquote : isSingleQuote c with
          | false => rfl
          | true =>
              rcases typographic_or_straight hquote with hstraight | htypo
              · exact absurd hstraight hc
              · rw [htext c List.mem_cons_self] at htypo
                cases htypo
        rw [doubleQuotes_cons hc, List.cons_append, literal_cons hplain, ih]
        rfl

/-- What a pair of quotes reads, when the whole is `missed` and something more. -/
theorem literal_of_pair {c d : Char} (hc : isSingleQuote c = true) (hd : isSingleQuote d = true)
    {input missed more after : List Char} (hne : missed ≠ [])
    (h : literal (c :: d :: input) = some (missed ++ more, after)) :
    ∃ m ms, missed = m :: ms ∧ literal input = some (ms ++ more, after) := by
  rw [literal_pair hc hd] at h
  obtain ⟨⟨text, after'⟩, hinput, heq⟩ := Option.map_eq_some_iff.mp h
  obtain ⟨m, ms, rfl⟩ := List.exists_cons_of_ne_nil hne
  obtain ⟨htext, hafter⟩ := Prod.mk.inj heq
  obtain ⟨-, htext⟩ := List.cons.inj htext
  refine ⟨m, ms, rfl, hinput.trans ?_⟩
  rw [htext, hafter]
  rfl

/-- A literal that is behind by the quotes `missed` never catches up, whether it stands
    between two characters or has read a first quote `q`. -/
theorem literal_lags (hrest : rest.head?.any isSingleQuote = false) (text : List Char) :
    ∀ missed : List Char, missed ≠ [] → (∀ c ∈ missed, isSingleQuote c = true) →
      (∀ after, literal (doubleQuotes text ++ '\'' :: rest) ≠ some (missed ++ text, after)) ∧
      ∀ q, isSingleQuote q = true → ∀ after,
        literal (q :: (doubleQuotes text ++ '\'' :: rest)) ≠ some (missed ++ text, after) := by
  have hstraight : isSingleQuote '\'' = true := by decide
  induction text with
  | nil =>
      intro missed hne hquotes
      refine ⟨fun after h => ?_, fun q hq after h => ?_⟩
      · rw [doubleQuotes_nil, List.nil_append, literal_end hstraight hrest] at h
        obtain ⟨hnil, -⟩ := Prod.mk.inj (Option.some.inj h)
        exact hne (List.append_eq_nil_iff.mp hnil.symm).1
      · -- the pair takes the end, and what follows is no quote
        obtain ⟨m, ms, rfl, hinput⟩ := literal_of_pair hq hstraight hne h
        cases rest with
        | nil => cases hinput
        | cons d rest =>
            have hd : isSingleQuote d = false := by simpa using hrest
            rw [literal_cons hd, List.append_nil] at hinput
            obtain ⟨⟨text, after'⟩, -, heq⟩ := Option.map_eq_some_iff.mp hinput
            obtain ⟨hms, -⟩ := Prod.mk.inj heq
            have hquote := hquotes d (by simp [← hms])
            rw [hd] at hquote
            cases hquote
  | cons c text ih =>
      intro missed hne hquotes
      have hmore : ∀ (ms : List Char) (q : Char), (∀ c ∈ ms, isSingleQuote c = true) →
          isSingleQuote q = true → ∀ c ∈ ms ++ [q], isSingleQuote c = true := by
        intro ms q hms hq d hd
        rcases List.mem_append.mp hd with hd | hd
        · exact hms d hd
        · rw [List.mem_singleton.mp hd]
          exact hq
      have hshift : ∀ ms : List Char, ms ++ c :: text = ms ++ [c] ++ text := by simp
      by_cases hc : c = '\''
      · subst hc
        rw [doubleQuotes_straight, List.cons_append, List.cons_append]
        refine ⟨fun after h => ?_, fun q hq after h => ?_⟩
        · obtain ⟨m, ms, rfl, hinput⟩ := literal_of_pair hstraight hstraight hne h
          rw [hshift] at hinput
          exact (ih (ms ++ ['\'']) (by simp) (hmore ms _ (fun d hd => hquotes d
            (List.mem_cons_of_mem _ hd)) hstraight)).1 after hinput
        · obtain ⟨m, ms, rfl, hinput⟩ := literal_of_pair hq hstraight hne h
          rw [hshift] at hinput
          exact (ih (ms ++ ['\'']) (by simp) (hmore ms _ (fun d hd => hquotes d
            (List.mem_cons_of_mem _ hd)) hstraight)).2 _ hstraight after hinput
      · rw [doubleQuotes_cons hc, List.cons_append]
        cases hquote : isSingleQuote c with
        | true =>
            refine ⟨fun after h => ?_, fun q hq after h => ?_⟩
            · rw [hshift] at h
              exact (ih (missed ++ [c]) (by simp) (hmore missed c hquotes hquote)).2 c hquote
                after h
            · obtain ⟨m, ms, rfl, hinput⟩ := literal_of_pair hq hquote hne h
              rw [hshift] at hinput
              exact (ih (ms ++ [c]) (by simp) (hmore ms c (fun d hd => hquotes d
                (List.mem_cons_of_mem _ hd)) hquote)).1 after hinput
        | false =>
            refine ⟨fun after h => ?_, fun q hq after h => ?_⟩
            · -- the literal reads `c` where a quote is missed
              obtain ⟨m, ms, rfl⟩ := List.exists_cons_of_ne_nil hne
              rw [literal_cons hquote] at h
              obtain ⟨⟨text', after'⟩, -, heq⟩ := Option.map_eq_some_iff.mp h
              obtain ⟨htext, -⟩ := Prod.mk.inj heq
              obtain ⟨hcm, -⟩ := List.cons.inj htext
              have hm := hquotes m List.mem_cons_self
              rw [← hcm, hquote] at hm
              cases hm
            · rw [literal_end hq (by simpa using hquote)] at h
              obtain ⟨hnil, -⟩ := Prod.mk.inj (Option.some.inj h)
              exact hne (List.append_eq_nil_iff.mp hnil.symm).1

/-- A text that is quoted by doubling its straight quotes has no typographic one. -/
theorem straight_of_literal_quoted (hrest : rest.head?.any isSingleQuote = false)
    {text after : List Char}
    (h : literal (doubleQuotes text ++ '\'' :: rest) = some (text, after)) :
    ∀ c ∈ text, typographic c = false := by
  induction text with
  | nil => exact fun c hc => by cases hc
  | cons c text ih =>
      have hrecurse : literal (doubleQuotes text ++ '\'' :: rest) = some (text, after) →
          typographic c = false → ∀ d ∈ c :: text, typographic d = false := by
        intro htext hc d hd
        rcases List.mem_cons.mp hd with rfl | hd
        · exact hc
        · exact ih htext d hd
      by_cases hc : c = '\''
      · subst hc
        rw [doubleQuotes_straight, List.cons_append, List.cons_append] at h
        have h : literal ('\'' :: '\'' :: (doubleQuotes text ++ '\'' :: rest)) =
            some (['\''] ++ text, after) := h
        obtain ⟨m, ms, hm, hinput⟩ := literal_of_pair (by decide) (by decide) (by simp) h
        obtain ⟨-, rfl⟩ := List.cons.inj hm
        exact hrecurse hinput (by decide)
      · rw [doubleQuotes_cons hc, List.cons_append] at h
        cases hquote : isSingleQuote c with
        | true =>
            -- from here on the literal is behind by `c`
            exact absurd h ((literal_lags hrest text [c] (by simp) (by simpa using hquote)).2 c
              hquote after)
        | false =>
            rw [literal_cons hquote] at h
            obtain ⟨⟨text', after'⟩, hinput, heq⟩ := Option.map_eq_some_iff.mp h
            obtain ⟨htext, hafter⟩ := Prod.mk.inj heq
            obtain ⟨-, rfl⟩ := List.cons.inj htext
            refine hrecurse (by rw [hinput, hafter]) ?_
            cases htypo : typographic c with
            | false => rfl
            | true =>
                rw [isSingleQuote_of_typographic htypo] at hquote
                cases hquote

end

/-! ## Lines -/

@[simp] theorem tokens_nil : tokens [] = some [] := by rw [tokens]

theorem tokens_blank {c : Char} (h : isBlank c = true) (rest : List Char) :
    tokens (c :: rest) = tokens rest := by
  rw [tokens, if_pos h]

theorem tokens_call (rest : List Char) :
    tokens ('&' :: rest) = (tokens rest).map (Token.call :: ·) := by
  rw [tokens, if_neg (by decide), if_pos rfl]

/-- What a word is made of is nothing else. -/
theorem isWordChar_only {c : Char} (h : isWordChar c = true) :
    isBlank c = false ∧ c ≠ '&' ∧ isSingleQuote c = false := by
  refine ⟨?_, ?_, ?_⟩
  · cases hblank : isBlank c with
    | false => rfl
    | true =>
        have hcases : c = ' ' ∨ c = '\t' := by simpa [isBlank] using hblank
        rcases hcases with rfl | rfl <;> exact absurd h (by decide)
  · rintro rfl
    exact absurd h (by decide)
  · cases hquote : isSingleQuote c with
    | false => rfl
    | true =>
        have hcases : c = '\'' ∨ c = '\u2018' ∨ c = '\u2019' ∨ c = '\u201a' ∨ c = '\u201b' := by
          simpa [isSingleQuote] using hquote
        rcases hcases with rfl | rfl | rfl | rfl | rfl <;> exact absurd h (by decide)

theorem tokens_word {word rest : List Char} (hne : word ≠ [])
    (hword : ∀ c ∈ word, isWordChar c = true) (hrest : rest.head?.all isBlank = true) :
    tokens (word ++ rest) = (tokens rest).map (Token.argument word :: ·) := by
  obtain ⟨c, word, rfl⟩ := List.exists_cons_of_ne_nil hne
  have hc := hword c List.mem_cons_self
  have hword : ∀ d ∈ word, isWordChar d = true := fun d hd => hword d (List.mem_cons_of_mem _ hd)
  obtain ⟨hblank, hamp, hquote⟩ := isWordChar_only hc
  -- the word stops at the blank
  have hstop : rest.takeWhile isWordChar = [] ∧ rest.dropWhile isWordChar = rest := by
    cases rest with
    | nil => exact ⟨rfl, rfl⟩
    | cons d rest =>
        have hd : ¬ isWordChar d = true := by
          intro hd
          have hnot := (isWordChar_only hd).1
          have : isBlank d = true := by simpa using hrest
          rw [hnot] at this
          cases this
        exact ⟨List.takeWhile_cons_of_neg hd, List.dropWhile_cons_of_neg hd⟩
  rw [List.cons_append, tokens, if_neg (by simp [hblank]), if_neg hamp, if_neg (by simp [hquote]),
    if_pos hc, List.takeWhile_append_of_pos hword, List.dropWhile_append_of_pos hword, hstop.1,
    hstop.2, List.append_nil, if_pos hrest]

/-- A literal, by what its rest is read as. -/
theorem tokens_quote {q : Char} (hq : isSingleQuote q = true) (input : List Char) :
    tokens (q :: input) = match literal input with
      | none => none
      | some (text, after) => (tokens after).map (Token.argument text :: ·) := by
  have hblank : ¬ isBlank q = true := by
    intro hblank
    have hcases : q = ' ' ∨ q = '\t' := by simpa [isBlank] using hblank
    rcases hcases with rfl | rfl <;> exact absurd hq (by decide)
  have hamp : q ≠ '&' := by
    rintro rfl
    exact absurd hq (by decide)
  rw [tokens, if_neg hblank, if_neg hamp, if_pos hq]
  split
  · next h => rw [h]
  · next text after h => rw [h]

/-- A text in quotes. -/
def quoteLiteral (text : List Char) : List Char := '\'' :: (doubleQuotes text ++ ['\''])

/-- **A quoted text is the argument that is meant exactly when it has no typographic
    quote.** -/
theorem tokens_quoteLiteral {text rest : List Char} {more : List Token}
    (hrest : rest.head?.any isSingleQuote = false) :
    tokens (quoteLiteral text ++ rest) = some (Token.argument text :: more) ↔
      (∀ c ∈ text, typographic c = false) ∧ tokens rest = some more := by
  have hline : quoteLiteral text ++ rest = '\'' :: (doubleQuotes text ++ '\'' :: rest) := by
    simp [quoteLiteral]
  rw [hline, tokens_quote (by decide)]
  constructor
  · intro h
    split at h
    · cases h
    · next text' after hliteral =>
        obtain ⟨more', hmore, heq⟩ := Option.map_eq_some_iff.mp h
        obtain ⟨hargument, rfl⟩ := List.cons.inj heq
        obtain rfl := Token.argument.inj hargument
        have hstraight := straight_of_literal_quoted hrest hliteral
        rw [literal_quoted hrest hstraight] at hliteral
        obtain ⟨-, rfl⟩ := Prod.mk.inj (Option.some.inj hliteral)
        exact ⟨hstraight, hmore⟩
  · rintro ⟨hstraight, hmore⟩
    rw [literal_quoted hrest hstraight]
    dsimp only
    rw [hmore]
    rfl

end Text
