/-
  PrintLatch.Api.OperatorIndex

  The recovery command in the dashboard's page (`operator_index_response`, `src/api.rs`).

  The executable and the data directory are quoted for PowerShell, and the command is
  escaped for HTML.  The second step is right for every text; the first doubles the
  straight quotes and leaves the typographic ones, which PowerShell takes for quotes too.
-/

import PrintLatch.Text.Host
import PrintLatch.Text.Html
import PrintLatch.Text.PowerShell

namespace PrintLatch.Api

open Text

/-- `str::replace`, of a character. -/
def replaceChar (value : String) (c : Char) (text : String) : String :=
  String.ofList (value.toList.flatMap fun x => if x = c then text.toList else [x])

/-- `powershell_literal`. -/
def powershellLiteral (path : String) : String := "'" ++ replaceChar path '\'' "''" ++ "'"

/-- `html_escape`. -/
def htmlEscape (value : String) : String :=
  let value := replaceChar value '&' "&amp;"
  let value := replaceChar value '<' "&lt;"
  let value := replaceChar value '>' "&gt;"
  let value := replaceChar value '"' "&quot;"
  replaceChar value '\'' "&#39;"

/-- The command of `operator_index_response`. -/
def dashboardCommand (executable dataDir : String) (port : Nat) : String :=
  "& " ++ powershellLiteral executable ++ " --data-dir " ++ powershellLiteral dataDir ++
    " dashboard --port " ++ toString port

/-- The text in the place of `DASHBOARD_COMMAND`. -/
def dashboardCommandHtml (executable dataDir : String) (port : Nat) : String :=
  htmlEscape (dashboardCommand executable dataDir port)

/-- The call of the executable for that data directory and port. -/
def dashboardCall (executable dataDir : String) (port : Nat) : List Token :=
  [.call, .argument executable.toList, .argument "--data-dir".toList, .argument dataDir.toList,
    .argument "dashboard".toList, .argument "--port".toList, .argument (toString port).toList]

/-- The page shows the call, as text. -/
structure ShowsCall (executable dataDir : String) (port : Nat) : Prop where
  inert : Inert (dashboardCommandHtml executable dataDir port).toList
  faithful : tokens (decodeEntities (dashboardCommandHtml executable dataDir port).toList) =
    some (dashboardCall executable dataDir port)

/-! ## Escaping -/

theorem toList_replaceChar (value : String) (c : Char) (text : String) :
    (replaceChar value c text).toList =
      value.toList.flatMap fun x => if x = c then text.toList else [x] :=
  String.toList_ofList

/-- No replacement touches what an earlier one has put there. -/
theorem toList_htmlEscape (value : String) :
    (htmlEscape value).toList = escapeText value.toList := by
  unfold htmlEscape escapeText
  simp only [toList_replaceChar, List.flatMap_assoc]
  congr 1
  funext c
  by_cases hamp : c = '&'
  · subst hamp
    rfl
  by_cases hlt : c = '<'
  · subst hlt
    rfl
  by_cases hgt : c = '>'
  · subst hgt
    rfl
  by_cases hquot : c = '"'
  · subst hquot
    rfl
  by_cases hapos : c = '\''
  · subst hapos
    rfl
  simp only [escapeChar, hamp, hlt, hgt, hquot, hapos, if_false, List.flatMap_singleton]

theorem toList_powershellLiteral (path : String) :
    (powershellLiteral path).toList = quoteLiteral path.toList := by
  unfold powershellLiteral quoteLiteral doubleQuotes
  rw [String.toList_append, String.toList_append, toList_replaceChar]
  rfl

/-! ## The command as PowerShell reads it -/

theorem map_cons_eq_some {token : Token} {line : Option (List Token)} {more : List Token} :
    line.map (token :: ·) = some (token :: more) ↔ line = some more := by
  cases line <;> simp

theorem tokens_dashboardCommand (executable dataDir : String) (port : Nat) :
    tokens (dashboardCommand executable dataDir port).toList =
      some (dashboardCall executable dataDir port) ↔
      (∀ c ∈ executable.toList, typographic c = false) ∧
        ∀ c ∈ dataDir.toList, typographic c = false := by
  have hline : (dashboardCommand executable dataDir port).toList =
      '&' :: ' ' :: (quoteLiteral executable.toList ++ (' ' :: ("--data-dir".toList ++ (' ' ::
        (quoteLiteral dataDir.toList ++ (' ' :: ("dashboard".toList ++ (' ' ::
          ("--port".toList ++ (' ' :: (toString port).toList)))))))))) := by
    unfold dashboardCommand
    simp only [String.toList_append, toList_powershellLiteral, List.append_assoc]
    rfl
  have hport : tokens (toString port).toList = some [Token.argument (toString port).toList] := by
    have hdigits : ∀ c ∈ (toString port).toList, isWordChar c = true := by
      intro c hc
      rw [toList_toString] at hc
      have hdigit := isDigit_of_mem_toDigits hc
      simp [isWordChar, Char.isAlphanum, hdigit]
    have hne : (toString port).toList ≠ [] := by
      rw [toList_toString]
      exact Nat.toDigits_ne_nil
    have hword := @tokens_word _ [] hne hdigits rfl
    rw [List.append_nil] at hword
    rw [hword, tokens_nil]
    rfl
  have hflag : ∀ (word : String) (rest : List Char), word.toList ≠ [] →
      word.toList.all isWordChar = true →
      tokens (' ' :: (word.toList ++ (' ' :: rest))) =
        (tokens (' ' :: rest)).map (Token.argument word.toList :: ·) := by
    intro word rest hne hword
    rw [tokens_blank rfl, tokens_word hne (List.all_eq_true.mp hword) rfl]
  rw [hline, tokens_call, dashboardCall, map_cons_eq_some, tokens_blank rfl,
    tokens_quoteLiteral rfl, hflag "--data-dir" _ (by decide) (by decide), map_cons_eq_some,
    tokens_blank rfl, tokens_quoteLiteral rfl, hflag "dashboard" _ (by decide) (by decide),
    map_cons_eq_some, hflag "--port" _ (by decide) (by decide), map_cons_eq_some,
    tokens_blank rfl, hport, and_iff_left rfl]

/-- **The page shows the call as inert text, and as the call that is meant exactly when
    neither path has a typographic quote.** -/
theorem showsCall_iff (executable dataDir : String) (port : Nat) :
    ShowsCall executable dataDir port ↔
      (∀ c ∈ executable.toList, typographic c = false) ∧
        ∀ c ∈ dataDir.toList, typographic c = false := by
  have hhtml : (dashboardCommandHtml executable dataDir port).toList =
      escapeText (dashboardCommand executable dataDir port).toList := toList_htmlEscape _
  rw [← tokens_dashboardCommand executable dataDir port]
  constructor
  · intro h
    have hfaithful := h.faithful
    rwa [hhtml, decodeEntities_escapeText] at hfaithful
  · intro h
    refine { inert := ?_, faithful := ?_ }
    · rw [hhtml]
      exact inert_escapeText _
    · rw [hhtml, decodeEntities_escapeText]
      exact h

/-- A user whose name is spelled with a typographic apostrophe gets a command that is not
    the call. -/
theorem not_showsCall_typographic :
    ¬ ShowsCall "C:\\PrintLatch\\printlatch.exe" "C:\\Users\\O\u2019Brien" 32191 := by
  intro h
  have hfaithful := h.faithful
  unfold dashboardCommandHtml at hfaithful
  rw [toList_htmlEscape, decodeEntities_escapeText, tokens_dashboardCommand] at hfaithful
  exact absurd (hfaithful.2 '\u2019' (by decide)) (by decide)

end PrintLatch.Api
