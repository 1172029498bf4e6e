/-
  PrintLatch.Files.OsPath

  Paths as an operating system takes them, and the text that is made of them.

  An `OsString` is a list of units.  A unit is a character, or a `raw` one that no
  text stands for (an unpaired surrogate, a byte that is not UTF-8); the lossy text
  has U+FFFD in its place, so that two paths can have one text.

  An `AbsPath` is the list of the names from the root on.  What a path means to a
  process depends on its current directory: `Resolves` is the law that is used of
  it, and `resolveWindows` obeys it.
-/

import Mathlib.Data.List.Basic
import Mathlib.Logic.Function.Basic

namespace Files

/-! ## Strings of the operating system -/

inductive OsUnit where
  | char (c : Char)
  | raw (unit : Nat)
  deriving DecidableEq, Repr

abbrev OsString := List OsUnit

/-- The names from the root on. -/
abbrev AbsPath := List OsString

/-- A text as a path. -/
def ofText (s : String) : OsString := s.toList.map .char

/-- The character a unit becomes. -/
def OsUnit.lossy : OsUnit → Char
  | .char c => c
  | .raw _ => Char.ofNat 0xFFFD

/-- `to_string_lossy`. -/
def toStringLossy (p : OsString) : String := String.ofList (p.map OsUnit.lossy)

theorem ofText_injective : Function.Injective ofText := by
  intro s t h
  have hchars : s.toList = t.toList :=
    List.map_injective_iff.mpr (fun _ _ heq => OsUnit.char.inj heq) h
  rw [← String.ofList_toList (s := s), ← String.ofList_toList (s := t), hchars]

@[simp] theorem ofText_inj {s t : String} : ofText s = ofText t ↔ s = t := ofText_injective.eq_iff

@[simp] theorem ofText_append (s t : String) : ofText (s ++ t) = ofText s ++ ofText t := by
  simp [ofText]

/-- Every unit is a character. -/
def Unicode (p : OsString) : Prop := ∀ u ∈ p, ∃ c, u = .char c

theorem unicode_ofText (s : String) : Unicode (ofText s) := by
  intro u hu
  obtain ⟨c, -, rfl⟩ := List.mem_map.mp hu
  exact ⟨c, rfl⟩

/-- The lossy text of a Unicode path is that path. -/
theorem ofText_toStringLossy {p : OsString} (h : Unicode p) : ofText (toStringLossy p) = p := by
  unfold ofText toStringLossy
  rw [String.toList_ofList, List.map_map]
  conv_rhs => rw [← List.map_id p]
  apply List.map_congr_left
  intro u hu
  obtain ⟨c, rfl⟩ := h u hu
  rfl

/-! ## Joining -/

/-- A separator: a backslash or a slash. -/
def isSep (u : OsUnit) : Bool := u = .char '\\' ∨ u = .char '/'

/-- A letter and a colon. -/
def isDrive : OsString → Bool
  | [.char letter, .char colon] => letter.isAlpha ∧ colon = ':'
  | _ => false

/-- A separator has to go between `base` and a name: `PathBuf::push`. -/
def needsSep (base : OsString) : Bool := ¬ (base.getLast?.all isSep ∨ isDrive base)

/-- `Path::join` with a name. -/
def join (base leaf : OsString) : OsString :=
  if needsSep base then base ++ .char '\\' :: leaf else base ++ leaf

/-- A name: no separators, no colon, and not one of the two dots. -/
structure Plain (leaf : OsString) : Prop where
  nonempty : leaf ≠ []
  units : ∀ u ∈ leaf, isSep u = false ∧ u ≠ .char ':'
  dots : leaf ≠ ofText "." ∧ leaf ≠ ofText ".."

theorem unicode_join {base leaf : OsString} (hbase : Unicode base) (hleaf : Unicode leaf) :
    Unicode (join base leaf) := by
  unfold join
  intro u hu
  split at hu
  · rcases List.mem_append.mp hu with hu | hu
    · exact hbase u hu
    · rcases List.mem_cons.mp hu with rfl | hu
      · exact ⟨_, rfl⟩
      · exact hleaf u hu
  · rcases List.mem_append.mp hu with hu | hu
    · exact hbase u hu
    · exact hleaf u hu

/-! ## What a path means -/

/-- What is used of path resolution: the path made by joining a name is that name in
    the directory. -/
structure Resolves (resolve : AbsPath → OsString → AbsPath) : Prop where
  join : ∀ cwd base leaf, Plain leaf → resolve cwd (join base leaf) = resolve cwd base ++ [leaf]

/-- The names in a path. -/
def names (p : OsString) : List OsString :=
  (p.splitOnP isSep).filter fun name => name ≠ [] ∧ name ≠ ofText "."

/-- One name further. -/
def descend (dir : AbsPath) (name : OsString) : AbsPath :=
  if name = ofText ".." then (if dir.length ≤ 1 then dir else dir.dropLast) else dir ++ [name]

/-- The directory a path starts from, and the rest of the path. -/
def startOf (cwd : AbsPath) : OsString → AbsPath × OsString
  | u :: v :: rest =>
      if isSep u then
        -- two separators: a server and a share
        if isSep v then ([], rest) else (cwd.take 1, u :: v :: rest)
      else if isDrive [u, v] then
        if rest.head?.any isSep ∨ cwd.head? ≠ some [u, v] then ([[u, v]], rest) else (cwd, rest)
      else (cwd, u :: v :: rest)
  | p => if p.head?.any isSep then (cwd.take 1, p) else (cwd, p)

/-- A Windows path; the current directory of another drive is its root. -/
def resolveWindows (cwd : AbsPath) (p : OsString) : AbsPath :=
  (names (startOf cwd p).2).foldl descend (startOf cwd p).1

/-! ## `resolveWindows` obeys the law -/

theorem names_plain {leaf : OsString} (h : Plain leaf) : names leaf = [leaf] := by
  unfold names
  rw [List.splitOnP_eq_singleton fun u hu => (h.units u hu).1]
  simp [h.nonempty, h.dots.1]

/-- A separator divides the names. -/
theorem names_append_sep {s : OsUnit} (hs : isSep s = true) (p q : OsString) :
    names (p ++ s :: q) = names p ++ names q := by
  unfold names
  rw [List.splitOnP_append_cons _ _ hs, List.filter_append]

@[simp] theorem names_nil : names [] = [] := by
  simp [names]

/-- What is joined to the rest of a path is its last name. -/
theorem names_join {rest tail leaf : OsString} (hleaf : Plain leaf)
    (h : tail = .char '\\' :: leaf ∨ tail = leaf ∧ rest.getLast?.all isSep = true) :
    names (rest ++ tail) = names rest ++ [leaf] := by
  rcases h with rfl | ⟨rfl, hrest⟩
  · rw [names_append_sep rfl, names_plain hleaf]
  · rcases List.eq_nil_or_concat rest with rfl | ⟨front, s, rfl⟩
    · simpa using names_plain hleaf
    · have hs : isSep s = true := by simpa using hrest
      rw [List.concat_eq_append, List.append_assoc, List.singleton_append, names_append_sep hs,
        names_append_sep hs, names_plain hleaf, names_nil, List.append_nil]

theorem Plain.isSep_head {leaf : OsString} (h : Plain leaf) : leaf.head?.any isSep = false := by
  cases leaf with
  | nil => rfl
  | cons u rest => exact (h.units u List.mem_cons_self).1

/-- A name alone starts from the current directory. -/
theorem startOf_plain (cwd : AbsPath) {leaf : OsString} (h : Plain leaf) :
    startOf cwd leaf = (cwd, leaf) := by
  match leaf, h with
  | [], h => exact absurd rfl h.nonempty
  | [u], h => simp [startOf, (h.units u (by simp)).1]
  | u :: v :: rest, h =>
      have hdrive : isDrive [u, v] = false := by
        obtain ⟨-, hcolon⟩ := h.units v (by simp)
        cases u <;> cases v <;> simp_all [isDrive]
      simp [startOf, (h.units u (by simp)).1, hdrive]

/-- What is joined to a path of two units or more, and when it is the name alone. -/
theorem join_eq (u v : OsUnit) (rest : OsString) {leaf : OsString} (h : Plain leaf) :
    ∃ tail, join (u :: v :: rest) leaf = u :: v :: (rest ++ tail) ∧
      (tail = .char '\\' :: leaf ∨ tail = leaf ∧
        ((u :: v :: rest).getLast?.all isSep = true ∨ isDrive (u :: v :: rest) = true)) ∧
      (isDrive (u :: v :: rest) = true → tail.head?.any isSep = false) := by
  by_cases hsep : needsSep (u :: v :: rest) = true
  · refine ⟨.char '\\' :: leaf, by simp [join, hsep], .inl rfl, fun hdrive => ?_⟩
    simp [needsSep, hdrive] at hsep
  · refine ⟨leaf, by simp [join, hsep], .inr ⟨rfl, ?_⟩, fun _ => h.isSep_head⟩
    simpa only [needsSep, decide_not, Bool.not_eq_true', decide_eq_false_iff_not,
      Classical.not_not] using hsep

/-- What follows a path of two units or more leaves its start as it is; only a drive
    could be followed by its root. -/
theorem startOf_append (cwd : AbsPath) (u v : OsUnit) (rest tail : OsString)
    (hdrive : isDrive (u :: v :: rest) = true → tail.head?.any isSep = false) :
    startOf cwd (u :: v :: (rest ++ tail)) =
      ((startOf cwd (u :: v :: rest)).1, (startOf cwd (u :: v :: rest)).2 ++ tail) := by
  unfold startOf
  dsimp only
  split
  · split <;> rfl
  · split
    · next hbase =>
        have hroot : (rest ++ tail).head?.any isSep = rest.head?.any isSep := by
          cases rest with
          | nil => exact hdrive hbase
          | cons w ws => rfl
        rw [hroot]
        split <;> rfl
    · rfl

/-- A drive is a letter and a colon; neither is a separator. -/
theorem isDrive_cons {u v : OsUnit} {rest : OsString} (h : isDrive (u :: v :: rest) = true) :
    rest = [] ∧ isSep u = false := by
  match u, v, rest, h with
  | .char letter, .char colon, [], h =>
      refine ⟨rfl, ?_⟩
      by_contra hsep
      have hletter : letter = '\\' ∨ letter = '/' := by
        simpa [isSep, -not_or, Decidable.or_iff_not_imp_left] using hsep
      rcases hletter with rfl | rfl <;> simp [isDrive] at h

/-- The end of a path is the end of what follows its start. -/
theorem startOf_getLast (cwd : AbsPath) (u v : OsUnit) (rest : OsString)
    (h : (u :: v :: rest).getLast?.all isSep = true ∨ isDrive (u :: v :: rest) = true) :
    (startOf cwd (u :: v :: rest)).2.getLast?.all isSep = true := by
  have hrest : rest.getLast?.all isSep = true := by
    rcases h with hsep | hdrive
    · cases rest with
      | nil => rfl
      | cons w ws => simpa using hsep
    · rw [(isDrive_cons hdrive).1]
      rfl
  unfold startOf
  dsimp only
  split
  · next hu =>
      split
      · exact hrest
      · exact h.resolve_right fun hdrive => by simp [(isDrive_cons hdrive).2] at hu
  · split
    · split <;> exact hrest
    · next hnot =>
        refine h.resolve_right fun hdrive => hnot ?_
        rwa [(isDrive_cons hdrive).1] at hdrive

/-- The path made by joining a name starts where the directory does. -/
theorem startOf_join (cwd : AbsPath) (base : OsString) {leaf : OsString} (h : Plain leaf) :
    ∃ tail, (tail = .char '\\' :: leaf ∨
        tail = leaf ∧ (startOf cwd base).2.getLast?.all isSep = true) ∧
      startOf cwd (join base leaf) = ((startOf cwd base).1, (startOf cwd base).2 ++ tail) := by
  match base with
  | [] =>
      refine ⟨leaf, .inr ⟨rfl, rfl⟩, ?_⟩
      have hjoin : join [] leaf = leaf := by simp [join, needsSep]
      rw [hjoin, startOf_plain cwd h]
      rfl
  | [u] =>
      obtain ⟨l, ls, rfl⟩ := List.exists_cons_of_ne_nil h.nonempty
      have hl := (h.units l List.mem_cons_self).1
      by_cases hu : isSep u = true
      · refine ⟨l :: ls, .inr ⟨rfl, by simp [startOf, hu]⟩, ?_⟩
        have hjoin : join [u] (l :: ls) = u :: l :: ls := by simp [join, needsSep, hu]
        rw [hjoin]
        simp [startOf, hu, hl]
      · have hdrive : isDrive [u, .char '\\'] = false := by cases u <;> simp [isDrive]
        have hlone : isDrive [u] = false := by cases u <;> rfl
        refine ⟨.char '\\' :: l :: ls, .inl rfl, ?_⟩
        have hjoin : join [u] (l :: ls) = u :: .char '\\' :: l :: ls := by
          simp [join, needsSep, hu, hlone]
        rw [hjoin]
        simp [startOf, hu, hdrive]
  | u :: v :: rest =>
      obtain ⟨tail, hjoin, htail, hdrive⟩ := join_eq u v rest h
      rw [hjoin]
      refine ⟨tail, ?_, startOf_append cwd u v rest tail hdrive⟩
      rcases htail with hsep | ⟨hleaf, hend⟩
      · exact .inl hsep
      · exact .inr ⟨hleaf, startOf_getLast cwd u v rest hend⟩

theorem descend_plain (dir : AbsPath) {leaf : OsString} (h : Plain leaf) :
    descend dir leaf = dir ++ [leaf] := if_neg h.dots.2

theorem resolves_resolveWindows : Resolves resolveWindows := by
  refine ⟨fun cwd base leaf h => ?_⟩
  obtain ⟨tail, htail, hstart⟩ := startOf_join cwd base h
  unfold resolveWindows
  rw [hstart, names_join h htail, List.foldl_append]
  exact descend_plain _ h

/-- A path from the root of a drive means the same in every directory. -/
theorem resolveWindows_rooted {u v s : OsUnit} (hdrive : isDrive [u, v] = true)
    (hs : isSep s = true) (rest : OsString) (cwd cwd' : AbsPath) :
    resolveWindows cwd (u :: v :: s :: rest) = resolveWindows cwd' (u :: v :: s :: rest) := by
  have hstart : ∀ dir, startOf dir (u :: v :: s :: rest) = ([[u, v]], s :: rest) := by
    intro dir
    unfold startOf
    dsimp only
    rw [if_neg (by simp [(isDrive_cons hdrive).2]), if_pos hdrive,
      if_pos (.inl (by simpa using hs))]
  unfold resolveWindows
  rw [hstart, hstart]

end Files
