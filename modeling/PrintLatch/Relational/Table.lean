/-
  PrintLatch.Relational.Table

  Tables with unique columns, and the four SQL statements over them.

  `clash a b` says that rows `a` and `b` may not stand in one table (equal
  primary keys, equal values in a `UNIQUE` column, two members of a partial
  unique index).  A `Table clash` is a list of rows, in insertion order, that
  carries the proof that no two of them clash, so a table that breaks a
  uniqueness constraint cannot be built.

    * `insert?`  — `INSERT`: refused when the new row clashes with a row there;
    * `update?`  — `UPDATE` of unique columns: refused when the result clashes;
    * `modify`   — `UPDATE` of other columns: cannot be refused;
    * `delete`   — `DELETE ... WHERE p`.

  `lookup key k` is the row with key `k`.  Every statement has one lemma that
  says what it does to `lookup`; the models above never unfold the row list.
-/

import Mathlib.Data.List.Basic
import Mathlib.Data.List.Nodup
import Mathlib.Data.List.Pairwise

namespace Relational

variable {α κ : Type*} {clash : α → α → Prop}

/-- Rows in insertion order, no two of which clash. -/
structure Table (clash : α → α → Prop) where
  rows : List α
  distinct : rows.Pairwise fun a b => ¬ clash a b

namespace Table

theorem ext {t u : Table clash} (h : t.rows = u.rows) : t = u := by
  cases t; cases u; cases h; rfl

/-- The table with no rows. -/
def empty (clash : α → α → Prop) : Table clash := ⟨[], List.Pairwise.nil⟩

/-- `INSERT`: the new row goes to the end, unless it clashes. -/
def insert? [DecidableRel clash] (t : Table clash) (a : α) : Option (Table clash) :=
  if h : ∀ r ∈ t.rows, ¬ clash r a then
    some ⟨t.rows ++ [a], by
      rw [List.pairwise_append]
      exact ⟨t.distinct, List.pairwise_singleton _ _, by simpa using h⟩⟩
  else none

/-- `UPDATE` of a table's rows that can make no two rows clash. -/
def modify (t : Table clash) (f : α → α) (hf : ∀ a b, clash (f a) (f b) → clash a b) :
    Table clash :=
  ⟨t.rows.map f, List.Pairwise.map f (fun a b hab h => hab (hf a b h)) t.distinct⟩

/-- `UPDATE` that may touch unique columns: refused when two rows would clash. -/
def update? [DecidableRel clash] (t : Table clash) (f : α → α) : Option (Table clash) :=
  if h : (t.rows.map f).Pairwise fun a b => ¬ clash a b then some ⟨t.rows.map f, h⟩ else none

/-- `DELETE ... WHERE p`. -/
def delete (t : Table clash) (p : α → Bool) : Table clash :=
  ⟨t.rows.filter (fun r => !p r), t.distinct.filter _⟩

/-- The row whose key is `k`. -/
def lookup [DecidableEq κ] (key : α → κ) (t : Table clash) (k : κ) : Option α :=
  t.rows.find? fun r => key r = k

@[simp] theorem rows_modify (t : Table clash) (f : α → α) (hf) :
    (t.modify f hf).rows = t.rows.map f := rfl

@[simp] theorem rows_delete (t : Table clash) (p : α → Bool) :
    (t.delete p).rows = t.rows.filter (fun r => !p r) := rfl

theorem rows_of_insert? [DecidableRel clash] {t t' : Table clash} {a : α}
    (h : t.insert? a = some t') : t'.rows = t.rows ++ [a] := by
  unfold insert? at h
  split at h
  · cases h; rfl
  · cases h

theorem rows_of_update? [DecidableRel clash] {t t' : Table clash} {f : α → α}
    (h : t.update? f = some t') : t'.rows = t.rows.map f := by
  unfold update? at h
  split at h
  · cases h; rfl
  · cases h

theorem insert?_isSome [DecidableRel clash] {t : Table clash} {a : α} :
    (t.insert? a).isSome ↔ ∀ r ∈ t.rows, ¬ clash r a := by
  unfold insert?
  split <;> simp_all

/-! ## Lookup -/

/-- Two rows of one table with the same key are the same row, when the key is
    one of the unique columns. -/
theorem eq_of_key_eq (key : α → κ) (hkey : ∀ a b, key a = key b → clash a b) {t : Table clash}
    {a b : α} (ha : a ∈ t.rows) (hb : b ∈ t.rows) (h : key a = key b) : a = b := by
  -- the keys of a table's rows are distinct
  have hnodup : (t.rows.map key).Nodup :=
    List.pairwise_map.mpr (t.distinct.imp fun hab heq => hab (hkey _ _ heq))
  exact List.inj_on_of_nodup_map hnodup ha hb h

section Lookup

variable [DecidableEq κ] (key : α → κ)

theorem mem_of_lookup {t : Table clash} {k : κ} {r : α} (h : t.lookup key k = some r) :
    r ∈ t.rows := List.mem_of_find?_eq_some h

theorem key_of_lookup {t : Table clash} {k : κ} {r : α} (h : t.lookup key k = some r) :
    key r = k := by simpa using List.find?_some h

theorem lookup_eq_none {t : Table clash} {k : κ} :
    t.lookup key k = none ↔ ∀ r ∈ t.rows, key r ≠ k := by
  simp [lookup]

theorem lookup_of_mem (hkey : ∀ a b, key a = key b → clash a b) {t : Table clash} {r : α}
    (h : r ∈ t.rows) : t.lookup key (key r) = some r := by
  cases hl : t.lookup key (key r) with
  | none => exact absurd rfl ((lookup_eq_none key).mp hl r h)
  | some r' =>
      exact congrArg some
        (eq_of_key_eq key hkey (mem_of_lookup key hl) h (key_of_lookup key hl))

theorem lookup_eq_some_iff (hkey : ∀ a b, key a = key b → clash a b) {t : Table clash} {k : κ}
    {r : α} : t.lookup key k = some r ↔ r ∈ t.rows ∧ key r = k := by
  constructor
  · intro h
    exact ⟨mem_of_lookup key h, key_of_lookup key h⟩
  · rintro ⟨hmem, rfl⟩
    exact lookup_of_mem key hkey hmem

theorem lookup_of_insert? [DecidableRel clash] {t t' : Table clash} {a : α}
    (h : t.insert? a = some t') (k : κ) :
    t'.lookup key k = (t.lookup key k).or (if key a = k then some a else none) := by
  rw [lookup, rows_of_insert? h, List.find?_append]
  congr 1
  by_cases hk : key a = k <;> simp [hk]

/-- The key of a row that could be inserted was not in use. -/
theorem lookup_none_of_insert? [DecidableRel clash] (hkey : ∀ a b, key a = key b → clash a b)
    {t t' : Table clash} {a : α} (h : t.insert? a = some t') : t.lookup key (key a) = none := by
  rw [lookup_eq_none]
  intro r hr heq
  have hsome : (t.insert? a).isSome := by rw [h]; rfl
  exact insert?_isSome.mp hsome r hr (hkey _ _ heq)

/-- What an insertion does to `lookup`, when the key is one of the unique columns:
    the key was not in use, now it is, and no other key is touched. -/
theorem lookup_insert? [DecidableRel clash] (hkey : ∀ a b, key a = key b → clash a b)
    {t t' : Table clash} {a : α} (h : t.insert? a = some t') :
    t.lookup key (key a) = none ∧
      ∀ k, t'.lookup key k = if k = key a then some a else t.lookup key k := by
  have hfree := lookup_none_of_insert? key hkey h
  refine ⟨hfree, fun k => ?_⟩
  rw [lookup_of_insert? key h]
  by_cases hk : k = key a
  · subst hk
    simp [hfree]
  · rw [if_neg hk, if_neg (Ne.symm hk), Option.or_none]

theorem lookup_map {t : List α} {f : α → α} (hk : ∀ r, key (f r) = key r) (k : κ) :
    (t.map f).find? (fun r => key r = k) = (t.find? fun r => key r = k).map f := by
  rw [List.find?_map]
  congr 2
  funext r
  simp [hk]

theorem lookup_modify {t : Table clash} {f : α → α} (hf) (hk : ∀ r, key (f r) = key r) (k : κ) :
    (t.modify f hf).lookup key k = (t.lookup key k).map f :=
  lookup_map key hk k

theorem lookup_of_update? [DecidableRel clash] {t t' : Table clash} {f : α → α}
    (hk : ∀ r, key (f r) = key r) (h : t.update? f = some t') (k : κ) :
    t'.lookup key k = (t.lookup key k).map f := by
  rw [lookup, rows_of_update? h]
  exact lookup_map key hk k

/-- An update of the row with one key is accepted exactly when the new row clashes
    with no other row. -/
theorem update?_isSome_of_key [DecidableRel clash] {key : α → κ}
    (hkey : ∀ a b, key a = key b → clash a b) (hsymm : ∀ a b, clash a b → clash b a)
    {t : Table clash} {f : α → α} {k : κ} {r : α} (hr : r ∈ t.rows) (hrk : key r = k)
    (hf : ∀ a, key a ≠ k → f a = a) :
    (t.update? f).isSome ↔ ∀ a ∈ t.rows, key a ≠ k → ¬ clash (f r) a := by
  have hnodup : t.rows.Nodup :=
    t.distinct.imp fun hab heq => hab (hkey _ _ (congrArg key heq))
  have hdistinct : ∀ a ∈ t.rows, ∀ b ∈ t.rows, a ≠ b → ¬ clash a b := by
    have : Std.Symm fun a b => ¬ clash a b := ⟨fun a b hab hba => hab (hsymm b a hba)⟩
    exact fun a ha b hb hne => t.distinct.forall ha hb hne
  have hsome : (t.update? f).isSome ↔ t.rows.Pairwise fun a b => ¬ clash (f a) (f b) := by
    rw [← List.pairwise_map (R := fun a b => ¬ clash a b), update?]
    split <;> simp_all
  rw [hsome]
  constructor
  · intro hpair a ha hak hclash
    have : Std.Symm fun a b => ¬ clash (f a) (f b) := ⟨fun a b hab hba => hab (hsymm _ _ hba)⟩
    have hne : r ≠ a := fun h => hak (h ▸ hrk)
    refine hpair.forall hr ha hne ?_
    rw [hf a hak]
    exact hclash
  · intro hother
    -- only the row with key `k` is new, so every pair has an old row in it
    refine hnodup.pairwise_of_forall_ne fun a ha b hb hne => ?_
    have hrow : ∀ c ∈ t.rows, key c = k → c = r := fun c hc hck =>
      eq_of_key_eq key hkey hc hr (hck.trans hrk.symm)
    by_cases hak : key a = k
    · obtain rfl := hrow a ha hak
      have hbk : key b ≠ k := fun hbk => hne (hrow b hb hbk).symm
      rw [hf b hbk]
      exact hother b hb hbk
    · rw [hf a hak]
      by_cases hbk : key b = k
      · obtain rfl := hrow b hb hbk
        exact fun hclash => hother a ha hak (hsymm _ _ hclash)
      · rw [hf b hbk]
        exact hdistinct a ha b hb hne

theorem lookup_delete (hkey : ∀ a b, key a = key b → clash a b) {t : Table clash}
    {p : α → Bool} (k : κ) :
    (t.delete p).lookup key k = (t.lookup key k).filter (fun r => !p r) := by
  apply Option.ext
  intro r
  rw [lookup_eq_some_iff key hkey, Option.filter_eq_some_iff, lookup_eq_some_iff key hkey]
  simp only [rows_delete, List.mem_filter]
  tauto

/-- A `SELECT` whose condition fixes the key. -/
theorem find?_of_key (hkey : ∀ a b, key a = key b → clash a b) (t : Table clash)
    {p : α → Bool} {k : κ} (hp : ∀ r, p r = true → key r = k) :
    t.rows.find? p = (t.lookup key k).filter p := by
  apply Option.ext
  intro r
  rw [Option.filter_eq_some_iff, lookup_eq_some_iff key hkey]
  constructor
  · intro h
    have hpr := List.find?_some h
    exact ⟨⟨List.mem_of_find?_eq_some h, hp r hpr⟩, hpr⟩
  · rintro ⟨⟨hmem, hk⟩, hpr⟩
    cases hfind : t.rows.find? p with
    | none => exact absurd hpr (List.find?_eq_none.mp hfind r hmem)
    | some r' =>
        -- both rows have the key `k`
        have hk' := hp r' (List.find?_some hfind)
        exact congrArg some (eq_of_key_eq key hkey (List.mem_of_find?_eq_some hfind) hmem
          (hk'.trans hk.symm))

/-- How many rows a statement touches whose condition fixes the key: the number
    `execute` returns. -/
theorem countP_eq_of_key (hkey : ∀ a b, key a = key b → clash a b) (t : Table clash)
    {p : α → Bool} {k : κ} (hp : ∀ r, p r = true → key r = k) :
    t.rows.countP p = if (t.lookup key k).any p then 1 else 0 := by
  have hdist : t.rows.Pairwise fun a b => key a ≠ key b :=
    t.distinct.imp fun hab heq => hab (hkey _ _ heq)
  unfold lookup
  generalize t.rows = rows at hdist ⊢
  induction rows with
  | nil => rfl
  | cons a l ih =>
      rw [List.pairwise_cons] at hdist
      rw [List.countP_cons]
      -- after the row with key `k` no other row is counted
      by_cases ha : key a = k
      · have hrest : l.countP p = 0 := by
          rw [List.countP_eq_zero]
          intro b hb hpb
          exact hdist.1 b hb (ha.trans (hp b hpb).symm)
        rw [hrest, List.find?_cons_of_pos (by simpa using ha)]
        simp
      · have hpa : ¬ p a = true := fun hpa => ha (hp a hpa)
        rw [List.find?_cons_of_neg (by simpa using ha), if_neg hpa, ih hdist.2]
        rfl

end Lookup

end Table

end Relational
