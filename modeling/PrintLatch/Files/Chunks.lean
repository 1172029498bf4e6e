/-
  PrintLatch.Files.Chunks

  Several writers that put one content into one file, each from its own position
  on and a chunk at a time.

  `Covered` is the invariant: what the file does not have right yet, a writer at or
  before that place will write.  It is kept when a writer truncates the file and
  starts (`covered_truncate`), when one writes its next chunk (`Covered.write`) and
  when those that are done stop (`Covered.stop`); with no writer left, the file is the
  content (`Covered.eq`).
-/

import Mathlib.Data.List.Basic
import Mathlib.Logic.Function.Basic

namespace Files

variable {α ι : Type*}

/-- `chunk` written at an offset of `file`; a gap before it is filled with zeros. -/
def writeAt [Zero α] (file : List α) (offset : Nat) (chunk : List α) : List α :=
  if chunk = [] then file
  else
    file.take offset ++ List.replicate (offset - file.length) 0 ++ chunk ++
      file.drop (offset + chunk.length)

/-- The next chunk of `count` items. -/
def nextChunk (content : List α) (position count : Nat) : List α :=
  (content.drop position).take count

theorem getElem?_nextChunk {content : List α} {position count k : Nat}
    (h : k < (nextChunk content position count).length) :
    (nextChunk content position count)[k]? = content[position + k]? := by
  unfold nextChunk at h ⊢
  rw [List.getElem?_take_of_lt (by rw [List.length_take] at h; omega), List.getElem?_drop]

theorem length_nextChunk (content : List α) (position count : Nat) :
    (nextChunk content position count).length = min count (content.length - position) := by
  simp [nextChunk]

section

variable [Zero α]

theorem length_writeAt {file chunk : List α} (hchunk : chunk ≠ []) (offset : Nat) :
    (writeAt file offset chunk).length = max file.length (offset + chunk.length) := by
  unfold writeAt
  rw [if_neg hchunk]
  simp only [List.length_append, List.length_take, List.length_replicate, List.length_drop]
  omega

/-- The chunk is there afterwards. -/
theorem getElem?_writeAt_chunk {file chunk : List α} {offset k : Nat} (hle : offset ≤ k)
    (hlt : k < offset + chunk.length) :
    (writeAt file offset chunk)[k]? = chunk[k - offset]? := by
  have hchunk : chunk ≠ [] := by
    rintro rfl
    simp at hlt
    omega
  have hfront : (file.take offset ++ List.replicate (offset - file.length) (0 : α)).length =
      offset := by
    simp only [List.length_append, List.length_take, List.length_replicate]
    omega
  unfold writeAt
  rw [if_neg hchunk, List.getElem?_append_left
    (by rw [List.length_append, hfront]; omega), List.getElem?_append_right (by omega), hfront]

/-- What the file had elsewhere is there afterwards. -/
theorem getElem?_writeAt_of_lt {file chunk : List α} {offset k : Nat} (hfile : k < file.length)
    (hout : k < offset ∨ offset + chunk.length ≤ k) :
    (writeAt file offset chunk)[k]? = file[k]? := by
  by_cases hchunk : chunk = []
  · rw [writeAt, if_pos hchunk]
  unfold writeAt
  rw [if_neg hchunk]
  rcases hout with hlt | hge
  · rw [List.append_assoc, List.append_assoc, List.getElem?_append_left
      (by rw [List.length_take]; omega), List.getElem?_take_of_lt hlt]
  · have hfront : (file.take offset ++ List.replicate (offset - file.length) (0 : α) ++
        chunk).length = offset + chunk.length := by
      simp only [List.length_append, List.length_take, List.length_replicate]
      omega
    rw [List.getElem?_append_right (by omega), hfront, List.getElem?_drop]
    congr 1
    omega

end

/-- The file is no longer than the content, and what it does not have right a writer
    at or before that place will write. -/
structure Covered (content file : List α) (writers : ι → Option Nat) : Prop where
  length : file.length ≤ content.length
  items : ∀ k, k < content.length →
    file[k]? = content[k]? ∨ ∃ i position, writers i = some position ∧ position ≤ k

/-- A writer that has just truncated the file will write all of it. -/
theorem covered_truncate (content : List α) {writers : ι → Option Nat} {i : ι}
    (h : writers i = some 0) : Covered content [] writers :=
  ⟨Nat.zero_le _, fun k _ => .inr ⟨i, 0, h, Nat.zero_le k⟩⟩

/-- Writers that have written everything can stop. -/
theorem Covered.stop {content file : List α} {writers writers' : ι → Option Nat}
    (h : Covered content file writers)
    (hstop : ∀ i, writers' i = writers i ∨
      ∀ position, writers i = some position → content.length ≤ position) :
    Covered content file writers' := by
  refine ⟨h.length, fun k hk => ?_⟩
  rcases h.items k hk with heq | ⟨i, position, hi, hle⟩
  · exact .inl heq
  · rcases hstop i with hsame | hdone
    · exact .inr ⟨i, position, hsame.trans hi, hle⟩
    · have hall := hdone position hi
      omega

/-- With no writer left the file is the content. -/
theorem Covered.eq {content file : List α} {writers : ι → Option Nat}
    (h : Covered content file writers) (hnone : ∀ i, writers i = none) : file = content := by
  apply List.ext_getElem?
  intro k
  by_cases hk : k < content.length
  · rcases h.items k hk with heq | ⟨i, position, hi, -⟩
    · exact heq
    · rw [hnone i] at hi
      cases hi
  · have hlen := h.length
    rw [List.getElem?_eq_none (by omega), List.getElem?_eq_none (by omega)]

variable [DecidableEq ι]

/-- A writer's next chunk keeps the file covered. -/
theorem Covered.write [Zero α] {content file : List α} {writers : ι → Option Nat}
    (h : Covered content file writers) {i : ι} {position : Nat} (hi : writers i = some position)
    (count : Nat) :
    Covered content (writeAt file position (nextChunk content position count))
      (Function.update writers i
        (some (position + (nextChunk content position count).length))) := by
  have hlen := length_nextChunk content position count
  -- what another writer will write it will still write
  have hothers : ∀ k j q, writers j = some q → q ≤ k → j ≠ i →
      ∃ j q, Function.update writers i
        (some (position + (nextChunk content position count).length)) j = some q ∧ q ≤ k :=
    fun k j q hj hq hne => ⟨j, q, by rw [Function.update_of_ne hne]; exact hj, hq⟩
  constructor
  · by_cases hchunk : nextChunk content position count = []
    · rw [writeAt, if_pos hchunk]
      exact h.length
    · rw [length_writeAt hchunk]
      have hfile := h.length
      have hpos := List.length_pos_iff.mpr hchunk
      omega
  · intro k hk
    by_cases hin : position ≤ k ∧ k < position + (nextChunk content position count).length
    · left
      rw [getElem?_writeAt_chunk hin.1 hin.2, getElem?_nextChunk (by omega)]
      congr 1
      omega
    · rcases h.items k hk with heq | ⟨j, q, hj, hq⟩
      · left
        have hfile : k < file.length := by
          by_contra hout
          rw [List.getElem?_eq_none (by omega), List.getElem?_eq_getElem hk] at heq
          cases heq
        rw [getElem?_writeAt_of_lt hfile (by omega), heq]
      · right
        by_cases hji : j = i
        · subst hji
          obtain rfl : position = q := Option.some.inj (hi.symm.trans hj)
          exact ⟨j, _, Function.update_self .., by omega⟩
        · exact hothers k j q hj hq hji

end Files
