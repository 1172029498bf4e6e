/-
  PrintLatch.PdfGuard.Limits

  The loop of `validate_pdf` over the objects of a document.

  `pixels` and `decodedBytes` are what an object weighs, over unbounded numbers.
  One round of the loop charges the two weights to the two totals
  (`checkObject_eq_ok`), so the whole loop is two budgets of `Ledger.charge`
  (`checkObjects_eq_ok`): saturation, checked addition and the clip of the decoder
  only act where a budget is exceeded anyway.
-/

import PrintLatch.Ledger.Budget
import PrintLatch.PdfGuard
import Mathlib.Algebra.Order.Group.Nat

namespace PrintLatch.PdfGuard

open Ledger Text

/-! ## What an object weighs -/

/-- The pixels of a directly declared image, as an exact product. -/
def imagePixels (dict : Dictionary) : Nat :=
  if dictionaryName dict "Subtype" = some (utf8 "Image") then
    (dictionaryPositiveInteger dict "Width").getD 0 *
      (dictionaryPositiveInteger dict "Height").getD 0
  else 0

/-- The pixels of an object. -/
def PdfObject.pixels : PdfObject → Nat
  | .stream dict _ => imagePixels dict
  | _ => 0

section

variable (inflate : List UInt8 → List UInt8 × Bool)

/-- The bytes a stream stands for: those that inflate from it where `FlateDecode` is
    declared directly, else those it is stored in. -/
def streamBytes (dict : Dictionary) (content : List UInt8) : Nat :=
  if hasFilter dict "FlateDecode" then (inflate content).1.length else content.length

/-- The decoded bytes of an object. -/
def PdfObject.decodedBytes : PdfObject → Nat
  | .stream dict content => streamBytes inflate dict content
  | _ => 0

/-- A directly declared Flate stream decodes without an error. -/
def PdfObject.decodes : PdfObject → Bool
  | .stream dict content => !hasFilter dict "FlateDecode" || (inflate content).2
  | _ => true

/-- The decoded bytes of an object that decodes. -/
def PdfObject.byteCost (object : PdfObject) : Option Nat :=
  if object.decodes inflate then some (object.decodedBytes inflate) else none

end

/-- The length of a stream's content is a `usize`. -/
def PdfObject.Sized : PdfObject → Prop
  | .stream _ content => content.length < 2 ^ 64
  | _ => True

/-- The bytes a round of the loop has inflated from an object when it is over. -/
def objectInflated (inflate : List UInt8 → List UInt8 × Bool) (totals : Totals) :
    PdfObject → Nat
  | .stream dict content =>
      match addPixels totals dict with
      | .error _ => 0
      | .ok _ =>
          match tryFrom 64 content.length "stream is too large" with
          | .error _ => 0
          | .ok _ =>
              if hasFilter dict "FlateDecode" then
                min (inflate content).1.length (maxDecodedStreamBytes + 1)
              else 0
  | _ => 0

/-- The bytes the loop has inflated when it is over. -/
def inflatedBytes (inflate : List UInt8 → List UInt8 × Bool) (totals : Totals) :
    List PdfObject → Nat
  | [] => 0
  | object :: rest =>
      objectInflated inflate totals object +
        match checkObject inflate totals object with
        | .error _ => 0
        | .ok totals => inflatedBytes inflate totals rest

/-! ## One round -/

theorem checkedAdd_eq_ok {a b c : Nat} {context : String} :
    checkedAdd a b context = .ok c ↔ a + b < 2 ^ 64 ∧ c = a + b := by
  unfold checkedAdd
  split
  · next h =>
      simp only [h, true_and, Except.ok.injEq]
      exact eq_comm
  · next h => simp only [h, false_and, reduceCtorEq]

theorem maxImagePixels_lt : maxImagePixels < 2 ^ 64 - 1 := by decide

theorem maxDecodedStreamBytes_lt : maxDecodedStreamBytes < 2 ^ 64 - 1 := by decide

/-- A saturated product is exact, or past the limit together with the exact one. -/
theorem add_saturatingMul_le (total a b : Nat) :
    total + saturatingMul a b ≤ maxImagePixels ↔ total + a * b ≤ maxImagePixels := by
  have hlimit := maxImagePixels_lt
  unfold saturatingMul
  omega

theorem addPixels_eq_ok {totals next : Totals} {dict : Dictionary}
    (hle : totals.imagePixels ≤ maxImagePixels) :
    addPixels totals dict = .ok next ↔
      totals.imagePixels + imagePixels dict ≤ maxImagePixels ∧
        next = { totals with imagePixels := totals.imagePixels + imagePixels dict } := by
  unfold addPixels imagePixels
  split
  · dsimp only
    generalize (dictionaryPositiveInteger dict "Width").getD 0 = width
    generalize (dictionaryPositiveInteger dict "Height").getD 0 = height
    have hlimit := maxImagePixels_lt
    have hiff := add_saturatingMul_le totals.imagePixels width height
    by_cases hfits : totals.imagePixels + width * height ≤ maxImagePixels
    · -- within the limit nothing saturates
      have hexact : saturatingMul width height = width * height := by
        unfold saturatingMul
        omega
      have hadd : checkedAdd totals.imagePixels (saturatingMul width height)
          "image dimensions overflow" = .ok (totals.imagePixels + width * height) :=
        checkedAdd_eq_ok.mpr ⟨by omega, by rw [hexact]⟩
      rw [hadd]
      simp only [hfits, not_lt.mpr hfits, if_false, true_and, Except.ok.injEq]
      exact eq_comm
    · -- past the limit the sum overflows, or is past it as a saturated one
      simp only [hfits, false_and, iff_false]
      split
      · simp
      · next pixels hadd =>
          have hsum := (checkedAdd_eq_ok.mp hadd).2
          rw [if_pos (by omega)]
          simp
  · simp only [add_zero, hle, true_and, Except.ok.injEq]
    exact eq_comm

section

variable {inflate : List UInt8 → List UInt8 × Bool}

/-- The decoder behind `take` counts every byte of a stream that decodes, and past the
    limit it counts past the limit. -/
theorem copied_eq_some {content : List UInt8} {count : Nat} :
    copied inflate content = some count ↔
      if maxDecodedStreamBytes < (inflate content).1.length then
        count = maxDecodedStreamBytes + 1
      else (inflate content).2 = true ∧ count = (inflate content).1.length := by
  unfold copied
  obtain ⟨decoded, ended⟩ := inflate content
  simp only [Nat.lt_iff_add_one_le]
  split
  · simp [eq_comm]
  · cases ended
    · simp
    · simp [eq_comm]

/-- A round adds the length of a stream if and only if that is a `usize`, the stream
    decodes and the sum fits. -/
theorem addBytes_iff (inflate : List UInt8 → List UInt8 × Bool) (total next : Nat)
    (dict : Dictionary) {content : List UInt8} (hsized : content.length < 2 ^ 64) :
    (∃ length overflow, streamLength inflate dict content = .ok (length, overflow) ∧
        checkedAdd total length overflow = .ok next ∧ next ≤ maxDecodedStreamBytes) ↔
      (PdfObject.stream dict content).decodes inflate = true ∧
        total + streamBytes inflate dict content ≤ maxDecodedStreamBytes ∧
          next = total + streamBytes inflate dict content := by
  have hlimit := maxDecodedStreamBytes_lt
  have hfrom : tryFrom 64 content.length "stream is too large" = .ok content.length :=
    tryFrom_eq_ok.mpr ⟨hsized, rfl⟩
  simp only [streamLength, PdfObject.decodes, streamBytes, hfrom]
  cases hflate : hasFilter dict "FlateDecode" with
  | false =>
      -- the stored length is added as it is
      simp only [Bool.false_eq_true, if_false, Except.ok.injEq, Prod.mk.injEq, Bool.not_false,
        Bool.true_or, true_and]
      constructor
      · rintro ⟨length, overflow, ⟨rfl, rfl⟩, hadd, hle⟩
        have hnext := (checkedAdd_eq_ok.mp hadd).2
        exact ⟨by omega, hnext⟩
      · rintro ⟨hle, rfl⟩
        exact ⟨_, _, ⟨rfl, rfl⟩, checkedAdd_eq_ok.mpr ⟨by omega, rfl⟩, hle⟩
  | true =>
      simp only [if_true, Bool.not_true, Bool.false_or]
      constructor
      · rintro ⟨length, overflow, hlength, hadd, hle⟩
        cases hcopied : copied inflate content with
        | none =>
            rw [hcopied] at hlength
            cases hlength
        | some count =>
            rw [hcopied] at hlength
            cases hlength
            have hnext := (checkedAdd_eq_ok.mp hadd).2
            have hcount := copied_eq_some.mp hcopied
            split at hcount
            · -- a stream that was clipped is past the limit alone
              omega
            · exact ⟨hcount.1, by omega, by omega⟩
      · rintro ⟨hended, hle, rfl⟩
        have hcopied : copied inflate content = some (inflate content).1.length := by
          rw [copied_eq_some, if_neg (by omega)]
          exact ⟨hended, rfl⟩
        rw [hcopied]
        exact ⟨_, _, rfl, checkedAdd_eq_ok.mpr ⟨by omega, rfl⟩, hle⟩

/-- One round charges the pixels and the decoded bytes of its object. -/
theorem checkObject_eq_ok (inflate : List UInt8 → List UInt8 × Bool) {totals : Totals}
    (next : Totals) {object : PdfObject} (hsized : object.Sized)
    (hpixels : totals.imagePixels ≤ maxImagePixels)
    (hdecoded : totals.decoded ≤ maxDecodedStreamBytes) :
    checkObject inflate totals object = .ok next ↔
      totals.imagePixels + object.pixels ≤ maxImagePixels ∧ object.decodes inflate = true ∧
        totals.decoded + object.decodedBytes inflate ≤ maxDecodedStreamBytes ∧
          next = ⟨totals.decoded + object.decodedBytes inflate,
            totals.imagePixels + object.pixels⟩ := by
  cases object with
  | stream dict content =>
      have hbytes := fun next => addBytes_iff inflate totals.decoded next dict hsized
      simp only [checkObject, PdfObject.pixels, PdfObject.decodedBytes]
      constructor
      · -- the round succeeded, so each of its checks did
        intro h
        split at h
        · cases h
        · next afterPixels hadd =>
            obtain ⟨hfits, rfl⟩ := (addPixels_eq_ok hpixels).mp hadd
            split at h
            · cases h
            · next length overflow hlength =>
                split at h
                · cases h
                · next decoded hsum =>
                    split at h
                    · cases h
                    · next hle =>
                        cases h
                        obtain ⟨hdecodes, hfitsBytes, rfl⟩ := (hbytes decoded).mp
                          ⟨length, overflow, hlength, hsum, not_lt.mp hle⟩
                        exact ⟨hfits, hdecodes, hfitsBytes, rfl⟩
      · rintro ⟨hfits, hdecodes, hfitsBytes, rfl⟩
        obtain ⟨length, overflow, hlength, hsum, hle⟩ :=
          (hbytes _).mpr ⟨hdecodes, hfitsBytes, rfl⟩
        rw [(addPixels_eq_ok hpixels).mpr ⟨hfits, rfl⟩]
        simp only [hlength, hsum, not_lt.mpr hle, if_false]
  | null | boolean | integer | real | name | string | array | dictionary | reference =>
      simp only [checkObject, PdfObject.pixels, PdfObject.decodedBytes, PdfObject.decodes,
        add_zero, hpixels, hdecoded, true_and, Except.ok.injEq]
      exact eq_comm

theorem byteCost_eq_some {object : PdfObject} {cost : Nat} :
    object.byteCost inflate = some cost ↔
      object.decodes inflate = true ∧ cost = object.decodedBytes inflate := by
  unfold PdfObject.byteCost
  split
  · next h =>
      simp only [h, true_and, Option.some.injEq]
      exact eq_comm
  · next h => simp [h]

/-! ## The loop -/

/-- The loop is two budgets: one for pixels, one for decoded bytes. -/
theorem checkObjects_eq_ok {totals final : Totals} {objects : List PdfObject}
    (hsized : ∀ object ∈ objects, object.Sized)
    (hpixels : totals.imagePixels ≤ maxImagePixels)
    (hdecoded : totals.decoded ≤ maxDecodedStreamBytes) :
    checkObjects inflate totals objects = .ok final ↔
      charge maxImagePixels (fun object => some object.pixels) totals.imagePixels objects =
          some final.imagePixels ∧
        charge maxDecodedStreamBytes (PdfObject.byteCost inflate) totals.decoded objects =
          some final.decoded := by
  induction objects generalizing totals with
  | nil =>
      simp only [checkObjects, charge, Except.ok.injEq, Option.some.injEq]
      constructor
      · rintro rfl
        exact ⟨rfl, rfl⟩
      · rintro ⟨hp, hd⟩
        show Totals.mk totals.decoded totals.imagePixels = final
        rw [hp, hd]
  | cons object rest ih =>
      have hround := fun next => checkObject_eq_ok inflate next (hsized object (by simp)) hpixels
        hdecoded
      have hrest : ∀ object ∈ rest, object.Sized := fun other hmem => hsized other (by simp [hmem])
      unfold checkObjects charge
      constructor
      · intro h
        split at h
        · cases h
        · next next hnext =>
            obtain ⟨hfits, hdecodes, hfitsBytes, rfl⟩ := (hround next).mp hnext
            have hcost := byteCost_eq_some.mpr ⟨hdecodes, rfl⟩
            simp only [hcost, not_lt.mpr hfits, not_lt.mpr hfitsBytes, if_false]
            exact (ih hrest hfits hfitsBytes).mp h
      · rintro ⟨hp, hd⟩
        -- both budgets let the object through
        split at hp
        · cases hp
        · next cost hcost =>
            cases hcost
            split at hp
            · cases hp
            · next hfits =>
                split at hd
                · cases hd
                · next bytes hbytes =>
                    obtain ⟨hdecodes, rfl⟩ := byteCost_eq_some.mp hbytes
                    split at hd
                    · cases hd
                    · next hfitsBytes =>
                        rw [(hround _).mpr
                          ⟨not_lt.mp hfits, hdecodes, not_lt.mp hfitsBytes, rfl⟩]
                        exact (ih hrest (not_lt.mp hfits) (not_lt.mp hfitsBytes)).mpr ⟨hp, hd⟩

/-- The pixels of all objects. -/
def totalPixels (objects : List PdfObject) : Nat := (objects.map PdfObject.pixels).sum

/-- The decoded bytes of all objects. -/
def totalDecoded (inflate : List UInt8 → List UInt8 × Bool) (objects : List PdfObject) : Nat :=
  (objects.map (PdfObject.decodedBytes inflate)).sum

/-- What the limits of the loop say of a document, over unbounded numbers. -/
structure WithinLimits (inflate : List UInt8 → List UInt8 × Bool) (objects : List PdfObject) :
    Prop where
  pixels : totalPixels objects ≤ maxImagePixels
  decodes : ∀ object ∈ objects, object.decodes inflate = true
  decoded : totalDecoded inflate objects ≤ maxDecodedStreamBytes

theorem bill_byteCost {objects : List PdfObject}
    (h : ∀ object ∈ objects, object.decodes inflate = true) :
    bill (PdfObject.byteCost inflate) objects = totalDecoded inflate objects := by
  refine congrArg List.sum (List.map_congr_left fun object hmem => ?_)
  rw [byteCost_eq_some.mpr ⟨h object hmem, rfl⟩]
  rfl

/-- The loop gets through with exactly the sums, and only within the limits. -/
theorem checkObjects_iff {objects : List PdfObject} (hsized : ∀ object ∈ objects, object.Sized)
    {final : Totals} :
    checkObjects inflate ⟨0, 0⟩ objects = .ok final ↔
      WithinLimits inflate objects ∧
        final = ⟨totalDecoded inflate objects, totalPixels objects⟩ := by
  have hcosts : (∀ object ∈ objects, (object.byteCost inflate).isSome) ↔
      ∀ object ∈ objects, object.decodes inflate = true := by
    refine forall₂_congr fun object _ => ?_
    simp [Option.isSome_iff_exists, byteCost_eq_some]
  rw [checkObjects_eq_ok hsized (Nat.zero_le _) (Nat.zero_le _),
    charge_eq_some (Nat.zero_le _), charge_eq_some (Nat.zero_le _), hcosts]
  simp only [Option.isSome_some, implies_true, true_and, zero_add]
  have hpixels : bill (fun object : PdfObject => some object.pixels) objects =
      totalPixels objects := rfl
  rw [hpixels]
  constructor
  · rintro ⟨⟨hp, hfinalPixels⟩, hdecodes, hd, hfinalDecoded⟩
    rw [bill_byteCost hdecodes] at hd hfinalDecoded
    refine ⟨⟨hp, hdecodes, hd⟩, ?_⟩
    rw [← hfinalPixels, ← hfinalDecoded]
  · rintro ⟨⟨hp, hdecodes, hd⟩, rfl⟩
    rw [bill_byteCost hdecodes]
    exact ⟨⟨hp, rfl⟩, hdecodes, hd, rfl⟩

theorem checkObjects_isOk {objects : List PdfObject}
    (hsized : ∀ object ∈ objects, object.Sized) :
    (∃ final, checkObjects inflate ⟨0, 0⟩ objects = .ok final) ↔ WithinLimits inflate objects := by
  constructor
  · rintro ⟨final, h⟩
    exact ((checkObjects_iff hsized).mp h).1
  · intro h
    exact ⟨_, (checkObjects_iff hsized).mpr ⟨h, rfl⟩⟩

theorem WithinLimits.perm {objects others : List PdfObject} (h : WithinLimits inflate objects)
    (hperm : others.Perm objects) : WithinLimits inflate others where
  pixels := by
    have hsum : totalPixels others = totalPixels objects := (hperm.map _).sum_eq
    exact hsum ▸ h.pixels
  decodes := fun object hmem => h.decodes object (hperm.mem_iff.mp hmem)
  decoded := by
    have hsum : totalDecoded inflate others = totalDecoded inflate objects :=
      (hperm.map _).sum_eq
    exact hsum ▸ h.decoded

/-! ## How much the loop inflates -/

theorem objectInflated_le (totals : Totals) (object : PdfObject) :
    objectInflated inflate totals object ≤ maxDecodedStreamBytes + 1 := by
  unfold objectInflated
  split
  · split
    · exact Nat.zero_le _
    · split
      · exact Nat.zero_le _
      · split
        · exact Nat.min_le_right _ _
        · exact Nat.zero_le _
  · exact Nat.zero_le _

/-- What an accepted object inflates to is in the total. -/
theorem objectInflated_le_decoded (totals : Totals) (object : PdfObject) :
    objectInflated inflate totals object ≤ object.decodedBytes inflate := by
  unfold objectInflated
  split
  · split
    · exact Nat.zero_le _
    · split
      · exact Nat.zero_le _
      · split
        · next hflate =>
            simp only [PdfObject.decodedBytes, streamBytes, hflate, if_true]
            exact Nat.min_le_left _ _
        · exact Nat.zero_le _
  · exact Nat.zero_le _

/-- Up to the last round everything inflated is in the total; the last round inflates at
    most one byte more than the limit. -/
theorem inflatedBytes_le (totals : Totals) {objects : List PdfObject}
    (hsized : ∀ object ∈ objects, object.Sized)
    (hpixels : totals.imagePixels ≤ maxImagePixels)
    (hdecoded : totals.decoded ≤ maxDecodedStreamBytes) :
    totals.decoded + inflatedBytes inflate totals objects ≤ 2 * maxDecodedStreamBytes + 1 := by
  induction objects generalizing totals with
  | nil =>
      simp only [inflatedBytes]
      omega
  | cons object rest ih =>
      unfold inflatedBytes
      have hlast : objectInflated inflate totals object ≤ maxDecodedStreamBytes + 1 :=
        objectInflated_le totals object
      split
      · -- this round is the last
        omega
      · next next hnext =>
          obtain ⟨hfits, -, hfitsBytes, rfl⟩ :=
            (checkObject_eq_ok inflate next (hsized object (by simp)) hpixels hdecoded).mp hnext
          have hcounted : objectInflated inflate totals object ≤ object.decodedBytes inflate :=
            objectInflated_le_decoded totals object
          have hrest : totals.decoded + object.decodedBytes inflate +
              inflatedBytes inflate ⟨totals.decoded + object.decodedBytes inflate,
                totals.imagePixels + object.pixels⟩ rest ≤ 2 * maxDecodedStreamBytes + 1 :=
            ih ⟨_, _⟩ (fun other hmem => hsized other (by simp [hmem])) hfits hfitsBytes
          omega

/-! ## The loop as exact arithmetic -/

/-- The loop over the objects decides the three conditions of `WithinLimits` exactly, in
    any order of the objects, and inflates at most 200 MiB and one byte. -/
theorem checkObjects_exact (objects : List PdfObject)
    (hsized : ∀ object ∈ objects, object.Sized) :
    ((∃ final, checkObjects inflate ⟨0, 0⟩ objects = .ok final) ↔
        totalPixels objects ≤ maxImagePixels ∧
          (∀ object ∈ objects, object.decodes inflate = true) ∧
            totalDecoded inflate objects ≤ maxDecodedStreamBytes) ∧
      (∀ others : List PdfObject, others.Perm objects →
        ((∃ final, checkObjects inflate ⟨0, 0⟩ others = .ok final) ↔
          ∃ final, checkObjects inflate ⟨0, 0⟩ objects = .ok final)) ∧
        inflatedBytes inflate ⟨0, 0⟩ objects ≤ 2 * maxDecodedStreamBytes + 1 := by
  refine ⟨?_, ?_, ?_⟩
  · rw [checkObjects_isOk hsized]
    exact ⟨fun h => ⟨h.pixels, h.decodes, h.decoded⟩, fun h => ⟨h.1, h.2.1, h.2.2⟩⟩
  · intro others hperm
    rw [checkObjects_isOk hsized,
      checkObjects_isOk fun object hmem => hsized object (hperm.mem_iff.mp hmem)]
    exact ⟨fun h => h.perm hperm.symm, fun h => h.perm hperm⟩
  · have hbound : 0 + inflatedBytes inflate ⟨0, 0⟩ objects ≤ 2 * maxDecodedStreamBytes + 1 :=
      inflatedBytes_le ⟨0, 0⟩ hsized (Nat.zero_le _) (Nat.zero_le _)
    omega

end

/-- An image of exactly 100 megapixels, and a stream that inflates to twice its bytes. -/
def limitObjects : List PdfObject :=
  [.stream [(utf8 "Subtype", .name (utf8 "Image")), (utf8 "Width", .integer 10000),
      (utf8 "Height", .integer 10000)] [1, 2, 3],
    .stream [(utf8 "Filter", .name (utf8 "FlateDecode"))] [4, 5]]

theorem limitObjects_pass : ∃ final,
    checkObjects (fun content => (content ++ content, true)) ⟨0, 0⟩ limitObjects = .ok final := by
  refine (checkObjects_exact limitObjects ?_).1.mpr ⟨?_, ?_, ?_⟩
  · simp [limitObjects, PdfObject.Sized]
  · decide +kernel
  · simp [limitObjects, PdfObject.decodes]
  · decide +kernel

end PrintLatch.PdfGuard
