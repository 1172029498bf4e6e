/-
  PrintLatch.PdfGuard.Meaning

  What a parsed document says to a program that prints it.

  The guard looks at entries where they stand; a reader of the format follows indirect
  references (`Document.resolve`), applies every filter a stream declares
  (`Document.decodedStream`), takes the dimensions of an image for the numbers they
  denote (`Document.declaredPixels`) and meets the names at every depth
  (`Document.names`).

  `decode` is what the declared filters do: the bytes they yield, and whether they end
  without an error.  It gets the dictionary of the stream and the place of the filter,
  for the parameters that are declared for it.
-/

import PrintLatch.PdfGuard

namespace PrintLatch.PdfGuard

open Text

/-! ## References -/

/-- The object with an id. -/
def Document.lookup (document : Document) (id : ObjectId) : Option PdfObject :=
  (document.objects.find? fun entry => entry.1 = id).map (·.2)

/-- An object behind at most `fuel` references; a reference to no object is null. -/
def Document.follow (document : Document) : Nat → PdfObject → PdfObject
  | 0, .reference _ => .null
  | fuel + 1, .reference id =>
      match document.lookup id with
      | some object => document.follow fuel object
      | none => .null
  | _, object => object

/-- The object that an object stands for.  A chain of more references than there are
    objects is a cycle, and stands for nothing. -/
def Document.resolve (document : Document) (object : PdfObject) : PdfObject :=
  document.follow document.objects.length object

/-- The value of an entry; a missing one is null. -/
def Document.entry (document : Document) (dict : Dictionary) (key : String) : PdfObject :=
  document.resolve ((dict.get key).getD .null)

theorem Document.resolve_of_not_reference {document : Document} {object : PdfObject}
    (h : ∀ id, object ≠ .reference id) : document.resolve object = object := by
  unfold resolve
  cases document.objects.length with
  | zero => cases object <;> first | rfl | exact absurd rfl (h _)
  | succ => cases object <;> first | rfl | exact absurd rfl (h _)

theorem Document.entry_of_get {document : Document} {dict : Dictionary} {key : String}
    {object : PdfObject} (hget : dict.get key = some object)
    (h : ∀ id, object ≠ .reference id) : document.entry dict key = object := by
  unfold entry
  rw [hget]
  exact document.resolve_of_not_reference h

/-! ## Names -/

mutual

/-- The dictionary keys and the name values in an object, at every depth. -/
def PdfObject.names : PdfObject → List (List UInt8)
  | .name bytes => [bytes]
  | .array items => namesOfItems items
  | .dictionary entries => namesOfEntries entries
  | .stream dict _ => namesOfEntries dict
  | _ => []

def namesOfItems : List PdfObject → List (List UInt8)
  | [] => []
  | item :: rest => item.names ++ namesOfItems rest

def namesOfEntries : List (List UInt8 × PdfObject) → List (List UInt8)
  | [] => []
  | (key, value) :: rest => key :: (value.names ++ namesOfEntries rest)

end

/-- The names of the trailer and of all objects. -/
def Document.names (document : Document) : List (List UInt8) :=
  namesOfEntries document.trailer ++ document.objects.flatMap fun entry => entry.2.names

/-- One of the names of `FORBIDDEN_NAMES`, without its slash. -/
def isForbidden (name : List UInt8) : Bool :=
  forbiddenNames.any fun marker => utf8 marker = 47 :: name

/-- The document has a forbidden name. -/
def Document.active (document : Document) : Bool := document.names.any isForbidden

/-! ## Filters -/

/-- The filters a stream declares, in the order in which they are applied. -/
def Document.filters (document : Document) (dict : Dictionary) : List (List UInt8) :=
  match document.entry dict "Filter" with
  | .name name => [name]
  | .array items => items.filterMap fun item =>
      match document.resolve item with
      | .name name => some name
      | _ => none
  | _ => []

section

variable (decode : Dictionary → Nat → List UInt8 → List UInt8 → List UInt8 × Bool)

/-- Filters applied one after another, the first of them at place `index`. -/
def applyFilters (dict : Dictionary) (index : Nat) :
    List (List UInt8) → List UInt8 → List UInt8 × Bool
  | [], content => (content, true)
  | filter :: rest, content =>
      let (bytes, ended) := decode dict index filter content
      let (final, restEnded) := applyFilters dict (index + 1) rest bytes
      (final, ended && restEnded)

/-- Two filters that both end without an error. -/
theorem applyFilters_pair {dict : Dictionary} {outer inner : List UInt8}
    {content between final : List UInt8}
    (houter : decode dict 0 outer content = (between, true))
    (hinner : decode dict 1 inner between = (final, true)) :
    applyFilters decode dict 0 [outer, inner] content = (final, true) := by
  simp [applyFilters, houter, hinner]

/-- The content of a stream behind all its filters. -/
def Document.decodedStream (document : Document) (dict : Dictionary) (content : List UInt8) :
    List UInt8 × Bool :=
  applyFilters decode dict 0 (document.filters dict) content

end

/-! ## Images -/

/-- The number an object denotes; one that is no number counts as zero. -/
def PdfObject.number : PdfObject → ℚ
  | .integer value => value
  | .real value => value
  | _ => 0

/-- The object is the name `name`. -/
def PdfObject.isName (name : String) : PdfObject → Bool
  | .name bytes => bytes = utf8 name
  | _ => false

/-- The pixels a stream declares if it is an image. -/
def Document.imageArea (document : Document) (dict : Dictionary) : ℚ :=
  if (document.entry dict "Subtype").isName "Image" then
    (document.entry dict "Width").number * (document.entry dict "Height").number
  else 0

/-- The pixels an object declares. -/
def Document.declaredPixels (document : Document) : PdfObject → ℚ
  | .stream dict _ => document.imageArea dict
  | _ => 0

end PrintLatch.PdfGuard
