/-
  PrintLatch.Text.UrlPath

  The path and the query of a URL: from the text that a program writes to the segments that
  a server reads.

  `parsePath` is the path state of the URL standard for a special scheme: segments that
  spell `.` or `..` are resolved, all others are kept, percent-encoded where they must be.
  So a text can be sent as one segment if it is percent-encoded first, unless it is empty or
  one of those two (`decodeSegment_percentEncode`, `parsePath_plain`).
-/

import PrintLatch.Text.Urlencoded

namespace Text

/-! ## Percent-encoding -/

/-- A hexadecimal digit in upper case. -/
def upperHexDigit (n : UInt8) : UInt8 := if n < 10 then 48 + n else 55 + n

/-- The bytes with `%` and two digits for those that are not kept. -/
def percentEncode (keep : UInt8 → Bool) (bytes : List UInt8) : List UInt8 :=
  bytes.flatMap fun b =>
    if keep b then [b] else [37, upperHexDigit (b / 16), upperHexDigit (b % 16)]

theorem hexValue_upperHexDigit {n : UInt8} (h : n.toNat < 16) :
    hexValue (upperHexDigit n) = some n := by
  have hall : ∀ k : Fin 16, hexValue (upperHexDigit (UInt8.ofNat k)) = some (UInt8.ofNat k) := by
    decide
  have hn : UInt8.ofNat n.toNat = n := by simp
  simpa only [hn] using hall ⟨n.toNat, h⟩

theorem percentDecode_cons {b : UInt8} (h : b ≠ 37) (rest : List UInt8) :
    percentDecode (b :: rest) = b :: percentDecode rest :=
  percentDecode.eq_3 b rest fun _ _ _ heq => absurd heq h

/-- **What was percent-encoded is decoded**, if `%` itself is not kept. -/
theorem percentDecode_percentEncode {keep : UInt8 → Bool} (h : keep 37 = false)
    (bytes : List UInt8) : percentDecode (percentEncode keep bytes) = bytes := by
  induction bytes with
  | nil => rfl
  | cons b rest ih =>
      unfold percentEncode at ih ⊢
      rw [List.flatMap_cons]
      by_cases hkeep : keep b = true
      · have hb : b ≠ 37 := by
          rintro rfl
          rw [h] at hkeep
          cases hkeep
        rw [if_pos hkeep, List.singleton_append, percentDecode_cons hb, ih]
      · have hlt : b.toNat < 256 := b.toNat_lt
        have hhigh : (b / 16).toNat < 16 := by
          rw [UInt8.toNat_div]
          show b.toNat / 16 < 16
          omega
        have hlow : (b % 16).toNat < 16 := by
          rw [UInt8.toNat_mod]
          show b.toNat % 16 < 16
          omega
        have hbyte : 16 * (b / 16) + b % 16 = b := by
          apply UInt8.toNat_inj.mp
          rw [UInt8.toNat_add, UInt8.toNat_mul, UInt8.toNat_div, UInt8.toNat_mod]
          show (16 * (b.toNat / 16) % 256 + b.toNat % 16) % 256 = b.toNat
          omega
        rw [if_neg hkeep]
        simp only [List.cons_append, List.nil_append, percentDecode, hexValue_upperHexDigit hhigh,
          hexValue_upperHexDigit hlow, hbyte, ih]

theorem percentEncode_eq_self {keep : UInt8 → Bool} {bytes : List UInt8}
    (h : ∀ b ∈ bytes, keep b = true) : percentEncode keep bytes = bytes := by
  induction bytes with
  | nil => rfl
  | cons b rest ih =>
      have hrest := ih fun c hc => h c (List.mem_cons_of_mem _ hc)
      unfold percentEncode at hrest ⊢
      rw [List.flatMap_cons, if_pos (h b List.mem_cons_self), hrest, List.singleton_append]

/-- A byte of an encoded text is one that is kept, or `%`, or a digit. -/
theorem mem_percentEncode {keep : UInt8 → Bool} {bytes : List UInt8} {c : UInt8}
    (h : c ∈ percentEncode keep bytes) :
    keep c = true ∨ c = 37 ∨ ∃ n : UInt8, n.toNat < 16 ∧ c = upperHexDigit n := by
  obtain ⟨b, -, hc⟩ := List.mem_flatMap.mp h
  have hlt : b.toNat < 256 := b.toNat_lt
  split at hc
  · next hkeep =>
      obtain rfl := List.mem_singleton.mp hc
      exact Or.inl hkeep
  · simp only [List.mem_cons, List.not_mem_nil, or_false] at hc
    rcases hc with rfl | rfl | rfl
    · exact Or.inr (Or.inl rfl)
    · refine Or.inr (Or.inr ⟨b / 16, ?_, rfl⟩)
      rw [UInt8.toNat_div]
      show b.toNat / 16 < 16
      omega
    · refine Or.inr (Or.inr ⟨b % 16, ?_, rfl⟩)
      rw [UInt8.toNat_mod]
      show b.toNat % 16 < 16
      omega

/-! ## Paths -/

/-- The path percent-encode set. -/
def inPathSet (b : UInt8) : Bool :=
  b < 0x20 ∨ 0x7E < b ∨ b ∈ [0x20, 0x22, 0x23, 0x3C, 0x3E, 0x3F, 0x5E, 0x60, 0x7B, 0x7D]

/-- A segment ends before `/`, or `\` in a special URL. -/
def isSeparator (b : UInt8) : Bool := b = 47 || b = 92

/-- A letter in lower case. -/
def lowerLetter (b : UInt8) : UInt8 := if 65 ≤ b ∧ b ≤ 90 then b + 32 else b

/-- A single-dot path segment. -/
def isSingleDot (segment : List UInt8) : Bool :=
  [utf8 ".", utf8 "%2e"].contains (segment.map lowerLetter)

/-- A double-dot path segment. -/
def isDoubleDot (segment : List UInt8) : Bool :=
  [utf8 "..", utf8 ".%2e", utf8 "%2e.", utf8 "%2e%2e"].contains (segment.map lowerLetter)

/-- One segment more; after a last one that is a dot the path ends in a slash. -/
def pathStep (path : List (List UInt8)) (last : Bool) (segment : List UInt8) :
    List (List UInt8) :=
  if isDoubleDot segment then path.dropLast ++ if last then [[]] else []
  else if isSingleDot segment then path ++ if last then [[]] else []
  else path ++ [percentEncode (fun b => !inPathSet b) segment]

/-- The path state, after `path`. -/
def parsePath (path : List (List UInt8)) : List (List UInt8) → List (List UInt8)
  | [] => path
  | [segment] => pathStep path true segment
  | segment :: rest => parsePath (pathStep path false segment) rest

/-- A segment that the path state keeps as it is. -/
def PlainSegment (segment : List UInt8) : Prop :=
  isSingleDot segment = false ∧ isDoubleDot segment = false ∧
    ∀ b ∈ segment, inPathSet b = false ∧ isSeparator b = false

instance (segment : List UInt8) : Decidable (PlainSegment segment) :=
  decidable_of_iff (isSingleDot segment = false ∧ isDoubleDot segment = false ∧
    segment.all (fun b => !inPathSet b && !isSeparator b) = true) (by simp [PlainSegment])

theorem pathStep_plain {segment : List UInt8} (h : PlainSegment segment)
    (path : List (List UInt8)) (last : Bool) :
    pathStep path last segment = path ++ [segment] := by
  obtain ⟨hsingle, hdouble, hbytes⟩ := h
  unfold pathStep
  rw [hsingle, hdouble, percentEncode_eq_self fun b hb => by simp [(hbytes b hb).1]]
  rfl

theorem parsePath_plain {segments : List (List UInt8)} (h : ∀ s ∈ segments, PlainSegment s)
    (path : List (List UInt8)) : parsePath path segments = path ++ segments := by
  -- on the segments that are left, for any path before them
  induction segments generalizing path with
  | nil => simp [parsePath]
  | cons segment rest ih =>
      have hplain := h segment List.mem_cons_self
      cases rest with
      | nil => rw [parsePath, pathStep_plain hplain]
      | cons next rest =>
          rw [parsePath, pathStep_plain hplain, ih fun s hs => h s (List.mem_cons_of_mem _ hs),
            List.append_assoc, List.singleton_append]
          simp

theorem lowerLetter_eq {b c : UInt8} (h : lowerLetter b = c) (hc : c < 97 ∨ 122 < c) : b = c := by
  unfold lowerLetter at h
  split at h
  · next hupper =>
      -- a letter in lower case is one of the others
      obtain ⟨hl, hu⟩ := hupper
      rw [UInt8.le_iff_toNat_le] at hl hu
      have hl : 65 ≤ b.toNat := hl
      have hu : b.toNat ≤ 90 := hu
      have hadd : c.toNat = b.toNat + 32 := by
        rw [← h, UInt8.toNat_add]
        show (b.toNat + 32) % 256 = b.toNat + 32
        omega
      rw [UInt8.lt_iff_toNat_lt, UInt8.lt_iff_toNat_lt] at hc
      have hc : c.toNat < 97 ∨ 122 < c.toNat := hc
      omega
  · exact h

/-- What lower case makes of `e`. -/
theorem hexValue_of_lowerLetter {b : UInt8} (h : lowerLetter b = 101) : hexValue b = some 14 := by
  unfold lowerLetter at h
  split at h
  · have hb : b = 69 := by
      have hsub : b + 32 - 32 = 101 - 32 := by rw [h]
      simpa using hsub
    rw [hb]
    rfl
  · rw [h]
    rfl

section

variable {segment : List UInt8}

/-- One way to write a dot, before the rest of a segment. -/
theorem dot_of_literal {rest : List UInt8} (h : segment.map lowerLetter = 46 :: rest) :
    ∃ t, t.map lowerLetter = rest ∧ percentDecode segment = 46 :: percentDecode t := by
  obtain ⟨b, t, rfl, hb, ht⟩ := List.map_eq_cons_iff.mp h
  obtain rfl := lowerLetter_eq hb (by decide)
  exact ⟨t, ht, percentDecode_cons (by decide) t⟩

theorem dot_of_encoded {rest : List UInt8}
    (h : segment.map lowerLetter = 37 :: 50 :: 101 :: rest) :
    ∃ t, t.map lowerLetter = rest ∧ percentDecode segment = 46 :: percentDecode t := by
  obtain ⟨a, u, rfl, ha, hu⟩ := List.map_eq_cons_iff.mp h
  obtain ⟨b, v, rfl, hb, hv⟩ := List.map_eq_cons_iff.mp hu
  obtain ⟨c, t, rfl, hc, ht⟩ := List.map_eq_cons_iff.mp hv
  obtain rfl := lowerLetter_eq ha (by decide)
  obtain rfl := lowerLetter_eq hb (by decide)
  refine ⟨t, ht, ?_⟩
  simp only [percentDecode, hexValue_of_lowerLetter hc, show hexValue 50 = some 2 from rfl]
  rfl

theorem percentDecode_of_isSingleDot (h : isSingleDot segment = true) :
    percentDecode segment = utf8 "." := by
  have hspelled : segment.map lowerLetter = utf8 "." ∨ segment.map lowerLetter = utf8 "%2e" := by
    simpa [isSingleDot] using h
  obtain ⟨t, ht, hdecode⟩ : ∃ t, t.map lowerLetter = [] ∧
      percentDecode segment = 46 :: percentDecode t := by
    rcases hspelled with h | h
    · exact dot_of_literal h
    · exact dot_of_encoded h
  rw [hdecode, List.map_eq_nil_iff.mp ht]
  rfl

theorem percentDecode_of_isDoubleDot (h : isDoubleDot segment = true) :
    percentDecode segment = utf8 ".." := by
  have hspelled : segment.map lowerLetter = utf8 ".." ∨ segment.map lowerLetter = utf8 ".%2e" ∨
      segment.map lowerLetter = utf8 "%2e." ∨ segment.map lowerLetter = utf8 "%2e%2e" := by
    simpa [isDoubleDot] using h
  -- the first dot, and then the second
  obtain ⟨t, ht, hfirst⟩ : ∃ t, (t.map lowerLetter = utf8 "." ∨ t.map lowerLetter = utf8 "%2e") ∧
      percentDecode segment = 46 :: percentDecode t := by
    rcases hspelled with h | h | h | h
    · obtain ⟨t, ht, hdecode⟩ := dot_of_literal h
      exact ⟨t, Or.inl ht, hdecode⟩
    · obtain ⟨t, ht, hdecode⟩ := dot_of_literal h
      exact ⟨t, Or.inr ht, hdecode⟩
    · obtain ⟨t, ht, hdecode⟩ := dot_of_encoded h
      exact ⟨t, Or.inl ht, hdecode⟩
    · obtain ⟨t, ht, hdecode⟩ := dot_of_encoded h
      exact ⟨t, Or.inr ht, hdecode⟩
  have hsecond : isSingleDot t = true := by simpa [isSingleDot] using ht
  rw [hfirst, percentDecode_of_isSingleDot hsecond]
  rfl

end

/-- Which bytes may be kept in a segment. -/
structure KeepsInSegment (keep : UInt8 → Bool) : Prop where
  percent : keep 37 = false
  dot : keep 46 = true
  ascii : ∀ b, keep b = true → b.toNat < 128
  plain : ∀ b, keep b = true → inPathSet b = false ∧ isSeparator b = false

theorem KeepsInSegment.bytes {keep : UInt8 → Bool} (h : KeepsInSegment keep) {bytes : List UInt8} :
    ∀ b ∈ percentEncode keep bytes,
      b.toNat < 128 ∧ inPathSet b = false ∧ isSeparator b = false := by
  have hdigit : ∀ k : Fin 16, (upperHexDigit (UInt8.ofNat k)).toNat < 128 ∧
      inPathSet (upperHexDigit (UInt8.ofNat k)) = false ∧
        isSeparator (upperHexDigit (UInt8.ofNat k)) = false := by decide
  intro b hb
  rcases mem_percentEncode hb with hkeep | rfl | ⟨n, hn, rfl⟩
  · exact ⟨h.ascii b hkeep, h.plain b hkeep⟩
  · decide
  · have hn' : UInt8.ofNat n.toNat = n := by simp
    simpa only [hn'] using hdigit ⟨n.toNat, hn⟩

/-- **A percent-encoded text is a segment of its own** unless it is `.` or `..`. -/
theorem plainSegment_percentEncode {keep : UInt8 → Bool} (h : KeepsInSegment keep)
    (text : String) :
    PlainSegment (percentEncode keep (utf8 text)) ↔ text ≠ "." ∧ text ≠ ".." := by
  have hdot : percentEncode keep (utf8 ".") = utf8 "." :=
    percentEncode_eq_self fun b hb => by
      obtain rfl := List.mem_singleton.mp (show b ∈ [46] from hb)
      exact h.dot
  have hdots : percentEncode keep (utf8 "..") = utf8 ".." :=
    percentEncode_eq_self fun b hb => by
      obtain rfl : b = 46 := by simpa using (show b ∈ [46, 46] from hb)
      exact h.dot
  constructor
  · rintro ⟨hsingle, hdouble, -⟩
    constructor
    · rintro rfl
      rw [hdot] at hsingle
      exact absurd hsingle (by decide)
    · rintro rfl
      rw [hdots] at hdouble
      exact absurd hdouble (by decide)
  · rintro ⟨hsingle, hdouble⟩
    refine ⟨?_, ?_, fun b hb => ?_⟩
    · rw [← Bool.not_eq_true]
      intro hspelled
      have hdecode := percentDecode_of_isSingleDot hspelled
      rw [percentDecode_percentEncode h.percent] at hdecode
      exact hsingle (utf8_injective hdecode)
    · rw [← Bool.not_eq_true]
      intro hspelled
      have hdecode := percentDecode_of_isDoubleDot hspelled
      rw [percentDecode_percentEncode h.percent] at hdecode
      exact hdouble (utf8_injective hdecode)
    · exact (h.bytes b hb).2

/-- The segments of a path behind its first slash. -/
def segmentsOf (bytes : List UInt8) : List (List UInt8) := bytes.splitOnP isSeparator

/-- The path that the segments are written in. -/
def joinSegments : List (List UInt8) → List UInt8
  | [] => []
  | segment :: rest => 47 :: segment ++ joinSegments rest

theorem segmentsOf_join {segments : List (List UInt8)} (hne : segments ≠ [])
    (h : ∀ s ∈ segments, ∀ b ∈ s, isSeparator b = false) :
    segmentsOf ((joinSegments segments).drop 1) = segments := by
  unfold segmentsOf
  induction segments with
  | nil => exact absurd rfl hne
  | cons segment rest ih =>
      have hsegment := h segment List.mem_cons_self
      cases rest with
      | nil =>
          rw [joinSegments, joinSegments, List.append_nil]
          exact List.splitOnP_eq_singleton hsegment
      | cons next rest =>
          have hrest := ih (List.cons_ne_nil _ _) fun s hs => h s (List.mem_cons_of_mem _ hs)
          have hsplit := List.splitOnP_append_cons_of_forall_mem hsegment 47 (by decide)
            ((joinSegments (next :: rest)).drop 1)
          rw [hrest] at hsplit
          exact hsplit

/-! ## URLs -/

/-- The special-query percent-encode set. -/
def inQuerySet (b : UInt8) : Bool :=
  b < 0x20 ∨ 0x7E < b ∨ b ∈ [0x20, 0x22, 0x23, 0x27, 0x3C, 0x3E]

/-- What an HTTP client sends of a URL. -/
structure Target where
  authority : List UInt8
  path : List (List UInt8)
  query : Option (List UInt8)
  deriving DecidableEq, Repr

/-- A byte that ends the authority. -/
def endsAuthority (b : UInt8) : Bool := isSeparator b || b = 63 || b = 35

/-- A byte that ends the path. -/
def endsPath (b : UInt8) : Bool := b = 63 || b = 35

/-- The URL parser on `http://`, an authority, a path, a query and a fragment: tabs and
    newlines are removed, blanks at either end ignored. -/
def targetOf (url : String) : Target :=
  let written := (utf8 url).filter fun b => b ≠ 9 ∧ b ≠ 10 ∧ b ≠ 13
  let cleaned := ((written.dropWhile (· ≤ 32)).reverse.dropWhile (· ≤ 32)).reverse
  let behind := cleaned.drop 7
  let rest := behind.dropWhile (!endsAuthority ·)
  { authority := behind.takeWhile (!endsAuthority ·)
    path := parsePath [] (segmentsOf ((rest.takeWhile (!endsPath ·)).drop 1))
    query := match rest.dropWhile (!endsPath ·) with
      | 63 :: query => some (percentEncode (fun b => !inQuerySet b) (query.takeWhile (· ≠ 35)))
      | _ => none }

theorem dropWhile_of_forall {p : UInt8 → Bool} {bytes : List UInt8}
    (h : ∀ b ∈ bytes, p b = false) : bytes.dropWhile p = bytes := by
  cases bytes with
  | nil => rfl
  | cons b rest => exact List.dropWhile_cons_of_neg (by simp [h b List.mem_cons_self])

/-- The bytes of a path and a query that the URL parser leaves alone are above the blank. -/
theorem blank_lt_of_inPathSet {b : UInt8} (h : inPathSet b = false) : 32 < b := by
  simp only [inPathSet, decide_eq_false_iff_not, not_or, List.mem_cons] at h
  rw [UInt8.lt_iff_toNat_lt]
  have hnot : ¬ b.toNat < 32 := fun hlt => h.1 (UInt8.lt_iff_toNat_lt.mpr hlt)
  have hne : b.toNat ≠ 32 := fun heq => h.2.2.1 (UInt8.toNat_inj.mp heq)
  show 32 < b.toNat
  omega

theorem blank_lt_of_inQuerySet {b : UInt8} (h : inQuerySet b = false) : 32 < b := by
  simp only [inQuerySet, decide_eq_false_iff_not, not_or, List.mem_cons] at h
  rw [UInt8.lt_iff_toNat_lt]
  have hnot : ¬ b.toNat < 32 := fun hlt => h.1 (UInt8.lt_iff_toNat_lt.mpr hlt)
  have hne : b.toNat ≠ 32 := fun heq => h.2.2.1 (UInt8.toNat_inj.mp heq)
  show 32 < b.toNat
  omega

theorem endsPath_of_inPathSet {b : UInt8} (h : inPathSet b = false) : endsPath b = false := by
  simp only [endsPath, Bool.or_eq_false_iff, decide_eq_false_iff_not]
  constructor <;> rintro rfl <;> exact absurd h (by decide)

theorem mem_joinSegments {segments : List (List UInt8)} {b : UInt8}
    (h : b ∈ joinSegments segments) : b = 47 ∨ ∃ s ∈ segments, b ∈ s := by
  induction segments with
  | nil => exact absurd h List.not_mem_nil
  | cons segment rest ih =>
      rcases List.mem_cons.mp h with rfl | h
      · exact Or.inl rfl
      · rcases List.mem_append.mp h with h | h
        · exact Or.inr ⟨segment, List.mem_cons_self, h⟩
        · rcases ih h with h | ⟨s, hs, hb⟩
          · exact Or.inl h
          · exact Or.inr ⟨s, List.mem_cons_of_mem _ hs, hb⟩

/-- A query with its mark. -/
def markQuery : Option (List UInt8) → List UInt8
  | none => []
  | some query => 63 :: query

/-- **A URL in parts is read as these parts**, with the dots of its path resolved. -/
theorem targetOf_parts {url : String} {authority : List UInt8} {segments : List (List UInt8)}
    {query : Option (List UInt8)}
    (hurl : utf8 url =
      utf8 "http://" ++ (authority ++ (joinSegments segments ++ markQuery query)))
    (hauthority : ∀ b ∈ authority, 32 < b ∧ endsAuthority b = false) (hne : segments ≠ [])
    (hsegments : ∀ s ∈ segments, ∀ b ∈ s, inPathSet b = false ∧ isSeparator b = false)
    (hquery : ∀ q, query = some q → ∀ b ∈ q, inQuerySet b = false) :
    targetOf url = ⟨authority, parsePath [] segments, query⟩ := by
  have hpath : ∀ b ∈ joinSegments segments, 32 < b ∧ endsPath b = false := by
    intro b hb
    rcases mem_joinSegments hb with rfl | ⟨s, hs, hb⟩
    · decide
    · have hplain := (hsegments s hs b hb).1
      exact ⟨blank_lt_of_inPathSet hplain, endsPath_of_inPathSet hplain⟩
  have hmarked : ∀ b ∈ markQuery query, 32 < b := by
    cases query with
    | none => exact fun b hb => absurd hb List.not_mem_nil
    | some q =>
        intro b hb
        rcases List.mem_cons.mp hb with rfl | hb
        · decide
        · exact blank_lt_of_inQuerySet (hquery q rfl b hb)
  have hvisible : ∀ b ∈ utf8 url, 32 < b := by
    intro b hb
    rw [hurl] at hb
    simp only [List.mem_append] at hb
    rcases hb with hb | hb | hb | hb
    · exact of_decide_eq_true (List.all_eq_true.mp (by decide :
        (utf8 "http://").all (fun b => decide (32 < b)) = true) b hb)
    · exact (hauthority b hb).1
    · exact (hpath b hb).1
    · exact hmarked b hb
  -- nothing is stripped
  have hwritten : (utf8 url).filter (fun b => b ≠ 9 ∧ b ≠ 10 ∧ b ≠ 13) = utf8 url := by
    refine List.filter_eq_self.mpr fun b hb => ?_
    have hb := UInt8.lt_iff_toNat_lt.mp (hvisible b hb)
    refine decide_eq_true ⟨?_, ?_, ?_⟩ <;> rintro rfl <;> exact absurd hb (by decide)
  have hkept : ∀ bytes : List UInt8, (∀ b ∈ bytes, 32 < b) → bytes.dropWhile (· ≤ 32) = bytes := by
    intro bytes h
    refine dropWhile_of_forall fun b hb => decide_eq_false ?_
    exact UInt8.not_le.mpr (h b hb)
  have hcleaned : (((utf8 url).dropWhile (· ≤ 32)).reverse.dropWhile (· ≤ 32)).reverse =
      utf8 url := by
    rw [hkept _ hvisible, hkept _ fun b hb => hvisible b (List.mem_reverse.mp hb),
      List.reverse_reverse]
  have hbehind : (utf8 url).drop 7 = authority ++ (joinSegments segments ++ markQuery query) := by
    rw [hurl]
    rfl
  have hstop : ∀ b ∈ authority, (!endsAuthority b) = true := by
    intro b hb
    simp [(hauthority b hb).2]
  obtain ⟨segment, others, rfl⟩ := List.exists_cons_of_ne_nil hne
  have hslash : (!endsAuthority 47) = false := by decide
  have hrest : (authority ++ (joinSegments (segment :: others) ++ markQuery query)).dropWhile
      (!endsAuthority ·) = joinSegments (segment :: others) ++ markQuery query := by
    rw [List.dropWhile_append_of_pos hstop]
    exact List.dropWhile_cons_of_neg (by simp [hslash])
  have hfirst : (authority ++ (joinSegments (segment :: others) ++ markQuery query)).takeWhile
      (!endsAuthority ·) = authority := by
    rw [List.takeWhile_append_of_pos hstop]
    have hnil : (joinSegments (segment :: others) ++ markQuery query).takeWhile
        (!endsAuthority ·) = [] := List.takeWhile_cons_of_neg (by simp [hslash])
    rw [hnil, List.append_nil]
  have hinside : ∀ b ∈ joinSegments (segment :: others), (!endsPath b) = true := by
    intro b hb
    simp [(hpath b hb).2]
  have hpathPart : (joinSegments (segment :: others) ++ markQuery query).takeWhile (!endsPath ·) =
      joinSegments (segment :: others) := by
    rw [List.takeWhile_append_of_pos hinside]
    cases query with
    | none => simp [markQuery]
    | some q => simp [markQuery, endsPath]
  have hqueryPart : (joinSegments (segment :: others) ++ markQuery query).dropWhile (!endsPath ·) =
      markQuery query := by
    rw [List.dropWhile_append_of_pos hinside]
    cases query with
    | none => rfl
    | some q => exact List.dropWhile_cons_of_neg (by decide)
  unfold targetOf
  simp only [hwritten, hcleaned, hbehind, hrest, hfirst, hpathPart, hqueryPart]
  rw [segmentsOf_join hne fun s hs b hb => (hsegments s hs b hb).2]
  congr 1
  cases query with
  | none => rfl
  | some q =>
      have hq := hquery q rfl
      have hend : q.takeWhile (· ≠ 35) = q := by
        refine List.takeWhile_eq_self_iff.mpr fun b hb => decide_eq_true ?_
        rintro rfl
        exact absurd (hq 35 hb) (by decide)
      show some (percentEncode (fun b => !inQuerySet b) (q.takeWhile (· ≠ 35))) = some q
      rw [hend, percentEncode_eq_self fun b hb => by simp [hq b hb]]

/-! ## Segments as texts -/

/-- A segment as a router gives it to a handler: percent-decoded, if that is UTF-8. -/
def decodeSegment (segment : String) : Option String :=
  String.fromUTF8? (percentDecode (utf8 segment)).toByteArray

theorem fromUTF8?_utf8 (text : String) : String.fromUTF8? (utf8 text).toByteArray = some text := by
  have hvalid : (utf8 text).toByteArray.IsValidUTF8 := by
    rw [utf8_toByteArray]
    exact text.isValidUTF8
  unfold String.fromUTF8?
  rw [dif_pos hvalid]
  congr 1
  rw [← String.toByteArray_inj]
  show (utf8 text).toByteArray = text.toByteArray
  exact utf8_toByteArray text

/-- **A percent-encoded segment is read as the text that it was made of.** -/
theorem decodeSegment_percentEncode {keep : UInt8 → Bool} (h : KeepsInSegment keep)
    (text : String) :
    decodeSegment (ofAscii (percentEncode keep (utf8 text))) = some text := by
  have hbytes : ∀ b ∈ percentEncode keep (utf8 text), b.toNat < 128 :=
    fun b hb => (h.bytes b hb).1
  rw [decodeSegment, utf8_ofAscii hbytes, percentDecode_percentEncode h.percent, fromUTF8?_utf8]

end Text
