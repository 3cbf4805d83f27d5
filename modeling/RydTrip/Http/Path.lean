import Mathlib.Data.List.Basic

/-!
# Paths of requests

The path of a request passes through several readers that do not agree on what
it says.  All of them cut it into segments.

* A guard compares the raw path with anchored patterns, letter by letter.  Its
  segments are what stands between slashes.
* A client that builds a URL from it reads a backslash as a slash and removes
  dot segments, also those written with `%2e` (`normalize`).
* A router compares what is left without regard to case, lets one trailing
  slash pass, and percent-decodes the parameters (`dispatch`).

A path is given by the characters after its first slash, without the query.
The client also percent-encodes some characters, which the router undoes, so
that is left out.

`match?_of_covers` and `normalize_eq_of_plain` are what a guard can rely on.  A
pattern that covers the route sees the parameters that the route sees, and a
plain path means the same to all readers.
-/

namespace Http

abbrev Segment : Type := List Char

/-! ## Reading a raw path -/

/-- What stands between slashes. -/
def rawSegments (path : List Char) : List Segment := path.splitOn '/'

def lower (s : Segment) : Segment := s.map Char.toLower

/-- A single-dot URL path segment. -/
def isSingleDot (s : Segment) : Bool :=
  lower s = ".".toList || lower s = "%2e".toList

/-- A double-dot URL path segment. -/
def isDoubleDot (s : Segment) : Bool :=
  lower s = "..".toList || lower s = ".%2e".toList || lower s = "%2e.".toList ||
    lower s = "%2e%2e".toList

/-- The path state of the URL parser, from the segments read so far, newest
first.  A dot segment at the end leaves an empty segment. -/
def removeDots : List Segment → List Segment → List Segment
  | acc, [] => acc.reverse
  | acc, s :: rest =>
      if isDoubleDot s then
        removeDots (if rest.isEmpty then [] :: acc.tail else acc.tail) rest
      else if isSingleDot s then removeDots (if rest.isEmpty then [] :: acc else acc) rest
      else removeDots (s :: acc) rest

/-- The segments of the URL. -/
def normalize (path : List Char) : List Segment :=
  removeDots [] (path.splitOnP fun c => c == '/' || c == '\\')

/-! ## Percent-decoding -/

def hexDigit (c : Char) : Option Nat :=
  if '0' ≤ c ∧ c ≤ '9' then some (c.toNat - '0'.toNat)
  else if 'a' ≤ c ∧ c ≤ 'f' then some (c.toNat - 'a'.toNat + 10)
  else if 'A' ≤ c ∧ c ≤ 'F' then some (c.toNat - 'A'.toNat + 10)
  else none

/-- One `%XX`. -/
def percentByte : List Char → Option (Nat × List Char)
  | '%' :: a :: b :: rest => do return (16 * (← hexDigit a) + (← hexDigit b), rest)
  | _ => none

/-- That many continuation bytes after `acc`. -/
def continuation : Nat → Nat → List Char → Option (Nat × List Char)
  | 0, acc, s => some (acc, s)
  | n + 1, acc, s => do
      let (byte, rest) ← percentByte s
      if 0x80 ≤ byte ∧ byte < 0xC0 then continuation n (64 * acc + (byte - 0x80)) rest else none

/-- One character in percent-encoded UTF-8. -/
def percentChar (s : List Char) : Option (Char × List Char) := do
  let (byte, rest) ← percentByte s
  if byte < 0x80 then return (Char.ofNat byte, rest)
  else
    let (least, n, acc) ←
      if 0xC0 ≤ byte ∧ byte < 0xE0 then some (0x80, 1, byte - 0xC0)
      else if 0xE0 ≤ byte ∧ byte < 0xF0 then some (0x800, 2, byte - 0xE0)
      else if 0xF0 ≤ byte ∧ byte < 0xF8 then some (0x10000, 3, byte - 0xF0)
      else none
    let (code, rest) ← continuation n acc rest
    if least ≤ code ∧ code.isValidChar then return (Char.ofNat code, rest) else none

/-- `decodeURIComponent`, which throws on a malformed sequence.  A step reads at
least one character. -/
def decodeChars : Nat → List Char → Option (List Char)
  | _, [] => some []
  | 0, _ :: _ => none
  | n + 1, c :: s =>
      if c = '%' then do
        let (decoded, rest) ← percentChar (c :: s)
        return decoded :: (← decodeChars n rest)
      else do return c :: (← decodeChars n s)

def decodeURIComponent (s : Segment) : Option String :=
  (decodeChars s.length s).map String.ofList

theorem decodeChars_plain {s : List Char} (h : '%' ∉ s) : decodeChars s.length s = some s := by
  induction s with
  | nil => rfl
  | cons c s ih =>
      rw [List.mem_cons, not_or] at h
      obtain ⟨hc, hs⟩ := h
      rw [List.length_cons, decodeChars, if_neg (Ne.symm hc), ih hs]
      rfl

theorem decodeURIComponent_plain {s : Segment} (h : '%' ∉ s) :
    decodeURIComponent s = some (String.ofList s) := by
  rw [decodeURIComponent, decodeChars_plain h]
  rfl

/-! ## Patterns -/

/-- One segment of a pattern: a fixed text, `[^/]+` or `:name`, or one of several
texts. -/
inductive Piece where
  | lit (text : String)
  | any
  | oneOf (texts : List String)
  deriving DecidableEq, Repr

/-- An anchored pattern. -/
abbrev Pattern : Type := List Piece

def exact (s : Segment) (text : String) : Bool := s = text.toList

/-- Equal up to case, for a text in lower case. -/
def nocase (s : Segment) (text : String) : Bool := lower s = text.toList

def Piece.fits (same : Segment → String → Bool) : Piece → Segment → Bool
  | .lit text, s => same s text
  | .any, s => !s.isEmpty
  | .oneOf texts, s => texts.any (same s)

/-- What a match captures. -/
def Piece.captures : Piece → Segment → List Segment
  | .any, s => [s]
  | _, _ => []

/-- The captures of a match, in order. -/
def Pattern.match? (same : Segment → String → Bool) : Pattern → List Segment → Option (List Segment)
  | [], [] => some []
  | piece :: pattern, s :: segments =>
      if piece.fits same s then
        (Pattern.match? same pattern segments).map (piece.captures s ++ ·)
      else none
  | _, _ => none

section Match

variable {same : Segment → String → Bool} {piece : Piece} {pattern : Pattern} {s : Segment}
  {segments captures : List Segment}

theorem match?_cons : Pattern.match? same (piece :: pattern) (s :: segments) = some captures ↔
    piece.fits same s = true ∧ ∃ rest, Pattern.match? same pattern segments = some rest ∧
      piece.captures s ++ rest = captures := by
  rw [Pattern.match?]
  split
  next h => rw [Option.map_eq_some_iff, and_iff_right h]
  next h =>
    refine ⟨fun hnone => ?_, fun h' => absurd h'.1 h⟩
    cases hnone

theorem match?_nil : Pattern.match? same [] segments = some captures ↔
    segments = [] ∧ captures = [] := by
  cases segments with
  | nil =>
      rw [Pattern.match?, Option.some.injEq, eq_comm, and_iff_right rfl]
  | cons s segments =>
      constructor
      · intro h
        cases h
      · rintro ⟨⟨⟩, -⟩

/-- A match is of one segment for each piece. -/
theorem exists_of_match?_cons
    (h : Pattern.match? same (piece :: pattern) segments = some captures) :
    ∃ s rest, segments = s :: rest := by
  cases segments with
  | nil => cases h
  | cons s rest => exact ⟨s, rest, rfl⟩

end Match

/-! ## Comparing patterns -/

/-- The piece sees every segment that the piece of a route sees, and captures
the same. -/
def Piece.covers : Piece → Piece → Bool
  | .lit a, .lit b => a = b
  | .oneOf texts, .lit b => texts.contains b
  | .any, .any => true
  | _, _ => false

def Pattern.covers : Pattern → Pattern → Bool
  | [], [] => true
  | p :: ps, q :: qs => p.covers q && Pattern.covers ps qs
  | _, _ => false

/-- No segment fits both. -/
def Piece.apart : Piece → Piece → Bool
  | .lit a, .lit b => a ≠ b
  | .lit a, .oneOf texts => !texts.contains a
  | .oneOf texts, .lit a => !texts.contains a
  | .oneOf texts, .oneOf texts' => texts.all fun text => !texts'.contains text
  | _, _ => false

/-- No path matches both. -/
def Pattern.apart : Pattern → Pattern → Bool
  | [], [] => false
  | p :: ps, q :: qs => p.apart q || Pattern.apart ps qs
  | _, _ => true

/-- The fixed texts. -/
def Piece.texts : Piece → List String
  | .lit text => [text]
  | .any => []
  | .oneOf texts => texts

def Pattern.texts (pattern : Pattern) : List String := pattern.flatMap Piece.texts

/-- A text that is its own lower case. -/
def isLower (text : String) : Bool := lower text.toList = text.toList

theorem nocase_unique {s : Segment} {a b : String} (ha : nocase s a = true)
    (hb : nocase s b = true) : a = b := by
  have ha : lower s = a.toList := of_decide_eq_true ha
  have hb : lower s = b.toList := of_decide_eq_true hb
  exact String.toList_inj.mp (ha.symm.trans hb)

/-- A letter-by-letter match is one up to case. -/
theorem Piece.fits_nocase {piece : Piece} {s : Segment} (h : piece.fits exact s = true)
    (hlower : ∀ text ∈ piece.texts, isLower text = true) : piece.fits nocase s = true := by
  have hsame {text : String} (htext : exact s text = true) (hl : isLower text = true) :
      nocase s text = true := by
    have htext : s = text.toList := of_decide_eq_true htext
    rw [htext]
    exact hl
  cases piece with
  | lit text => exact hsame h (hlower text (.head _))
  | any => exact h
  | oneOf texts =>
      obtain ⟨text, hmem, htext⟩ := List.any_eq_true.mp h
      exact List.any_eq_true.mpr ⟨text, hmem, hsame htext (hlower text hmem)⟩

theorem match?_nocase {pattern : Pattern} {segments captures : List Segment}
    (h : pattern.match? exact segments = some captures)
    (hlower : ∀ text ∈ pattern.texts, isLower text = true) :
    pattern.match? nocase segments = some captures := by
  induction pattern generalizing segments captures with
  | nil =>
      rw [match?_nil] at h ⊢
      exact h
  | cons piece pattern ih =>
      obtain ⟨s, segments, rfl⟩ := exists_of_match?_cons h
      obtain ⟨hs, rest, hrest, hcaptures⟩ := match?_cons.mp h
      have hpiece : ∀ text ∈ piece.texts, isLower text = true := fun text hmem =>
        hlower text (List.mem_append_left _ hmem)
      have hpattern : ∀ text ∈ Pattern.texts pattern, isLower text = true := fun text hmem =>
        hlower text (List.mem_append_right _ hmem)
      exact match?_cons.mpr ⟨piece.fits_nocase hs hpiece, rest, ih hrest hpattern, hcaptures⟩

theorem Piece.fits_of_covers {same : Segment → String → Bool} {p q : Piece} {s : Segment}
    (h : p.covers q = true) (hq : q.fits same s = true) :
    p.fits same s = true ∧ p.captures s = q.captures s := by
  cases p with
  | lit a =>
      cases q with
      | lit b =>
          have hab : a = b := of_decide_eq_true h
          rw [hab]
          exact ⟨hq, rfl⟩
      | any => cases h
      | oneOf texts => cases h
  | any =>
      cases q with
      | lit b => cases h
      | any => exact ⟨hq, rfl⟩
      | oneOf texts => cases h
  | oneOf texts =>
      cases q with
      | lit b => exact ⟨List.any_eq_true.mpr ⟨b, List.contains_iff_mem.mp h, hq⟩, rfl⟩
      | any => cases h
      | oneOf texts' => cases h

/-- A pattern that covers a route sees every path that the route sees, with the
same captures. -/
theorem match?_of_covers {same : Segment → String → Bool} {pattern route : Pattern}
    {segments captures : List Segment} (h : pattern.covers route = true)
    (hroute : route.match? same segments = some captures) :
    pattern.match? same segments = some captures := by
  induction pattern generalizing route segments captures with
  | nil =>
      cases route with
      | nil => exact hroute
      | cons q route => cases h
  | cons p pattern ih =>
      cases route with
      | nil => cases h
      | cons q route =>
          obtain ⟨hpq, hrest⟩ := Bool.and_eq_true_iff.mp h
          obtain ⟨s, segments, rfl⟩ := exists_of_match?_cons hroute
          obtain ⟨hs, rest, hmatch, rfl⟩ := match?_cons.mp hroute
          obtain ⟨hfits, hcaptures⟩ := Piece.fits_of_covers hpq hs
          exact match?_cons.mpr ⟨hfits, rest, ih hrest hmatch, by rw [hcaptures]⟩

theorem Piece.not_fits_of_apart {p q : Piece} {s : Segment} (h : p.apart q = true)
    (hp : p.fits nocase s = true) : q.fits nocase s = false := by
  rw [← Bool.not_eq_true]
  intro hq
  cases p with
  | lit a =>
      cases q with
      | lit b => exact of_decide_eq_true h (nocase_unique hp hq)
      | any => cases h
      | oneOf texts =>
          obtain ⟨b, hb, hqb⟩ := List.any_eq_true.mp hq
          rw [← nocase_unique hp hqb] at hb
          rw [Piece.apart, List.contains_iff_mem.mpr hb] at h
          cases h
  | any => cases h
  | oneOf texts =>
      obtain ⟨a, ha, hpa⟩ := List.any_eq_true.mp hp
      cases q with
      | lit b =>
          rw [nocase_unique hpa hq] at ha
          rw [Piece.apart, List.contains_iff_mem.mpr ha] at h
          cases h
      | any => cases h
      | oneOf texts' =>
          obtain ⟨b, hb, hqb⟩ := List.any_eq_true.mp hq
          rw [← nocase_unique hpa hqb] at hb
          have hnot := List.all_eq_true.mp h a ha
          rw [List.contains_iff_mem.mpr hb] at hnot
          cases hnot

/-- Patterns that are apart match no path both. -/
theorem not_match?_of_apart {p q : Pattern} {segments captures captures' : List Segment}
    (h : p.apart q = true) (hp : p.match? nocase segments = some captures) :
    q.match? nocase segments ≠ some captures' := by
  intro hq
  induction p generalizing q segments captures captures' with
  | nil =>
      cases q with
      | nil => cases h
      | cons piece q =>
          rw [(match?_nil.mp hp).1] at hq
          cases hq
  | cons piece p ih =>
      obtain ⟨s, segments, rfl⟩ := exists_of_match?_cons hp
      cases q with
      | nil => cases hq
      | cons piece' q =>
          obtain ⟨hs, rest, hrest, -⟩ := match?_cons.mp hp
          obtain ⟨hs', rest', hrest', -⟩ := match?_cons.mp hq
          rcases Bool.or_eq_true_iff.mp h with hpiece | hpattern
          · rw [Piece.not_fits_of_apart hpiece hs] at hs'
            cases hs'
          · exact ih hpattern hrest hrest'

/-! ## Plain paths -/

/-- Letters, digits and hyphens. -/
def isPlainChar (c : Char) : Bool := c.isAlphanum || c == '-'

/-- A segment that no reader changes. -/
def isPlain (s : Segment) : Bool := !s.isEmpty && s.all isPlainChar

theorem isPlain_not_mem {s : Segment} {d : Char} (h : isPlain s = true)
    (hd : isPlainChar d = false) : d ∉ s := by
  intro hmem
  have hall := List.all_eq_true.mp (Bool.and_eq_true_iff.mp h).2 d hmem
  rw [hd] at hall
  cases hall

theorem isPlain_ne_nil {s : Segment} (h : isPlain s = true) : s ≠ [] := by
  rintro rfl
  cases h

/-- Lower case only changes letters. -/
theorem eq_of_toLower_eq {c d : Char} (h : c.toLower = d) (hd : d.toNat < 'A'.toNat) : c = d := by
  unfold Char.toLower at h
  split at h
  next hupper =>
    subst h
    have hle := UInt32.le_iff_toNat_le.mp hupper.1
    have hge := UInt32.le_iff_toNat_le.mp hupper.2
    have hsum : (c.val + ('a'.val - 'A'.val)).toNat < 65 := hd
    rw [UInt32.toNat_add] at hsum
    simp only [Char.reduceVal, UInt32.reduceToNat, UInt32.reduceSub] at hle hge hsum
    omega
  · exact h

/-- A plain segment is no text with a character that is not plain. -/
theorem lower_ne_of_isPlain {s t : Segment} {d : Char} (h : isPlain s = true)
    (hd : isPlainChar d = false) (hlow : d.toNat < 'A'.toNat) (hmem : d ∈ t) : lower s ≠ t := by
  rintro rfl
  obtain ⟨c, hc, hcd⟩ := List.mem_map.mp hmem
  rw [eq_of_toLower_eq hcd hlow] at hc
  exact isPlain_not_mem h hd hc

theorem isSingleDot_of_isPlain {s : Segment} (h : isPlain s = true) : isSingleDot s = false := by
  rw [isSingleDot, decide_eq_false (lower_ne_of_isPlain (d := '.') h rfl (by decide) (by decide)),
    decide_eq_false (lower_ne_of_isPlain (d := '%') h rfl (by decide) (by decide))]
  rfl

theorem isDoubleDot_of_isPlain {s : Segment} (h : isPlain s = true) : isDoubleDot s = false := by
  rw [isDoubleDot, decide_eq_false (lower_ne_of_isPlain (d := '.') h rfl (by decide) (by decide)),
    decide_eq_false (lower_ne_of_isPlain (d := '%') h rfl (by decide) (by decide)),
    decide_eq_false (lower_ne_of_isPlain (d := '.') h rfl (by decide) (by decide)),
    decide_eq_false (lower_ne_of_isPlain (d := '%') h rfl (by decide) (by decide))]
  rfl

theorem removeDots_of_plain {acc segments : List Segment} (h : ∀ s ∈ segments, isPlain s = true) :
    removeDots acc segments = acc.reverse ++ segments := by
  induction segments generalizing acc with
  | nil => rw [removeDots, List.append_nil]
  | cons s segments ih =>
      have hs := h s (.head _)
      rw [removeDots, isDoubleDot_of_isPlain hs, isSingleDot_of_isPlain hs]
      simp only [Bool.false_eq_true, if_false]
      rw [ih fun s' hs' => h s' (.tail _ hs'), List.reverse_cons, List.append_assoc]
      rfl

/-- Two separators that agree on a path cut it alike. -/
theorem splitOnP_congr {p q : Char → Bool} {path : List Char} (h : ∀ c ∈ path, p c = q c) :
    path.splitOnP p = path.splitOnP q := by
  induction path with
  | nil => rfl
  | cons c path ih =>
      rw [List.splitOnP_cons_eq_if_modifyHead, List.splitOnP_cons_eq_if_modifyHead, h c (.head _),
        ih fun c' hc' => h c' (.tail _ hc')]

/-- A character of a path is a slash or stands in a segment. -/
theorem mem_rawSegments {c : Char} {path : List Char} (h : c ∈ path) :
    c = '/' ∨ ∃ s ∈ rawSegments path, c ∈ s := by
  unfold rawSegments
  induction path with
  | nil => cases h
  | cons d path ih =>
      rw [List.splitOn_cons_eq_if_modifyHead]
      by_cases hd : d = '/'
      · rw [if_pos (beq_iff_eq.mpr hd)]
        rcases List.mem_cons.mp h with rfl | hc
        · exact .inl hd
        · exact (ih hc).imp_right fun ⟨s, hs, hmem⟩ => ⟨s, .tail _ hs, hmem⟩
      · rw [if_neg (by rwa [beq_iff_eq])]
        obtain ⟨t, rest, hsplit⟩ := List.exists_cons_of_ne_nil (List.splitOn_ne_nil '/' path)
        rw [hsplit] at ih ⊢
        rcases List.mem_cons.mp h with rfl | hc
        · exact .inr ⟨_, .head _, .head _⟩
        · rcases ih hc with rfl | ⟨s, hs, hmem⟩
          · exact .inl rfl
          · rcases List.mem_cons.mp hs with rfl | hs
            · exact .inr ⟨_, .head _, .tail _ hmem⟩
            · exact .inr ⟨s, .tail _ hs, hmem⟩

/-- The URL of a plain path has the segments of the path. -/
theorem normalize_eq_of_plain {path : List Char}
    (h : ∀ s ∈ rawSegments path, isPlain s = true) : normalize path = rawSegments path := by
  have hsplit : path.splitOnP (fun c => c == '/' || c == '\\') = rawSegments path := by
    refine splitOnP_congr fun c hc => ?_
    rcases mem_rawSegments hc with rfl | ⟨s, hs, hmem⟩
    · rfl
    · have hne : c ≠ '\\' := by
        rintro rfl
        exact isPlain_not_mem (h s hs) rfl hmem
      rw [beq_false_of_ne hne, Bool.or_false]
  rw [normalize, hsplit, removeDots_of_plain h]
  rfl

/-- What a letter-by-letter match of plain texts with plain captures matches. -/
theorem isPlain_of_match? {pattern : Pattern} {segments captures : List Segment}
    (h : pattern.match? exact segments = some captures)
    (htexts : ∀ text ∈ pattern.texts, isPlain text.toList = true)
    (hcaptures : ∀ s ∈ captures, isPlain s = true) : ∀ s ∈ segments, isPlain s = true := by
  induction pattern generalizing segments captures with
  | nil =>
      rw [(match?_nil.mp h).1]
      exact nofun
  | cons piece pattern ih =>
      obtain ⟨s, segments, rfl⟩ := exists_of_match?_cons h
      obtain ⟨hs, rest, hrest, rfl⟩ := match?_cons.mp h
      have hpattern := ih hrest (fun text hmem => htexts text (List.mem_append_right _ hmem))
        fun s' hs' => hcaptures s' (List.mem_append_right _ hs')
      have htext {text : String} (heq : exact s text = true) (hmem : text ∈ piece.texts) :
          isPlain s = true := by
        have heq : s = text.toList := of_decide_eq_true heq
        rw [heq]
        exact htexts text (List.mem_append_left _ hmem)
      intro s' hs'
      rcases List.mem_cons.mp hs' with rfl | hs'
      · cases piece with
        | lit text => exact htext hs (.head _)
        | any => exact hcaptures s' (.head _)
        | oneOf texts =>
            obtain ⟨text, hmem, heq⟩ := List.any_eq_true.mp hs
            exact htext heq hmem
      · exact hpattern s' hs'

end Http
