import Mathlib.Tactic.IntervalCases
import RydTrip.Json.Number

/-!
# Strings

A string is a list of UTF-16 code units, and not every such list is text: a
surrogate may stand alone.  A literal is read unit by unit.  When a string is
written, a pair of surrogates becomes the character it stands for, and a
surrogate that stands alone is escaped, so that every string is read back.

The same pairs join when a string is handed over as text.  A surrogate that
stands alone is then replaced.
-/

namespace Json

/-- UTF-16 code units. -/
abbrev JsString : Type := List UInt16

/-! ## Code units -/

def IsHigh (u : UInt16) : Prop := 0xD800 ≤ u.toNat ∧ u.toNat < 0xDC00

def IsLow (u : UInt16) : Prop := 0xDC00 ≤ u.toNat ∧ u.toNat < 0xE000

instance (u : UInt16) : Decidable (IsHigh u) := inferInstanceAs (Decidable (_ ∧ _))

instance (u : UInt16) : Decidable (IsLow u) := inferInstanceAs (Decidable (_ ∧ _))

/-- The code units of a character. -/
def units (c : Char) : JsString :=
  if c.toNat < 0x10000 then [UInt16.ofNat c.toNat]
  else [UInt16.ofNat (0xD800 + (c.toNat - 0x10000) / 0x400),
    UInt16.ofNat (0xDC00 + (c.toNat - 0x10000) % 0x400)]

/-- The character that a pair of surrogates stands for. -/
def pair (high low : UInt16) : Char :=
  Char.ofNat (0x10000 + (high.toNat - 0xD800) * 0x400 + (low.toNat - 0xDC00))

theorem toNat_ofNat_of_valid {n : ℕ} (h : n.isValidChar) : (Char.ofNat n).toNat = n := by
  rw [Char.ofNat, dif_pos h]
  rfl

theorem toNat_unit {n : ℕ} (h : n < 0x10000) : (UInt16.ofNat n).toNat = n := by
  rw [UInt16.toNat_ofNat']
  omega

theorem pair_toNat {high low : UInt16} (hh : IsHigh high) (hl : IsLow low) :
    (pair high low).toNat = 0x10000 + (high.toNat - 0xD800) * 0x400 + (low.toNat - 0xDC00) := by
  refine toNat_ofNat_of_valid (.inr ?_)
  unfold IsHigh at hh
  unfold IsLow at hl
  omega

/-- A pair is read as its two surrogates. -/
theorem units_pair {high low : UInt16} (hh : IsHigh high) (hl : IsLow low) :
    units (pair high low) = [high, low] := by
  unfold units
  rw [pair_toNat hh hl, if_neg (by omega)]
  unfold IsHigh at hh
  unfold IsLow at hl
  have hhigh : UInt16.ofNat (0xD800 +
      (0x10000 + (high.toNat - 0xD800) * 0x400 + (low.toNat - 0xDC00) - 0x10000) / 0x400) =
      high := by
    refine UInt16.toNat_inj.mp ?_
    rw [toNat_unit (by omega)]
    omega
  have hlow : UInt16.ofNat (0xDC00 +
      (0x10000 + (high.toNat - 0xD800) * 0x400 + (low.toNat - 0xDC00) - 0x10000) % 0x400) =
      low := by
    refine UInt16.toNat_inj.mp ?_
    rw [toNat_unit (by omega)]
    omega
  rw [hhigh, hlow]

/-- A unit that is no surrogate is a character. -/
theorem units_ofNat {u : UInt16} (hh : ¬ IsHigh u) (hl : ¬ IsLow u) :
    (Char.ofNat u.toNat).toNat = u.toNat ∧ units (Char.ofNat u.toNat) = [u] := by
  have hlt := u.toNat_lt
  have hnat : (Char.ofNat u.toNat).toNat = u.toNat := by
    refine toNat_ofNat_of_valid ?_
    unfold IsHigh at hh
    unfold IsLow at hl
    unfold Nat.isValidChar
    omega
  refine ⟨hnat, ?_⟩
  unfold units
  rw [hnat, if_pos (by omega), UInt16.ofNat_toNat]

/-! ## Reading -/

def hexValue (c : Char) : Option ℕ :=
  if c.isDigit then some (c.toNat - 48)
  else if 'a' ≤ c ∧ c ≤ 'f' then some (c.toNat - 87)
  else if 'A' ≤ c ∧ c ≤ 'F' then some (c.toNat - 55)
  else none

/-- The unit that four hexadecimal digits denote. -/
def hexUnit (a b c d : Char) : Option UInt16 := do
  let a ← hexValue a
  let b ← hexValue b
  let c ← hexValue c
  let d ← hexValue d
  return UInt16.ofNat (((a * 16 + b) * 16 + c) * 16 + d)

/-- The unit that an escape of one character denotes. -/
def escaped : Char → Option UInt16
  | '"' => some 0x22
  | '\\' => some 0x5C
  | '/' => some 0x2F
  | 'b' => some 0x08
  | 'f' => some 0x0C
  | 'n' => some 0x0A
  | 'r' => some 0x0D
  | 't' => some 0x09
  | _ => none

/-- The rest of a string literal, once its first quote is read. -/
def parseChars : Text → Option (JsString × Text)
  | [] => none
  | '"' :: rest => some ([], rest)
  | '\\' :: 'u' :: a :: b :: c :: d :: rest =>
      (hexUnit a b c d).bind fun u => (parseChars rest).map fun p => (u :: p.1, p.2)
  | '\\' :: c :: rest =>
      (escaped c).bind fun u => (parseChars rest).map fun p => (u :: p.1, p.2)
  | c :: rest =>
      if c.toNat < 0x20 then none
      else (parseChars rest).map fun p => (units c ++ p.1, p.2)

/-! ## Writing -/

def unicodeEscape (u : UInt16) : Text :=
  ['\\', 'u', Nat.digitChar (u.toNat / 0x1000), Nat.digitChar (u.toNat / 0x100 % 16),
    Nat.digitChar (u.toNat / 0x10 % 16), Nat.digitChar (u.toNat % 16)]

/-- A unit that is not part of a pair. -/
def quoteUnit (u : UInt16) : Text :=
  if u.toNat = 0x08 then ['\\', 'b']
  else if u.toNat = 0x09 then ['\\', 't']
  else if u.toNat = 0x0A then ['\\', 'n']
  else if u.toNat = 0x0C then ['\\', 'f']
  else if u.toNat = 0x0D then ['\\', 'r']
  else if u.toNat = 0x22 then ['\\', '"']
  else if u.toNat = 0x5C then ['\\', '\\']
  else if u.toNat < 0x20 ∨ IsHigh u ∨ IsLow u then unicodeEscape u
  else [Char.ofNat u.toNat]

def quoteChars : JsString → Text
  | [] => []
  | [u] => quoteUnit u
  | u :: v :: rest =>
      if IsHigh u ∧ IsLow v then pair u v :: quoteChars rest
      else quoteUnit u ++ quoteChars (v :: rest)

/-- The literal of a string. -/
def quote (s : JsString) : Text := '"' :: (quoteChars s ++ ['"'])

/-! ## Reading what was written -/

theorem hexValue_digitChar {n : ℕ} (h : n < 16) : hexValue (Nat.digitChar n) = some n := by
  interval_cases n
  all_goals rfl

theorem hexUnit_digits (u : UInt16) :
    hexUnit (Nat.digitChar (u.toNat / 0x1000)) (Nat.digitChar (u.toNat / 0x100 % 16))
      (Nat.digitChar (u.toNat / 0x10 % 16)) (Nat.digitChar (u.toNat % 16)) = some u := by
  have hlt := u.toNat_lt
  unfold hexUnit
  rw [hexValue_digitChar (by omega), hexValue_digitChar (by omega), hexValue_digitChar (by omega),
    hexValue_digitChar (by omega)]
  refine congrArg some (UInt16.toNat_inj.mp ?_)
  rw [toNat_unit (by omega)]
  omega

theorem parseChars_escape {c : Char} {u : UInt16} (h : escaped c = some u) (rest : Text) :
    parseChars ('\\' :: c :: rest) = (parseChars rest).map fun p => (u :: p.1, p.2) := by
  have hu : c ≠ 'u' := by
    rintro rfl
    cases h
  rw [parseChars, h, Option.bind_some]
  intro a b c' d rest' hc
  exact absurd hc hu

theorem parseChars_unicode (u : UInt16) (rest : Text) :
    parseChars (unicodeEscape u ++ rest) = (parseChars rest).map fun p => (u :: p.1, p.2) := by
  rw [unicodeEscape]
  simp only [List.cons_append, List.nil_append]
  rw [parseChars, hexUnit_digits, Option.bind_some]

theorem parseChars_plain {c : Char} (hquote : c.toNat ≠ 0x22) (hslash : c.toNat ≠ 0x5C)
    (hcontrol : 0x20 ≤ c.toNat) (rest : Text) :
    parseChars (c :: rest) = (parseChars rest).map fun p => (units c ++ p.1, p.2) := by
  rw [parseChars, if_neg (by omega)]
  · rintro rfl
    exact hquote rfl
  · rintro a b c' d rest' rfl
    exact absurd rfl hslash
  · rintro c' rest' rfl
    exact absurd rfl hslash

theorem parseChars_quoteUnit (u : UInt16) (rest : Text) :
    parseChars (quoteUnit u ++ rest) = (parseChars rest).map fun p => (u :: p.1, p.2) := by
  have heq (v : UInt16) (h : u.toNat = v.toNat) : u = v := UInt16.toNat_inj.mp h
  unfold quoteUnit
  split
  · next h => exact parseChars_escape (c := 'b') (congrArg some (heq 0x08 h).symm) rest
  split
  · next h => exact parseChars_escape (c := 't') (congrArg some (heq 0x09 h).symm) rest
  split
  · next h => exact parseChars_escape (c := 'n') (congrArg some (heq 0x0A h).symm) rest
  split
  · next h => exact parseChars_escape (c := 'f') (congrArg some (heq 0x0C h).symm) rest
  split
  · next h => exact parseChars_escape (c := 'r') (congrArg some (heq 0x0D h).symm) rest
  split
  · next h => exact parseChars_escape (c := '"') (congrArg some (heq 0x22 h).symm) rest
  split
  · next h => exact parseChars_escape (c := '\\') (congrArg some (heq 0x5C h).symm) rest
  split
  · exact parseChars_unicode u rest
  · next hquote hslash hplain =>
      rw [not_or, not_or] at hplain
      obtain ⟨hnat, hunits⟩ := units_ofNat hplain.2.1 hplain.2.2
      rw [List.singleton_append,
        parseChars_plain (by omega) (by omega) (by omega), hunits]
      rfl

/-- A pair of surrogates is read back as two units. -/
theorem parseChars_pair {high low : UInt16} (hh : IsHigh high) (hl : IsLow low) (rest : Text) :
    parseChars (pair high low :: rest) =
      (parseChars rest).map fun p => (high :: low :: p.1, p.2) := by
  have hnat := pair_toNat hh hl
  rw [parseChars_plain (by omega) (by omega) (by omega), units_pair hh hl]
  rfl

/-- A string is read back. -/
theorem parseChars_quoteChars (s : JsString) (rest : Text) :
    parseChars (quoteChars s ++ '"' :: rest) = some (s, rest) := by
  fun_induction quoteChars s with
  | case1 => rfl
  | case2 u => rw [parseChars_quoteUnit, parseChars, Option.map_some]
  | case3 u v s hpair ih =>
      rw [List.cons_append, parseChars_pair hpair.1 hpair.2, ih, Option.map_some]
  | case4 u v s hpair ih =>
      rw [List.append_assoc, parseChars_quoteUnit, ih, Option.map_some]

/-! ## Text -/

/-- The character in place of a unit that is not part of a pair. -/
def character (u : UInt16) : Char :=
  if IsHigh u ∨ IsLow u then '\uFFFD' else Char.ofNat u.toNat

/-- The text of a string. -/
def JsString.toText : JsString → Text
  | [] => []
  | [u] => [character u]
  | u :: v :: rest =>
      if IsHigh u ∧ IsLow v then pair u v :: JsString.toText rest
      else character u :: JsString.toText (v :: rest)

/-- The string that a text is. -/
def JsString.ofText (text : Text) : JsString := text.flatMap units

/-- A character is one unit that is no surrogate, or a pair. -/
theorem units_cases (c : Char) :
    (∃ u, units c = [u] ∧ ¬ IsHigh u ∧ ¬ IsLow u ∧ character u = c) ∨
      ∃ high low, units c = [high, low] ∧ IsHigh high ∧ IsLow low ∧ pair high low = c := by
  have hvalid : c.toNat < 0xD800 ∨ (0xDFFF < c.toNat ∧ c.toNat < 0x110000) := c.valid
  by_cases h : c.toNat < 0x10000
  · have hunit := toNat_unit h
    have hhigh : ¬ IsHigh (UInt16.ofNat c.toNat) := by
      unfold IsHigh
      omega
    have hlow : ¬ IsLow (UInt16.ofNat c.toNat) := by
      unfold IsLow
      omega
    refine .inl ⟨_, if_pos h, hhigh, hlow, ?_⟩
    rw [character, if_neg (not_or.mpr ⟨hhigh, hlow⟩), hunit, Char.ofNat_toNat]
  · have hhigh := toNat_unit (n := 0xD800 + (c.toNat - 0x10000) / 0x400) (by omega)
    have hlow := toNat_unit (n := 0xDC00 + (c.toNat - 0x10000) % 0x400) (by omega)
    refine .inr ⟨_, _, if_neg h, ?_, ?_, ?_⟩
    · unfold IsHigh
      omega
    · unfold IsLow
      omega
    · unfold pair
      rw [hhigh, hlow, show 0x10000 + (0xD800 + (c.toNat - 0x10000) / 0x400 - 0xD800) * 0x400 +
        (0xDC00 + (c.toNat - 0x10000) % 0x400 - 0xDC00) = c.toNat by omega, Char.ofNat_toNat]

theorem toText_cons_unit {u : UInt16} (h : ¬ IsHigh u) (s : JsString) :
    JsString.toText (u :: s) = character u :: JsString.toText s := by
  cases s with
  | nil => rfl
  | cons v s => rw [JsString.toText, if_neg (fun hpair => h hpair.1)]

/-- Text survives. -/
theorem toText_ofText (text : Text) : JsString.toText (JsString.ofText text) = text := by
  induction text with
  | nil => rfl
  | cons c text ih =>
      rw [JsString.ofText] at ih ⊢
      rw [List.flatMap_cons]
      rcases units_cases c with ⟨u, hu, hhigh, -, hc⟩ | ⟨high, low, hu, hh, hl, hc⟩
      · rw [hu, List.singleton_append, toText_cons_unit hhigh, hc, ih]
      · rw [hu, List.cons_append, List.singleton_append, JsString.toText, if_pos ⟨hh, hl⟩, hc, ih]

end Json
