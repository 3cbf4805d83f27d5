import Mathlib.Data.List.TakeDrop
import RydTrip.Json.Double

/-!
# Number literals

A literal is read digit by digit as the grammar has it, and then rounded once.
A number is written with its shortest digits, in one of the four forms that
depend on where the decimal point falls.  Infinity is written as `null`.

The last theorem reads back what was written, whatever follows it, as long as
it cannot be taken for more of the literal.
-/

namespace Json

abbrev Text : Type := List Char

/-! ## Reading -/

/-- The parts of a literal. -/
structure Literal where
  negative : Bool
  whole : Text
  fraction : Text
  exponent : Option ℤ

namespace Literal

def value (l : Literal) : Double :=
  .ofDecimal l.negative (Nat.ofDigitChars 10 (l.whole ++ l.fraction) 0)
    (l.exponent.getD 0 - l.fraction.length)

end Literal

def scanDigits (text : Text) : Text × Text := text.span Char.isDigit

/-- A minus sign that may be missing. -/
def parseSign : Text → Bool × Text
  | '-' :: rest => (true, rest)
  | text => (false, text)

/-- No digit follows a leading zero. -/
def parseWhole (text : Text) : Option (Text × Text) :=
  match scanDigits text with
  | ([], _) => none
  | ('0' :: _ :: _, _) => none
  | (digits, rest) => some (digits, rest)

def parseFraction : Text → Option (Text × Text)
  | '.' :: rest =>
      match scanDigits rest with
      | ([], _) => none
      | (digits, rest) => some (digits, rest)
  | text => some ([], text)

/-- The sign of an exponent, which may be written out. -/
def parseExponentSign : Text → Bool × Text
  | '+' :: rest => (false, rest)
  | text => parseSign text

def parseExponent : Text → Option (Option ℤ × Text)
  | [] => some (none, [])
  | c :: rest =>
      if c = 'e' ∨ c = 'E' then
        let (negative, rest) := parseExponentSign rest
        match scanDigits rest with
        | ([], _) => none
        | (digits, rest) =>
            let n : ℤ := Nat.ofDigitChars 10 digits 0
            some (some (if negative then -n else n), rest)
      else some (none, c :: rest)

def parseNumber (text : Text) : Option (Double × Text) := do
  let (negative, text) := parseSign text
  let (whole, text) ← parseWhole text
  let (fraction, text) ← parseFraction text
  let (exponent, text) ← parseExponent text
  return (Literal.value ⟨negative, whole, fraction, exponent⟩, text)

/-! ## Writing -/

def signText (negative : Bool) : Text := if negative then ['-'] else []

def fractionText (fraction : Text) : Text := if fraction = [] then [] else '.' :: fraction

def exponentText : Option ℤ → Text
  | none => []
  | some n => 'e' :: (if n < 0 then '-' else '+') :: Nat.toDigits 10 n.natAbs

def Literal.text (l : Literal) : Text :=
  signText l.negative ++ l.whole ++ fractionText l.fraction ++ exponentText l.exponent

/-- The decimal `s` times ten to the `e`, with the point where it is shortest to
read. -/
def decimal (negative : Bool) (s : ℕ) (e : ℤ) : Literal :=
  let digits := Nat.toDigits 10 s
  let n := e + digits.length
  if digits.length ≤ n ∧ n ≤ 21 then
    ⟨negative, digits ++ List.replicate e.toNat '0', [], none⟩
  else if 0 < n ∧ n ≤ 21 then
    ⟨negative, digits.take n.toNat, digits.drop n.toNat, none⟩
  else if -6 < n ∧ n ≤ 0 then
    ⟨negative, ['0'], List.replicate (-n).toNat '0' ++ digits, none⟩
  else ⟨negative, digits.take 1, digits.drop 1, some (n - 1)⟩

/-- Both zeros are written without a sign. -/
def Double.text : Double → Text
  | .finite negative x =>
      if h : 0 < x.val then (decimal negative (shortest x h).1 (shortest x h).2).text else ['0']
  | .infinity _ => ['n', 'u', 'l', 'l']

/-! ## Reading what was written -/

/-- What follows a literal cannot be taken for more of it. -/
def Ends (rest : Text) : Prop :=
  ∀ c ∈ rest.head?, c.isDigit = false ∧ c ≠ '.' ∧ c ≠ 'e' ∧ c ≠ 'E'

/-- No digit comes next. -/
def NoDigit (rest : Text) : Prop := ∀ c ∈ rest.head?, c.isDigit = false

theorem Ends.noDigit {rest : Text} (h : Ends rest) : NoDigit rest := fun c hc => (h c hc).1

theorem scanDigits_append {digits rest : Text} (hdigits : ∀ c ∈ digits, c.isDigit = true)
    (hrest : NoDigit rest) : scanDigits (digits ++ rest) = (digits, rest) := by
  unfold scanDigits
  rw [List.span_eq_takeWhile_dropWhile, List.takeWhile_append_of_pos hdigits,
    List.dropWhile_append_of_pos hdigits]
  cases rest with
  | nil => rw [List.takeWhile_nil, List.dropWhile_nil, List.append_nil]
  | cons c rest =>
      have hc : ¬ c.isDigit = true := by
        rw [hrest c rfl]
        exact Bool.false_ne_true
      rw [List.takeWhile_cons_of_neg hc, List.dropWhile_cons_of_neg hc, List.append_nil]

/-- The digits before the point are well formed. -/
def WholeDigits (digits : Text) : Prop :=
  digits ≠ [] ∧ (∀ c ∈ digits, c.isDigit = true) ∧ (digits.head? = some '0' → digits = ['0'])

theorem parseWhole_append {digits rest : Text} (h : WholeDigits digits) (hrest : NoDigit rest) :
    parseWhole (digits ++ rest) = some (digits, rest) := by
  obtain ⟨hne, hdigits, hzero⟩ := h
  unfold parseWhole
  rw [scanDigits_append hdigits hrest]
  split
  · next heq =>
      cases heq
      exact absurd rfl hne
  · next heq =>
      cases heq
      cases hzero rfl
  · next heq => rw [heq]

theorem parseFraction_append {fraction rest : Text} (h : ∀ c ∈ fraction, c.isDigit = true)
    (hrest : NoDigit rest) (hpoint : rest.head? ≠ some '.') :
    parseFraction (fractionText fraction ++ rest) = some (fraction, rest) := by
  unfold fractionText
  split
  · next heq =>
      subst heq
      rw [List.nil_append]
      unfold parseFraction
      split
      · exact absurd rfl hpoint
      · rfl
  · next hne =>
      rw [List.cons_append, parseFraction, scanDigits_append h hrest]
      cases fraction with
      | nil => exact absurd rfl hne
      | cons c fraction => rfl

theorem parseExponent_append {exponent : Option ℤ} {rest : Text} (hrest : Ends rest) :
    parseExponent (exponentText exponent ++ rest) = some (exponent, rest) := by
  cases exponent with
  | none =>
      rw [exponentText, List.nil_append]
      cases rest with
      | nil => rfl
      | cons c rest =>
          obtain ⟨-, -, he, hE⟩ := hrest c rfl
          rw [parseExponent, if_neg (fun h => h.elim he hE)]
  | some n =>
      have hscan : scanDigits (Nat.toDigits 10 n.natAbs ++ rest) =
          (Nat.toDigits 10 n.natAbs, rest) :=
        scanDigits_append
          (fun c hc => Nat.isDigit_of_mem_toDigits (by norm_num) (by norm_num) hc) hrest.noDigit
      have hvalue : Nat.ofDigitChars 10 (Nat.toDigits 10 n.natAbs) 0 = n.natAbs :=
        Nat.ofDigitChars_ten_toDigits
      have hne : Nat.toDigits 10 n.natAbs ≠ [] := Nat.toDigits_ne_nil
      rw [exponentText]
      generalize Nat.toDigits 10 n.natAbs = digits at hscan hvalue hne
      have hsign : parseExponentSign ((if n < 0 then '-' else '+') :: (digits ++ rest)) =
          (decide (n < 0), digits ++ rest) := by
        by_cases hn : n < 0
        · rw [if_pos hn, decide_eq_true hn]
          rfl
        · rw [if_neg hn, decide_eq_false hn]
          rfl
      rw [List.cons_append, List.cons_append, parseExponent, if_pos (.inl rfl), hsign]
      dsimp only
      rw [hscan]
      cases digits with
      | nil => exact absurd rfl hne
      | cons c digits =>
          dsimp only
          rw [hvalue]
          congr 3
          by_cases hn : n < 0
          · rw [decide_eq_true hn, if_pos rfl]
            omega
          · rw [decide_eq_false hn, if_neg Bool.false_ne_true]
            omega

/-! ## Literals -/

/-- The parts of a literal have the form that the grammar asks for. -/
structure Literal.WellFormed (l : Literal) : Prop where
  whole : WholeDigits l.whole
  fraction : ∀ c ∈ l.fraction, c.isDigit = true

theorem noDigit_of_head {c : Char} {rest : Text} (h : c.isDigit = false) : NoDigit (c :: rest) := by
  intro d hd
  cases hd
  exact h

theorem parseSign_append {negative : Bool} {digits rest : Text} (h : WholeDigits digits) :
    parseSign (signText negative ++ (digits ++ rest)) = (negative, digits ++ rest) := by
  cases negative with
  | true => rfl
  | false =>
      obtain ⟨hne, hdigits, -⟩ := h
      cases digits with
      | nil => exact absurd rfl hne
      | cons c digits =>
          have hc : c ≠ '-' := by
            rintro rfl
            exact absurd (hdigits '-' List.mem_cons_self) (by decide)
          change parseSign (c :: (digits ++ rest)) = _
          unfold parseSign
          split
          · next heq =>
              cases heq
              exact absurd rfl hc
          · rfl

/-- After the digits before the point comes no digit. -/
theorem noDigit_fraction {fraction : Text} {exponent : Option ℤ} {rest : Text} (h : Ends rest) :
    NoDigit (fractionText fraction ++ (exponentText exponent ++ rest)) := by
  unfold fractionText
  split
  · cases exponent with
    | none => exact h.noDigit
    | some n => exact noDigit_of_head (c := 'e') (by decide)
  · exact noDigit_of_head (c := '.') (by decide)

/-- After the digits behind the point comes neither a digit nor a point. -/
theorem exponent_head (exponent : Option ℤ) {rest : Text} (h : Ends rest) :
    NoDigit (exponentText exponent ++ rest) ∧ (exponentText exponent ++ rest).head? ≠ some '.' := by
  cases exponent with
  | none => exact ⟨h.noDigit, fun hdot => (h '.' hdot).2.1 rfl⟩
  | some n => exact ⟨noDigit_of_head (c := 'e') (by decide), by simp [exponentText]⟩

/-- A literal is read back. -/
theorem parseNumber_literal {l : Literal} (h : l.WellFormed) {rest : Text} (hrest : Ends rest) :
    parseNumber (l.text ++ rest) = some (l.value, rest) := by
  obtain ⟨negative, whole, fraction, exponent⟩ := l
  obtain ⟨hwhole, hfraction⟩ := h
  obtain ⟨hdigit, hpoint⟩ := exponent_head exponent hrest
  unfold parseNumber Literal.text
  simp only [List.append_assoc]
  rw [parseSign_append hwhole]
  dsimp only
  rw [parseWhole_append hwhole (noDigit_fraction hrest), Option.bind_eq_bind, Option.bind_some]
  dsimp only
  rw [parseFraction_append hfraction hdigit hpoint, Option.bind_eq_bind, Option.bind_some]
  dsimp only
  rw [parseExponent_append hrest]
  rfl

/-! ## The four forms -/

theorem toDigits_isDigit {s : ℕ} : ∀ c ∈ Nat.toDigits 10 s, c.isDigit = true := fun _ hc =>
  Nat.isDigit_of_mem_toDigits (by norm_num) (by norm_num) hc

/-- A positive number does not begin with a zero. -/
theorem toDigits_head {s : ℕ} (hs : 0 < s) : (Nat.toDigits 10 s).head? ≠ some '0' := by
  induction s using Nat.strongRecOn with
  | ind s ih =>
      rw [Nat.toDigits_eq_if (by norm_num)]
      split
      · rw [List.head?_cons]
        intro h
        have hzero := Option.some.inj h
        rw [Nat.digitChar_eq_zero] at hzero
        omega
      · have hless := ih (s / 10) (by omega) (by omega)
        rw [List.head?_append_of_ne_nil _ Nat.toDigits_ne_nil]
        exact hless

/-- Digits that do not begin with a zero, cut anywhere behind the first. -/
theorem wholeDigits_take {digits : Text} {n : ℕ} (hn : 0 < n) (hne : digits ≠ [])
    (hdigits : ∀ c ∈ digits, c.isDigit = true) (hhead : digits.head? ≠ some '0') :
    WholeDigits (digits.take n) := by
  refine ⟨?_, fun c hc => hdigits c (List.mem_of_mem_take hc), fun h => ?_⟩
  · rw [ne_eq, List.take_eq_nil_iff]
    exact fun h => h.elim (by omega) hne
  · rw [List.head?_take, if_neg (by omega)] at h
    exact absurd h hhead

theorem isDigit_replicate {n : ℕ} : ∀ c ∈ List.replicate n '0', c.isDigit = true := by
  intro c hc
  rw [List.eq_of_mem_replicate hc]
  decide

theorem decimal_wellFormed (negative : Bool) {s : ℕ} (hs : 0 < s) (e : ℤ) :
    (decimal negative s e).WellFormed := by
  have hne : Nat.toDigits 10 s ≠ [] := Nat.toDigits_ne_nil
  have hdigits := toDigits_isDigit (s := s)
  have hhead := toDigits_head hs
  unfold decimal
  generalize Nat.toDigits 10 s = digits at hne hdigits hhead
  dsimp only
  split
  · refine ⟨⟨by simp [hne], fun c hc => ?_, fun h => ?_⟩, by simp⟩
    · exact (List.mem_append.mp hc).elim (hdigits c) (isDigit_replicate c)
    · rw [List.head?_append_of_ne_nil _ hne] at h
      exact absurd h hhead
  · split
    · next hn =>
        refine ⟨wholeDigits_take (by omega) hne hdigits hhead, fun c hc => ?_⟩
        exact hdigits c (List.mem_of_mem_drop hc)
    · split
      · refine ⟨⟨by simp, by simp [show Char.isDigit '0' = true from rfl], fun _ => rfl⟩,
          fun c hc => ?_⟩
        exact (List.mem_append.mp hc).elim (isDigit_replicate c) (hdigits c)
      · refine ⟨wholeDigits_take one_pos hne hdigits hhead, fun c hc => ?_⟩
        exact hdigits c (List.mem_of_mem_drop hc)

/-- All four forms denote the same. -/
theorem decimal_value (negative : Bool) (s : ℕ) (e : ℤ) :
    (decimal negative s e).value = .ofDecimal negative s e := by
  have hvalue : Nat.ofDigitChars 10 (Nat.toDigits 10 s) 0 = s := Nat.ofDigitChars_ten_toDigits
  have hlength : 0 < (Nat.toDigits 10 s).length := Nat.length_toDigits_pos
  unfold decimal
  generalize Nat.toDigits 10 s = digits at hvalue hlength
  dsimp only
  split
  · next hn =>
      refine Double.ofDecimal_congr ?_
      rw [List.append_nil, Nat.ofDigitChars_append, Nat.ofDigitChars_replicate_zero, hvalue]
      obtain ⟨k, hk⟩ := Int.eq_ofNat_of_zero_le (show 0 ≤ e by omega)
      subst hk
      simp [mul_comm]
  · next hbig =>
      split
      · next hn =>
          refine Double.ofDecimal_congr ?_
          rw [List.take_append_drop, hvalue, List.length_drop, Option.getD_none]
          congr 2
          omega
      · split
        · next hn =>
            refine Double.ofDecimal_congr ?_
            rw [← List.append_assoc, Nat.ofDigitChars_append, List.singleton_append,
              ← List.replicate_succ, Nat.ofDigitChars_replicate_zero, mul_zero, hvalue,
              List.length_append, List.length_replicate, Option.getD_none]
            congr 2
            omega
        · refine Double.ofDecimal_congr ?_
          rw [List.take_append_drop, hvalue, List.length_drop, Option.getD_some]
          congr 2
          omega

/-! ## Numbers -/

/-- The number that is read where `x` was written: the negative zero loses its
sign. -/
def Double.reread : Double → Double
  | .finite negative x => .finite (if 0 < x.val then negative else false) x
  | .infinity negative => .infinity negative

def Double.IsFinite : Double → Prop
  | .finite .. => True
  | .infinity _ => False

instance (x : Double) : Decidable x.IsFinite :=
  match x with
  | .finite .. => .isTrue trivial
  | .infinity _ => .isFalse id

theorem Double.text_of_pos {negative : Bool} {x : Magnitude} (h : 0 < x.val) :
    (Double.finite negative x).text =
      (decimal negative (shortest x h).1 (shortest x h).2).text := dif_pos h

theorem Double.text_of_zero {negative : Bool} {x : Magnitude} (h : ¬ 0 < x.val) :
    (Double.finite negative x).text = ['0'] := dif_neg h

theorem Double.reread_of_pos {negative : Bool} {x : Magnitude} (h : 0 < x.val) :
    (Double.finite negative x).reread = .finite negative x := by
  rw [Double.reread, if_pos h]

theorem Double.reread_of_zero {negative : Bool} {x : Magnitude} (h : ¬ 0 < x.val) :
    (Double.finite negative x).reread = .finite false .zero := by
  have hzero : x = .zero := Subtype.ext (le_antisymm (not_lt.mp h) x.property.1)
  rw [Double.reread, if_neg h, hzero]

theorem parseNumber_zero {rest : Text} (hrest : Ends rest) :
    parseNumber ('0' :: rest) = some (.finite false .zero, rest) := by
  have hwhole : WholeDigits ['0'] := ⟨by simp, by simp, fun _ => rfl⟩
  have hread := parseNumber_literal (l := ⟨false, ['0'], [], none⟩) ⟨hwhole, by simp⟩ hrest
  have hvalue : Literal.value ⟨false, ['0'], [], none⟩ = .finite false .zero :=
    Double.ofDecimal_zero false _
  rw [hvalue] at hread
  exact hread

/-- A finite number is read back. -/
theorem parseNumber_text {x : Double} (hx : x.IsFinite) {rest : Text} (hrest : Ends rest) :
    parseNumber (x.text ++ rest) = some (x.reread, rest) := by
  cases x with
  | infinity negative => exact absurd hx id
  | finite negative x =>
      by_cases h : 0 < x.val
      · obtain ⟨hnear, hs⟩ := shortest_spec x h
        rw [Double.text_of_pos h, Double.reread_of_pos h,
          parseNumber_literal (decimal_wellFormed negative hs _) hrest, decimal_value,
          Double.ofDecimal_of_nearest hnear]
      · rw [Double.text_of_zero h, Double.reread_of_zero h]
        exact parseNumber_zero hrest

/-- A literal begins with a digit or a minus sign. -/
theorem Literal.text_head {l : Literal} (h : l.WellFormed) :
    ∃ c text, l.text = c :: text ∧ (c = '-' ∨ c.isDigit = true) := by
  obtain ⟨⟨hne, hdigits, -⟩, -⟩ := h
  obtain ⟨negative, whole, fraction, exponent⟩ := l
  rw [Literal.text]
  cases negative with
  | true => exact ⟨'-', _, rfl, .inl rfl⟩
  | false =>
      cases whole with
      | nil => exact absurd rfl hne
      | cons c whole => exact ⟨c, _, rfl, .inr (hdigits c List.mem_cons_self)⟩

/-- A number begins with a digit or a minus sign. -/
theorem Double.text_head {x : Double} (hx : x.IsFinite) :
    ∃ c text, x.text = c :: text ∧ (c = '-' ∨ c.isDigit = true) := by
  cases x with
  | infinity negative => exact absurd hx id
  | finite negative x =>
      by_cases h : 0 < x.val
      · obtain ⟨-, hs⟩ := shortest_spec x h
        rw [Double.text_of_pos h]
        exact Literal.text_head (decimal_wellFormed negative hs _)
      · rw [Double.text_of_zero h]
        exact ⟨'0', [], rfl, .inr rfl⟩

end Json
