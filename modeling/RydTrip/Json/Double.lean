import Mathlib.Algebra.Order.Floor.Ring
import Mathlib.Algebra.Order.Field.Power
import Mathlib.Data.Int.Log
import Mathlib.Data.Rat.Floor
import Mathlib.Tactic.Linarith
import Mathlib.Tactic.Ring

/-!
# Double precision numbers

The numbers that a JSON text can denote: a sign, and either a magnitude on the
double precision grid or infinity.  There are two zeros, and NaN is left out,
since no text denotes it.

`nearest` rounds a magnitude to the grid, ties to even.  A decimal that is
beyond the largest finite number denotes infinity.

A positive magnitude is written with the fewest digits that still denote it
(`shortest`).  Such digits exist because every point of the grid is a decimal
fraction.
-/

namespace Json

/-! ## Rounding to an integer -/

/-- The nearest integer, the even one of two. -/
def halfEven (q : ℚ) : ℤ :=
  if q - ⌊q⌋ < 1 / 2 then ⌊q⌋
  else if 1 / 2 < q - ⌊q⌋ then ⌊q⌋ + 1
  else if ⌊q⌋ % 2 = 0 then ⌊q⌋ else ⌊q⌋ + 1

theorem halfEven_intCast (n : ℤ) : halfEven n = n := by
  unfold halfEven
  rw [Int.floor_intCast, sub_self, if_pos (by norm_num)]

theorem halfEven_cases (q : ℚ) :
    halfEven q = ⌊q⌋ ∨ (halfEven q = ⌊q⌋ + 1 ∧ (⌊q⌋ : ℚ) < q) := by
  unfold halfEven
  split
  · exact .inl rfl
  case isFalse hhalf =>
      have hlt : (⌊q⌋ : ℚ) < q := by linarith
      split
      · exact .inr ⟨rfl, hlt⟩
      · split
        · exact .inl rfl
        · exact .inr ⟨rfl, hlt⟩

theorem halfEven_nonneg {q : ℚ} (h : 0 ≤ q) : 0 ≤ halfEven q := by
  have hfloor : 0 ≤ ⌊q⌋ := Int.floor_nonneg.mpr h
  rcases halfEven_cases q with heq | ⟨heq, -⟩
  · omega
  · omega

theorem halfEven_le {q : ℚ} {n : ℤ} (h : q ≤ n) : halfEven q ≤ n := by
  rcases halfEven_cases q with heq | ⟨heq, hlt⟩
  · rw [heq]
    exact_mod_cast (Int.floor_le q).trans h
  · have hn : (⌊q⌋ : ℚ) < n := hlt.trans_le h
    have hn' : ⌊q⌋ < n := by exact_mod_cast hn
    omega

/-! ## Rounding to the grid -/

/-- The exponent of the last of 53 binary digits.  Below the normal numbers it
does not get any smaller. -/
def ulp (q : ℚ) : ℤ := max (Int.log 2 q - 52) (-1074)

/-- The point of the grid next to a magnitude. -/
def nearest (q : ℚ) : ℚ := halfEven (q / 2 ^ ulp q) * 2 ^ ulp q

theorem two_zpow_pos (e : ℤ) : (0 : ℚ) < 2 ^ e := zpow_pos two_pos e

theorem nearest_zero : nearest 0 = 0 := by
  unfold nearest
  rw [zero_div, show halfEven 0 = 0 from halfEven_intCast 0, Int.cast_zero, zero_mul]

theorem nearest_nonneg {q : ℚ} (h : 0 ≤ q) : 0 ≤ nearest q := by
  have hn : 0 ≤ halfEven (q / 2 ^ ulp q) := halfEven_nonneg (div_nonneg h (two_zpow_pos _).le)
  exact mul_nonneg (by exact_mod_cast hn) (two_zpow_pos _).le

/-- A magnitude that is a whole number of its last digits stays. -/
theorem nearest_of_whole {q : ℚ} {n : ℤ} (h : q / 2 ^ ulp q = n) : nearest q = q := by
  unfold nearest
  rw [h, halfEven_intCast, ← h]
  exact div_mul_cancel₀ q (two_zpow_pos _).ne'

/-- A magnitude has at most 53 digits before its last one. -/
theorem div_ulp_le (q : ℚ) : q / 2 ^ ulp q ≤ 2 ^ 53 := by
  rw [div_le_iff₀ (two_zpow_pos _)]
  have hlog : q < (2 : ℚ) ^ (Int.log 2 q + 1) := by
    exact_mod_cast Int.lt_zpow_succ_log_self one_lt_two q
  have hexp : Int.log 2 q + 1 ≤ 53 + ulp q := by
    have := le_max_left (Int.log 2 q - 52) (-1074)
    unfold ulp
    omega
  calc q ≤ 2 ^ (Int.log 2 q + 1) := hlog.le
    _ ≤ 2 ^ (53 + ulp q) := zpow_le_zpow_right₀ one_le_two hexp
    _ = 2 ^ 53 * 2 ^ ulp q := by
        rw [zpow_add₀ two_ne_zero]
        norm_num

/-- The points of the grid. -/
theorem nearest_of_grid {m : ℕ} {e : ℤ} (hm : m ≤ 2 ^ 53) (he : -1074 ≤ e) :
    nearest (m * 2 ^ e) = m * 2 ^ e := by
  rcases Nat.eq_zero_or_pos m with rfl | hpos
  · rw [Nat.cast_zero, zero_mul, nearest_zero]
  · have hq : (0 : ℚ) < m * 2 ^ e := mul_pos (by exact_mod_cast hpos) (two_zpow_pos e)
    rcases hm.lt_or_eq with hlt | rfl
    · -- The last digit of the sum is not above `e`.
      have hlog : Int.log 2 ((m : ℚ) * 2 ^ e) < e + 53 := by
        rw [← Int.lt_zpow_iff_log_lt one_lt_two hq]
        have hm' : (m : ℚ) < 2 ^ (53 : ℤ) := by exact_mod_cast hlt
        push_cast
        rw [zpow_add₀ two_ne_zero, mul_comm]
        exact mul_lt_mul_of_pos_left hm' (two_zpow_pos e)
      have hulp : ulp ((m : ℚ) * 2 ^ e) ≤ e := max_le (by omega) he
      obtain ⟨k, hk⟩ := Int.le.dest hulp
      refine nearest_of_whole (n := m * 2 ^ k) ?_
      generalize ulp ((m : ℚ) * 2 ^ e) = u at hk ⊢
      rw [← hk, zpow_add₀ two_ne_zero, zpow_natCast]
      push_cast
      field_simp
    · -- One digit more than fits, and it is zero.
      have hval : ((2 ^ 53 : ℕ) : ℚ) * 2 ^ e = 2 ^ (e + 53) := by
        rw [zpow_add₀ two_ne_zero, mul_comm]
        norm_num
      have hlog : Int.log 2 ((2 : ℚ) ^ (e + 53)) = e + 53 := by
        exact_mod_cast Int.log_zpow (R := ℚ) one_lt_two (e + 53)
      have hulp : ulp ((2 : ℚ) ^ (e + 53)) = e + 1 := by
        unfold ulp
        rw [hlog]
        omega
      rw [hval]
      refine nearest_of_whole (n := 2 ^ 52) ?_
      rw [hulp, ← zpow_sub₀ two_ne_zero, show e + 53 - (e + 1) = (52 : ℕ) by omega, zpow_natCast]
      norm_num

/-- Rounding leads to the grid. -/
theorem nearest_grid {q : ℚ} (h : 0 ≤ q) :
    ∃ (m : ℕ) (e : ℤ), m ≤ 2 ^ 53 ∧ -1074 ≤ e ∧ nearest q = m * 2 ^ e := by
  have hn : 0 ≤ halfEven (q / 2 ^ ulp q) := halfEven_nonneg (div_nonneg h (two_zpow_pos _).le)
  obtain ⟨m, hm⟩ := Int.eq_ofNat_of_zero_le hn
  have hle : halfEven (q / 2 ^ ulp q) ≤ (2 ^ 53 : ℤ) := by
    refine halfEven_le ?_
    exact_mod_cast div_ulp_le q
  refine ⟨m, ulp q, ?_, le_max_right _ _, ?_⟩
  · rw [hm] at hle
    exact_mod_cast hle
  · rw [nearest, hm, Int.cast_natCast]

theorem nearest_nearest {q : ℚ} (h : 0 ≤ q) : nearest (nearest q) = nearest q := by
  obtain ⟨m, e, hm, he, heq⟩ := nearest_grid h
  rw [heq, nearest_of_grid hm he]

/-! ## Numbers -/

/-- The finite magnitudes: the points of the grid that do not overflow. -/
abbrev Magnitude : Type := {q : ℚ // 0 ≤ q ∧ q < 2 ^ 1024 ∧ nearest q = q}

/-- A number with its sign. -/
inductive Double where
  | finite (negative : Bool) (magnitude : Magnitude)
  | infinity (negative : Bool)
  deriving DecidableEq

def Magnitude.zero : Magnitude := ⟨0, le_refl 0, by positivity, nearest_zero⟩

namespace Double

/-- The number that `s` times ten to the `e` denotes. -/
def ofDecimal (negative : Bool) (s : ℕ) (e : ℤ) : Double :=
  have hq : (0 : ℚ) ≤ s * 10 ^ e := by positivity
  if h : nearest (s * 10 ^ e) < 2 ^ 1024 then
    .finite negative ⟨nearest (s * 10 ^ e), nearest_nonneg hq, h, nearest_nearest hq⟩
  else .infinity negative

theorem ofDecimal_of_nearest {negative : Bool} {s : ℕ} {e : ℤ} {x : Magnitude}
    (h : nearest (s * 10 ^ e) = x) : ofDecimal negative s e = .finite negative x := by
  obtain ⟨q, hq⟩ := x
  subst h
  rw [ofDecimal, dif_pos hq.2.1]

/-- Only the product matters. -/
theorem ofDecimal_congr {negative : Bool} {s s' : ℕ} {e e' : ℤ}
    (h : (s * 10 ^ e : ℚ) = s' * 10 ^ e') : ofDecimal negative s e = ofDecimal negative s' e' := by
  simp only [ofDecimal, h]

theorem ofDecimal_zero (negative : Bool) (e : ℤ) :
    ofDecimal negative 0 e = .finite negative .zero := by
  refine ofDecimal_of_nearest ?_
  rw [Nat.cast_zero, zero_mul, nearest_zero]
  rfl

end Double

/-! ## The fewest digits -/

/-- The decimal with `k` digits that denotes `q`, the closer one of two. -/
def digitsAt (q : ℚ) (k : ℕ) : Option (ℕ × ℤ) :=
  let e := Int.log 10 q + 1 - k
  let s := ⌊q / 10 ^ e⌋₊
  let low : ℚ := s * 10 ^ e
  let high : ℚ := (s + 1 : ℕ) * 10 ^ e
  if nearest low = q ∧ (nearest high ≠ q ∨ q - low ≤ high - q) then some (s, e)
  else if nearest high = q then
    some (if s + 1 = 10 ^ k then (10 ^ (k - 1), e + 1) else (s + 1, e))
  else none

theorem ten_zpow_pos (e : ℤ) : (0 : ℚ) < 10 ^ e := zpow_pos (by norm_num) e

/-- A magnitude cut down to `k` digits. -/
theorem floor_bounds {q : ℚ} (hq : 0 < q) {k : ℕ} (hk : 1 ≤ k) :
    10 ^ (k - 1) ≤ ⌊q / 10 ^ (Int.log 10 q + 1 - k)⌋₊ ∧
      ⌊q / 10 ^ (Int.log 10 q + 1 - k)⌋₊ < 10 ^ k := by
  have hlow : (10 : ℚ) ^ Int.log 10 q ≤ q := by
    exact_mod_cast Int.zpow_log_le_self (b := 10) (by norm_num) hq
  have hhigh : q < (10 : ℚ) ^ (Int.log 10 q + 1) := by
    exact_mod_cast Int.lt_zpow_succ_log_self (b := 10) (by norm_num) q
  have hten : (10 : ℚ) ≠ 0 := by norm_num
  constructor
  · refine Nat.le_floor ?_
    rw [le_div_iff₀ (ten_zpow_pos _)]
    push_cast
    rw [← zpow_natCast, ← zpow_add₀ hten,
      show ((k - 1 : ℕ) : ℤ) + (Int.log 10 q + 1 - k) = Int.log 10 q by omega]
    exact hlow
  · rw [Nat.floor_lt (div_nonneg hq.le (ten_zpow_pos _).le), div_lt_iff₀ (ten_zpow_pos _)]
    push_cast
    rw [← zpow_natCast, ← zpow_add₀ hten,
      show (k : ℤ) + (Int.log 10 q + 1 - k) = Int.log 10 q + 1 by omega]
    exact hhigh

/-- What is found has `k` digits and denotes `q`. -/
theorem digitsAt_sound {q : ℚ} (hq : 0 < q) {k : ℕ} (hk : 1 ≤ k) {s : ℕ} {e : ℤ}
    (h : digitsAt q k = some (s, e)) :
    nearest (s * 10 ^ e) = q ∧ 10 ^ (k - 1) ≤ s ∧ s < 10 ^ k := by
  obtain ⟨hlow, hhigh⟩ := floor_bounds hq hk
  unfold digitsAt at h
  dsimp only at h
  generalize ⌊q / 10 ^ (Int.log 10 q + 1 - k)⌋₊ = t at h hlow hhigh
  split at h
  case isTrue hnear =>
      cases h
      exact ⟨hnear.1, hlow, hhigh⟩
  case isFalse =>
      split at h
      case isFalse => cases h
      case isTrue hnear =>
          split at h
          case isTrue hcarry =>
              -- The carry shortens the digits to a one and zeros.
              cases h
              refine ⟨?_, le_refl _, Nat.pow_lt_pow_right (by norm_num) (by omega)⟩
              refine Eq.trans ?_ hnear
              rw [hcarry]
              congr 1
              have hten : (10 : ℚ) ≠ 0 := by norm_num
              push_cast
              rw [zpow_add_one₀ hten, mul_comm _ (10 : ℚ), ← mul_assoc, ← pow_succ,
                Nat.sub_add_cancel hk]
          case isFalse hcarry =>
              cases h
              exact ⟨hnear, by omega, by omega⟩

/-- Digits are found once the magnitude itself has no more than `k`. -/
theorem digitsAt_isSome {q : ℚ} (hgrid : nearest q = q) {k n : ℕ}
    (h : q / 10 ^ (Int.log 10 q + 1 - k) = n) : (digitsAt q k).isSome := by
  have hlow : ((⌊q / 10 ^ (Int.log 10 q + 1 - k)⌋₊ : ℕ) : ℚ) * 10 ^ (Int.log 10 q + 1 - k) = q := by
    rw [h, Nat.floor_natCast, ← h]
    exact div_mul_cancel₀ q (ten_zpow_pos _).ne'
  unfold digitsAt
  dsimp only
  rw [hlow]
  split
  · rfl
  case isFalse hnot =>
      split
      · rfl
      case isFalse hhigh => exact absurd ⟨hgrid, .inl hhigh⟩ hnot

/-- Every point of the grid is a decimal fraction. -/
theorem exists_digits {q : ℚ} (hq : 0 < q) (hgrid : nearest q = q) :
    ∃ k, (digitsAt q (k + 1)).isSome := by
  obtain ⟨m, e, -, -, heq⟩ := nearest_grid hq.le
  rw [hgrid] at heq
  -- Enough digits to clear the denominator.
  obtain ⟨j, hj⟩ : ∃ j : ℕ, -e ≤ j ∧ -Int.log 10 q ≤ j :=
    ⟨(max (-e) (-Int.log 10 q)).toNat, by omega, by omega⟩
  obtain ⟨k, hk⟩ : ∃ k : ℕ, Int.log 10 q + 1 - ((k + 1 : ℕ) : ℤ) = -j :=
    ⟨(Int.log 10 q + j).toNat, by omega⟩
  obtain ⟨i, hi⟩ : ∃ i : ℕ, e + j = i := ⟨(e + j).toNat, by omega⟩
  refine ⟨k, digitsAt_isSome hgrid (n := m * 2 ^ i * 5 ^ j) ?_⟩
  have hsplit : (10 : ℚ) ^ j = 2 ^ j * 5 ^ j := by
    rw [← mul_pow]
    norm_num
  have hpow : (2 : ℚ) ^ e * 2 ^ j = 2 ^ i := by
    rw [← zpow_natCast, ← zpow_natCast, ← zpow_add₀ two_ne_zero, hi]
  rw [hk, zpow_neg, div_inv_eq_mul, zpow_natCast, hsplit]
  push_cast
  calc q * (2 ^ j * 5 ^ j) = m * (2 ^ e * 2 ^ j) * 5 ^ j := by
        rw [heq]
        ring
    _ = m * 2 ^ i * 5 ^ j := by rw [hpow]

/-- The digits of a positive magnitude and their exponent. -/
def shortest (x : Magnitude) (h : 0 < x.val) : ℕ × ℤ :=
  (digitsAt x (Nat.find (exists_digits h x.property.2.2) + 1)).get
    (Nat.find_spec (exists_digits h x.property.2.2))

theorem shortest_spec (x : Magnitude) (h : 0 < x.val) :
    nearest ((shortest x h).1 * 10 ^ (shortest x h).2) = x ∧ 0 < (shortest x h).1 := by
  have hget : digitsAt x (Nat.find (exists_digits h x.property.2.2) + 1) =
      some ((shortest x h).1, (shortest x h).2) := (Option.some_get _).symm
  obtain ⟨hnear, hlow, -⟩ := digitsAt_sound h (by omega) hget
  exact ⟨hnear, (Nat.pow_pos (by norm_num)).trans_le hlow⟩

/-- No decimal with fewer digits is found. -/
theorem shortest_minimal (x : Magnitude) (h : 0 < x.val) {k : ℕ} (hk : 1 ≤ k)
    (hlt : 10 ^ k ≤ (shortest x h).1) : digitsAt x k = none := by
  have hget : digitsAt x (Nat.find (exists_digits h x.property.2.2) + 1) =
      some ((shortest x h).1, (shortest x h).2) := (Option.some_get _).symm
  obtain ⟨-, -, hhigh⟩ := digitsAt_sound h (by omega) hget
  have hless : k < Nat.find (exists_digits h x.property.2.2) + 1 :=
    (Nat.pow_lt_pow_iff_right (by norm_num)).mp (hlt.trans_lt hhigh)
  have hmin := Nat.find_min (exists_digits h x.property.2.2) (m := k - 1) (by omega)
  rw [Nat.sub_add_cancel hk] at hmin
  exact Option.not_isSome_iff_eq_none.mp hmin

end Json
