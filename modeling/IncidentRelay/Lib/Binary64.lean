import Mathlib.Algebra.Order.Round
import Mathlib.Data.Int.Log
import Mathlib.Data.Rat.Floor
import Mathlib.Tactic.Linarith
import Mathlib.Tactic.NormNum
import Mathlib.Tactic.Positivity

/-!
# Numbers of double precision

A result of an operation on numbers of double precision is the exact result, rounded to 53
binary digits, to the even one of two that are equally near. Numbers are rationals here; the
largest exponent is left out.

 * `abs_binary64_sub_le`: the rounding error.
 * `binary64_intCast`: integers below 2 ^ 53 are kept.
 * `floor_binary64_div`: the quotient of two integers has the right integer part.
-/

namespace IncidentRelay

/-- The nearest integer, and the even one of two. -/
def roundHalfEven (x : ℚ) : ℤ :=
  if x - ⌊x⌋ < 1 / 2 then ⌊x⌋
  else if 1 / 2 < x - ⌊x⌋ then ⌊x⌋ + 1
  else if Even ⌊x⌋ then ⌊x⌋ else ⌊x⌋ + 1

/-- The exponent of the last digit; below 2 ^ -1022 the digits get fewer. -/
def lastExponent (x : ℚ) : ℤ := max (Int.log 2 |x|) (-1022) - 52

def binary64 (x : ℚ) : ℚ := roundHalfEven (x / 2 ^ lastExponent x) * 2 ^ lastExponent x

/-- `int(x)`: towards zero. -/
def truncate (x : ℚ) : ℤ := if 0 ≤ x then ⌊x⌋ else ⌈x⌉

/-- Rounding moves a number by half a unit at most. -/
theorem abs_roundHalfEven_sub_le (x : ℚ) : |(roundHalfEven x : ℚ) - x| ≤ 1 / 2 := by
  have hfloor := Int.floor_le x
  have hlt := Int.lt_floor_add_one x
  unfold roundHalfEven
  rw [abs_le]
  split_ifs <;> push_cast <;> constructor <;> linarith

theorem roundHalfEven_intCast (n : ℤ) : roundHalfEven n = n := by
  rw [roundHalfEven, Int.floor_intCast, sub_self, if_pos (by norm_num)]

theorem roundHalfEven_le {x : ℚ} {n : ℤ} (h : x < n + 1 / 2) : roundHalfEven x ≤ n := by
  have herror := (abs_le.mp (abs_roundHalfEven_sub_le x)).2
  have hlt : (roundHalfEven x : ℚ) < n + 1 := by linarith
  exact Int.lt_add_one_iff.mp (by exact_mod_cast hlt)

theorem le_roundHalfEven {x : ℚ} {n : ℤ} (h : n - 1 / 2 < x) : n ≤ roundHalfEven x := by
  have herror := (abs_le.mp (abs_roundHalfEven_sub_le x)).1
  have hlt : (n : ℚ) < roundHalfEven x + 1 := by linarith
  exact Int.lt_add_one_iff.mp (by exact_mod_cast hlt)

/-- Rounding half to even knows no direction. -/
theorem roundHalfEven_neg (x : ℚ) : roundHalfEven (-x) = -roundHalfEven x := by
  rcases eq_or_ne (x : ℚ) ⌊x⌋ with hint | hfraction
  · rw [hint, ← Int.cast_neg, roundHalfEven_intCast, roundHalfEven_intCast]
  · have hlt : (⌊x⌋ : ℚ) < x := lt_of_le_of_ne (Int.floor_le x) hfraction.symm
    have hupper := Int.lt_floor_add_one x
    have hfloor : ⌊-x⌋ = -⌊x⌋ - 1 := by
      refine Int.floor_eq_iff.mpr ?_
      push_cast
      exact ⟨by linarith, by linarith⟩
    have hparity : Even (-⌊x⌋ - 1) ↔ ¬Even ⌊x⌋ := by
      rw [Int.even_sub_one, even_neg]
    unfold roundHalfEven
    rw [hfloor]
    push_cast
    -- the two fractions add up to one
    split_ifs <;> first | omega | linarith | tauto

/-- A double is off by half a unit in its last place at most. -/
theorem abs_binary64_sub_le_last (x : ℚ) : |binary64 x - x| ≤ 2 ^ lastExponent x / 2 := by
  have hpos : (0 : ℚ) < 2 ^ lastExponent x := zpow_pos (by norm_num) _
  have hx : x = x / 2 ^ lastExponent x * 2 ^ lastExponent x := (div_mul_cancel₀ _ hpos.ne').symm
  calc |binary64 x - x|
      = |(roundHalfEven (x / 2 ^ lastExponent x) - x / 2 ^ lastExponent x) * 2 ^ lastExponent x| := by
        rw [sub_mul, ← hx]
        rfl
    _ = |(roundHalfEven (x / 2 ^ lastExponent x) : ℚ) - x / 2 ^ lastExponent x| * 2 ^ lastExponent x := by
        rw [abs_mul, abs_of_pos hpos]
    _ ≤ 1 / 2 * 2 ^ lastExponent x :=
        mul_le_mul_of_nonneg_right (abs_roundHalfEven_sub_le _) hpos.le
    _ = 2 ^ lastExponent x / 2 := by ring

/-- **The rounding error**, relative to the number and to the smallest one. -/
theorem abs_binary64_sub_le {x : ℚ} (hx : 0 < x) :
    |binary64 x - x| ≤ x / 2 ^ 53 + (2 : ℚ) ^ (-1075 : ℤ) := by
  refine (abs_binary64_sub_le_last x).trans ?_
  have hlog : (2 : ℚ) ^ Int.log 2 |x| ≤ x := by
    rw [abs_of_pos hx]
    exact_mod_cast Int.zpow_log_le_self one_lt_two hx
  have hhalf : ∀ e : ℤ, (2 : ℚ) ^ (e - 52) / 2 = 2 ^ e / 2 ^ 53 := by
    intro e
    rw [zpow_sub₀ two_ne_zero, div_div]
    norm_num
  unfold lastExponent
  rw [hhalf]
  have hrest : (0 : ℚ) ≤ x / 2 ^ 53 := by positivity
  -- below the normal numbers, or by their exponent
  rcases le_total (Int.log 2 |x|) (-1022) with hsmall | hnormal
  · -- below the normal numbers the distance is fixed
    have heq : (2 : ℚ) ^ (-1022 : ℤ) / 2 ^ 53 = 2 ^ (-1075 : ℤ) := by
      rw [show (-1075 : ℤ) = -1022 - 53 by norm_num, zpow_sub₀ two_ne_zero]
      rfl
    rw [max_eq_right hsmall, heq]
    linarith
  · rw [max_eq_left hnormal]
    have hle : (2 : ℚ) ^ Int.log 2 |x| / 2 ^ 53 ≤ x / 2 ^ 53 :=
      div_le_div_of_nonneg_right hlog (by positivity)
    have htiny : (0 : ℚ) ≤ 2 ^ (-1075 : ℤ) := zpow_nonneg (by norm_num) _
    linarith

/-- Rounding keeps the sign. -/
theorem binary64_nonneg {x : ℚ} (hx : 0 ≤ x) : 0 ≤ binary64 x := by
  have hpos : (0 : ℚ) < 2 ^ lastExponent x := zpow_pos (by norm_num) _
  refine mul_nonneg ?_ hpos.le
  have hle : 0 ≤ roundHalfEven (x / 2 ^ lastExponent x) := by
    refine le_roundHalfEven ?_
    have hquotient := div_nonneg hx hpos.le
    norm_num
    linarith
  exact_mod_cast hle

/-- On both sides. -/
theorem binary64_nonpos {x : ℚ} (hx : x ≤ 0) : binary64 x ≤ 0 := by
  have hpos : (0 : ℚ) < 2 ^ lastExponent x := zpow_pos (by norm_num) _
  refine mul_nonpos_of_nonpos_of_nonneg ?_ hpos.le
  have hle : roundHalfEven (x / 2 ^ lastExponent x) ≤ 0 := by
    refine roundHalfEven_le ?_
    have hquotient := div_nonpos_of_nonpos_of_nonneg hx hpos.le
    norm_num
    linarith
  exact_mod_cast hle

theorem truncate_nonpos {x : ℚ} (hx : x ≤ 0) : truncate x ≤ 0 := by
  unfold truncate
  split_ifs with h
  · rw [le_antisymm hx h, Int.floor_zero]
  · exact Int.ceil_le.mpr (by exact_mod_cast hx)

/-- Rounding is symmetric. -/
theorem binary64_neg (x : ℚ) : binary64 (-x) = -binary64 x := by
  have hexponent : lastExponent (-x) = lastExponent x := by
    unfold lastExponent
    rw [abs_neg]
  unfold binary64
  rw [hexponent, neg_div, roundHalfEven_neg, Int.cast_neg, neg_mul]

theorem truncate_neg (x : ℚ) : truncate (-x) = -truncate x := by
  unfold truncate
  rcases lt_trichotomy x 0 with hneg | rfl | hpos
  · rw [if_pos (neg_nonneg.mpr hneg.le), if_neg (not_le_of_gt hneg), Int.floor_neg]
  · simp
  · rw [if_neg (not_le_of_gt (neg_neg_of_pos hpos)), if_pos hpos.le, Int.ceil_neg]

@[simp] theorem binary64_zero : binary64 0 = 0 := by
  unfold binary64
  rw [zero_div, show roundHalfEven 0 = 0 by exact_mod_cast roundHalfEven_intCast 0, Int.cast_zero,
    zero_mul]

/-- **Integers below 2 ^ 53 are kept.** -/
theorem binary64_intCast {n : ℤ} (hn : 0 < n) (h : n < 2 ^ 53) : binary64 n = n := by
  have hpos : (0 : ℚ) < n := by exact_mod_cast hn
  have hlog : Int.log 2 |(n : ℚ)| ≤ 52 := by
    rw [abs_of_pos hpos]
    refine Int.lt_add_one_iff.mp ((Int.lt_zpow_iff_log_lt one_lt_two hpos).mp ?_)
    exact_mod_cast h
  obtain ⟨k, hk⟩ : ∃ k : ℕ, lastExponent n = -(k : ℤ) := by
    refine ⟨(-lastExponent n).toNat, ?_⟩
    have hle : lastExponent n ≤ 0 := by
      unfold lastExponent
      omega
    omega
  have hint : (n : ℚ) / 2 ^ lastExponent n = ((n * 2 ^ k : ℤ) : ℚ) := by
    rw [hk, zpow_neg, zpow_natCast, div_inv_eq_mul]
    push_cast
    rfl
  unfold binary64
  rw [hint, roundHalfEven_intCast, ← hint, div_mul_cancel₀]
  exact (zpow_pos (by norm_num) _).ne'

/-- The rounding error of a quotient of small integers is smaller than its fractional parts. -/
theorem abs_binary64_div_lt {m n : ℕ} (hm : 0 < m) (hmax : m < 2 ^ 52) (hn : 0 < n)
    (hnmax : n < 2 ^ 52) : |binary64 ((m : ℚ) / n) - m / n| < 1 / n := by
  have hnpos : (0 : ℚ) < n := by exact_mod_cast hn
  have hq : (0 : ℚ) < m / n := div_pos (by exact_mod_cast hm) hnpos
  refine (abs_binary64_sub_le hq).trans_lt ?_
  -- both parts of the error are less than half of what separates two quotients
  have htiny : (2 : ℚ) ^ (-1075 : ℤ) ≤ 2 ^ (-54 : ℤ) := zpow_le_zpow_right₀ (by norm_num) (by norm_num)
  have hmq : (m : ℚ) < 2 ^ 52 := by exact_mod_cast hmax
  have hnq : (n : ℚ) < 2 ^ 52 := by exact_mod_cast hnmax
  have hfirst : (m : ℚ) / n / 2 ^ 53 < 1 / n * (1 / 2) := by
    rw [div_div, div_lt_iff₀ (by positivity)]
    refine hmq.trans_eq ?_
    field_simp
  have hsecond : (2 : ℚ) ^ (-54 : ℤ) < 1 / n * (1 / 2) := by
    rw [← mul_lt_mul_iff_of_pos_right hnpos]
    calc (2 : ℚ) ^ (-54 : ℤ) * n < 2 ^ (-54 : ℤ) * 2 ^ 52 :=
          mul_lt_mul_of_pos_left hnq (zpow_pos (by norm_num) _)
      _ = 1 / 4 := by norm_num
      _ < 1 / 2 := by norm_num
      _ = 1 / n * (1 / 2) * n := by field_simp
  calc (m : ℚ) / n / 2 ^ 53 + (2 : ℚ) ^ (-1075 : ℤ)
      < 1 / n * (1 / 2) + 1 / n * (1 / 2) := add_lt_add hfirst (htiny.trans_lt hsecond)
    _ = 1 / n := by ring

/-- **The quotient has the right integer part.** -/
theorem floor_binary64_div {m n : ℕ} (hmax : m < 2 ^ 52) (hn : 0 < n) (hnmax : n < 2 ^ 52) :
    ⌊binary64 ((m : ℚ) / n)⌋ = ((m / n : ℕ) : ℤ) := by
  have hnpos : (0 : ℚ) < n := by exact_mod_cast hn
  have hvalue : (m : ℚ) / n = (m / n : ℕ) + (m % n : ℕ) / n := by
    rw [add_div' _ _ _ hnpos.ne']
    refine congrArg (· / (n : ℚ)) ?_
    exact_mod_cast (Nat.div_add_mod' m n).symm
  rcases Nat.eq_zero_or_pos m with rfl | hm
  · simp
  rcases Nat.eq_zero_or_pos (m % n) with hzero | hrest
  · -- an integer is kept
    have hquotient : (m : ℚ) / n = ((m / n : ℕ) : ℤ) := by
      rw [hvalue, hzero, Nat.cast_zero, zero_div, add_zero, Int.cast_natCast]
    have hpos : (0 : ℤ) < (m / n : ℕ) := by
      exact_mod_cast Nat.div_pos (Nat.le_of_dvd hm (Nat.dvd_of_mod_eq_zero hzero)) hn
    have hlt : ((m / n : ℕ) : ℤ) < 2 ^ 53 := by
      have hle := Nat.div_le_self m n
      exact_mod_cast lt_of_le_of_lt hle (hmax.trans (by norm_num))
    rw [hquotient, binary64_intCast hpos hlt, Int.floor_intCast]
  · -- the fractional part is larger than the error, on both sides
    obtain ⟨hlower, hupper⟩ := abs_lt.mp (abs_binary64_div_lt hm hmax hn hnmax)
    have hone : (1 : ℚ) / n ≤ (m % n : ℕ) / n :=
      div_le_div_of_nonneg_right (by exact_mod_cast hrest) hnpos.le
    have hlast : ((m % n : ℕ) : ℚ) / n + 1 / n ≤ 1 := by
      rw [← add_div, div_le_one hnpos]
      exact_mod_cast Nat.mod_lt m hn
    rw [hvalue] at hlower hupper
    rw [Int.floor_eq_iff, Int.cast_natCast, hvalue]
    constructor <;> linarith

end IncidentRelay
