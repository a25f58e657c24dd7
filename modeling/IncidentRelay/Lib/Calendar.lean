import Mathlib.Algebra.Order.Ring.Int
import Mathlib.Data.Int.ConditionallyCompleteOrder
import Mathlib.Order.Monotone.Basic
import Mathlib.Order.SuccPred.Basic
import Mathlib.Tactic.Common

/-!
# The Gregorian calendar

Days are counted from 1970-01-01 and months from January of year 0, so that the
month before `m` is `m - 1`. `monthStart` is the first day of a month and
`monthOf` the month of a day; each is the inverse of the other in the sense of
`monthOf_spec` and `monthOf_eq`.
-/

namespace IncidentRelay.Calendar

/-- 0001-01-01 is this many days before the epoch. -/
def epochOffset : Int := 719162

def isLeap (year : Int) : Bool :=
  year % 4 = 0 ∧ (year % 100 ≠ 0 ∨ year % 400 = 0)

/-- Days from 0001-01-01 to the first of January. -/
def daysBeforeYear (year : Int) : Int :=
  (year - 1) * 365 + (year - 1) / 4 - (year - 1) / 100 + (year - 1) / 400

/-- Days from the first of January to the first of the month `k`, from zero on. -/
def daysBeforeMonth (leap : Bool) (k : Int) : Int :=
  let feb := if leap then 29 else 28
  if k ≤ 0 then 0
  else if k = 1 then 31
  else if k = 2 then 31 + feb
  else if k = 3 then 62 + feb
  else if k = 4 then 92 + feb
  else if k = 5 then 123 + feb
  else if k = 6 then 153 + feb
  else if k = 7 then 184 + feb
  else if k = 8 then 215 + feb
  else if k = 9 then 245 + feb
  else if k = 10 then 276 + feb
  else if k = 11 then 306 + feb
  else 337 + feb

/-- The first day of a month. -/
def monthStart (m : Int) : Int :=
  daysBeforeYear (m / 12) + daysBeforeMonth (isLeap (m / 12)) (m % 12) - epochOffset

/-- `calendar.monthrange(year, month)[1]`. -/
def daysInMonth (m : Int) : Int := monthStart (m + 1) - monthStart m

/-- The year of a day and the number of the day in it, through the cycles of 400,
100, 4 and 1 years. -/
def yearOf (d : Int) : Int × Int :=
  let n := d + epochOffset
  let n400 := n / 146097
  let r400 := n % 146097
  let n100 := min (r400 / 36524) 3
  let r100 := r400 - n100 * 36524
  let n4 := r100 / 1461
  let r4 := r100 % 1461
  let n1 := min (r4 / 365) 3
  (400 * n400 + 100 * n100 + 4 * n4 + n1 + 1, r4 - 365 * n1)

/-- The last month of the first `k + 1` that starts on or before a day of the
year. -/
def monthOfYearDay (leap : Bool) (n : Int) : Nat → Int
  | 0 => 0
  | k + 1 => if daysBeforeMonth leap (k + 1) ≤ n then k + 1 else monthOfYearDay leap n k

/-- The month of a day. -/
def monthOf (d : Int) : Int :=
  12 * (yearOf d).1 + monthOfYearDay (isLeap (yearOf d).1) (yearOf d).2 11

/-- `date.weekday()`: Monday is 0. -/
def weekday (d : Int) : Int := (d + 3) % 7

/-- A point lies between two consecutive values of a growing sequence only once. -/
theorem step_unique {f : Int → Int} (hf : StrictMono f) {x j k : Int} (hj : f j ≤ x)
    (hj' : x < f (j + 1)) (hk : f k ≤ x) (hk' : x < f (k + 1)) : j = k := by
  have h₁ : j < k + 1 := hf.lt_iff_lt.mp (by omega)
  have h₂ : k < j + 1 := hf.lt_iff_lt.mp (by omega)
  omega

/-! ## Years -/

theorem daysBeforeYear_succ (y : Int) :
    daysBeforeYear (y + 1) = daysBeforeYear y + if isLeap y then 366 else 365 := by
  simp only [daysBeforeYear, isLeap, decide_eq_true_eq]
  split <;> omega

section Cycles

variable {a b c e : Int}

/-- The first day of a year, by its place in the cycles. -/
theorem daysBeforeYear_cycles (hb : 0 ≤ b ∧ b ≤ 3) (hc : 0 ≤ c ∧ c ≤ 24) (he : 0 ≤ e ∧ e ≤ 3) :
    daysBeforeYear (400 * a + 100 * b + 4 * c + e + 1) =
      146097 * a + 36524 * b + 1461 * c + 365 * e := by
  have hyear : 400 * a + 100 * b + 4 * c + e + 1 - 1 = 400 * a + 100 * b + 4 * c + e := by omega
  have h4 : (400 * a + 100 * b + 4 * c + e) / 4 = 100 * a + 25 * b + c := by omega
  have h100 : (400 * a + 100 * b + 4 * c + e) / 100 = 4 * a + b := by omega
  have h400 : (400 * a + 100 * b + 4 * c + e) / 400 = a := by omega
  rw [daysBeforeYear, hyear, h4, h100, h400]
  omega

/-- The last year of a 4-year cycle is a leap year, but for the last one of a
century that is not the fourth. -/
theorem isLeap_cycles (hb : 0 ≤ b ∧ b ≤ 3) (hc : 0 ≤ c ∧ c ≤ 24) (he : 0 ≤ e ∧ e ≤ 3) :
    isLeap (400 * a + 100 * b + 4 * c + e + 1) = true ↔ e = 3 ∧ (c ≠ 24 ∨ b = 3) := by
  simp only [isLeap, decide_eq_true_eq]
  omega

end Cycles

/-- The year of a day starts on or before it, and the next one after it. -/
theorem yearOf_spec (d : Int) :
    daysBeforeYear (yearOf d).1 + (yearOf d).2 = d + epochOffset ∧ 0 ≤ (yearOf d).2 ∧
      (yearOf d).2 < if isLeap (yearOf d).1 then 366 else 365 := by
  obtain ⟨n, hn⟩ : ∃ n, n = d + epochOffset := ⟨_, rfl⟩
  obtain ⟨a, ha⟩ : ∃ a, a = n / 146097 := ⟨_, rfl⟩
  obtain ⟨b, hb⟩ : ∃ b, b = min (n % 146097 / 36524) 3 := ⟨_, rfl⟩
  obtain ⟨r, hr⟩ : ∃ r, r = n % 146097 - b * 36524 := ⟨_, rfl⟩
  obtain ⟨c, hc⟩ : ∃ c, c = r / 1461 := ⟨_, rfl⟩
  obtain ⟨e, he⟩ : ∃ e, e = min (r % 1461 / 365) 3 := ⟨_, rfl⟩
  have hyear : yearOf d = (400 * a + 100 * b + 4 * c + e + 1, r % 1461 - 365 * e) := by
    rw [he, hc, hr, hb, ha, hn]
    rfl
  have hb' : 0 ≤ b ∧ b ≤ 3 := by omega
  have hr' : 0 ≤ r ∧ r ≤ 36524 ∧ (b ≠ 3 → r < 36524) := by omega
  have hc' : 0 ≤ c ∧ c ≤ 24 := by omega
  have he' : 0 ≤ e ∧ e ≤ 3 := by omega
  rw [hyear]
  dsimp only
  rw [daysBeforeYear_cycles hb' hc' he', ← hn]
  refine ⟨by omega, by omega, ?_⟩
  -- only the last year of a cycle can have a day 365
  by_cases hleap : isLeap (400 * a + 100 * b + 4 * c + e + 1) = true
  · rw [if_pos hleap]
    omega
  · rw [if_neg hleap]
    rw [isLeap_cycles hb' hc' he'] at hleap
    omega

/-! ## Months -/

theorem daysBeforeMonth_twelve (leap : Bool) :
    daysBeforeMonth leap 12 = if leap then 366 else 365 := by
  cases leap <;> decide

/-- The next month within a year. -/
theorem monthStart_succ_of_lt {m : Int} (h : m % 12 < 11) :
    monthStart (m + 1) =
      daysBeforeYear (m / 12) + daysBeforeMonth (isLeap (m / 12)) (m % 12 + 1) - epochOffset := by
  have hyear : (m + 1) / 12 = m / 12 := by omega
  have hmonth : (m + 1) % 12 = m % 12 + 1 := by omega
  rw [monthStart, hyear, hmonth]

theorem monthStart_succ_of_eq {m : Int} (h : m % 12 = 11) :
    monthStart (m + 1) =
      daysBeforeYear (m / 12) + daysBeforeMonth (isLeap (m / 12)) (m % 12 + 1) - epochOffset := by
  have hyear : (m + 1) / 12 = m / 12 + 1 := by omega
  have hmonth : (m + 1) % 12 = 0 := by omega
  have htwelve := daysBeforeMonth_twelve (isLeap (m / 12))
  rw [monthStart, hyear, hmonth, daysBeforeYear_succ, h]
  -- the month after December is January of the next year
  show _ + daysBeforeMonth _ 0 - _ = _ + daysBeforeMonth _ 12 - _
  rw [htwelve]
  simp [daysBeforeMonth]

/-- The first day of the next month, within the year of this one. -/
theorem monthStart_succ (m : Int) :
    monthStart (m + 1) =
      daysBeforeYear (m / 12) + daysBeforeMonth (isLeap (m / 12)) (m % 12 + 1) - epochOffset := by
  rcases lt_or_eq_of_le (show m % 12 ≤ 11 by omega) with h | h
  · exact monthStart_succ_of_lt h
  · exact monthStart_succ_of_eq h

/-- Consecutive month starts within a year are 28 to 31 days apart. -/
theorem daysBeforeMonth_succ (leap : Bool) {k : Int} (h0 : 0 ≤ k) (h11 : k ≤ 11) :
    daysBeforeMonth leap k + 28 ≤ daysBeforeMonth leap (k + 1) := by
  obtain rfl | rfl | rfl | rfl | rfl | rfl | rfl | rfl | rfl | rfl | rfl | rfl :
      k = 0 ∨ k = 1 ∨ k = 2 ∨ k = 3 ∨ k = 4 ∨ k = 5 ∨ k = 6 ∨ k = 7 ∨ k = 8 ∨ k = 9 ∨ k = 10 ∨
        k = 11 := by omega
  all_goals cases leap <;> decide

/-- A month has 28 days at least. -/
theorem daysInMonth_ge (m : Int) : 28 ≤ daysInMonth m := by
  have h := daysBeforeMonth_succ (isLeap (m / 12)) (show 0 ≤ m % 12 by omega)
    (show m % 12 ≤ 11 by omega)
  rw [daysInMonth, monthStart_succ, monthStart]
  omega

theorem daysBeforeMonth_succ_le (leap : Bool) {k : Int} (h0 : 0 ≤ k) (h11 : k ≤ 11) :
    daysBeforeMonth leap (k + 1) ≤ daysBeforeMonth leap k + 31 := by
  obtain rfl | rfl | rfl | rfl | rfl | rfl | rfl | rfl | rfl | rfl | rfl | rfl :
      k = 0 ∨ k = 1 ∨ k = 2 ∨ k = 3 ∨ k = 4 ∨ k = 5 ∨ k = 6 ∨ k = 7 ∨ k = 8 ∨ k = 9 ∨ k = 10 ∨
        k = 11 := by omega
  all_goals cases leap <;> decide

/-- A month has 31 days at most. -/
theorem daysInMonth_le (m : Int) : daysInMonth m ≤ 31 := by
  have h := daysBeforeMonth_succ_le (isLeap (m / 12)) (show 0 ≤ m % 12 by omega)
    (show m % 12 ≤ 11 by omega)
  rw [daysInMonth, monthStart_succ, monthStart]
  omega

/-- The months are in order. -/
theorem monthStart_strictMono : StrictMono monthStart := by
  apply strictMono_int_of_lt_succ
  intro m
  have h := daysInMonth_ge m
  unfold daysInMonth at h
  omega

/-- The month of a day is the one that it falls into. By induction on the months that are tried.
-/
theorem monthOfYearDay_spec (leap : Bool) {n : Int} (h0 : 0 ≤ n) (k : Nat)
    (hn : n < daysBeforeMonth leap (k + 1)) :
    0 ≤ monthOfYearDay leap n k ∧ monthOfYearDay leap n k ≤ k ∧
      daysBeforeMonth leap (monthOfYearDay leap n k) ≤ n ∧
      n < daysBeforeMonth leap (monthOfYearDay leap n k + 1) := by
  induction k with
  | zero => exact ⟨le_rfl, le_rfl, by simpa [monthOfYearDay, daysBeforeMonth] using h0, hn⟩
  | succ k ih =>
    unfold monthOfYearDay
    by_cases hle : daysBeforeMonth leap (k + 1) ≤ n
    · rw [if_pos hle]
      exact ⟨by omega, by omega, hle, by simpa using hn⟩
    · rw [if_neg hle]
      obtain ⟨h₁, h₂, h₃, h₄⟩ := ih (not_le.mp hle)
      exact ⟨h₁, by omega, h₃, h₄⟩

/-- **The month of a day.** It starts on or before the day, the next one after. -/
theorem monthOf_spec (d : Int) : monthStart (monthOf d) ≤ d ∧ d < monthStart (monthOf d + 1) := by
  obtain ⟨hday, h0, hlt⟩ := yearOf_spec d
  rw [← daysBeforeMonth_twelve] at hlt
  obtain ⟨hk0, hk11, hle, hgt⟩ := monthOfYearDay_spec (isLeap (yearOf d).1) h0 11 hlt
  have hyear : monthOf d / 12 = (yearOf d).1 := by
    unfold monthOf
    omega
  have hmonth : monthOf d % 12 = monthOfYearDay (isLeap (yearOf d).1) (yearOf d).2 11 := by
    unfold monthOf
    omega
  rw [monthStart_succ, monthStart, hyear, hmonth]
  omega

/-- The day of a month determines the month. -/
theorem monthOf_eq {d m : Int} (hle : monthStart m ≤ d) (hlt : d < monthStart (m + 1)) :
    monthOf d = m := by
  obtain ⟨hle', hlt'⟩ := monthOf_spec d
  exact step_unique monthStart_strictMono hle' hlt' hle hlt

example : monthOf 0 = 12 * 1970 := by decide
example : monthStart (12 * 2024 + 2) - monthStart (12 * 2024 + 1) = 29 := by decide

end IncidentRelay.Calendar
