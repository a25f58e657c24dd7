import IncidentRelay.Services.SloVerdict

/-!
# The intervals of a downtime

`_merge_intervals`, `_subtract_intervals` and `_intervals_seconds` as operations on sets of
instants. The first two are exact for all lists. The third counts whole seconds, and cuts each
interval of its list down to them.

 * `interval_algebra`: what the three compute.
 * `seconds_short_of_length`: two halves of a second add up to none.
-/

namespace IncidentRelay.Slo

open Intervals

/-! ## Seconds -/

/-- `(end - start).total_seconds()` is a double; it has the right integer part for more than a
hundred years. -/
theorem elapsedSeconds_eq {start stop : Instant} (h : stop - start < 2 ^ 52) :
    (elapsedSeconds start stop : ℤ) =
      max 0 (truncate (binary64 (((stop - start : ℤ) : ℚ) / (1000000 : ℕ)))) := by
  rcases le_total (stop - start) 0 with hneg | hpos
  · -- a negative number of seconds is rounded up, at most to zero
    have hquotient : ((stop - start : ℤ) : ℚ) / (1000000 : ℕ) ≤ 0 :=
      div_nonpos_of_nonpos_of_nonneg (by exact_mod_cast hneg) (by norm_num)
    rw [max_eq_left (truncate_nonpos (binary64_nonpos hquotient)), elapsedSeconds,
      Int.toNat_of_nonpos hneg]
    rfl
  · obtain ⟨m, hm⟩ := Int.eq_ofNat_of_zero_le hpos
    rw [hm] at h
    have hmax : m < 2 ^ 52 := by exact_mod_cast h
    have hvalue := floor_binary64_div hmax (n := 1000000) (by norm_num) (by norm_num)
    have hnonneg : (0 : ℚ) ≤ binary64 ((m : ℚ) / (1000000 : ℕ)) := binary64_nonneg (by positivity)
    rw [elapsedSeconds, hm, Int.toNat_natCast, Int.cast_natCast, truncate, if_pos hnonneg, hvalue,
      max_eq_right (Int.natCast_nonneg _)]

/-! ## The algebra -/

/-- The intervals are sorted, and no two of them have an instant in common. -/
structure Tidy (is : List (Instant × Instant)) : Prop where
  sorted : is.Pairwise byStart
  disjoint : is.Pairwise fun i j => ∀ t, Holds i t → ¬Holds j t

/-- The seconds of the intervals measure a set of instants of the window. -/
structure MeasuresWhole (is : List (Instant × Instant)) (since now : Instant) (p : Instant → Prop)
    [DecidablePred p] : Prop where
  /-- no instant is counted twice -/
  once : (is.map length).sum = measure since now p
  seconds : intervalsSeconds is = wholeUnits since now 1000000 p
  exact_iff : intervalsSeconds is * 1000000 = measure since now p ↔ ∀ i ∈ is, 1000000 ∣ length i
  within : intervalsSeconds is ≤ elapsedSeconds since now

variable {is : List (Instant × Instant)} {since now : Instant}

theorem tidy_merge (is : List (Instant × Instant)) : Tidy (merge is) :=
  ⟨sorted_merge is, (apart_merge is).disjoint⟩

theorem tidy_subtract (is exclusions : List (Instant × Instant)) : Tidy (subtract is exclusions) :=
  ⟨sorted_subtract is exclusions, (apart_subtract is exclusions).disjoint⟩

/-- Intervals of the window that lie apart are measured but for the fractions of their seconds. -/
theorem measuresWhole_of_apart {p : Instant → Prop} [DecidablePred p] (hapart : Intervals.Apart is)
    (hcovers : ∀ t, Covers is t ↔ p t) (hwithin : ∀ t, p t → since ≤ t ∧ t < now) :
    MeasuresWhole is since now p := by
  have hholds : ∀ i ∈ is, ∀ t, Holds i t → since ≤ t ∧ t < now :=
    fun i hi t ht => hwithin t ((hcovers t).mp ⟨i, hi, ht⟩)
  have hlengths : (is.map length).sum = measure since now p :=
    (sum_lengths hapart hholds).trans (measure_congr fun t _ _ => hcovers t)
  have hseconds : intervalsSeconds is = (is.map fun i => length i / 1000000).sum := rfl
  refine ⟨hlengths, ?_, ?_, ?_⟩
  · rw [hseconds, sum_wholeUnits 1000000 hapart hholds]
    exact wholeUnits_congr fun t _ _ => hcovers t
  · rw [hseconds, ← hlengths]
    exact sum_units_eq_iff is 1000000
  · refine (Nat.le_div_iff_mul_le (by norm_num)).mpr ((intervalsSeconds_le is).trans ?_)
    rw [hlengths]
    exact measure_le p

/-- **The merged intervals cover what they did and the others what is not excluded**, both sorted
and apart, and their seconds are the whole seconds of the runs of these instants. -/
theorem interval_algebra (is exclusions : List (Instant × Instant)) :
    (Tidy (merge is) ∧ ∀ t, Covers (merge is) t ↔ Covers is t) ∧
    (Tidy (subtract is exclusions) ∧
      ∀ t, Covers (subtract is exclusions) t ↔ Covers is t ∧ ¬Covers exclusions t) ∧
    ∀ since now, (∀ t, Covers is t → since ≤ t ∧ t < now) →
      MeasuresWhole (merge is) since now (Covers is) ∧
      MeasuresWhole (subtract is exclusions) since now
        fun t => Covers is t ∧ ¬Covers exclusions t := by
  refine ⟨⟨tidy_merge is, covers_merge is⟩,
    ⟨tidy_subtract is exclusions, covers_subtract is exclusions⟩, fun since now hwithin => ⟨?_, ?_⟩⟩
  · exact measuresWhole_of_apart (apart_merge is) (covers_merge is) hwithin
  · exact measuresWhole_of_apart (apart_subtract is exclusions) (covers_subtract is exclusions)
      fun t ht => hwithin t ht.1

/-- Two outages that overlap, and a maintenance in the middle of them. -/
theorem interval_algebra_outages :
    MeasuresWhole (subtract [((0 : Instant), (3000000 : Instant)), (1000000, 5000000)] [(2000000, 4000000)])
      0 5000000 fun t => Covers [((0 : Instant), (3000000 : Instant)), (1000000, 5000000)] t ∧
        ¬Covers [((2000000 : Instant), (4000000 : Instant))] t := by
  refine ((interval_algebra _ _).2.2 0 5000000 ?_).2
  rintro t ⟨i, hi, hstart, hstop⟩
  rcases List.mem_pair.mp hi with rfl | rfl
  · exact ⟨hstart, hstop.trans (by decide)⟩
  · exact ⟨le_trans (by decide) hstart, hstop⟩

/-- Half a second twice, apart from each other. -/
theorem seconds_short_of_length : ¬∀ (is exclusions : List (Instant × Instant)) (since now : Instant),
    (∀ t, Covers is t → since ≤ t ∧ t < now) →
      intervalsSeconds (subtract is exclusions) * 1000000 =
        measure since now fun t => Covers is t ∧ ¬Covers exclusions t := by
  intro hexact
  have hwithin : ∀ t, Covers [((0 : Instant), (500000 : Instant)), (1000000, 1500000)] t →
      (0 : Instant) ≤ t ∧ t < 1500000 := by
    rintro t ⟨i, hi, hstart, hstop⟩
    rcases List.mem_pair.mp hi with rfl | rfl
    · exact ⟨hstart, hstop.trans (by decide)⟩
    · exact ⟨le_trans (by decide) hstart, hstop⟩
  have hcount := hexact [(0, 500000), (1000000, 1500000)] [] 0 1500000 hwithin
  have hmeasures := measuresWhole_of_apart (apart_subtract [(0, 500000), (1000000, 1500000)] [])
    (covers_subtract _ _) fun t ht => hwithin t ht.1
  have hdivides := hmeasures.exact_iff.mp hcount (0, 500000) (by decide)
  exact absurd hdivides (by decide)

end IncidentRelay.Slo
