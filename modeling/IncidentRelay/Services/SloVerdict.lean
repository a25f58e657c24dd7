import IncidentRelay.Services.SloEvaluation

/-!
# The verdict and the error budget

The verdict compares the ratio of the good amount, rounded to a hundredth of a percent, with
the target; the budget is what the target allows to be bad. The two differ where the ratio is
rounded up to the target.

 * `target_le_ratio_iff`: when the rounded ratio meets the target.
 * `availability_agrees_iff`, `latency_agrees_iff`: the condition for one evaluation.
 * `verdict_agrees_iff`: the same for the objectives of both kinds.
-/

namespace IncidentRelay.Slo

open Maintenance

/-! ## The rounded ratio -/

section Ratio

/-- The two roundings of a ratio, and its error. -/
theorem abs_ratio_sub_lt {q : ℚ} (hq : 0 ≤ q) (hone : q ≤ 1) :
    |binary64 (binary64 q * 10000) - 10000 * q| < 1 / 2 ^ 38 := by
  rcases hq.eq_or_lt with rfl | hpos
  · simp
  have htiny : (2 : ℚ) ^ (-1075 : ℤ) ≤ 2 ^ (-53 : ℤ) := zpow_le_zpow_right₀ (by norm_num) (by norm_num)
  -- rounding errs by a small part, above the smallest numbers
  have herror : ∀ x : ℚ, 0 < x → |binary64 x - x| ≤ (x + 1) / 2 ^ 53 := by
    intro x hx
    refine (abs_binary64_sub_le hx).trans ?_
    calc x / 2 ^ 53 + (2 : ℚ) ^ (-1075 : ℤ) ≤ x / 2 ^ 53 + 2 ^ (-53 : ℤ) := add_le_add_right htiny _
      _ = (x + 1) / 2 ^ 53 := by
        rw [add_div]
        norm_num
  obtain ⟨hlower, hupper⟩ := abs_le.mp (herror q hpos)
  have hquotient : (q + 1) / 2 ^ 53 ≤ 2 / 2 ^ 53 := by
    refine div_le_div_of_nonneg_right ?_ (by positivity)
    linarith
  -- the quotient is rounded, and then its product
  rcases (binary64_nonneg hq).eq_or_lt with hzero | hr
  · -- the quotient is too small for a number
    rw [← hzero, zero_mul, binary64_zero, abs_lt]
    rw [← hzero] at hlower
    norm_num at hquotient hlower ⊢
    constructor <;> linarith
  · obtain ⟨hlower', hupper'⟩ := abs_le.mp (herror (binary64 q * 10000) (by linarith))
    rw [abs_lt]
    norm_num at *
    constructor <;> linarith

variable {good total target value : ℤ}

/-- A ratio is rounded from one that is near it. -/
theorem ratio_spec (hgood : 0 ≤ good) (hle : good ≤ total) (htotal : 0 < total)
    (h : ratioBasisPoints good total = some value) :
    ∃ y : ℚ, value = roundHalfEven y ∧ |y - 10000 * (good / total)| < 1 / 2 ^ 38 := by
  rw [ratioBasisPoints, if_neg htotal.ne'] at h
  have htotalQ : (0 : ℚ) < total := by exact_mod_cast htotal
  refine ⟨_, (Option.some.inj h).symm, abs_ratio_sub_lt ?_ ?_⟩
  · exact div_nonneg (by exact_mod_cast hgood) htotalQ.le
  · rw [div_le_one htotalQ]
    exact_mod_cast hle

/-- Well above the middle to the target, the ratio is rounded to it or higher. -/
theorem target_le_of_above (hgood : 0 ≤ good) (hle : good ≤ total) (htotal : 0 < total)
    (h : ratioBasisPoints good total = some value)
    (habove : total ≤ 2 ^ 37 * (20000 * good - (2 * target - 1) * total)) : target ≤ value := by
  obtain ⟨y, rfl, herror⟩ := ratio_spec hgood hle htotal h
  have htotalQ : (0 : ℚ) < total := by exact_mod_cast htotal
  have haboveQ : (total : ℚ) ≤ 2 ^ 37 * (20000 * good - (2 * target - 1) * total) := by
    exact_mod_cast habove
  have hratio : (target : ℚ) - 1 / 2 + 1 / 2 ^ 38 ≤ 10000 * (good / total) := by
    rw [← mul_div_assoc, le_div_iff₀ htotalQ]
    linarith
  refine le_roundHalfEven ?_
  have hlower := (abs_lt.mp herror).1
  linarith

/-- Well below the middle, it is rounded to less. -/
theorem lt_target_of_below (hgood : 0 ≤ good) (hle : good ≤ total) (htotal : 0 < total)
    (h : ratioBasisPoints good total = some value)
    (hbelow : total ≤ 2 ^ 37 * ((2 * target - 1) * total - 20000 * good)) : value < target := by
  obtain ⟨y, rfl, herror⟩ := ratio_spec hgood hle htotal h
  have htotalQ : (0 : ℚ) < total := by exact_mod_cast htotal
  have hbelowQ : (total : ℚ) ≤ 2 ^ 37 * ((2 * target - 1) * total - 20000 * good) := by
    exact_mod_cast hbelow
  have hratio : 10000 * (good / total) ≤ (target : ℚ) - 1 / 2 - 1 / 2 ^ 38 := by
    rw [← mul_div_assoc, div_le_iff₀ htotalQ]
    linarith
  refine Int.lt_of_le_sub_one (roundHalfEven_le ?_)
  have hupper := (abs_lt.mp herror).2
  push_cast
  linarith

/-- Below the target the ratio is at most rounded up to it. -/
theorem le_target_of_unmet (hgood : 0 ≤ good) (hle : good ≤ total) (htotal : 0 < total)
    (h : ratioBasisPoints good total = some value) (hunmet : 10000 * good < target * total) :
    value ≤ target := by
  have hbelow : total ≤ 2 ^ 37 * ((2 * (target + 1) - 1) * total - 20000 * good) := by
    linarith
  exact Int.lt_add_one_iff.mp (lt_target_of_below hgood hle htotal h hbelow)

/-- A target that is met is at most the rounded ratio. -/
theorem target_le_of_met (hgood : 0 ≤ good) (hle : good ≤ total) (htotal : 0 < total)
    (h : ratioBasisPoints good total = some value) (hmet : target * total ≤ 10000 * good) :
    target ≤ value := by
  have habove : total ≤ 2 ^ 37 * (20000 * good - (2 * target - 1) * total) := by linarith
  exact target_le_of_above hgood hle htotal h habove

/-- The ratio is rounded to the target from below, in exact numbers: it is above the middle to
the target, or in the middle, and the middle is rounded up. -/
def RoundedUp (total good target : ℤ) : Prop :=
  10000 * good < target * total ∧ ((2 * target - 1) * total < 20000 * good ∨
    ((2 * target - 1) * total = 20000 * good ∧ ratioBasisPoints (2 * target - 1) 20000 = some target))

/-- In the middle the ratio is that of the target. -/
theorem ratio_of_middle (htotal : 0 < total) (h : (2 * target - 1) * total = 20000 * good) :
    ratioBasisPoints good total = ratioBasisPoints (2 * target - 1) 20000 := by
  have htotalQ : (total : ℚ) ≠ 0 := by exact_mod_cast htotal.ne'
  have hquotient : (good : ℚ) / total = ((2 * target - 1 : ℤ) : ℚ) / (20000 : ℤ) := by
    rw [div_eq_div_iff htotalQ (by norm_num)]
    have hQ : ((2 * target - 1) * total : ℚ) = 20000 * good := by exact_mod_cast h
    push_cast
    linarith
  rw [ratioBasisPoints, ratioBasisPoints, if_neg htotal.ne', if_neg (by norm_num), hquotient]

/-- **The rounded ratio meets the target iff the exact one does, or is rounded up to it.** -/
theorem target_le_ratio_iff (hgood : 0 ≤ good) (hle : good ≤ total) (htotal : 0 < total)
    (hmax : total ≤ 2 ^ 37) (h : ratioBasisPoints good total = some value) :
    target ≤ value ↔ target * total ≤ 10000 * good ∨ RoundedUp total good target := by
  rcases le_or_gt (target * total) (10000 * good) with hmet | hunmet
  · exact iff_of_true (target_le_of_met hgood hle htotal h hmet) (.inl hmet)
  rw [or_iff_right (not_le_of_gt hunmet), RoundedUp, and_iff_right hunmet]
  rcases lt_trichotomy ((2 * target - 1) * total) (20000 * good) with habove | hmiddle | hbelow
  · -- integers that differ, differ by one at least
    refine iff_of_true (target_le_of_above hgood hle htotal h ?_) (.inl habove)
    linarith
  · have hvalue := le_target_of_unmet hgood hle htotal h hunmet
    rw [or_iff_right hmiddle.not_lt, and_iff_right hmiddle, ← ratio_of_middle htotal hmiddle, h,
      Option.some_inj]
    exact ⟨fun hle' => le_antisymm hvalue hle', fun heq => heq.ge⟩
  · refine iff_of_false (not_le_of_gt (lt_target_of_below hgood hle htotal h ?_)) ?_
    · linarith
    · rintro (habove | ⟨hmiddle, -⟩)
      · exact absurd habove (not_lt_of_ge hbelow.le)
      · exact hbelow.ne' hmiddle

end Ratio

/-! ## The downtime -/

section Downtime

variable {env : Environment} {s : Store} {groups : List AlertGroup} {slo : ServiceSlo}
  {since now : Instant}

/-- The interval of a group, by its ends. -/
theorem holds_groupInterval {g : AlertGroup} {i : Instant × Instant}
    (h : groupInterval since now g = some i) {t : Instant} :
    Intervals.Holds i t ↔ (since ≤ t ∧ t < now) ∧ g.firstSeenAt ≤ t ∧ ∀ stop ∈ g.resolvedAt, t < stop := by
  unfold groupInterval at h
  dsimp only at h
  split_ifs at h
  cases h
  unfold Intervals.Holds
  rw [max_le_iff, lt_min_iff]
  cases g.resolvedAt with
  | none =>
    simp only [Option.getD_none, Option.mem_def, reduceCtorEq, false_implies, implies_true, and_true]
    tauto
  | some stop =>
    simp only [Option.getD_some, Option.mem_def, Option.some.injEq, forall_eq']
    tauto

/-- The intervals of the downtime lie apart, inside the window. -/
theorem downtime_apart : Intervals.Apart (downtimeIntervals env s groups slo since now) ∧
    ∀ i ∈ downtimeIntervals env s groups slo since now, ∀ t, Intervals.Holds i t → since ≤ t ∧ t < now := by
  let merged := Intervals.merge ((alertQueryForSli groups slo.sli since).filterMap (groupInterval since now))
  have hwithin : ∀ t, Intervals.Covers merged t → since ≤ t ∧ t < now := by
    intro t ht
    obtain ⟨i, hi, hit⟩ := (Intervals.covers_merge _ t).mp ht
    obtain ⟨g, -, hg⟩ := List.mem_filterMap.mp hi
    exact ((holds_groupInterval hg).mp hit).1
  unfold downtimeIntervals
  dsimp only
  generalize (if slo.excludeMaintenance = true then _ else [] : List (Instant × Instant)) = maintenance
  split_ifs
  · exact ⟨Intervals.apart_merge _, fun i hi t hit => hwithin t ⟨i, hi, hit⟩⟩
  · exact ⟨Intervals.apart_subtract _ _, fun i hi t hit =>
      hwithin t ((Intervals.covers_subtract _ _ t).mp ⟨i, hi, hit⟩).1⟩

/-- Seconds are cut down. -/
theorem intervalsSeconds_le (is : List (Instant × Instant)) :
    intervalsSeconds is * 1000000 ≤ (is.map Intervals.length).sum := by
  induction is with
  | nil => exact le_rfl
  | cons i is ih =>
    have hlength := Nat.div_mul_le_self (Intervals.length i) 1000000
    unfold intervalsSeconds at ih ⊢
    rw [List.map_cons, List.sum_cons, List.map_cons, List.sum_cons, add_mul]
    exact Nat.add_le_add hlength ih

/-- **The downtime fits into the window.** -/
theorem downtime_le : intervalsSeconds (downtimeIntervals env s groups slo since now) ≤
    elapsedSeconds since now := by
  obtain ⟨hapart, hwithin⟩ := @downtime_apart env s groups slo since now
  refine (Nat.le_div_iff_mul_le (by norm_num)).mpr ?_
  refine (intervalsSeconds_le _).trans ?_
  rw [Intervals.sum_lengths hapart hwithin]
  exact Intervals.measure_le _

end Downtime

/-! ## The verdict -/

section Verdict

variable {good total target : ℤ}

/-- The status is breached when the value is below the target. -/
theorem breached_iff {value : ℤ} {pending : ℤ} :
    percentStatus (some value) (some target) pending = .breached ↔ ¬target ≤ value := by
  unfold percentStatus
  dsimp only
  split_ifs with hmet hpending
  · exact iff_of_false nofun (not_not_intro hmet)
  · exact iff_of_false nofun (not_not_intro hmet)
  · exact iff_of_true rfl hmet

/-- The verdict agrees with the exact ratio iff the ratio is not rounded up. -/
theorem breached_agrees_iff (hgood : 0 ≤ good) (hle : good ≤ total) (hmax : total ≤ 2 ^ 37)
    {pending : ℤ} (htotal : 0 < total) :
    (percentStatus (ratioBasisPoints good total) (some target) pending = .breached ↔
      10000 * good < target * total) ↔ ¬RoundedUp total good target := by
  obtain ⟨value, hvalue⟩ : ∃ value, ratioBasisPoints good total = some value :=
    ⟨_, if_neg htotal.ne'⟩
  rw [hvalue, breached_iff, target_le_ratio_iff hgood hle htotal hmax hvalue]
  constructor
  · rintro hagrees hup
    exact hagrees.mpr hup.1 (.inr hup)
  · intro hnot
    rw [or_iff_left hnot, not_le]

/-- In exact numbers: below the target, and above the middle to it, but for the error. -/
def NearlyUp (total good target : ℤ) : Prop :=
  10000 * good < target * total ∧ 2 ^ 37 * ((2 * target - 1) * total - 20000 * good) < total

/-- Unless the ratio is rounded up to the target, the status says what the ratio says. -/
theorem breached_of_not_nearlyUp (hgood : 0 ≤ good) (hle : good ≤ total) {pending : ℤ}
    (htotal : 0 < total) (hnot : ¬NearlyUp total good target) :
    percentStatus (ratioBasisPoints good total) (some target) pending = .breached ↔
      10000 * good < target * total := by
  obtain ⟨value, hvalue⟩ : ∃ value, ratioBasisPoints good total = some value :=
    ⟨_, if_neg htotal.ne'⟩
  rw [hvalue, breached_iff]
  rcases le_or_gt (target * total) (10000 * good) with hmet | hunmet
  · exact iff_of_false (not_not_intro (target_le_of_met hgood hle htotal hvalue hmet)) (not_lt_of_ge hmet)
  · have hbelow := le_of_not_gt fun h => hnot ⟨hunmet, h⟩
    exact iff_of_true (not_le_of_gt (lt_target_of_below hgood hle htotal hvalue hbelow)) hunmet

end Verdict

/-! ## Availability -/

section Availability

variable {window downtime target : ℤ}

/-- The budget is the whole seconds that the target allows. -/
theorem budget_eq (hwindow : 0 ≤ window) (hmax : window < 2 ^ 37) (hzero : 0 ≤ target)
    (htop : target ≤ 10000) :
    truncate (binary64 ((window * max 0 (10000 - target) : ℤ) / 10000)) =
      window * (10000 - target) / 10000 := by
  rw [max_eq_right (by omega)]
  obtain ⟨m, hm⟩ := Int.eq_ofNat_of_zero_le (mul_nonneg hwindow (sub_nonneg.mpr htop))
  have hsmall : m < 2 ^ 52 := by
    have hle : window * (10000 - target) ≤ window * 10000 :=
      mul_le_mul_of_nonneg_left (by omega) hwindow
    omega
  have hfloor := floor_binary64_div hsmall (n := 10000) (by norm_num) (by norm_num)
  rw [hm, truncate, if_pos]
  · rw [Int.cast_natCast]
    exact_mod_cast hfloor
  · refine binary64_nonneg (div_nonneg ?_ (by norm_num))
    exact_mod_cast Int.natCast_nonneg m

/-- The budget is exceeded iff the good time is below the target, in exact numbers. -/
theorem remaining_neg_iff :
    window * (10000 - target) / 10000 - downtime < 0 ↔ 10000 * (window - downtime) < target * window := by
  rw [sub_neg, Int.ediv_lt_iff_lt_mul (by norm_num)]
  constructor <;> intro h <;> nlinarith

/-- The clamped ratio meets a target as the ratio does. -/
theorem breached_clamped {value : ℤ} (hvalue : 0 ≤ value) (htop : target ≤ 10000) {pending : ℤ} :
    percentStatus (some (max 0 (min 10000 value))) (some target) pending = .breached ↔
      percentStatus (some value) (some target) pending = .breached := by
  rw [breached_iff, breached_iff]
  omega

variable (env : Environment) (s : Store) (groups : List AlertGroup) (slo : ServiceSlo)
  (since now : Instant)

/-- The verdict of an availability is the sign of what remains of its budget. -/
def BudgetAgrees (e : Evaluation) : Prop :=
  ∀ remaining ∈ e.budgetRemainingSeconds, (e.status = .breached ↔ remaining < 0)

/-- The seconds of the window, and those of the downtime in it. -/
def windowSeconds : ℤ := max 1 (elapsedSeconds since now)

def downtimeSeconds : ℤ := intervalsSeconds (downtimeIntervals env s groups slo since now)

/-- **The status and the budget agree** unless the uptime is rounded up to the target. -/
theorem availability_agrees_iff (hmax : windowSeconds since now < 2 ^ 37) :
    BudgetAgrees (evaluateAvailabilitySlo env s groups slo since now) ↔
      ∀ target ∈ slo.targetPercentBasisPoints, ¬RoundedUp (windowSeconds since now)
        (windowSeconds since now - downtimeSeconds env s groups slo since now) target := by
  have hpos : 0 < windowSeconds since now := lt_of_lt_of_le one_pos (le_max_left _ _)
  have hdowntime : downtimeSeconds env s groups slo since now ≤ windowSeconds since now :=
    (Int.ofNat_le.mpr downtime_le).trans (le_max_right _ _)
  have hnonneg : 0 ≤ downtimeSeconds env s groups slo since now := Int.natCast_nonneg _
  have hstatus : (evaluateAvailabilitySlo env s groups slo since now).status =
      percentStatus ((ratioBasisPoints (windowSeconds since now -
        downtimeSeconds env s groups slo since now) (windowSeconds since now)).map fun value =>
          max 0 (min 10000 value)) slo.targetPercentBasisPoints 0 := rfl
  have hremaining : (evaluateAvailabilitySlo env s groups slo since now).budgetRemainingSeconds =
      (slo.targetPercentBasisPoints.map fun target => truncate (binary64
        ((windowSeconds since now * max 0 (10000 - target) : ℤ) / 10000))).map fun budget =>
          budget - downtimeSeconds env s groups slo since now := rfl
  unfold BudgetAgrees
  rw [hstatus, hremaining]
  generalize windowSeconds since now = window at *
  generalize downtimeSeconds env s groups slo since now = downtime at *
  have hgood : 0 ≤ window - downtime := sub_nonneg.mpr hdowntime
  have hle : window - downtime ≤ window := by omega
  -- without a target nothing is asked for
  cases htarget : slo.targetPercentBasisPoints with
  | none => exact iff_of_true nofun nofun
  | some target =>
    -- the target is a share of the window
    obtain ⟨hzero, htop⟩ := slo.target_range target htarget
    obtain ⟨value, hvalue⟩ : ∃ value, ratioBasisPoints (window - downtime) window = some value :=
      ⟨_, if_neg hpos.ne'⟩
    have hvalueNonneg : 0 ≤ value := target_le_of_met hgood hle hpos hvalue (by omega)
    simp only [Option.map_some, Option.mem_some, forall_eq']
    rw [budget_eq hpos.le hmax hzero htop, remaining_neg_iff, hvalue, Option.map_some,
      breached_clamped hvalueNonneg htop, ← hvalue]
    exact breached_agrees_iff hgood hle hmax.le hpos

end Availability

/-! ## Latency -/

section Latency

variable (groups : List AlertGroup) (slo : ServiceSlo) (since now : Instant)
  (field : AlertGroup → Option Instant)

/-- The verdict of a latency says that more is bad than the target allows. -/
def AllowanceAgrees (slo : ServiceSlo) (e : Evaluation) : Prop :=
  ∀ target ∈ slo.targetPercentBasisPoints,
    (e.status = .breached ↔ e.totalCount * (10000 - target) < 10000 * e.badCount)

/-- The verdict of the evaluation of given counts. -/
theorem allowanceAgrees_iff (hthreshold : 0 < slo.thresholdSeconds.getD 0) {counts : LatencyCounts}
    (hcounts : latencyCounts groups slo since now field = counts) :
    AllowanceAgrees slo (evaluateLatencySlo groups slo since now field) ↔
      ∀ target ∈ slo.targetPercentBasisPoints,
        (percentStatus (ratioBasisPoints counts.good (counts.good + counts.bad)) (some target)
          counts.pending = .breached ↔ 10000 * (counts.good : ℤ) < target * (counts.good + counts.bad)) := by
  unfold AllowanceAgrees evaluateLatencySlo
  rw [if_neg (not_le_of_gt hthreshold), hcounts]
  refine forall₂_congr fun target htarget => ?_
  rw [Option.mem_def.mp htarget]
  dsimp only
  refine iff_congr Iff.rfl ?_
  constructor <;> intro h <;> nlinarith

/-- The events that a latency evaluation counts. -/
def LatencyCounts.total (counts : LatencyCounts) : ℤ := counts.good + counts.bad

/-- **The status and the allowance agree** unless the share is. -/
theorem latency_agrees_iff (counts : LatencyCounts)
    (hcounts : latencyCounts groups slo since now field = counts) (hmax : counts.total ≤ 2 ^ 37) :
    AllowanceAgrees slo (evaluateLatencySlo groups slo since now field) ↔
      (0 < slo.thresholdSeconds.getD 0 → ∀ target ∈ slo.targetPercentBasisPoints,
        ¬RoundedUp counts.total counts.good target) := by
  -- without a threshold the objective is not evaluated
  by_cases hthreshold : 0 < slo.thresholdSeconds.getD 0
  · rw [allowanceAgrees_iff groups slo since now field hthreshold hcounts]
    refine Iff.trans ?_ (forall_prop_of_true hthreshold).symm
    refine forall₂_congr fun target _ => ?_
    rcases (Int.natCast_nonneg (counts.good + counts.bad)).eq_or_lt with hzero | hpos
    · -- without an event there is no verdict, and nothing is bad
      have hgood : (counts.good : ℤ) = 0 := by omega
      have hbad : (counts.bad : ℤ) = 0 := by omega
      rw [LatencyCounts.total, hgood, hbad]
      refine iff_of_true (iff_of_false nofun (by omega)) ?_
      rintro ⟨hlt, -⟩
      omega
    · unfold LatencyCounts.total at hmax ⊢
      exact breached_agrees_iff (Int.natCast_nonneg _) (by omega) hmax (by exact_mod_cast hpos)
  · refine iff_of_true ?_ fun h => absurd h hthreshold
    unfold evaluateLatencySlo AllowanceAgrees
    rw [if_pos (le_of_not_gt hthreshold)]
    intro target _
    refine iff_of_false nofun ?_
    dsimp only
    omega

theorem latency_agrees (counts : LatencyCounts)
    (hcounts : latencyCounts groups slo since now field = counts)
    (hnot : ∀ target ∈ slo.targetPercentBasisPoints, ¬NearlyUp counts.total counts.good target) :
    AllowanceAgrees slo (evaluateLatencySlo groups slo since now field) := by
  by_cases hthreshold : 0 < slo.thresholdSeconds.getD 0
  · rw [allowanceAgrees_iff groups slo since now field hthreshold hcounts]
    intro target htarget
    -- without an event there is no verdict
    rcases (Int.natCast_nonneg (counts.good + counts.bad)).eq_or_lt with hzero | hpos
    · have hgood : (counts.good : ℤ) = 0 := by omega
      have hbad : (counts.bad : ℤ) = 0 := by omega
      rw [hgood, hbad]
      exact iff_of_false nofun (by omega)
    · exact breached_of_not_nearlyUp (Int.natCast_nonneg _) (by omega) (by exact_mod_cast hpos)
        (hnot target htarget)
  · unfold evaluateLatencySlo AllowanceAgrees
    rw [if_pos (le_of_not_gt hthreshold)]
    intro target _
    refine iff_of_false nofun ?_
    dsimp only
    omega

end Latency

/-! ## Main results -/

/-- A window is far shorter than what is exact. -/
theorem windowSeconds_lt (slo : ServiceSlo) (now : Instant) :
    windowSeconds (windowStart slo now) now < 2 ^ 37 := by
  have hdays : normalizeSloWindowDays slo.windowDays ≤ 365 := by
    unfold normalizeSloWindowDays
    omega
  unfold windowSeconds windowStart elapsedSeconds seconds
  omega

/-- **The verdict agrees with the error budget iff the ratio of the good amount is not rounded up
to the target.** Among more than 2 ^ 37 events a margin of the error of the division is left. -/
theorem verdict_agrees_iff (env : Environment) (s : Store) (groups : List AlertGroup)
    (slo : ServiceSlo) (now : Instant) :
    (BudgetAgrees (evaluateAvailabilitySlo env s groups slo (windowStart slo now) now) ↔
      ∀ target ∈ slo.targetPercentBasisPoints, ¬RoundedUp (windowSeconds (windowStart slo now) now)
        (windowSeconds (windowStart slo now) now -
          downtimeSeconds env s groups slo (windowStart slo now) now) target) ∧
    ∀ (field : AlertGroup → Option Instant) (counts : LatencyCounts),
      latencyCounts groups slo (windowStart slo now) now field = counts →
      (counts.total ≤ 2 ^ 37 →
        (AllowanceAgrees slo (evaluateLatencySlo groups slo (windowStart slo now) now field) ↔
          (0 < slo.thresholdSeconds.getD 0 → ∀ target ∈ slo.targetPercentBasisPoints,
            ¬RoundedUp counts.total counts.good target))) ∧
      ((∀ target ∈ slo.targetPercentBasisPoints, ¬NearlyUp counts.total counts.good target) →
        AllowanceAgrees slo (evaluateLatencySlo groups slo (windowStart slo now) now field)) :=
  ⟨availability_agrees_iff env s groups slo _ now (windowSeconds_lt slo now),
    fun field counts hcounts => ⟨latency_agrees_iff groups slo _ now field counts hcounts,
      latency_agrees groups slo _ now field counts hcounts⟩⟩

/-- An availability of 99.99 percent in 30 days. -/
def fourNines : ServiceSlo where
  sli := { sliType := .incidentAvailability, service := 1, priorityScope := .null, priority := none,
           severity := none }
  service := { id := 1, group := some 1, team := some 1 }
  targetPercentBasisPoints := some 9999
  thresholdSeconds := none
  thresholdCount := none
  windowDays := 30
  excludeMaintenance := false
  includeOpenAlerts := true
  target_range := by simp

/-- An incident of five minutes. -/
def fiveMinutes : AlertGroup where
  id := 1
  service := some 1
  prioritySlug := some "p1"
  severity := none
  firstSeenAt := 0
  acknowledgedAt := none
  resolvedAt := some (seconds 300)

/-- Nothing is stored but the incident. -/
def quiet : Environment × Store where
  fst :=
    { localNow := fun _ => seconds 86400, rrulestr := fun _ _ => true,
      effectiveStatus := fun w => w.status }
  snd :=
    { tenancy :=
        { db :=
            { users := [], groups := [], userGroups := [], teams := [], teamUsers := [],
              memberships_nodup := List.nodup_nil },
          services := [], routes := [] },
      windows := .empty, scopes := .empty }

/-- **The budget of 259 seconds is exceeded and the objective is met.** -/
theorem exhausted_budget_met : ¬∀ (env : Environment) (s : Store) (groups : List AlertGroup)
    (slo : ServiceSlo) (now : Instant),
    BudgetAgrees (evaluateAvailabilitySlo env s groups slo (windowStart slo now) now) := by
  intro h
  have hagrees := (availability_agrees_iff quiet.1 quiet.2 [fiveMinutes] fourNines _ (seconds 86400)
    (windowSeconds_lt _ _)).mp (h _ _ _ _ _) 9999 rfl
  refine hagrees ⟨?_, .inl ?_⟩
  · decide +kernel
  · decide +kernel

end IncidentRelay.Slo
