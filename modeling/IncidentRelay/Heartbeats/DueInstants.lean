import IncidentRelay.Heartbeats.Schedule
import Mathlib.Logic.Function.Iterate

/-!
# Every due instant

The instants of a schedule are those whose time and whose weekday or day of the month are the
scheduled ones. The two functions of the source return neighbours among them, and the next
due instant of each one in turn leads through all of them.

 * `isDue_iff`: the instants of a schedule are the values of `dueSeq`.
 * `due_instants_adjacent`: the last and the next due instant, and each one reached once.
-/

namespace IncidentRelay.Heartbeats

open Calendar

/-- The day of the month, from 1. -/
def monthday (day : Int) : Int := day - monthStart (monthOf day) + 1

/-- **An instant of the schedule**, on the wall clock. A day that the month does not have is
its last one. -/
def IsDue (s : Schedule) (localDt : Int) : Prop :=
  localDt % 86400 = s.time ∧
    match s.kind with
    | .daily => True
    | .weekly => weekday (date localDt) = s.weekday
    | .monthly => monthday (date localDt) =
        min (max 1 (s.scheduleMonthday.getD 1)) (daysInMonth (monthOf (date localDt)))

/-- The next due instant at an instant, on the wall clock. -/
def nextDueLocal (s : Schedule) (nowLocal : Int) : Int :=
  scheduledNextDueLocal s (scheduledDueLocal s nowLocal) nowLocal

section

variable {s : Schedule}

theorem date_combine {day : Int} : date (combine day s.time) = day := by
  obtain ⟨ht0, ht⟩ := time_bounds s
  unfold date combine
  omega

theorem combine_mod {day : Int} : combine day s.time % 86400 = s.time := by
  obtain ⟨ht0, ht⟩ := time_bounds s
  unfold combine
  omega

/-- An instant is put together from its date and its time. -/
theorem combine_date {t : Int} (h : t % 86400 = s.time) : combine (date t) s.time = t := by
  unfold combine date
  omega

theorem monthOf_dayOfMonth (k : Int) (day : Option Int) :
    monthOf (dayOfMonth k (monthlyDate k day)) = k :=
  monthOf_eq (dayOfMonth_bounds k day).1 (dayOfMonth_bounds k day).2

/-- **The instants of a schedule are the values of the sequence.** -/
theorem isDue_iff {t : Int} : IsDue s t ↔ ∃ k, dueSeq s k = t := by
  unfold IsDue dueSeq
  cases s.kind with
  | daily =>
    constructor
    · rintro ⟨htime, -⟩
      exact ⟨date t, combine_date htime⟩
    · rintro ⟨k, rfl⟩
      exact ⟨combine_mod, trivial⟩
  | weekly =>
    obtain ⟨hw0, hw⟩ := weekday_bounds s
    constructor
    · rintro ⟨htime, hday⟩
      -- the week of the date, counted from the scheduled weekday
      have hweek : 7 * ((date t + 3 - s.weekday) / 7) + s.weekday - 3 = date t := by
        simp only [weekday] at hday
        omega
      exact ⟨(date t + 3 - s.weekday) / 7, by rw [hweek, combine_date htime]⟩
    · rintro ⟨k, rfl⟩
      refine ⟨combine_mod, ?_⟩
      simp only [date_combine, weekday]
      omega
  | monthly =>
    constructor
    · rintro ⟨htime, hday⟩
      have hdate : dayOfMonth (monthOf (date t)) (monthlyDate (monthOf (date t)) s.scheduleMonthday) =
          date t := by
        simp only [monthday] at hday
        unfold dayOfMonth monthlyDate
        rw [← hday]
        omega
      exact ⟨monthOf (date t), by rw [hdate, combine_date htime]⟩
    · rintro ⟨k, rfl⟩
      refine ⟨combine_mod, ?_⟩
      simp only [date_combine, monthday, monthOf_dayOfMonth]
      unfold dayOfMonth monthlyDate
      omega

/-- At a due instant the next one is the next value. -/
theorem nextDueLocal_dueSeq (k : Int) : nextDueLocal s (dueSeq s k) = dueSeq s (k + 1) := by
  have hlt : dueSeq s k < dueSeq s (k + 1) := dueSeq_strictMono s (lt_add_one k)
  rw [nextDueLocal, scheduledDueLocal_eq le_rfl hlt, scheduledNextDueLocal_eq le_rfl hlt]

/-- Counting on from an instant of the schedule. -/
theorem iterate_nextDueLocal (k : Int) (n : ℕ) :
    (nextDueLocal s)^[n] (dueSeq s k) = dueSeq s (k + n) := by
  induction n with
  | zero => simp
  | succ n ih =>
    rw [Function.iterate_succ_apply', ih, nextDueLocal_dueSeq, add_assoc]
    rfl

/-- No instant of the schedule lies between two neighbours. -/
theorem not_isDue_between {k t : Int} (h : dueSeq s k < t) (h' : t < dueSeq s (k + 1)) : ¬IsDue s t := by
  rintro hdue
  obtain ⟨j, rfl⟩ := isDue_iff.mp hdue
  have hk := (dueSeq_strictMono s).lt_iff_lt.mp h
  have hk' := (dueSeq_strictMono s).lt_iff_lt.mp h'
  omega

/-- From one instant of the schedule, each later one is reached after one number of steps. -/
theorem existsUnique_iterate {start t : Int} (hstart : IsDue s start) (hdue : IsDue s t)
    (hle : start ≤ t) : ∃! n : ℕ, (nextDueLocal s)^[n] start = t := by
  obtain ⟨k, rfl⟩ := isDue_iff.mp hstart
  obtain ⟨j, rfl⟩ := isDue_iff.mp hdue
  have hkj : k ≤ j := (dueSeq_strictMono s).le_iff_le.mp hle
  refine ⟨(j - k).toNat, ?_, fun n hn => ?_⟩
  · show (nextDueLocal s)^[(j - k).toNat] (dueSeq s k) = dueSeq s j
    rw [iterate_nextDueLocal, show k + ((j - k).toNat : Int) = j by omega]
  · dsimp only at hn
    rw [iterate_nextDueLocal] at hn
    have hstep := (dueSeq_strictMono s).injective hn
    omega

end

/-- **The last and the next due instant are the neighbours of now among the instants of the
schedule, and the next due instant leads through all later ones, once each.** -/
theorem due_instants_adjacent (s : Schedule) (now : Int) :
    let nowLocal := now + s.utcOffset
    let latest := scheduledDueLocal s nowLocal
    let next := scheduledNextDueLocal s latest nowLocal
    (IsDue s latest ∧ IsDue s next ∧ latest ≤ nowLocal ∧ nowLocal < next ∧
      ∀ t, latest < t → t < next → ¬IsDue s t) ∧
    ∀ start, IsDue s start →
      (∀ n : ℕ, IsDue s ((nextDueLocal s)^[n] start)) ∧
      ∀ t, IsDue s t → start ≤ t → ∃! n : ℕ, (nextDueLocal s)^[n] start = t := by
  obtain ⟨k, hk, hle, hlt⟩ := scheduledDueLocal_spec s (now + s.utcOffset)
  dsimp only
  rw [hk, scheduledNextDueLocal_eq hle hlt]
  refine ⟨⟨isDue_iff.mpr ⟨k, rfl⟩, isDue_iff.mpr ⟨k + 1, rfl⟩, hle, hlt, fun t => not_isDue_between⟩, ?_⟩
  intro start hstart
  refine ⟨fun n => ?_, fun t => existsUnique_iterate hstart⟩
  obtain ⟨j, rfl⟩ := isDue_iff.mp hstart
  exact isDue_iff.mpr ⟨j + n, (iterate_nextDueLocal j n).symm⟩

/-- The 31st is the last day of February in a year that is not a leap year. -/
example : scheduledDueLocal ⟨some .monthly, none, none, some 31, 0⟩ (combine 59 0) = combine 58 0 := by
  decide +kernel

end IncidentRelay.Heartbeats
