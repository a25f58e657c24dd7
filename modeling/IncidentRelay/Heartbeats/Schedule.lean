import IncidentRelay.Lib.Calendar

/-!
# Heartbeat schedules

The due instants of a scheduled heartbeat. Instants are whole seconds; a local
datetime is the number of seconds on the wall clock since 1970-01-01, so a zone
with a fixed offset adds the offset. The stored time of day has passed the
pattern of the request schema.

The source computes the last due instant and the next one from the wall clock.
Both come from one growing sequence `dueSeq`: between two of its values the last
due instant is the lower and the next one the upper (`scheduledDueLocal_eq`,
`scheduledNextDueLocal_eq`).
-/

namespace IncidentRelay.Heartbeats

open Calendar

inductive ScheduleKind where
  | daily
  | weekly
  | monthly
  deriving DecidableEq, Repr

/-- `HH:MM`. -/
structure TimeOfDay where
  hour : Nat
  minute : Nat
  hour_lt : hour < 24
  minute_lt : minute < 60
  deriving DecidableEq

structure Schedule where
  scheduleKind : Option ScheduleKind
  scheduleTime : Option TimeOfDay
  scheduleWeekday : Option Int
  scheduleMonthday : Option Int
  /-- Seconds east of UTC. -/
  utcOffset : Int
  deriving DecidableEq

/-- `_parse_schedule_time(schedule_time or "00:00")`, in seconds. -/
def Schedule.time (s : Schedule) : Int :=
  match s.scheduleTime with
  | none => 0
  | some t => 3600 * t.hour + 60 * t.minute

/-- `schedule_kind or "daily"`. -/
def Schedule.kind (s : Schedule) : ScheduleKind := s.scheduleKind.getD .daily

/-- The clamped weekday. -/
def Schedule.weekday (s : Schedule) : Int := max 0 (min 6 (s.scheduleWeekday.getD 0))

/-- `datetime.combine(date, time)`. -/
def combine (day time : Int) : Int := day * 86400 + time

/-- `datetime.date()`. -/
def date (localDt : Int) : Int := localDt / 86400

/-- `timedelta(days=n)`. -/
def days (n : Int) : Int := n * 86400

/-- `_monthly_date`. -/
def monthlyDate (month : Int) (day : Option Int) : Int :=
  min (max 1 (day.getD 1)) (daysInMonth month)

/-- `date.replace(day=day)` within a month. -/
def dayOfMonth (month day : Int) : Int := monthStart month + day - 1

/-- `_scheduled_due_local`. -/
def scheduledDueLocal (s : Schedule) (nowLocal : Int) : Int :=
  match s.kind with
  | .weekly =>
    let daysSince := (weekday (date nowLocal) - s.weekday) % 7
    let due := combine (date nowLocal - daysSince) s.time
    if due > nowLocal then due - days 7 else due
  | .monthly =>
    let month := monthOf (date nowLocal)
    let due := combine (dayOfMonth month (monthlyDate month s.scheduleMonthday)) s.time
    if due > nowLocal then
      combine (dayOfMonth (month - 1) (monthlyDate (month - 1) s.scheduleMonthday)) s.time
    else due
  | .daily =>
    let due := combine (date nowLocal) s.time
    if due > nowLocal then due - days 1 else due

/-- `while candidate <= now: candidate = step(candidate)`, for `fuel` rounds. -/
def stepPast (step : Int → Int) (now : Int) : Nat → Int → Int
  | 0, candidate => candidate
  | fuel + 1, candidate =>
    if candidate ≤ now then stepPast step now fuel (step candidate) else candidate

/-- The loop, with a round for each second it has to cover. -/
def whileNotAfter (step : Int → Int) (now candidate : Int) : Int :=
  stepPast step now (now - candidate + 1).toNat candidate

/-- The body of the monthly loop: the same time in the next month. -/
def nextMonthly (s : Schedule) (candidate : Int) : Int :=
  let month := monthOf (date candidate) + 1
  combine (dayOfMonth month (monthlyDate month s.scheduleMonthday)) (candidate % 86400)

/-- `_scheduled_next_due_local`. -/
def scheduledNextDueLocal (s : Schedule) (latestDueLocal nowLocal : Int) : Int :=
  match s.kind with
  | .weekly => whileNotAfter (· + days 7) nowLocal (latestDueLocal + days 7)
  | .monthly => whileNotAfter (nextMonthly s) nowLocal latestDueLocal
  | .daily => whileNotAfter (· + days 1) nowLocal (latestDueLocal + days 1)

/-- The last due instant, in UTC. -/
def scheduledDue (s : Schedule) (now : Int) : Int :=
  scheduledDueLocal s (now + s.utcOffset) - s.utcOffset

/-- The next due instant, in UTC. -/
def scheduledNextDue (s : Schedule) (now : Int) : Int :=
  scheduledNextDueLocal s (scheduledDueLocal s (now + s.utcOffset)) (now + s.utcOffset) -
    s.utcOffset

/-! ## The loop -/

theorem whileNotAfter_of_gt {step : Int → Int} {now c : Int} (h : now < c) :
    whileNotAfter step now c = c := by
  have hfuel : (now - c + 1).toNat = 0 := by omega
  rw [whileNotAfter, hfuel, stepPast]

theorem whileNotAfter_of_le {step : Int → Int} {now c : Int} (h : c ≤ now) (h' : now < step c) :
    whileNotAfter step now c = step c := by
  obtain ⟨n, hn⟩ : ∃ n, (now - c + 1).toNat = n + 1 := ⟨(now - c).toNat, by omega⟩
  rw [whileNotAfter, hn, stepPast, if_pos h]
  cases n with
  | zero => rfl
  | succ n => rw [stepPast, if_neg (by omega)]

/-! ## The sequence of due instants -/

/-- The due instants on the wall clock, by day, week or month. -/
def dueSeq (s : Schedule) (k : Int) : Int :=
  match s.kind with
  | .daily => combine k s.time
  | .weekly => combine (7 * k + s.weekday - 3) s.time
  | .monthly => combine (dayOfMonth k (monthlyDate k s.scheduleMonthday)) s.time

/-- The time of day is one. -/
theorem time_bounds (s : Schedule) : 0 ≤ s.time ∧ s.time < 86400 := by
  unfold Schedule.time
  cases s.scheduleTime with
  | none => exact ⟨le_rfl, by decide⟩
  | some t =>
    have hh := t.hour_lt
    have hm := t.minute_lt
    dsimp only
    omega

theorem weekday_bounds (s : Schedule) : 0 ≤ s.weekday ∧ s.weekday ≤ 6 := by
  unfold Schedule.weekday
  omega

/-- The monthly day is a day of its month. -/
theorem dayOfMonth_bounds (m : Int) (day : Option Int) :
    monthStart m ≤ dayOfMonth m (monthlyDate m day) ∧
      dayOfMonth m (monthlyDate m day) < monthStart (m + 1) := by
  have hdim := daysInMonth_ge m
  have hstart : monthStart (m + 1) = monthStart m + daysInMonth m := by
    unfold daysInMonth
    omega
  unfold dayOfMonth monthlyDate
  omega

/-- The instants of a schedule are in order. -/
theorem dueSeq_strictMono (s : Schedule) : StrictMono (dueSeq s) := by
  apply strictMono_int_of_lt_succ
  intro k
  unfold dueSeq
  cases s.kind with
  | daily =>
    simp only [combine]
    omega
  | weekly =>
    simp only [combine]
    omega
  | monthly =>
    have hk := (dayOfMonth_bounds k s.scheduleMonthday).2
    have hk' := (dayOfMonth_bounds (k + 1) s.scheduleMonthday).1
    simp only [combine]
    omega

/-- The last due instant is a value of the sequence, and the next value is in the
future. -/
theorem scheduledDueLocal_spec (s : Schedule) (now : Int) :
    ∃ k, scheduledDueLocal s now = dueSeq s k ∧ dueSeq s k ≤ now ∧ now < dueSeq s (k + 1) := by
  obtain ⟨ht0, ht⟩ := time_bounds s
  have hday : date now * 86400 ≤ now ∧ now < date now * 86400 + 86400 := by
    unfold date
    omega
  unfold scheduledDueLocal dueSeq
  cases s.kind with
  | daily =>
    dsimp only
    by_cases hlate : combine (date now) s.time > now
    · rw [if_pos hlate]
      simp only [combine, days] at hlate ⊢
      exact ⟨date now - 1, by omega, by omega, by omega⟩
    · rw [if_neg hlate]
      simp only [combine] at hlate ⊢
      exact ⟨date now, rfl, by omega, by omega⟩
  | weekly =>
    obtain ⟨hw0, hw⟩ := weekday_bounds s
    dsimp only
    -- the last such weekday, today included
    obtain ⟨since, hsince⟩ : ∃ n, n = (weekday (date now) - s.weekday) % 7 := ⟨_, rfl⟩
    have hweek := hsince
    unfold weekday at hweek
    obtain ⟨k, hk⟩ : ∃ k, 7 * k + s.weekday - 3 = date now - since :=
      ⟨(date now - since + 3 - s.weekday) / 7, by omega⟩
    rw [← hsince]
    by_cases hlate : combine (date now - since) s.time > now
    · rw [if_pos hlate]
      simp only [combine, days] at hlate ⊢
      exact ⟨k - 1, by omega, by omega, by omega⟩
    · rw [if_neg hlate]
      simp only [combine] at hlate ⊢
      exact ⟨k, by rw [hk], by omega, by omega⟩
  | monthly =>
    obtain ⟨hle, hlt⟩ := monthOf_spec (date now)
    generalize monthOf (date now) = m at hle hlt
    have hbefore := dayOfMonth_bounds (m - 1) s.scheduleMonthday
    have hafter := dayOfMonth_bounds (m + 1) s.scheduleMonthday
    rw [show m - 1 + 1 = m by omega] at hbefore
    dsimp only
    by_cases hlate : combine (dayOfMonth m (monthlyDate m s.scheduleMonthday)) s.time > now
    · rw [if_pos hlate]
      simp only [combine] at hlate ⊢
      refine ⟨m - 1, rfl, by omega, ?_⟩
      rw [show m - 1 + 1 = m by omega]
      exact hlate
    · rw [if_neg hlate]
      simp only [combine] at hlate ⊢
      exact ⟨m, rfl, by omega, by omega⟩

/-- Between two due instants, the last one is the lower. -/
theorem scheduledDueLocal_eq {s : Schedule} {now k : Int} (hle : dueSeq s k ≤ now)
    (hlt : now < dueSeq s (k + 1)) : scheduledDueLocal s now = dueSeq s k := by
  obtain ⟨j, hj, hle', hlt'⟩ := scheduledDueLocal_spec s now
  rw [hj, step_unique (dueSeq_strictMono s) hle' hlt' hle hlt]

/-- Between two due instants, the next one is the upper. -/
theorem scheduledNextDueLocal_eq {s : Schedule} {now k : Int} (hle : dueSeq s k ≤ now)
    (hlt : now < dueSeq s (k + 1)) :
    scheduledNextDueLocal s (dueSeq s k) now = dueSeq s (k + 1) := by
  cases hkind : s.kind with
  | daily =>
    have hnext : dueSeq s k + days 1 = dueSeq s (k + 1) := by
      simp only [dueSeq, hkind, combine, days]
      omega
    simp only [scheduledNextDueLocal, hkind]
    rw [hnext, whileNotAfter_of_gt hlt]
  | weekly =>
    have hnext : dueSeq s k + days 7 = dueSeq s (k + 1) := by
      simp only [dueSeq, hkind, combine, days]
      omega
    simp only [scheduledNextDueLocal, hkind]
    rw [hnext, whileNotAfter_of_gt hlt]
  | monthly =>
    obtain ⟨ht0, ht⟩ := time_bounds s
    -- the due instant of a month lies in the month
    have hmonth : monthOf (date (dueSeq s k)) = k := by
      have hday : date (dueSeq s k) = dayOfMonth k (monthlyDate k s.scheduleMonthday) := by
        simp only [dueSeq, hkind, combine, date]
        omega
      rw [hday]
      exact monthOf_eq (dayOfMonth_bounds k s.scheduleMonthday).1
        (dayOfMonth_bounds k s.scheduleMonthday).2
    have htime : dueSeq s k % 86400 = s.time := by
      simp only [dueSeq, hkind, combine]
      omega
    have hnext : nextMonthly s (dueSeq s k) = dueSeq s (k + 1) := by
      simp only [nextMonthly, hmonth, htime]
      simp only [dueSeq, hkind]
    simp only [scheduledNextDueLocal, hkind]
    rw [whileNotAfter_of_le hle (by rw [hnext]; exact hlt), hnext]

/-! ## In UTC -/

/-- **One window.** From a due instant to the next one, both stay the same. -/
theorem scheduledDue_window {s : Schedule} {due now : Int} (hdue : scheduledDue s due = due)
    (hle : due ≤ now) (hlt : now < scheduledNextDue s due) :
    scheduledDue s now = due ∧ scheduledNextDue s now = scheduledNextDue s due := by
  obtain ⟨k, hk, hk₁, hk₂⟩ := scheduledDueLocal_spec s (due + s.utcOffset)
  have hnext : scheduledNextDue s due = dueSeq s (k + 1) - s.utcOffset := by
    rw [scheduledNextDue, hk, scheduledNextDueLocal_eq hk₁ hk₂]
  have hlow : dueSeq s k = due + s.utcOffset := by
    unfold scheduledDue at hdue
    omega
  rw [hnext] at hlt
  have h₁ : dueSeq s k ≤ now + s.utcOffset := by omega
  have h₂ : now + s.utcOffset < dueSeq s (k + 1) := by omega
  constructor
  · rw [scheduledDue, scheduledDueLocal_eq h₁ h₂]
    omega
  · rw [scheduledNextDue, scheduledDueLocal_eq h₁ h₂, scheduledNextDueLocal_eq h₁ h₂, hnext]

end IncidentRelay.Heartbeats
