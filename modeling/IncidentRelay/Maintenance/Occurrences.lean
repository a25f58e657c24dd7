import IncidentRelay.Maintenance.Windows
import Mathlib.Data.Int.LeastGreatest
import Mathlib.Order.Bounds.Basic
import Mathlib.Tactic.Linarith

/-!
# Occurrences of maintenance windows

The times of a window are local times of its zone. A window with a recurrence rule occurs
at each start of the rule, as long as its own times are apart; any other window occurs once.

 * `isWindowActiveNow_iff`: a window is active while an occurrence is under way, and at its end.
-/

namespace IncidentRelay.Maintenance

/-! ## Rules -/

/-- What `rrulestr(text, dtstart=starts_at)` returns: the starts of the rule, and the two
methods that search them. -/
structure RecurrenceRule where
  starts : Set Instant
  /-- `before(moment, inc=True)` -/
  before : Instant → Option Instant
  /-- `after(moment, inc=False)` -/
  after : Instant → Option Instant
  before_iff : ∀ moment start,
    before moment = some start ↔ IsGreatest {s | s ∈ starts ∧ s ≤ moment} start
  after_iff : ∀ moment start,
    after moment = some start ↔ IsLeast {s | s ∈ starts ∧ moment < s} start

/-- The zones and the parser of recurrence rules. -/
structure Recurrences where
  /-- The offset of `_get_zoneinfo(timezone_name)` from UTC at an instant. -/
  utcOffset : String → Instant → ℤ
  /-- `rrulestr(text, dtstart=starts_at)`, where it does not raise. -/
  rrulestr : String → Instant → Option RecurrenceRule

namespace RecurrenceRule

variable (rule : RecurrenceRule) {moment start : Instant}

/-- Where a start is not later, the last such start is found. -/
theorem exists_before (hstart : start ∈ rule.starts) (hle : start ≤ moment) :
    ∃ last, rule.before moment = some last ∧ start ≤ last := by
  obtain ⟨last, ⟨hlast, hmoment⟩, hgreatest⟩ := Int.exists_greatest_of_bdd
    (P := fun s => s ∈ rule.starts ∧ s ≤ moment) ⟨moment, fun s hs => hs.2⟩ ⟨start, hstart, hle⟩
  refine ⟨last, (rule.before_iff moment last).mpr ⟨⟨hlast, hmoment⟩, hgreatest⟩, ?_⟩
  exact hgreatest start ⟨hstart, hle⟩

theorem mem_of_before (h : rule.before moment = some start) : start ∈ rule.starts ∧ start ≤ moment :=
  ((rule.before_iff moment start).mp h).1

/-! ### A rule without an end -/

/-- `start`, `start + period` and so on. -/
def everyStarts (start : Instant) (period : ℤ) : Set Instant := {s | ∃ n : ℕ, s = start + n * period}

def everyBefore (start : Instant) (period : ℤ) (moment : Instant) : Option Instant :=
  if start ≤ moment then some (start + (moment - start) / period * period) else none

def everyAfter (start : Instant) (period : ℤ) (moment : Instant) : Option Instant :=
  if moment < start then some start
  else some (start + ((moment - start) / period + 1) * period)

variable {period : ℤ}

theorem mem_everyStarts {n : ℤ} (hn : 0 ≤ n) : start + n * period ∈ everyStarts start period :=
  ⟨n.toNat, by rw [Int.toNat_of_nonneg hn]⟩

theorem le_of_mem_everyStarts (hperiod : 0 < period) {s : Instant}
    (hs : s ∈ everyStarts start period) : start ≤ s := by
  obtain ⟨n, rfl⟩ := hs
  have : 0 ≤ (n : ℤ) * period := mul_nonneg (Int.natCast_nonneg n) hperiod.le
  show start ≤ start + (n : ℤ) * period
  linarith

/-- The last start is found by a division. -/
theorem everyBefore_iff (hperiod : 0 < period) (moment s : Instant) :
    everyBefore start period moment = some s ↔
      IsGreatest {s | s ∈ everyStarts start period ∧ s ≤ moment} s := by
  unfold everyBefore
  split_ifs with hle
  -- after the first start the quotient counts the whole periods gone by
  · have hquotient : 0 ≤ (moment - start) / period :=
      Int.ediv_nonneg (sub_nonneg.mpr hle) hperiod.le
    have hgreatest : IsGreatest {s | s ∈ everyStarts start period ∧ s ≤ moment}
        (start + (moment - start) / period * period) := by
      refine ⟨⟨mem_everyStarts hquotient, ?_⟩, ?_⟩
      · have := Int.ediv_mul_le (moment - start) hperiod.ne'
        linarith
      · rintro _ ⟨⟨n, rfl⟩, hn⟩
        have hcount : (n : ℤ) ≤ (moment - start) / period :=
          (Int.le_ediv_iff_mul_le hperiod).mpr (by linarith)
        have := mul_le_mul_of_nonneg_right hcount hperiod.le
        show start + (n : ℤ) * period ≤ _
        linarith
    constructor
    · rintro ⟨⟩
      exact hgreatest
    · exact fun h => congrArg some (hgreatest.unique h)
  -- before it there is none to find
  · refine iff_of_false nofun fun h => hle ?_
    exact (le_of_mem_everyStarts hperiod h.1.1).trans h.1.2

/-- The next start is the one behind it. -/
theorem everyAfter_iff (hperiod : 0 < period) (moment s : Instant) :
    everyAfter start period moment = some s ↔
      IsLeast {s | s ∈ everyStarts start period ∧ moment < s} s := by
  have hleast : IsLeast {s | s ∈ everyStarts start period ∧ moment < s}
      (if moment < start then start else start + ((moment - start) / period + 1) * period) := by
    split_ifs with hlt
    -- before the first start, that one is the least
    · refine ⟨⟨⟨0, by simp⟩, hlt⟩, fun s hs => le_of_mem_everyStarts hperiod hs.1⟩
    -- later the next start is one period behind the quotient
    · have hquotient : 0 ≤ (moment - start) / period :=
        Int.ediv_nonneg (sub_nonneg.mpr (not_lt.mp hlt)) hperiod.le
      refine ⟨⟨mem_everyStarts (by linarith), ?_⟩, ?_⟩
      · have := Int.lt_ediv_add_one_mul_self (moment - start) hperiod
        linarith
      · rintro _ ⟨⟨n, rfl⟩, hn⟩
        have hcount : (moment - start) / period < (n : ℤ) :=
          (Int.ediv_lt_iff_lt_mul hperiod).mpr (by linarith)
        have := mul_le_mul_of_nonneg_right (Int.add_one_le_iff.mpr hcount) hperiod.le
        show _ ≤ start + (n : ℤ) * period
        linarith
  have hfound : everyAfter start period moment =
      some (if moment < start then start else start + ((moment - start) / period + 1) * period) := by
    unfold everyAfter
    split_ifs <;> rfl
  rw [hfound]
  constructor
  · rintro ⟨⟩
    exact hleast
  · exact fun h => congrArg some (hleast.unique h)

/-- `FREQ=DAILY` and its like, without `COUNT` and `UNTIL`. -/
def every (start : Instant) (period : ℤ) (hperiod : 0 < period) : RecurrenceRule where
  starts := everyStarts start period
  before := everyBefore start period
  after := everyAfter start period
  before_iff := everyBefore_iff hperiod
  after_iff := everyAfter_iff hperiod

end RecurrenceRule

/-- UTC, and the one rule `FREQ=DAILY`. -/
def daily : Recurrences where
  utcOffset _ _ := 0
  rrulestr text startsAt :=
    if text = "FREQ=DAILY" then some (.every startsAt (seconds 86400) (by decide)) else none

/-! ## Statuses -/

section Statuses

variable (cal : Recurrences) (w : Window) (now : Instant)

/-- `_window_local_now(window, now=now)` -/
def windowLocalNow : Instant := now + cal.utcOffset w.timezone now

/-- `_normalize_rrule_text` -/
def normalizeRruleText (value : Option String) : Option String :=
  let text := withoutRulePrefix (strip (value.getD ""))
  if text = "" then none else some text

/-- `_build_window_rrule` -/
def buildWindowRrule : Option RecurrenceRule :=
  (normalizeRruleText w.rrule).bind fun text => cal.rrulestr text w.startsAt

/-- `_get_window_duration` -/
def getWindowDuration : Option ℤ :=
  if w.endsAt - w.startsAt ≤ 0 then none else some (w.endsAt - w.startsAt)

/-- `_get_recurring_window_status` -/
def getRecurringWindowStatus : Option String :=
  match buildWindowRrule cal w, getWindowDuration w with
  | some rule, some duration =>
    let localNow := windowLocalNow cal w now
    if (rule.before localNow).any fun start => start ≤ localNow && localNow ≤ start + duration then
      some "active"
    else if (rule.after localNow).isSome then some "scheduled"
    else some "finished"
  | _, _ => none

/-- `window.rrule` is set. -/
def hasRrule : Bool := w.rrule.any (· ≠ "")

/-- `get_effective_window_status` -/
def getEffectiveWindowStatus : String :=
  let status := if w.status = "" then "scheduled" else w.status
  if status = "cancelled" then "cancelled"
  else if status ≠ "scheduled" ∧ status ≠ "active" then status
  else
    let localNow := windowLocalNow cal w now
    (if hasRrule w then getRecurringWindowStatus cal w now else none).getD <|
      if localNow < w.startsAt then "scheduled"
      else if w.endsAt < localNow then "finished"
      else "active"

/-- `is_window_active_now` -/
def isWindowActiveNow : Bool :=
  !w.deleted && w.enabled && getEffectiveWindowStatus cal w now = "active"

end Statuses

/-! ## Occurrences -/

section Occurrences

variable (cal : Recurrences) (w : Window) {now : Instant}

/-- The local times at which the window starts. -/
def localStarts : Set Instant :=
  match buildWindowRrule cal w, getWindowDuration w with
  | some rule, some _ => rule.starts
  | _, _ => {w.startsAt}

/-- An occurrence has started and has not ended; its end does not belong to it. -/
def UnderWay (t : Instant) : Prop :=
  ∃ start ∈ localStarts cal w, start ≤ windowLocalNow cal w t ∧
    windowLocalNow cal w t < start + (w.endsAt - w.startsAt)

variable {cal w}

/-- A duration is given where the window ends after it starts. -/
theorem getWindowDuration_eq_some {duration : ℤ} (h : getWindowDuration w = some duration) :
    0 < duration ∧ w.endsAt - w.startsAt = duration := by
  unfold getWindowDuration at h
  split_ifs at h with hle
  cases h
  exact ⟨lt_of_not_ge hle, rfl⟩

/-- A window without a rule is not parsed. -/
theorem hasRrule_of_build {rule : RecurrenceRule} (h : buildWindowRrule cal w = some rule) :
    hasRrule w = true := by
  obtain ⟨text, htext, -⟩ := Option.bind_eq_some_iff.mp h
  have hblank : normalizeRruleText (some "") = none := by decide +kernel
  have hmissing : normalizeRruleText none = none := by decide +kernel
  cases hrrule : w.rrule with
  | none =>
    rw [hrrule, hmissing] at htext
    cases htext
  | some value =>
    by_cases hvalue : value = ""
    · rw [hrrule, hvalue, hblank] at htext
      cases htext
    · simp [hasRrule, hrrule, hvalue]

/-- The start that is found is the one of the occurrence that is under way. -/
theorem before_of_started {rule : RecurrenceRule} {duration moment : ℤ} :
    (∃ start ∈ rule.starts, start ≤ moment ∧ moment ≤ start + duration) ↔
      ((rule.before moment).any fun start => start ≤ moment && moment ≤ start + duration) = true := by
  constructor
  · rintro ⟨start, hstart, hle, hend⟩
    obtain ⟨last, hlast, hlater⟩ := rule.exists_before hstart hle
    have hmoment := (rule.mem_of_before hlast).2
    rw [hlast, Option.any_some, Bool.and_eq_true, decide_eq_true_eq, decide_eq_true_eq]
    -- all occurrences are as long as each other, so that the last one ends last
    exact ⟨hmoment, hend.trans (by gcongr)⟩
  · intro h
    obtain ⟨start, hstart, hspan⟩ := Option.any_eq_true _ _ |>.mp h
    rw [Bool.and_eq_true, decide_eq_true_eq, decide_eq_true_eq] at hspan
    exact ⟨start, (rule.mem_of_before hstart).1, hspan⟩

/-- A window with a rule that is used, and any other window. -/
theorem localStarts_cases :
    (∃ rule duration, buildWindowRrule cal w = some rule ∧ getWindowDuration w = some duration ∧
      localStarts cal w = rule.starts) ∨
    ((buildWindowRrule cal w = none ∨ getWindowDuration w = none) ∧
      localStarts cal w = {w.startsAt}) := by
  unfold localStarts
  cases hrule : buildWindowRrule cal w with
  | none => exact .inr ⟨.inl rfl, rfl⟩
  | some rule =>
    cases hduration : getWindowDuration w with
    | none => exact .inr ⟨.inr rfl, rfl⟩
    | some duration => exact .inl ⟨rule, duration, rfl, rfl, rfl⟩

/-- Without a rule or a duration the window is no recurring one. -/
theorem getRecurringWindowStatus_eq_none
    (h : buildWindowRrule cal w = none ∨ getWindowDuration w = none) :
    getRecurringWindowStatus cal w now = none := by
  unfold getRecurringWindowStatus
  rcases h with h | h
  · rw [h]
  · rw [h]
    cases buildWindowRrule cal w with
    | none => rfl
    | some rule => rfl

open Classical in
/-- **The status of a recurring window**: active within an occurrence, scheduled before the next
one, finished behind the last. -/
theorem getRecurringWindowStatus_eq_some {rule : RecurrenceRule} {duration : ℤ}
    (hrule : buildWindowRrule cal w = some rule) (hduration : getWindowDuration w = some duration) :
    getRecurringWindowStatus cal w now = some
      (if ∃ start ∈ rule.starts, start ≤ windowLocalNow cal w now ∧
          windowLocalNow cal w now ≤ start + duration then "active"
        else if (rule.after (windowLocalNow cal w now)).isSome then "scheduled" else "finished") := by
  unfold getRecurringWindowStatus
  rw [hrule, hduration]
  dsimp only
  simp only [before_of_started]
  split_ifs <;> rfl

/-- A stored status that does not end the window is not looked at further. -/
theorem getEffectiveWindowStatus_of_live (h : w.status ∈ ["", "scheduled", "active"]) :
    getEffectiveWindowStatus cal w now =
      (if hasRrule w then getRecurringWindowStatus cal w now else none).getD
        (if windowLocalNow cal w now < w.startsAt then "scheduled"
          else if w.endsAt < windowLocalNow cal w now then "finished" else "active") := by
  simp only [List.mem_cons, List.not_mem_nil, or_false] at h
  unfold getEffectiveWindowStatus
  dsimp only
  rcases h with h | h | h
  · simp [h]
  · simp [h]
  · simp [h]

/-- A window that was not ended is active while an occurrence is under way. -/
theorem getEffectiveWindowStatus_eq_active (h : w.status ∈ ["", "scheduled", "active"]) :
    getEffectiveWindowStatus cal w now = "active" ↔
      ∃ start ∈ localStarts cal w, start ≤ windowLocalNow cal w now ∧
        windowLocalNow cal w now ≤ start + (w.endsAt - w.startsAt) := by
  rw [getEffectiveWindowStatus_of_live h]
  rcases @localStarts_cases cal w with ⟨rule, duration, hrule, hduration, hstarts⟩ | ⟨hsingle, hstarts⟩
  · obtain ⟨-, hlength⟩ := getWindowDuration_eq_some hduration
    rw [if_pos (hasRrule_of_build hrule), getRecurringWindowStatus_eq_some hrule hduration, hstarts,
      hlength, Option.getD_some]
    -- a recurring window: active exactly while one of its starts lasts
    by_cases hstarted : ∃ start ∈ rule.starts, start ≤ windowLocalNow cal w now ∧
        windowLocalNow cal w now ≤ start + duration
    · rw [if_pos hstarted]
      exact iff_of_true rfl hstarted
    · rw [if_neg hstarted]
      refine iff_of_false ?_ hstarted
      split_ifs <;> decide
  -- a window without a rule has its own two ends only
  · rw [getRecurringWindowStatus_eq_none hsingle, ite_self, hstarts, Option.getD_none]
    simp only [Set.mem_singleton_iff, exists_eq_left, add_sub_cancel]
    split_ifs with hbefore hbehind
    · exact iff_of_false (by decide) fun h => not_lt_of_ge h.1 hbefore
    · exact iff_of_false (by decide) fun h => not_lt_of_ge h.2 hbehind
    · exact iff_of_true rfl ⟨le_of_not_gt hbefore, le_of_not_gt hbehind⟩

/-- One that was ended has the status it was ended with. -/
theorem getEffectiveWindowStatus_of_dead (h : w.status ∉ ["", "scheduled", "active"]) :
    getEffectiveWindowStatus cal w now = w.status := by
  simp only [List.mem_cons, List.not_mem_nil, or_false, not_or] at h
  unfold getEffectiveWindowStatus
  dsimp only
  rw [if_neg h.1]
  by_cases hcancelled : w.status = "cancelled"
  · rw [if_pos hcancelled, hcancelled]
  · rw [if_neg hcancelled, if_pos ⟨h.2.1, h.2.2⟩]

/-- **A window is active while an occurrence is under way**, and at the end of one. -/
theorem isWindowActiveNow_iff : isWindowActiveNow cal w now = true ↔
    (w.deleted = false ∧ w.enabled = true ∧ w.status ∈ ["", "scheduled", "active"]) ∧
      ∃ start ∈ localStarts cal w, start ≤ windowLocalNow cal w now ∧
        windowLocalNow cal w now ≤ start + (w.endsAt - w.startsAt) := by
  unfold isWindowActiveNow
  rw [Bool.and_eq_true, Bool.and_eq_true, Bool.not_eq_true', decide_eq_true_eq]
  by_cases hlive : w.status ∈ ["", "scheduled", "active"]
  · rw [getEffectiveWindowStatus_eq_active hlive]
    tauto
  · rw [getEffectiveWindowStatus_of_dead hlive]
    have hactive : w.status ≠ "active" := fun h => hlive (by simp [h])
    tauto

end Occurrences

/-- An hour every night. -/
def nightlyBackup : Window where
  id := 1
  name := "Backup"
  description := none
  behavior := "suppress"
  timezone := "UTC"
  rrule := some "RRULE:FREQ=DAILY"
  startsAt := seconds 3600
  endsAt := seconds 7200
  enabled := true
  applyToExisting := false
  reactivateOnEnd := false
  group := some 1
  team := none
  status := "scheduled"
  reconciledAt := none
  cancelledBy := none
  cancelledAt := none
  cancelReason := none
  deleted := false
  deletedAt := none

-- ten nights later, in the hour and behind it
example : isWindowActiveNow daily nightlyBackup (seconds (864000 + 5400)) = true ∧
    isWindowActiveNow daily nightlyBackup (seconds (864000 + 9000)) = false := by
  decide +kernel

end IncidentRelay.Maintenance
