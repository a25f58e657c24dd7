import IncidentRelay.Maintenance.Occurrences
import IncidentRelay.Services.SloVerdict

/-!
# The downtime of an objective

A service is down at an instant where a group of the indicator is open and no maintenance is
under way. The evaluation adds up intervals instead: it selects the groups by their first
event, ends them where they were resolved, and takes the stored times of the maintenance
windows as instants.

 * `covers_downtimeIntervals`: what the intervals cover, instant by instant.
 * `downtime_agrees_iff`: when the two measures are the same.
-/

namespace IncidentRelay.Slo

open Maintenance Intervals

/-- A group with the time at which it was merged into another one. -/
structure TrackedGroup extends AlertGroup where
  /-- `merged_at` -/
  mergedAt : Option Instant

/-- The group has been seen, and it has been neither resolved nor merged. -/
def TrackedGroup.OpenAt (g : TrackedGroup) (t : Instant) : Prop :=
  g.firstSeenAt ≤ t ∧ (∀ stop ∈ g.resolvedAt, t < stop) ∧ ∀ stop ∈ g.mergedAt, t < stop

/-- The group has been seen in the window, and it has not been resolved. -/
def TrackedGroup.CountedAt (g : TrackedGroup) (since t : Instant) : Prop :=
  since ≤ g.firstSeenAt ∧ g.firstSeenAt ≤ t ∧ ∀ stop ∈ g.resolvedAt, t < stop

section Downtime

variable (cal : Recurrences) (env : Environment) (s : Store) (groups : List TrackedGroup)
  (slo : ServiceSlo) (since now : Instant)

/-- The windows of the service that are switched on and not cancelled. -/
def maintenanceWindows : List Window :=
  (s.listMaintenanceWindows env
    { group := slo.service.group, team := slo.service.team, service := some slo.service.id }).filter
      fun w => w.enabled && w.status ≠ "cancelled"

/-! ## Instant by instant -/

/-- An occurrence of a window of the service is under way. -/
def UnderMaintenance (t : Instant) : Prop := ∃ w ∈ maintenanceWindows env s slo, UnderWay cal w t

/-- **The service is down.** -/
def Down (t : Instant) : Prop :=
  (∃ g ∈ groups, matchesSli slo.sli g.toAlertGroup ∧ g.OpenAt t) ∧ ¬UnderMaintenance cal env s slo t

/-- The stored times of a window, read as instants, cover the instant. -/
def MaintenanceTimes (t : Instant) : Prop :=
  slo.excludeMaintenance ∧ ∃ w ∈ maintenanceWindows env s slo, w.startsAt ≤ t ∧ t < w.endsAt

def Counted (t : Instant) : Prop :=
  (∃ g ∈ groups, matchesSli slo.sli g.toAlertGroup ∧ g.CountedAt since t) ∧
    ¬MaintenanceTimes env s slo t

/-- Down, and not counted: each open group was first seen before the window, or the stored
times of a maintenance window cover the instant where none is under way. -/
def Missed (t : Instant) : Prop :=
  Down cal env s groups slo t ∧
    ((∀ g ∈ groups, matchesSli slo.sli g.toAlertGroup → ¬g.CountedAt since t) ∨
      MaintenanceTimes env s slo t)

/-- Counted, and not down: each group that is counted has been merged, or a maintenance is
under way of which the stored times say nothing. -/
def Excess (t : Instant) : Prop :=
  Counted env s groups slo since t ∧
    ((∀ g ∈ groups, matchesSli slo.sli g.toAlertGroup → ¬g.OpenAt t) ∨ UnderMaintenance cal env s slo t)

variable {cal env s groups slo since now} {t : Instant}

/-- An instant is missed when the service is down and it is not counted. -/
theorem missed_iff : Missed cal env s groups slo since t ↔
    Down cal env s groups slo t ∧ ¬Counted env s groups slo since t := by
  unfold Missed Counted
  refine and_congr_right fun _ => ?_
  rw [not_and_or, not_not]
  refine or_congr_left ?_
  simp only [not_exists, not_and]

theorem excess_iff : Excess cal env s groups slo since t ↔
    Counted env s groups slo since t ∧ ¬Down cal env s groups slo t := by
  unfold Excess Down
  refine and_congr_right fun _ => ?_
  rw [not_and_or, not_not]
  refine or_congr_left ?_
  simp only [not_exists, not_and]

/-! ## The intervals -/

/-- The interval of a group covers it from when it was first seen until it is resolved. -/
theorem groupInterval_covers {g : AlertGroup} (hsince : since ≤ t) (hnow : t < now) :
    (∃ i ∈ groupInterval since now g, Holds i t) ↔
      g.firstSeenAt ≤ t ∧ ∀ stop ∈ g.resolvedAt, t < stop := by
  constructor
  · rintro ⟨i, hi, ht⟩
    exact ((holds_groupInterval hi).mp ht).2
  · rintro ⟨hseen, hresolved⟩
    -- the group has an interval, since the instant lies in it
    have hstop : t < g.resolvedAt.getD now := by
      cases hr : g.resolvedAt with
      | none => exact hnow
      | some stop => exact hresolved stop hr
    have hinside : ¬(g.resolvedAt.getD now ≤ since ∨ now ≤ max g.firstSeenAt since) := by
      rintro (hended | hlater)
      · exact absurd (hstop.trans_le hended) (not_lt_of_ge hsince)
      · exact absurd (hnow.trans_le hlater) (not_lt_of_ge (max_le hseen hsince))
    refine ⟨(max g.firstSeenAt since, min (g.resolvedAt.getD now) now), if_neg hinside, ?_⟩
    exact ⟨max_le hseen hsince, lt_min hstop hnow⟩

/-- Those of maintenance cover the windows. -/
theorem maintenanceIntervals_covers (hsince : since ≤ t) (hnow : t < now) :
    Covers (maintenanceIntervals env s slo.service since now) t ↔
      ∃ w ∈ maintenanceWindows env s slo, w.startsAt ≤ t ∧ t < w.endsAt := by
  unfold maintenanceIntervals maintenanceWindows
  dsimp only
  rw [covers_merge]
  constructor
  · rintro ⟨i, hi, ht⟩
    obtain ⟨w, hw, hinterval⟩ := List.mem_filterMap.mp hi
    split_ifs at hinterval
    cases hinterval
    exact ⟨w, hw, (le_max_left _ _).trans ht.1, ht.2.trans_le (min_le_left _ _)⟩
  · rintro ⟨w, hw, hstart, hend⟩
    have ht : Holds (max w.startsAt since, min w.endsAt now) t :=
      ⟨max_le hstart hsince, lt_min hend hnow⟩
    exact ⟨_, List.mem_filterMap.mpr ⟨w, hw, if_pos (ht.1.trans_lt ht.2)⟩, ht⟩

/-- **The intervals cover the instants that are counted.** -/
theorem covers_downtimeIntervals (hsince : since ≤ t) (hnow : t < now) :
    Covers (downtimeIntervals env s (groups.map (·.toAlertGroup)) slo since now) t ↔
      Counted env s groups slo since t := by
  have hgroups : Covers (merge ((alertQueryForSli (groups.map (·.toAlertGroup)) slo.sli since).filterMap
      (groupInterval since now))) t ↔
      ∃ g ∈ groups, matchesSli slo.sli g.toAlertGroup ∧ g.CountedAt since t := by
    rw [covers_merge]
    constructor
    · rintro ⟨i, hi, ht⟩
      obtain ⟨row, hrow, hinterval⟩ := List.mem_filterMap.mp hi
      obtain ⟨hmem, hselected⟩ := List.mem_filter.mp ((List.mem_insertionSort _).mp hrow)
      obtain ⟨g, hg, rfl⟩ := List.mem_map.mp hmem
      rw [Bool.and_eq_true, decide_eq_true_eq] at hselected
      exact ⟨g, hg, hselected.1, hselected.2,
        (groupInterval_covers hsince hnow).mp ⟨i, hinterval, ht⟩⟩
    · rintro ⟨g, hg, hmatches, hfirst, hcounted⟩
      obtain ⟨i, hi, ht⟩ := (groupInterval_covers hsince hnow).mpr hcounted
      refine ⟨i, List.mem_filterMap.mpr ⟨g.toAlertGroup, ?_, hi⟩, ht⟩
      refine (List.mem_insertionSort _).mpr (List.mem_filter.mpr ⟨List.mem_map_of_mem hg, ?_⟩)
      rw [Bool.and_eq_true, decide_eq_true_eq]
      exact ⟨hmatches, hfirst⟩
  have hmaintenance : Covers (if slo.excludeMaintenance then
      maintenanceIntervals env s slo.service since now else []) t ↔ MaintenanceTimes env s slo t := by
    unfold MaintenanceTimes
    split_ifs with hflag
    · rw [maintenanceIntervals_covers hsince hnow]
      exact (and_iff_right hflag).symm
    · exact iff_of_false (covers_nil t) fun h => hflag h.1
  unfold downtimeIntervals Counted
  dsimp only
  rw [← hgroups, ← hmaintenance]
  generalize (if slo.excludeMaintenance = true then _ else [] : List (Instant × Instant)) = maintenance
  split_ifs with hempty
  · rw [List.isEmpty_iff.mp hempty]
    exact (and_iff_left (covers_nil t)).symm
  · exact covers_subtract _ _ t

/-! ## The measures -/

variable (cal env s groups slo since now)

open Classical in
/-- The microseconds of the window at which the service is down. -/
noncomputable def downMicroseconds : ℕ := measure since now (Down cal env s groups slo)

open Classical in
noncomputable def missedMicroseconds : ℕ := measure since now (Missed cal env s groups slo since)

open Classical in
noncomputable def excessMicroseconds : ℕ := measure since now (Excess cal env s groups slo since)

open Classical in
/-- What is left of the runs of counted instants behind their whole seconds. -/
noncomputable def fractionMicroseconds : ℕ :=
  measure since now (Counted env s groups slo since) -
    1000000 * wholeUnits since now 1000000 (Counted env s groups slo since)

/-- The downtime of the evaluation is the measure of the instants at which the service is
down. -/
def DowntimeAgrees : Prop :=
  (evaluateAvailabilitySlo env s (groups.map (·.toAlertGroup)) slo since now).downtimeSeconds.map
    (· * 1000000) = some (downMicroseconds cal env s groups slo since now : ℤ)

variable {cal env s groups slo since now}

/-- The sum of the intervals, by the instants that are counted. -/
theorem downtime_eq : intervalsSeconds (downtimeIntervals env s (groups.map (·.toAlertGroup)) slo since now) =
    wholeUnits since now 1000000 (Counted env s groups slo since) := by
  obtain ⟨hapart, hwithin⟩ := @downtime_apart env s (groups.map (·.toAlertGroup)) slo since now
  calc intervalsSeconds (downtimeIntervals env s (groups.map (·.toAlertGroup)) slo since now)
      = wholeUnits since now 1000000
          (Covers (downtimeIntervals env s (groups.map (·.toAlertGroup)) slo since now)) :=
        sum_wholeUnits 1000000 hapart hwithin
    _ = wholeUnits since now 1000000 (Counted env s groups slo since) :=
        wholeUnits_congr fun t hsince hnow => covers_downtimeIntervals hsince hnow

open Classical in
/-- The whole seconds and the fractions are all that is counted. -/
theorem counted_eq : measure since now (Counted env s groups slo since) =
    1000000 * wholeUnits since now 1000000 (Counted env s groups slo since) +
      fractionMicroseconds env s groups slo since now := by
  obtain ⟨hapart, hwithin⟩ := @downtime_apart env s (groups.map (·.toAlertGroup)) slo since now
  have hle : 1000000 * wholeUnits since now 1000000 (Counted env s groups slo since) ≤
      measure since now (Counted env s groups slo since) := by
    rw [← downtime_eq, mul_comm]
    refine (intervalsSeconds_le _).trans (le_of_eq ?_)
    rw [sum_lengths hapart hwithin]
    exact measure_congr fun t hsince hnow => covers_downtimeIntervals hsince hnow
  unfold fractionMicroseconds
  omega

open Classical in
/-- Counted and missed, and down and in excess, are the same instants. -/
theorem counted_add_missed : measure since now (Counted env s groups slo since) +
    missedMicroseconds cal env s groups slo since now =
      downMicroseconds cal env s groups slo since now +
        excessMicroseconds cal env s groups slo since now := by
  have hmissed : missedMicroseconds cal env s groups slo since now =
      measure since now fun t => Down cal env s groups slo t ∧ ¬Counted env s groups slo since t :=
    measure_congr fun t _ _ => missed_iff
  have hexcess : excessMicroseconds cal env s groups slo since now =
      measure since now fun t => Counted env s groups slo since t ∧ ¬Down cal env s groups slo t :=
    measure_congr fun t _ _ => excess_iff
  rw [hmissed, hexcess]
  exact measure_add_diff _ _

/-- So the downtime agrees when both count the same microseconds. -/
theorem downtimeAgrees_iff : DowntimeAgrees cal env s groups slo since now ↔
    1000000 * wholeUnits since now 1000000 (Counted env s groups slo since) =
      downMicroseconds cal env s groups slo since now := by
  have hdowntime : (evaluateAvailabilitySlo env s (groups.map (·.toAlertGroup)) slo since now).downtimeSeconds =
      some (wholeUnits since now 1000000 (Counted env s groups slo since) : ℤ) := by
    rw [← downtime_eq]
    rfl
  unfold DowntimeAgrees
  rw [hdowntime, Option.map_some, Option.some.injEq]
  omega

end Downtime

/-- An incident that is open since a day before the window. -/
def lastingOutage : TrackedGroup where
  toAlertGroup := { fiveMinutes with firstSeenAt := seconds (-2592000), resolvedAt := none }
  mergedAt := none

end IncidentRelay.Slo
