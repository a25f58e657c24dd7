import IncidentRelay.Lib.Samples
import IncidentRelay.Rotations.OnCall

/-!
# Schedule gaps

`check_rotation_schedule_gaps` looks at a window in samples. What it reports of an instant is what
it saw at the last sample before: whether somebody was on call there.

* `mergeScheduleGapIssues_gaps`: the gaps lie apart, and are not merged.
* `schedule_gaps_exact`: the report, read at an instant.
-/

namespace IncidentRelay.Rotations

open Samples

def maxHealthGapIssues : ℕ := 20

structure HealthIssue where
  severity : String
  code : String
  title : String
  message : String
  targetType : String
  targetId : Option Id := none
  startsAt : Option Instant := none
  endsAt : Option Instant := none
  teamId : Option Id := none
  teamSlug : Option String := none
  rotationId : Option Id := none
  rotationName : Option String := none
  layerId : Option Id := none
  layerName : Option String := none
  userId : Option Id := none
  username : Option String := none
  hint : Option String := none
  deriving DecidableEq

/-- `issue_for_rotation(rotation, severity, code, title, message, …)` -/
def issueForRotation (rotation : RotationRow) (severity code title message hint : String)
    (startsAt endsAt : Option Instant) : HealthIssue where
  severity := severity
  code := code
  title := title
  message := message
  targetType := "rotation"
  targetId := some rotation.id
  startsAt := startsAt
  endsAt := endsAt
  teamId := some rotation.team
  teamSlug := some rotation.teamSlug
  rotationId := some rotation.id
  rotationName := some rotation.name
  hint := some hint

/-- The issue of a gap. -/
def gapIssue (rotation : RotationRow) (gap : Instant × Instant) : HealthIssue :=
  issueForRotation rotation "critical" "schedule_gap" "Schedule gap detected"
    "No active on-call user can be resolved for part of the checked window."
    "Check layer restrictions, users and override windows." (some gap.1) (some gap.2)

/-- What stands for the gaps that are left out. -/
def truncatedIssue (rotation : RotationRow) : HealthIssue :=
  issueForRotation rotation "warning" "schedule_gap_output_truncated" "More schedule gaps were found"
    ("Only the first " ++ toString maxHealthGapIssues ++ " schedule gaps are shown. " ++
      "Fix the listed gaps and run diagnostics again.")
    "Reduce schedule gaps or run diagnostics for a shorter window." none none

/-! ## Merging -/

/-- The issue grows by the next one. -/
def HealthIssue.joined (current issue : HealthIssue) : HealthIssue :=
  { current with endsAt := match current.endsAt, issue.endsAt with
      | some stop, some stop' => some (max stop stop')
      | stop, _ => stop }

/-- `current.ends_at and issue.starts_at and issue.starts_at <= current.ends_at` -/
def HealthIssue.touches (current issue : HealthIssue) : Bool :=
  match current.endsAt, issue.startsAt with
  | some stop, some start => start ≤ stop
  | _, _ => false

def mergeFrom (current : HealthIssue) : List HealthIssue → List HealthIssue
  | [] => [current]
  | issue :: issues =>
    if current.touches issue then mergeFrom (current.joined issue) issues
    else current :: mergeFrom issue issues

/-- `merge_schedule_gap_issues(issues)` -/
def mergeScheduleGapIssues : List HealthIssue → List HealthIssue
  | [] => []
  | issue :: issues => mergeFrom issue issues

/-! ## The check -/

/-- The values of `cursor`, each one step after the other; a step is not empty, so as many as the
window has microseconds are enough. -/
def cursors (step endsAt : ℤ) : ℕ → ℤ → List ℤ
  | 0, _ => []
  | fuel + 1, cursor =>
    if cursor < endsAt then cursor :: cursors step endsAt fuel (cursor + step) else []

/-- `timedelta(minutes=max(15, sample_minutes))` -/
def sampleStep (sampleMinutes : ℤ) : ℤ := seconds (60 * max 15 sampleMinutes)

section Check

variable (zoneInfo : String → Option Zone) (db : RotationTables) (rotation : RotationRow)

/-- Whether an active user is on call. -/
def hasActiveUser (now : Instant) : Bool :=
  (getCurrentOncallUser zoneInfo db rotation now).any fun user => user.active && !user.deleted

/-- `check_rotation_schedule_gaps(rotation, starts_at, ends_at, sample_minutes)` -/
def checkRotationScheduleGaps (startsAt endsAt : Instant) (sampleMinutes : ℤ) : List HealthIssue :=
  if !rotation.enabled then []
  else
    let samples := cursors (sampleStep sampleMinutes) endsAt (endsAt - startsAt).toNat startsAt
    let issues := (gapsFrom (hasActiveUser zoneInfo db rotation) endsAt none samples).map (gapIssue rotation)
    let merged := mergeScheduleGapIssues issues
    if merged.length ≤ maxHealthGapIssues then merged
    else merged.take maxHealthGapIssues ++ [truncatedIssue rotation]

end Check

/-! ## The samples -/

/-- The last sample that is not after an instant. -/
def lastSample (startsAt step t : ℤ) : ℤ :=
  startsAt + (t - startsAt) / step * step

theorem sampleStep_pos (sampleMinutes : ℤ) : 0 < sampleStep sampleMinutes := by
  unfold sampleStep seconds
  have : (15 : ℤ) ≤ max 15 sampleMinutes := le_max_left _ _
  omega

/-- They are the multiples of the step before the end. -/
theorem mem_cursors {step endsAt : ℤ} (hstep : 0 < step) {fuel : ℕ} {cursor t : ℤ}
    (hfuel : endsAt - cursor ≤ fuel) :
    t ∈ cursors step endsAt fuel cursor ↔ ∃ k : ℕ, t = cursor + k * step ∧ t < endsAt := by
  -- by induction on the fuel, which is enough for the samples that are left
  induction fuel generalizing cursor with
  | zero =>
    simp only [cursors, List.not_mem_nil, false_iff, not_exists, not_and, not_lt]
    rintro k rfl
    have : 0 ≤ (k : ℤ) * step := mul_nonneg (Int.natCast_nonneg k) hstep.le
    omega
  | succ fuel ih =>
    rw [cursors]
    split_ifs with hcursor
    · rw [List.mem_cons, ih (by omega)]
      constructor
      · rintro (rfl | ⟨k, rfl, hk⟩)
        · exact ⟨0, by simp, hcursor⟩
        · exact ⟨k + 1, by push_cast; ring, hk⟩
      · rintro ⟨k, rfl, hk⟩
        cases k with
        | zero => exact .inl (by simp)
        | succ k => exact .inr ⟨k, by push_cast; ring, hk⟩
    · simp only [List.not_mem_nil, false_iff, not_exists, not_and, not_lt]
      rintro k rfl
      have : 0 ≤ (k : ℤ) * step := mul_nonneg (Int.natCast_nonneg k) hstep.le
      omega

theorem cursors_sorted {step endsAt : ℤ} (hstep : 0 < step) (fuel : ℕ) (cursor : ℤ) :
    (cursors step endsAt fuel cursor).Pairwise (· < ·) := by
  -- the samples that are left are not in front of the cursor
  have hafter : ∀ (fuel : ℕ) (cursor : ℤ), ∀ t ∈ cursors step endsAt fuel cursor, cursor ≤ t := by
    intro fuel
    induction fuel with
    | zero => exact fun _ _ h => absurd h List.not_mem_nil
    | succ fuel ih =>
      intro cursor t ht
      rw [cursors] at ht
      split_ifs at ht
      · obtain rfl | ht := List.mem_cons.mp ht
        · exact le_rfl
        · have := ih _ t ht
          omega
      · cases ht
  induction fuel generalizing cursor with
  | zero => exact .nil
  | succ fuel ih =>
    rw [cursors]
    split_ifs
    · refine List.pairwise_cons.mpr ⟨fun t ht => ?_, ih _⟩
      have := hafter fuel _ t ht
      omega
    · exact .nil

/-- Each instant of the window has a last sample. -/
theorem isLast_cursors {step startsAt endsAt t : ℤ} (hstep : 0 < step) (hstart : startsAt ≤ t)
    (hend : t < endsAt) (s : ℤ) :
    IsLast (cursors step endsAt (endsAt - startsAt).toNat startsAt) s t ↔
      s = lastSample startsAt step t := by
  have hmem := fun s => mem_cursors (t := s) hstep (Int.self_le_toNat (endsAt - startsAt))
  have hquotient : 0 ≤ (t - startsAt) / step := Int.ediv_nonneg (by omega) hstep.le
  have hle : lastSample startsAt step t ≤ t := by
    have := Int.ediv_mul_le (t - startsAt) hstep.ne'
    unfold lastSample
    omega
  -- no sample between the last one and the instant
  have hlast : ∀ k : ℕ, startsAt + k * step ≤ t → startsAt + k * step ≤ lastSample startsAt step t := by
    intro k hk
    have hk' : (k : ℤ) ≤ (t - startsAt) / step := (Int.le_ediv_iff_mul_le hstep).mpr (by omega)
    have := mul_le_mul_of_nonneg_right hk' hstep.le
    unfold lastSample
    omega
  have hsample : lastSample startsAt step t ∈ cursors step endsAt (endsAt - startsAt).toNat startsAt := by
    refine (hmem _).mpr ⟨((t - startsAt) / step).toNat, ?_, hle.trans_lt hend⟩
    rw [Int.toNat_of_nonneg hquotient]
    rfl
  constructor
  · rintro ⟨hs, hst, hsLast⟩
    obtain ⟨k, rfl, -⟩ := (hmem s).mp hs
    exact le_antisymm (hlast k hst) (hsLast _ hsample hle)
  · rintro rfl
    refine ⟨hsample, hle, fun r hr hrt => ?_⟩
    obtain ⟨k, rfl, -⟩ := (hmem r).mp hr
    exact hlast k hrt

/-! ## The report -/

theorem touches_gapIssue (rotation : RotationRow) (gap next : Instant × Instant) :
    (gapIssue rotation gap).touches (gapIssue rotation next) = decide (next.1 ≤ gap.2) := rfl

/-- Gaps that lie apart are not merged. -/
theorem mergeScheduleGapIssues_gaps (rotation : RotationRow) {gaps : List (Instant × Instant)}
    (h : gaps.Pairwise fun gap next => gap.2 < next.1) :
    mergeScheduleGapIssues (gaps.map (gapIssue rotation)) = gaps.map (gapIssue rotation) := by
  have hfrom : ∀ (gap : Instant × Instant) (gaps : List (Instant × Instant)),
      (gap :: gaps).Pairwise (fun gap next => gap.2 < next.1) →
        mergeFrom (gapIssue rotation gap) (gaps.map (gapIssue rotation)) =
          (gap :: gaps).map (gapIssue rotation) := by
    intro gap gaps
    induction gaps generalizing gap with
    | nil => exact fun _ => rfl
    | cons next gaps ih =>
      intro hpairwise
      obtain ⟨hgap, hrest⟩ := List.pairwise_cons.mp hpairwise
      have hapart := hgap next List.mem_cons_self
      rw [List.map_cons, mergeFrom, touches_gapIssue, if_neg (by simpa using hapart), ih next hrest]
      rfl
  cases gaps with
  | nil => rfl
  | cons gap gaps => exact hfrom gap gaps h

/-- A gap that is reported, and contains the instant. -/
def ReportedGap (report : List HealthIssue) (t : Instant) : Prop :=
  ∃ issue ∈ report, issue.code = "schedule_gap" ∧
    ∃ start ∈ issue.startsAt, ∃ stop ∈ issue.endsAt, start ≤ t ∧ t < stop

/-- The report says that there are more gaps. -/
def SaysTruncated (report : List HealthIssue) : Prop :=
  ∃ issue ∈ report, issue.code = "schedule_gap_output_truncated"

/-- What a report of a window says about the instants at which somebody is seen on call. -/
structure GapsShown (report : List HealthIssue) (startsAt endsAt : Instant) (seen : Instant → Bool) :
    Prop where
  clean : (∀ issue ∈ report, issue.code ≠ "schedule_gap") → ∀ t, startsAt ≤ t → t < endsAt → seen t = true
  complete : ∀ t, startsAt ≤ t → t < endsAt → seen t = false → ReportedGap report t ∨ SaysTruncated report
  sound : ∀ t, ReportedGap report t → startsAt ≤ t ∧ t < endsAt ∧ seen t = false

/-- The report is about what is seen within its range. -/
theorem GapsShown.congr {report : List HealthIssue} {startsAt endsAt : Instant}
    {seen seen' : Instant → Bool} (h : GapsShown report startsAt endsAt seen)
    (heq : ∀ t, startsAt ≤ t → t < endsAt → seen' t = seen t) :
    GapsShown report startsAt endsAt seen' where
  clean hclean t hstart hend := (heq t hstart hend).trans (h.clean hclean t hstart hend)
  complete t hstart hend hseen := h.complete t hstart hend ((heq t hstart hend).symm.trans hseen)
  sound t hgap := by
    obtain ⟨hstart, hend, hseen⟩ := h.sound t hgap
    exact ⟨hstart, hend, (heq t hstart hend).trans hseen⟩

section Law

variable (zoneInfo : String → Option Zone) (db : RotationTables) (rotation : RotationRow)

/-- The gaps of the window, before they are cut. -/
def windowGaps (startsAt endsAt : Instant) (sampleMinutes : ℤ) : List (Instant × Instant) :=
  gapsFrom (hasActiveUser zoneInfo db rotation) endsAt none
    (cursors (sampleStep sampleMinutes) endsAt (endsAt - startsAt).toNat startsAt)

/-- The report of an enabled rotation is that of its samples. -/
theorem checkRotationScheduleGaps_eq (henabled : rotation.enabled = true) (startsAt endsAt : Instant)
    (sampleMinutes : ℤ) :
    let issues := (windowGaps zoneInfo db rotation startsAt endsAt sampleMinutes).map (gapIssue rotation)
    checkRotationScheduleGaps zoneInfo db rotation startsAt endsAt sampleMinutes =
      if issues.length ≤ maxHealthGapIssues then issues
      else issues.take maxHealthGapIssues ++ [truncatedIssue rotation] := by
  have hapart : (windowGaps zoneInfo db rotation startsAt endsAt sampleMinutes).Pairwise
      fun gap next => gap.2 < next.1 :=
    gapsFrom_apart (cursors_sorted (sampleStep_pos sampleMinutes) (endsAt - startsAt).toNat startsAt)
  have hmerged := mergeScheduleGapIssues_gaps rotation hapart
  unfold windowGaps at hmerged
  simp only [checkRotationScheduleGaps, henabled, hmerged, windowGaps]
  rfl

/-- An instant lies in a gap of the window, if and only if nobody was seen at its last sample. -/
theorem inGap_windowGaps {startsAt endsAt sampleMinutes t : ℤ} :
    InGap (windowGaps zoneInfo db rotation startsAt endsAt sampleMinutes) t ↔
      startsAt ≤ t ∧ t < endsAt ∧
        hasActiveUser zoneInfo db rotation (lastSample startsAt (sampleStep sampleMinutes) t) = false := by
  have hstep := sampleStep_pos sampleMinutes
  have hsorted : (cursors (sampleStep sampleMinutes) endsAt (endsAt - startsAt).toNat startsAt).Pairwise
      (· < ·) := cursors_sorted hstep _ _
  have hmem := fun s => mem_cursors (t := s) hstep (Int.self_le_toNat (endsAt - startsAt))
  have hwindow : InGap (windowGaps zoneInfo db rotation startsAt endsAt sampleMinutes) t →
      startsAt ≤ t ∧ t < endsAt := by
    -- a gap begins and ends at samples, or at the end of the window
    rintro ⟨gap, hgap, hle, hlt⟩
    constructor
    · obtain hnone | hstart := start_of_mem_gapsFrom hgap
      · cases hnone
      · obtain ⟨k, hk, -⟩ := (hmem _).mp hstart
        have hk' : 0 ≤ (k : ℤ) * sampleStep sampleMinutes := mul_nonneg (Int.natCast_nonneg k) hstep.le
        exact (le_add_of_nonneg_right hk').trans (hk ▸ hle)
    · obtain hstop | hstop := stop_of_mem_gapsFrom hgap
      · exact hstop ▸ hlt
      · exact hlt.trans ((hmem _).mp hstop).choose_spec.2
  -- an instant is in a gap when the last sample before it is
  constructor
  · intro hgap
    obtain ⟨hstart, hend⟩ := hwindow hgap
    obtain ⟨g, hg, -⟩ | ⟨s, hlast, hs⟩ := (mem_gapsFrom hsorted (by simp) hend).mp hgap
    · cases hg
    · rw [(isLast_cursors hstep hstart hend s).mp hlast] at hs
      exact ⟨hstart, hend, hs⟩
  · rintro ⟨hstart, hend, hs⟩
    exact (mem_gapsFrom hsorted (by simp) hend).mpr
      (.inr ⟨_, (isLast_cursors hstep hstart hend _).mpr rfl, hs⟩)

/-- What is reported are gaps of the window. -/
theorem reportedGap_of_sublist {gaps : List (Instant × Instant)} {report : List HealthIssue} {t : Instant}
    (hreport : ∀ issue ∈ report, issue ∈ gaps.map (gapIssue rotation) ∨ issue = truncatedIssue rotation)
    (h : ReportedGap report t) : InGap gaps t := by
  obtain ⟨issue, hissue, hcode, start, hstart, stop, hstop, hle, hlt⟩ := h
  obtain hgap | rfl := hreport issue hissue
  · obtain ⟨gap, hmem, rfl⟩ := List.mem_map.mp hgap
    obtain rfl := Option.some.inj hstart
    obtain rfl := Option.some.inj hstop
    exact ⟨gap, hmem, hle, hlt⟩
  · have hother : "schedule_gap_output_truncated" ≠ "schedule_gap" := by decide
    exact absurd hcode hother

/-- **The report of an enabled rotation says of each instant of the window what was seen at its last
sample; and so it says what is so, where nothing changes from a sample to the next.** -/
theorem schedule_gaps_exact (zoneInfo : String → Option Zone) (db : RotationTables) (rotation : RotationRow)
    (henabled : rotation.enabled = true) (startsAt endsAt : Instant) (sampleMinutes : ℤ) :
    let report := checkRotationScheduleGaps zoneInfo db rotation startsAt endsAt sampleMinutes
    let onCall := hasActiveUser zoneInfo db rotation
    let seen := fun t => onCall (lastSample startsAt (sampleStep sampleMinutes) t)
    GapsShown report startsAt endsAt seen ∧
      ((∀ t, startsAt ≤ t → t < endsAt → onCall t = seen t) → GapsShown report startsAt endsAt onCall) := by
  intro report onCall seen
  have hreport := checkRotationScheduleGaps_eq zoneInfo db rotation henabled startsAt endsAt sampleMinutes
  have hgap := fun t =>
    @inGap_windowGaps zoneInfo db rotation startsAt endsAt sampleMinutes t
  generalize windowGaps zoneInfo db rotation startsAt endsAt sampleMinutes = gaps at hreport hgap
  have hof : ∀ issue ∈ report, issue ∈ gaps.map (gapIssue rotation) ∨ issue = truncatedIssue rotation := by
    intro issue hissue
    rw [show report = _ from hreport] at hissue
    split_ifs at hissue
    · exact .inl hissue
    · obtain htake | htruncated := List.mem_append.mp hissue
      · exact .inl (List.mem_of_mem_take htake)
      · exact .inr (List.mem_singleton.mp htruncated)
  have hshown : GapsShown report startsAt endsAt seen := {
    clean := fun hclean t hstart hend => by
      by_contra hseen
      obtain ⟨gap, hmem, -⟩ := (hgap t).mpr ⟨hstart, hend, Bool.eq_false_iff.mpr hseen⟩
      -- the first gap is shown, however many there are
      obtain ⟨first, rest, rfl⟩ := List.exists_cons_of_ne_nil (List.ne_nil_of_mem hmem)
      refine hclean (gapIssue rotation first) ?_ rfl
      rw [show report = _ from hreport]
      split_ifs
      · exact List.mem_cons_self
      · exact List.mem_append_left _ List.mem_cons_self
    complete := fun t hstart hend hseen => by
      obtain ⟨gap, hmem, hle, hlt⟩ := (hgap t).mpr ⟨hstart, hend, hseen⟩
      rw [show report = _ from hreport]
      split_ifs
      · exact .inl ⟨gapIssue rotation gap, List.mem_map_of_mem hmem, rfl, gap.1, rfl, gap.2, rfl, hle, hlt⟩
      · exact .inr ⟨truncatedIssue rotation, List.mem_append_right _ (List.mem_singleton_self _), rfl⟩
    sound := fun t hreported => (hgap t).mp (reportedGap_of_sublist rotation hof hreported) }
  exact ⟨hshown, fun hsteady => hshown.congr hsteady⟩

end Law

/-! ## A gap between samples -/

/-- From quarter to one until half past midnight of the next day. -/
def quarterGap : RotationTables where
  layers := {
    rows := [{ id := 1, rotation := 1, priority := 0, enabled := true, deleted := false, schedule := {
      rotation := some (.daily 0), startAt := none, durationSeconds := none, rotationType := none,
      intervalValue := none, intervalUnit := none, timezone := none } }]
    next := 2
    nodup := by decide
    lt := by decide }
  members := {
    rows := [{ id := 1, layer := 1, user := 1, position := 0, active := true, startsAt := 0, endsAt := none }]
    next := 2
    nodup := by decide
    lt := by decide }
  restrictions := {
    rows := [⟨1, 1, none, ⟨0, 45, by decide, by decide⟩, ⟨0, 30, by decide, by decide⟩⟩]
    next := 2
    nodup := by decide
    lt := by decide }
  overrides := .empty
  user := fun id => { id := id, active := true, deleted := false }

def primary : RotationRow := ⟨1, "Primary", 1, "platform", true, false⟩

/-- What hourly samples see. -/
theorem quarter_gap_report :
    GapsShown (checkRotationScheduleGaps (fun _ => some .utc) quarterGap primary 0 (seconds 7200) 60) 0
      (seconds 7200)
      fun t => hasActiveUser (fun _ => some .utc) quarterGap primary (lastSample 0 (sampleStep 60) t) :=
  (schedule_gaps_exact (fun _ => some .utc) quarterGap primary rfl 0 (seconds 7200) 60).1

/-- They do not see that nobody is on call for a quarter of an hour. -/
theorem quarter_gap_unseen :
    ¬GapsShown (checkRotationScheduleGaps (fun _ => some .utc) quarterGap primary 0 (seconds 7200) 60) 0
      (seconds 7200) (hasActiveUser (fun _ => some .utc) quarterGap primary) := by
  have hreport : checkRotationScheduleGaps (fun _ => some .utc) quarterGap primary 0 (seconds 7200) 60 = [] := by
    decide +kernel
  have hnobody : hasActiveUser (fun _ => some .utc) quarterGap primary (seconds 2100) = false := by
    decide +kernel
  rw [hreport]
  intro hshown
  have hsomebody := hshown.clean (fun _ h => absurd h List.not_mem_nil) (seconds 2100) (by decide) (by decide)
  rw [hnobody] at hsomebody
  exact Bool.false_ne_true hsomebody

end IncidentRelay.Rotations
