import IncidentRelay.Lib.Binary64
import IncidentRelay.Lib.Zone
import IncidentRelay.Pending.Row

/-!
# The slots of a layer

`layer_slot_index` counts the hand-offs up to an instant, `next_layer_boundary_utc` is the
instant of the next one. Day and week cadences are counted on the local clock, the others in UTC;
the first converts instants to the local clock, the second local times to instants.

## Results

 * `slots_agree_iff`: up to a horizon the two agree iff no change of the offset repeats the local
   time of a hand-off or leaves it out, or puts the clock back behind the start.
 * `skipped_handOff_early`: a hand-off that the clock leaves out is counted too early.
-/

namespace IncidentRelay.Rotations

/-- `start_at`, without a zone or with one. -/
inductive ScheduleStart where
  | naive (wall : Instant)
  | aware (utc : Instant)
  deriving DecidableEq

structure Rotation where
  startAt : ScheduleStart
  durationSeconds : ℤ
  rotationType : String
  intervalValue : ℤ
  intervalUnit : String
  timezone : String

/-- The defaults of the columns. -/
def Rotation.daily (startAt : Instant) : Rotation where
  startAt := .naive startAt
  durationSeconds := 86400
  rotationType := "daily"
  intervalValue := 1
  intervalUnit := "days"
  timezone := "UTC"

structure RotationLayer where
  rotation : Option Rotation
  startAt : Option ScheduleStart
  durationSeconds : Option ℤ
  rotationType : Option String
  intervalValue : Option ℤ
  intervalUnit : Option String
  timezone : Option String

/-! ## The settings of a layer -/

/-- `value not in (None, "")` -/
def given (value : Option String) : Option String := value.filter (· ≠ "")

/-- `effective_layer_value(layer, field_name, default)` -/
def effectiveLayerValue {α : Type} (own parent default : Option α) : Option α :=
  own.or (parent.or default)

section Settings

variable (zoneInfo : String → Option Zone) (layer : RotationLayer)

/-- `timezone_or_utc(timezone_name)`, which `ZoneInfo` may not know. -/
def timezoneOrUtc (timezoneName : String) : Zone :=
  (zoneInfo (if timezoneName = "" then "UTC" else timezoneName)).getD .utc

/-- `layer_timezone_name(layer)` -/
def layerTimezoneName : String :=
  (effectiveLayerValue (given layer.timezone) (given (layer.rotation.map (·.timezone)))
    (some "UTC")).getD "UTC"

/-- `layer_timezone(layer)` -/
def layerTimezone : Zone := timezoneOrUtc zoneInfo (layerTimezoneName layer)

def layerStartAt : Option ScheduleStart :=
  effectiveLayerValue layer.startAt (layer.rotation.map (·.startAt)) none

/-- `layer_start_local_naive(layer)`, of a start. -/
def ScheduleStart.localNaive (zone : Zone) : ScheduleStart → ℤ
  | .naive wall => wall
  | .aware utc => zone.toLocal utc

/-- `layer_start_utc_naive(layer)`, of a start. -/
def ScheduleStart.utcNaive (zone : Zone) : ScheduleStart → ℤ
  | .naive wall => zone.toUtc wall
  | .aware utc => utc

/-- `layer_duration_seconds(layer)` -/
def layerDurationSeconds : ℤ :=
  let value := (effectiveLayerValue layer.durationSeconds
    (layer.rotation.map (·.durationSeconds)) (some 86400)).getD 86400
  if 0 < value then value else 86400

/-- `_calendar_interval(layer)`, in seconds. -/
def calendarInterval : Option ℤ :=
  let rotationType := (effectiveLayerValue (given layer.rotationType)
    (given (layer.rotation.map (·.rotationType))) (some "daily")).getD "daily"
  if rotationType = "daily" then
    if layerDurationSeconds layer = 86400 then some 86400 else none
  else if rotationType = "weekly" then
    if layerDurationSeconds layer = 604800 then some 604800 else none
  else if rotationType ≠ "custom" then none
  else
    let unit := (effectiveLayerValue (given layer.intervalUnit)
      (given (layer.rotation.map (·.intervalUnit))) (some "days")).getD "days"
    -- `or 1`: a zero counts as one, as the maximum says already
    let value := max 1 ((effectiveLayerValue layer.intervalValue
      (layer.rotation.map (·.intervalValue)) (some 1)).getD 1)
    if unit = "days" then some (value * 86400)
    else if unit = "weeks" then some (value * 604800)
    else none

/-! ## Slots and boundaries -/

/-- `int(elapsed.total_seconds())`, a quotient of double precision. -/
def wholeSeconds (elapsed : ℤ) : ℤ := truncate (binary64 ((elapsed : ℚ) / 1000000))

/-- `layer_slot_index(layer, at)` -/
def layerSlotIndex (at' : Instant) : Option ℤ :=
  match layerStartAt layer with
  | none => some 0
  | some start =>
    let zone := layerTimezone zoneInfo layer
    if at' < start.utcNaive zone then none
    else
      match calendarInterval layer with
      | some interval =>
        some (wholeSeconds (zone.toLocal at' - start.localNaive zone) / interval)
      | none => some (wholeSeconds (at' - start.utcNaive zone) / layerDurationSeconds layer)

/-- `next_layer_boundary_utc(layer, at)` -/
def nextLayerBoundaryUtc (at' : Instant) : Option Instant :=
  (layerStartAt layer).bind fun start =>
    let zone := layerTimezone zoneInfo layer
    if at' < start.utcNaive zone then some (start.utcNaive zone)
    else
      (layerSlotIndex zoneInfo layer at').map fun slot =>
        match calendarInterval layer with
        | some interval => zone.toUtc (start.localNaive zone + seconds (interval * (slot + 1)))
        | none => start.utcNaive zone + seconds (layerDurationSeconds layer * (slot + 1))

end Settings

/-! ## The clock of a layer -/

section Clock

variable (zoneInfo : String → Option Zone) (layer : RotationLayer) (start : ScheduleStart)

/-- The seconds from one hand-off to the next. -/
def cadence : ℤ := (calendarInterval layer).getD (layerDurationSeconds layer)

/-- The time since the start, by the clock that the slots are counted on. -/
def elapsed (t : Instant) : ℤ :=
  let zone := layerTimezone zoneInfo layer
  match calendarInterval layer with
  | some _ => zone.toLocal t - start.localNaive zone
  | none => t - start.utcNaive zone

/-- The slot of an instant from the start on. -/
def slotCount (t : Instant) : ℤ := wholeSeconds (elapsed zoneInfo layer start t) / cadence layer

/-- The instant that the time of a hand-off is converted to. -/
def handOffUtc (k : ℤ) : ℤ :=
  let zone := layerTimezone zoneInfo layer
  match calendarInterval layer with
  | some interval => zone.toUtc (start.localNaive zone + seconds (interval * k))
  | none => start.utcNaive zone + seconds (layerDurationSeconds layer * k)

/-- A slot lasts at least a second. -/
theorem layerDurationSeconds_pos : 0 < layerDurationSeconds layer := by
  unfold layerDurationSeconds
  dsimp only
  split_ifs with h
  · exact h
  · norm_num

theorem cadence_pos : 0 < cadence layer := by
  have hduration := layerDurationSeconds_pos layer
  unfold cadence calendarInterval
  dsimp only
  split_ifs <;> simp only [Option.getD_some, Option.getD_none] <;> omega

variable {zoneInfo layer start} {t : ℤ}

/-- The index is the count of hand-offs since the start, and none before it. -/
theorem layerSlotIndex_eq (hstart : layerStartAt layer = some start) :
    layerSlotIndex zoneInfo layer t =
      if t < start.utcNaive (layerTimezone zoneInfo layer) then none
      else some (slotCount zoneInfo layer start t) := by
  unfold layerSlotIndex slotCount elapsed cadence
  rw [hstart]
  cases calendarInterval layer <;> rfl

/-- The next boundary is the start, or the hand-off after those counted. -/
theorem nextLayerBoundaryUtc_eq (hstart : layerStartAt layer = some start) :
    nextLayerBoundaryUtc zoneInfo layer t =
      if t < start.utcNaive (layerTimezone zoneInfo layer) then
        some (start.utcNaive (layerTimezone zoneInfo layer))
      else some (handOffUtc zoneInfo layer start (slotCount zoneInfo layer start t + 1)) := by
  unfold nextLayerBoundaryUtc handOffUtc
  rw [hstart, layerSlotIndex_eq hstart, Option.bind_some]
  dsimp only
  split_ifs with ht
  · rfl
  · cases calendarInterval layer <;> rfl

end Clock

/-! ## Whole seconds -/

section WholeSeconds

variable {n elapsed : ℤ}

theorem wholeSeconds_neg (elapsed : ℤ) : wholeSeconds (-elapsed) = -wholeSeconds elapsed := by
  unfold wholeSeconds
  rw [Int.cast_neg, neg_div, binary64_neg, truncate_neg]

/-- The clock counts whole seconds as they are, up to 2 ^ 32. -/
theorem le_wholeSeconds_iff (hn : 0 < n) (hmax : n ≤ 2 ^ 32) :
    n ≤ wholeSeconds elapsed ↔ seconds n ≤ elapsed := by
  unfold wholeSeconds seconds
  rcases lt_or_ge elapsed 0 with hneg | hnonneg
  · -- rounded, the time before the start is not after it
    have hvalue : binary64 ((elapsed : ℚ) / 1000000) ≤ 0 := by
      refine binary64_nonpos (div_nonpos_of_nonpos_of_nonneg ?_ (by norm_num))
      exact_mod_cast hneg.le
    refine iff_of_false (not_le_of_gt ((truncate_nonpos hvalue).trans_lt hn)) (by omega)
  -- elapsed time is a quotient of microseconds, whose floor is exact below 2 ^ 52
  obtain ⟨m, rfl⟩ := Int.eq_ofNat_of_zero_le hnonneg
  have hquotient : (0 : ℚ) ≤ ((m : ℤ) : ℚ) / 1000000 :=
    div_nonneg (by exact_mod_cast Int.natCast_nonneg m) (by norm_num)
  rw [truncate, if_pos (binary64_nonneg hquotient)]
  rcases lt_or_ge m (2 ^ 52) with hsmall | hlarge
  · have hfloor := floor_binary64_div hsmall (n := 1000000) (by norm_num) (by norm_num)
    have heq : ⌊binary64 (((m : ℤ) : ℚ) / 1000000)⌋ = ((m / 1000000 : ℕ) : ℤ) := by
      rw [Int.cast_natCast]
      exact_mod_cast hfloor
    rw [heq]
    omega
  · -- the rounding error is less than what is above 2 ^ 32
    refine iff_of_true (Int.le_floor.mpr ?_) (by omega)
    have hm : (2 ^ 52 : ℚ) ≤ m := by exact_mod_cast hlarge
    have hpos : (0 : ℚ) < ((m : ℤ) : ℚ) / 1000000 := by
      rw [Int.cast_natCast]
      positivity
    have herror := (abs_le.mp (abs_binary64_sub_le hpos)).1
    have htiny : (2 : ℚ) ^ (-1075 : ℤ) ≤ 1 := zpow_le_one_of_nonpos₀ (by norm_num) (by norm_num)
    have hbound : (n : ℚ) ≤ 2 ^ 32 := by exact_mod_cast hmax
    rw [Int.cast_natCast] at herror ⊢
    linarith

/-- As long as fewer than 2 ^ 32 seconds have passed, any number of them. -/
theorem le_wholeSeconds_iff_of_lt (hn : 0 < n) (hnear : elapsed < seconds (2 ^ 32)) :
    n ≤ wholeSeconds elapsed ↔ seconds n ≤ elapsed := by
  rcases le_or_gt n (2 ^ 32) with hsmall | hlarge
  · exact le_wholeSeconds_iff hn hsmall
  · have hbound : ¬2 ^ 32 ≤ wholeSeconds elapsed :=
      (not_congr (le_wholeSeconds_iff (by norm_num) le_rfl)).mpr (not_le_of_gt hnear)
    unfold seconds at hnear ⊢
    exact iff_of_false (by omega) (by omega)

/-- Less than a second before the start no second is missing yet, since it is cut off. -/
theorem wholeSeconds_nonneg_iff : 0 ≤ wholeSeconds elapsed ↔ -seconds 1 < elapsed := by
  have hone : 1 ≤ wholeSeconds (-elapsed) ↔ seconds 1 ≤ -elapsed :=
    le_wholeSeconds_iff one_pos (by norm_num)
  rw [wholeSeconds_neg] at hone
  omega

end WholeSeconds

/-! ## The start on the clock -/

section Start

variable {zone : Zone} {j : ℤ} {start : ScheduleStart} {c : Turn}

/-- A change before the start turns over nothing but times before it, or the start itself. -/
theorem ScheduleStart.earlier_le_localNaive (hapart : zone.Apart j) (hc : c ∈ zone.turns)
    (h : c.instant ≤ start.utcNaive zone) : c.earlier ≤ start.localNaive zone := by
  cases start with
  | naive wall => exact c.earlier_le_before.trans ((hapart.le_toUtc_iff hc).mp h)
  | aware utc => exact hapart.earlier_le_toLocal hc h

/-- A start before a turn of the clock reads less than the turn. -/
theorem ScheduleStart.localNaive_lt (hapart : zone.Apart j) (hc : c ∈ zone.turns)
    (h : start.utcNaive zone < c.instant) : start.localNaive zone < c.instant + c.before := by
  cases start with
  | naive wall => exact lt_of_not_ge fun hle => not_le_of_gt h ((hapart.le_toUtc_iff hc).mpr hle)
  | aware utc => exact hapart.toLocal_lt hc h

/-- At the start the clock shows it, or a later time if it leaves it out. -/
theorem ScheduleStart.localNaive_le (hapart : zone.Apart j) :
    start.localNaive zone ≤ zone.toLocal (start.utcNaive zone) := by
  cases start with
  | naive wall => exact hapart.le_toLocal_toUtc
  | aware utc => exact le_rfl

end Start

/-! ## Slots up to a horizon -/

section Agreement

/-- `None` comes before every slot. -/
def NotLater (a b : Option ℤ) : Prop := ∀ k ∈ a, ∃ l ∈ b, k ≤ l

def Sooner (a b : Option ℤ) : Prop := ∃ l ∈ b, ∀ k ∈ a, k < l

variable (zoneInfo : String → Option Zone) (layer : RotationLayer)

/-- The slot never decreases, and grows at the boundaries and nowhere else. -/
structure SlotsAgree : Prop where
  monotone : ∀ s t, s ≤ t → NotLater (layerSlotIndex zoneInfo layer s) (layerSlotIndex zoneInfo layer t)
  boundary : ∀ t, ∀ b ∈ nextLayerBoundaryUtc zoneInfo layer t, t < b ∧
    (∀ u, t ≤ u → u < b → layerSlotIndex zoneInfo layer u = layerSlotIndex zoneInfo layer t) ∧
    Sooner (layerSlotIndex zoneInfo layer t) (layerSlotIndex zoneInfo layer b)

/-- The same, of the instants up to a horizon. -/
structure SlotsAgreeUntil (horizon : Instant) : Prop where
  monotone : ∀ s t, s ≤ t → t ≤ horizon →
    NotLater (layerSlotIndex zoneInfo layer s) (layerSlotIndex zoneInfo layer t)
  boundary : ∀ t ≤ horizon, ∀ b ∈ nextLayerBoundaryUtc zoneInfo layer t, t < b ∧
    (∀ u, t ≤ u → u < b → u ≤ horizon →
      layerSlotIndex zoneInfo layer u = layerSlotIndex zoneInfo layer t) ∧
    (b ≤ horizon → Sooner (layerSlotIndex zoneInfo layer t) (layerSlotIndex zoneInfo layer b))

/-- Agreement for good is agreement up to every horizon. -/
theorem slotsAgree_iff_until :
    SlotsAgree zoneInfo layer ↔ ∀ horizon, SlotsAgreeUntil zoneInfo layer horizon := by
  constructor
  · intro h horizon
    refine ⟨fun s t hst _ => h.monotone s t hst, fun t _ b hb => ?_⟩
    obtain ⟨hlt, hconstant, hsooner⟩ := h.boundary t b hb
    exact ⟨hlt, fun u htu hub _ => hconstant u htu hub, fun _ => hsooner⟩
  · intro h
    refine ⟨fun s t hst => (h t).monotone s t hst le_rfl, fun t b hb => ?_⟩
    -- the boundary itself is a horizon for all that is said about it
    obtain ⟨hlt, -⟩ := (h t).boundary t le_rfl b hb
    obtain ⟨-, hconstant, hsooner⟩ := (h b).boundary t hlt.le b hb
    exact ⟨hlt, fun u htu hub => hconstant u htu hub hub.le, hsooner le_rfl⟩

/-- No change of the offset between the start and the horizon puts the clock back behind the
start, by a second or more, and none repeats the local time of a hand-off or leaves it out. -/
structure HandOffsClear (start : ScheduleStart) (interval : ℤ) (horizon : Instant) : Prop where
  started : ∀ c ∈ (layerTimezone zoneInfo layer).turns,
    start.utcNaive (layerTimezone zoneInfo layer) < c.instant → c.instant ≤ horizon →
    ¬(c.earlier + seconds 1 ≤ start.localNaive (layerTimezone zoneInfo layer) ∧
      start.localNaive (layerTimezone zoneInfo layer) < c.later)
  handOff : ∀ k, 0 < k → ∀ c ∈ (layerTimezone zoneInfo layer).turns,
    start.utcNaive (layerTimezone zoneInfo layer) < c.instant → c.instant ≤ horizon →
    ¬(c.earlier < start.localNaive (layerTimezone zoneInfo layer) + seconds (interval * k) ∧
      start.localNaive (layerTimezone zoneInfo layer) + seconds (interval * k) < c.later)

variable {zoneInfo layer} {start : ScheduleStart} {horizon t interval k : ℤ}

/-- If the counts grow at the hand-offs, so do the slots at the boundaries. -/
theorem slotsAgreeUntil_of_reached (hstart : layerStartAt layer = some start)
    (hreached : ∀ s, start.utcNaive (layerTimezone zoneInfo layer) ≤ s → s ≤ horizon →
      ∀ t, start.utcNaive (layerTimezone zoneInfo layer) ≤ t → t ≤ horizon →
        (slotCount zoneInfo layer start s + 1 ≤ slotCount zoneInfo layer start t ↔
          handOffUtc zoneInfo layer start (slotCount zoneInfo layer start s + 1) ≤ t)) :
    SlotsAgreeUntil zoneInfo layer horizon := by
  have hslot : ∀ t, layerSlotIndex zoneInfo layer t = _ := fun t => layerSlotIndex_eq hstart
  have hnext : ∀ t, nextLayerBoundaryUtc zoneInfo layer t = _ := fun t => nextLayerBoundaryUtc_eq hstart
  generalize start.utcNaive (layerTimezone zoneInfo layer) = first at *
  have hadvance : ∀ t, first ≤ t → t ≤ horizon →
      t < handOffUtc zoneInfo layer start (slotCount zoneInfo layer start t + 1) := by
    intro t ht hth
    refine lt_of_not_ge fun hle => ?_
    have hcount := (hreached t ht hth t ht hth).mpr hle
    omega
  have hmonotone : ∀ s t, first ≤ s → s ≤ t → t ≤ horizon →
      slotCount zoneInfo layer start s ≤ slotCount zoneInfo layer start t := by
    intro s t hs hst hth
    refine le_of_not_gt fun hless => ?_
    -- the count of `t` was exceeded at `s`, so its hand-off has passed
    have ht := hs.trans hst
    have hsh := hst.trans hth
    have hpassed := (hreached t ht hth s hs hsh).mp hless
    have hcount := (hreached t ht hth t ht hth).mpr (hpassed.trans hst)
    omega
  refine ⟨?_, ?_⟩
  · intro s t hst hth k hk
    rw [hslot] at hk
    split_ifs at hk with hs
    · cases hk
    · cases hk
      have ht := (le_of_not_gt hs).trans hst
      refine ⟨_, ?_, hmonotone s t (le_of_not_gt hs) hst hth⟩
      rw [hslot, if_neg (not_lt_of_ge ht)]
      rfl
  · intro t hth b hb
    rw [hnext] at hb
    split_ifs at hb with ht
    · -- the schedule has not started, and starts at the boundary
      cases hb
      refine ⟨ht, fun u _ hu _ => by rw [hslot, hslot, if_pos hu, if_pos ht], fun _ => ?_⟩
      refine ⟨slotCount zoneInfo layer start first, ?_, ?_⟩
      · rw [hslot, if_neg (lt_irrefl _)]
        rfl
      · rw [hslot, if_pos ht]
        exact nofun
    · cases hb
      have hfirst := le_of_not_gt ht
      have hlt := hadvance t hfirst hth
      refine ⟨hlt, ?_, fun hbh => ?_⟩
      · intro u htu hu huh
        have hnot := (not_congr (hreached t hfirst hth u (hfirst.trans htu) huh)).mpr (not_le_of_gt hu)
        have hle := hmonotone t u hfirst htu huh
        rw [hslot, hslot, if_neg ht, if_neg (not_lt_of_ge (hfirst.trans htu))]
        exact congrArg some (by omega)
      · have hafter := hfirst.trans hlt.le
        refine ⟨slotCount zoneInfo layer start
          (handOffUtc zoneInfo layer start (slotCount zoneInfo layer start t + 1)), ?_, ?_⟩
        · rw [hslot, if_neg (not_lt_of_ge hafter)]
          rfl
        · rw [hslot, if_neg ht]
          intro k hk
          cases hk
          exact (hreached t hfirst hth _ hafter hbh).mpr le_rfl

section Until

variable (hagree : SlotsAgreeUntil zoneInfo layer horizon) (hstart : layerStartAt layer = some start)

include hagree hstart

/-- Where they agree the count never goes back. -/
theorem SlotsAgreeUntil.count_le {s : ℤ}
    (hs : start.utcNaive (layerTimezone zoneInfo layer) ≤ s) (hst : s ≤ t) (ht : t ≤ horizon) :
    slotCount zoneInfo layer start s ≤ slotCount zoneInfo layer start t := by
  have hle := hagree.monotone s t hst ht
  rw [layerSlotIndex_eq hstart, layerSlotIndex_eq hstart, if_neg (not_lt_of_ge hs),
    if_neg (not_lt_of_ge (hs.trans hst))] at hle
  obtain ⟨l, hl, hkl⟩ := hle _ rfl
  cases hl
  exact hkl

/-- The next hand-off is in the future. -/
theorem SlotsAgreeUntil.lt_handOff (ht : start.utcNaive (layerTimezone zoneInfo layer) ≤ t)
    (hth : t ≤ horizon) : t < handOffUtc zoneInfo layer start (slotCount zoneInfo layer start t + 1) := by
  refine (hagree.boundary t hth _ ?_).1
  rw [nextLayerBoundaryUtc_eq hstart, if_neg (not_lt_of_ge ht)]
  rfl

theorem SlotsAgreeUntil.count_eq {u : ℤ}
    (ht : start.utcNaive (layerTimezone zoneInfo layer) ≤ t) (htu : t ≤ u)
    (hu : u < handOffUtc zoneInfo layer start (slotCount zoneInfo layer start t + 1))
    (huh : u ≤ horizon) : slotCount zoneInfo layer start u = slotCount zoneInfo layer start t := by
  have hsame := (hagree.boundary t (htu.trans huh) _ (by
    rw [nextLayerBoundaryUtc_eq hstart, if_neg (not_lt_of_ge ht)]
    rfl)).2.1 u htu hu huh
  rw [layerSlotIndex_eq hstart, layerSlotIndex_eq hstart, if_neg (not_lt_of_ge ht),
    if_neg (not_lt_of_ge (ht.trans htu))] at hsame
  exact Option.some.inj hsame

end Until

/-! ## Cadences by the local clock -/

/-- So many hand-offs are counted when the clock has shown so many intervals. -/
theorem le_slotCount_iff (hk : 0 < k) (hnear : elapsed zoneInfo layer start t < seconds (2 ^ 32)) :
    k ≤ slotCount zoneInfo layer start t ↔
      seconds (cadence layer * k) ≤ elapsed zoneInfo layer start t := by
  have hpos := cadence_pos layer
  unfold slotCount
  rw [Int.le_ediv_iff_mul_le hpos, mul_comm, le_wholeSeconds_iff_of_lt (mul_pos hpos hk) hnear]

theorem slotCount_nonneg_iff : 0 ≤ slotCount zoneInfo layer start t ↔
    -seconds 1 < elapsed zoneInfo layer start t := by
  unfold slotCount
  rw [Int.le_ediv_iff_mul_le (cadence_pos layer), zero_mul, wholeSeconds_nonneg_iff]

section Calendar

variable (hinterval : calendarInterval layer = some interval)

include hinterval

theorem cadence_eq : cadence layer = interval := by
  unfold cadence
  rw [hinterval]
  rfl

theorem interval_pos : 0 < interval :=
  cadence_eq hinterval ▸ cadence_pos layer

theorem elapsed_eq : elapsed zoneInfo layer start t =
    (layerTimezone zoneInfo layer).toLocal t - start.localNaive (layerTimezone zoneInfo layer) := by
  unfold elapsed
  rw [hinterval]

theorem handOffUtc_eq : handOffUtc zoneInfo layer start k = (layerTimezone zoneInfo layer).toUtc
    (start.localNaive (layerTimezone zoneInfo layer) + seconds (interval * k)) := by
  unfold handOffUtc
  rw [hinterval]

/-- The slot of a hand-off is reached when the clock shows it. -/
theorem le_slotCount_iff_toLocal (hk : 0 < k)
    (hnear : elapsed zoneInfo layer start t < seconds (2 ^ 32)) :
    k ≤ slotCount zoneInfo layer start t ↔
      start.localNaive (layerTimezone zoneInfo layer) + seconds (interval * k) ≤
        (layerTimezone zoneInfo layer).toLocal t := by
  rw [le_slotCount_iff hk hnear, cadence_eq hinterval, elapsed_eq hinterval]
  exact le_sub_iff_add_le'

variable (hapart : (layerTimezone zoneInfo layer).Apart (seconds interval))

include hapart

/-- From the start on no slot is negative, if the clock is not put back behind the start. -/
theorem slotCount_nonneg (hclear : HandOffsClear zoneInfo layer start interval horizon)
    (ht : start.utcNaive (layerTimezone zoneInfo layer) ≤ t) (hth : t ≤ horizon) :
    0 ≤ slotCount zoneInfo layer start t := by
  rw [slotCount_nonneg_iff, elapsed_eq hinterval]
  obtain hgone | ⟨c, hc, hfirst, hct, hearlier⟩ := Zone.toLocal_cases (z := layerTimezone zoneInfo layer) ht
  · have hbegin := @ScheduleStart.localNaive_le _ _ start hapart
    unfold seconds
    omega
  · -- the last change came after the start, which lies before all that it turned over
    have hstarted := hclear.started c hc hfirst (hct.trans hth)
    have hlater := (ScheduleStart.localNaive_lt hapart hc hfirst).trans_le c.before_le_later
    omega

/-- The boundary of an instant is the next hand-off, wherever no change turns it over. -/
theorem slotsAgreeUntil_of_clear
    (hnear : ∀ t ≤ horizon, elapsed zoneInfo layer start t < seconds (2 ^ 32)) (hstart : layerStartAt layer = some start)
    (hclear : HandOffsClear zoneInfo layer start interval horizon) :
    SlotsAgreeUntil zoneInfo layer horizon := by
  -- it is enough that a hand-off is counted exactly from its time on
  refine slotsAgreeUntil_of_reached hstart fun s hs hsh t ht hth => ?_
  have hnonneg := slotCount_nonneg hinterval hapart hclear hs hsh
  have hk : 0 < slotCount zoneInfo layer start s + 1 := by omega
  generalize slotCount zoneInfo layer start s + 1 = k at hk
  rw [le_slotCount_iff_toLocal hinterval hk (hnear t hth), handOffUtc_eq hinterval]
  refine (hapart.toUtc_le_iff (fun c hc hch => ?_) hth).symm
  -- a change of the clock is before the start, or after it and clear of the hand-offs
  rcases le_or_gt c.instant (start.utcNaive (layerTimezone zoneInfo layer)) with hbefore | hafter
  · -- what a change before the start turns over is past one interval after the start
    have hearlier := ScheduleStart.earlier_le_localNaive hapart hc hbefore
    have hjump := hapart.jump_le c hc
    have hmul : interval ≤ interval * k := le_mul_of_one_le_right (interval_pos hinterval).le hk
    unfold Turn.jump at hjump
    unfold seconds at hjump ⊢
    omega
  · have hhandOff := hclear.handOff k hk c hc hafter hch
    omega

/-- A clock that is put back behind the start counts back. -/
theorem started_of_agree (hstart : layerStartAt layer = some start)
    (hagree : SlotsAgreeUntil zoneInfo layer horizon) {c : Turn}
    (hc : c ∈ (layerTimezone zoneInfo layer).turns)
    (hfirst : start.utcNaive (layerTimezone zoneInfo layer) < c.instant) (hch : c.instant ≤ horizon) :
    ¬(c.earlier + seconds 1 ≤ start.localNaive (layerTimezone zoneInfo layer) ∧
      start.localNaive (layerTimezone zoneInfo layer) < c.later) := by
  -- at the change the clock would go back behind the start
  rintro ⟨hearlier, -⟩
  have hbefore := ScheduleStart.localNaive_lt hapart hc hfirst
  have hshown := Zone.toLocal_instant hc
  have hback : c.earlier = c.instant + c.after := by
    have hdef : c.earlier = c.instant + min c.before c.after := rfl
    unfold seconds at hearlier
    omega
  have hbegin : 0 ≤ slotCount zoneInfo layer start
      (start.utcNaive (layerTimezone zoneInfo layer)) := by
    have hle := @ScheduleStart.localNaive_le _ _ start hapart
    rw [slotCount_nonneg_iff, elapsed_eq hinterval]
    unfold seconds
    omega
  have hless : ¬0 ≤ slotCount zoneInfo layer start c.instant := by
    rw [slotCount_nonneg_iff, elapsed_eq hinterval]
    omega
  have hmonotone := hagree.count_le hstart le_rfl hfirst.le hch
  omega

/-- A hand-off that is repeated is counted back, one that is left out is counted too early. -/
theorem handOff_of_agree (hstart : layerStartAt layer = some start)
    (hnear : ∀ t ≤ horizon, elapsed zoneInfo layer start t < seconds (2 ^ 32))
    (hagree : SlotsAgreeUntil zoneInfo layer horizon) (hk : 0 < k) {c : Turn}
    (hc : c ∈ (layerTimezone zoneInfo layer).turns)
    (hfirst : start.utcNaive (layerTimezone zoneInfo layer) < c.instant) (hch : c.instant ≤ horizon) :
    ¬(c.earlier < start.localNaive (layerTimezone zoneInfo layer) + seconds (interval * k) ∧
      start.localNaive (layerTimezone zoneInfo layer) + seconds (interval * k) < c.later) := by
  rintro ⟨hearlier, hlater⟩
  have hlast : start.utcNaive (layerTimezone zoneInfo layer) ≤ c.instant - 1 := by omega
  have hlasth : c.instant - 1 ≤ horizon := by omega
  have hshown := Zone.toLocal_instant hc
  have hshownLast := Zone.toLocal_last hc
  have hat := le_slotCount_iff_toLocal hinterval hk (hnear _ hch)
  have hatLast := le_slotCount_iff_toLocal hinterval hk (hnear _ hlasth)
  have hdef : c.earlier = c.instant + min c.before c.after := rfl
  have hdef' : c.later = c.instant + max c.before c.after := rfl
  have hmonotone := hagree.count_le hstart hlast (sub_one_lt _).le hch
  rcases le_or_gt c.after c.before with hback | hforward
  · -- reached in the last instant before the change, and not any more after it
    have hreached : k ≤ slotCount zoneInfo layer start (c.instant - 1) := hatLast.mpr (by omega)
    have hlost : ¬k ≤ slotCount zoneInfo layer start c.instant := fun h => by
      have hclock := hat.mp h
      omega
    omega
  · have hreached : k ≤ slotCount zoneInfo layer start c.instant := hat.mpr (by omega)
    have hahead : ¬k ≤ slotCount zoneInfo layer start (c.instant - 1) := fun h => by
      have hclock := hatLast.mp h
      omega
    -- the boundary is not after the change, where the slot is another one
    have hboundary : handOffUtc zoneInfo layer start
        (slotCount zoneInfo layer start (c.instant - 1) + 1) ≤ c.instant := by
      refine le_of_not_gt fun hlt => ?_
      have hsame := hagree.count_eq hstart hlast (sub_one_lt _).le hlt hch
      omega
    have hadvance := hagree.lt_handOff hstart hlast hlasth
    have hslot : slotCount zoneInfo layer start (c.instant - 1) + 1 ≤ k := by omega
    generalize slotCount zoneInfo layer start (c.instant - 1) + 1 = n at hboundary hadvance hslot
    rw [handOffUtc_eq hinterval] at hboundary hadvance
    obtain rfl | hless := eq_or_lt_of_le hslot
    · -- the hand-off itself is converted to an instant after the change
      rw [hapart.toUtc_eq hc hearlier.le hlater] at hboundary
      omega
    · -- the ones before it come before the change
      have hjump := hapart.jump_le c hc
      have hmul : interval * n + interval ≤ interval * k := by
        have hle := mul_le_mul_of_nonneg_left (show n + 1 ≤ k from hless) (interval_pos hinterval).le
        rwa [mul_add, mul_one] at hle
      have hinstant := (hapart.le_toUtc_iff hc).mp (Int.le_of_sub_one_lt hadvance)
      unfold Turn.jump at hjump
      unfold seconds at hjump hinstant hlater
      omega

end Calendar

/-- By a fixed cadence the slots grow at the boundaries. -/
theorem slotsAgreeUntil_of_fixed (hstart : layerStartAt layer = some start)
    (hinterval : calendarInterval layer = none)
    (hnear : ∀ t ≤ horizon, elapsed zoneInfo layer start t < seconds (2 ^ 32)) :
    SlotsAgreeUntil zoneInfo layer horizon := by
  -- without a calendar interval seconds elapse as they pass
  have helapsed : ∀ t, elapsed zoneInfo layer start t =
      t - start.utcNaive (layerTimezone zoneInfo layer) := fun t => by
    unfold elapsed
    rw [hinterval]
  refine slotsAgreeUntil_of_reached hstart fun s hs hsh t ht hth => ?_
  have hnonneg : 0 ≤ slotCount zoneInfo layer start s := by
    rw [slotCount_nonneg_iff, helapsed]
    unfold seconds
    omega
  have hcadence : cadence layer = layerDurationSeconds layer := by
    unfold cadence
    rw [hinterval]
    rfl
  rw [le_slotCount_iff (by omega) (hnear t hth), helapsed, hcadence]
  unfold handOffUtc
  rw [hinterval]
  exact le_sub_iff_add_le'

/-! ## Main results -/

/-- **Up to a horizon slots and boundaries agree iff no change of the offset repeats the local
time of a hand-off or leaves it out, or puts the clock back behind the start**; with a fixed
cadence they always do. The changes of the zone lie apart, and the horizon less than 2 ^ 32
seconds after the start. -/
theorem slots_agree_iff (zoneInfo : String → Option Zone) (layer : RotationLayer) (horizon : Instant)
    (hapart : ∀ interval ∈ calendarInterval layer,
      (layerTimezone zoneInfo layer).Apart (seconds interval))
    (hnear : ∀ start ∈ layerStartAt layer, ∀ t ≤ horizon,
      elapsed zoneInfo layer start t < seconds (2 ^ 32)) :
    SlotsAgreeUntil zoneInfo layer horizon ↔ ∀ start ∈ layerStartAt layer,
      ∀ interval ∈ calendarInterval layer, HandOffsClear zoneInfo layer start interval horizon := by
  cases hstart : layerStartAt layer with
  -- a layer without a start has one slot and no boundaries
  | none =>
    have hslot : ∀ t, layerSlotIndex zoneInfo layer t = some 0 := by
      intro t
      unfold layerSlotIndex
      rw [hstart]
    refine iff_of_true ⟨?_, ?_⟩ nofun
    · intro s t _ _ k hk
      rw [hslot] at hk ⊢
      exact ⟨k, hk, le_rfl⟩
    · intro t _ b hb
      unfold nextLayerBoundaryUtc at hb
      rw [hstart] at hb
      cases hb
  | some start =>
    have hnear := hnear start hstart
    simp only [Option.mem_def, Option.some.injEq, forall_eq']
    -- a fixed cadence does not look at the clock
    cases hinterval : calendarInterval layer with
    | none => exact iff_of_true (slotsAgreeUntil_of_fixed hstart hinterval hnear) nofun
    | some interval =>
      have hapart := hapart interval hinterval
      simp only [Option.some.injEq, forall_eq']
      refine ⟨fun hagree => ⟨fun c hc => ?_, fun k hk c hc => ?_⟩, ?_⟩
      · exact started_of_agree hinterval hapart hstart hagree hc
      · exact handOff_of_agree hinterval hapart hstart hnear hagree hk hc
      · exact slotsAgreeUntil_of_clear hinterval hapart hnear hstart

/-- In central Europe, counted from the midnight before the clocks go forward. -/
def springForward : Zone := ⟨3600000000, [⟨seconds 90000, 7200000000⟩], by simp⟩

/-- Handed off every day at a local time, as the rotation is. -/
def nightly (second : ℤ) : RotationLayer where
  rotation := some (.daily (seconds second))
  startAt := none
  durationSeconds := none
  rotationType := none
  intervalValue := none
  intervalUnit := none
  timezone := some "Europe/Berlin"

/-- Handed off at half past one, an hour before the time that is left out. -/
theorem slots_agree_before_change :
    SlotsAgreeUntil (fun _ => some springForward) (nightly 5400) (seconds 864000) := by
  have hinterval : calendarInterval (nightly 5400) = some 86400 := by decide
  have hturns : (layerTimezone (fun _ => some springForward) (nightly 5400)).turns =
      [⟨seconds 90000, 3600000000, 7200000000⟩] := rfl
  refine (slots_agree_iff _ (nightly 5400) (seconds 864000) ?_ ?_).mpr ?_
  · intro interval h
    cases hinterval.symm.trans h
    refine ⟨?_, ?_⟩ <;> rw [hturns]
    · decide
    · exact .singleton _
  · intro start hstart t ht
    obtain rfl : start = .naive (seconds 5400) := (Option.some.inj hstart).symm
    rw [elapsed_eq hinterval]
    have hshown : (layerTimezone (fun _ => some springForward) (nightly 5400)).toLocal t ≤
        t + 7200000000 := by
      refine add_le_add_right ?_ t
      show (if seconds 90000 ≤ t then 7200000000 else 3600000000) ≤ (7200000000 : ℤ)
      split_ifs <;> decide
    have hwall : ScheduleStart.localNaive (layerTimezone (fun _ => some springForward) (nightly 5400))
        (.naive (seconds 5400)) = 5400000000 := rfl
    have hhorizon : (864000000000 : ℤ) ≥ t := ht
    rw [hwall]
    unfold seconds
    omega
  · intro start hstart interval h
    obtain rfl : start = .naive (seconds 5400) := (Option.some.inj hstart).symm
    cases hinterval.symm.trans h
    refine ⟨?_, ?_⟩
    · rw [hturns]
      decide
    · intro k hk c hc _ _
      rw [hturns] at hc
      obtain rfl := List.mem_singleton.mp hc
      -- the first hand-off comes before all that the change leaves out, the others after it
      rintro ⟨hearlier, hlater⟩
      have hwall : (ScheduleStart.naive (seconds 5400)).localNaive
          (layerTimezone (fun _ => some springForward) (nightly 5400)) = 5400000000 := rfl
      have hbegin : (Turn.mk (seconds 90000) 3600000000 7200000000).earlier = 93600000000 := rfl
      have hend : (Turn.mk (seconds 90000) 3600000000 7200000000).later = 97200000000 := rfl
      rw [hwall, hbegin] at hearlier
      rw [hwall, hend] at hlater
      unfold seconds at hearlier hlater
      omega

/-- **The hand-off that the clock leaves out is counted before its boundary.** -/
theorem skipped_handOff_early : ¬∀ (zoneInfo : String → Option Zone) (layer : RotationLayer),
    SlotsAgree zoneInfo layer := by
  intro h
  have hagree := (h (fun _ => some springForward) (nightly 9000)).boundary (seconds 5400)
    (seconds 91800) (by decide +kernel)
  have hsame := hagree.2.1 (seconds 90000) (by decide) (by decide)
  exact absurd hsame (by decide +kernel)

end Agreement

end IncidentRelay.Rotations
