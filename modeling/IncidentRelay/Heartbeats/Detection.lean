import IncidentRelay.Heartbeats.Monitor

/-!
# Detecting a missed due instant

A scheduled heartbeat is overdue from its deadline, the due instant plus the
grace period, until the next due instant. A tick that meets it between the due
instant and the deadline finds it not overdue and stores the next due instant as
`next_expected_at`; no tick before that instant looks at it again, so the miss
goes unnoticed (`grace_tick_hides_miss`).

 * `scheduled_tick`: what a tick within one due window does to the heartbeat.
 * `missed_due_detected_iff`: a miss is detected exactly when the first tick that
   meets the heartbeat comes at or after the deadline.
 * `metAfterGrace_iff_of_room`: when no batch is cut, that is when no tick comes
   within the grace period.
-/

namespace IncidentRelay.Heartbeats

/-! ## Rows -/

/-- The row of a heartbeat after a tick. -/
theorem mem_processOverdueHeartbeats {s : Store} {t : Tick} {h : Heartbeat}
    (hmem : h ∈ s.heartbeats) :
    (if selects s t h.id then processHeartbeat t.alerts t.now h else h) ∈
      (processOverdueHeartbeats s t).heartbeats := by
  apply Table.mem_update.mpr
  by_cases hsel : selects s t h.id = true
  · rw [if_pos hsel]
    exact ⟨h, hmem, .inl ⟨hsel, rfl⟩⟩
  · rw [if_neg hsel]
    exact ⟨h, hmem, .inr ⟨by simpa using hsel, rfl⟩⟩

/-- A selected row meets the conditions of the query. -/
theorem candidateGuard_of_selects {s : Store} {t : Tick} {h : Heartbeat}
    (hmem : h ∈ s.heartbeats) (hsel : selects s t h.id = true) :
    candidateGuard s t.now t.teamIds h = true := by
  unfold selects listDueHeartbeatCandidates at hsel
  rw [decide_eq_true_eq] at hsel
  obtain ⟨r, hr, hid⟩ := List.mem_map.mp hsel
  have hr' := (List.perm_insertionSort _ _).mem_iff.mp (List.mem_of_mem_take hr)
  rw [List.mem_filter] at hr'
  have hsame : r = h := Table.eq_of_key_eq s.ids_nodup hr'.1 hmem hid
  rw [← hsame]
  exact hr'.2

/-- Being overdue survives a tick. -/
theorem processHeartbeat_overdue {alerts : AlertService} {now : Int} {h : Heartbeat}
    (hover : h.status = .overdue) : (processHeartbeat alerts now h).status = .overdue := by
  unfold processHeartbeat
  split
  · unfold markHeartbeatOverdue
    split
    · exact hover
    · dsimp only
      split <;> rfl
  · exact hover

/-- What is marked is overdue, whatever the alert service answers. -/
theorem markHeartbeatOverdue_status (alerts : AlertService) (now : Int) (h : Heartbeat) :
    (markHeartbeatOverdue alerts now h).status = .overdue := by
  unfold markHeartbeatOverdue
  split
  · rename_i hopen
    exact hopen.1
  · dsimp only
    split <;> rfl

/-! ## One due window -/

/-- The heartbeat with this id has this status. -/
def HasStatus (s : Store) (id : Id) (status : Status) : Prop :=
  ∃ h ∈ s.heartbeats, h.id = id ∧ h.status = status

/-- The status in the store is that of the row. -/
theorem hasStatus_iff {s : Store} {h : Heartbeat} (hmem : h ∈ s.heartbeats) {status : Status} :
    HasStatus s h.id status ↔ h.status = status := by
  constructor
  · rintro ⟨r, hr, hid, hstatus⟩
    rw [← Table.eq_of_key_eq s.ids_nodup hr hmem hid]
    exact hstatus
  · intro hstatus
    exact ⟨h, hmem, rfl, hstatus⟩

/-- A heartbeat that missed its due instant, seen from within the window that
starts there. -/
structure Missed (h : Heartbeat) (due : Int) : Prop where
  scheduled : h.mode = .scheduled
  due_eq : scheduledDue h.schedule due = due
  no_ping : h.lastSeenAt.all (· < due) = true

/-- The instant is in the window of the due instant. -/
def InWindow (h : Heartbeat) (due now : Int) : Prop :=
  due ≤ now ∧ now < scheduledNextDue h.schedule due

/-- **A selected heartbeat.** Within the window of a missed due instant it becomes
overdue from the deadline on; before the deadline it is put off to the next due
instant. -/
theorem scheduled_tick {s : Store} {t : Tick} {h : Heartbeat} {due : Int} (hmiss : Missed h due)
    (hwin : InWindow h due t.now) (hmem : h ∈ s.heartbeats) (hsel : selects s t h.id = true) :
    if due + h.gracePeriodSeconds ≤ t.now then
      (processHeartbeat t.alerts t.now h).status = .overdue
    else
      processHeartbeat t.alerts t.now h =
        { h with nextExpectedAt := some (scheduledNextDue h.schedule due) } := by
  obtain ⟨hdue, hnext⟩ := scheduledDue_window hmiss.due_eq hwin.1 hwin.2
  have hcand := candidateGuard_of_selects hmem hsel
  simp only [candidateGuard, decide_eq_true_eq] at hcand
  obtain ⟨hdeleted, henabled, hpaused, -, -, htracks, -, -⟩ := hcand
  have hoverdue : heartbeatIsOverdue h t.now =
      if t.now < due + h.gracePeriodSeconds then false else true := by
    unfold heartbeatIsOverdue
    rw [if_neg (by simp [htracks]), if_neg (by simp [hdeleted, henabled, hpaused]),
      hmiss.scheduled]
    dsimp only
    rw [hdue, hmiss.no_ping]
  -- the clock of the tick decides, and the grace period may already be over
  unfold processHeartbeat
  rw [hoverdue]
  by_cases hlate : due + h.gracePeriodSeconds ≤ t.now
  · rw [if_pos hlate, if_neg (not_lt.mpr hlate), if_pos rfl]
    exact markHeartbeatOverdue_status t.alerts t.now h
  · rw [if_neg hlate, if_pos (not_le.mp hlate), if_neg Bool.false_ne_true]
    -- before that the candidate is put off to the next due instant
    have hcompute : computeNextExpectedAt h t.now = scheduledNextDue h.schedule due := by
      unfold computeNextExpectedAt
      rw [hmiss.scheduled, hnext]
    rw [hcompute]

/-- A heartbeat put off to the next due instant is not met before it. -/
theorem not_selects_of_next {s : Store} {t : Tick} {h : Heartbeat} {next : Int}
    (hmem : h ∈ s.heartbeats) (hnext : h.nextExpectedAt = some next) (hlt : t.now < next) :
    selects s t h.id = false := by
  rw [Bool.eq_false_iff]
  intro hsel
  have hcand := candidateGuard_of_selects hmem hsel
  simp only [candidateGuard, decide_eq_true_eq, hnext, Option.all_some] at hcand
  omega

/-! ## Sequences of ticks -/

/-- **Run lemma.** An overdue heartbeat stays overdue. -/
theorem runTicks_overdue {ticks : List Tick} {s : Store} {id : Id}
    (hover : HasStatus s id .overdue) : HasStatus (runTicks s ticks) id .overdue := by
  induction ticks generalizing s with
  | nil => exact hover
  | cons t ticks ih =>
    obtain ⟨h, hmem, rfl, hstatus⟩ := hover
    apply ih
    refine ⟨_, mem_processOverdueHeartbeats hmem, ?_, ?_⟩
    · split
      · exact processHeartbeat_id t.alerts t.now h
      · rfl
    · split
      · exact processHeartbeat_overdue hstatus
      · exact hstatus

/-- **Run lemma.** A heartbeat put off past a sequence of ticks keeps its row. -/
theorem runTicks_put_off {ticks : List Tick} {s : Store} {h : Heartbeat} {next : Int}
    (hmem : h ∈ s.heartbeats) (hnext : h.nextExpectedAt = some next)
    (hticks : ∀ t ∈ ticks, t.now < next) : h ∈ (runTicks s ticks).heartbeats := by
  induction ticks generalizing s with
  | nil => exact hmem
  | cons t ticks ih =>
    apply ih
    · have hrow := mem_processOverdueHeartbeats (t := t) hmem
      rwa [not_selects_of_next hmem hnext (hticks t (by simp)), if_neg Bool.false_ne_true] at hrow
    · intro t' ht'
      exact hticks t' (by simp [ht'])

/-- The heartbeat is already overdue, or the first tick that meets it comes at or
after the deadline. -/
def MetAfterGrace (s : Store) (h : Heartbeat) (due : Int) (ticks : List Tick) : Prop :=
  h.status = .overdue ∨
    ∃ t, firstSelecting h.id s ticks = some t ∧ due + h.gracePeriodSeconds ≤ t.now

/-- **Missed due instants.** Of the ticks between a missed due instant and the
next one, the first that meets the heartbeat decides: after them the heartbeat is
overdue exactly when it was so before, or that tick comes at or after the
deadline. -/
theorem missed_due_detected_iff {s : Store} {h : Heartbeat} {due : Int}
    (hmem : h ∈ s.heartbeats) (hmiss : Missed h due) (ticks : List Tick)
    (hwin : ∀ t ∈ ticks, InWindow h due t.now) :
    HasStatus (runTicks s ticks) h.id .overdue ↔ MetAfterGrace s h due ticks := by
  induction ticks generalizing s with
  | nil =>
    show HasStatus s h.id .overdue ↔ _
    rw [hasStatus_iff hmem]
    simp [MetAfterGrace, firstSelecting]
  | cons t ticks ih =>
    have ht : InWindow h due t.now := hwin t (by simp)
    have hrest : ∀ t' ∈ ticks, InWindow h due t'.now := fun t' ht' => hwin t' (by simp [ht'])
    show HasStatus (runTicks (processOverdueHeartbeats s t) ticks) h.id .overdue ↔ _
    have hrow := mem_processOverdueHeartbeats (t := t) hmem
    cases hsel : selects s t h.id with
    | false =>
      -- the tick leaves the row alone
      rw [hsel, if_neg Bool.false_ne_true] at hrow
      rw [ih hrow hrest]
      simp [MetAfterGrace, firstSelecting, hsel]
    | true =>
      rw [hsel, if_pos rfl] at hrow
      have hstep := scheduled_tick hmiss ht hmem hsel
      have hid : (processHeartbeat t.alerts t.now h).id = h.id := processHeartbeat_id _ _ h
      by_cases hlate : due + h.gracePeriodSeconds ≤ t.now
      · rw [if_pos hlate] at hstep
        refine iff_of_true ?_ (.inr ⟨t, by simp [firstSelecting, hsel], hlate⟩)
        exact runTicks_overdue ⟨_, hrow, hid, hstep⟩
      · rw [if_neg hlate] at hstep
        rw [hstep] at hrow
        -- put off to the next due instant, the row stays as it is
        have hkept := runTicks_put_off hrow rfl fun t' ht' => (hrest t' ht').2
        rw [← hid, hstep, hasStatus_iff hkept]
        simp [MetAfterGrace, firstSelecting, hsel, hlate]

/-- A daily heartbeat at midnight UTC with five minutes of grace that was last
seen a day before the due instant `sampleDue`. -/
def sampleHeartbeat : Heartbeat where
  id := 1
  team := 1
  group := none
  mode := .scheduled
  expectedIntervalSeconds := none
  gracePeriodSeconds := 300
  schedule := ⟨some .daily, none, none, none, 0⟩
  status := .ok
  enabled := true
  deleted := false
  instanceTrackingEnabled := false
  lastSeenAt := some (days 19999)
  nextExpectedAt := some (days 20000)
  overdueSince := none
  lastOverdueAt := none
  currentAlertGroup := none
  createdAt := 0
  updatedAt := 0

def sampleDue : Int := days 20000

def sampleStore : Store where
  heartbeats := [sampleHeartbeat]
  teams := [⟨1, none, true, false⟩]
  groups := []
  ids_nodup := by decide

/-- A tick some seconds after the due instant. -/
def sampleTick (after : Int) : Tick where
  now := sampleDue + after
  alerts := ⟨fun _ => false, fun _ => .ok none⟩

/-- Without a tick in the grace period the miss is detected. -/
theorem missed_due_detected_sample :
    HasStatus (runTicks sampleStore [sampleTick 300]) 1 .overdue := by
  have hmiss : Missed sampleHeartbeat sampleDue := ⟨rfl, by decide, by decide⟩
  have hwin : ∀ t ∈ [sampleTick 300], InWindow sampleHeartbeat sampleDue t.now := by
    intro t ht
    rw [List.mem_singleton.mp ht]
    exact ⟨by decide, by decide⟩
  refine (missed_due_detected_iff (h := sampleHeartbeat) (by decide) hmiss _ hwin).mpr ?_
  exact .inr ⟨sampleTick 300, rfl, by decide⟩

/-- A tick one minute after the due instant hides the miss from the tick at the
deadline. -/
theorem grace_tick_hides_miss :
    sampleHeartbeat ∈ sampleStore.heartbeats ∧ Missed sampleHeartbeat sampleDue ∧
      InWindow sampleHeartbeat sampleDue (sampleTick 60).now ∧
      InWindow sampleHeartbeat sampleDue (sampleTick 300).now ∧
      sampleDue + sampleHeartbeat.gracePeriodSeconds ≤ (sampleTick 300).now ∧
      ¬ HasStatus (runTicks sampleStore [sampleTick 60, sampleTick 300]) 1 .overdue := by
  refine ⟨by decide, ⟨rfl, by decide, by decide⟩, ⟨by decide, by decide⟩,
    ⟨by decide, by decide⟩, by decide, ?_⟩
  unfold HasStatus
  decide

/-! ## Batches that are not cut -/

/-- A candidate is met when the batch has room for every heartbeat. -/
theorem selects_of_candidateGuard {s : Store} {t : Tick} {h : Heartbeat}
    (hmem : h ∈ s.heartbeats) (hcand : candidateGuard s t.now t.teamIds h = true)
    (hroom : s.heartbeats.length ≤ t.limit) : selects s t h.id = true := by
  unfold selects listDueHeartbeatCandidates
  rw [decide_eq_true_eq, List.take_of_length_le]
  · apply List.mem_map_of_mem
    rw [(List.perm_insertionSort _ _).mem_iff, List.mem_filter]
    exact ⟨hmem, hcand⟩
  · rw [List.length_insertionSort]
    exact (List.length_filter_le _ _).trans hroom

/-- With room for every heartbeat, a heartbeat that waits for the due instant is
detected exactly when no tick comes within the grace period. -/
theorem metAfterGrace_iff_of_room {s : Store} {h : Heartbeat} {due : Int} {t : Tick}
    {ticks : List Tick} (hmem : h ∈ s.heartbeats) (hstatus : h.status ≠ .overdue)
    (hcand : candidateGuard s t.now t.teamIds h = true) (hroom : s.heartbeats.length ≤ t.limit)
    (hsorted : (t :: ticks).Pairwise fun t t' => t.now ≤ t'.now) :
    MetAfterGrace s h due (t :: ticks) ↔
      ∀ t' ∈ t :: ticks, due + h.gracePeriodSeconds ≤ t'.now := by
  have hsel := selects_of_candidateGuard hmem hcand hroom
  -- a candidate with room is selected by the first tick, so that tick decides
  have hfirst : firstSelecting h.id s (t :: ticks) = some t := by
    rw [firstSelecting, if_pos hsel]
  unfold MetAfterGrace
  rw [hfirst]
  constructor
  · rintro (hover | ⟨t₀, heq, hlate⟩)
    · exact absurd hover hstatus
    -- the ticks are in order, so the first one is the least
    · obtain rfl := Option.some.inj heq
      intro t' ht'
      rcases List.mem_cons.mp ht' with rfl | ht'
      · exact hlate
      · exact hlate.trans ((List.pairwise_cons.mp hsorted).1 t' ht')
  · intro hall
    exact .inr ⟨t, rfl, hall t (by simp)⟩

end IncidentRelay.Heartbeats
