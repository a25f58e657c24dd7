import IncidentRelay.Heartbeats.Detection
import IncidentRelay.Lib.Batch
import IncidentRelay.Lib.Run
import Mathlib.Data.Prod.Lex
import Mathlib.Order.TypeTags

/-!
# Overdue detection under a limit

`process_overdue_heartbeats` called over and over at one instant. A batch takes the
candidates that have been due longest, and handling one puts it back at the
`next_expected_at` it computes for it; that is how a heartbeat makes way for those
behind it. But the computed instant of an interval heartbeat is the one that has
passed, so a silent one stays in front of the queue, and an overdue heartbeat with
an open alert is not even rewritten. `limit` of these starve everything behind
them (`silent_heartbeat_starves`).

 * `simulates_run`: the calls handle the heartbeats the rounds of
   `Waiting.rounds` do.
 * `overdue_detected_iff`: every overdue heartbeat is detected exactly when each of
   them is detected already, or is a candidate with fewer than `limit` candidates
   that stay ahead of it.
-/

namespace IncidentRelay.Heartbeats

/-! ## The order of the query -/

/-- The columns of the `ORDER BY`; a missing `next_expected_at` comes first. -/
def candidateKey (h : Heartbeat) : WithBot Int ×ₗ Id :=
  toLex (h.nextExpectedAt, h.id)

/-- The query orders by the due instant, missing ones first, and then by the id. -/
theorem candidateLe_iff {a b : Heartbeat} : candidateLe a b ↔ candidateKey a ≤ candidateKey b := by
  unfold candidateKey candidateLe
  rw [Prod.Lex.le_iff]
  cases a.nextExpectedAt with
  | none =>
    cases b.nextExpectedAt with
    | none => exact ⟨fun h => .inr ⟨rfl, h⟩, fun h => h.elim (fun h => absurd h (lt_irrefl _)) (·.2)⟩
    | some y => exact iff_of_true trivial (.inl (WithBot.bot_lt_coe y))
  | some x =>
    cases b.nextExpectedAt with
    | none =>
      refine iff_of_false id ?_
      rintro (h | ⟨h, -⟩)
      · exact not_lt_bot h
      · exact WithBot.coe_ne_bot h
    | some y =>
      exact or_congr WithBot.coe_lt_coe.symm (and_congr_left' WithBot.coe_inj.symm)

instance : Std.Total candidateLe :=
  ⟨fun a b => by rw [candidateLe_iff, candidateLe_iff]; exact le_total _ _⟩

instance : IsTrans Heartbeat candidateLe :=
  ⟨fun a b c => by simp only [candidateLe_iff]; exact le_trans⟩

/-- The first heartbeat comes before the second in the candidate list. -/
def before (a b : Heartbeat) : Bool :=
  candidateLe a b ∧ ¬ candidateLe b a

theorem before_iff {a b : Heartbeat} : before a b = true ↔ candidateKey a < candidateKey b := by
  unfold before
  rw [decide_eq_true_eq, candidateLe_iff, candidateLe_iff, lt_iff_le_not_ge]

/-- Membership in the batch of a call. -/
theorem selects_iff {s : Store} {t : Tick} {h : Heartbeat} (hmem : h ∈ s.heartbeats) :
    selects s t h.id = true ↔ candidateGuard s t.now t.teamIds h = true ∧
      (s.heartbeats.filter fun a =>
        candidateGuard s t.now t.teamIds a && before a h).length < t.limit := by
  -- the candidates are ordered by their keys, no two of which are the same
  have hnd : (s.heartbeats.filter (candidateGuard s t.now t.teamIds)).Nodup :=
    (List.Nodup.of_map _ s.ids_nodup).filter _
  have hanti : ∀ x ∈ s.heartbeats.filter (candidateGuard s t.now t.teamIds),
      ∀ y ∈ s.heartbeats.filter (candidateGuard s t.now t.teamIds),
      candidateLe x y → candidateLe y x → x = y := by
    intro x hx y hy hxy hyx
    rw [candidateLe_iff] at hxy hyx
    have hkey : candidateKey x = candidateKey y := le_antisymm hxy hyx
    exact Table.eq_of_key_eq s.ids_nodup (List.mem_filter.mp hx).1 (List.mem_filter.mp hy).1
      (congrArg (fun key => (ofLex key).2) hkey)
  have hlength : ((s.heartbeats.filter (candidateGuard s t.now t.teamIds)).filter fun a =>
      candidateLe a h ∧ ¬ candidateLe h a) =
      s.heartbeats.filter fun a => candidateGuard s t.now t.teamIds a && before a h := by
    rw [List.filter_filter]
    apply List.filter_congr
    intro a _
    exact Bool.and_comm _ _
  constructor
  -- a heartbeat that is selected is a candidate with few in front of it
  · intro hsel
    have hcand := candidateGuard_of_selects hmem hsel
    refine ⟨hcand, ?_⟩
    unfold selects listDueHeartbeatCandidates at hsel
    rw [decide_eq_true_eq] at hsel
    obtain ⟨r, hr, hid⟩ := List.mem_map.mp hsel
    have hrmem := (List.perm_insertionSort _ _).mem_iff.mp (List.mem_of_mem_take hr)
    have hsame : r = h :=
      Table.eq_of_key_eq s.ids_nodup (List.mem_filter.mp hrmem).1 hmem hid
    rw [hsame] at hr hrmem
    rw [← hlength]
    exact (mem_take_insertionSort hanti hnd hrmem t.limit).mp hr
  · rintro ⟨hcand, hfew⟩
    unfold selects listDueHeartbeatCandidates
    rw [decide_eq_true_eq]
    refine List.mem_map_of_mem ?_
    rw [mem_take_insertionSort hanti hnd (List.mem_filter.mpr ⟨hmem, hcand⟩), hlength]
    exact hfew

/-! ## What handling a heartbeat does to its place -/

/-- The heartbeat is overdue with an open alert: the check leaves it as it is. -/
def alreadyAlerted (t : Tick) (h : Heartbeat) : Bool :=
  heartbeatIsOverdue h t.now ∧ h.status = .overdue ∧
    h.currentAlertGroup.any t.alerts.groupOpen = true

/-- The heartbeat at the place it waits at once it has been handled. -/
def requeued (t : Tick) (h : Heartbeat) : Heartbeat :=
  if alreadyAlerted t h then h
  else { h with nextExpectedAt := some (computeNextExpectedAt h t.now) }

/-- The columns the check reads, but for `next_expected_at`, agree. -/
structure SameMonitor (h r : Heartbeat) : Prop where
  id : r.id = h.id
  team : r.team = h.team
  group : r.group = h.group
  mode : r.mode = h.mode
  interval : r.expectedIntervalSeconds = h.expectedIntervalSeconds
  schedule : r.schedule = h.schedule
  enabled : r.enabled = h.enabled
  deleted : r.deleted = h.deleted
  tracking : r.instanceTrackingEnabled = h.instanceTrackingEnabled
  paused : r.status = .paused ↔ h.status = .paused
  seen : r.lastSeenAt = h.lastSeenAt
  created : r.createdAt = h.createdAt

theorem SameMonitor.refl (h : Heartbeat) : SameMonitor h h := by
  constructor <;> rfl

theorem SameMonitor.trans {a b c : Heartbeat} (hab : SameMonitor a b) (hbc : SameMonitor b c) :
    SameMonitor a c where
  id := hbc.id.trans hab.id
  team := hbc.team.trans hab.team
  group := hbc.group.trans hab.group
  mode := hbc.mode.trans hab.mode
  interval := hbc.interval.trans hab.interval
  schedule := hbc.schedule.trans hab.schedule
  enabled := hbc.enabled.trans hab.enabled
  deleted := hbc.deleted.trans hab.deleted
  tracking := hbc.tracking.trans hab.tracking
  paused := hbc.paused.trans hab.paused
  seen := hbc.seen.trans hab.seen
  created := hbc.created.trans hab.created

theorem SameMonitor.computeNextExpectedAt {h r : Heartbeat} (hsame : SameMonitor h r) (now : Int) :
    computeNextExpectedAt r now = computeNextExpectedAt h now := by
  simp only [Heartbeats.computeNextExpectedAt, Heartbeat.interval, hsame.mode, hsame.schedule,
    hsame.seen, hsame.created, hsame.interval]

theorem SameMonitor.candidateGuard {h r : Heartbeat} (hsame : SameMonitor h r)
    (hnext : r.nextExpectedAt = h.nextExpectedAt) (s : Store) (now : Int)
    (teamIds : Option (List Id)) :
    candidateGuard s now teamIds r = candidateGuard s now teamIds h := by
  simp only [Heartbeats.candidateGuard, hsame.deleted, hsame.enabled, hsame.team, hsame.group,
    hsame.tracking, hnext, ne_eq, hsame.paused]

/-- A heartbeat that is put behind is the same monitor. -/
theorem sameMonitor_requeued (t : Tick) (h : Heartbeat) : SameMonitor h (requeued t h) := by
  unfold requeued
  split
  · exact .refl h
  · constructor <;> rfl

theorem sameMonitor_markHeartbeatOverdue {alerts : AlertService} {now : Int} {h : Heartbeat}
    (hpaused : h.status ≠ .paused) : SameMonitor h (markHeartbeatOverdue alerts now h) := by
  have hoverdue : Status.overdue = .paused ↔ h.status = .paused :=
    iff_of_false (by simp) hpaused
  unfold markHeartbeatOverdue
  split
  · exact .refl h
  · dsimp only
    split <;> constructor <;> first | rfl | exact hoverdue

/-- What has its alert already is not touched. -/
theorem processHeartbeat_of_alreadyAlerted {t : Tick} {h : Heartbeat}
    (halerted : alreadyAlerted t h = true) : processHeartbeat t.alerts t.now h = h := by
  simp only [alreadyAlerted, decide_eq_true_eq] at halerted
  obtain ⟨hover, hopen⟩ := halerted
  unfold processHeartbeat markHeartbeatOverdue
  rw [if_pos hover, if_pos hopen]

/-- What is marked without an open alert gets a new due instant. -/
theorem markHeartbeatOverdue_next {alerts : AlertService} {now : Int} {h : Heartbeat}
    (hopen : ¬ (h.status = .overdue ∧ h.currentAlertGroup.any alerts.groupOpen = true)) :
    (markHeartbeatOverdue alerts now h).nextExpectedAt = some (computeNextExpectedAt h now) := by
  unfold markHeartbeatOverdue
  rw [if_neg hopen]
  dsimp only
  split <;> rfl

/-- **What a call does to a candidate.** It keeps the columns it reads, but for
`next_expected_at`, which moves as `requeued` says. -/
theorem processHeartbeat_requeued {t : Tick} {h : Heartbeat} (hpaused : h.status ≠ .paused) :
    SameMonitor h (processHeartbeat t.alerts t.now h) ∧
      (processHeartbeat t.alerts t.now h).nextExpectedAt = (requeued t h).nextExpectedAt := by
  unfold requeued
  by_cases halerted : alreadyAlerted t h = true
  · rw [if_pos halerted, processHeartbeat_of_alreadyAlerted halerted]
    exact ⟨.refl h, rfl⟩
  · rw [if_neg halerted]
    unfold processHeartbeat
    by_cases hover : heartbeatIsOverdue h t.now = true
    · rw [if_pos hover]
      refine ⟨sameMonitor_markHeartbeatOverdue hpaused, markHeartbeatOverdue_next ?_⟩
      intro hopen
      exact halerted (decide_eq_true ⟨hover, hopen⟩)
    · rw [if_neg hover]
      exact ⟨by constructor <;> rfl, rfl⟩

/-! ## The queue of the candidates -/

/-- Where a heartbeat waits: nowhere, unless the query can return it. -/
def place (s : Store) (t : Tick) (h : Heartbeat) : WithTop (WithBot Int ×ₗ Id) :=
  if candidateGuard s t.now t.teamIds h then candidateKey h else ⊤

def queue (s : Store) (t : Tick) : Waiting Heartbeat (WithBot Int ×ₗ Id) where
  members := s.heartbeats.toFinset
  first := place s t
  settled := fun h => place s t (requeued t h)

/-- A heartbeat has a place in the queue exactly when it is a candidate. -/
theorem place_ne_top {s : Store} {t : Tick} {h : Heartbeat} :
    place s t h ≠ ⊤ ↔ candidateGuard s t.now t.teamIds h = true := by
  unfold place
  split
  · rename_i hcand
    exact iff_of_true (WithTop.coe_ne_top) hcand
  · rename_i hcand
    exact iff_of_false (fun h => h rfl) hcand

/-- What comes before it in the queue. -/
theorem place_lt_place {s : Store} {t : Tick} {a h : Heartbeat}
    (hcand : candidateGuard s t.now t.teamIds h = true) :
    place s t a < place s t h ↔
      (candidateGuard s t.now t.teamIds a && before a h) = true := by
  unfold place
  rw [if_pos hcand, Bool.and_eq_true, before_iff]
  split
  · rename_i ha
    rw [WithTop.coe_lt_coe]
    exact (and_iff_right ha).symm
  · rename_i ha
    exact iff_of_false (not_lt.mpr le_top) fun h => ha h.1

/-- The same monitor, with the same due instant, has the same place. -/
theorem SameMonitor.place_eq {h r : Heartbeat} (hsame : SameMonitor h r)
    (hnext : r.nextExpectedAt = h.nextExpectedAt) (s : Store) (t : Tick) :
    place s t r = place s t h := by
  unfold place candidateKey
  rw [hsame.candidateGuard hnext, hnext, hsame.id]

theorem SameMonitor.symm {a b : Heartbeat} (hab : SameMonitor a b) : SameMonitor b a where
  id := hab.id.symm
  team := hab.team.symm
  group := hab.group.symm
  mode := hab.mode.symm
  interval := hab.interval.symm
  schedule := hab.schedule.symm
  enabled := hab.enabled.symm
  deleted := hab.deleted.symm
  tracking := hab.tracking.symm
  paused := hab.paused.symm
  seen := hab.seen.symm
  created := hab.created.symm

/-! ## Repeated calls -/

/-- The call is like the first one, and the alert of an overdue heartbeat that no
call has changed is open or resolved as it was then. -/
def SameCall (s₀ : Store) (first : Tick) (s : Store) (t : Tick) : Prop :=
  t.now = first.now ∧ t.limit = first.limit ∧ t.teamIds = first.teamIds ∧
    ∀ h ∈ s.heartbeats, h ∈ s₀.heartbeats → h.status = .overdue →
      h.currentAlertGroup.any t.alerts.groupOpen = h.currentAlertGroup.any first.alerts.groupOpen

/-- Calls at one instant, with no pings in between. -/
def RepeatedCalls (s : Store) (first : Tick) (ticks : List Tick) : Prop :=
  Along processOverdueHeartbeats (SameCall s first) s ticks

/-- The row of a heartbeat that some call has handled. -/
structure Handled (first : Tick) (h r : Heartbeat) : Prop where
  same : SameMonitor h r
  next : r.nextExpectedAt = (requeued first h).nextExpectedAt
  detected : heartbeatIsOverdue h first.now = true → r.status = .overdue
  kept : alreadyAlerted first h = true → r = h

/-- The store after some calls: the heartbeats of `done` have been handled, the
others are as they were. -/
structure Simulates (s₀ : Store) (first : Tick) (done : Finset Heartbeat)
    (row : Heartbeat → Heartbeat) (s : Store) : Prop where
  heartbeats : s.heartbeats = s₀.heartbeats.map row
  teams : s.teams = s₀.teams
  groups : s.groups = s₀.groups
  handled : ∀ h ∈ s₀.heartbeats, h ∈ done → Handled first h (row h)
  untouched : ∀ h ∈ s₀.heartbeats, h ∉ done → row h = h

section Simulation

variable {s₀ s : Store} {first t : Tick} {done : Finset Heartbeat} {row : Heartbeat → Heartbeat}
  {h : Heartbeat}

theorem Simulates.row_mem (hsim : Simulates s₀ first done row s) (hmem : h ∈ s₀.heartbeats) :
    row h ∈ s.heartbeats := by
  rw [hsim.heartbeats]
  exact List.mem_map_of_mem hmem

/-- The rows wait where the queue says. -/
theorem Simulates.place_row (hsim : Simulates s₀ first done row s) (hmem : h ∈ s₀.heartbeats) :
    place s first (row h) = (queue s₀ first).position done h := by
  have hplace : place s first (row h) = place s₀ first (row h) := by
    unfold place candidateGuard
    rw [hsim.teams, hsim.groups]
  rw [hplace]
  by_cases hdone : h ∈ done
  · rw [Waiting.position_of_mem hdone]
    have hrow := hsim.handled h hmem hdone
    exact ((sameMonitor_requeued first h).symm.trans hrow.same).place_eq hrow.next s₀ first
  · rw [Waiting.position_of_not_mem hdone, hsim.untouched h hmem hdone]
    rfl

/-- A call takes the batch of the queue. -/
theorem Simulates.selects_row (hsim : Simulates s₀ first done row s)
    (hcall : SameCall s₀ first s t) (hmem : h ∈ s₀.heartbeats) :
    selects s t (row h).id = true ↔ h ∈ (queue s₀ first).batch first.limit done := by
  obtain ⟨hnow, hlimit, hteams, -⟩ := hcall
  have hmember : h ∈ (queue s₀ first).members := List.mem_toFinset.mpr hmem
  rw [selects_iff (hsim.row_mem hmem), hnow, hlimit, hteams, Waiting.mem_batch,
    ← hsim.place_row hmem, place_ne_top, and_iff_right hmember]
  refine and_congr_right fun hcand => ?_
  -- the rows that are in front now are those that were
  have hcount : (s.heartbeats.filter fun a =>
      candidateGuard s first.now first.teamIds a && before a (row h)).length =
      ((queue s₀ first).ahead done (place s first (row h))).card := by
    have hnd : (s₀.heartbeats.filter fun a =>
        place s first (row a) < place s first (row h)).Nodup :=
      (List.Nodup.of_map _ s₀.ids_nodup).filter _
    rw [hsim.heartbeats, List.filter_map, List.length_map]
    calc (s₀.heartbeats.filter ((fun a =>
          candidateGuard s first.now first.teamIds a && before a (row h)) ∘ row)).length
        = (s₀.heartbeats.filter fun a =>
            place s first (row a) < place s first (row h)).length := by
          congr 1
          apply List.filter_congr
          intro a _
          rw [Bool.eq_iff_iff, decide_eq_true_eq, place_lt_place hcand]
          rfl
      _ = ((s₀.heartbeats.filter fun a =>
            place s first (row a) < place s first (row h)).toFinset).card :=
          (List.toFinset_card_of_nodup hnd).symm
      _ = ((queue s₀ first).ahead done (place s first (row h))).card := by
          congr 1
          ext a
          rw [List.mem_toFinset, List.mem_filter, Waiting.mem_ahead, decide_eq_true_eq]
          constructor
          · rintro ⟨ha, hlt⟩
            rw [hsim.place_row ha] at hlt
            exact ⟨List.mem_toFinset.mpr ha, hlt⟩
          · rintro ⟨ha, hlt⟩
            have ha' := List.mem_toFinset.mp ha
            rw [← hsim.place_row ha'] at hlt
            exact ⟨ha', hlt⟩
  rw [hcount]

theorem notPaused_of_candidateGuard {now : Int} {teamIds : Option (List Id)}
    (hcand : candidateGuard s now teamIds h = true) : h.status ≠ .paused := by
  simp only [candidateGuard, decide_eq_true_eq] at hcand
  exact hcand.2.2.1

/-- A call that finds the heartbeat as it was sees its alert as the first one did. -/
theorem alreadyAlerted_eq (hcall : SameCall s₀ first s t) (hmem₀ : h ∈ s₀.heartbeats)
    (hmem : h ∈ s.heartbeats) : alreadyAlerted t h = alreadyAlerted first h := by
  obtain ⟨hnow, -, -, hopen⟩ := hcall
  unfold alreadyAlerted
  rw [hnow, decide_eq_decide]
  refine and_congr_right fun _ => and_congr_right fun hstatus => ?_
  rw [hopen h hmem hmem₀ hstatus]

/-- The first call that meets a heartbeat handles it. -/
theorem handled_first (hcall : SameCall s₀ first s t) (hmem₀ : h ∈ s₀.heartbeats)
    (hmem : h ∈ s.heartbeats) (hpaused : h.status ≠ .paused) :
    Handled first h (processHeartbeat t.alerts t.now h) := by
  have halerted := alreadyAlerted_eq hcall hmem₀ hmem
  obtain ⟨hsame, hnext⟩ := processHeartbeat_requeued (t := t) hpaused
  refine ⟨hsame, ?_, ?_, ?_⟩
  · rw [hnext]
    unfold requeued
    rw [halerted, hcall.1]
  · intro hover
    unfold processHeartbeat
    rw [hcall.1, if_pos hover]
    exact markHeartbeatOverdue_status t.alerts first.now h
  · intro hkept
    exact processHeartbeat_of_alreadyAlerted (halerted.trans hkept)

/-- A further call leaves a handled heartbeat handled, at the same place. -/
theorem handled_again {r : Heartbeat} (hcall : SameCall s₀ first s t)
    (hmem₀ : h ∈ s₀.heartbeats) (hmem : r ∈ s.heartbeats) (hpaused : r.status ≠ .paused)
    (hrow : Handled first h r) : Handled first h (processHeartbeat t.alerts t.now r) := by
  -- an alert that was kept does not move its heartbeat in the queue
  by_cases hkept : alreadyAlerted first h = true
  · obtain rfl := hrow.kept hkept
    rw [processHeartbeat_of_alreadyAlerted ((alreadyAlerted_eq hcall hmem₀ hmem).trans hkept)]
    exact hrow
  · obtain ⟨hsame, hnext⟩ := processHeartbeat_requeued (t := t) hpaused
    have hplace : (requeued first h).nextExpectedAt =
        some (computeNextExpectedAt h first.now) := by
      unfold requeued
      rw [if_neg hkept]
    refine ⟨hrow.same.trans hsame, ?_, ?_, fun h => absurd h hkept⟩
    · -- whether rewritten or not, the instant is the computed one
      rw [hnext]
      by_cases hagain : alreadyAlerted t r = true
      · rw [requeued, if_pos hagain]
        exact hrow.next
      · rw [requeued, if_neg hagain, hplace, hcall.1]
        exact congrArg some (hrow.same.computeNextExpectedAt first.now)
    -- an overdue heartbeat is handled as before
    · intro hover
      exact processHeartbeat_overdue (hrow.detected hover)

/-- **Step lemma.** A call handles the batch of the queue. -/
theorem simulates_call (hsim : Simulates s₀ first done row s) (hcall : SameCall s₀ first s t) :
    ∃ row', Simulates s₀ first ((queue s₀ first).round first.limit done) row'
      (processOverdueHeartbeats s t) := by
  -- what is selected is processed, which is the batch of the queue
  refine ⟨fun h => if selects s t (row h).id then processHeartbeat t.alerts t.now (row h)
    else row h, ?_, hsim.teams, hsim.groups, ?_, ?_⟩
  · show Table.update _ _ s.heartbeats = _
    rw [Table.update, hsim.heartbeats, List.map_map]
    rfl
  · intro h hmem hin
    have hrow := hsim.row_mem hmem
    have hsel := hsim.selects_row hcall hmem
    split
    · rename_i hs
      have hpaused := notPaused_of_candidateGuard (candidateGuard_of_selects hrow hs)
      -- a heartbeat of an earlier round, or one that is met for the first time
      by_cases hdone : h ∈ done
      · exact handled_again hcall hmem hrow hpaused (hsim.handled h hmem hdone)
      · rw [hsim.untouched h hmem hdone] at hrow hpaused ⊢
        exact handled_first hcall hmem hrow hpaused
    -- what is not selected was handled in an earlier round
    · rename_i hs
      rcases Finset.mem_union.mp hin with hdone | hbatch
      · exact hsim.handled h hmem hdone
      · exact absurd (hsel.mpr hbatch) hs
  · intro h hmem hout
    have hdone : h ∉ done := fun h => hout (Finset.mem_union_left _ h)
    have hs : ¬ selects s t (row h).id = true := fun hs =>
      hout (Finset.mem_union_right _ ((hsim.selects_row hcall hmem).mp hs))
    rw [if_neg hs]
    exact hsim.untouched h hmem hdone

/-- **Run lemma.** The calls handle the heartbeats the rounds of the queue do. -/
theorem simulates_run {ticks : List Tick} {n : Nat}
    (hsim : Simulates s₀ first ((queue s₀ first).rounds first.limit n) row s)
    (hcalls : Along processOverdueHeartbeats (SameCall s₀ first) s ticks) :
    ∃ row', Simulates s₀ first ((queue s₀ first).rounds first.limit (n + ticks.length)) row'
      (runTicks s ticks) := by
  induction ticks generalizing s row n with
  | nil => exact ⟨row, hsim⟩
  | cons t ticks ih =>
    obtain ⟨hcall, hrest⟩ := hcalls
    obtain ⟨row', hsim'⟩ := simulates_call hsim hcall
    have hrun := ih (n := n + 1) hsim' hrest
    rw [Nat.add_right_comm] at hrun
    exact hrun

/-- At first the rows are the heartbeats themselves. -/
theorem simulates_start (s₀ : Store) (first : Tick) : Simulates s₀ first ∅ id s₀ where
  heartbeats := (List.map_id _).symm
  teams := rfl
  groups := rfl
  handled := by simp
  untouched := fun _ _ _ => rfl

end Simulation

/-! ## Detection -/

/-- The number of enabled heartbeats. -/
def enabledHeartbeats (s : Store) : Nat :=
  (s.heartbeats.filter fun h => h.enabled && !h.deleted).length

/-- Every heartbeat that is overdue at the instant has got the status. -/
def AllDetected (s₀ : Store) (now : Int) (s : Store) : Prop :=
  ∀ h ∈ s₀.heartbeats, heartbeatIsOverdue h now = true → HasStatus s h.id .overdue

/-- A candidate that is ahead of the heartbeat, and still is once it is handled. -/
def staysAhead (s : Store) (t : Tick) (h a : Heartbeat) : Bool :=
  (candidateGuard s t.now t.teamIds a && before a h) &&
    (candidateGuard s t.now t.teamIds (requeued t a) && before (requeued t a) h)

/-- The heartbeat is a candidate that is not starved. -/
def Reached (s : Store) (t : Tick) (h : Heartbeat) : Prop :=
  candidateGuard s t.now t.teamIds h = true ∧
    (s.heartbeats.filter (staysAhead s t h)).length < t.limit

/-- Those that stay ahead are counted by a filter. -/
theorem card_stayAhead {s : Store} {t : Tick} {h : Heartbeat}
    (hcand : candidateGuard s t.now t.teamIds h = true) :
    ((queue s t).stayAhead h).card = (s.heartbeats.filter (staysAhead s t h)).length := by
  have hnd : (s.heartbeats.filter (staysAhead s t h)).Nodup :=
    (List.Nodup.of_map _ s.ids_nodup).filter _
  rw [← List.toFinset_card_of_nodup hnd]
  congr 1
  ext a
  rw [Waiting.mem_stayAhead, List.mem_toFinset, List.mem_filter, staysAhead, Bool.and_eq_true,
    ← place_lt_place hcand, ← place_lt_place hcand]
  exact and_congr_left' List.mem_toFinset

/-- Only enabled heartbeats wait. -/
theorem card_waiting_le (s : Store) (t : Tick) :
    (queue s t).waiting.card ≤ enabledHeartbeats s := by
  have hnd : (s.heartbeats.filter fun h => h.enabled && !h.deleted).Nodup :=
    (List.Nodup.of_map _ s.ids_nodup).filter _
  unfold enabledHeartbeats
  rw [← List.toFinset_card_of_nodup hnd]
  apply Finset.card_le_card
  intro h hwait
  obtain ⟨hmem, htop⟩ := Finset.mem_filter.mp hwait
  have hcand := place_ne_top.mp htop
  simp only [candidateGuard, decide_eq_true_eq] at hcand
  rw [List.mem_toFinset, List.mem_filter]
  exact ⟨List.mem_toFinset.mp hmem, by simp [hcand.1, hcand.2.1]⟩

/-- **Overdue detection.** After as many calls as there are enabled heartbeats, all
that are overdue have the status exactly when each of them had it before, or is a
candidate that fewer candidates than the limit stay ahead of. -/
theorem overdue_detected_iff {s : Store} {first : Tick} {ticks : List Tick}
    (hcalls : RepeatedCalls s first ticks) (hmany : enabledHeartbeats s ≤ ticks.length) :
    AllDetected s first.now (runTicks s ticks) ↔
      ∀ h ∈ s.heartbeats, heartbeatIsOverdue h first.now = true →
        h.status = .overdue ∨ Reached s first h := by
  obtain ⟨row, hsim⟩ := simulates_run (n := 0) (simulates_start s first) hcalls
  -- after so many calls the rounds have met everything that they can reach
  rw [Nat.zero_add] at hsim
  refine forall₂_congr fun h hmem => forall_congr' fun hover => ?_
  have hmember : h ∈ (queue s first).members := List.mem_toFinset.mpr hmem
  have hreached : h ∈ (queue s first).rounds first.limit ticks.length ↔ Reached s first h := by
    rw [Waiting.mem_rounds_iff hmember ((card_waiting_le s first).trans hmany)]
    show place s first h ≠ ⊤ ∧ _ ↔ _
    rw [place_ne_top]
    exact and_congr_right fun hcand => by rw [card_stayAhead hcand]
  have hrow := hsim.row_mem hmem
  rw [← hreached]
  by_cases hdone : h ∈ (queue s first).rounds first.limit ticks.length
  · have hhandled := hsim.handled h hmem hdone
    refine iff_of_true ?_ (.inr hdone)
    rw [← hhandled.same.id, hasStatus_iff hrow]
    exact hhandled.detected hover
  · -- no call has met the heartbeat
    rw [hsim.untouched h hmem hdone] at hrow
    rw [hasStatus_iff hrow]
    exact (or_iff_left hdone).symm

/-- An interval heartbeat that has been silent for long, with its alert open. -/
def silentHeartbeat : Heartbeat :=
  { sampleHeartbeat with
    mode := .interval
    expectedIntervalSeconds := some 60
    gracePeriodSeconds := 0
    status := .overdue
    lastSeenAt := some 0
    nextExpectedAt := some 60
    currentAlertGroup := some 1 }

/-- One that has just missed its ping. -/
def missedHeartbeat : Heartbeat :=
  { silentHeartbeat with
    id := 2
    status := .ok
    lastSeenAt := some 600
    nextExpectedAt := some 660
    currentAlertGroup := none }

def queueStore : Store where
  heartbeats := [silentHeartbeat, missedHeartbeat]
  teams := [⟨1, none, true, false⟩]
  groups := []
  ids_nodup := by decide

/-- A call shortly after the second ping was missed. -/
def queueTick (limit : Nat) : Tick where
  now := 700
  limit := limit
  alerts := ⟨(· == 1), fun h => .ok (some h.id)⟩

/-- Batches of two reach the second heartbeat. -/
theorem overdue_detected_sample :
    AllDetected queueStore 700 (runTicks queueStore [queueTick 2, queueTick 2]) := by
  have hcalls : RepeatedCalls queueStore (queueTick 2) [queueTick 2, queueTick 2] :=
    ⟨⟨rfl, rfl, rfl, fun _ _ _ _ => rfl⟩, ⟨rfl, rfl, rfl, fun _ _ _ _ => rfl⟩, trivial⟩
  apply (overdue_detected_iff hcalls (by decide)).mpr
  unfold Reached
  decide

/-- The silent heartbeat fills every batch of one: after as many calls as there are
heartbeats the second one is still not detected. -/
theorem silent_heartbeat_starves :
    enabledHeartbeats queueStore = 2 ∧ heartbeatIsOverdue missedHeartbeat 700 = true ∧
      ∀ calls ≤ 2, ¬ AllDetected queueStore 700
        (runTicks queueStore (List.replicate calls (queueTick 1))) := by
  unfold AllDetected HasStatus
  decide

end IncidentRelay.Heartbeats
