import IncidentRelay.Alerts.RecoveryRuns

/-!
# The end of a recovery

A run of the queue that comes when a group is due tries all targets that are open, and then
either no target is open or the group is due with the next of them. An open target was tried at
most four times, so that a recovery that nobody interferes with ends (`recovery_completes`).
-/

namespace IncidentRelay.Recovery

variable {w x : World} {g : Group} {now due k group resolvedAt : ℕ} {i : Inputs} {d : Delivery}
  {c : Cycle} {e : Event} {selected : Selected}

/-- A recovery of the cycle that is to be delivered. -/
structure Group.Waits (g : Group) (resolvedAt : ℕ) : Prop where
  status : g.status = .resolved
  merged : g.mergedInto = none
  queued : g.queued = true
  resolvedAt : g.resolvedAt = some resolvedAt

/-- A run of the queue that finds the group due, if it is in the queue, as it was selected. -/
def OnTime (group : ℕ) (w : World) (e : Event) : Prop :=
  ∃ selected now i, e = .process selected now i ∧ selected.id = group ∧
    ∀ g, w.groups.get group = some g → g.notificationPending = true →
      g.notificationDueAt = selected.notificationDueAt ∧
        ∃ due, g.notificationDueAt = some due ∧ due ≤ now

/-- A run is on time where the group waits for it no longer, or is due as it was selected. -/
theorem onTime_process (h : (w.groups.get selected.id).all fun g => !g.notificationPending ||
    (g.notificationDueAt = selected.notificationDueAt && g.notificationDueAt.any (· ≤ now))) :
    OnTime selected.id w (.process selected now i) := by
  refine ⟨selected, now, i, rfl, rfl, fun g hget hpending => ?_⟩
  rw [hget, Option.all_some, hpending] at h
  cases hdue : g.notificationDueAt with
  | none => simp [hdue] at h
  | some due =>
    rw [hdue] at h
    simpa using h

/-- The recovery is out of the queue, and no target of the cycle is open. -/
def Completed (group resolvedAt : ℕ) (w : World) : Prop :=
  ∃ g, w.groups.get group = some g ∧ g.notificationPending = false ∧ g.status = .resolved ∧
    g.resolvedAt = some resolvedAt ∧
    ∀ d ∈ w.deliveries.rows, d.cycle = ⟨group, resolvedAt⟩ → d.status ≠ .pending

/-- The group is due with its open targets, each of which was tried this often. -/
structure Waiting (group resolvedAt k : ℕ) (w : World) : Prop where
  due : ∃ g due, w.groups.get group = some g ∧ g.Waits resolvedAt ∧ g.notificationDueAt = some due ∧
    ∀ d ∈ w.deliveries.rows, d.cycle = ⟨group, resolvedAt⟩ → d.status = .pending →
      d.nextAttemptAt = due ∧ k ≤ d.attempts
  some : ∃ d ∈ w.deliveries.rows, d.cycle = ⟨group, resolvedAt⟩ ∧ d.status = .pending

/-! ## The end of a run -/

/-- The end of a run: the group waits for the earliest row that is pending, or it is done. -/
theorem finishRecovery_spec (w : World) (g : Group) (now : ℕ)
    (hresolved : g.resolvedAt = some resolvedAt) :
    (∃ nextDue, (∃ d ∈ w.cycleQuery ⟨g.id, resolvedAt⟩, d.status = .pending ∧
        d.nextAttemptAt = nextDue) ∧
      (w.finishRecovery g now).1.groups =
        w.groups.save { g with notificationDueAt := some nextDue, updatedAt := now }) ∨
    ((∀ d ∈ w.cycleQuery ⟨g.id, resolvedAt⟩, d.status ≠ .pending) ∧
      (w.finishRecovery g now).1.groups = w.groups.save (g.cleared now)) := by
  have hcycle : w.cycleRows g = w.cycleQuery ⟨g.id, resolvedAt⟩ := by
    unfold World.cycleRows
    rw [hresolved]
  unfold World.finishRecovery
  rw [hcycle]
  dsimp only
  split
  · next nextDue hmin =>
    obtain ⟨hmem, -⟩ := List.min?_eq_some_iff.mp hmin
    obtain ⟨d, hd, hnext⟩ := List.mem_map.mp hmem
    obtain ⟨hd, hpending⟩ := List.mem_filter.mp hd
    exact .inl ⟨nextDue, ⟨d, hd, of_decide_eq_true hpending, hnext⟩, rfl⟩
  · next hmin =>
    have hnone := List.map_eq_nil_iff.mp (List.min?_eq_none_iff.mp hmin)
    refine .inr ⟨fun d hd hpending => ?_, rfl⟩
    exact List.filter_eq_nil_iff.mp hnone d hd (decide_eq_true hpending)

/-- A run for a group that is due: the snapshot, the attempts, and the end. -/
theorem process_eq {v : World} (hget : w.groups.get selected.id = some g)
    (hdue : g.recoveryDue selected now = true)
    (hv : w.snapshotRecoveryTargets g now i = some v) (hresolved : g.resolvedAt = some resolvedAt) :
    w.next (.process selected now i) =
      ((v.tryDue g now i (v.cycleQuery ⟨g.id, resolvedAt⟩)).finishRecovery g now).1 := by
  have hcycle : v.cycleRows g = v.cycleQuery ⟨g.id, resolvedAt⟩ := by
    unfold World.cycleRows
    rw [hresolved]
  show ((w.processDueRecovery selected now i).map Prod.fst).getD w = _
  unfold World.processDueRecovery
  rw [hget]
  dsimp only
  rw [if_pos hdue, hv, Option.map_some, Option.map_some, Option.getD_some, hcycle]

/-- A cycle with a time has a snapshot. -/
theorem exists_snapshot (w : World) (i : Inputs) (now : ℕ)
    (hresolved : g.resolvedAt = some resolvedAt) :
    ∃ v, w.snapshotRecoveryTargets g now i = some v := by
  unfold World.snapshotRecoveryTargets
  rw [hresolved]
  dsimp only
  split_ifs
  · exact ⟨_, rfl⟩
  · exact ⟨_, rfl⟩

/-! ## Runs on time -/

/-- A group that waits, and was selected as it stands, is due. -/
theorem Group.Waits.recoveryDue (h : g.Waits resolvedAt)
    (hselected : g.notificationDueAt = selected.notificationDueAt)
    (hdue : g.notificationDueAt = some due) (hnow : due ≤ now) :
    g.recoveryDue selected now = true := by
  unfold Group.recoveryDue
  rw [h.merged, h.status, h.queued, ← hselected, hdue]
  simpa using hnow

theorem Group.queued_pending (h : g.queued = true) : g.notificationPending = true := by
  unfold Group.queued at h
  rw [Bool.and_eq_true] at h
  exact h.1

/-- The open rows of a cycle are due together. -/
theorem Sound.due_together (h : Sound w) : ∀ d ∈ w.deliveries.rows, ∀ d' ∈ w.deliveries.rows,
    d.cycle = d'.cycle → d.status = .pending → d'.status = .pending →
    d.nextAttemptAt = d'.nextAttemptAt := by
  intro d hd d' hd' hc hpending hpending'
  obtain ⟨rounds, due, hrounds⟩ := h.rounds d'.cycle
  have hverdict := (hrounds.rows d hd hc).verdict
  have hverdict' := (hrounds.rows d' hd' rfl).verdict
  rw [Verdict, hpending] at hverdict
  rw [Verdict, hpending'] at hverdict'
  exact hverdict.2.2.2.trans hverdict'.2.2.2.symm

/-- A row that is pending has attempts left. -/
theorem Sound.attempts_lt (h : Sound w) (hd : d ∈ w.deliveries.rows)
    (hpending : d.status = .pending) : d.attempts < recoveryMaxAttempts := by
  obtain ⟨rounds, due, hrounds⟩ := h.rounds d.cycle
  have hreads := hrounds.rows d hd rfl
  have hverdict := hreads.verdict
  rw [Verdict, hpending] at hverdict
  rw [hreads.attempts]
  exact hverdict.2.1

/-- After a run on time the recovery is completed, or it waits for its open targets; those that
the run found open and due were tried. -/
theorem onTime_step (h : Sound w) (hget : w.groups.get group = some g) (hwaits : g.Waits resolvedAt)
    (hon : OnTime group w e) (hk : k = 0 ∨ ∃ k', k = k' + 1 ∧ Waiting group resolvedAt k' w) :
    Completed group resolvedAt (w.next e) ∨ Waiting group resolvedAt k (w.next e) := by
  obtain ⟨selected, now, i, rfl, rfl, hon⟩ := hon
  obtain ⟨hselected, due, hdue, hnow⟩ := hon g hget (g.queued_pending hwaits.queued)
  obtain ⟨hmem, hid⟩ := IdTable.get_eq_some.mp hget
  obtain ⟨v, hv⟩ := exists_snapshot w i now hwaits.resolvedAt
  have hnext := process_eq hget (hwaits.recoveryDue hselected hdue hnow) hv hwaits.resolvedAt
  have hsound : Sound (v.tryDue g now i (v.cycleQuery ⟨g.id, resolvedAt⟩)) :=
    (h.snapshot hmem hv).tryDue _ _ _ _
  set x := v.tryDue g now i (v.cycleQuery ⟨g.id, resolvedAt⟩) with hx
  have hrows : (w.next (.process selected now i)).deliveries = x.deliveries := by
    rw [hnext]
    exact (finishRecovery_rows x g now).1
  -- the row of the group is saved with another due time, or cleared
  have hsaved : ∀ g' : Group, g'.id = g.id → (x.groups.save g').get selected.id = some g' := by
    intro g' hid'
    have hgroups : x.groups = w.groups := (tryDue_groups _).trans (snapshot_calls hv).2
    rw [hgroups, IdTable.get_save, hget, Option.map_some, if_pos hid'.symm]
  rcases finishRecovery_spec x g now hwaits.resolvedAt with
    ⟨nextDue, ⟨d₀, hd₀, hp₀, ht₀⟩, hgroups⟩ | ⟨hdone, hgroups⟩
  · obtain ⟨hmem₀, hc₀⟩ := mem_cycleQuery.mp hd₀
    refine .inr ⟨⟨{ g with notificationDueAt := some nextDue, updatedAt := now }, nextDue, ?_, ?_,
      rfl, ?_⟩, ?_⟩
    · rw [hnext, hgroups]
      exact hsaved _ rfl
    · exact ⟨hwaits.status, hwaits.merged, hwaits.queued, hwaits.resolvedAt⟩
    · rw [hrows]
      intro d hd hc hpending
      rw [← hid] at hc
      refine ⟨?_, ?_⟩
      · rw [hsound.due_together d hd d₀ hmem₀ (hc.trans hc₀.symm) hpending hp₀]
        exact ht₀
      · rcases hk with rfl | ⟨k', rfl, hwaiting⟩
        · exact Nat.zero_le _
        · obtain ⟨⟨g₁, due₁, hget₁, -, hdue₁, hopen⟩, ⟨d₁, hd₁, hc₁, -⟩⟩ := hwaiting
          obtain rfl : g = g₁ := Option.some.inj (hget.symm.trans hget₁)
          obtain rfl : due = due₁ := Option.some.inj (hdue.symm.trans hdue₁)
          obtain ⟨r, hr, rfl⟩ := mem_tryDue.mp hd
          obtain ⟨-, hcr, -⟩ := settle_ident g now i
            (v.cycleQuery ⟨g.id, resolvedAt⟩) r
          rw [hcr] at hc
          have hrw : r ∈ w.deliveries.rows :=
            (snapshot_rows hv ⟨d₁, hd₁, hc₁.trans (by rw [hid])⟩ hc).mp hr
          by_cases hrp : r.status = .pending
          · obtain ⟨hrdue, hrk⟩ := hopen r hrw (hc.trans (by rw [hid])) hrp
            have hisdue : r.isDue now = true := by
              unfold Delivery.isDue
              rw [hrp, hrdue]
              simpa using hnow
            have hsettle : r.settle g now i (v.cycleQuery ⟨g.id, resolvedAt⟩) = _ :=
              if_pos ⟨mem_cycleQuery.mpr ⟨hr, hc⟩, hisdue⟩
            rw [hsettle, Delivery.tried_attempts]
            omega
          · have hnot : ¬(r ∈ v.cycleQuery ⟨g.id, resolvedAt⟩ ∧ r.isDue now = true) := by
              rintro ⟨-, hisdue⟩
              unfold Delivery.isDue at hisdue
              rw [decide_eq_false hrp] at hisdue
              exact Bool.false_ne_true hisdue
            have hsettle : r.settle g now i (v.cycleQuery ⟨g.id, resolvedAt⟩) = r := if_neg hnot
            rw [hsettle] at hpending
            exact absurd hpending hrp
    · rw [hrows]
      exact ⟨d₀, hmem₀, hc₀.trans (by rw [hid]), hp₀⟩
  · refine .inl ⟨g.cleared now, ?_, rfl, hwaits.status, hwaits.resolvedAt, ?_⟩
    · rw [hnext, hgroups]
      exact hsaved _ rfl
    · rw [hrows]
      intro d hd hc
      exact hdone d (mem_cycleQuery.mpr ⟨hd, hc.trans (by rw [hid])⟩)

/-- Nothing happens to a cycle that is complete. -/
theorem Completed.next (h : Completed group resolvedAt w) (hon : OnTime group w e) :
    Completed group resolvedAt (w.next e) := by
  obtain ⟨g, hget, hpending, hrest⟩ := h
  obtain ⟨selected, now, i, rfl, rfl, -⟩ := hon
  have hnot : g.recoveryDue selected now = false := by
    unfold Group.recoveryDue Group.queued
    rw [hpending]
    simp
  have hnext : w.next (.process selected now i) = w := by
    show ((w.processDueRecovery selected now i).map Prod.fst).getD w = w
    unfold World.processDueRecovery
    rw [hget]
    dsimp only
    rw [hnot]
    rfl
  rw [hnext]
  exact ⟨g, hget, hpending, hrest⟩

theorem Waiting.lt (h : Sound w) (hw : Waiting group resolvedAt k w) : k < recoveryMaxAttempts := by
  obtain ⟨⟨_, _, -, -, -, hopen⟩, ⟨d, hd, hc, hpending⟩⟩ := hw
  exact (hopen d hd hc hpending).2.trans_lt (h.attempts_lt hd hpending)

/-- One more attempt for every run on time. -/
theorem onTime_run (es : List Event) (h : Sound w) (hon : Along World.next (OnTime group) w es)
    (hk : Completed group resolvedAt w ∨ Waiting group resolvedAt k w) :
    Completed group resolvedAt (w.run es) ∨
      Waiting group resolvedAt (k + es.length) (w.run es) := by
  induction es generalizing w k with
  | nil => exact hk
  | cons e es ih =>
    obtain ⟨he, hon⟩ := hon
    have hstep : Completed group resolvedAt (w.next e) ∨
        Waiting group resolvedAt (k + 1) (w.next e) := by
      rcases hk with hdone | hwaiting
      · exact .inl (hdone.next he)
      · obtain ⟨g, _, hget, hwaits, -, -⟩ := hwaiting.due
        exact onTime_step h hget hwaits he (.inr ⟨k, rfl, hwaiting⟩)
    rw [List.length_cons, Nat.add_comm es.length 1, ← Nat.add_assoc]
    exact ih (h.next e) hon hstep

end IncidentRelay.Recovery
