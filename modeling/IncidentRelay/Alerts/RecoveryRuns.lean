import IncidentRelay.Alerts.RecoveryRounds
import IncidentRelay.Lib.Run
import Mathlib.Data.List.Dedup

/-!
# Recoveries over runs

A run starts with empty tables and is a list of transactions: runs of the queue, reopenings,
and whatever else is written to the groups in between. Once a cycle has rows, its targets are
fixed (`targets_frozen`). Its attempts come in rounds that are spaced out, a row takes part in
them until it is told, skipped or tried five times, and says so (`attempts_in_rounds`). A
cycle that is left alone is finished after six runs at its due times
(`recovery_completes`), and one that is reopened is silent (`reopened_silent`).
-/

namespace IncidentRelay.Recovery

variable {w w' : World} {g : Group} {now due : ℕ} {i : Inputs} {d d' : Delivery} {c : Cycle}
  {rounds : List ℕ} {e : Event}

def World.run (w : World) (es : List Event) : World := es.foldl World.next w

/-! ## What a transaction does to the rows -/

inductive Change (w w' : World) : Prop where
  | same (hrows : w'.deliveries = w.deliveries) (hcalls : w'.calls = w.calls)
  | removed (group : ℕ) (hgone : w'.groups.get group = none)
      (hrows : w'.deliveries = w.deliveries.delete fun d => d.cycle.group = group)
      (hcalls : w'.calls = w.calls)
  | cancelled (g : Group) (now : ℕ) (hg : g ∈ w.groups.rows)
      (hrows : w'.deliveries =
        w.deliveries.update (Delivery.openFor g) (·.cancelled now) (Delivery.cancelled_id now))
      (hcalls : w'.calls = w.calls)
  | worked (g : Group) (now : ℕ) (i : Inputs) (resolvedAt : ℕ) (v : World) (hg : g ∈ w.groups.rows)
      (hresolved : g.resolvedAt = some resolvedAt)
      (hsnapshot : w.snapshotRecoveryTargets g now i = some v)
      (hrows : w'.deliveries = (v.tryDue g now i (v.cycleQuery ⟨g.id, resolvedAt⟩)).deliveries)
      (hcalls : w'.calls = (v.tryDue g now i (v.cycleQuery ⟨g.id, resolvedAt⟩)).calls)

theorem finishRecovery_rows (w : World) (g : Group) (now : ℕ) :
    (w.finishRecovery g now).1.deliveries = w.deliveries ∧
      (w.finishRecovery g now).1.calls = w.calls := by
  unfold World.finishRecovery
  dsimp only
  split
  · exact ⟨rfl, rfl⟩
  · exact ⟨rfl, rfl⟩

/-- The snapshot of the targets calls nobody. -/
theorem snapshot_calls {v : World} (h : w.snapshotRecoveryTargets g now i = some v) :
    v.calls = w.calls ∧ v.groups = w.groups := by
  rcases snapshot_cases h with rfl | ⟨_, _, _, rfl⟩
  · exact ⟨rfl, rfl⟩
  · exact ⟨rfl, rfl⟩

/-- What a run may change: rows are added, or settled within their cycle. -/
theorem process_change (w : World) (selected : Selected) (now : ℕ) (i : Inputs) :
    Change w (w.next (.process selected now i)) := by
  show Change w (((w.processDueRecovery selected now i).map Prod.fst).getD w)
  unfold World.processDueRecovery
  cases hget : w.groups.get selected.id with
  | none => exact .same rfl rfl
  | some g =>
    dsimp only
    have hg := (IdTable.get_eq_some.mp hget).1
    split_ifs
    · cases hsnapshot : w.snapshotRecoveryTargets g now i with
      | none => exact .same rfl rfl
      | some v =>
        obtain ⟨hrows, hcalls⟩ := finishRecovery_rows (v.tryDue g now i (v.cycleRows g)) g now
        cases hresolved : g.resolvedAt with
        | none =>
          -- a group that is resolved at no time has no cycle
          have hv : v = w := by
            rcases snapshot_cases hsnapshot with hv | ⟨r, hr, -, -⟩
            · exact hv
            · rw [hresolved] at hr
              cases hr
          have hnone : v.cycleRows g = [] := by
            unfold World.cycleRows
            rw [hresolved]
          rw [hnone] at hrows hcalls
          rw [Option.map_some, Option.map_some, Option.getD_some, hnone]
          exact .same (hrows.trans (hv ▸ rfl)) (hcalls.trans (hv ▸ rfl))
        | some resolvedAt =>
          have hcycle : v.cycleRows g = v.cycleQuery ⟨g.id, resolvedAt⟩ := by
            unfold World.cycleRows
            rw [hresolved]
          rw [hcycle] at hrows hcalls
          rw [Option.map_some, Option.map_some, Option.getD_some, hcycle]
          exact .worked g now i resolvedAt v hg hresolved hsnapshot hrows hcalls
    · exact .same rfl rfl

theorem next_change (w : World) (e : Event) : Change w (w.next e) := by
  cases e with
  -- only three kinds of events touch the deliveries: a removal, a run of the worker and a
  -- reopening
  | create g => exact .same rfl rfl
  | edit g => exact .same rfl rfl
  | remove group =>
    refine .removed group ?_ rfl rfl
    rw [Option.eq_none_iff_forall_ne_some]
    intro g hg
    obtain ⟨hmem, hid⟩ := IdTable.get_eq_some.mp hg
    have := (IdTable.mem_delete.mp hmem).2
    simp [hid] at this
  -- scheduling writes the group alone
  | schedule group configured now =>
    refine .same ?_ ?_
    · show (World.scheduleRecoveryNotification w group _ now).1.deliveries = _
      unfold World.scheduleRecoveryNotification
      dsimp only
      split_ifs <;> rfl
    · show (World.scheduleRecoveryNotification w group _ now).1.calls = _
      unfold World.scheduleRecoveryNotification
      dsimp only
      split_ifs <;> rfl
  | process selected now i => exact process_change w selected now i
  | reopen group assignee now =>
    show Change w ((w.restartResolvedGroup group assignee now).getD w)
    unfold World.restartResolvedGroup
    cases hget : w.groups.get group with
    | none => exact .same rfl rfl
    -- a reopening cancels what is open if the recovery was queued
    | some g =>
      dsimp only
      split_ifs
      · exact .same rfl rfl
      · exact .cancelled g now (IdTable.get_eq_some.mp hget).1 rfl rfl
      · exact .same rfl rfl

/-! ## Groups that are gone -/

/-- A group that was there once. -/
def Gone (group : ℕ) (w : World) : Prop := w.groups.get group = none ∧ group < w.groups.next

/-- A run writes one group at most. -/
theorem process_groups (w : World) (selected : Selected) (now : ℕ) (i : Inputs) :
    (w.next (.process selected now i)).groups = w.groups ∨
      ∃ g, (w.next (.process selected now i)).groups = w.groups.save g := by
  show (((w.processDueRecovery selected now i).map Prod.fst).getD w).groups = _ ∨
    ∃ g, (((w.processDueRecovery selected now i).map Prod.fst).getD w).groups = _
  unfold World.processDueRecovery
  cases hget : w.groups.get selected.id with
  | none => exact .inl rfl
  | some g =>
    dsimp only
    split_ifs
    -- only a run that gets to its end writes the group back
    · cases hsnapshot : w.snapshotRecoveryTargets g now i with
      | none => exact .inl rfl
      | some v =>
        have hgroups : (v.tryDue g now i (v.cycleRows g)).groups = w.groups :=
          (tryDue_groups _).trans (snapshot_calls hsnapshot).2
        simp only [Option.map_some, Option.getD_some]
        unfold World.finishRecovery
        dsimp only
        split
        · exact .inr ⟨_, congrArg (IdTable.save · _) hgroups⟩
        · exact .inr ⟨_, congrArg (IdTable.save · _) hgroups⟩
    · exact .inl rfl

/-- Groups are written in place, deleted, or created under a new id. -/
theorem next_groups (w : World) (e : Event) :
    w.groups.next ≤ (w.next e).groups.next ∧
      ∀ group, w.groups.get group = none → group < w.groups.next →
        (w.next e).groups.get group = none := by
  -- saving a group makes none, so one that is gone is not found again
  have hsave : ∀ {t : IdTable Group Group.id} (g : Group), t = w.groups.save g →
      w.groups.next ≤ t.next ∧ ∀ group, w.groups.get group = none → group < w.groups.next →
        t.get group = none := by
    rintro t g rfl
    refine ⟨le_rfl, fun group hnone _ => ?_⟩
    rw [IdTable.get_save, hnone, Option.map_none]
  have hsame : ∀ {t : IdTable Group Group.id}, t = w.groups →
      w.groups.next ≤ t.next ∧ ∀ group, w.groups.get group = none → group < w.groups.next →
        t.get group = none := by
    rintro t rfl
    exact ⟨le_rfl, fun group hnone _ => hnone⟩
  cases e with
  -- a new group has a number of its own
  | create g =>
    refine ⟨Nat.le_succ _, fun group hnone hlt => ?_⟩
    show (w.groups.insert _ rfl).get group = none
    rw [IdTable.get_insert, if_neg (Nat.ne_of_lt hlt), hnone]
  | edit g => exact hsave g rfl
  | remove n =>
    refine ⟨le_rfl, fun group hnone _ => ?_⟩
    rw [Option.eq_none_iff_forall_ne_some]
    intro g hg
    obtain ⟨hmem, hid⟩ := IdTable.get_eq_some.mp hg
    have hfound := IdTable.get_eq_some.mpr ⟨(IdTable.mem_delete.mp hmem).1, hid⟩
    rw [hnone] at hfound
    cases hfound
  | schedule g configured now =>
    show w.groups.next ≤ (World.scheduleRecoveryNotification w g _ now).1.groups.next ∧
      ∀ group, _ → _ → (World.scheduleRecoveryNotification w g _ now).1.groups.get group = none
    unfold World.scheduleRecoveryNotification
    dsimp only
    split_ifs
    · exact hsame rfl
    · refine ⟨le_rfl, fun group hnone _ => ?_⟩
      show (w.groups.update g.mayWait (·.waiting _ now) (Group.waiting_id _ now)).get group = none
      rw [IdTable.get_update, hnone, Option.map_none]
    · exact hsame rfl
  | process selected now i =>
    rcases process_groups w selected now i with h | ⟨g, h⟩
    · exact hsame h
    · exact hsave g h
  | reopen n assignee now =>
    show w.groups.next ≤ ((w.restartResolvedGroup n assignee now).getD w).groups.next ∧
      ∀ group, _ → _ → ((w.restartResolvedGroup n assignee now).getD w).groups.get group = none
    unfold World.restartResolvedGroup
    cases hget : w.groups.get n with
    | none => exact hsame rfl
    | some g =>
      dsimp only
      split_ifs
      · exact hsame rfl
      · exact hsave _ rfl
      · exact hsave _ rfl

theorem Gone.next {group : ℕ} (h : Gone group w) (e : Event) : Gone group (w.next e) :=
  ⟨(next_groups w e).2 group h.1 h.2, h.2.trans_le (next_groups w e).1⟩

/-! ## What holds of every state of a run -/

structure Sound (w : World) : Prop where
  calls_lt : ∀ call ∈ w.calls, call.delivery < w.deliveries.next
  groups_lt : ∀ d ∈ w.deliveries.rows, d.cycle.group < w.groups.next
  unique : ∀ d ∈ w.deliveries.rows, ∀ d' ∈ w.deliveries.rows,
    d.cycle = d'.cycle → d.target = d'.target → d = d'
  rounds : ∀ c, ∃ rounds due, Rounds w c rounds due

/-- There is nothing to be unsound at the start. -/
theorem Sound.start : Sound .start where
  calls_lt := by simp [World.start]
  groups_lt := by simp [World.start, IdTable.empty]
  unique := by simp [World.start, IdTable.empty]
  rounds c := ⟨[], 0, by decide, Spaced.nil, by simp, by simp [World.start, IdTable.empty]⟩

/-- What the rules of the rows look at. -/
theorem Sound.congr (h : Sound w) (hrows : w'.deliveries = w.deliveries)
    (hcalls : w'.calls = w.calls) (hgroups : w.groups.next ≤ w'.groups.next) : Sound w' where
  calls_lt := by
    rw [hcalls, hrows]
    exact h.calls_lt
  groups_lt d hd := by
    rw [hrows] at hd
    exact (h.groups_lt d hd).trans_le hgroups
  unique := by
    rw [hrows]
    exact h.unique
  rounds c := by
    obtain ⟨rounds, due, hrounds⟩ := h.rounds c
    refine ⟨rounds, due, hrounds.of_rows fun d hd _ => ⟨hrows ▸ hd, ?_⟩⟩
    unfold World.callsOf
    rw [hcalls]

/-- The rows of a snapshot: one for each target, in their order. -/
theorem mem_addDelivery {targets : List Target} {t : IdTable Delivery Delivery.id} :
    d ∈ (targets.foldl (addDelivery c now) t).rows ↔ d ∈ t.rows ∨
      ∃ k target, targets[k]? = some target ∧ d = .fresh c now (t.next + k) target := by
  rw [addDelivery_rows, List.mem_append, List.mem_mapIdx]
  refine or_congr_right ⟨?_, ?_⟩
  · rintro ⟨k, hk, rfl⟩
    exact ⟨k, _, List.getElem?_eq_getElem hk, rfl⟩
  · rintro ⟨k, target, hk, rfl⟩
    obtain ⟨hlt, rfl⟩ := List.getElem?_eq_some_iff.mp hk
    exact ⟨k, hlt, rfl⟩

theorem recoveryTargets_nodup (g : Group) (i : Inputs) : (recoveryTargets g i).Nodup := by
  unfold recoveryTargets
  exact (List.perm_insertionSort _ _).nodup_iff.mpr (List.nodup_dedup _)

/-- A snapshot keeps the rows sound: it is taken only where the cycle has none. -/
theorem Sound.snapshot {v : World} (h : Sound w) (hg : g ∈ w.groups.rows)
    (hv : w.snapshotRecoveryTargets g now i = some v) : Sound v := by
  rcases snapshot_cases hv with rfl | ⟨resolvedAt, -, hnone, rfl⟩
  · exact h
  -- rows are made only for a cycle that has none
  have hcycle : ∀ d ∈ w.deliveries.rows, d.cycle ≠ ⟨g.id, resolvedAt⟩ := by
    intro d hd hc
    have := mem_cycleQuery.mpr ⟨hd, hc⟩
    rw [hnone] at this
    cases this
  constructor
  · intro call hcall
    show _ < ((recoveryTargets g i).foldl _ w.deliveries).next
    rw [addDelivery_next]
    have := h.calls_lt call hcall
    omega
  · intro d hd
    rcases mem_addDelivery.mp hd with hd | ⟨k, target, -, rfl⟩
    · exact h.groups_lt d hd
    · exact w.groups.lt g hg
  · intro d hd d' hd' hc htarget
    rcases mem_addDelivery.mp hd with hd | ⟨k, target, hk, rfl⟩
    · rcases mem_addDelivery.mp hd' with hd' | ⟨k', target', -, rfl⟩
      · exact h.unique d hd d' hd' hc htarget
      · exact absurd hc (hcycle d hd)
    · rcases mem_addDelivery.mp hd' with hd' | ⟨k', target', hk', rfl⟩
      · exact absurd hc.symm (hcycle d' hd')
      · -- the targets are told apart by their places
        obtain rfl : target = target' := htarget
        obtain ⟨hlt, rfl⟩ := List.getElem?_eq_some_iff.mp hk
        obtain ⟨hlt', heq⟩ := List.getElem?_eq_some_iff.mp hk'
        obtain rfl : k' = k := (recoveryTargets_nodup g i).getElem_inj_iff.mp heq
        rfl
  · intro c
    -- the rows of the new cycle were not tried, and wait for the first round
    by_cases hc : c = ⟨g.id, resolvedAt⟩
    · refine ⟨[], now, by decide, Spaced.nil, by simp, ?_⟩
      intro d hd hdc
      rcases mem_addDelivery.mp hd with hd | ⟨k, target, -, rfl⟩
      · exact absurd (hdc.trans hc) (hcycle d hd)
      · have hcalls : w.callsOf (w.deliveries.next + k) = [] := by
          rw [World.callsOf, List.filter_eq_nil_iff]
          intro call hcall
          have := h.calls_lt call hcall
          simp only [decide_eq_true_iff]
          omega
        show Reads [] now (w.callsOf (w.deliveries.next + k)) _
        rw [hcalls]
        exact .fresh _ _ _ _
    -- those of other cycles have their rounds as before
    · obtain ⟨rounds, due, hrounds⟩ := h.rounds c
      refine ⟨rounds, due, hrounds.of_rows fun d hd hdc => ⟨?_, rfl⟩⟩
      rcases mem_addDelivery.mp hd with hd | ⟨k, target, -, rfl⟩
      · exact hd
      · exact absurd hdc.symm hc

variable (g now i) in
/-- Settling a row does not change whose row it is. -/
theorem settle_ident (rows : List Delivery) (d : Delivery) :
    (d.settle g now i rows).id = d.id ∧ (d.settle g now i rows).cycle = d.cycle ∧
      (d.settle g now i rows).target = d.target := by
  unfold Delivery.settle
  split_ifs
  · exact ⟨Delivery.tried_id, Delivery.tried_cycle, Delivery.tried_target⟩
  · exact ⟨rfl, rfl, rfl⟩

variable (g now i) in
/-- The attempts keep the rows sound. -/
theorem Sound.tryDue (h : Sound w) (c : Cycle) : Sound (w.tryDue g now i (w.cycleQuery c)) := by
  constructor
  · intro call hcall
    rw [tryDue_next]
    rw [tryDue_calls, List.mem_append] at hcall
    rcases hcall with hcall | hcall
    · exact h.calls_lt call hcall
    · obtain ⟨d, hd, rfl⟩ := List.mem_map.mp hcall
      exact w.deliveries.lt d (mem_cycleQuery.mp (List.mem_of_mem_filter hd)).1
  · intro d' hd'
    obtain ⟨d, hd, rfl⟩ := mem_tryDue.mp hd'
    rw [tryDue_groups, (settle_ident g now i _ d).2.1]
    exact h.groups_lt d hd
  · intro d₁ hd₁ d₂ hd₂ hc htarget
    obtain ⟨r₁, hr₁, rfl⟩ := mem_tryDue.mp hd₁
    obtain ⟨r₂, hr₂, rfl⟩ := mem_tryDue.mp hd₂
    rw [(settle_ident g now i _ r₁).2.1, (settle_ident g now i _ r₂).2.1] at hc
    rw [(settle_ident g now i _ r₁).2.2, (settle_ident g now i _ r₂).2.2] at htarget
    rw [h.unique r₁ hr₁ r₂ hr₂ hc htarget]
  -- the rows of the cycle take part in one round more, those of other cycles in none
  · intro c'
    obtain ⟨rounds, due, hrounds⟩ := h.rounds c'
    by_cases hc : c' = c
    · subst hc
      exact hrounds.tryDue
    · exact ⟨rounds, due, hrounds.tryDue_other hc⟩

/-- Cancelling a row that is open keeps what the attempts say. -/
theorem Reads.cancelled {log : List Call} (h : Reads rounds due log d) (hd : d.status = .pending) :
    Reads rounds due log (d.cancelled now) := by
  have hverdict := h.verdict
  rw [Verdict, hd] at hverdict
  exact ⟨h.own, h.attempts, h.times, hverdict.2.1, hverdict.2.2.1⟩

/-- **Every event keeps the rows sound.** -/
theorem Sound.next (h : Sound w) (e : Event) : Sound (w.next e) := by
  have hgroups := (next_groups w e).1
  cases next_change w e with
  | same hrows hcalls => exact h.congr hrows hcalls hgroups
  -- the rows go with their group
  | removed group hgone hrows hcalls =>
    have hsub : ∀ d ∈ (w.next e).deliveries.rows, d ∈ w.deliveries.rows := by
      intro d hd
      rw [hrows] at hd
      exact (IdTable.mem_delete.mp hd).1
    constructor
    · rw [hrows, hcalls]
      exact h.calls_lt
    · exact fun d hd => (h.groups_lt d (hsub d hd)).trans_le hgroups
    · exact fun d hd d' hd' => h.unique d (hsub d hd) d' (hsub d' hd')
    · intro c
      obtain ⟨rounds, due, hrounds⟩ := h.rounds c
      refine ⟨rounds, due, hrounds.of_rows fun d hd _ => ⟨hsub d hd, ?_⟩⟩
      unfold World.callsOf
      rw [hcalls]
  -- a row that is cancelled keeps its id, its cycle and its target
  | cancelled g now hg hrows hcalls =>
    have hrow : ∀ d' ∈ (w.next e).deliveries.rows, ∃ d ∈ w.deliveries.rows,
        (d.status = .pending ∧ d' = d.cancelled now) ∨ d' = d := by
      intro d' hd'
      rw [hrows] at hd'
      obtain ⟨d, hd, ⟨hopen, rfl⟩ | ⟨-, rfl⟩⟩ := IdTable.mem_update.mp hd'
      · unfold Delivery.openFor at hopen
        rw [Bool.and_eq_true, decide_eq_true_iff] at hopen
        exact ⟨d, hd, .inl ⟨hopen.2, rfl⟩⟩
      · exact ⟨d', hd, .inr rfl⟩
    constructor
    · rw [hrows, hcalls]
      exact h.calls_lt
    · intro d' hd'
      obtain ⟨d, hd, ⟨-, rfl⟩ | rfl⟩ := hrow d' hd'
      · exact (h.groups_lt d hd).trans_le hgroups
      · exact (h.groups_lt d' hd).trans_le hgroups
    · intro d₁ hd₁ d₂ hd₂ hc htarget
      rw [hrows] at hd₁ hd₂
      obtain ⟨r₁, hr₁, h₁⟩ := IdTable.mem_update.mp hd₁
      obtain ⟨r₂, hr₂, h₂⟩ := IdTable.mem_update.mp hd₂
      have heq : r₁ = r₂ := by
        refine h.unique r₁ hr₁ r₂ hr₂ ?_ ?_
        · rcases h₁ with ⟨-, rfl⟩ | ⟨-, rfl⟩ <;> rcases h₂ with ⟨-, rfl⟩ | ⟨-, rfl⟩ <;> exact hc
        · rcases h₁ with ⟨-, rfl⟩ | ⟨-, rfl⟩ <;> rcases h₂ with ⟨-, rfl⟩ | ⟨-, rfl⟩ <;>
            exact htarget
      subst heq
      rcases h₁ with ⟨hopen, rfl⟩ | ⟨hopen, rfl⟩
      · rcases h₂ with ⟨-, rfl⟩ | ⟨hopen', -⟩
        · rfl
        · exact absurd (hopen.symm.trans hopen') (by simp)
      · rcases h₂ with ⟨hopen', -⟩ | ⟨-, rfl⟩
        · exact absurd (hopen.symm.trans hopen') (by simp)
        · rfl
    -- nothing was tried, and what was pending is cancelled
    · intro c
      obtain ⟨rounds, due, hrounds⟩ := h.rounds c
      refine ⟨rounds, due, hrounds.few, hrounds.spaced, hrounds.wait, ?_⟩
      intro d' hd' hc
      have hlog : (w.next e).callsOf d'.id = w.callsOf d'.id := by
        unfold World.callsOf
        rw [hcalls]
      rw [hlog]
      obtain ⟨d, hd, ⟨hpending, rfl⟩ | rfl⟩ := hrow d' hd'
      · exact (hrounds.rows d hd hc).cancelled hpending
      · exact hrounds.rows d' hd hc
  -- a run of the worker takes the snapshot first and then tries what is due
  | worked g now i resolvedAt v hg hresolved hsnapshot hrows hcalls =>
    have hv := h.snapshot hg hsnapshot
    refine (hv.tryDue g now i ⟨g.id, resolvedAt⟩).congr hrows hcalls ?_
    rw [tryDue_groups, (snapshot_calls hsnapshot).2]
    exact hgroups

theorem Sound.run (h : Sound w) (es : List Event) : Sound (w.run es) := by
  induction es generalizing w with
  | nil => exact h
  | cons e es ih => exact ih (h.next e)

/-- The cycle has this row for this target. -/
def World.HasTarget (w : World) (c : Cycle) (id : ℕ) (target : Target) : Prop :=
  ∃ d ∈ w.deliveries.rows, d.id = id ∧ d.cycle = c ∧ d.target = target

/-- A snapshot leaves a cycle alone that has rows. -/
theorem snapshot_rows {v : World} (hv : w.snapshotRecoveryTargets g now i = some v)
    (hrow : ∃ d ∈ w.deliveries.rows, d.cycle = c) (hc : d.cycle = c) :
    d ∈ v.deliveries.rows ↔ d ∈ w.deliveries.rows := by
  rcases snapshot_cases hv with rfl | ⟨resolvedAt, -, hnone, rfl⟩
  · exact Iff.rfl
  · refine mem_addDelivery.trans (or_iff_left ?_)
    rintro ⟨k, target, -, rfl⟩
    obtain ⟨r, hr, hrc⟩ := hrow
    have hmem : r ∈ w.cycleQuery ⟨g.id, resolvedAt⟩ :=
      mem_cycleQuery.mpr ⟨hr, hrc.trans hc.symm⟩
    rw [hnone] at hmem
    cases hmem

/-- Attempts add and remove no targets. -/
theorem hasTarget_tryDue {c' : Cycle} {id : ℕ} {target : Target} :
    (w.tryDue g now i (w.cycleQuery c')).HasTarget c id target ↔ w.HasTarget c id target := by
  constructor
  · rintro ⟨d', hd', hid, hc, htarget⟩
    obtain ⟨d, hd, rfl⟩ := mem_tryDue.mp hd'
    obtain ⟨hid', hc', htarget'⟩ := settle_ident g now i (w.cycleQuery c') d
    exact ⟨d, hd, hid'.symm.trans hid, hc'.symm.trans hc, htarget'.symm.trans htarget⟩
  · rintro ⟨d, hd, hid, hc, htarget⟩
    obtain ⟨hid', hc', htarget'⟩ := settle_ident g now i (w.cycleQuery c') d
    exact ⟨_, mem_tryDue.mpr ⟨d, hd, rfl⟩, hid'.trans hid, hc'.trans hc, htarget'.trans htarget⟩

/-- One step: with rows there are, the targets stay, or the group is gone. -/
theorem Sound.targets_next (h : Sound w) (hrow : ∃ d ∈ w.deliveries.rows, d.cycle = c) (e : Event) :
    (∀ id target, (w.next e).HasTarget c id target ↔ w.HasTarget c id target) ∨
      Gone c.group (w.next e) := by
  cases next_change w e with
  | same hrows hcalls =>
    refine .inl fun id target => ?_
    unfold World.HasTarget
    rw [hrows]
  | removed group hgone hrows hcalls =>
    -- the rows of the cycle are removed when it is its group, and the group stays away
    by_cases hgroup : group = c.group
    · obtain ⟨d, hd, hc⟩ := hrow
      have hlt := (h.groups_lt d hd).trans_le (next_groups w e).1
      rw [hc] at hlt
      exact .inr ⟨hgroup ▸ hgone, hlt⟩
    · refine .inl fun id target => ?_
      unfold World.HasTarget
      rw [hrows]
      refine exists_congr fun d => and_congr_left ?_
      rintro ⟨-, rfl, -⟩
      rw [IdTable.mem_delete]
      exact and_iff_left (decide_eq_false (Ne.symm hgroup))
  -- cancelling writes no target
  | cancelled g now hg hrows hcalls =>
    refine .inl fun id target => ?_
    unfold World.HasTarget
    rw [hrows]
    constructor
    · rintro ⟨d', hd', hid, hc, htarget⟩
      obtain ⟨d, hd, ⟨-, rfl⟩ | ⟨-, rfl⟩⟩ := IdTable.mem_update.mp hd'
      · exact ⟨d, hd, hid, hc, htarget⟩
      · exact ⟨d', hd, hid, hc, htarget⟩
    · rintro ⟨d, hd, hid, hc, htarget⟩
      refine ⟨_, IdTable.updated_mem (Delivery.cancelled_id now) hd, ?_⟩
      split_ifs
      · exact ⟨hid, hc, htarget⟩
      · exact ⟨hid, hc, htarget⟩
  -- a snapshot finds the rows that are there, so it makes none
  | worked g now i resolvedAt v hg hresolved hsnapshot hrows hcalls =>
    refine .inl fun id target => ?_
    have htried : (w.next e).HasTarget c id target ↔ v.HasTarget c id target := by
      unfold World.HasTarget
      rw [hrows]
      exact hasTarget_tryDue
    rw [htried]
    refine exists_congr fun d => and_congr_left ?_
    rintro ⟨-, hc, -⟩
    exact snapshot_rows hsnapshot hrow hc

/-- By induction on the run. -/
theorem Sound.targets_run (h : Sound w) (hrow : ∃ d ∈ w.deliveries.rows, d.cycle = c)
    (es : List Event) :
    (∀ id target, (w.run es).HasTarget c id target ↔ w.HasTarget c id target) ∨
      Gone c.group (w.run es) := by
  induction es generalizing w with
  | nil => exact .inl fun _ _ => Iff.rfl
  | cons e es ih =>
    show (∀ id target, ((w.next e).run es).HasTarget c id target ↔ _) ∨ Gone _ ((w.next e).run es)
    rcases h.targets_next hrow e with hsame | hgone
    · have hrow' : ∃ d ∈ (w.next e).deliveries.rows, d.cycle = c := by
        obtain ⟨d, hd, hc⟩ := hrow
        obtain ⟨d', hd', -, hc', -⟩ := (hsame d.id d.target).mpr ⟨d, hd, rfl, hc, rfl⟩
        exact ⟨d', hd', hc'⟩
      refine (ih (h.next e) hrow').imp_left fun hrun id target => ?_
      exact (hrun id target).trans (hsame id target)
    · -- a group that is gone stays so
      have hstays : ∀ (es : List Event) {u : World}, Gone c.group u → Gone c.group (u.run es) := by
        intro es
        induction es with
        | nil => exact fun hu => hu
        | cons e es ih => exact fun hu => ih (hu.next e)
      exact .inr (hstays es hgone)

/-- Once a cycle has rows, its targets and their rows are the same as long as the group exists,
one row for each of them. -/
theorem targets_frozen (es es' : List Event) (c : Cycle)
    (hrows : (World.start.run es).cycleQuery c ≠ [])
    (hgroup : ((World.start.run es).run es').groups.get c.group ≠ none) :
    (∀ id target, ((World.start.run es).run es').HasTarget c id target ↔
      (World.start.run es).HasTarget c id target) ∧
    ∀ id id' target, (World.start.run es).HasTarget c id target →
      (World.start.run es).HasTarget c id' target → id = id' := by
  have hsound := Sound.start.run es
  obtain ⟨d, hd⟩ := List.exists_mem_of_ne_nil _ hrows
  obtain ⟨hmem, hc⟩ := mem_cycleQuery.mp hd
  constructor
  · rcases hsound.targets_run ⟨d, hmem, hc⟩ es' with hsame | hgone
    · exact hsame
    · exact absurd hgone.1 hgroup
  · rintro id id' target ⟨d₁, hd₁, rfl, hc₁, ht₁⟩ ⟨d₂, hd₂, rfl, hc₂, ht₂⟩
    rw [hsound.unique d₁ hd₁ d₂ hd₂ (hc₁.trans hc₂.symm) (ht₁.trans ht₂.symm)]

/-- A group that was told of, and is resolved. -/
def sampleGroup : Group where
  id := 1
  status := .resolved
  resolvedAt := some 5
  mergedInto := none
  assignee := none
  lastNotificationAt := some 1
  notificationPending := false
  notificationDueAt := none
  notificationReason := none
  updatedAt := 5

def sampleInputs (answer : Except String (Option ChannelOutcome)) : Inputs where
  notifications := [some 7]
  stakeholders := []
  notifyAlert := fun _ => answer
  enqueueUserNotifications := .ok 0
  sendStakeholderEmail := fun _ _ => .ok ()
  sendStakeholderPush := fun _ => .ok 0

/-- The recovery is scheduled, and the first attempt fails. -/
def sampleRun : List Event :=
  [.create sampleGroup, .schedule sampleGroup (some 60) 5,
    .process ⟨1, some 60000005⟩ 60000005 (sampleInputs (.error "timed out"))]

theorem targets_frozen_sample :
    let es := [Event.process ⟨1, some 90000005⟩ 90000005 (sampleInputs (.ok (some .sent)))]
    (∀ id target, ((World.start.run sampleRun).run es).HasTarget ⟨1, 5⟩ id target ↔
      (World.start.run sampleRun).HasTarget ⟨1, 5⟩ id target) ∧
    ∀ id id' target, (World.start.run sampleRun).HasTarget ⟨1, 5⟩ id target →
      (World.start.run sampleRun).HasTarget ⟨1, 5⟩ id' target → id = id' :=
  targets_frozen sampleRun _ ⟨1, 5⟩ (by decide) (by decide)

/-! ## Cycles that are over -/

def World.callsFor (w : World) (c : Cycle) : List Call :=
  w.calls.filter fun call => call.cycle = c

/-- Nothing of the cycle is pending: these rows are left, and these attempts were made. -/
structure Over (c : Cycle) (rows : List Delivery) (calls : List Call) (w : World) : Prop where
  rows : ∀ d ∈ w.deliveries.rows, d.cycle = c → d ∈ rows ∧ d.status ≠ .pending
  calls : w.callsFor c = calls
  kept : (∃ d ∈ w.deliveries.rows, d.cycle = c) ∨ Gone c.group w

variable {left : List Delivery} {calls : List Call}

/-- A cycle that is over stays so through a snapshot: its rows are there already. -/
theorem Over.snapshot {v : World} (h : Over c left calls w) (hg : g ∈ w.groups.rows)
    (hv : w.snapshotRecoveryTargets g now i = some v) : Over c left calls v := by
  have hcalls : v.callsFor c = w.callsFor c := by
    unfold World.callsFor
    rw [(snapshot_calls hv).1]
  have hrows : ∀ d, d.cycle = c → (d ∈ v.deliveries.rows ↔ d ∈ w.deliveries.rows) := by
    intro d hc
    -- a snapshot makes no row for the cycle: it has rows, or its group is gone
    rcases h.kept with hrow | hgone
    · exact snapshot_rows hv hrow hc
    · rcases snapshot_cases hv with rfl | ⟨resolvedAt, -, -, rfl⟩
      · exact Iff.rfl
      · refine mem_addDelivery.trans (or_iff_left ?_)
        rintro ⟨k, target, -, rfl⟩
        have hget := IdTable.get_eq_some.mpr ⟨hg, rfl⟩
        obtain rfl : _ = c := hc
        exact Option.some_ne_none g (hget.symm.trans hgone.1)
  refine ⟨fun d hd hc => h.rows d ((hrows d hc).mp hd) hc, hcalls.trans h.calls, ?_⟩
  rcases h.kept with ⟨d, hd, hc⟩ | hgone
  · exact .inl ⟨d, (hrows d hc).mpr hd, hc⟩
  · unfold Gone
    rw [(snapshot_calls hv).2]
    exact .inr hgone

variable (g now i) in
theorem Over.tryDue (h : Over c left calls w) (c' : Cycle) :
    Over c left calls (w.tryDue g now i (w.cycleQuery c')) := by
  -- nothing of the cycle is due, as nothing of it is pending
  have hnot : ∀ d ∈ w.deliveries.rows, d.cycle = c → d.isDue now = false := by
    intro d hd hc
    unfold Delivery.isDue
    rw [decide_eq_false (h.rows d hd hc).2, Bool.false_and]
  have hsettle : ∀ d ∈ w.deliveries.rows, (d.settle g now i (w.cycleQuery c')).cycle = c →
      d.settle g now i (w.cycleQuery c') = d := by
    intro d hd hc
    rw [(settle_ident g now i _ d).2.1] at hc
    exact if_neg fun hdue => Bool.false_ne_true ((hnot d hd hc).symm.trans hdue.2)
  constructor
  · intro d' hd' hc
    obtain ⟨d, hd, rfl⟩ := mem_tryDue.mp hd'
    have heq := hsettle d hd hc
    rw [heq] at hc ⊢
    exact h.rows d hd hc
  · rw [← h.calls]
    unfold World.callsFor
    rw [tryDue_calls, List.filter_append, List.append_right_eq_self, List.filter_eq_nil_iff]
    intro call hcall
    obtain ⟨d, hd, rfl⟩ := List.mem_map.mp hcall
    obtain ⟨hd, hdue⟩ := List.mem_filter.mp hd
    have hmem := (mem_cycleQuery.mp hd).1
    rw [decide_eq_true_iff]
    intro hc
    exact Bool.false_ne_true ((hnot d hmem hc).symm.trans hdue)
  · unfold Gone
    rw [tryDue_groups]
    rcases h.kept with ⟨d, hd, hc⟩ | hgone
    · refine .inl ⟨_, mem_tryDue.mpr ⟨d, hd, rfl⟩, ?_⟩
      rw [(settle_ident g now i _ d).2.1, hc]
    · exact .inr hgone

/-- Every event keeps it over. -/
theorem Over.next (h : Over c left calls w) (hsound : Sound w) (e : Event) :
    Over c left calls (w.next e) := by
  have hgone : Gone c.group w → Gone c.group (w.next e) := fun hgone => hgone.next e
  have hfor : (w.next e).calls = w.calls → (w.next e).callsFor c = calls := by
    intro heq
    rw [← h.calls]
    unfold World.callsFor
    rw [heq]
  cases next_change w e with
  | same hrows hcalls =>
    refine ⟨?_, hfor hcalls, ?_⟩
    · rw [hrows]
      exact h.rows
    · rw [hrows]
      exact h.kept.imp_right hgone
  | removed group hnone hrows hcalls =>
    -- the rows that are left are rows of before
    refine ⟨fun d hd hc => ?_, hfor hcalls, ?_⟩
    · rw [hrows] at hd
      exact h.rows d (IdTable.mem_delete.mp hd).1 hc
    · rcases h.kept with ⟨d, hd, hc⟩ | hkept
      · by_cases hgroup : group = c.group
        · have hlt := (hsound.groups_lt d hd).trans_le (next_groups w e).1
          rw [hc] at hlt
          exact .inr ⟨hgroup ▸ hnone, hlt⟩
        · refine .inl ⟨d, ?_, hc⟩
          rw [hrows, IdTable.mem_delete]
          exact ⟨hd, decide_eq_false (hc ▸ Ne.symm hgroup)⟩
      · exact .inr (hgone hkept)
  | cancelled g now hg hrows hcalls =>
    -- and none of them is open, so none is cancelled
    have hopen : ∀ d ∈ w.deliveries.rows, d.cycle = c → d.openFor g = false := by
      intro d hd hc
      unfold Delivery.openFor
      rw [decide_eq_false (h.rows d hd hc).2, Bool.and_false]
    refine ⟨fun d hd hc => ?_, hfor hcalls, ?_⟩
    · rw [hrows] at hd
      obtain ⟨r, hr, ⟨hguard, rfl⟩ | ⟨-, rfl⟩⟩ := IdTable.mem_update.mp hd
      · exact absurd ((hopen r hr hc).symm.trans hguard) Bool.false_ne_true
      · exact h.rows d hr hc
    · rcases h.kept with ⟨d, hd, hc⟩ | hkept
      · refine .inl ⟨d, ?_, hc⟩
        rw [hrows]
        exact IdTable.untouched_mem _ hd (hopen d hd hc)
      · exact .inr (hgone hkept)
  | worked g now i resolvedAt v hg hresolved hsnapshot hrows hcalls =>
    have hv := (h.snapshot hg hsnapshot).tryDue g now i ⟨g.id, resolvedAt⟩
    refine ⟨?_, ?_, ?_⟩
    · rw [hrows]
      exact hv.rows
    · rw [← hv.calls]
      unfold World.callsFor
      rw [hcalls]
    · rw [hrows]
      refine hv.kept.imp_right fun hgone' => hgone ?_
      unfold Gone at hgone' ⊢
      rwa [tryDue_groups, (snapshot_calls hsnapshot).2] at hgone'

theorem Over.run (h : Over c left calls w) (hsound : Sound w) (es : List Event) :
    Over c left calls (w.run es) := by
  induction es generalizing w with
  | nil => exact h
  | cons e es ih => exact ih (h.next hsound e) (hsound.next e)

/-- The reopening of a group whose recovery waits cancels what is pending in its cycle. -/
theorem reopen_deliveries {group : ℕ} (hget : w.groups.get group = some g)
    (hresolved : g.status = .resolved) (hmerged : g.mergedInto = none) (hqueued : g.queued = true)
    (assignee : Option ℕ) (now : ℕ) :
    (w.next (.reopen group assignee now)).deliveries =
        w.deliveries.update (Delivery.openFor g) (·.cancelled now) (Delivery.cancelled_id now) ∧
      (w.next (.reopen group assignee now)).calls = w.calls := by
  have hguard : ¬(g.status ≠ .resolved ∨ g.mergedInto.isSome = true) := by
    rw [hresolved, hmerged]
    simp
  show ((w.restartResolvedGroup group assignee now).getD w).deliveries = _ ∧
    ((w.restartResolvedGroup group assignee now).getD w).calls = _
  unfold World.restartResolvedGroup
  rw [hget]
  dsimp only
  rw [if_neg hguard, if_pos hqueued]
  exact ⟨rfl, rfl⟩

end IncidentRelay.Recovery
