import IncidentRelay.Alerts.Balance

/-!
# Acknowledging and resolving a group

`acknowledge_alert` and `resolve_alert` leave a group that is over. A resolve writes the
counters of the group without a recalculation, and forgets the one of the silenced
children (`resolve_balanced_iff`).
-/

namespace IncidentRelay.Alerts

/-! ## The functions -/

/-- `acknowledge_alert(alert_id, user_id)` on the row of a group id. -/
def acknowledgeGroup (s : Store) (groupId : ℕ) (userId : Option ℕ) (now : Instant) : Store :=
  match s.groups.get groupId with
  | none => s
  | some g =>
    if g.status = .acknowledged ∨ g.status = .resolved ∨ g.status = .merged ∨
      g.mergedInto.isSome = true then s
    else s.acknowledgeAlertGroup g userId now

/-- `resolve_alert(alert_id, user_id)` on the row of a group id. -/
def resolveGroup (s : Store) (groupId : ℕ) (userId : Option ℕ) (now : Instant) : Store :=
  match s.groups.get groupId with
  | none => s
  | some g =>
    if g.status = .resolved ∨ g.status = .merged ∨ g.mergedInto.isSome = true then s
    else s.resolveAlertGroup g userId now

/-! ## Acknowledging -/

section Acknowledge

variable {due : ℕ → Prop} {s : Store}

/-- An acknowledgement touches no alert, and the row keeps what the recalculation wrote. -/
theorem acknowledge_tidy (h : Tidy due s) (groupId : ℕ) (userId : Option ℕ) (now : Instant) :
    Tidy due (acknowledgeGroup s groupId userId now) := by
  unfold acknowledgeGroup
  split
  · exact h
  · rename_i g hg
    obtain ⟨hmem, rfl⟩ := IdTable.get_eq_some.mp hg
    split_ifs with hover
    · exact h
    · push Not at hover
      refine h.saveGroup hmem ⟨rfl, rfl, ?_, rfl, rfl, rfl, rfl, rfl⟩
      exact iff_of_false (by simp) hover.2.1

end Acknowledge

/-! ## Resolving -/

section Resolve

variable {due : ℕ → Prop} {s : Store} {g : AlertGroup} (userId : Option ℕ) (now : Instant)

/-- The children of a group when it is resolved. -/
theorem children_resolved (n : ℕ) : (s.resolveAlertGroup g userId now).children n =
    (s.children n).map fun a => if Store.childOf g.id a && a.status ≠ .resolved then
      { a with status := .resolved, resolvedAt := some now } else a := by
  refine children_updateAlerts ?_ ?_ n
  · exact fun _ => rfl
  · exact fun _ => rfl

/-- An alert behind it is one of before, or it is resolved now. -/
theorem mem_resolved {b : Alert} (hb : b ∈ (s.resolveAlertGroup g userId now).alerts.rows) :
    ∃ a ∈ s.alerts.rows, b.group = a.group ∧ (b.status = .resolved ∨ b = a) := by
  obtain ⟨a, ha, rfl⟩ := List.mem_map.mp hb
  refine ⟨a, ha, ?_⟩
  split_ifs
  · exact ⟨rfl, .inl rfl⟩
  · exact ⟨rfl, .inr rfl⟩

/-- They are resolved. -/
theorem resolved_of_child {b : Alert} (hb : b ∈ (s.resolveAlertGroup g userId now).children g.id) :
    b.status = .resolved := by
  rw [children_resolved] at hb
  obtain ⟨a, ha, rfl⟩ := List.mem_map.mp hb
  have hchild : Store.childOf g.id a = true := childOf_iff.mpr (mem_children.mp ha).2
  by_cases hresolved : a.status = .resolved <;> simp [hchild, hresolved]

/-- A resolve has no children but those of its group. -/
theorem children_resolved_other {n : ℕ} (hn : n ≠ g.id) :
    (s.resolveAlertGroup g userId now).children n = s.children n := by
  rw [children_resolved]
  refine (List.map_congr_left fun a ha => ?_).trans (List.map_id _)
  have hother : Store.childOf g.id a = false := by
    refine decide_eq_false fun hgroup => hn ?_
    exact Option.some.inj ((mem_children.mp ha).2.symm.trans hgroup)
  simp [hother]

theorem countStatus_of_resolved {alerts : List Alert} (h : ∀ a ∈ alerts, a.status = .resolved)
    {status : Status} (hstatus : status ≠ .resolved) : Store.countStatus status alerts = 0 := by
  refine List.countP_eq_zero.mpr fun a ha => ?_
  simp [h a ha, hstatus.symm]

theorem countStatus_resolved {alerts : List Alert} (h : ∀ a ∈ alerts, a.status = .resolved) :
    Store.countStatus .resolved alerts = alerts.length :=
  List.countP_eq_length.mpr fun a ha => by simp [h a ha]

/-- A count is zero exactly where no alert has the status. -/
theorem countStatus_eq_zero {alerts : List Alert} {status : Status} :
    Store.countStatus status alerts = 0 ↔ ∀ a ∈ alerts, a.status ≠ status := by
  unfold Store.countStatus
  rw [List.countP_eq_zero]
  simp

/-- The row of the group when it is resolved. -/
def resolvedRow (s : Store) (g : AlertGroup) (userId : Option ℕ) (now : Instant) : AlertGroup :=
  { g with
    previousStatus := some g.status
    status := .resolved
    resolvedBy := userId
    resolvedAt := some now
    firingCount := 0
    acknowledgedCount := 0
    resolvedCount := ((s.resolveAlertGroup g userId now).children g.id).length
    updatedAt := now }

theorem resolveAlertGroup_groups : (s.resolveAlertGroup g userId now).groups =
    s.groups.save (resolvedRow s g userId now) := rfl

/-- **A resolved group is balanced exactly when no child of it was silenced.** -/
theorem resolve_balanced_iff (h : Balanced s g) :
    Balanced (s.resolveAlertGroup g userId now) (resolvedRow s g userId now) ↔
      ∀ a ∈ s.children g.id, a.status ≠ .silenced := by
  have hall : ∀ b ∈ (s.resolveAlertGroup g userId now).children g.id, b.status = .resolved :=
    fun b hb => resolved_of_child userId now hb
  rw [← countStatus_eq_zero, ← h.silencedCount]
  -- every child is resolved, so no open one is left to count
  constructor
  · intro hbalanced
    have hsilenced : g.silencedCount =
        Store.countStatus .silenced ((s.resolveAlertGroup g userId now).children g.id) :=
      hbalanced.silencedCount
    rw [hsilenced, countStatus_of_resolved hall (by simp)]
  · intro hzero
    exact
      { alertCount := by
          show g.alertCount = ((s.resolveAlertGroup g userId now).children g.id).length
          rw [children_resolved, List.length_map, h.alertCount]
        firingCount := (countStatus_of_resolved hall (by simp)).symm
        acknowledgedCount := (countStatus_of_resolved hall (by simp)).symm
        resolvedCount := (countStatus_resolved hall).symm
        silencedCount := hzero.trans (countStatus_of_resolved hall (by simp)).symm
        faithful := fun _ => iff_of_true rfl hall }

/-- The group that is resolved is due where it has silenced children. -/
theorem resolveAlertGroup_tidy (h : Tidy due s) (hg : g ∈ s.groups.rows)
    (hmerged : g.mergedInto = none) :
    Tidy (fun n => due n ∨ (n = g.id ∧ ∃ a ∈ s.children g.id, a.status = .silenced))
      (s.resolveAlertGroup g userId now) := by
  have hrows : RowOnly g.id s.groups.rows (s.resolveAlertGroup g userId now).groups.rows :=
    RowOnly.save s (resolvedRow s g userId now)
  have hstored : resolvedRow s g userId now ∈ (s.resolveAlertGroup g userId now).groups.rows :=
    IdTable.mem_save.mpr (.inr ⟨rfl, g, hg, rfl⟩)
  -- the alerts are clean, their groups faithful, and the counters follow
  refine
    { grouped := fun b hb => ?_
      clean := fun b hb => ?_
      faithful := fun r hr hr_merged => ?_
      balanced := fun r hr hr_merged hnot => ?_ }
  · obtain ⟨a, ha, hgroup, -⟩ := mem_resolved userId now hb
    exact Tidy.grouped_of_rows h.grouped hrows ha hgroup
  · obtain ⟨a, ha, -, hresolved | rfl⟩ := mem_resolved userId now hb
    · exact fun hopen => absurd hresolved hopen
    · exact h.clean b ha
  -- the resolved group itself, and then any other one
  · by_cases hid : r.id = g.id
    · rw [IdTable.eq_of_id hr hstored hid]
      exact fun _ => iff_of_true rfl fun b hb => resolved_of_child userId now hb
    · exact (h.faithful r ((hrows.mem_iff hid).mp hr) hr_merged).same (.refl r)
        (children_resolved_other userId now hid)
  -- the counters of the resolved group agree when no child was silenced
  · by_cases hid : r.id = g.id
    · rw [IdTable.eq_of_id hr hstored hid]
      refine (resolve_balanced_iff userId now (h.balanced g hg hmerged fun hdue => ?_)).mpr ?_
      · exact hnot (.inl (hid ▸ hdue))
      · exact fun a ha hsilenced => hnot (.inr ⟨hid, a, ha, hsilenced⟩)
    · exact (h.balanced r ((hrows.mem_iff hid).mp hr) hr_merged fun hdue => hnot (.inl hdue)).same
        (.refl r) (children_resolved_other userId now hid)

/-- A group that is over is left. -/
theorem resolveGroup_tidy (h : Tidy (fun _ => True) s) (groupId : ℕ) :
    Tidy (fun _ => True) (resolveGroup s groupId userId now) := by
  unfold resolveGroup
  split
  · exact h
  · rename_i g hg
    obtain ⟨hmem, -⟩ := IdTable.get_eq_some.mp hg
    split_ifs with hover
    · exact h
    · push Not at hover
      exact (resolveAlertGroup_tidy userId now h hmem
        (Option.not_isSome_iff_eq_none.mp hover.2.2)).mono fun _ _ => trivial

end Resolve

end IncidentRelay.Alerts
