import IncidentRelay.Alerts.GroupWork

/-!
# Balanced stores

A store is tidy when every alert has a group and every group that is not merged is
balanced, but for the groups of a set whose recalculation is still due. Work on one alert
puts its group into the set, and a recalculation takes it out.
-/

namespace IncidentRelay.Alerts

/-! ## The status under a window -/

/-- A status that a group can go back to. -/
def restorable (status : Option Status) : Option Status :=
  status.filter fun t => t ≠ .maintenance && t ≠ .resolved

/-- `_original_status_for_group(group, fallback)`, with the statuses that the applications
of the group remember. -/
def originalStatusForGroup (fallback : Option Status) (applications : List (Option Status))
    (g : AlertGroup) : Status :=
  match restorable (fallback.filter fun t => t ≠ .other "") with
  | some t => t
  | none =>
    match applications.findSome? restorable with
    | some t => t
    | none => (restorable g.previousStatus).getD .firing

/-- The services with the status that `_original_status_for_group` finds. -/
structure IntakeServices extends Services where
  fallback : Store → AlertGroup → Option Status
  applicationStatuses : Store → AlertGroup → List (Option Status)
  original : ∀ s g,
    originalStatus s g = originalStatusForGroup (fallback s g) (applicationStatuses s g) g

/-- Only the status of an open alert is restored. -/
theorem restorable_open {status : Option Status} {t : Status} (h : restorable status = some t) :
    t ≠ .resolved := by
  obtain ⟨-, hopen⟩ := Option.filter_eq_some_iff.mp h
  simp only [Bool.and_eq_true, decide_eq_true_eq] at hopen
  exact hopen.2

/-- The services of the intake restore what `restorable` lets through. -/
theorem IntakeServices.restoresOpen (env : IntakeServices) : env.RestoresOpen := by
  intro s g
  rw [env.original]
  unfold originalStatusForGroup
  split
  · rename_i t ht
    exact restorable_open ht
  · split
    · rename_i t ht
      obtain ⟨_, _, _, -, ht, -⟩ := List.findSome?_eq_some_iff.mp ht
      exact restorable_open ht
    · cases hprevious : restorable g.previousStatus with
      | none => simp
      | some t => exact restorable_open hprevious

/-! ## Stores -/

/-- The groups that are not merged are faithful, and balanced outside the set. -/
structure Tidy (due : ℕ → Prop) (s : Store) : Prop where
  grouped : Grouped s
  clean : ∀ a ∈ s.alerts.rows, a.Clean
  faithful : ∀ g ∈ s.groups.rows, g.mergedInto = none → Faithful s g
  balanced : ∀ g ∈ s.groups.rows, g.mergedInto = none → ¬due g.id → Balanced s g

theorem tidy_empty (due : ℕ → Prop) : Tidy due Store.empty :=
  ⟨fun _ ha => absurd ha List.not_mem_nil, fun _ ha => absurd ha List.not_mem_nil,
    fun _ hg => absurd hg List.not_mem_nil, fun _ hg => absurd hg List.not_mem_nil⟩

/-- A group with the same children and the same columns. -/
structure SameColumns (g g' : AlertGroup) : Prop where
  id : g'.id = g.id
  mergedInto : g'.mergedInto = g.mergedInto
  resolved : g'.status = .resolved ↔ g.status = .resolved
  alertCount : g'.alertCount = g.alertCount
  firingCount : g'.firingCount = g.firingCount
  acknowledgedCount : g'.acknowledgedCount = g.acknowledgedCount
  resolvedCount : g'.resolvedCount = g.resolvedCount
  silencedCount : g'.silencedCount = g.silencedCount

section Same

variable {s t : Store} {g g' : AlertGroup}

/-- Columns that say nothing of the children may change. -/
theorem Faithful.same (h : Faithful s g) (hg : SameColumns g g')
    (hchildren : t.children g.id = s.children g.id) : Faithful t g' := by
  intro hsome
  rw [hg.id, hchildren] at hsome ⊢
  rw [hg.resolved]
  exact h hsome

/-- The same holds of a row that agrees with its children. -/
theorem Balanced.same (h : Balanced s g) (hg : SameColumns g g')
    (hchildren : t.children g.id = s.children g.id) : Balanced t g' where
  alertCount := by rw [hg.alertCount, hg.id, hchildren, h.alertCount]
  firingCount := by rw [hg.firingCount, hg.id, hchildren, h.firingCount]
  acknowledgedCount := by rw [hg.acknowledgedCount, hg.id, hchildren, h.acknowledgedCount]
  resolvedCount := by rw [hg.resolvedCount, hg.id, hchildren, h.resolvedCount]
  silencedCount := by rw [hg.silencedCount, hg.id, hchildren, h.silencedCount]
  faithful := h.faithful.same hg hchildren

theorem SameColumns.refl (g : AlertGroup) : SameColumns g g :=
  ⟨rfl, rfl, Iff.rfl, rfl, rfl, rfl, rfl, rfl⟩

end Same

namespace Tidy

variable {due due' : ℕ → Prop} {s t : Store}

theorem mono (h : Tidy due s) (hdue : ∀ n, due n → due' n) : Tidy due' s :=
  { h with balanced := fun g hg hmerged hnot => h.balanced g hg hmerged fun hn => hnot (hdue _ hn) }

/-- Work on one group: the others are as they were, and it is settled by itself. -/
theorem work {n : ℕ} (h : Tidy due s) (hgrouped : Grouped t)
    (hclean : ∀ a ∈ t.alerts.rows, a.Clean)
    (hchildren : ∀ m, m ≠ n → t.children m = s.children m)
    (hgroups : ∀ r : AlertGroup, r.id ≠ n → r ∈ t.groups.rows → r ∈ s.groups.rows)
    (hgroup : ∀ r ∈ t.groups.rows, r.id = n → r.mergedInto = none →
      Faithful t r ∧ (¬due' n → Balanced t r))
    (hdue : ∀ m, m ≠ n → due m → due' m) : Tidy due' t where
  grouped := hgrouped
  clean := hclean
  faithful r hr hmerged := by
    by_cases hid : r.id = n
    · exact (hgroup r hr hid hmerged).1
    · exact (h.faithful r (hgroups r hid hr) hmerged).same (.refl r) (hchildren _ hid)
  balanced r hr hmerged hnot := by
    by_cases hid : r.id = n
    · exact (hgroup r hr hid hmerged).2 (hid ▸ hnot)
    · exact (h.balanced r (hgroups r hid hr) hmerged fun hn => hnot (hdue _ hid hn)).same (.refl r)
        (hchildren _ hid)

/-- An event leaves its group in balance. -/
theorem event {env : Services} {n : ℕ} {created : List ℕ} (h : Tidy due s)
    (henv : env.RestoresOpen) (hspec : EventSpec env s t n created) : Tidy due t := by
  refine h.work (hspec.grouped h.grouped) (hspec.clean h.clean)
    (fun m hm => hspec.children_other hm) (fun r hr => (hspec.others r hr).mp) ?_ fun _ _ hm => hm
  intro r hr hid hmerged
  obtain ⟨g, hg, rfl, hbefore, -, hbalanced⟩ := hspec.group
  rw [IdTable.eq_of_id hr hg hid] at hmerged ⊢
  have hb := hbalanced henv h.clean fun r' hr' hr'_id =>
    h.faithful r' hr' (by rw [← hbefore r' hr' hr'_id, hmerged])
  exact ⟨hb.faithful, fun _ => hb⟩

/-- The groups that are there are those that were. -/
theorem grouped_of_rows {n : ℕ} (h : Grouped s) (hrows : RowOnly n s.groups.rows t.groups.rows)
    {b : Alert} {a : Alert} (ha : a ∈ s.alerts.rows) (hgroup : b.group = a.group) :
    ∃ g ∈ t.groups.rows, b.group = some g.id := by
  obtain ⟨g, hg, hg_group⟩ := h a ha
  obtain ⟨g', hg', hid, -⟩ := Rows.exists_right hrows hg
  exact ⟨g', hg', by rw [hgroup, hg_group, hid]⟩

/-- A recalculation settles its group. -/
theorem recalculate (h : Tidy due s) {g : AlertGroup} (hg : g ∈ s.groups.rows) (now : Instant) :
    Tidy (fun n => due n ∧ n ≠ g.id) (s.recalculateAlertGroup g now).1 := by
  have hwork := works_recalculate (P := True) s g now
  refine h.work (n := g.id) ?_ (hwork.clean h.clean) (fun m hm => ?_)
    (fun r hr => (hwork.groups.mem_iff hr).mp) (fun r hr hid hmerged => ?_) fun m hm hn => ⟨hn, hm⟩
  · intro b hb
    obtain ⟨a, ha, hab⟩ := Rows.exists_left hwork.alerts hb
    refine grouped_of_rows h.grouped hwork.groups ha ?_
    rcases hab with rfl | ⟨-, hab⟩
    · rfl
    · exact hab.group
  · exact hwork.alerts.filter_eq (fun hab => hab.group) hm
  · rw [IdTable.eq_of_id hr (hwork.stored hg) (hid.trans hwork.id.symm)] at hmerged ⊢
    rw [hwork.mergedInto] at hmerged
    have hb := balanced_recalculate now fun hresolved _ =>
      (h.faithful g hg hmerged).honest hresolved
    exact ⟨hb.faithful, fun _ => hb⟩

/-- A child is rewritten that is as resolved as before; its group is due. -/
theorem saveAlert (h : Tidy due s) {a a' : Alert} {n : ℕ} (ha : a ∈ s.alerts.rows)
    (hgroup : a.group = some n) (htended : Tended a a') (hdue : due n) :
    Tidy due (s.saveAlert a') := by
  have hwrite : ChildrenOnly Tended n s.alerts.rows (s.saveAlert a').alerts.rows := by
    refine .update fun b hb hid => ?_
    have hid : b.id = a'.id := of_decide_eq_true hid
    obtain rfl := IdTable.eq_of_id hb ha (hid.trans htended.id)
    refine ⟨hgroup, ?_⟩
    dsimp only
    rwa [if_pos hid]
  have hclean : ∀ b ∈ (s.saveAlert a').alerts.rows, b.Clean := by
    intro b hb
    obtain ⟨c, hc, rfl | ⟨-, hcb⟩⟩ := Rows.exists_left hwrite hb
    · exact h.clean _ hc
    · exact hcb.clean (h.clean c hc)
  refine h.work (n := n) ?_ hclean (fun m hm => hwrite.filter_eq (fun hab => hab.group) hm)
    (fun r _ hr => hr) (fun r hr hid hmerged => ⟨?_, fun hnot => absurd hdue hnot⟩) fun _ _ hm => hm
  · intro b hb
    obtain ⟨c, hc, hcb⟩ := Rows.exists_left hwrite hb
    obtain ⟨g, hg, hg_group⟩ := h.grouped c hc
    refine ⟨g, hg, ?_⟩
    rcases hcb with rfl | ⟨-, hcb⟩
    · exact hg_group
    · rw [hcb.group, hg_group]
  · -- each child is as resolved as before
    have hr : r ∈ s.groups.rows := hr
    have hbefore := h.faithful r hr hmerged
    have hpairs : ∀ {P : Prop}, (P ↔ ∀ b ∈ s.children r.id, b.status = .resolved) →
        (P ↔ ∀ b ∈ (s.saveAlert a').children r.id, b.status = .resolved) := by
      intro P hP
      rw [hP]
      constructor
      · intro hall b hb
        obtain ⟨hb, hb_group⟩ := mem_children.mp hb
        obtain ⟨c, hc, rfl | ⟨hchild, hcb⟩⟩ := Rows.exists_left hwrite hb
        · exact hall _ (mem_children.mpr ⟨hc, hb_group⟩)
        · exact (hcb.resolved (h.clean c hc)).mpr (hall c (mem_children.mpr ⟨hc, hid ▸ hchild⟩))
      · intro hall c hc
        obtain ⟨hc, hc_group⟩ := mem_children.mp hc
        obtain ⟨b, hb, rfl | ⟨hchild, hcb⟩⟩ := Rows.exists_right hwrite hc
        · exact hall _ (mem_children.mpr ⟨hb, hc_group⟩)
        · refine (hcb.resolved (h.clean c hc)).mp (hall b (mem_children.mpr ⟨hb, ?_⟩))
          rw [hcb.group, hc_group]
    intro hsome
    refine hpairs (hbefore fun hempty => hsome ?_)
    refine List.eq_nil_iff_forall_not_mem.mpr fun b hb => ?_
    obtain ⟨hb, hb_group⟩ := mem_children.mp hb
    obtain ⟨c, hc, hcb⟩ := Rows.exists_left hwrite hb
    have hc_child : c ∈ s.children r.id := by
      refine mem_children.mpr ⟨hc, ?_⟩
      rcases hcb with rfl | ⟨hchild, -⟩
      · exact hb_group
      · rw [hchild, hid]
    rw [hempty] at hc_child
    cases hc_child

/-- A group is written with the same columns. -/
theorem saveGroup (h : Tidy due s) {g g' : AlertGroup} (hg : g ∈ s.groups.rows)
    (hsame : SameColumns g g') : Tidy due (s.saveGroup g') := by
  have hrows := RowOnly.save s g'
  refine h.work (n := g.id) ?_ h.clean (fun _ _ => rfl) (fun r hr hmem => ?_)
    (fun r hr hid hmerged => ?_) fun _ _ hm => hm
  · intro b hb
    exact grouped_of_rows h.grouped hrows hb rfl
  · exact (hrows.mem_iff (by rwa [hsame.id])).mp hmem
  · have hstored : g' ∈ (s.saveGroup g').groups.rows :=
      IdTable.mem_save.mpr (.inr ⟨rfl, g, hg, hsame.id.symm⟩)
    obtain rfl := IdTable.eq_of_id hr hstored (hid.trans hsame.id.symm)
    rw [hsame.mergedInto] at hmerged
    exact ⟨(h.faithful g hg hmerged).same hsame rfl,
      fun hnot => (h.balanced g hg hmerged hnot).same hsame rfl⟩

end Tidy

end IncidentRelay.Alerts
