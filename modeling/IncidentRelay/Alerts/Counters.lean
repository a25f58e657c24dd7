import IncidentRelay.Alerts.Merge
import IncidentRelay.Alerts.SilenceRuns

/-!
# The counters of a group

Every group that has not been merged counts its children and is resolved when they are,
in exactly the runs that keep clear of three places (`counters_kept_iff`): a resolve
forgets the counter of the silenced children, a merge into a resolved group leaves it
resolved when it finds no status to go by, and a deletion resolves the alerts and the
groups of an owner each by their own column.
-/

namespace IncidentRelay.Alerts

open Json

/-! ## Deletions -/

/-- The two statements of a deletion: the alerts that are owned, then the groups. -/
def resolveOwned (s : Store) (ownsAlert : Alert → Bool) (ownsGroup : AlertGroup → Bool)
    (now : Instant) : Store :=
  let resolved := s.updateAlerts (fun a => ownsAlert a && a.status ≠ .resolved)
    (fun a => { a with
      previousStatus := some a.status, status := .resolved, resolvedAt := some now }) (fun _ => rfl)
  { resolved with
    groups := resolved.groups.update
      (fun g => ownsGroup g && !(g.status = .resolved || g.status = .merged))
      (fun g => { g with
        previousStatus := some g.status
        status := .resolved
        resolvedAt := some now
        firingCount := 0
        acknowledgedCount := 0
        silencedCount := 0
        resolvedCount := g.alertCount
        updatedAt := now }) (fun _ => rfl) }

/-- `resolve_alert_groups_by_ids(group_ids)`. -/
def resolveAlertGroupsByIds (s : Store) (groupIds : List ℕ) (now : Instant) : Store :=
  let groupIds := groupIds.filter (· ≠ 0)
  if groupIds.isEmpty then s
  else resolveOwned s (fun a => a.group.any fun n => n ∈ groupIds) (fun g => g.id ∈ groupIds) now

/-- `resolve_team_runtime_alerts(team_id)`. -/
def resolveTeamRuntimeAlerts (s : Store) (team : Id) (now : Instant) : Store :=
  resolveOwned s (fun a => a.team = some team) (fun g => g.team = some team) now

/-! ## Stores that count -/

/-- Every group that has not been merged is balanced. -/
def Store.Counts (s : Store) : Prop := ∀ g ∈ s.groups.rows, g.mergedInto = none → Balanced s g

/-- No group is due. -/
abbrev Counted (s : Store) : Prop := Tidy (fun _ => False) s

theorem Counted.counts {s : Store} (h : Counted s) : s.Counts :=
  fun g hg hmerged => h.balanced g hg hmerged id

theorem counted_of_counts {s : Store} (hgrouped : Grouped s) (hclean : ∀ a ∈ s.alerts.rows, a.Clean)
    (h : s.Counts) : Counted s :=
  ⟨hgrouped, hclean, fun g hg hmerged => (h g hg hmerged).faithful,
    fun g hg hmerged _ => h g hg hmerged⟩

/-! ## A deletion -/

section Delete

variable {s : Store} (ownsAlert : Alert → Bool) (ownsGroup : AlertGroup → Bool) (now : Instant)

/-- The alert behind a deletion. -/
def resolvedAlert (a : Alert) : Alert :=
  if ownsAlert a && a.status ≠ .resolved then { a with
    previousStatus := some a.status, status := .resolved, resolvedAt := some now } else a

/-- A deletion resolves the children of a group where they stand. -/
theorem children_resolveOwned (n : ℕ) : (resolveOwned s ownsAlert ownsGroup now).children n =
    (s.children n).map (resolvedAlert ownsAlert now) := by
  refine children_updateAlerts ?_ ?_ n
  · exact fun _ => rfl
  · exact fun _ => rfl

/-- Resolved afterwards are the alerts that were, and those of the deleted owner. -/
theorem resolvedAlert_resolved (a : Alert) :
    (resolvedAlert ownsAlert now a).status = .resolved ↔
      a.status = .resolved ∨ ownsAlert a = true := by
  unfold resolvedAlert
  split_ifs with h
  · simp_all
  · simp only [Bool.and_eq_true, decide_eq_true_eq, not_and, not_not] at h
    exact ⟨.inl, fun hor => hor.elim id h⟩

theorem resolvedAlert_group (a : Alert) : (resolvedAlert ownsAlert now a).group = a.group := by
  unfold resolvedAlert
  split_ifs <;> rfl

/-- Rows that are not fewer in a class than before, and as many, are those of before. -/
theorem countP_map_eq {α : Type} {p : α → Bool} {f : α → α} (hf : ∀ a, p a = true → p (f a) = true)
    {l : List α} (h : (l.map f).countP p = l.countP p) : ∀ a ∈ l, p (f a) = true → p a = true := by
  -- mapping never lowers the count, so equal counts leave no room for one more
  have hle : ∀ l : List α, l.countP p ≤ (l.map f).countP p := by
    intro l
    rw [List.countP_map]
    exact List.countP_mono_left fun a _ => hf a
  induction l with
  | nil => exact fun a ha => absurd ha List.not_mem_nil
  | cons b l ih =>
    have hrest := hle l
    rw [List.map_cons, List.countP_cons, List.countP_cons] at h
    intro a ha hfa
    -- the head counts before and behind, or neither
    by_cases hb : p b = true
    · rw [if_pos hb, if_pos (hf b hb)] at h
      rcases List.mem_cons.mp ha with rfl | ha
      · exact hb
      · exact ih (by omega) a ha hfa
    · rw [if_neg hb] at h
      by_cases hfb : p (f b) = true
      · rw [if_pos hfb] at h
        omega
      · rw [if_neg hfb] at h
        rcases List.mem_cons.mp ha with rfl | ha
        · exact absurd hfa hfb
        · exact ih (by omega) a ha hfa

/-- The open children of a group are owned when the group is one that the deletion
resolves. -/
def OwnedTogether (s : Store) (g : AlertGroup) : Prop :=
  ∀ a ∈ s.children g.id, a.status ≠ .resolved →
    (ownsAlert a = true ↔ ownsGroup g = true ∧ g.status ≠ .merged)

/-- A group that the deletion leaves is balanced when it leaves its children. -/
theorem kept_balanced_iff {g : AlertGroup} (h : Balanced s g) :
    Balanced (resolveOwned s ownsAlert ownsGroup now) g ↔
      ∀ a ∈ s.children g.id, a.status ≠ .resolved → ownsAlert a = false := by
  -- an open alert that is resolved alone raises the count
  constructor
  · intro hbalanced a ha hopen
    by_contra howned
    have hcount := hbalanced.resolvedCount
    rw [h.resolvedCount, children_resolveOwned] at hcount
    unfold Store.countStatus at hcount
    refine hopen (of_decide_eq_true (countP_map_eq (fun b hb => ?_) hcount.symm a ha ?_))
    · exact decide_eq_true ((resolvedAlert_resolved _ _ b).mpr (.inl (of_decide_eq_true hb)))
    · exact decide_eq_true ((resolvedAlert_resolved _ _ a).mpr (.inr (by simpa using howned)))
  -- where none is owned the statuses are as they were
  · intro hfree
    refine h.of_statuses ?_
    rw [children_resolveOwned, List.map_map]
    refine List.map_congr_left fun a ha => ?_
    show (resolvedAlert ownsAlert now a).status = a.status
    unfold resolvedAlert
    by_cases hopen : a.status = .resolved
    · simp [hopen]
    · simp [hfree a ha hopen]

/-- The row of a group that the deletion resolves. -/
def deletedRow (g : AlertGroup) : AlertGroup :=
  { g with
    previousStatus := some g.status
    status := .resolved
    resolvedAt := some now
    firingCount := 0
    acknowledgedCount := 0
    silencedCount := 0
    resolvedCount := g.alertCount
    updatedAt := now }

/-- One that it resolves is balanced when its children are resolved then. -/
theorem deleted_balanced_iff {g : AlertGroup} (h : Balanced s g) :
    Balanced (resolveOwned s ownsAlert ownsGroup now) (deletedRow now g) ↔
      ∀ a ∈ s.children g.id, a.status ≠ .resolved → ownsAlert a = true := by
  have hall : (∀ b ∈ (resolveOwned s ownsAlert ownsGroup now).children g.id,
      b.status = .resolved) ↔ ∀ a ∈ s.children g.id, a.status ≠ .resolved → ownsAlert a = true := by
    rw [children_resolveOwned]
    simp only [List.forall_mem_map, resolvedAlert_resolved]
    exact forall₂_congr fun a _ => or_iff_not_imp_left
  rw [← hall]
  -- a deleted group is resolved, so faithful only with its alerts
  constructor
  · intro hbalanced b hb
    exact (hbalanced.faithful (List.ne_nil_of_mem hb)).mp rfl b hb
  · intro hresolved
    have hlength : g.alertCount =
        ((resolveOwned s ownsAlert ownsGroup now).children g.id).length := by
      rw [children_resolveOwned, List.length_map, h.alertCount]
    exact
      { alertCount := hlength
        firingCount := (countStatus_of_resolved hresolved (by simp)).symm
        acknowledgedCount := (countStatus_of_resolved hresolved (by simp)).symm
        resolvedCount := hlength.trans (countStatus_resolved hresolved).symm
        silencedCount := (countStatus_of_resolved hresolved (by simp)).symm
        faithful := fun _ => iff_of_true rfl hresolved }

/-- The row of one group agrees with its children after the deletion, if and only if the row and
its open children belong to the owner together. -/
theorem group_balanced_iff {g : AlertGroup} (h : Balanced s g) :
    Balanced (resolveOwned s ownsAlert ownsGroup now)
        (if ownsGroup g && !(g.status = .resolved || g.status = .merged) then deletedRow now g
          else g) ↔
      OwnedTogether ownsAlert ownsGroup s g := by
  unfold OwnedTogether
  split_ifs with hguard
  · rw [deleted_balanced_iff _ _ _ h]
    simp only [Bool.and_eq_true, Bool.not_eq_true', Bool.or_eq_false_iff, decide_eq_false_iff_not]
      at hguard
    simp [hguard]
  · rw [kept_balanced_iff _ _ _ h]
    -- a group that was resolved has no open alert to lose
    by_cases hresolved : g.status = .resolved
    · -- its children are resolved
      have hall := h.faithful.honest hresolved
      exact iff_of_true (fun a ha hopen => absurd (hall a ha) hopen)
        fun a ha hopen => absurd (hall a ha) hopen
    · have hnot : ¬(ownsGroup g = true ∧ g.status ≠ .merged) := by
        rintro ⟨howned, hmerged⟩
        exact hguard (by simp [howned, hresolved, hmerged])
      simp [hnot]

/-- **A deletion keeps the counters exactly when it owns the open children of a group that
has not been merged as it owns the group.** -/
theorem resolveOwned_counts_iff (h : Counted s) :
    (resolveOwned s ownsAlert ownsGroup now).Counts ↔
      ∀ g ∈ s.groups.rows, g.mergedInto = none → OwnedTogether ownsAlert ownsGroup s g := by
  have hrow : ∀ g : AlertGroup, (if ownsGroup g && !(g.status = .resolved || g.status = .merged)
      then deletedRow now g else g).mergedInto = g.mergedInto := by
    intro g
    split_ifs <;> rfl
  constructor
  · intro hcounts g hg hmerged
    rw [← group_balanced_iff _ _ now (h.counts g hg hmerged)]
    exact hcounts _ (List.mem_map.mpr ⟨g, hg, rfl⟩) ((hrow g).trans hmerged)
  · intro htogether r hr hmerged
    obtain ⟨g, hg, rfl⟩ := List.mem_map.mp hr
    have hmerged : g.mergedInto = none := (hrow g).symm.trans hmerged
    exact (group_balanced_iff _ _ now (h.counts g hg hmerged)).mpr (htogether g hg hmerged)

/-- A deletion leaves every alert in its group. -/
theorem resolveOwned_grouped (h : Grouped s) : Grouped (resolveOwned s ownsAlert ownsGroup now) := by
  intro b hb
  obtain ⟨a, ha, rfl⟩ := List.mem_map.mp hb
  obtain ⟨g, hg, hgroup⟩ := h a ha
  refine ⟨_, List.mem_map.mpr ⟨g, hg, rfl⟩, ?_⟩
  refine (resolvedAlert_group ownsAlert now a).trans (hgroup.trans (congrArg some ?_))
  split_ifs <;> rfl

theorem resolveOwned_clean (h : ∀ a ∈ s.alerts.rows, a.Clean) :
    ∀ b ∈ (resolveOwned s ownsAlert ownsGroup now).alerts.rows, b.Clean := by
  intro b hb
  obtain ⟨a, ha, rfl⟩ := List.mem_map.mp hb
  split_ifs
  · exact fun hopen => absurd rfl hopen
  · exact h a ha

end Delete

/-! ## A merge -/

section Merge

variable {s t : Store} {target : AlertGroup} {sourceIds : List ℕ}

/-- The alert is the target's or one that is moved to it. -/
def Receives (target : ℕ) (sourceIds : List ℕ) (a : Alert) : Prop :=
  ∃ n, a.group = some n ∧ (n = target ∨ n ∈ sourceIds)

/-- The alerts of the target after the merge are its own and those of the sources. -/
theorem Moved.received {a b : Alert} {n : ℕ} (h : Moved n sourceIds a b) :
    b.group = some n ↔ Receives n sourceIds a := by
  constructor
  · intro hb
    by_contra hnot
    refine hnot ⟨n, ?_, .inl rfl⟩
    rw [← h.kept, hb]
    exact fun m hm habs => hnot ⟨m, hm, .inr habs.1⟩
  · rintro ⟨m, hm, hcases⟩
    by_cases hmn : m = n
    · rw [h.kept, hm, hmn]
      intro k hk habs
      exact habs.2 ((Option.some.inj (hk.symm.trans hm)).trans hmn)
    · exact h.absorbed m hm ⟨hcases.resolve_left hmn, hmn⟩

/-- The other groups have the children of before. -/
theorem Moved.elsewhere {a b : Alert} {n m : ℕ} (h : Moved n sourceIds a b) (hm : m ≠ n)
    (hnot : ¬Absorbed n sourceIds m) : b.group = some m ↔ a.group = some m := by
  by_cases hreceived : Receives n sourceIds a
  · refine iff_of_false (fun hb => hm ?_) fun ha => ?_
    · exact Option.some.inj (hb.symm.trans (h.received.mpr hreceived))
    · obtain ⟨k, hk, hcases⟩ := hreceived
      obtain rfl := Option.some.inj (hk.symm.trans ha)
      exact hnot ⟨hcases.resolve_left hm, hm⟩
  · rw [h.kept]
    exact fun k hk habs => hreceived ⟨k, hk, .inr habs.1⟩

/-- The children of a group that takes no part in the merge keep their statuses. -/
theorem Loop.statuses_elsewhere {n : ℕ} (h : Loop n sourceIds s t) {m : ℕ} (hm : m ≠ n)
    (hnot : ¬Absorbed n sourceIds m) :
    (t.children m).map (·.status) = (s.children m).map (·.status) := by
  unfold Store.children
  have hrows := h.alerts
  generalize s.alerts.rows = as, t.alerts.rows = bs at hrows
  induction hrows with
  | nil => rfl
  | @cons a b as bs hab _ ih =>
    have hchild : Store.childOf m b = Store.childOf m a :=
      decide_eq_decide.mpr (hab.elsewhere hm hnot)
    rw [List.filter_cons, List.filter_cons, hchild]
    split_ifs
    · rw [List.map_cons, List.map_cons, ih, hab.status]
    · exact ih

/-- A merge into a resolved group moves resolved alerts only, or one that has a status
that the recalculation looks for. -/
def Store.Settles (s : Store) (target : AlertGroup) (sourceIds : List ℕ) : Prop :=
  target.status = .resolved →
    (∀ a ∈ s.alerts.rows, Receives target.id sourceIds a → a.status = .resolved) ∨
      ∃ a ∈ s.alerts.rows, Receives target.id sourceIds a ∧ Noticed a.status

/-- The children that the recalculation finds. -/
theorem Loop.settles_iff (h : Loop target.id sourceIds s t) :
    (target.status = .resolved → Overlooked (t.children target.id) →
      ∀ b ∈ t.children target.id, b.status = .resolved) ↔ s.Settles target sourceIds := by
  refine imp_congr_right fun _ => ?_
  -- the alerts of the target are those it had and those it receives
  have hall : (∀ b ∈ t.children target.id, b.status = .resolved) ↔
      ∀ a ∈ s.alerts.rows, Receives target.id sourceIds a → a.status = .resolved := by
    constructor
    · intro hb a ha hreceived
      obtain ⟨b, hmem, hab⟩ := Rows.exists_right h.alerts ha
      rw [← hab.status]
      exact hb b (mem_children.mpr ⟨hmem, hab.received.mpr hreceived⟩)
    · intro ha b hb
      obtain ⟨hmem, hgroup⟩ := mem_children.mp hb
      obtain ⟨a, ha_mem, hab⟩ := Rows.exists_left h.alerts hmem
      rw [hab.status]
      exact ha a ha_mem (hab.received.mp hgroup)
  -- and it is seen to be open when one of them is
  have hsome : ¬Overlooked (t.children target.id) ↔
      ∃ a ∈ s.alerts.rows, Receives target.id sourceIds a ∧ Noticed a.status := by
    unfold Overlooked Noticed
    push Not
    constructor
    · rintro ⟨b, hb, hnoticed⟩
      obtain ⟨hmem, hgroup⟩ := mem_children.mp hb
      obtain ⟨a, ha, hab⟩ := Rows.exists_left h.alerts hmem
      refine ⟨a, ha, hab.received.mp hgroup, ?_⟩
      rw [← hab.status]
      by_cases hf : b.status = .firing
      · exact .inl hf
      · exact .inr ((em _).imp_right (hnoticed hf))
    · rintro ⟨a, ha, hreceived, hnoticed⟩
      obtain ⟨b, hmem, hab⟩ := Rows.exists_right h.alerts ha
      refine ⟨b, mem_children.mpr ⟨hmem, hab.received.mpr hreceived⟩, fun hf hs => ?_⟩
      rw [hab.status] at hf hs ⊢
      exact (hnoticed.resolve_left hf).resolve_left hs
  rw [← hall, ← hsome]
  tauto

/-- **A merge keeps the counters exactly when its target has been merged, or settles.** -/
theorem merge_counts_iff (h : Counted s) (hloop : Loop target.id sourceIds s t)
    (htarget : target ∈ t.groups.rows) (now : Instant) :
    (t.recalculateAlertGroup target now).1.Counts ↔
      (target.mergedInto = none → s.Settles target sourceIds) := by
  -- what the loop leaves is recounted, the statuses aside
  have hwork := works_recalculate (P := True) t target now
  rw [← hloop.settles_iff]
  constructor
  · intro hcounts hmerged
    rw [← balanced_recalculate_iff now]
    exact hcounts _ (hwork.stored htarget) (hwork.mergedInto.trans hmerged)
  -- the target is recounted; every other group keeps its alerts
  · intro hsettles r hr hmerged
    by_cases hid : r.id = target.id
    · rw [IdTable.eq_of_id hr (hwork.stored htarget) (hid.trans hwork.id.symm)] at hmerged ⊢
      exact (balanced_recalculate_iff now).mpr (hsettles (hwork.mergedInto.symm.trans hmerged))
    · -- a group that is not merged is one of before
      have hr := (hwork.groups.mem_iff hid).mp hr
      obtain ⟨g, hg, hpointed⟩ := Rows.exists_left hloop.groups hr
      have hnot : ¬Absorbed target.id sourceIds g.id := by
        intro habs
        rw [(hpointed.absorbed habs).1] at hmerged
        cases hmerged
      obtain rfl := hpointed.kept hnot
      refine (h.counts r hg hmerged).of_statuses ?_
      show ((t.recalculateAlertGroup target now).1.alerts.rows.filter _).map _ = _
      rw [hwork.alerts.filter_eq (fun hab => hab.group) hid]
      exact hloop.statuses_elsewhere hid hnot

/-- After a merge every alert has a group still. -/
theorem merge_grouped (h : Grouped s) (hloop : Loop target.id sourceIds s t)
    (htarget : target ∈ t.groups.rows) (now : Instant) :
    Grouped (t.recalculateAlertGroup target now).1 := by
  have hwork := works_recalculate (P := True) t target now
  have hloop_grouped : Grouped t := by
    intro b hb
    obtain ⟨a, ha, hab⟩ := Rows.exists_left hloop.alerts hb
    by_cases hreceived : Receives target.id sourceIds a
    -- an alert that is received is in the target, any other one where it was
    · exact ⟨target, htarget, hab.received.mpr hreceived⟩
    · obtain ⟨g, hg, hgroup⟩ := h a ha
      obtain ⟨g', hg', hpointed⟩ := Rows.exists_right hloop.groups hg
      refine ⟨g', hg', ?_⟩
      rw [hpointed.id, hab.kept, hgroup]
      exact fun k hk habs => hreceived ⟨k, hk, .inr habs.1⟩
  intro c hc
  obtain ⟨b, hb, hbc⟩ := Rows.exists_left hwork.alerts hc
  refine Tidy.grouped_of_rows hloop_grouped hwork.groups hb ?_
  rcases hbc with rfl | ⟨-, hbc⟩
  · rfl
  · exact hbc.group

theorem merge_clean (h : ∀ a ∈ s.alerts.rows, a.Clean) (hloop : Loop target.id sourceIds s t)
    (now : Instant) : ∀ b ∈ (t.recalculateAlertGroup target now).1.alerts.rows, b.Clean := by
  have hwork := works_recalculate (P := True) t target now
  refine hwork.clean fun b hb => ?_
  obtain ⟨a, ha, hab⟩ := Rows.exists_left hloop.alerts hb
  unfold Alert.Clean
  rw [hab.status, hab.previousStatus]
  exact h a ha

end Merge

/-! ## A resolve -/

section Resolve

variable {s : Store}

/-- The children of the group are not silenced when it is resolved by hand. -/
def Store.ResolvesCounted (s : Store) (groupId : ℕ) : Prop :=
  ∀ g ∈ s.groups.rows, g.id = groupId → g.status ≠ .resolved → g.status ≠ .merged →
    g.mergedInto = none → ∀ a ∈ s.children g.id, a.status ≠ .silenced

/-- **A resolve keeps the counters exactly when the group has no silenced child.** -/
theorem resolveGroup_counts_iff (h : Counted s) (groupId : ℕ) (userId : Option ℕ)
    (now : Instant) : (resolveGroup s groupId userId now).Counts ↔ s.ResolvesCounted groupId := by
  unfold resolveGroup Store.ResolvesCounted
  -- without such a group nothing is resolved
  split
  · rename_i hnone
    refine iff_of_true h.counts fun g hg hid => ?_
    rw [IdTable.get_eq_some.mpr ⟨hg, hid⟩] at hnone
    cases hnone
  · rename_i g hfound
    obtain ⟨hg, rfl⟩ := IdTable.get_eq_some.mp hfound
    -- nor is one that is over
    split_ifs with hover
    · refine iff_of_true h.counts fun r hr hid hresolved hmerged hinto => ?_
      rw [IdTable.eq_of_id hr hg hid] at hresolved hmerged hinto
      simp [hresolved, hmerged, hinto] at hover
    · push Not at hover
      obtain ⟨hresolved, hmerged, hinto⟩ := hover
      have hinto : g.mergedInto = none := Option.not_isSome_iff_eq_none.mp hinto
      constructor
      -- its row is written whatever the loop found, so the count is right if no alert was missed
      · intro hcounts r hr hid _ _ _
        rw [IdTable.eq_of_id hr hg hid]
        have hstored : resolvedRow s g userId now ∈
            (s.resolveAlertGroup g userId now).groups.rows :=
          IdTable.mem_save.mpr (.inr ⟨rfl, g, hg, rfl⟩)
        exact (resolve_balanced_iff userId now (h.counts g hg hinto)).mp (hcounts _ hstored hinto)
      -- every alert of it is resolved, the silenced ones too
      · intro hfree
        have hall := hfree g hg rfl hresolved hmerged hinto
        refine Counted.counts ((resolveAlertGroup_tidy userId now h hg hinto).mono ?_)
        rintro n (hn | ⟨-, a, ha, hsilenced⟩)
        · exact hn
        · exact hall a ha hsilenced

end Resolve

/-! ## Runs -/

inductive GroupRequest where
  | desk (request : SilenceRequest)
  | merge (canRespond : Id → Bool) (target : ℕ) (sourceIds : List ℕ) (now : Instant)
  | deleteGroups (groupIds : List ℕ) (now : Instant)
  | deleteTeam (team : Id) (now : Instant)

/-- A merge that is not accepted leaves the store. -/
def Desk.serve (d : Desk) : GroupRequest → Desk
  | .desk request => d.handle request
  | .merge canRespond target sourceIds now =>
    match mergeAlertGroupsView canRespond d.store target sourceIds now with
    | .ok s => { d with store := s }
    | .error _ => d
  | .deleteGroups groupIds now => { d with store := resolveAlertGroupsByIds d.store groupIds now }
  | .deleteTeam team now => { d with store := resolveTeamRuntimeAlerts d.store team now }

/-- The counters are right behind the request. -/
def GroupRequest.Good (d : Desk) (r : GroupRequest) : Prop := (d.serve r).store.Counts

/-- The request keeps clear of the three places. -/
def GroupRequest.KeepsCount (d : Desk) : GroupRequest → Prop
  | .desk (.resolve groupId _ _) => d.store.ResolvesCounted groupId
  | .desk _ => True
  | .merge canRespond target sourceIds now =>
    (mergeAlertGroupsView canRespond d.store target sourceIds now).isOk = true →
      ∀ g ∈ d.store.groups.rows, g.id = target → g.mergedInto = none →
        d.store.Settles g sourceIds
  | .deleteGroups groupIds _ =>
    ∀ g ∈ d.store.groups.rows, g.mergedInto = none → g.id ∈ groupIds.filter (· ≠ 0) →
      g.status = .merged → ∀ a ∈ d.store.children g.id, a.status = .resolved
  | .deleteTeam team _ =>
    ∀ g ∈ d.store.groups.rows, g.mergedInto = none →
      OwnedTogether (fun a => a.team = some team) (fun g => g.team = some team) d.store g

section Runs

variable {d : Desk}

/-- A deletion of groups by their ids keeps the counters, if and only if nothing of a group that
is deleted counts elsewhere. -/
theorem deleteGroups_counts_iff (h : Counted d.store) (groupIds : List ℕ) (now : Instant) :
    (resolveAlertGroupsByIds d.store groupIds now).Counts ↔
      (GroupRequest.deleteGroups groupIds now).KeepsCount d := by
  unfold resolveAlertGroupsByIds GroupRequest.KeepsCount
  dsimp only
  generalize groupIds.filter (· ≠ 0) = ids
  -- nothing is asked for
  split_ifs with hempty
  · refine iff_of_true h.counts fun g _ _ hid => ?_
    rw [List.isEmpty_iff.mp hempty] at hid
    cases hid
  · rw [resolveOwned_counts_iff _ _ _ h]
    refine forall₂_congr fun g _ => imp_congr_right fun _ => ?_
    unfold OwnedTogether
    -- an open alert of a deleted group is resolved with it only when the group is not merged
    constructor
    · intro htogether hid hmerged a ha
      by_contra hopen
      have howned := (htogether a ha hopen).mp (by simp [(mem_children.mp ha).2, hid])
      exact howned.2 hmerged
    · intro hresolved a ha hopen
      simp only [(mem_children.mp ha).2, Option.any_some, decide_eq_true_eq]
      exact ⟨fun hid => ⟨hid, fun hmerged => hopen (hresolved hid hmerged a ha)⟩, And.left⟩

/-- A request is good exactly when it keeps the counters. -/
theorem good_iff_keeps (h : Counted d.store) (r : GroupRequest) : r.Good d ↔ r.KeepsCount d := by
  unfold GroupRequest.Good Desk.serve
  -- every request of the desk but a resolve keeps the counts by itself
  cases r with
  | desk request =>
    by_cases hresolve : ∃ groupId userId now, request = .resolve groupId userId now
    · obtain ⟨groupId, userId, now, rfl⟩ := hresolve
      exact resolveGroup_counts_iff h groupId userId now
    · push Not at hresolve
      refine iff_of_true (Counted.counts (handle_tidy h hresolve)) ?_
      cases request with
      | resolve groupId userId now => exact absurd rfl (hresolve groupId userId now)
      | _ => trivial
  | merge canRespond target sourceIds now =>
    unfold GroupRequest.KeepsCount
    dsimp only
    cases hview : mergeAlertGroupsView canRespond d.store target sourceIds now with
    | error _ => exact iff_of_true h.counts nofun
    | ok u =>
      obtain ⟨g, hg, rfl, t, hloop, htarget, rfl⟩ := mergeAlertGroups_cases (view_ok hview)
      refine (merge_counts_iff h hloop htarget now).trans ⟨fun hs _ r hr hid => ?_, fun hs => ?_⟩
      · rw [IdTable.eq_of_id hr hg hid]
        exact hs
      · exact hs rfl g hg rfl
  | deleteGroups groupIds now => exact deleteGroups_counts_iff h groupIds now
  | deleteTeam team now => exact resolveOwned_counts_iff _ _ now h

/-- A request that is good leaves what the next one starts from. -/
theorem counted_serve (h : Counted d.store) {r : GroupRequest} (hr : r.Good d) :
    Counted (d.serve r).store := by
  unfold GroupRequest.Good at hr
  cases r with
  | desk request =>
    -- a resolve keeps them when no alert was silenced, the others always
    by_cases hresolve : ∃ groupId userId now, request = .resolve groupId userId now
    · obtain ⟨groupId, userId, now, rfl⟩ := hresolve
      have hopen : Tidy (fun _ => True) (resolveGroup d.store groupId userId now) :=
        resolveGroup_tidy userId now (h.mono fun _ _ => trivial) groupId
      exact counted_of_counts hopen.grouped hopen.clean hr
    · push Not at hresolve
      exact handle_tidy h hresolve
  | merge canRespond target sourceIds now =>
    unfold Desk.serve at hr ⊢
    dsimp only at hr ⊢
    -- a merge that is refused changes nothing
    cases hview : mergeAlertGroupsView canRespond d.store target sourceIds now with
    | error _ => exact h
    | ok u =>
      rw [hview] at hr
      obtain ⟨g, hg, rfl, t, hloop, htarget, rfl⟩ := mergeAlertGroups_cases (view_ok hview)
      exact counted_of_counts (merge_grouped h.grouped hloop htarget now)
        (merge_clean h.clean hloop now) hr
  | deleteGroups groupIds now =>
    -- no alert leaves its group
    refine counted_of_counts ?_ ?_ hr
    all_goals
      unfold Desk.serve resolveAlertGroupsByIds
      dsimp only
      split_ifs
    · exact h.grouped
    · exact resolveOwned_grouped _ _ now h.grouped
    · exact h.clean
    · exact resolveOwned_clean _ _ now h.clean
  | deleteTeam team now =>
    exact counted_of_counts (resolveOwned_grouped _ _ now h.grouped)
      (resolveOwned_clean _ _ now h.clean) hr

/-- **The counters are right in every state of exactly the runs that keep clear of the
three places.** -/
theorem counters_kept_iff (rs : List GroupRequest) :
    Along Desk.serve (fun d r => r.Good d) Desk.empty rs ↔
      Along Desk.serve (fun d r => r.KeepsCount d) Desk.empty rs :=
  @along_iff _ _ Desk.serve (fun d r => r.Good d) (fun d r => r.KeepsCount d)
    (fun d => Counted d.store) (fun _ r h => good_iff_keeps h r)
    (fun _ r h hr => counted_serve h ((good_iff_keeps h r).mpr hr)) Desk.empty (tidy_empty _) rs

end Runs

/-! ## A silenced child -/

/-- A silenced alert is resolved by hand. -/
def silencedResolved : List GroupRequest :=
  [.desk (.create (opsSilence false)), .desk (diskEvent "firing" 60),
    .desk (.resolve 1 (some 1) 120)]

/-- **The counter of the silenced children stays.** -/
theorem silenced_count_left :
    ¬∀ rs, Along Desk.serve (fun d r => r.Good d) Desk.empty rs := by
  intro h
  obtain ⟨-, -, hcounts, -⟩ := h silencedResolved
  have hleft : ∃ g ∈ (silencedResolved.foldl Desk.serve Desk.empty).store.groups.rows,
      g.mergedInto = none ∧ g.silencedCount = 1 ∧
        ∀ a ∈ (silencedResolved.foldl Desk.serve Desk.empty).store.children g.id,
          a.status ≠ .silenced := by decide +kernel
  obtain ⟨g, hg, hmerged, hone, hnone⟩ := hleft
  have hcount := (hcounts g hg hmerged).silencedCount
  have hzero := countStatus_eq_zero.mpr hnone
  exact absurd (hone.symm.trans (hcount.trans hzero)) one_ne_zero

end IncidentRelay.Alerts
