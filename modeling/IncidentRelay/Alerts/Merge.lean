import IncidentRelay.Alerts.GroupWork
import IncidentRelay.Alerts.Isolation
import IncidentRelay.Lib.Forest
import IncidentRelay.Lib.Result
import IncidentRelay.Lib.Run

/-!
# Merging alert groups

`merge_alert_groups` moves the children of the sources to the target and points the
sources at it. The endpoint checks that the caller may respond and that the teams are
the same; it does not look at whether the target has itself been merged. The pointers
stay a forest, and the alerts with groups that are not merged, exactly as long as no
accepted request merges into a merged group (`merging_sound_iff`). The shelves, the log
of merges and the events are left out.
-/

namespace IncidentRelay.Alerts

open Pointers

/-! ## The function -/

/-- One round of the loop of `merge_alert_groups`. -/
def mergeSource (target : AlertGroup) (now : Instant) (s : Store) (sourceId : ℕ) : Option Store :=
  if sourceId = target.id then some s
  else (s.groups.get sourceId).map fun source =>
    (s.updateAlerts (Store.childOf source.id)
      (fun a => { a with group := some target.id, groupKey := target.groupKey })
      (fun _ => rfl)).saveGroup { source with
        previousStatus := some source.status
        status := .merged
        mergedInto := some target.id
        updatedAt := now }

/-- `merge_alert_groups(target_group_id, source_group_ids)`; none where a group does not
exist. -/
def mergeAlertGroups (s : Store) (targetId : ℕ) (sourceIds : List ℕ) (now : Instant) :
    Option Store := do
  let target ← s.groups.get targetId
  let s ← sourceIds.foldlM (mergeSource target now) s
  some (s.recalculateAlertGroup target now).1

/-! ## The endpoint -/

structure ErrorResponse where
  error : String
  message : Option String
  statusCode : ℕ
  deriving DecidableEq, Repr

def notFound : ErrorResponse where
  error := "not_found"
  message := some "Alert group not found."
  statusCode := 404

def validationError (message : String) : ErrorResponse where
  error := "validation_error"
  message := some message
  statusCode := 400

/-- `require_team_respond(team_id)`. -/
def requireTeamRespond (canRespond : Id → Bool) (teamId : Id) : Except ErrorResponse Unit :=
  if canRespond teamId then .ok ()
  else .error
    { error := "Team responder role is required for this team", message := none, statusCode := 403 }

/-- `_require_alert_group_respond(group_id)`. -/
def requireAlertGroupRespond (canRespond : Id → Bool) (s : Store) (groupId : ℕ) :
    Except ErrorResponse AlertGroup :=
  match s.groups.get groupId with
  | none => .error notFound
  | some group =>
    match group.team with
    | none => .ok group
    | some team => (requireTeamRespond canRespond team).map fun _ => group

/-- The checks of a source. -/
def checkSource (canRespond : Id → Bool) (s : Store) (target : AlertGroup) (sourceId : ℕ) :
    Except ErrorResponse Unit := do
  let source ← requireAlertGroupRespond canRespond s sourceId
  if target.team ≠ source.team then
    .error (validationError "Alert groups from different teams cannot be merged.")
  else .ok ()

/-- `merge_alert_groups_view(target_group_id)`. -/
def mergeAlertGroupsView (canRespond : Id → Bool) (s : Store) (targetId : ℕ)
    (sourceIds : List ℕ) (now : Instant) : Except ErrorResponse Store := do
  if sourceIds.isEmpty then .error (validationError "source_group_ids is required.")
  else
    let target ← requireAlertGroupRespond canRespond s targetId
    sourceIds.forM (checkSource canRespond s target)
    match mergeAlertGroups s targetId sourceIds now with
    | none => .error notFound
    | some t => .ok t

/-! ## What a merge does -/

/-- The group is one of the sources, and not the target. -/
def Absorbed (target : ℕ) (sourceIds : List ℕ) (n : ℕ) : Prop := n ∈ sourceIds ∧ n ≠ target

instance (target : ℕ) (sourceIds : List ℕ) (n : ℕ) : Decidable (Absorbed target sourceIds n) :=
  inferInstanceAs (Decidable (_ ∧ _))

/-- The alert after the loop. -/
structure Moved (target : ℕ) (sourceIds : List ℕ) (a a' : Alert) : Prop where
  occurrence : a'.occurrence = a.occurrence
  status : a'.status = a.status
  previousStatus : a'.previousStatus = a.previousStatus
  absorbed : ∀ n, a.group = some n → Absorbed target sourceIds n → a'.group = some target
  kept : (∀ n, a.group = some n → ¬Absorbed target sourceIds n) → a'.group = a.group

/-- The group after the loop. -/
structure Pointed (target : ℕ) (sourceIds : List ℕ) (g g' : AlertGroup) : Prop where
  id : g'.id = g.id
  absorbed : Absorbed target sourceIds g.id → g'.mergedInto = some target ∧ g'.status = .merged
  kept : ¬Absorbed target sourceIds g.id → g' = g

/-- The store after the loop. -/
structure Loop (target : ℕ) (sourceIds : List ℕ) (s t : Store) : Prop where
  alerts : List.Forall₂ (Moved target sourceIds) s.alerts.rows t.alerts.rows
  groups : List.Forall₂ (Pointed target sourceIds) s.groups.rows t.groups.rows
  exist : ∀ n, Absorbed target sourceIds n → ∃ g ∈ s.groups.rows, g.id = n

/-- One round of the merge, which moves the children of one source. -/
theorem mergeSource_loop {target : AlertGroup} {now : Instant} {s t : Store} {sourceId : ℕ}
    (h : mergeSource target now s sourceId = some t) : Loop target.id [sourceId] s t := by
  unfold mergeSource at h
  split_ifs at h with htarget
  · -- a group is not merged into itself
    cases h
    have hnone : ∀ n, ¬Absorbed target.id [sourceId] n := by
      rintro n ⟨hn, hne⟩
      exact hne ((List.mem_singleton.mp hn).trans htarget)
    exact
      { alerts := List.forall₂_same.mpr fun a _ =>
          ⟨rfl, rfl, rfl, fun n _ hn => absurd hn (hnone n), fun _ => rfl⟩
        groups := List.forall₂_same.mpr fun g _ => ⟨rfl, fun hg => absurd hg (hnone _), fun _ => rfl⟩
        exist := fun n hn => absurd hn (hnone n) }
  -- the source is pointed to the target, and its alerts are moved
  · obtain ⟨source, hsource, rfl⟩ := Option.map_eq_some_iff.mp h
    obtain ⟨hmem, rfl⟩ := IdTable.get_eq_some.mp hsource
    have habsorbed : ∀ n, Absorbed target.id [source.id] n ↔ n = source.id := by
      intro n
      unfold Absorbed
      rw [List.mem_singleton]
      exact ⟨And.left, fun hn => ⟨hn, hn ▸ htarget⟩⟩
    refine ⟨?_, ?_, fun n hn => ⟨source, hmem, ((habsorbed n).mp hn).symm⟩⟩
    · refine List.forall₂_map_right_iff.mpr (List.forall₂_same.mpr fun a _ => ?_)
      by_cases hchild : Store.childOf source.id a = true
      · rw [if_pos hchild]
        refine ⟨rfl, rfl, rfl, fun _ _ _ => rfl, fun hnot => ?_⟩
        exact absurd ((habsorbed _).mpr rfl) (hnot _ (childOf_iff.mp hchild))
      · rw [if_neg hchild]
        refine ⟨rfl, rfl, rfl, fun n hn habs => ?_, fun _ => rfl⟩
        exact absurd (childOf_iff.mpr (hn.trans (congrArg some ((habsorbed n).mp habs)))) hchild
    · refine List.forall₂_map_right_iff.mpr (List.forall₂_same.mpr fun g _ => ?_)
      dsimp only
      by_cases hid : g.id = source.id
      · rw [if_pos (decide_eq_true hid), if_pos hid]
        exact ⟨hid.symm, fun _ => ⟨rfl, rfl⟩, fun hnot => absurd ((habsorbed _).mpr hid) hnot⟩
      · rw [if_neg (by simpa using hid)]
        exact ⟨rfl, fun habs => absurd ((habsorbed _).mp habs) hid, fun _ => rfl⟩

section Compose

variable {target : ℕ} {ms ns : List ℕ}

/-- What two rounds absorb. -/
theorem absorbed_append {n : ℕ} :
    Absorbed target (ms ++ ns) n ↔ Absorbed target ms n ∨ Absorbed target ns n := by
  unfold Absorbed
  rw [List.mem_append]
  tauto

/-- The target is not one of the groups that are merged into it. -/
theorem not_absorbed_target : ¬Absorbed target ms target := fun h => h.2 rfl

/-- An alert after two rounds. -/
theorem Moved.append {a b c : Alert} (h : Moved target ms a b) (h' : Moved target ns b c) :
    Moved target (ms ++ ns) a c where
  occurrence := h'.occurrence.trans h.occurrence
  status := h'.status.trans h.status
  previousStatus := h'.previousStatus.trans h.previousStatus
  absorbed n hn habs := by
    -- an alert in the target is moved no further
    have hsettled : b.group = some target → c.group = some target := by
      intro hb
      rw [h'.kept, hb]
      intro m hm habs'
      obtain rfl := Option.some.inj (hm.symm.trans hb)
      exact not_absorbed_target habs'
    -- it is moved by the first merges, or by those behind them
    by_cases hfirst : Absorbed target ms n
    · exact hsettled (h.absorbed n hn hfirst)
    · have hkept : b.group = a.group := h.kept fun m hm => by
        obtain rfl := Option.some.inj (hm.symm.trans hn)
        exact hfirst
      exact h'.absorbed n (hkept.trans hn) ((absorbed_append.mp habs).resolve_left hfirst)
  kept hnot := by
    have hkept : b.group = a.group := h.kept fun n hn habs =>
      hnot n hn (absorbed_append.mpr (.inl habs))
    rw [h'.kept, hkept]
    intro n hn habs
    exact hnot n (hkept.symm.trans hn) (absorbed_append.mpr (.inr habs))

/-- A group after two rounds. -/
theorem Pointed.append {f g k : AlertGroup} (h : Pointed target ms f g)
    (h' : Pointed target ns g k) : Pointed target (ms ++ ns) f k where
  id := h'.id.trans h.id
  absorbed habs := by
    by_cases hsecond : Absorbed target ns g.id
    · exact h'.absorbed hsecond
    · rw [h'.kept hsecond]
      rw [h.id] at hsecond
      exact h.absorbed ((absorbed_append.mp habs).resolve_right hsecond)
  kept hnot := by
    have hfirst := h.kept fun habs => hnot (absorbed_append.mpr (.inl habs))
    subst hfirst
    exact h'.kept fun habs => hnot (absorbed_append.mpr (.inr habs))

/-- The rounds put together. -/
theorem Loop.append {s t u : Store} (h : Loop target ms s t) (h' : Loop target ns t u) :
    Loop target (ms ++ ns) s u where
  alerts := Rows.trans h.alerts h'.alerts Moved.append
  groups := Rows.trans h.groups h'.groups Pointed.append
  exist n hn := by
    rcases absorbed_append.mp hn with hn | hn
    · exact h.exist n hn
    · obtain ⟨g, hg, hid⟩ := h'.exist n hn
      obtain ⟨f, hf, hfg⟩ := Rows.exists_left h.groups hg
      exact ⟨f, hf, hfg.id.symm.trans hid⟩

theorem Loop.refl (s : Store) : Loop target [] s s where
  alerts := List.forall₂_same.mpr fun _ _ =>
    ⟨rfl, rfl, rfl, fun _ _ habs => absurd habs.1 List.not_mem_nil, fun _ => rfl⟩
  groups := List.forall₂_same.mpr fun _ _ =>
    ⟨rfl, fun habs => absurd habs.1 List.not_mem_nil, fun _ => rfl⟩
  exist _ habs := absurd habs.1 List.not_mem_nil

end Compose

/-- By induction on the sources. -/
theorem foldlM_loop {target : AlertGroup} {now : Instant} {sourceIds : List ℕ} {s t : Store}
    (h : sourceIds.foldlM (mergeSource target now) s = some t) : Loop target.id sourceIds s t := by
  induction sourceIds generalizing s with
  | nil =>
    cases h
    exact .refl _
  | cons n ns ih =>
    rw [List.foldlM_cons] at h
    obtain ⟨s₁, hfirst, hrest⟩ := Option.bind_eq_some_iff.mp h
    exact (mergeSource_loop hfirst).append (ih hrest)

/-- **A merge is the loop over the sources and a recalculation of the target.** -/
theorem mergeAlertGroups_cases {s u : Store} {targetId : ℕ} {sourceIds : List ℕ} {now : Instant}
    (h : mergeAlertGroups s targetId sourceIds now = some u) :
    ∃ target ∈ s.groups.rows, target.id = targetId ∧ ∃ t, Loop targetId sourceIds s t ∧
      target ∈ t.groups.rows ∧ u = (t.recalculateAlertGroup target now).1 := by
  obtain ⟨target, htarget, h⟩ := Option.bind_eq_some_iff.mp h
  obtain ⟨t, hloop, hrest⟩ := Option.bind_eq_some_iff.mp h
  obtain ⟨hmem, rfl⟩ := IdTable.get_eq_some.mp htarget
  have hloop := foldlM_loop hloop
  refine ⟨target, hmem, rfl, t, hloop, ?_, (Option.some.inj hrest).symm⟩
  obtain ⟨g, hg, hpointed⟩ := Rows.exists_right hloop.groups hmem
  rwa [hpointed.kept not_absorbed_target] at hg

/-! ## The pointers -/

/-- `group.merged_into`. -/
def parent (s : Store) (n : ℕ) : Option ℕ := (s.groups.get n).bind (·.mergedInto)

/-- The parent of a row is what the row says. -/
theorem parent_of_mem {s : Store} {g : AlertGroup} (hg : g ∈ s.groups.rows) :
    parent s g.id = g.mergedInto := by
  unfold parent
  rw [IdTable.get_eq_some.mpr ⟨hg, rfl⟩]
  rfl

theorem parent_eq_some {s : Store} {n m : ℕ} :
    parent s n = some m ↔ ∃ g ∈ s.groups.rows, g.id = n ∧ g.mergedInto = some m := by
  unfold parent
  constructor
  · intro h
    obtain ⟨g, hget, hmerged⟩ := Option.bind_eq_some_iff.mp h
    obtain ⟨hg, hid⟩ := IdTable.get_eq_some.mp hget
    exact ⟨g, hg, hid, hmerged⟩
  · rintro ⟨g, hg, rfl, hmerged⟩
    rw [IdTable.get_eq_some.mpr ⟨hg, rfl⟩]
    exact hmerged

/-- The pointers are the same where the rows have them. -/
theorem parent_congr {s t : Store}
    (hkept : ∀ g ∈ s.groups.rows, ∃ g' ∈ t.groups.rows, g'.id = g.id ∧ g'.mergedInto = g.mergedInto)
    (hnew : ∀ g' ∈ t.groups.rows, g'.mergedInto ≠ none → ∃ g ∈ s.groups.rows, g.id = g'.id) :
    parent t = parent s := by
  funext n
  refine Option.ext fun m => ?_
  rw [parent_eq_some, parent_eq_some]
  constructor
  · rintro ⟨g', hg', rfl, hmerged⟩
    obtain ⟨g, hg, hid⟩ := hnew g' hg' (by rw [hmerged]; exact Option.some_ne_none m)
    obtain ⟨g'', hg'', hid'', hsame⟩ := hkept g hg
    rw [IdTable.eq_of_id hg'' hg' (hid''.trans hid)] at hsame
    exact ⟨g, hg, hid, by rw [← hsame, hmerged]⟩
  · rintro ⟨g, hg, rfl, hmerged⟩
    obtain ⟨g', hg', hid, hsame⟩ := hkept g hg
    exact ⟨g', hg', hid, by rw [hsame, hmerged]⟩

/-- The loop redirects the sources to the target. -/
theorem Loop.parent_eq {target : ℕ} {sourceIds : List ℕ} {s t : Store}
    (h : Loop target sourceIds s t) : parent t = redirect (parent s) sourceIds target := by
  funext n
  unfold redirect
  -- a group that is absorbed points to the target, any other one where it pointed
  by_cases habs : n ∈ sourceIds ∧ n ≠ target
  · rw [if_pos habs]
    obtain ⟨g, hg, rfl⟩ := h.exist n habs
    obtain ⟨g', hg', hpointed⟩ := Rows.exists_right h.groups hg
    rw [← hpointed.id, parent_of_mem hg']
    exact (hpointed.absorbed habs).1
  · rw [if_neg habs]
    refine Option.ext fun m => ?_
    rw [parent_eq_some, parent_eq_some]
    constructor
    · rintro ⟨g', hg', rfl, hmerged⟩
      obtain ⟨g, hg, hpointed⟩ := Rows.exists_left h.groups hg'
      rw [hpointed.id] at habs
      rw [hpointed.kept habs] at hmerged ⊢
      exact ⟨g, hg, rfl, hmerged⟩
    · rintro ⟨g, hg, rfl, hmerged⟩
      obtain ⟨g', hg', hpointed⟩ := Rows.exists_right h.groups hg
      rw [hpointed.kept habs] at hg'
      exact ⟨g, hg', rfl, hmerged⟩

/-! ## Sound stores -/

/-- The merged groups are a forest and marked, and own no alerts. -/
structure Sound (s : Store) : Prop where
  acyclic : Acyclic (parent s)
  owned : ∀ a ∈ s.alerts.rows, ∃ g ∈ s.groups.rows, a.group = some g.id ∧ g.mergedInto = none
  marked : ∀ g ∈ s.groups.rows, g.mergedInto ≠ none → g.status = .merged

/-- No alert is lost, those that are created are new, and merged groups stay merged. -/
structure Kept (s t : Store) (created : List ℕ) : Prop where
  alerts : ∃ new, t.alerts.rows.map Alert.occurrence = s.alerts.rows.map Alert.occurrence ++ new ∧
    new.map Prod.fst = created
  merged : ∀ g ∈ s.groups.rows, g.mergedInto ≠ none →
    ∃ g' ∈ t.groups.rows, g'.id = g.id ∧ g'.mergedInto ≠ none

theorem Sound.grouped {s : Store} (h : Sound s) : Grouped s := by
  intro a ha
  obtain ⟨g, hg, hgroup, -⟩ := h.owned a ha
  exact ⟨g, hg, hgroup⟩

theorem Kept.refl (s : Store) : Kept s s [] :=
  ⟨⟨[], (List.append_nil _).symm, rfl⟩, fun g hg hmerged => ⟨g, hg, rfl, hmerged⟩⟩

/-- The condition on a merge: the target has not been merged, or nothing is moved to it and
it leads to no source. -/
def Mergeable (s : Store) (target : ℕ) (sourceIds : List ℕ) : Prop :=
  parent s target = none ∨
    ∀ n ∈ sourceIds, n ≠ target → s.children n = [] ∧ ¬LeadsTo (parent s) target n

section Event

variable {env : Services} {s t : Store} {n : ℕ} {created : List ℕ}

/-- The group that an event works on has not been merged. -/
theorem unmerged_of_spec (h : EventSpec env s t n created) (hs : Sound s) :
    (∀ r ∈ s.groups.rows, r.id = n → r.mergedInto = none) ∧
      ∃ g ∈ t.groups.rows, g.id = n ∧ g.mergedInto = none := by
  obtain ⟨g, hg, hid, hbefore, hfresh, -⟩ := h.group
  by_cases hcreated : created = []
  · obtain ⟨a, ha, hgroup⟩ := h.owner hcreated
    obtain ⟨r, hr, hr_group, hr_merged⟩ := hs.owned a ha
    have hr_id : r.id = n := Option.some.inj (hr_group.symm.trans hgroup)
    refine ⟨fun r' hr' hr'_id => ?_, g, hg, hid, ?_⟩
    · rwa [IdTable.eq_of_id hr' hr (hr'_id.trans hr_id.symm)]
    · rw [hbefore r hr hr_id, hr_merged]
  · exact ⟨fun r hr hr_id => by rw [← hbefore r hr hr_id, hfresh hcreated], g, hg, hid,
      hfresh hcreated⟩

/-- An event keeps the store sound: it reaches no merged group. -/
theorem sound_of_spec (h : EventSpec env s t n created) (hs : Sound s) : Sound t := by
  obtain ⟨hbefore, g, hg, rfl, hmerged⟩ := unmerged_of_spec h hs
  have hother : ∀ r ∈ t.groups.rows, r.mergedInto ≠ none → r.id ≠ g.id := by
    intro r hr hr_merged hid
    rw [IdTable.eq_of_id hr hg hid] at hr_merged
    exact hr_merged hmerged
  have hparent : parent t = parent s := by
    refine parent_congr (fun r hr => ?_) fun r hr hr_merged => ?_
    · by_cases hid : r.id = g.id
      · exact ⟨g, hg, hid.symm, by rw [hmerged, hbefore r hr hid]⟩
      · exact ⟨r, (h.others r hid).mpr hr, rfl, rfl⟩
    · exact ⟨r, (h.others r (hother r hr hr_merged)).mp hr, rfl⟩
  refine ⟨hparent ▸ hs.acyclic, fun b hb => ?_, fun r hr hr_merged => ?_⟩
  · by_cases hgroup : b.group = some g.id
    · exact ⟨g, hg, hgroup, hmerged⟩
    · obtain ⟨r, hr, hr_group, hr_merged⟩ := hs.owned b (h.mem_other hb hgroup)
      refine ⟨r, (h.others r fun hid => hgroup ?_).mpr hr, hr_group, hr_merged⟩
      rw [hr_group, hid]
  · exact hs.marked r ((h.others r (hother r hr hr_merged)).mp hr) hr_merged

/-- An event keeps all occurrences, and adds those that it created. -/
theorem kept_of_spec (h : EventSpec env s t n created) (hs : Sound s) : Kept s t created := by
  constructor
  · obtain ⟨old, new, hrows, hold, hnew, -⟩ := h.alerts
    refine ⟨new.map Alert.occurrence, ?_, ?_⟩
    · rw [hrows, List.map_append, hold.map_occurrence]
    · rw [← hnew, List.map_map]
      rfl
  · intro r hr hr_merged
    refine ⟨r, (h.others r fun hid => hr_merged ?_).mpr hr, rfl, hr_merged⟩
    exact (unmerged_of_spec h hs).1 r hr hid

end Event

section Merge

variable {s t : Store} {target : AlertGroup} {sourceIds : List ℕ}

/-- A merge keeps all occurrences; it only moves them. -/
theorem kept_of_loop (h : Loop target.id sourceIds s t) (htarget : target ∈ t.groups.rows)
    (now : Instant) : Kept s (t.recalculateAlertGroup target now).1 [] := by
  have hwork := works_recalculate (P := True) t target now
  constructor
  · refine ⟨[], ?_, rfl⟩
    rw [List.append_nil, (hwork.alerts.mono Tended.toRewritten).map_occurrence]
    exact Rows.map_eq h.alerts Moved.occurrence
  · intro g hg hmerged
    obtain ⟨g', hg', hpointed⟩ := Rows.exists_right h.groups hg
    have hmerged' : g'.mergedInto ≠ none := by
      by_cases habs : Absorbed target.id sourceIds g.id
      · rw [(hpointed.absorbed habs).1]
        exact Option.some_ne_none _
      · rwa [hpointed.kept habs]
    by_cases hid : g'.id = target.id
    · rw [IdTable.eq_of_id hg' htarget hid] at hmerged' hpointed
      exact ⟨_, hwork.stored htarget, hwork.id.trans hpointed.id, by rwa [hwork.mergedInto]⟩
    · exact ⟨g', (hwork.groups.mem_iff hid).mpr hg', hpointed.id, hmerged'⟩

/-- The owner of an alert behind the loop. -/
theorem Loop.group_of_mem (h : Loop target.id sourceIds s t) (hs : Sound s) {b : Alert}
    (hb : b ∈ t.alerts.rows) :
    ∃ g ∈ s.groups.rows, g.mergedInto = none ∧ s.children g.id ≠ [] ∧
      ((Absorbed target.id sourceIds g.id ∧ b.group = some target.id) ∨
        (¬Absorbed target.id sourceIds g.id ∧ b.group = some g.id)) := by
  obtain ⟨a, ha, hmoved⟩ := Rows.exists_left h.alerts hb
  obtain ⟨g, hg, hgroup, hmerged⟩ := hs.owned a ha
  refine ⟨g, hg, hmerged, List.ne_nil_of_mem (mem_children.mpr ⟨ha, hgroup⟩), ?_⟩
  by_cases habs : Absorbed target.id sourceIds g.id
  · exact .inl ⟨habs, hmoved.absorbed _ hgroup habs⟩
  · refine .inr ⟨habs, ?_⟩
    rw [hmoved.kept, hgroup]
    intro n hn
    obtain rfl := Option.some.inj (hn.symm.trans hgroup)
    exact habs

/-- A group without children keeps its status. -/
theorem recalculated_nil_status (now : Instant) (g : AlertGroup) :
    (Store.recalculated [] now g).status = g.status := by
  show (Store.effectiveStatus [] now _).status = _
  unfold Store.effectiveStatus
  rw [if_pos List.isEmpty_nil]
  exact (summarize_keeps [] g).2.2

variable (hs : Sound s) (hloop : Loop target.id sourceIds s t) (hmem : target ∈ s.groups.rows)
  (htarget : target ∈ t.groups.rows) (now : Instant)

include hloop htarget in
/-- After the merge the sources point to the target, and all else as before. -/
theorem parent_merged : parent (t.recalculateAlertGroup target now).1 =
    redirect (parent s) sourceIds target.id := by
  have hwork := works_recalculate (P := True) t target now
  rw [← hloop.parent_eq]
  refine parent_congr (fun g hg => ?_) fun g hg _ => ?_
  · by_cases hid : g.id = target.id
    · rw [IdTable.eq_of_id hg htarget hid]
      exact ⟨_, hwork.stored htarget, hwork.id, hwork.mergedInto⟩
    · exact ⟨g, (hwork.groups.mem_iff hid).mpr hg, rfl, rfl⟩
  · obtain ⟨g', hg', hid, -⟩ := Rows.exists_left hwork.groups hg
    exact ⟨g', hg', hid.symm⟩

include hs hloop hmem htarget

/-- A merge into a group that is no root, or of such groups, leaves a chain behind. -/
theorem mergeable_of_sound (hu : Sound (t.recalculateAlertGroup target now).1) :
    Mergeable s target.id sourceIds := by
  have hwork := works_recalculate (P := True) t target now
  by_cases hroot : parent s target.id = none
  · exact .inl hroot
  · refine .inr fun n hn hne => ⟨?_, ?_⟩
    · by_contra hchildren
      obtain ⟨a, ha⟩ := List.exists_mem_of_ne_nil _ hchildren
      obtain ⟨ha, hgroup⟩ := mem_children.mp ha
      -- the child belongs to the target now, which has been merged
      obtain ⟨b, hb, hmoved⟩ := Rows.exists_right hloop.alerts ha
      have hb_group := hmoved.absorbed n hgroup ⟨hn, hne⟩
      obtain ⟨c, hc, hbc⟩ := Rows.exists_right hwork.alerts hb
      have hc_group : c.group = some target.id := by
        rcases hbc with rfl | ⟨-, hbc⟩
        · exact hb_group
        · rw [hbc.group, hb_group]
      obtain ⟨g, hg, hg_group, hg_merged⟩ := hu.owned c hc
      have hid : g.id = target.id := Option.some.inj (hg_group.symm.trans hc_group)
      rw [IdTable.eq_of_id hg (hwork.stored htarget) (hid.trans hwork.id.symm),
        hwork.mergedInto, ← parent_of_mem hmem] at hg_merged
      exact hroot hg_merged
    · have hacyclic := hu.acyclic
      rw [parent_merged hloop htarget] at hacyclic
      exact (acyclic_redirect_iff hs.acyclic).mp hacyclic n hn hne

/-- **A merge into a root keeps the store sound.** -/
theorem sound_of_mergeable (h : Mergeable s target.id sourceIds) :
    Sound (t.recalculateAlertGroup target now).1 := by
  have hwork := works_recalculate (P := True) t target now
  have htarget_parent := parent_of_mem hmem
  refine ⟨?_, fun c hc => ?_, fun r hr hr_merged => ?_⟩
  · rw [parent_merged hloop htarget, acyclic_redirect_iff hs.acyclic]
    intro n hn hne hlead
    rcases h with hroot | hfree
    · exact hne (eq_of_leadsTo hroot hlead)
    · exact (hfree n hn hne).2 hlead
  · obtain ⟨b, hb, hbc⟩ := Rows.exists_left hwork.alerts hc
    have hc_group : c.group = b.group := by
      rcases hbc with rfl | ⟨-, hbc⟩
      · rfl
      · exact hbc.group
    rw [hc_group]
    obtain ⟨g, hg, hmerged, hchildren, ⟨habs, hgroup⟩ | ⟨habs, hgroup⟩⟩ :=
      hloop.group_of_mem hs hb
    · rcases h with hroot | hfree
      · refine ⟨_, hwork.stored htarget, by rw [hgroup, hwork.id], ?_⟩
        rw [hwork.mergedInto, ← htarget_parent, hroot]
      · exact absurd (hfree _ habs.1 habs.2).1 hchildren
    · by_cases hid : g.id = target.id
      · rw [IdTable.eq_of_id hg hmem hid] at hmerged hgroup
        exact ⟨_, hwork.stored htarget, by rw [hgroup, hwork.id], by rw [hwork.mergedInto, hmerged]⟩
      · obtain ⟨g', hg', hpointed⟩ := Rows.exists_right hloop.groups hg
        rw [hpointed.kept habs] at hg'
        exact ⟨g, (hwork.groups.mem_iff hid).mpr hg', hgroup, hmerged⟩
  · by_cases hid : r.id = target.id
    · rw [IdTable.eq_of_id hr (hwork.stored htarget) (hid.trans hwork.id.symm)] at hr_merged ⊢
      rw [hwork.mergedInto] at hr_merged
      -- a merged target has no children, before and behind the loop
      have hempty : t.children target.id = [] := by
        refine List.eq_nil_iff_forall_not_mem.mpr fun b hb => ?_
        obtain ⟨hb, hb_group⟩ := mem_children.mp hb
        obtain ⟨g, hg, hmerged, hchildren, ⟨habs, -⟩ | ⟨-, hgroup⟩⟩ := hloop.group_of_mem hs hb
        · rcases h with hroot | hfree
          · exact hr_merged (htarget_parent.symm.trans hroot)
          · exact hchildren (hfree _ habs.1 habs.2).1
        · have hg_id : g.id = target.id := Option.some.inj (hgroup.symm.trans hb_group)
          rw [IdTable.eq_of_id hg hmem hg_id] at hmerged
          exact hr_merged hmerged
      show (Store.recalculated (t.children target.id) now target).status = .merged
      rw [hempty, recalculated_nil_status]
      exact hs.marked target hmem hr_merged
    · have hr := (hwork.groups.mem_iff hid).mp hr
      obtain ⟨g, hg, hpointed⟩ := Rows.exists_left hloop.groups hr
      by_cases habs : Absorbed target.id sourceIds g.id
      · exact (hpointed.absorbed habs).2
      · rw [hpointed.kept habs] at hr_merged ⊢
        exact hs.marked g hg hr_merged

end Merge

/-! ## Runs -/

/-- What the store is asked for. -/
inductive Request where
  | event (env : Services) (a : Arrival) (now : Instant)
  | merge (canRespond : Id → Bool) (target : ℕ) (sourceIds : List ℕ) (now : Instant)

/-- A merge that is not accepted leaves the store. -/
def Store.handle (s : Store) : Request → Store
  | .event env a now => (persistEvent env a now s).1
  | .merge canRespond target sourceIds now =>
    match mergeAlertGroupsView canRespond s target sourceIds now with
    | .ok t => t
    | .error _ => s

/-- The alerts that the request created. -/
def Request.created (s : Store) : Request → List ℕ
  | .event env a now => (persistEvent env a now s).2.createdAlerts
  | .merge _ _ _ _ => []

/-- The request does what it should. -/
def Request.Good (s : Store) (r : Request) : Prop :=
  Sound (s.handle r) ∧ Kept s (s.handle r) (r.created s)

/-- No accepted merge is into a merged group, but for one that moves nothing there. -/
def Request.IntoRoot (s : Store) : Request → Prop
  | .event _ _ _ => True
  | .merge canRespond target sourceIds now =>
    (mergeAlertGroupsView canRespond s target sourceIds now).isOk = true →
      Mergeable s target sourceIds

/-- A merge that is answered was made. -/
theorem view_ok {canRespond : Id → Bool} {s t : Store} {target : ℕ} {sourceIds : List ℕ}
    {now : Instant} (h : mergeAlertGroupsView canRespond s target sourceIds now = .ok t) :
    mergeAlertGroups s target sourceIds now = some t := by
  unfold mergeAlertGroupsView at h
  split_ifs at h
  obtain ⟨_, -, h⟩ := bind_eq_ok.mp h
  obtain ⟨_, -, h⟩ := bind_eq_ok.mp h
  split at h
  · cases h
  · rename_i t' ht'
    cases h
    exact ht'

/-- One request is good exactly when it merges into a root. -/
theorem good_iff {s : Store} (hs : Sound s) (r : Request) : r.Good s ↔ r.IntoRoot s := by
  unfold Request.Good Request.IntoRoot Store.handle Request.created
  cases r with
  | event env a now =>
    -- an event makes its alerts in a group that is not merged
    refine iff_of_true ?_ trivial
    rcases persistEvent_spec env a now s hs.grouped with ⟨hsame, hcreated⟩ | ⟨n, hspec⟩
    · dsimp only
      rw [hsame, hcreated]
      exact ⟨hs, .refl s⟩
    · exact ⟨sound_of_spec hspec hs, kept_of_spec hspec hs⟩
  | merge canRespond target sourceIds now =>
    dsimp only
    -- a merge that is refused changes nothing
    cases hview : mergeAlertGroupsView canRespond s target sourceIds now with
    | error _ => exact iff_of_true ⟨hs, .refl s⟩ nofun
    | ok u =>
      obtain ⟨g, hg, rfl, t, hloop, htarget, rfl⟩ := mergeAlertGroups_cases (view_ok hview)
      constructor
      · exact fun h _ => mergeable_of_sound hs hloop hg htarget now h.1
      · exact fun h => ⟨sound_of_mergeable hs hloop hg htarget now (h rfl),
          kept_of_loop hloop htarget now⟩

theorem sound_empty : Sound Store.empty :=
  ⟨acyclic_of_none fun _ => rfl, fun _ ha => absurd ha List.not_mem_nil,
    fun _ hg => absurd hg List.not_mem_nil⟩

/-- **The merged groups stay a forest that owns no alerts, no alert is lost or doubled and
no merged group comes back, in exactly the runs in which nothing is merged into a merged
group.** -/
theorem merging_sound_iff (rs : List Request) :
    Along Store.handle Request.Good Store.empty rs ↔
      Along Store.handle Request.IntoRoot Store.empty rs :=
  @along_iff _ _ Store.handle Request.Good Request.IntoRoot Sound (fun _ r hs => good_iff hs r)
    (fun _ r hs h => ((good_iff hs r).mpr h).1) Store.empty sound_empty rs

/-! ## There and back -/

/-- A firing webhook event of the route under a key. -/
def firingArrival (key : String) : Arrival where
  alertData := [("source", .str "webhook"), ("dedup_key", .str key), ("status", .str "firing")]
  route := Orchestration.opsRoute
  service := none
  runtime := {}

/-- The second group is merged into the first, and the first into the second. -/
def mergedBack : List Request :=
  [.event plainServices (firingArrival "disk") 0, .event plainServices (firingArrival "cpu") 60,
    .merge (fun _ => true) 1 [2] 120, .merge (fun _ => true) 2 [1] 180]

/-- **The two groups point at each other**, and the alerts are in a merged group. -/
theorem merged_back_cycles : ¬∀ rs, Along Store.handle Request.Good Store.empty rs := by
  intro h
  obtain ⟨-, -, -, ⟨hsound, -⟩, -⟩ := h mergedBack
  have hparents : parent (mergedBack.foldl Store.handle Store.empty) 1 = some 2 ∧
      parent (mergedBack.foldl Store.handle Store.empty) 2 = some 1 := by decide +kernel
  exact hsound.acyclic 1 (.tail (.single hparents.1) hparents.2)

end IncidentRelay.Alerts
