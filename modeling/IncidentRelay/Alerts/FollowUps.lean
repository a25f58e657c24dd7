import IncidentRelay.Alerts.Isolation

/-!
# What a resolve of one key does

A `resolve` of the PagerDuty-compatible endpoint names a key. It looks the newest open
alert of the key up on its route and resolves the group of this alert, with every child
(`ResolvesGroup`); the siblings are resolved with it (`sibling_resolved`). From then on
only an event of the key can open an alert of the key again (`resolve_acts_on_group`).
-/

namespace IncidentRelay.Alerts

open Json Orchestration RouteSelection Pending

/-- The alert is open under the key. -/
def OpenUnder (key : String) (a : Alert) : Prop := a.dedupKey = key ∧ a.status ≠ .resolved

theorem stable_openUnder (key : String) : Stable (OpenUnder key) := by
  rintro a _ ⟨⟨status, previousStatus, resolvedAt, rfl⟩, hresolved⟩ ⟨hkey, hopen⟩
  exact ⟨hkey, fun h => hopen (hresolved h)⟩

/-! ## The group -/

/-- The group and its children are resolved, and nothing else is touched. -/
structure ResolvesGroup (g : AlertGroup) (s t : Store) : Prop where
  group : ∃ g' ∈ t.groups.rows, g'.id = g.id ∧ g'.status = .resolved
  children : ∀ a ∈ t.alerts.rows, a.group = some g.id → a.status = .resolved
  kept : ∀ a ∈ s.alerts.rows, ∃ a' ∈ t.alerts.rows, a'.id = a.id ∧ a'.group = a.group
  others : ∀ a : Alert, a.group ≠ some g.id → (a ∈ t.alerts.rows ↔ a ∈ s.alerts.rows)
  otherGroups : ∀ g' : AlertGroup, g'.id ≠ g.id → (g' ∈ t.groups.rows ↔ g' ∈ s.groups.rows)

/-- A group that is neither resolved nor merged. -/
def AlertGroup.Active (g : AlertGroup) : Prop :=
  g.status ≠ .resolved ∧ g.status ≠ .merged ∧ g.mergedInto = none

/-- A resolve closes the open alerts of its group and leaves the others as they are. -/
theorem resolveAlert_resolves {s : Store} {g : AlertGroup} (hg : g ∈ s.groups.rows)
    (hactive : g.Active) (now : Instant) : ResolvesGroup g s (resolveAlert g now s) := by
  obtain ⟨hresolved, hmerged, hinto⟩ := hactive
  have hover : ¬(g.status = .resolved ∨ g.status = .merged ∨ g.mergedInto.isSome = true) := by
    rw [hinto]
    simp [hresolved, hmerged]
  unfold resolveAlert
  rw [if_neg hover]
  unfold Store.resolveAlertGroup
  constructor
  case group => exact ⟨_, IdTable.mem_save.mpr (.inr ⟨rfl, g, hg, rfl⟩), rfl, rfl⟩
  case children =>
    intro a ha hgroup
    -- a child is written, or it was resolved before
    obtain ⟨a₀, ha₀, ⟨-, rfl⟩ | ⟨hguard, rfl⟩⟩ := Table.mem_update.mp ha
    · rfl
    · have hchild : Store.childOf g.id a = true := decide_eq_true hgroup
      rw [hchild, Bool.true_and] at hguard
      simpa using hguard
  case kept =>
    intro a ha
    refine ⟨_, IdTable.updated_mem (by exact fun _ => rfl) ha, ?_, ?_⟩
    · split_ifs <;> rfl
    · split_ifs <;> rfl
  case others =>
    intro a hother
    have hchild : Store.childOf g.id a = false := decide_eq_false hother
    constructor
    · intro ha
      obtain ⟨a₀, ha₀, ⟨hguard, rfl⟩ | ⟨-, rfl⟩⟩ := Table.mem_update.mp ha
      · -- a row that is written is a child and stays one
        have hchild₀ : Store.childOf g.id a₀ = true := (Bool.and_eq_true_iff.mp hguard).1
        exact absurd (of_decide_eq_true hchild₀) hother
      · exact ha₀
    · intro ha
      refine IdTable.untouched_mem (by exact fun _ => rfl) ha ?_
      rw [hchild, Bool.false_and]
  case otherGroups =>
    intro g' hid
    constructor
    · intro hg'
      rcases IdTable.mem_save.mp hg' with ⟨hmem, -⟩ | ⟨rfl, -⟩
      · exact hmem
      · exact absurd rfl hid
    · exact fun hg' => IdTable.mem_save.mpr (.inl ⟨hg', hid⟩)

/-- The alert that was found is resolved with its group. -/
theorem ResolvesGroup.resolves {g : AlertGroup} {s t : Store} (h : ResolvesGroup g s t)
    {a : Alert} (ha : a ∈ s.alerts.rows) (hgroup : a.group = some g.id) :
    ∃ a' ∈ t.alerts.rows, a'.id = a.id ∧ a'.status = .resolved := by
  obtain ⟨a', ha', hid, hkept⟩ := h.kept a ha
  exact ⟨a', ha', hid, h.children a' ha' (hkept.trans hgroup)⟩

/-! ## Later steps -/

section Runs

variable {L : Language} (site : Site L)

/-- No call of the step takes in an event of the key. -/
def TakesOther (key : String) (w : World) (label : Label) : Prop :=
  ∀ a now w', Calls site w label a now w' → a.dedupKey ≠ key

variable {site} {key : String}

/-- A delivery under another key opens no alert under this one. -/
theorem deliver_shrinks {a : Arrival} (hkey : a.dedupKey ≠ key) (now : Instant) (w : World) :
    IdTable.Shrinks (OpenUnder key) w.store.alerts (deliver site a now w).store.alerts := by
  -- the alerts are written behind the pause and the drop only
  have hstored : ∀ {w'}, storePausedEvent site a now w = .ok w' → w'.store = w.store := by
    intro w' h
    unfold storePausedEvent at h
    obtain ⟨request, -, h⟩ := bind_eq_ok.mp h
    split at h <;> (cases h; rfl)
  unfold deliver
  split
  · rename_i w' outcome hrouted
    unfold upsertRouted at hrouted
    split at hrouted
    · rename_i cleared hclear
      cases hrouted
      have hstore : w'.store = w.store := by
        unfold clearPending at hclear
        split_ifs at hclear
        obtain ⟨groupId, -, hresolve⟩ := Option.bind_eq_some_iff.mp hclear
        unfold resolvePendingEvent at hresolve
        obtain ⟨current, -, rfl⟩ := Option.map_eq_some_iff.mp hresolve
        rfl
      rw [hstore]
      exact .refl _
    · split_ifs at hrouted
      · cases hrouted
        exact .refl _
      · obtain ⟨w'', hpaused, hreturn⟩ := bind_eq_ok.mp hrouted
        cases hreturn
        rw [hstored hpaused]
        exact .refl _
      · cases hrouted
        refine shrinks_persistEvent site.toServices a now w.store (stable_openUnder key) ?_
        exact fun alert hopen => hopen.1.trans_ne hkey.symm
  · exact .refl _

/-- By induction on the rows that are due. -/
theorem activations_shrink (now : Instant) (rowIds : List ℕ) {w : World}
    (hother : ∀ a w', Activates site now w rowIds a w' → a.dedupKey ≠ key) :
    IdTable.Shrinks (OpenUnder key) w.store.alerts
      (rowIds.foldl (activateOne site now) w).store.alerts := by
  induction rowIds generalizing w with
  | nil => exact .refl _
  | cons rowId rowIds ih =>
    rw [List.foldl_cons]
    refine IdTable.Shrinks.trans ?_ (ih fun a w' hlater => hother a w' (.later hlater))
    rcases activateOne_store site now w rowId with hsame | ⟨w', row, a, hclaim, ha, hdelivered⟩
    · rw [hsame]
      exact .refl _
    · rw [hdelivered, ← claimOne_store hclaim]
      exact deliver_shrinks (hother a w' (.here hclaim ha)) now w'

/-- Neither does a follow-up, whatever it resolves. -/
theorem followUp_shrinks (route : Route) (action : FollowUp) (dedupKey : String) (now : Instant)
    (w : World) :
    IdTable.Shrinks (OpenUnder key) w.store.alerts
      (processFollowUp route action dedupKey now w).store.alerts := by
  unfold processFollowUp
  -- only a resolve that finds its group changes an alert
  split_ifs
  · exact .refl _
  · split
    · exact .refl _
    · rename_i g hg
      cases action with
      | acknowledge =>
        dsimp only
        unfold acknowledgeAlert
        split_ifs
        · exact .refl _
        · exact .refl _
      | resolve =>
        dsimp only
        unfold resolveAlert
        split_ifs
        · exact .refl _
        · exact touches_resolve _ g now none _ (stable_openUnder key)

theorem step_shrinks {w : World} {label : Label} (hother : TakesOther site key w label) :
    IdTable.Shrinks (OpenUnder key) w.store.alerts (step site w label).store.alerts := by
  cases label with
  | upsert alertData now =>
    show IdTable.Shrinks _ _ (upsertAlert site alertData now w).store.alerts
    unfold upsertAlert
    split
    · rename_i a ha
      exact deliver_shrinks (hother a now w (.upsert ha)) now w
    · exact .refl _
  | processDue limit now =>
    exact activations_shrink now _ fun a w' hactivates => hother a now w' (.activation hactivates)
  | followUp route action dedupKey now => exact followUp_shrinks route action dedupKey now w

/-- In a run without events of the key no alert of the key is opened. -/
theorem run_shrinks {w : World} {labels : List Label}
    (hother : Along (step site) (TakesOther site key) w labels) :
    IdTable.Shrinks (OpenUnder key) w.store.alerts (labels.foldl (step site) w).store.alerts := by
  induction labels generalizing w with
  | nil => exact .refl _
  | cons label labels ih =>
    obtain ⟨hhead, htail⟩ := hother
    rw [List.foldl_cons]
    exact (step_shrinks hhead).trans (ih htail)

/-! ## The resolve -/

/-- **A resolve of a key resolves the group of the newest open alert of the key on the
route, with all its children, and nothing else; without such an alert it changes none.
After it no alert of the key is opened until an event of the key is taken in.** -/
theorem resolve_acts_on_group (w : World) {route : Route} (hsource : route.source = "webhook")
    (key : String) (now : Instant) :
    let w' := processFollowUp route .resolve key now w
    (followUpGroup route key w.store = none → w'.store = w.store) ∧
    (∀ alert ∈ w.store.findExistingAlert "webhook" key (some route.id),
      ∀ g ∈ w.store.groupOf alert, g.Active →
        ResolvesGroup g w.store w'.store ∧
        ∃ resolved ∈ w'.store.alerts.rows, resolved.id = alert.id ∧
          resolved.status = .resolved) ∧
    ∀ labels, Along (step site) (TakesOther site key) w' labels →
      IdTable.Shrinks (OpenUnder key) w'.store.alerts
        (labels.foldl (step site) w').store.alerts := by
  -- without a group nothing happens, with one it is resolved, and the rest is the later run
  refine ⟨?_, ?_, fun labels hother => run_shrinks hother⟩
  · intro hnone
    unfold processFollowUp
    rw [if_neg (not_not.mpr hsource), hnone]
  · intro alert halert g hg hactive
    have hfound : followUpGroup route key w.store = some g :=
      Option.bind_eq_some_iff.mpr ⟨alert, halert, hg⟩
    obtain ⟨n, hgroup, hget⟩ := Option.bind_eq_some_iff.mp hg
    obtain ⟨hmem, rfl⟩ := IdTable.get_eq_some.mp hget
    have hresolves : ResolvesGroup g w.store (processFollowUp route .resolve key now w).store := by
      unfold processFollowUp
      rw [if_neg (not_not.mpr hsource), hfound]
      exact resolveAlert_resolves hmem hactive now
    exact ⟨hresolves, hresolves.resolves (IdTable.latest_spec halert).1 hgroup⟩

end Runs

/-! ## Two keys in one group -/

/-- Every alert is of one group. -/
def oneGroupSite : Site plainLanguage :=
  { twoTenantSite with buildGroupKey := fun _ _ _ => "host" }

/-- A firing webhook event of the first route. -/
def firingUnder (key : String) : Dict :=
  [("source", .str "webhook"), ("title", .str "Host down"), ("status", .str "firing"),
    ("forced_route_id", .int 1), ("dedup_key", .str key)]

/-- The keys `disk` and `cpu` have been triggered. -/
def twoTriggered : World :=
  [Label.upsert (firingUnder "disk") 0, Label.upsert (firingUnder "cpu") 60].foldl
    (step oneGroupSite) World.init

/-- The resolve of `disk` resolves `cpu`. -/
theorem sibling_resolved :
    (∃ a ∈ twoTriggered.store.alerts.rows, a.dedupKey = "cpu" ∧ a.status = .firing) ∧
    ∀ a ∈ (step oneGroupSite twoTriggered (.followUp opsRoute .resolve "disk" 120)).store.alerts.rows,
      a.status = .resolved := by
  decide +kernel

/-- The resolve of `disk` finds its alert and the group. -/
theorem resolve_acts_on_group_sample :
    ∃ alert ∈ twoTriggered.store.findExistingAlert "webhook" "disk" (some opsRoute.id),
      ∃ g ∈ twoTriggered.store.groupOf alert,
        ResolvesGroup g twoTriggered.store
          (processFollowUp opsRoute .resolve "disk" 120 twoTriggered).store := by
  obtain ⟨hfound, hactive⟩ :
      (twoTriggered.store.findExistingAlert "webhook" "disk" (some opsRoute.id)).isSome = true ∧
      ∀ alert ∈ twoTriggered.store.findExistingAlert "webhook" "disk" (some opsRoute.id),
        (twoTriggered.store.groupOf alert).isSome = true ∧
        ∀ g ∈ twoTriggered.store.groupOf alert,
          g.status ≠ .resolved ∧ g.status ≠ .merged ∧ g.mergedInto = none := by decide +kernel
  obtain ⟨alert, halert⟩ := Option.isSome_iff_exists.mp hfound
  obtain ⟨hgrouped, hgroup⟩ := hactive alert halert
  obtain ⟨g, hg⟩ := Option.isSome_iff_exists.mp hgrouped
  obtain ⟨-, hresolves, -⟩ :=
    @resolve_acts_on_group plainLanguage oneGroupSite twoTriggered opsRoute rfl "disk" 120
  exact ⟨alert, halert, g, hg, (hresolves alert halert g hg (hgroup g hg)).1⟩

end IncidentRelay.Alerts
