import IncidentRelay.Alerts.Disposition
import IncidentRelay.Alerts.GroupWork

/-!
# The open group of an event

There are two lookups for the open group of a new alert. `find_exact_open_group` compares all
parts of the identity; `find_open_alert_group`, which is the default, has no condition where
the event has no service.

 * `lookup_exact_iff`: what keeps the two lookups together in one state.
 * `child_exact`: a new alert joins the group that the lookup finds.
 * `openLookup_exact_iff`: the same for every event of a run.
-/

namespace IncidentRelay.Alerts

open Json Orchestration RouteSelection

/-! ## Two lookups -/

section Lookups

variable {sha256 : String → String} {s : Store} {i : Identity} {g g' : AlertGroup}

/-- An open group with the source, the key, the team and the route of the identity. -/
structure Fits (sha256 : String → String) (i : Identity) (g : AlertGroup) : Prop where
  source : g.source = i.source
  key : g.groupKeyHash = sha256 i.groupKey
  unresolved : g.status ≠ .resolved
  notMerged : g.status ≠ .merged
  unmerged : g.mergedInto = none
  team : g.team = i.team
  route : g.route = i.route

/-- Where the identity has no service, no group with a service is the newest that fits. -/
def ServicesApart (sha256 : String → String) (s : Store) (i : Identity) : Prop :=
  i.service = none → ∀ g ∈ s.groups.rows, Fits sha256 i g → g.service ≠ none →
    ∃ g' ∈ s.groups.rows, Fits sha256 i g' ∧ g'.service = none ∧ g.id < g'.id

/-- An identity with a team and a route, as each event on a route has. -/
structure Routed (i : Identity) : Prop where
  team : i.team.isSome = true
  route : i.route.isSome = true

theorem all_eq_some_iff {part value : Option Id} (h : part.isSome = true) :
    (part.all fun id => value = some id) = true ↔ value = part := by
  obtain ⟨id, rfl⟩ := Option.isSome_iff_exists.mp h
  exact decide_eq_true_iff

/-- The query for an event: what fits, with the service compared only if it is known. -/
theorem findOpen_iff (hi : Routed i) : (decide (g.source = i.source ∧ g.groupKeyHash = sha256 i.groupKey ∧
      g.status ≠ .resolved ∧ g.status ≠ .merged ∧ g.mergedInto = none ∧
      (i.team.all fun id => g.team = some id) = true ∧
      (i.route.all fun id => g.route = some id) = true ∧
      (i.service.all fun id => g.service = some id) = true)) = true ↔
    Fits sha256 i g ∧ (i.service.all fun id => g.service = some id) = true := by
  rw [decide_eq_true_iff, all_eq_some_iff hi.team, all_eq_some_iff hi.route]
  constructor
  · rintro ⟨hsource, hkey, hresolved, hmerged, hinto, hteam, hroute, hservice⟩
    exact ⟨⟨hsource, hkey, hresolved, hmerged, hinto, hteam, hroute⟩, hservice⟩
  · rintro ⟨h, hservice⟩
    exact ⟨h.source, h.key, h.unresolved, h.notMerged, h.unmerged, h.team, h.route, hservice⟩

/-- The exact query compares the service as well. -/
theorem findExact_iff : (Store.matchesIdentity sha256 i g && decide (g.status ≠ .resolved) &&
      decide (g.status ≠ .merged)) = true ↔ Fits sha256 i g ∧ g.service = i.service := by
  rw [Bool.and_eq_true, Bool.and_eq_true, Store.matchesIdentity, decide_eq_true_iff,
    decide_eq_true_iff, decide_eq_true_iff]
  constructor
  · rintro ⟨⟨⟨hinto, hsource, hkey, hteam, hroute, hservice⟩, hresolved⟩, hmerged⟩
    exact ⟨⟨hsource, hkey, hresolved, hmerged, hinto, hteam, hroute⟩, hservice⟩
  · rintro ⟨h, hservice⟩
    exact ⟨⟨⟨h.unmerged, h.source, h.key, h.team, h.route, hservice⟩, h.unresolved⟩, h.notMerged⟩

/-- The group of an exact lookup is the newest that fits and has the service. -/
theorem findExact_eq_some (hmem : g ∈ s.groups.rows) (hfits : Fits sha256 i g)
    (hservice : g.service = i.service)
    (hnewest : ∀ g' ∈ s.groups.rows, Fits sha256 i g' → g'.service = i.service → g'.id ≤ g.id) :
    s.findExactOpenGroup sha256 i = some g := by
  cases hfound : s.findExactOpenGroup sha256 i with
  | none =>
    have hnone := IdTable.latest_eq_none.mp hfound g hmem
    rw [findExact_iff.mpr ⟨hfits, hservice⟩] at hnone
    cases hnone
  | some found =>
    obtain ⟨hfoundMem, hfoundFits⟩ := IdTable.latest_spec hfound
    have hfoundFits := findExact_iff.mp hfoundFits
    have hle : g.id ≤ found.id := IdTable.le_latest hfound hmem (findExact_iff.mpr ⟨hfits, hservice⟩)
    have hge := hnewest found hfoundMem hfoundFits.1 hfoundFits.2
    rw [IdTable.eq_of_id hfoundMem hmem (le_antisymm hge hle)]

/-- **The default lookup is exact iff it comes to no newer group of some service.** -/
theorem lookup_exact_iff (hi : Routed i) :
    (∀ g, s.findOpenAlertGroup sha256 i = some g → s.findExactOpenGroup sha256 i = some g) ↔
      ServicesApart sha256 s i := by
  constructor
  · intro hexact hnone g hmem hfits hservice
    have hfree : ∀ g, Fits sha256 i g → Fits sha256 i g ∧
        (i.service.all fun id => g.service = some id) = true := by
      intro g h
      rw [hnone]
      exact ⟨h, rfl⟩
    cases hfound : s.findOpenAlertGroup sha256 i with
    | none =>
      have hno := IdTable.latest_eq_none.mp hfound g hmem
      rw [(findOpen_iff hi).mpr (hfree g hfits)] at hno
      cases hno
    | some newest =>
      -- the newest group that fits is the exact one, and has no service
      obtain ⟨hnewestMem, hmatches⟩ := IdTable.latest_spec (hexact newest hfound)
      obtain ⟨hnewestFits, hnewestService⟩ := findExact_iff.mp hmatches
      have hle : g.id ≤ newest.id := IdTable.le_latest hfound hmem ((findOpen_iff hi).mpr (hfree g hfits))
      refine ⟨newest, hnewestMem, hnewestFits, hnewestService.trans hnone, lt_of_le_of_ne hle ?_⟩
      intro hid
      obtain rfl := IdTable.eq_of_id hmem hnewestMem hid
      exact hservice (hnewestService.trans hnone)
  · intro hapart g hfound
    obtain ⟨hmem, hopen⟩ := IdTable.latest_spec hfound
    obtain ⟨hfits, hall⟩ := (findOpen_iff hi).mp hopen
    have hnewest : ∀ g' ∈ s.groups.rows, Fits sha256 i g' →
        (i.service.all fun id => g'.service = some id) = true → g'.id ≤ g.id :=
      fun g' hmem' hfits' hall' => IdTable.le_latest hfound hmem' ((findOpen_iff hi).mpr ⟨hfits', hall'⟩)
    cases hservice : i.service with
    | some id =>
      have hsome : i.service.isSome = true := by rw [hservice]; rfl
      refine findExact_eq_some hmem hfits ((all_eq_some_iff hsome).mp hall) fun g' hmem' hfits' heq =>
        hnewest g' hmem' hfits' ((all_eq_some_iff hsome).mpr heq)
    | none =>
      have hown : g.service = none := by
        by_contra hother
        obtain ⟨g', hmem', hfits', -, hlt⟩ := hapart hservice g hmem hfits hother
        exact absurd (hnewest g' hmem' hfits' (by rw [hservice]; rfl)) (not_le_of_gt hlt)
      refine findExact_eq_some hmem hfits (hown.trans hservice.symm) fun g' hmem' hfits' _ =>
        hnewest g' hmem' hfits' (by rw [hservice]; rfl)

end Lookups

/-! ## The group of a new alert -/

section Child

variable (env : Services) (a : Arrival) (now : Instant) {s : Store}

theorem identity_routed : Routed (a.identity env) := ⟨rfl, rfl⟩

/-- The row has the source, the key, the team, the route and the service of the event. -/
def OfEvent (g : AlertGroup) : Prop := Store.matchesIdentity env.sha256 (a.identity env) g = true

/-- What the exact query finds is a group of the event. -/
theorem findExact_ofEvent {g : AlertGroup}
    (h : s.findExactOpenGroup env.sha256 (a.identity env) = some g) :
    g ∈ s.groups.rows ∧ OfEvent env a g := by
  obtain ⟨hmem, hmatches⟩ := IdTable.latest_spec h
  exact ⟨hmem, (Bool.and_eq_true_iff.mp (Bool.and_eq_true_iff.mp hmatches).1).1⟩

theorem candidate_ofEvent {g : AlertGroup} {windowSeconds : ℕ}
    (h : s.findResolvedReopenCandidate env.sha256 (a.identity env) now windowSeconds = some g) :
    g ∈ s.groups.rows ∧ OfEvent env a g := by
  obtain ⟨hmem, hmatches⟩ := List.mem_filter.mp (List.argmax_mem h)
  exact ⟨hmem, (Bool.and_eq_true_iff.mp (Bool.and_eq_true_iff.mp hmatches).1).1⟩

/-- A group that is chosen is one of the event, or a new one. -/
theorem chooseGroup_ofEvent {openGroup : Option AlertGroup}
    (hopen : ∀ g ∈ openGroup, g ∈ s.groups.rows ∧ OfEvent env a g) {status : Status}
    {silenced reopenEnabled : Bool} {r : AlertGroup} (hr : r ∈ s.groups.rows)
    (hid : r.id = (chooseGroup env a now s status silenced reopenEnabled openGroup).2.id) :
    OfEvent env a r := by
  have hfound : ∀ g, g ∈ s.groups.rows ∧ OfEvent env a g → r.id = g.id → OfEvent env a r :=
    fun g hg hsame => IdTable.eq_of_id hr hg.1 hsame ▸ hg.2
  refine chooseGroup_of env a now s (P := fun _ g => r.id = g.id → OfEvent env a r) (fun hnew => ?_)
    (fun g hg => hfound g (findExact_ofEvent env a hg))
    (fun candidate _ hg => hfound candidate (candidate_ofEvent env a now hg))
    (fun g hg => hfound g (hopen g hg)) ?_ hid
  · -- a new group has the next id
    exact absurd (s.groups.lt r hr) (by rw [hnew]; exact Nat.lt_irrefl _)
  · rintro t g h g' rfl
    exact h

/-- The new alert is in the group that was chosen. -/
theorem createAlertIn_group {g : AlertGroup} {status : Status} {silenced : Bool} {n m : ℕ}
    {created : Bool} (h : (createAlertIn env a now s g status silenced).2 = .completed n m created) :
    n = g.id := by
  unfold createAlertIn at h
  dsimp only at h
  obtain ⟨rfl, -, -⟩ := Outcome.completed.inj h
  -- neither the maintenance nor the recalculation gives the group another id
  exact (((works_reconcile env _ _ now).trans (works_recalculate _ _ now)).id).trans
    (works_reconcile env _ _ now).id

/-- **A new alert joins a group of its own identity, where the lookups agree.** -/
theorem child_exact (hexact : ∀ g, s.findOpenAlertGroup env.sha256 (a.identity env) = some g →
      s.findExactOpenGroup env.sha256 (a.identity env) = some g) {n m : ℕ}
    (h : (persistEvent env a now s).2 = .completed n m true) {r : AlertGroup}
    (hr : r ∈ s.groups.rows) (hid : r.id = n) : OfEvent env a r := by
  unfold persistEvent at h
  dsimp only at h
  -- an early return stores no child; otherwise the group of the child is the chosen one
  split at h
  · cases h
  · split at h
    · cases h
    · split at h
      · cases h
      · unfold createForNew at h
        dsimp only at h
        split at h
        · cases h
        · have hgroup := createAlertIn_group env a now h
          refine chooseGroup_ofEvent env a now ?_ hr (hid.trans hgroup)
          intro g hg
          exact findExact_ofEvent env a (hexact g hg)

end Child

/-! ## Runs -/

section Runs

variable {L : Language} (site : Site L)

/-- The lookup of an event finds the group of its identity or none, and a new alert that joins a
group joins one of its identity. -/
structure JoinsOwn (a : Arrival) (now : Instant) (s : Store) : Prop where
  lookup : ∀ g, s.findOpenAlertGroup site.sha256 (a.identity site.toServices) = some g →
    s.findExactOpenGroup site.sha256 (a.identity site.toServices) = some g ∧
      OfEvent site.toServices a g
  child : ∀ n m, (persistEvent site.toServices a now s).2 = .completed n m true →
    ∀ g ∈ s.groups.rows, g.id = n → OfEvent site.toServices a g

/-- An arrival joins its own group exactly when no open group differs in the service alone. -/
theorem joinsOwn_iff (a : Arrival) (now : Instant) (s : Store) :
    JoinsOwn site a now s ↔ ServicesApart site.sha256 s (a.identity site.toServices) := by
  rw [← lookup_exact_iff (identity_routed site.toServices a)]
  constructor
  · intro h g hg
    exact (h.lookup g hg).1
  · intro hexact
    exact {
      lookup := fun g hg => ⟨hexact g hg, (findExact_ofEvent site.toServices a (hexact g hg)).2⟩
      child := fun n m hpersist g hg hid => child_exact site.toServices a now hexact hpersist hg hid }

/-- Every event of the step joins its own group. -/
def StepJoinsOwn (w : World) (label : Label) : Prop :=
  ∀ a now w', Calls site w label a now w' → JoinsOwn site a now w'.store

/-- No event of the step without a service comes to a newer group with one. -/
def StepServicesApart (w : World) (label : Label) : Prop :=
  ∀ a now w', Calls site w label a now w' →
    ServicesApart site.sha256 w'.store (a.identity site.toServices)

/-- **In a run every event joins a group of its own identity exactly when no event without a
service comes to a newer group with a service.** -/
theorem openLookup_exact_iff (w : World) (labels : List Label) :
    Along (step site) (StepJoinsOwn site) w labels ↔
      Along (step site) (StepServicesApart site) w labels :=
  along_iff (I := fun _ => True)
    (fun _ _ _ => forall₃_congr fun a now w' => imp_congr_right fun _ => joinsOwn_iff site a now w'.store)
    (fun _ _ _ _ => trivial) trivial labels

end Runs

/-! ## A key of an orchestration -/

def storageService : Service :=
  { id := 1, group := some 1, team := opsTeam, slug := "storage", name := "Storage", enabled := true,
    deleted := false }

theorem storage_teams_key : ([opsTeam].map (·.id)).Nodup := List.nodup_singleton _

theorem storage_routes_key : ([opsRoute].map (·.id)).Nodup := List.nodup_singleton _

theorem storage_route_team : ∀ r ∈ [opsRoute], r.team ∈ [opsTeam] := by simp [opsRoute]

/-- One team with a route and a service. -/
def storageTables : Entities where
  groups := [{ id := 1, active := true, deleted := false }]
  teams := [opsTeam]
  services := [storageService]
  routes := [opsRoute]
  escalationPolicies := []
  priorityPolicies := []
  notificationPolicies := []
  teams_key := storage_teams_key
  services_key := by simp
  routes_key := storage_routes_key
  escalation_key := List.nodup_nil
  priority_key := List.nodup_nil
  notification_key := List.nodup_nil
  route_team := storage_route_team
  route_service := by simp [opsRoute]
  service_team := by simp [storageService]

/-- A rule of the team gives the service to events with its label, and the orchestration gives
every event one group key. -/
def storageSite : Site plainLanguage :=
  { plainServices with
    resolveAlertService := fun _ alertData =>
      if (alertData.getD "labels").asDict.getD "service" = .str "storage" then some storageService
      else none
    orc := { opsEnv with
      db := storageTables
      orchestrations := [always 1 (.setGrouping { groupKey := some (.str "disks") })] }
    chars := asciiClasses
    settings := {}
    activationError := fun _ => "RuntimeError"
    service_mem := by
      intro route alertData service hservice
      split_ifs at hservice
      · cases hservice
        exact List.mem_singleton_self _
      · cases hservice }

def labelledEvent (dedupKey : String) (labels : Dict) : Dict :=
  [("source", .str "webhook"), ("title", .str "Disk full"), ("status", .str "firing"),
    ("forced_route_id", .int 1), ("dedup_key", .str dedupKey), ("labels", .obj labels)]

/-- The alert of the service is open when the event without a service comes. -/
def storageAlertOpen : World :=
  step storageSite World.init (.upsert (labelledEvent "disk-1" [("service", .str "storage")]) 0)

/-- **The event without a service joins the group of the service.** -/
theorem service_group_joined : ¬∀ (site : Site plainLanguage) (labels : List Label),
    Along (step site) (StepJoinsOwn site) World.init labels := by
  intro h
  obtain ⟨-, hjoins, -⟩ := h storageSite
    [.upsert (labelledEvent "disk-1" [("service", .str "storage")]) 0, .upsert (labelledEvent "disk-2" []) 60]
  have hjoins : StepJoinsOwn storageSite storageAlertOpen (.upsert (labelledEvent "disk-2" []) 60) := hjoins
  obtain ⟨hrouted, hlookups⟩ : (incoming storageSite (labelledEvent "disk-2" [])).isSome = true ∧
      ∀ a ∈ incoming storageSite (labelledEvent "disk-2" []),
        (storageAlertOpen.store.findOpenAlertGroup id (a.identity storageSite.toServices)).isSome = true ∧
        storageAlertOpen.store.findExactOpenGroup id (a.identity storageSite.toServices) = none := by
    decide +kernel
  obtain ⟨a, ha⟩ := Option.isSome_iff_exists.mp hrouted
  obtain ⟨hfound, hexact⟩ := hlookups a ha
  obtain ⟨g, hg⟩ := Option.isSome_iff_exists.mp hfound
  have hsame := ((hjoins a 60 storageAlertOpen (.upsert ha)).lookup g hg).1
  rw [show storageSite.sha256 = id from rfl, hexact] at hsame
  cases hsame

end IncidentRelay.Alerts
