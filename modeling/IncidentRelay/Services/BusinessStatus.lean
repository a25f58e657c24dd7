import IncidentRelay.Services.ServiceImpact
import Mathlib.Data.List.Dedup

/-!
# The status of a business service

The status of a business service is calculated from the impacts on its components. When the
own status or the groups of one technical service change, the business services that
`refresh_business_services_for_technical_service` goes through are all that can change
(`calculate_congr`), so the stored statuses are those that are calculated again, but for the
business services whose status was set by hand (`statuses_fresh`).
-/

namespace IncidentRelay.Services

open Json

/-! ## The calculation -/

section Calculation

variable (scoring : Scoring) (c : Catalog)

/-- `_load_services_for_effective_impact(service_ids)`. -/
def loadServices (serviceIds : List Id) : List Service :=
  let requested := c.services.filter fun s => s.id ∈ serviceIds ∧ s.deleted = false
  let groupIds := requested.filterMap fun s =>
    (c.teams.find? fun t => t.id = s.team).bind (·.group)
  if groupIds = [] then requested
  else c.services.filter fun s => s.deleted = false ∧
    (c.teams.find? fun t => t.id = s.team).any (fun t => t.group.any (· ∈ groupIds)) = true

/-- `_load_dependencies(service_ids)` and `_build_dependency_maps(services, dependencies)`. -/
def loadUpstream (services : List Service) : List ServiceDependency :=
  (c.dependencies.filter fun d => d.deleted = false ∧ d.enabled = true ∧
      services.any (fun s => s.id = d.service) = true ∧
      services.any (fun s => s.id = d.dependsOnService) = true).insertionSort fun a b =>
    a.service < b.service ∨ (a.service = b.service ∧ (a.criticality < b.criticality ∨
      (a.criticality = b.criticality ∧ a.id ≤ b.id)))

def impactContext (serviceIds : List Id) : ImpactContext where
  services := loadServices c serviceIds
  groups := c.groups
  upstream := loadUpstream c (loadServices c serviceIds)

/-- `TECHNICAL_STATUS_SCORE.get(normalize_technical_status(status), 20)`. -/
def technicalStatusScore (status : String) : ℕ :=
  match lower (strip status) with
  | "operational" | "ok" | "healthy" => 0
  | "warning" => 30
  | "degraded" => 40
  | "partial_outage" => 65
  | "major_outage" | "down" | "critical" | "firing" => 100
  | _ => 20

/-- `component_service_effective_impact_score(component, impact_map=impact_map)`. -/
def componentBaseScore (x : ImpactContext) (k : BusinessServiceComponent) : ℕ :=
  if (x.get k.service).isSome then
    let i := computeServiceImpact scoring x 5 k.service []
    clampImpactScore (if i.effectiveImpactScore ≠ 0 then i.effectiveImpactScore
      else technicalStatusScore i.effectiveStatus.text)
  else clampImpactScore (technicalStatusScore
    (((c.service (some k.service)).map (·.status)).getD "unknown"))

/-- `component_impact_score(component, impact_map=impact_map)`. -/
def componentImpactScore (x : ImpactContext) (k : BusinessServiceComponent) : ℕ :=
  scoring.weighted k.criticality (clampImpactScore k.impactWeight.toNat)
    (componentBaseScore scoring c x k)

/-- `list_business_service_components(business_service_id, active_only=True)`. -/
def businessServiceComponents (id : Id) : List BusinessServiceComponent :=
  (c.components.filter fun k => k.businessService = id ∧ activeComponent c k = true).insertionSort
    fun a b => a.position < b.position ∨ (a.position = b.position ∧ a.id ≤ b.id)

/-- The status that `calculate_business_service_status(business_service)` returns. -/
def calculateBusinessServiceStatus (id : Id) : String :=
  match businessServiceComponents c id with
  | [] => ServiceStatus.unknown.text
  | components =>
    let x := impactContext c (components.map (·.service))
    (statusFromImpactScore
      (scoring.combined (components.map (componentImpactScore scoring c x))) false).text

/-! ## The refresh -/

/-- `is_business_service_manual_status_active(business_service, now)`. -/
def BusinessService.manualActive (now : Instant) (b : BusinessService) : Bool :=
  b.manualStatus.any (· ≠ "") && b.manualStatusUntil.all (now < ·)

/-- `clear_expired_business_service_manual_status(business_service, now)`. -/
def BusinessService.clearExpired (now : Instant) (b : BusinessService) : BusinessService :=
  if b.manualStatus.any (· ≠ "") = true ∧ b.manualStatusUntil.any (· ≤ now) = true then
    { b with manualStatus := none, manualStatusUntil := none }
  else b

/-- `apply_business_service_status(business_service)`. -/
def applyBusinessServiceStatus (now : Instant) (b : BusinessService) : BusinessService :=
  let b := b.clearExpired now
  { b with status := if b.manualActive now then b.manualStatus.getD ""
      else calculateBusinessServiceStatus scoring c b.id }

/-- The business services that `refresh_business_services_for_technical_service(service_id)`
applies, each once. -/
def refreshedBusinessServices (serviceId : Id) : List Id :=
  (((impactedServiceIds c serviceId).flatMap (componentsForService c)).filterMap fun k =>
    (c.businessService k.businessService).bind fun b => if b.isLive then some b.id else none).dedup

/-- `refresh_business_services_for_technical_service(service_id)`. -/
def refreshBusinessServices (now : Instant) (serviceId : Id) : List BusinessService :=
  c.businessServices.map fun b =>
    if b.id ∈ refreshedBusinessServices c serviceId then applyBusinessServiceStatus scoring c now b
    else b

end Calculation

/-! ## A change of one technical service -/

/-- The own status of a technical service and its open groups are others. -/
structure ChangedAt (id : Id) (c c' : Catalog) : Prop where
  services : ∃ status : String,
    c'.services = c.services.map fun s => if s.id = id then { s with status } else s
  groups : ∀ other ≠ id, openGroupsOf c.groups other = openGroupsOf c'.groups other
  teams : c'.teams = c.teams
  dependencies : c'.dependencies = c.dependencies
  components : c'.components = c.components
  businessServices : c'.businessServices = c.businessServices

section Change

variable {scoring : Scoring} {c c' : Catalog} {id : Id}

/-- A change of statuses keeps what a filter by other columns finds. -/
theorem filter_restatus (p : Service → Bool) (status : String)
    (hp : ∀ s : Service, p { s with status } = p s) (services : List Service) :
    (services.map fun s => if s.id = id then { s with status } else s).filter p =
      (services.filter p).map fun s => if s.id = id then { s with status } else s := by
  rw [List.filter_map]
  congr 1
  refine List.filter_congr fun s _ => ?_
  show p (if s.id = id then { s with status } else s) = p s
  split_ifs
  · exact hp s
  · rfl

/-- Writing the status of one service leaves the others to be found. -/
theorem find_restatus {other : Id} (hne : other ≠ id) (status : String) (services : List Service) :
    (services.map fun s => if s.id = id then { s with status } else s).find?
        (fun s => s.id = other) = services.find? fun s => s.id = other := by
  induction services with
  | nil => rfl
  | cons s services ih =>
    rw [List.map_cons, List.find?_cons, List.find?_cons, ih]
    by_cases hs : s.id = id
    · have hother : ¬s.id = other := fun h => hne (h.symm.trans hs)
      rw [if_pos hs]
      simp [hother]
    · rw [if_neg hs]

theorem any_restatus (p : Service → Bool) (status : String)
    (hp : ∀ s : Service, p { s with status } = p s) (services : List Service) :
    (services.map fun s => if s.id = id then { s with status } else s).any p = services.any p := by
  rw [List.any_map]
  congr 1
  funext s
  show p (if s.id = id then { s with status } else s) = p s
  split_ifs
  · exact hp s
  · rfl

namespace ChangedAt

/-- The services that are loaded differ in the status of that one. -/
theorem loadServices_eq (h : ChangedAt id c c') (serviceIds : List Id) :
    ∃ status : String, loadServices c' serviceIds =
      (loadServices c serviceIds).map fun s => if s.id = id then { s with status } else s := by
  obtain ⟨status, hservices⟩ := h.services
  refine ⟨status, ?_⟩
  unfold loadServices
  rw [hservices, h.teams]
  dsimp only
  rw [filter_restatus (fun s => decide (s.id ∈ serviceIds ∧ s.deleted = false)) status
    fun _ => rfl]
  -- teams and groups are looked up without a status
  have hgroups : ∀ services : List Service,
      (services.map fun s => if s.id = id then { s with status } else s).filterMap (fun s =>
        (c.teams.find? fun t => t.id = s.team).bind (·.group)) =
      services.filterMap fun s => (c.teams.find? fun t => t.id = s.team).bind (·.group) := by
    intro services
    rw [List.filterMap_map]
    congr 1
    funext s
    show ((c.teams.find? fun t => t.id = (if s.id = id then { s with status } else s).team).bind
      (·.group)) = _
    split_ifs <;> rfl
  rw [hgroups]
  split_ifs
  · rfl
  · exact filter_restatus _ status (fun _ => rfl) c.services

/-- The dependencies that are loaded are the same. -/
theorem loadUpstream_eq (h : ChangedAt id c c') (serviceIds : List Id) :
    loadUpstream c' (loadServices c' serviceIds) = loadUpstream c (loadServices c serviceIds) := by
  obtain ⟨status, hservices⟩ := h.loadServices_eq serviceIds
  unfold loadUpstream
  rw [h.dependencies, hservices]
  congr 1
  refine List.filter_congr fun d _ => ?_
  rw [any_restatus (fun s => decide (s.id = d.service)) status fun _ => rfl,
    any_restatus (fun s => decide (s.id = d.dependsOnService)) status fun _ => rfl]

theorem sameBut (h : ChangedAt id c c') (serviceIds : List Id) :
    SameBut id (impactContext c serviceIds) (impactContext c' serviceIds) where
  get := by
    intro other hne
    obtain ⟨status, hservices⟩ := h.loadServices_eq serviceIds
    show (loadServices c serviceIds).find? _ = (loadServices c' serviceIds).find? _
    rw [hservices, find_restatus hne]
  groups := h.groups
  upstream := (h.loadUpstream_eq serviceIds).symm

/-- Whether a component is active is the same, -/
theorem activeComponent_eq (h : ChangedAt id c c') (k : BusinessServiceComponent) :
    activeComponent c' k = activeComponent c k := by
  obtain ⟨status, hservices⟩ := h.services
  unfold activeComponent
  rw [hservices,
    any_restatus (fun s => decide (s.id = k.service ∧ s.deleted = false)) status fun _ => rfl]

theorem components_eq (h : ChangedAt id c c') (b : Id) :
    businessServiceComponents c' b = businessServiceComponents c b := by
  unfold businessServiceComponents
  rw [h.components]
  congr 1
  exact List.filter_congr fun k _ => by rw [h.activeComponent_eq]

theorem dependedOn_iff (h : ChangedAt id c c') (x y : Id) : DependedOn c' x y ↔ DependedOn c x y := by
  unfold DependedOn
  rw [h.dependencies]

end ChangedAt

/-- A dependency that is loaded is an edge. -/
theorem loadUpstream_dependedOn {services : List Service} {d : ServiceDependency}
    (hd : d ∈ loadUpstream c services) : DependedOn c d.dependsOnService d.service := by
  unfold loadUpstream at hd
  rw [List.mem_insertionSort] at hd
  obtain ⟨hmem, hguard⟩ := List.mem_filter.mp hd
  obtain ⟨hdeleted, henabled, -⟩ := of_decide_eq_true hguard
  exact ⟨d, hmem, hdeleted, henabled, rfl, rfl⟩

/-- **What is not affected keeps its calculated status.** -/
theorem calculate_congr (h : ChangedAt id c c') {b : Id}
    (hfar : ∀ k ∈ businessServiceComponents c b, ¬Within (DependedOn c) 5 id k.service) :
    calculateBusinessServiceStatus scoring c' b = calculateBusinessServiceStatus scoring c b := by
  unfold calculateBusinessServiceStatus
  rw [h.components_eq]
  generalize businessServiceComponents c b = components at hfar
  -- without components nothing is calculated
  cases components with
  | nil => rfl
  | cons k₀ rest =>
    dsimp only
    -- each component is scored as before, since the service that changed is not near it
    have hscores : ∀ k ∈ k₀ :: rest,
        componentImpactScore scoring c' (impactContext c' ((k₀ :: rest).map (·.service))) k =
          componentImpactScore scoring c (impactContext c ((k₀ :: rest).map (·.service))) k := by
      intro k hk
      have hsame := h.sameBut ((k₀ :: rest).map (·.service))
      have hne : k.service ≠ id := by
        intro heq
        exact hfar k hk (heq ▸ Within.refl 5 k.service)
      obtain ⟨status, hservices⟩ := h.services
      have hservice : c'.service (some k.service) = c.service (some k.service) := by
        show c'.services.find? _ = c.services.find? _
        rw [hservices, find_restatus hne]
      have hcompute := @computeServiceImpact_congr c scoring _ _ id hsame
        (fun d hd => loadUpstream_dependedOn hd) 5 k.service [] (hfar k hk)
      unfold componentImpactScore componentBaseScore
      rw [← hsame.get k.service hne, hservice, hcompute]
    rw [List.map_congr_left hscores]

/-! ## Freshness -/

theorem clearExpired_id (now : Instant) (b : BusinessService) : (b.clearExpired now).id = b.id := by
  unfold BusinessService.clearExpired
  split_ifs <;> rfl

theorem apply_id (now : Instant) (b : BusinessService) :
    (applyBusinessServiceStatus scoring c now b).id = b.id := clearExpired_id now b

/-- An override that has run out stays so. -/
theorem clearExpired_manualActive {now : Instant} {b : BusinessService}
    (h : b.manualActive now = false) : (b.clearExpired now).manualActive now = false := by
  unfold BusinessService.clearExpired
  split_ifs
  · rfl
  · exact h

/-- The business service is refreshed where one of its components is affected. -/
theorem mem_refreshed {b : BusinessService} (hb : b ∈ c.businessServices) (hlive : b.isLive = true)
    {k : BusinessServiceComponent} (hk : k ∈ businessServiceComponents c b.id)
    (hnear : Within (DependedOn c) 5 id k.service) : b.id ∈ refreshedBusinessServices c id := by
  unfold businessServiceComponents at hk
  rw [List.mem_insertionSort] at hk
  obtain ⟨hmem, hguard⟩ := List.mem_filter.mp hk
  obtain ⟨hservice, hactive⟩ := of_decide_eq_true hguard
  -- the business service is found by its id
  have hfound : c.businessService k.businessService = some b := by
    rw [hservice]
    unfold Catalog.businessService
    cases hfind : c.businessServices.find? fun b' => b'.id = b.id with
    | none =>
      have := List.find?_eq_none.mp hfind b hb
      simp at this
    | some b' =>
      have hid : b'.id = b.id := by simpa using List.find?_some hfind
      rw [Table.eq_of_key_eq c.businessServices_key (List.mem_of_find?_eq_some hfind) hb hid]
  unfold refreshedBusinessServices
  rw [List.mem_dedup, List.mem_filterMap]
  refine ⟨k, List.mem_flatMap.mpr ⟨k.service, (mem_impactedServiceIds c _ _).mpr hnear,
    List.mem_filter.mpr ⟨hmem, decide_eq_true ⟨rfl, hactive⟩⟩⟩, ?_⟩
  rw [hfound]
  simp [hlive]

/-- **The stored statuses are fresh again** after the refresh for the service that changed. -/
theorem statuses_fresh (scoring : Scoring) (c c' : Catalog) (id : Id) (now : Instant)
    (h : ChangedAt id c c')
    (hmanual : ∀ b ∈ c.businessServices, b.manualActive now = false)
    (hcurrent : ∀ b ∈ c.businessServices, b.isLive = true →
      b.status = calculateBusinessServiceStatus scoring c b.id) :
    ∀ b ∈ refreshBusinessServices scoring c' now id, b.isLive = true →
      b.status = calculateBusinessServiceStatus scoring c' b.id := by
  intro b hb hlive
  unfold refreshBusinessServices at hb
  rw [h.businessServices] at hb
  obtain ⟨b₀, hb₀, rfl⟩ := List.mem_map.mp hb
  -- a status is written, or none of what it is made of has changed
  split_ifs at hlive ⊢ with hrefreshed
  · -- its status was just calculated
    have hid := @apply_id scoring c' now b₀
    rw [hid]
    unfold applyBusinessServiceStatus
    dsimp only
    rw [if_neg (by rw [clearExpired_manualActive (hmanual b₀ hb₀)]; exact Bool.false_ne_true),
      clearExpired_id]
  · -- none of its components is affected
    rw [hcurrent b₀ hb₀ hlive]
    refine (calculate_congr h ?_).symm
    intro k hk hnear
    refine hrefreshed (mem_refreshed (k := k) ?_ hlive ?_ ?_)
    · rwa [h.businessServices]
    · rwa [h.components_eq]
    · obtain ⟨n, hn, hops⟩ := hnear
      refine ⟨n, hn, ?_⟩
      have hrelation : DependedOn c' = DependedOn c := by
        funext x y
        exact propext (h.dependedOn_iff x y)
      rwa [hrelation]

end Change

/-! ## A status that was set by hand -/

/-- Scores that are not weighted. -/
def plainScoring : Scoring where
  propagated _ _ score := score
  weighted _ _ score := score
  combined scores := scores.sum

/-- A payment service with one component, a gateway that depends on a storage, whose own status
and groups are given. -/
def payments (manual : Option String) (status : String) (groups : List AlertGroup) : Catalog where
  teams := [⟨1, some 1, true, false⟩]
  services := [⟨1, 1, "storage", "Storage", "production", status, true, false⟩,
    ⟨2, 1, "gateway", "Gateway", "production", "operational", true, false⟩]
  dependencies := [⟨1, 2, 1, "hard", "critical", true, 0, true, false⟩]
  groups := groups
  businessServices :=
    [⟨1, "payments", "Payments", none, "operational", manual, none, true, false⟩]
  components := [⟨1, 1, 2, "required", 100, 0, true, false⟩]
  businessServices_key := List.nodup_singleton _

/-- An open group of the storage. -/
def storageDown : AlertGroup where
  id := 1
  team := some 1
  service := some 1
  title := "Disk full"
  severity := some "critical"
  priority := ⟨none, "", 3, false⟩
  status := .firing
  mergedInto := none
  lastSeenAt := 0

/-- The sample changes one service. -/
theorem payments_changed (manual : Option String) (status status' : String)
    {groups : List AlertGroup} (hgroups : ∀ g ∈ groups, g.service = some 1) :
    ChangedAt 1 (payments manual status []) (payments manual status' groups) where
  services := ⟨status', rfl⟩
  groups other hother := by
    refine (List.filter_eq_nil_iff.mpr fun g hg hopen => hother ?_).symm
    exact Option.some.inj ((of_decide_eq_true hopen).1.symm.trans (hgroups g hg))
  teams := rfl
  dependencies := rfl
  components := rfl
  businessServices := rfl

/-- A group opens on the storage, and the refresh finds the status of the payments over the
gateway. -/
theorem statuses_fresh_sample :
    calculateBusinessServiceStatus plainScoring (payments none "operational" []) 1 ≠
        calculateBusinessServiceStatus plainScoring (payments none "degraded" [storageDown]) 1 ∧
      ∀ b ∈ refreshBusinessServices plainScoring (payments none "degraded" [storageDown]) 0 1,
        b.isLive = true → b.status =
          calculateBusinessServiceStatus plainScoring (payments none "degraded" [storageDown]) b.id := by
  refine ⟨by decide +kernel, statuses_fresh plainScoring (payments none "operational" []) _ 1 0
    (payments_changed none _ _ (by simp [storageDown])) ?_ ?_⟩
  · intro b hb
    obtain rfl := List.mem_singleton.mp hb
    rfl
  · intro b hb _
    obtain rfl := List.mem_singleton.mp hb
    decide +kernel

/-- A status without an end that was set by hand stays. -/
theorem manual_status_stays :
    ChangedAt 1 (payments (some "operational") "operational" [])
        (payments (some "operational") "degraded" [storageDown]) ∧
      (∀ b ∈ (payments (some "operational") "operational" []).businessServices,
        b.manualStatusUntil = none ∧ b.status = calculateBusinessServiceStatus plainScoring
          (payments (some "operational") "operational" []) b.id) ∧
      ¬∀ b ∈ refreshBusinessServices plainScoring (payments (some "operational") "degraded" [storageDown])
          0 1,
        b.isLive = true → b.status = calculateBusinessServiceStatus plainScoring
          (payments (some "operational") "degraded" [storageDown]) b.id := by
  refine ⟨payments_changed _ _ _ (by simp [storageDown]), ?_, ?_⟩
  · intro b hb
    obtain rfl := List.mem_singleton.mp hb
    exact ⟨rfl, by decide +kernel⟩
  · intro h
    have hb := h _ (List.mem_singleton_self _) (by decide +kernel)
    exact absurd hb (by decide +kernel)

end IncidentRelay.Services
