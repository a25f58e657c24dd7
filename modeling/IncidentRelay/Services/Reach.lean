import IncidentRelay.Lib.Bfs
import IncidentRelay.Services.Catalog

/-!
# What a technical service reaches

The services that a service affects through dependencies, at most five of them one after
the other (`mem_impactedServiceIds`), and the business services that they are components of.
-/

namespace IncidentRelay.Services

section Catalog

variable (c : Catalog)

/-- `y` depends on `x`. -/
def DependedOn (x y : Id) : Prop :=
  ∃ d ∈ c.dependencies, d.deleted = false ∧ d.enabled = true ∧ d.dependsOnService = x ∧ d.service = y

/-- The services that depend on one of a frontier. -/
def downstream (frontier : List Id) : List Id :=
  (c.dependencies.filter fun d =>
    d.deleted = false ∧ d.enabled = true ∧ d.dependsOnService ∈ frontier).map (·.service)

/-- `impacted_service_ids_for_technical_service(service_id)`, in the order of discovery. -/
def impactedServiceIds (serviceId : Id) : List Id :=
  search (downstream c) 5 [serviceId] [serviceId]

/-- One step downstream is one edge. -/
theorem mem_downstream (frontier : List Id) (y : Id) :
    y ∈ downstream c frontier ↔ ∃ x ∈ frontier, DependedOn c x y := by
  unfold downstream DependedOn
  rw [List.mem_map]
  constructor
  · rintro ⟨d, hd, rfl⟩
    obtain ⟨hmem, hguard⟩ := List.mem_filter.mp hd
    obtain ⟨hdeleted, henabled, hx⟩ := of_decide_eq_true hguard
    exact ⟨d.dependsOnService, hx, d, hmem, hdeleted, henabled, rfl, rfl⟩
  · rintro ⟨x, hx, d, hmem, hdeleted, henabled, rfl, rfl⟩
    exact ⟨d, List.mem_filter.mpr ⟨hmem, decide_eq_true ⟨hdeleted, henabled, hx⟩⟩, rfl⟩

/-- **The services impacted** are those within five hops. -/
theorem mem_impactedServiceIds (x y : Id) :
    y ∈ impactedServiceIds c x ↔ Within (DependedOn c) 5 x y :=
  mem_search (mem_downstream c) 5 x y

/-- The conditions of `list_components_for_service` and of
`list_business_service_components`, for active components. -/
def activeComponent (k : BusinessServiceComponent) : Bool :=
  k.deleted = false ∧ k.enabled = true ∧
    c.services.any (fun s => s.id = k.service ∧ s.deleted = false) = true

/-- `list_components_for_service(service_id)`. -/
def componentsForService (serviceId : Id) : List BusinessServiceComponent :=
  c.components.filter fun k => k.service = serviceId ∧ activeComponent c k = true

/-- The business service can be impacted. -/
def BusinessService.isLive (b : BusinessService) : Bool := b.enabled = true ∧ b.deleted = false

end Catalog

end IncidentRelay.Services
