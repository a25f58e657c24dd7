import IncidentRelay.Alerts.Store

/-!
# Services and their dependencies

The rows of the technical and the business services, of the dependencies and components
between them and of the groups of alerts that the correlation of groups and the impact on
business services read.
-/

namespace IncidentRelay.Services

structure Service where
  id : Id
  team : Id
  slug : String
  name : String
  environment : String
  status : String
  enabled : Bool
  deleted : Bool
  deriving DecidableEq

/-- The service needs the service `dependsOnService`. -/
structure ServiceDependency where
  id : Id
  service : Id
  dependsOnService : Id
  dependencyType : String
  criticality : String
  correlationEnabled : Bool
  propagationDelaySeconds : Int
  enabled : Bool
  deleted : Bool
  deriving DecidableEq

/-- The priority of a group: the row that it points to with its slug, and its own columns. -/
structure GroupPriority where
  priority : Option (Id × String)
  slug : String
  order : Int
  setManually : Bool
  deriving DecidableEq

structure AlertGroup where
  id : ℕ
  team : Option Id
  service : Option Id
  title : String
  severity : Option String
  priority : GroupPriority
  status : Alerts.Status
  mergedInto : Option ℕ
  lastSeenAt : Instant
  deriving DecidableEq

/-- `ACTIVE_ALERT_GROUP_STATUSES`. -/
def AlertGroup.isOpen (g : AlertGroup) : Bool := g.status = .firing ∨ g.status = .acknowledged

structure BusinessService where
  id : Id
  slug : String
  name : String
  publicName : Option String
  status : String
  manualStatus : Option String
  manualStatusUntil : Option Instant
  enabled : Bool
  deleted : Bool
  deriving DecidableEq

/-- A technical service that a business service is made of. -/
structure BusinessServiceComponent where
  id : Id
  businessService : Id
  service : Id
  criticality : String
  impactWeight : Int
  position : Int
  enabled : Bool
  deleted : Bool
  deriving DecidableEq

/-- The tables, each in the order in which a query without an order returns its rows. -/
structure Catalog where
  teams : List Team
  services : List Service
  dependencies : List ServiceDependency
  groups : List AlertGroup
  businessServices : List BusinessService
  components : List BusinessServiceComponent
  businessServices_key : (businessServices.map (·.id)).Nodup

namespace Catalog

variable (c : Catalog)

/-- The service that a foreign key points to. -/
def service (id : Option Id) : Option Service :=
  id.bind fun id => c.services.find? fun s => s.id = id

def businessService (id : Id) : Option BusinessService := c.businessServices.find? fun b => b.id = id

def group (id : ℕ) : Option AlertGroup := c.groups.find? fun g => g.id = id

def openGroups : List AlertGroup := c.groups.filter (·.isOpen)

end Catalog

end IncidentRelay.Services
