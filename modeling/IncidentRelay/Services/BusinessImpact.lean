import IncidentRelay.Lib.KeyTable
import IncidentRelay.Lib.Run
import IncidentRelay.Services.Reach
import Mathlib.Data.List.Sort

/-!
# Impacts on business services

`refresh_business_impacts_for_group` stores an active impact for each business service that
the service of its group reaches through components and dependencies, and deactivates the
impacts of the group only where it reaches none. So its impacts are exact, along every run,
where none of them had become stale (`impacts_exact_iff`).
-/

namespace IncidentRelay.Services

open Json

/-! ## The records -/

inductive ImpactRelation where
  | componentAlert
  | dependencyUpstreamAlert
  deriving DecidableEq

/-- The columns of the unique index. -/
structure ImpactKey where
  businessService : Id
  group : ℕ
  relation : ImpactRelation
  deriving DecidableEq

/-- What `calculate_business_service_status` returns. -/
structure StatusResult where
  status : String
  impactScore : Int
  componentSnapshot : List Json

/-- The columns that an upsert overwrites. -/
structure ImpactData where
  service : Id
  result : StatusResult
  reason : String
  lastSeenAt : Instant
  updatedAt : Instant

structure Impact where
  id : ℕ
  key : ImpactKey
  data : ImpactData
  active : Bool
  firstSeenAt : Instant

structure ImpactEvent where
  group : ℕ
  eventType : String
  message : String

structure ImpactRecords where
  impacts : KeyTable Impact.id Impact.key
  events : List ImpactEvent

section Refresh

variable (c : Catalog)

/-- `_business_service_label(business_service)`. -/
def businessServiceLabel (id : Id) : String :=
  match c.businessService id with
  | none => "Business service #" ++ toString (id : ℕ)
  | some b =>
    if b.publicName.getD "" ≠ "" then b.publicName.getD "" else if b.name ≠ "" then b.name
    else if b.slug ≠ "" then b.slug else "Business service #" ++ toString (id : ℕ)

/-- `_service_label(service)`. -/
def serviceLabel (id : Id) : String :=
  match c.service (some id) with
  | none => "-"
  | some s => if s.name ≠ "" then s.name else if s.slug ≠ "" then s.slug
    else "Service #" ++ toString (id : ℕ)

/-- `_impact_message(impact, action)`. -/
def impactMessage (r : Impact) (action : String) : String :=
  "Business impact " ++ action ++ ": " ++ businessServiceLabel c r.key.businessService ++ " " ++
    r.data.result.status ++ ", score=" ++ toString r.data.result.impactScore ++ ", via " ++
    serviceLabel c r.data.service

/-- `_deactivate_business_impacts_for_group(group)`, with `list_active_incident_impacts`
and `deactivate_incident_impacts_for_group`. -/
def deactivateBusinessImpacts (now : Instant) (group : AlertGroup) (w : ImpactRecords) :
    ImpactRecords :=
  let guard := fun r : Impact => decide (r.key.group = group.id ∧ r.active = true)
  match w.impacts.rows.filter guard with
  | [] => w
  | rows =>
    { impacts := w.impacts.update guard
        ⟨fun r => { r with
          active := false, data := { r.data with lastSeenAt := now, updatedAt := now } },
          fun _ => rfl, fun _ => rfl⟩
      events := w.events ++ (rows.insertionSort fun a b =>
          b.data.result.impactScore ≤ a.data.result.impactScore).map fun r =>
        ⟨group.id, "business_impact_deactivated", impactMessage c r "deactivated"⟩ }

/-- The reason of an impact. -/
def impactReason (group : AlertGroup) (b : BusinessService) (serviceId : Id)
    (relation : ImpactRelation) : String :=
  let label := match relation with
    | .componentAlert => "component"
    | .dependencyUpstreamAlert => "upstream dependency"
  let name := ((c.service (some serviceId)).map (·.name)).getD ""
  "Alert group #" ++ toString group.id ++ " affects business service " ++ b.name ++ " through " ++
    label ++ " " ++ name ++ "."

/-- The event of an upsert over a row that was there. -/
def updateEvent (row found : Impact) : List ImpactEvent :=
  if found.active = false then
    [⟨row.key.group, "business_impact_detected", impactMessage c row "detected"⟩]
  else if found.data.result.status ≠ row.data.result.status ∨
      found.data.result.impactScore ≠ row.data.result.impactScore then
    [⟨row.key.group, "business_impact_updated", impactMessage c row "updated" ++ " (previous: " ++
      found.data.result.status ++ ", score=" ++ toString found.data.result.impactScore ++ ")"⟩]
  else []

/-- `_upsert_business_impact(group, business_service, service, status_result, relation)`. -/
def upsertBusinessImpact (now : Instant) (group : AlertGroup) (b : BusinessService)
    (serviceId : Id) (result : StatusResult) (relation : ImpactRelation) (w : ImpactRecords) :
    ImpactRecords :=
  let key : ImpactKey := ⟨b.id, group.id, relation⟩
  let data : ImpactData := ⟨serviceId, result, impactReason c group b serviceId relation, now, now⟩
  match hfound : w.impacts.get key with
  | none =>
    let row : Impact := ⟨w.impacts.table.next, key, data, true, now⟩
    { impacts := w.impacts.create row rfl (KeyTable.get_eq_none.mp hfound)
      events := w.events ++
        [⟨group.id, "business_impact_detected", impactMessage c row "detected"⟩] }
  | some found =>
    { impacts := w.impacts.update (fun r => r.id = found.id)
        ⟨fun r => { r with data := data, active := true }, fun _ => rfl, fun _ => rfl⟩
      events := w.events ++ updateEvent c { found with data := data, active := true } found }

/-- The relation of a reached service. -/
def relationOf (serviceId impactedId : Id) : ImpactRelation :=
  if impactedId = serviceId then .componentAlert else .dependencyUpstreamAlert

/-- The components that the loops go through, each with the relation of its service. -/
def impactedComponents (serviceId : Id) : List (BusinessServiceComponent × ImpactRelation) :=
  (impactedServiceIds c serviceId).flatMap fun impactedId =>
    (componentsForService c impactedId).map fun k => (k, relationOf serviceId impactedId)

/-- The body of the loops, with `seen`. -/
def visitComponent (calculate : BusinessService → StatusResult) (now : Instant)
    (group : AlertGroup) (state : ImpactRecords × List (Id × ImpactRelation))
    (x : BusinessServiceComponent × ImpactRelation) :
    ImpactRecords × List (Id × ImpactRelation) :=
  match c.businessService x.1.businessService with
  | none => state
  | some b =>
    if b.isLive = false ∨ (b.id, x.2) ∈ state.2 then state
    else (upsertBusinessImpact c now group b x.1.service (calculate b) x.2 state.1,
      state.2 ++ [(b.id, x.2)])

/-- `refresh_business_impacts_for_group(group)`. -/
def refreshBusinessImpacts (calculate : BusinessService → StatusResult) (now : Instant)
    (group : AlertGroup) (w : ImpactRecords) : ImpactRecords :=
  if group.isOpen = false then deactivateBusinessImpacts c now group w
  else match c.service group.service with
    | none => deactivateBusinessImpacts c now group w
    | some service =>
      let (impacted, seen) :=
        (impactedComponents c service.id).foldl (visitComponent c calculate now group) (w, [])
      if seen = [] then deactivateBusinessImpacts c now group impacted else impacted

end Refresh

/-! ## What the impacts should be -/

/-- The business service is reached: a service at most five dependencies below the one of
the group has an active component of it, and it is live. -/
def Reached (c : Catalog) (group : AlertGroup) (businessService : Id) (relation : ImpactRelation) :
    Prop :=
  ∃ service, c.service group.service = some service ∧
    ∃ y, Within (DependedOn c) 5 service.id y ∧ relation = relationOf service.id y ∧
      ∃ k ∈ c.components, k.service = y ∧ activeComponent c k = true ∧
        ∃ b, c.businessService k.businessService = some b ∧ b.id = businessService ∧
          b.isLive = true

/-- The active impacts of the group are one for each business service and relation that is
reached, and no others. -/
structure Exact (c : Catalog) (group : AlertGroup) (w : ImpactRecords) : Prop where
  present : ∀ b relation, Reached c group b relation →
    ∃! r, r ∈ w.impacts.rows ∧ r.key = ⟨b, group.id, relation⟩ ∧ r.active = true
  absent : ∀ r ∈ w.impacts.rows, r.active = true → r.key.group = group.id →
    Reached c group r.key.businessService r.key.relation

/-- No active impact of the group is stale, unless nothing is reached. -/
def Fresh (c : Catalog) (group : AlertGroup) (w : ImpactRecords) : Prop :=
  (∃ b relation, Reached c group b relation) →
    ∀ r ∈ w.impacts.rows, r.active = true → r.key.group = group.id →
      Reached c group r.key.businessService r.key.relation

/-- The active keys of a group. -/
def ImpactRecords.activeKeys (w : ImpactRecords) : Set ImpactKey :=
  {key | ∃ r ∈ w.impacts.rows, r.key = key ∧ r.active = true}

/-- The records are exact when the active keys are what is reached. -/
theorem exact_iff {c : Catalog} {group : AlertGroup} {w : ImpactRecords} :
    Exact c group w ↔
      ∀ b relation, (⟨b, group.id, relation⟩ : ImpactKey) ∈ w.activeKeys ↔
        Reached c group b relation := by
  constructor
  · intro h b relation
    constructor
    -- the record is live and its key is read off
    · rintro ⟨r, hr, hkey, hactive⟩
      have := h.absent r hr hactive (by rw [hkey])
      rwa [hkey] at this
    · intro hreached
      obtain ⟨r, ⟨hr, hkey, hactive⟩, -⟩ := h.present b relation hreached
      exact ⟨r, hr, hkey, hactive⟩
  -- from the keys: what is reached has a record, and a live record is reached
  · intro h
    refine ⟨?_, ?_⟩
    · intro b relation hreached
      obtain ⟨r, hr, hkey, hactive⟩ := (h b relation).mpr hreached
      refine ⟨r, ⟨hr, hkey, hactive⟩, ?_⟩
      rintro r' ⟨hr', hkey', -⟩
      exact KeyTable.eq_of_key hr' hr (hkey'.trans hkey.symm)
    · intro r hr hactive hgroup
      refine (h _ _).mp ⟨r, hr, ?_, hactive⟩
      rw [← hgroup]

/-! ## The loop -/

section Loop

variable {c : Catalog} {calculate : BusinessService → StatusResult} {now : Instant}
  {group : AlertGroup} {w : ImpactRecords}

/-- Recording an impact makes its key active. -/
theorem upsert_activeKeys (b : BusinessService) (serviceId : Id) (result : StatusResult)
    (relation : ImpactRelation) (w : ImpactRecords) (key : ImpactKey) :
    key ∈ (upsertBusinessImpact c now group b serviceId result relation w).activeKeys ↔
      key = ⟨b.id, group.id, relation⟩ ∨ key ∈ w.activeKeys := by
  -- the row of the key is there and active, and the others are those that were there
  have hrows : ∃ row, row.key = ⟨b.id, group.id, relation⟩ ∧ row.active = true ∧
      ∀ r, r ∈ (upsertBusinessImpact c now group b serviceId result relation w).impacts.rows ↔
        r = row ∨ (r ∈ w.impacts.rows ∧ r.key ≠ ⟨b.id, group.id, relation⟩) := by
    unfold upsertBusinessImpact
    dsimp only
    split
    · rename_i hnone
      exact ⟨_, rfl, rfl, fun r => KeyTable.mem_create rfl (KeyTable.get_eq_none.mp hnone)⟩
    · rename_i found hfound
      obtain ⟨hmem, hkey⟩ := KeyTable.get_spec hfound
      refine ⟨{ found with
        data := ⟨serviceId, result, impactReason c group b serviceId relation, now, now⟩
        active := true }, hkey, rfl, fun r => ?_⟩
      rw [← hkey]
      exact KeyTable.mem_update_one hmem
  obtain ⟨row, hkey, hactive, hrows⟩ := hrows
  constructor
  · rintro ⟨r, hr, rfl, hract⟩
    rcases (hrows r).mp hr with rfl | ⟨hr, -⟩
    · exact .inl hkey
    · exact .inr ⟨r, hr, rfl, hract⟩
  · intro h
    by_cases hsame : key = ⟨b.id, group.id, relation⟩
    · exact ⟨row, (hrows row).mpr (.inl rfl), hkey.trans hsame.symm, hactive⟩
    · obtain ⟨r, hr, rfl, hract⟩ := h.resolve_left hsame
      exact ⟨r, (hrows r).mpr (.inr ⟨hr, hsame⟩), rfl, hract⟩

/-- The component is one of a live business service. -/
def Yields (c : Catalog) (x : BusinessServiceComponent × ImpactRelation) (b : Id)
    (relation : ImpactRelation) : Prop :=
  relation = x.2 ∧ ∃ found, c.businessService x.1.businessService = some found ∧
    found.id = b ∧ found.isLive = true

/-- The loop has seen what its components yield, and has stored it. -/
structure Visited (c : Catalog) (group : AlertGroup) (w : ImpactRecords)
    (xs : List (BusinessServiceComponent × ImpactRelation))
    (state : ImpactRecords × List (Id × ImpactRelation)) : Prop where
  seen : ∀ b relation, (b, relation) ∈ state.2 ↔ ∃ x ∈ xs, Yields c x b relation
  active : ∀ key, key ∈ state.1.activeKeys ↔ key ∈ w.activeKeys ∨
    (key.group = group.id ∧ (key.businessService, key.relation) ∈ state.2)

/-- **One component more** makes the keys of its business service active. -/
theorem Visited.step {xs : List (BusinessServiceComponent × ImpactRelation)}
    {state : ImpactRecords × List (Id × ImpactRelation)} (h : Visited c group w xs state)
    (x : BusinessServiceComponent × ImpactRelation) :
    Visited c group w (xs ++ [x]) (visitComponent c calculate now group state x) := by
  -- a component that yields nothing new leaves the state
  have hskip : (∀ b relation, Yields c x b relation → (b, relation) ∈ state.2) →
      Visited c group w (xs ++ [x]) state := by
    intro hnothing
    refine ⟨fun b relation => ?_, h.active⟩
    rw [h.seen]
    constructor
    · rintro ⟨y, hy, hyields⟩
      exact ⟨y, List.mem_append_left _ hy, hyields⟩
    · rintro ⟨y, hy, hyields⟩
      rcases List.mem_append.mp hy with hy | hy
      · exact ⟨y, hy, hyields⟩
      · obtain rfl := List.mem_singleton.mp hy
        exact (h.seen b relation).mp (hnothing b relation hyields)
  unfold visitComponent
  split
  · rename_i hnone
    refine hskip ?_
    rintro b relation ⟨-, found, hfound, -⟩
    rw [hnone] at hfound
    cases hfound
  · rename_i b hb
    split_ifs with hold
    · refine hskip ?_
      rintro b' relation ⟨rfl, found, hfound, rfl, hlive⟩
      obtain rfl := Option.some.inj (hb.symm.trans hfound)
      rcases hold with hdead | hseen
      · rw [hlive] at hdead
        cases hdead
      · exact hseen
    · push Not at hold
      have hlive : b.isLive = true := by simpa using hold.1
      have hyields : ∀ b' relation, Yields c x b' relation ↔ (b', relation) = (b.id, x.2) := by
        intro b' relation
        constructor
        · rintro ⟨rfl, found, hfound, rfl, -⟩
          obtain rfl := Option.some.inj (hb.symm.trans hfound)
          rfl
        · rintro ⟨⟩
          exact ⟨rfl, b, hb, rfl, hlive⟩
      refine ⟨fun b' relation => ?_, fun key => ?_⟩
      · rw [List.mem_append, h.seen, List.mem_singleton, ← hyields]
        constructor
        · rintro (⟨y, hy, hy_yields⟩ | hx)
          · exact ⟨y, List.mem_append_left _ hy, hy_yields⟩
          · exact ⟨x, by simp, hx⟩
        · rintro ⟨y, hy, hy_yields⟩
          rcases List.mem_append.mp hy with hy | hy
          · exact .inl ⟨y, hy, hy_yields⟩
          · obtain rfl := List.mem_singleton.mp hy
            exact .inr hy_yields
      · rw [upsert_activeKeys, h.active, List.mem_append, List.mem_singleton]
        constructor
        · rintro (rfl | hkey | ⟨hgroup, hseen⟩)
          · exact .inr ⟨rfl, .inr rfl⟩
          · exact .inl hkey
          · exact .inr ⟨hgroup, .inl hseen⟩
        · rintro (hkey | ⟨hgroup, hseen | hnew⟩)
          · exact .inr (.inl hkey)
          · exact .inr (.inr ⟨hgroup, hseen⟩)
          · left
            obtain ⟨hservice, hrelation⟩ := Prod.mk.inj hnew
            rw [← hservice, ← hgroup, ← hrelation]

/-- By induction, so do all of them. -/
theorem visitAll_visited (c : Catalog) (group : AlertGroup) (calculate : BusinessService → StatusResult) (now : Instant)
    (w : ImpactRecords) (xs : List (BusinessServiceComponent × ImpactRelation)) :
    Visited c group w xs (xs.foldl (visitComponent c calculate now group) (w, [])) := by
  induction xs using List.reverseRecOn with
  | nil => exact ⟨by simp, by simp⟩
  | append_singleton xs x ih =>
    rw [List.foldl_append]
    exact ih.step x

/-- What the loops go through yields what is reached. -/
theorem yields_iff {service : Service} (hservice : c.service group.service = some service) (b : Id)
    (relation : ImpactRelation) :
    (∃ x ∈ impactedComponents c service.id, Yields c x b relation) ↔ Reached c group b relation := by
  unfold impactedComponents
  constructor
  · rintro ⟨x, hx, hrelation, found, hfound, rfl, hlive⟩
    obtain ⟨y, hy, hx⟩ := List.mem_flatMap.mp hx
    obtain ⟨k, hk, rfl⟩ := List.mem_map.mp hx
    obtain ⟨hmem, hguard⟩ := List.mem_filter.mp hk
    obtain ⟨hk_service, hk_active⟩ := of_decide_eq_true hguard
    exact ⟨service, hservice, y, (mem_impactedServiceIds c _ _).mp hy, hrelation, k, hmem,
      hk_service, hk_active, found, hfound, rfl, hlive⟩
  · rintro ⟨service', hservice', y, hy, hrelation, k, hk, hk_service, hk_active, found, hfound, rfl,
      hlive⟩
    obtain rfl := Option.some.inj (hservice.symm.trans hservice')
    refine ⟨(k, relationOf service.id y), ?_, hrelation, found, hfound, rfl, hlive⟩
    refine List.mem_flatMap.mpr ⟨y, (mem_impactedServiceIds c _ _).mpr hy, ?_⟩
    exact List.mem_map.mpr
      ⟨k, List.mem_filter.mpr ⟨hk, decide_eq_true ⟨hk_service, hk_active⟩⟩, rfl⟩

/-! ## The refresh -/

/-- Deactivating takes the keys of the group away. -/
theorem deactivate_impacts (now : Instant) (w : ImpactRecords) (key : ImpactKey) :
    key ∈ (deactivateBusinessImpacts c now group w).activeKeys ↔
      key ∈ w.activeKeys ∧ key.group ≠ group.id := by
  unfold deactivateBusinessImpacts
  dsimp only
  split
  -- no service: every record of the group goes
  · rename_i hnil
    constructor
    · rintro ⟨r, hr, rfl, hactive⟩
      refine ⟨⟨r, hr, rfl, hactive⟩, fun hgroup => ?_⟩
      exact List.filter_eq_nil_iff.mp hnil r hr (decide_eq_true ⟨hgroup, hactive⟩)
    · exact fun h => h.1
  · constructor
    · rintro ⟨r, hr, rfl, hactive⟩
      obtain ⟨r₀, hr₀, ⟨-, rfl⟩ | ⟨hguard, rfl⟩⟩ := KeyTable.mem_update.mp hr
      · cases hactive
      · exact ⟨⟨r, hr₀, rfl, hactive⟩, fun hgroup =>
          of_decide_eq_false hguard ⟨hgroup, hactive⟩⟩
    · rintro ⟨⟨r, hr, rfl, hactive⟩, hgroup⟩
      exact ⟨r, KeyTable.mem_update.mpr ⟨r, hr, .inr ⟨decide_eq_false fun h => hgroup h.1, rfl⟩⟩,
        rfl, hactive⟩

/-- The active keys of the group behind a call. -/
theorem refresh_activeKeys (hopen : group.isOpen = true) (calculate : BusinessService → StatusResult)
    (now : Instant) (w : ImpactRecords) (b : Id) (relation : ImpactRelation) :
    (⟨b, group.id, relation⟩ : ImpactKey) ∈
        (refreshBusinessImpacts c calculate now group w).activeKeys ↔
      Reached c group b relation ∨ ((∃ b relation, Reached c group b relation) ∧
        (⟨b, group.id, relation⟩ : ImpactKey) ∈ w.activeKeys) := by
  unfold refreshBusinessImpacts
  rw [if_neg (by simp [hopen])]
  split
  · -- without a service nothing is reached
    rename_i hnone
    have hno : ∀ b relation, ¬Reached c group b relation := by
      rintro b relation ⟨service, hservice, -⟩
      rw [hnone] at hservice
      cases hservice
    rw [deactivate_impacts]
    simp [hno]
  -- the loop marks what the components yield, then the rest is switched off
  · rename_i service hservice
    have hloop := visitAll_visited c group calculate now w (impactedComponents c service.id)
    have hseen := fun b relation => (hloop.seen b relation).trans (yields_iff hservice b relation)
    dsimp only
    split_ifs with hempty
    · have hno : ∀ b relation, ¬Reached c group b relation := by
        intro b relation hreached
        have := (hseen b relation).mpr hreached
        rw [hempty] at this
        cases this
      rw [deactivate_impacts]
      simp [hno]
    · have hsome : ∃ b relation, Reached c group b relation := by
        obtain ⟨⟨b, relation⟩, hmem⟩ := List.exists_mem_of_ne_nil _ hempty
        exact ⟨b, relation, (hseen b relation).mp hmem⟩
      rw [hloop.active, hseen]
      constructor
      · rintro (hold | ⟨-, hreached⟩)
        · exact .inr ⟨hsome, hold⟩
        · exact .inl hreached
      · rintro (hreached | ⟨-, hold⟩)
        · exact .inr ⟨rfl, hreached⟩
        · exact .inl hold

/-- One call leaves exact impacts where none was stale. -/
theorem refresh_exact_iff (hopen : group.isOpen = true)
    (calculate : BusinessService → StatusResult) (now : Instant) (w : ImpactRecords) :
    Exact c group (refreshBusinessImpacts c calculate now group w) ↔ Fresh c group w := by
  rw [exact_iff]
  constructor
  · intro h hsome r hr hactive hgroup
    rw [← h, refresh_activeKeys hopen]
    refine .inr ⟨hsome, r, hr, ?_, hactive⟩
    rw [← hgroup]
  · intro hfresh b relation
    rw [refresh_activeKeys hopen]
    constructor
    · rintro (hreached | ⟨hsome, r, hr, hkey, hactive⟩)
      · exact hreached
      · have := hfresh hsome r hr hactive (by rw [hkey])
        rwa [hkey] at this
    · exact .inl

end Loop

/-! ## Runs -/

structure ImpactWorld where
  catalog : Catalog
  records : ImpactRecords

/-- A change of components, dependencies, services and groups, or a call, with the statuses
that it calculates. -/
inductive ImpactStep where
  | change (catalog : Catalog)
  | refresh (now : Instant) (group : AlertGroup) (calculate : BusinessService → StatusResult)

def ImpactStep.apply (w : ImpactWorld) : ImpactStep → ImpactWorld
  | .change catalog => { w with catalog }
  | .refresh now group calculate =>
    { w with records := refreshBusinessImpacts w.catalog calculate now group w.records }

/-- A call for an open group leaves exact impacts. -/
def ExactAfter (w : ImpactWorld) (step : ImpactStep) : Prop :=
  match step with
  | .change _ => True
  | .refresh _ group _ => group.isOpen = true → Exact w.catalog group (step.apply w).records

/-- A call for an open group finds no stale impact beside one that is reached. -/
def FreshBefore (w : ImpactWorld) : ImpactStep → Prop
  | .change _ => True
  | .refresh _ group _ => group.isOpen = true → Fresh w.catalog group w.records

/-- **The impacts are exact** after each call of a run exactly where no call finds a stale
one beside one that is reached. -/
theorem impacts_exact_iff (w : ImpactWorld) (steps : List ImpactStep) :
    Along ImpactStep.apply ExactAfter w steps ↔ Along ImpactStep.apply FreshBefore w steps := by
  refine along_iff (I := fun _ => True) ?_ (fun _ _ _ _ => trivial) trivial steps
  rintro w (catalog | ⟨now, group, calculate⟩) -
  · exact Iff.rfl
  · exact forall_congr' fun hopen => refresh_exact_iff hopen calculate now w.records

/-! ## A removed component -/

def shopService : BusinessService := ⟨1, "shop", "Shop", none, "unknown", none, none, true, false⟩

def adminService : BusinessService :=
  ⟨2, "admin", "Administration", none, "unknown", none, none, true, false⟩

def apiService : Service := ⟨1, 1, "api", "API", "production", "operational", true, false⟩

def apiAlerts : AlertGroup :=
  ⟨1, some 1, some 1, "API is down", some "critical", ⟨none, "p3", 3, false⟩, .firing, none, 0⟩

/-- The API is a component of the shop, and of the administration where it is enabled. -/
def apiCatalog (inAdmin : Bool) : Catalog where
  teams := [⟨1, some 1, true, false⟩]
  services := [apiService]
  dependencies := []
  groups := [apiAlerts]
  businessServices := [shopService, adminService]
  components := [⟨1, 1, 1, "required", 100, 0, true, false⟩,
    ⟨2, 2, 1, "required", 100, 0, inAdmin, false⟩]
  businessServices_key := by decide

def downResult : StatusResult := ⟨"major_outage", 100, []⟩

/-- The component of the administration is disabled between two calls. -/
def disabledBetween : List ImpactStep :=
  [.refresh 0 apiAlerts fun _ => downResult, .change (apiCatalog false),
    .refresh 1 apiAlerts fun _ => downResult]

/-- A component of the API reaches its business service. -/
theorem api_reaches {inAdmin : Bool} {k : BusinessServiceComponent} {b : BusinessService}
    (hk : k ∈ (apiCatalog inAdmin).components) (hservice : k.service = 1)
    (hactive : activeComponent (apiCatalog inAdmin) k = true)
    (hb : (apiCatalog inAdmin).businessService k.businessService = some b)
    (hlive : b.isLive = true) : Reached (apiCatalog inAdmin) apiAlerts b.id .componentAlert :=
  ⟨apiService, rfl, 1, Within.refl 5 1, rfl, k, hk, hservice, hactive, b, hb, rfl, hlive⟩

/-- Its impact stays active. -/
theorem stale_impact :
    ¬Along ImpactStep.apply ExactAfter ⟨apiCatalog true, ⟨KeyTable.empty, []⟩⟩ disabledBetween := by
  rintro ⟨-, -, hexact, -⟩
  have hopen : apiAlerts.isOpen = true := by decide
  have hlast : Exact (apiCatalog false) apiAlerts (refreshBusinessImpacts (apiCatalog false)
      (fun _ => downResult) 1 apiAlerts (refreshBusinessImpacts (apiCatalog true)
        (fun _ => downResult) 0 apiAlerts ⟨KeyTable.empty, []⟩)) := hexact hopen
  have hfresh := (refresh_exact_iff hopen _ _ _).mp hlast
  -- the first call has stored the impact on the administration
  have hadmin : Reached (apiCatalog true) apiAlerts adminService.id .componentAlert :=
    api_reaches (List.mem_cons_of_mem _ List.mem_cons_self) rfl (by decide) rfl (by decide)
  have hstored := (refresh_activeKeys hopen (fun _ => downResult) 0
    ⟨KeyTable.empty, []⟩ adminService.id .componentAlert).mpr (.inl hadmin)
  obtain ⟨r, hr, hkey, hactive⟩ := hstored
  -- the second call still reaches the shop, and no longer the administration
  have hshop : Reached (apiCatalog false) apiAlerts shopService.id .componentAlert :=
    api_reaches List.mem_cons_self rfl (by decide) rfl (by decide)
  have hreached := hfresh ⟨_, _, hshop⟩ r hr hactive (by rw [hkey])
  rw [hkey] at hreached
  obtain ⟨-, -, -, -, -, k, hk, -, hk_active, b, hb, hid, -⟩ := hreached
  rcases List.mem_pair.mp hk with rfl | rfl
  · cases hb
    cases hid
  · exact absurd hk_active (by decide)

end IncidentRelay.Services
