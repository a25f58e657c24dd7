import IncidentRelay.References.Requests

/-!
# Routes and services refer to their own team

A route or a service refers to rows of its own team when it is written, and no request but
one brings that to an end later: moving a service to another team leaves the routes of the
team it comes from behind (`references_kept_iff`).
-/

namespace IncidentRelay.References

/-! ## The invariant -/

section Invariant

variable (owners : Owners)

/-- A reference to a row of the team. -/
def OwnedBy (kind : Kind) (team : Id) (ref : Option Id) : Prop :=
  ∀ id ∈ ref, owners kind id = team

/-- The route refers to rows of its team, and to a service that is not deleted. -/
structure RouteRefs (services : IdTable Service (·.id)) (r : RouteData) : Prop where
  service : ∀ id ∈ r.service, ∃ svc ∈ services.rows,
    svc.id = (id : ℕ) ∧ svc.team = r.team ∧ svc.deleted = false
  rotation : OwnedBy owners .rotation r.team r.rotation
  escalationPolicy : OwnedBy owners .escalationPolicy r.team r.escalationPolicy

/-- The service has its defaults in its team. -/
structure ServiceRefs (svc : ServiceData) : Prop where
  rotation : OwnedBy owners .rotation svc.team svc.defaultRotation
  escalationPolicy : OwnedBy owners .escalationPolicy svc.team svc.defaultEscalationPolicy
  notificationPolicy : OwnedBy owners .notificationPolicy svc.team svc.notificationPolicy
  priorityPolicy : OwnedBy owners .priorityPolicy svc.team svc.priorityPolicy

structure Integrity (s : Store) : Prop where
  routes : ∀ r ∈ s.routes.rows, r.deleted = false → RouteRefs owners s.services r.toRouteData
  services : ∀ svc ∈ s.services.rows, svc.deleted = false → ServiceRefs owners svc.toServiceData

/-- No live route refers to the service. -/
def Unreferenced (s : Store) (id : ℕ) : Prop :=
  ∀ r ∈ s.routes.rows, r.deleted = false → ∀ ref ∈ r.service, (ref : ℕ) ≠ id

/-- A service that is moved to another team is not referred to. -/
def MovesUnreferenced (s : Store) (l : Label) : Prop :=
  match l with
  | .updateService _ id data =>
    ∀ t, handle owners s l = .ok t →
      ∀ svc ∈ s.services.rows, svc.id = id → svc.team ≠ data.team → Unreferenced s id
  | _ => True

end Invariant

variable {owners : Owners}

theorem integrity_empty (catalog : Kind → Id → Option Flags) :
    Integrity owners ⟨catalog, .empty, .empty⟩ where
  routes _ hr := absurd hr List.not_mem_nil
  services _ hsvc := absurd hsvc List.not_mem_nil

/-! ## What the checks say -/

section Checks

variable {s : Store} {c : Caller}

/-- A row that passes is there, is not deleted and belongs to the team. -/
theorem validateOwned_eq_ok {texts : CheckTexts} {lookup : Id → Option OwnedRow} {team : Id}
    {ref : Option Id} {u : Unit} (h : validateOwned texts lookup team ref = .ok u) :
    ∀ id ∈ ref, ∃ row, lookup id = some row ∧ row.deleted = false ∧ row.team = team := by
  rintro id rfl
  unfold validateOwned at h
  dsimp only at h
  split at h
  · cases h
  · next row hrow =>
    split_ifs at h with hdeleted hteam
    exact ⟨row, hrow, by simpa using hdeleted, by simpa using hteam⟩

/-- What passes the check is the team's own. -/
theorem ownedBy_of_validateOwned {kind : Kind} {texts : CheckTexts} {team : Id} {ref : Option Id}
    {u : Unit} (h : validateOwned texts (s.owned owners kind) team ref = .ok u) :
    OwnedBy owners kind team ref := by
  intro id hid
  obtain ⟨row, hrow, -, hteam⟩ := validateOwned_eq_ok h id hid
  unfold Store.owned at hrow
  obtain ⟨flags, -, rfl⟩ := Option.map_eq_some_iff.mp hrow
  exact hteam

/-- The check for a route includes it. -/
theorem validateForRoute_eq_ok {texts : CheckTexts} {lookup : Id → Option OwnedRow} {team : Id}
    {ref : Option Id} {u : Unit} (h : validateForRoute c texts lookup team ref = .ok u) :
    validateOwned texts lookup team ref = .ok () := by
  obtain ⟨⟨⟩, hvalid, -⟩ := bind_eq_ok.mp h
  exact hvalid

/-- **A service that is accepted** refers to what its team owns. -/
theorem serviceRefs_of_validate {data : ServiceData} {u : Unit}
    (h : validateServicePayload owners s data = .ok u) : ServiceRefs owners data := by
  obtain ⟨_, hrotation, h⟩ := bind_eq_ok.mp h
  obtain ⟨_, hescalation, h⟩ := bind_eq_ok.mp h
  obtain ⟨_, hnotification, hpriority⟩ := bind_eq_ok.mp h
  exact ⟨ownedBy_of_validateOwned hrotation, ownedBy_of_validateOwned hescalation,
    ownedBy_of_validateOwned hnotification, ownedBy_of_validateOwned hpriority⟩

/-- **A route that is accepted** likewise, its service included. -/
theorem routeRefs_of_validate {data : RouteData} {u : Unit}
    (h : validateRoutePayload owners s c data = .ok u) : RouteRefs owners s.services data := by
  obtain ⟨_, -, h⟩ := bind_eq_ok.mp h
  obtain ⟨_, hrotation, h⟩ := bind_eq_ok.mp h
  obtain ⟨_, hescalation, h⟩ := bind_eq_ok.mp h
  obtain ⟨_, hservice, -⟩ := bind_eq_ok.mp h
  refine ⟨?_, ownedBy_of_validateOwned (validateForRoute_eq_ok hrotation),
    ownedBy_of_validateOwned (validateForRoute_eq_ok hescalation)⟩
  intro id hid
  obtain ⟨row, hrow, hdeleted, hteam⟩ := validateOwned_eq_ok (validateForRoute_eq_ok hservice) id hid
  unfold Store.ownedService at hrow
  obtain ⟨svc, hget, rfl⟩ := Option.map_eq_some_iff.mp hrow
  obtain ⟨hsvc, hid⟩ := IdTable.get_eq_some.mp hget
  exact ⟨svc, hsvc, hid, hteam, hdeleted⟩

/-- A route that is found is a row that is not deleted. -/
theorem getRoute_eq_ok {id : ℕ} {r : Route} (h : getRoute s id = .ok r) :
    r ∈ s.routes.rows ∧ r.id = id ∧ r.deleted = false := by
  unfold getRoute at h
  split at h
  · next row hget =>
    split at h
    · cases h
    · next hlive =>
      cases h
      obtain ⟨hr, hid⟩ := IdTable.get_eq_some.mp hget
      exact ⟨hr, hid, by simpa using hlive⟩
  · cases h

theorem getService_eq_ok {id : ℕ} {svc : Service} (h : getService s id = .ok svc) :
    svc ∈ s.services.rows ∧ svc.id = id ∧ svc.deleted = false := by
  unfold getService at h
  split at h
  · next row hget =>
    split at h
    · cases h
    · next hlive =>
      cases h
      obtain ⟨hsvc, hid⟩ := IdTable.get_eq_some.mp hget
      exact ⟨hsvc, hid, by simpa using hlive⟩
  · cases h

end Checks

/-! ## Writing a route -/

section Writes

variable {s : Store}

/-- A route is written with what it may refer to. -/
theorem Integrity.saveRoute (h : Integrity owners s) {r : Route}
    (hr : r.deleted = false → RouteRefs owners s.services r.toRouteData) :
    Integrity owners { s with routes := s.routes.save r } where
  routes other hother hlive := by
    rcases IdTable.mem_save.mp hother with ⟨hother, -⟩ | ⟨rfl, -⟩
    · exact h.routes other hother hlive
    · exact hr hlive
  services := h.services

/-- A route with sound references may be added. -/
theorem Integrity.insertRoute (h : Integrity owners s) {r : Route} (hid : r.id = s.routes.next)
    (hr : RouteRefs owners s.services r.toRouteData) :
    Integrity owners { s with routes := s.routes.insert r hid } where
  routes other hother hlive := by
    rcases (@IdTable.mem_insert _ _ _ _ hid _).mp hother with hother | rfl
    · exact h.routes other hother hlive
    · exact hr
  services := h.services

/-! ## Writing a service -/

/-- The references of a route that no service is taken from. -/
theorem RouteRefs.mono {services services' : IdTable Service (·.id)} {r : RouteData}
    (h : RouteRefs owners services r)
    (hkept : ∀ svc ∈ services.rows, svc.deleted = false → ∀ ref ∈ r.service, (ref : ℕ) = svc.id →
      svc.team = r.team → ∃ svc' ∈ services'.rows,
        svc'.id = svc.id ∧ svc'.team = r.team ∧ svc'.deleted = false) :
    RouteRefs owners services' r where
  service id hid := by
    obtain ⟨svc, hsvc, hsvcId, hteam, hlive⟩ := h.service id hid
    obtain ⟨svc', hsvc', hsame, hteam', hlive'⟩ := hkept svc hsvc hlive id hid hsvcId.symm hteam
    exact ⟨svc', hsvc', hsame.trans hsvcId, hteam', hlive'⟩
  rotation := h.rotation
  escalationPolicy := h.escalationPolicy

theorem Integrity.insertService (h : Integrity owners s) {svc : Service}
    (hid : svc.id = s.services.next) (hsvc : ServiceRefs owners svc.toServiceData) :
    Integrity owners { s with services := s.services.insert svc hid } where
  routes r hr hlive := by
    refine (h.routes r hr hlive).mono fun old hold hlive' _ _ _ hteam => ?_
    exact ⟨old, (@IdTable.mem_insert _ _ _ _ hid _).mpr (.inl hold), rfl, hteam, hlive'⟩
  services other hother hlive := by
    rcases (@IdTable.mem_insert _ _ _ _ hid _).mp hother with hother | rfl
    · exact h.services other hother hlive
    · exact hsvc

/-- A service is written in the team that it has, or no route refers to it. -/
theorem Integrity.saveService (h : Integrity owners s) {svc : Service}
    (hsvc : ServiceRefs owners svc.toServiceData) (hlive : svc.deleted = false)
    (hmoved : ∀ old ∈ s.services.rows, old.id = svc.id → old.deleted = false →
      old.team = svc.team ∨ Unreferenced s svc.id) :
    Integrity owners { s with services := s.services.save svc } where
  routes r hr hrlive := by
    refine (h.routes r hr hrlive).mono fun old hold holdlive ref href hid hteam => ?_
    by_cases hsame : old.id = svc.id
    · rcases hmoved old hold hsame holdlive with hkept | hunreferenced
      · exact ⟨svc, IdTable.mem_save.mpr (.inr ⟨rfl, old, hold, hsame⟩), hsame.symm,
          hkept.symm.trans hteam, hlive⟩
      · exact absurd (hid.trans hsame) (hunreferenced r hr hrlive ref href)
    · exact ⟨old, IdTable.mem_save.mpr (.inl ⟨hold, hsame⟩), rfl, hteam, holdlive⟩
  services other hother hlive' := by
    rcases IdTable.mem_save.mp hother with ⟨hother, -⟩ | ⟨rfl, -⟩
    · exact h.services other hother hlive'
    · exact hsvc

/-- A route that lets its service go keeps its other references. -/
theorem Route.detach_refs {services : IdTable Service (·.id)} {id : ℕ} {r : Route}
    (h : RouteRefs owners services r.toRouteData) :
    RouteRefs owners services (r.detach id).toRouteData := by
  unfold Route.detach
  split
  · exact ⟨fun _ href => absurd href (by simp), h.rotation, h.escalationPolicy⟩
  · exact h

theorem Route.detach_service {id : ℕ} {r : Route} :
    ∀ ref ∈ (r.detach id).service, (ref : ℕ) ≠ id := by
  intro ref href hid
  unfold Route.detach at href
  split at href
  · cases href
  · next hother =>
    exact hother (by simp [Option.mem_def.mp href, hid])

/-- A deleted service is let go by every route. -/
theorem Integrity.deleteService (h : Integrity owners s) {svc : Service} (hsvc : svc.deleted = true) :
    Integrity owners { s with
      routes := s.routes.update (fun _ => true) (Route.detach svc.id) (Route.detach_id svc.id)
      services := s.services.save svc } where
  routes r hr hlive := by
    -- the routes of the service lose it in the same request
    obtain ⟨old, hold, ⟨-, rfl⟩ | ⟨hguard, -⟩⟩ :=
      (@IdTable.mem_update _ _ _ _ _ (Route.detach_id svc.id) _).mp hr
    · have hliveOld : old.deleted = false := by
        unfold Route.detach at hlive
        split at hlive <;> exact hlive
      refine (Route.detach_refs (h.routes old hold hliveOld)).mono
        fun other hother hlive' ref href hid hteam => ?_
      refine ⟨other, IdTable.mem_save.mpr (.inl ⟨hother, ?_⟩), rfl, hteam, hlive'⟩
      exact fun hsame => Route.detach_service ref href (hid.trans hsame)
    · cases hguard
  services other hother hlive := by
    rcases IdTable.mem_save.mp hother with ⟨hother, -⟩ | ⟨rfl, -⟩
    · exact h.services other hother hlive
    · rw [hsvc] at hlive
      cases hlive

end Writes

/-! ## One request -/

section Requests

variable {s t : Store}

/-- **Creating a route** keeps the references sound. -/
theorem createRoute_integrity {c : Caller} {data : RouteData} (h : Integrity owners s)
    (hok : createRoute owners s c data = .ok t) : Integrity owners t := by
  obtain ⟨_, -, hok⟩ := bind_eq_ok.mp hok
  obtain ⟨_, hvalid, hok⟩ := bind_eq_ok.mp hok
  have hrefs := routeRefs_of_validate hvalid
  split at hok
  · split at hok
    · cases hok
    · cases hok
      exact h.saveRoute fun _ => hrefs
  · cases hok
    exact h.insertRoute rfl hrefs

/-- **Updating one** checks what it writes. -/
theorem updateRoute_integrity {c : Caller} {id : ℕ} {data : RouteData} (h : Integrity owners s)
    (hok : updateRoute owners s c id data = .ok t) : Integrity owners t := by
  obtain ⟨current, -, hok⟩ := bind_eq_ok.mp hok
  obtain ⟨_, -, hok⟩ := bind_eq_ok.mp hok
  obtain ⟨_, -, hok⟩ := bind_eq_ok.mp hok
  obtain ⟨_, hvalid, hok⟩ := bind_eq_ok.mp hok
  obtain ⟨_, -, hok⟩ := bind_eq_ok.mp hok
  cases hok
  exact h.saveRoute fun _ => routeRefs_of_validate hvalid

/-- **Enabling one** checks what was written before. -/
theorem setRouteEnabled_integrity {c : Caller} {id : ℕ} {enabled : Bool} (h : Integrity owners s)
    (hok : setRouteEnabled s c id enabled = .ok t) : Integrity owners t := by
  obtain ⟨current, hcurrent, hok⟩ := bind_eq_ok.mp hok
  obtain ⟨_, -, hok⟩ := bind_eq_ok.mp hok
  cases hok
  obtain ⟨hmem, -, hlive⟩ := getRoute_eq_ok hcurrent
  -- the references are those that the route had
  obtain ⟨hservice, hrotation, hescalation⟩ := h.routes current hmem hlive
  exact h.saveRoute fun _ => ⟨hservice, hrotation, hescalation⟩

/-- **Deleting one** takes its references away. -/
theorem deleteRoute_integrity {c : Caller} {id : ℕ} (h : Integrity owners s)
    (hok : deleteRoute s c id = .ok t) : Integrity owners t := by
  obtain ⟨current, -, hok⟩ := bind_eq_ok.mp hok
  obtain ⟨_, -, hok⟩ := bind_eq_ok.mp hok
  cases hok
  exact h.saveRoute fun hlive => by cases hlive

/-- **Creating a service** checks what it writes. -/
theorem createService_integrity {c : Caller} {data : ServiceData} (h : Integrity owners s)
    (hok : createService owners s c data = .ok t) : Integrity owners t := by
  obtain ⟨_, -, hok⟩ := bind_eq_ok.mp hok
  obtain ⟨_, hvalid, hok⟩ := bind_eq_ok.mp hok
  have hrefs := serviceRefs_of_validate hvalid
  split at hok
  · next existing hfind =>
    split at hok
    · cases hok
    · next hdeleted =>
      cases hok
      refine h.saveService hrefs rfl fun old hold hid hlive => ?_
      -- the row that comes back was deleted
      have hexisting := List.mem_of_find?_eq_some hfind
      rw [IdTable.eq_of_id hold hexisting hid] at hlive
      simp [hlive] at hdeleted
  · cases hok
    exact h.insertService rfl hrefs

/-- **Deleting one** lets go of it in every route. -/
theorem deleteService_integrity {c : Caller} {id : ℕ} (h : Integrity owners s)
    (hok : deleteService s c id = .ok t) : Integrity owners t := by
  obtain ⟨current, hcurrent, hok⟩ := bind_eq_ok.mp hok
  obtain ⟨_, -, hok⟩ := bind_eq_ok.mp hok
  cases hok
  obtain ⟨-, hid, -⟩ := getService_eq_ok hcurrent
  subst hid
  exact @Integrity.deleteService owners s h { current with enabled := false, deleted := true } rfl

/-- What a service that is written becomes. -/
theorem updateService_eq_ok {c : Caller} {id : ℕ} {data : ServiceData}
    (hok : updateService owners s c id data = .ok t) :
    ∃ current ∈ s.services.rows, current.id = id ∧ current.deleted = false ∧
      ServiceRefs owners data ∧
      t = { s with services := s.services.save { data with id, deleted := false } } := by
  obtain ⟨current, hcurrent, hok⟩ := bind_eq_ok.mp hok
  obtain ⟨_, -, hok⟩ := bind_eq_ok.mp hok
  obtain ⟨_, -, hok⟩ := bind_eq_ok.mp hok
  obtain ⟨_, hvalid, hok⟩ := bind_eq_ok.mp hok
  obtain ⟨_, -, hok⟩ := bind_eq_ok.mp hok
  cases hok
  obtain ⟨hmem, rfl, hlive⟩ := getService_eq_ok hcurrent
  exact ⟨current, hmem, rfl, hlive, serviceRefs_of_validate hvalid, rfl⟩

/-- A service is updated in its team, or no route refers to it: otherwise the route that does
belongs to the team that the service had. -/
theorem updateService_integrity_iff {c : Caller} {id : ℕ} {data : ServiceData}
    (h : Integrity owners s) (hok : updateService owners s c id data = .ok t) :
    Integrity owners t ↔
      ∀ svc ∈ s.services.rows, svc.id = id → svc.team ≠ data.team → Unreferenced s id := by
  obtain ⟨current, hmem, hid, hlive, hrefs, rfl⟩ := updateService_eq_ok hok
  constructor
  · intro hafter svc hsvc hsvcId hmoved r hr hrlive ref href hrefId
    obtain ⟨before, hbefore, hbeforeId, hbeforeTeam, -⟩ := (h.routes r hr hrlive).service ref href
    obtain ⟨after, hafter', hafterId, hafterTeam, -⟩ := (hafter.routes r hr hrlive).service ref href
    -- before, the service had the team of the route; afterwards it has the new one
    rcases IdTable.mem_save.mp hafter' with ⟨-, hother⟩ | ⟨rfl, -⟩
    · exact hother (hafterId.trans hrefId)
    · have hsame := IdTable.eq_of_id hsvc hbefore (hsvcId.trans (hbeforeId.trans hrefId).symm)
      exact hmoved (by rw [hsame, hbeforeTeam, ← hafterTeam])
  · intro hunreferenced
    refine h.saveService hrefs rfl fun old hold holdId _ => ?_
    by_cases hteam : old.team = data.team
    · exact .inl hteam
    · exact .inr (hunreferenced old hold holdId hteam)

end Requests

/-! ## Runs -/

theorem catalog_integrity {s : Store} (h : Integrity owners s) (rows : Kind → Id → Option Flags) :
    Integrity owners { s with catalog := rows } := ⟨h.routes, h.services⟩

/-- One request, in a store where the references are kept. -/
theorem step_integrity_iff {s : Store} (h : Integrity owners s) (l : Label) :
    Integrity owners (step owners s l) ↔ MovesUnreferenced owners s l := by
  unfold step
  -- a refused request changes nothing
  cases hresult : handle owners s l with
  | error e =>
    refine iff_of_true h ?_
    unfold MovesUnreferenced
    split
    · intro t ht
      cases hresult.symm.trans ht
    · trivial
  | ok t =>
    -- every accepted request keeps the references but a move of a service
    cases l with
    | createRoute c data => exact iff_of_true (createRoute_integrity h hresult) trivial
    | updateRoute c id data => exact iff_of_true (updateRoute_integrity h hresult) trivial
    | setRouteEnabled c id enabled =>
      exact iff_of_true (setRouteEnabled_integrity h hresult) trivial
    | deleteRoute c id => exact iff_of_true (deleteRoute_integrity h hresult) trivial
    | createService c data => exact iff_of_true (createService_integrity h hresult) trivial
    | updateService c id data =>
      -- which keeps them when no route of the old team refers to it
      refine (updateService_integrity_iff h hresult).trans ?_
      constructor
      · intro hunreferenced _ _
        exact hunreferenced
      · intro hmeets
        exact hmeets t hresult
    | deleteService c id => exact iff_of_true (deleteService_integrity h hresult) trivial
    | catalog rows =>
      cases hresult
      exact iff_of_true (catalog_integrity h rows) trivial

/-- **Routes and services refer to their own team after every request** of exactly the runs in
which no service is moved to another team while a live route refers to it. -/
theorem references_kept_iff (owners : Owners) {s : Store} (h : Integrity owners s)
    (ls : List Label) :
    Along (step owners) (fun s l => Integrity owners (step owners s l)) s ls ↔
      Along (step owners) (MovesUnreferenced owners) s ls :=
  along_iff (I := Integrity owners) (fun _ l hs => step_integrity_iff hs l)
    (fun _ l hs hl => (step_integrity_iff hs l).mpr hl) h ls

/-! ## A service that changes its team -/

/-- A caller who may write everything. -/
def admin : Caller := ⟨fun _ => true, fun _ => true⟩

def emptyStore : Store := ⟨fun _ _ => none, .empty, .empty⟩

/-- A service of team 1 and its route; then the service is moved to team 2. -/
def serviceMoves : List Label :=
  [.createService admin { team := 1, slug := "api" },
    .createRoute admin { team := 1, name := "alerts", service := some 1 },
    .updateService admin 1 { team := 2, slug := "api" }]

/-- The route lets go of the service before the service is moved. -/
def routeLetsGo : List Label :=
  [.createService admin { team := 1, slug := "api" },
    .createRoute admin { team := 1, name := "alerts", service := some 1 },
    .updateRoute admin 1 { team := 1, name := "alerts" },
    .updateService admin 1 { team := 2, slug := "api" }]

/-- Every row belongs to team 1. -/
def oneTeam : Owners := fun _ _ => 1

def storeAfter (ls : List Label) : Store := ls.foldl (step oneTeam) emptyStore

/-- The sample keeps its references sound at every step. -/
theorem routeLetsGo_kept :
    Along (step oneTeam) (fun s l => Integrity oneTeam (step oneTeam s l)) emptyStore
      routeLetsGo := by
  refine (references_kept_iff oneTeam (integrity_empty _) routeLetsGo).mpr
    ⟨trivial, trivial, trivial, ?_, trivial⟩
  have hnone : ∀ r ∈ (storeAfter (routeLetsGo.take 3)).routes.rows, r.service = none := by
    decide +kernel
  intro t _ svc _ _ _ r hr _ ref href
  rw [hnone r hr] at href
  cases href

/-- **The service belongs to team 2, and the route of team 1 still refers to it.** -/
theorem serviceMoves_breaks : ¬∀ (owners : Owners) (catalog : Kind → Id → Option Flags)
    (ls : List Label), Along (step owners) (fun s l => Integrity owners (step owners s l))
      ⟨catalog, .empty, .empty⟩ ls := by
  intro h
  have hbroken : ∃ r ∈ (storeAfter serviceMoves).routes.rows, r.deleted = false ∧
      r.service = some 1 ∧ ∀ svc ∈ (storeAfter serviceMoves).services.rows, svc.team ≠ r.team := by
    decide +kernel
  obtain ⟨-, -, hkept, -⟩ := h oneTeam (fun _ _ => none) serviceMoves
  obtain ⟨r, hr, hlive, hservice, hmoved⟩ := hbroken
  obtain ⟨svc, hsvc, -, hteam, -⟩ := (hkept.routes r hr hlive).service 1 hservice
  exact hmoved svc hsvc hteam

end IncidentRelay.References
