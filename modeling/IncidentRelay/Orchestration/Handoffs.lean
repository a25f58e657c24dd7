import IncidentRelay.Orchestration.Applied
import IncidentRelay.Orchestration.PauseRestore

/-!
# Handoffs between services

The chain of service orchestrations turns to the service in force until that one has had its
turn. The turns of an event are counted over the calls that process it: the intake, the
lifecycle and, for a paused event, the activation.

 * `turns_evaluated`: a chain adds its turns to those of the result.
 * `service_handoffs`: the turns of an event are distinct, each call has eight at most, and the
   service behind a chain is the last one that was selected.
-/

namespace IncidentRelay.Orchestration

open Json Redaction

variable {L : Language}

/-! ## Turns -/

section Turns

variable (env : Env L) (groupId : Id) (source : Option String)

/-- The services whose orchestrations `_evaluate_service_chain` evaluates, up to an error that
is raised. -/
def turnsIn : ℕ → Loop → List Id
  | 0, _ => []
  | left + 1, s =>
    match s.nextService with
    | none => []
    | some service => service.id ::
      match evaluateOrchestrations env groupId source (serviceOrchestrations env groupId service)
          (enterService s service) with
      | .ok s => turnsIn left s
      | .error _ => []

/-- The turns of `run_event_orchestration`. -/
def turnsOfEvent (alertData : Dict) : List Id :=
  match groupIdFromAlert env.db alertData with
  | none => []
  | some groupId =>
    match initialEntities env.db alertData groupId with
    | .error _ => []
    | .ok (route, team, service) =>
      let globals := listRuntimeOrchestrations env groupId .global none
      if globals.isEmpty && service.isNone then []
      else
        match evaluateOrchestrations env groupId (textIn alertData "source") globals
            (startLoop env alertData groupId route team service) with
        | .ok s => turnsIn env groupId (textIn alertData "source") maxServiceHandoffs s
        | .error _ => []

/-- The turns of `run_service_orchestration`. -/
def turnsOfService (alertData : Dict) (runtime : RuntimeResult) (route : Option Route)
    (team : Option TeamRow) (service : Option Service) : List Id :=
  match runtime.groupId with
  | none => []
  | some groupId =>
    if runtime.blocked || service.isNone then []
    else turnsIn env groupId (textIn alertData "source") maxServiceHandoffs
      (serviceLoop env alertData runtime route team service)

end Turns

/-! ## The services of the result -/

section Loops

variable {env : Env L} {groupId : Id} {source : Option String}

/-- Applying an orchestration notes no service. -/
theorem commit_evaluated (o : Orchestration L) (step : RuntimeStep) (context : Context)
    (result : ActionResult) (selected : Selection) (s : Loop) :
    (commit o step context result selected s).runtime.evaluatedServiceIds =
      s.runtime.evaluatedServiceIds := by
  unfold commit applyDisposition
  cases result.disposition <;> rfl

/-- An orchestration takes no turn. -/
theorem evaluateOne_evaluated {o : Orchestration L} {s t : Loop} {next : Next}
    (h : evaluateOne env groupId source o s = .ok (t, next)) :
    t.runtime.evaluatedServiceIds = s.runtime.evaluatedServiceIds := by
  unfold evaluateOne at h
  -- the orchestration fails, is not applied, or is applied: it hands nothing over itself
  split at h
  · split_ifs at h
    · cases h
      rfl
    · cases h
      rfl
  · split at h
    · cases h
      rfl
    · obtain ⟨context, -, h⟩ := bind_eq_ok.mp h
      dsimp only at h
      split at h
      · -- the selection is rejected
        split at h
        · cases h
          rfl
        · cases h
          rfl
      · cases h
        exact commit_evaluated _ _ _ _ _ _

theorem evaluateOrchestrations_evaluated {os : List (Orchestration L)} {s t : Loop}
    (h : evaluateOrchestrations env groupId source os s = .ok t) :
    t.runtime.evaluatedServiceIds = s.runtime.evaluatedServiceIds := by
  induction os generalizing s with
  | nil =>
    cases h
    rfl
  | cons o os ih =>
    rw [evaluateOrchestrations] at h
    split_ifs at h
    · exact ih h
    · obtain ⟨⟨u, next⟩, hone, h⟩ := bind_eq_ok.mp h
      have hsame := evaluateOne_evaluated hone
      cases next with
      | proceed => exact (ih h).trans hsame
      | stop =>
        cases h
        exact hsame

/-- **The turns of a chain are distinct and new**, whether it returns or not. -/
theorem turnsIn_new (env : Env L) (groupId : Id) (source : Option String) (left : ℕ) (s : Loop) :
    (turnsIn env groupId source left s).Nodup ∧
      ∀ id ∈ turnsIn env groupId source left s, id ∉ s.runtime.evaluatedServiceIds := by
  induction left generalizing s with
  | zero => exact ⟨List.nodup_nil, fun _ h => absurd h List.not_mem_nil⟩
  | succ left ih =>
    rw [turnsIn]
    split
    · exact ⟨List.nodup_nil, fun _ h => absurd h List.not_mem_nil⟩
    · rename_i service hnext
      have hnew := (nextService_eq_some hnext).2.2
      split
      · rename_i t hround
        -- the service has had its turn
        have hids : t.runtime.evaluatedServiceIds = s.runtime.evaluatedServiceIds ++ [service.id] :=
          evaluateOrchestrations_evaluated hround
        obtain ⟨hnodup, hlater⟩ := ih t
        rw [hids] at hlater
        refine ⟨List.nodup_cons.mpr ⟨fun hmem => hlater _ hmem ?_, hnodup⟩, ?_⟩
        · exact List.mem_append_right _ (List.mem_singleton_self _)
        · exact List.forall_mem_cons.mpr
            ⟨hnew, fun id hid hold => hlater id hid (List.mem_append_left _ hold)⟩
      · exact ⟨List.nodup_singleton _, List.forall_mem_singleton.mpr hnew⟩

/-- There are no more turns than handoffs are allowed. -/
theorem length_turnsIn (env : Env L) (groupId : Id) (source : Option String) (left : ℕ) (s : Loop) :
    (turnsIn env groupId source left s).length ≤ left := by
  induction left generalizing s with
  | zero => exact le_rfl
  | succ left ih =>
    rw [turnsIn]
    split
    · exact Nat.zero_le _
    · rw [List.length_cons]
      refine Nat.succ_le_succ ?_
      split
      · exact ih _
      · exact Nat.zero_le _

/-- **A chain adds its turns** to those of the result. -/
theorem turns_evaluated {left : ℕ} {s t : Loop}
    (h : evaluateServiceChain env groupId source left s = .ok t) :
    t.runtime.evaluatedServiceIds =
      s.runtime.evaluatedServiceIds ++ turnsIn env groupId source left s := by
  -- by induction on the hand-offs that are left
  induction left generalizing s with
  | zero =>
    rw [evaluateServiceChain] at h
    rw [turnsIn, List.append_nil]
    split at h
    · cases h
      rfl
    · split_ifs at h <;> cases h <;> rfl
  | succ left ih =>
    rw [turnsIn]
    cases hnext : s.nextService with
    | none =>
      rw [evaluateServiceChain_done hnext] at h
      cases h
      exact (List.append_nil _).symm
    -- the service is entered once, and then its orchestrations are walked
    | some service =>
      rw [evaluateServiceChain_enter (nextService_eq_some hnext)] at h
      obtain ⟨u, hround, h⟩ := bind_eq_ok.mp h
      have hids : u.runtime.evaluatedServiceIds = s.runtime.evaluatedServiceIds ++ [service.id] :=
        evaluateOrchestrations_evaluated hround
      have hturns : (match some service with
          | none => []
          | some service => service.id ::
            match evaluateOrchestrations env groupId source (serviceOrchestrations env groupId service)
                (enterService s service) with
            | .ok s => turnsIn env groupId source left s
            | .error _ => []) = service.id :: turnsIn env groupId source left u := by
        dsimp only
        rw [hround]
      rw [ih h, hids, hturns, List.append_assoc]
      rfl

/-! ## The service in force -/

/-- The service that the result of an applied orchestration selects. -/
def Applied.selectedService (a : Applied L) : Option Service :=
  if a.result.state.result.routing.serviceId.isSome then a.selected.service else none

/-- The last service that is selected, or the one that was in force. -/
def lastSelected (as : List (Applied L)) (first : Option Service) : Option Service :=
  (as.filterMap Applied.selectedService).getLast?.or first

theorem lastSelected_append (as bs : List (Applied L)) (first : Option Service) :
    lastSelected (as ++ bs) first = lastSelected bs (lastSelected as first) := by
  unfold lastSelected
  rw [List.filterMap_append, List.getLast?_append, Option.or_assoc]

/-- A service that is loaded has the id that it was loaded by. -/
theorem loadService_id {db : Entities} {id : Id} {loaded : Option Service}
    (h : db.loadService (some id) groupId = .ok loaded) :
    ∃ service, loaded = some service ∧ service.id = id := by
  unfold Entities.loadService at h
  dsimp only at h
  split at h
  · cases h
  · rename_i service hfound
    split_ifs at h
    cases h
    exact ⟨service, rfl, (byId_mem hfound).2⟩

/-- What a selection does to the service in force. -/
theorem selectService_service {db : Entities} {routing : Routing} {route route' : Option Route}
    {team team' : Option TeamRow} {fallback service : Option Service}
    (h : selectService db routing groupId route team fallback = .ok (route', team', service)) :
    (routing.serviceId.isSome = true → ∃ selected, service = some selected ∧
        some selected.id = routing.serviceId) ∧
      (routing.serviceId.isSome = false → fallback.isSome = true → service = fallback) := by
  unfold selectService at h
  split at h
  -- the service that is named is loaded
  · rename_i hid
    obtain ⟨loaded, hload, h⟩ := bind_eq_ok.mp h
    obtain ⟨id, hsome⟩ := Option.isSome_iff_exists.mp hid
    rw [hsome] at hload
    obtain ⟨selected, rfl, hselected⟩ := loadService_id hload
    refine ⟨fun _ => ⟨selected, ?_, by rw [hsome, hselected]⟩, fun hnone => ?_⟩
    · split at h <;> cases h <;> rfl
    · rw [hid] at hnone
      cases hnone
  · rename_i hid
    -- and none is named otherwise, so it is the one of before
    refine ⟨fun hset => absurd hset hid, fun _ hfallback => ?_⟩
    obtain ⟨service', rfl⟩ := Option.isSome_iff_exists.mp hfallback
    cases h
    rfl

/-- The service after an orchestration is the one it selects, or the one before. -/
theorem resolve_service {db : Entities} {result : ActionResult} {fallback selected : Selection}
    (h : resolveSelectedEntities db result groupId source fallback = .ok selected) :
    (result.routing.serviceId.isSome = true → ∃ service, selected.service = some service ∧
        some service.id = result.routing.serviceId) ∧
      (result.routing.serviceId.isSome = false → fallback.service.isSome = true →
        selected.service = fallback.service) := by
  unfold resolveSelectedEntities at h
  obtain ⟨route, -, h⟩ := bind_eq_ok.mp h
  obtain ⟨team, -, h⟩ := bind_eq_ok.mp h
  obtain ⟨⟨route', team', service⟩, hservice, h⟩ := bind_eq_ok.mp h
  dsimp only at h
  split_ifs at h
  obtain ⟨escalation, -, h⟩ := bind_eq_ok.mp h
  obtain ⟨priority, -, h⟩ := bind_eq_ok.mp h
  obtain ⟨notification, -, h⟩ := bind_eq_ok.mp h
  cases h
  exact selectService_service hservice

/-- What a round does to the service in force. -/
theorem Round.service {s t : Loop} {l : Option (Applied L)} (h : Round env groupId source s l t)
    (hservice : s.service.isSome = true) :
    t.service = lastSelected l.toList s.service ∧ t.service.isSome = true ∧
      ∀ a ∈ l, ∀ service ∈ a.selectedService,
        some service.id = a.result.state.result.routing.serviceId := by
  have hquiet {u : Loop} (hu : u.service = s.service) :
      u.service = lastSelected ([] : List (Applied L)) s.service ∧ u.service.isSome = true ∧
        ∀ a ∈ (none : Option (Applied L)), ∀ service ∈ a.selectedService,
          some service.id = a.result.state.result.routing.serviceId :=
    ⟨hu, hu ▸ hservice, fun _ ha => by cases ha⟩
  -- only what is applied selects a service
  cases h with
  | recorded hstep => exact hquiet rfl
  | blocked reason => exact hquiet rfl
  | settled => exact hquiet rfl
  | entered service => exact hquiet rfl
  | exhausted => exact hquiet rfl
  | @applied _ a hcommits =>
    obtain ⟨step, -, -, rfl⟩ := hcommits.committed
    obtain ⟨hset, hkept⟩ := resolve_service hcommits.resolved
    have hcommitted : (commit a.orchestration step a.result.state.context a.result.state.result
        a.selected s).service = a.selected.service := rfl
    rw [hcommitted]
    -- by whether it names one
    by_cases hid : a.result.state.result.routing.serviceId.isSome = true
    · obtain ⟨service, hselected, hsame⟩ := hset hid
      have hchosen : a.selectedService = some service := by
        rw [Applied.selectedService, if_pos hid, hselected]
      refine ⟨?_, hselected ▸ rfl, ?_⟩
      · simp [lastSelected, hchosen, hselected]
      · rintro _ ⟨⟩ other hother
        rw [hchosen] at hother
        cases hother
        exact hsame
    · have hnone : a.selectedService = none := if_neg hid
      have hsame := hkept (Bool.eq_false_iff.mpr hid) hservice
      refine ⟨?_, hsame ▸ hservice, ?_⟩
      · simp only [lastSelected, Option.toList_some, List.filterMap_cons, hnone, List.filterMap_nil,
          List.getLast?_nil, Option.none_or]
        exact hsame
      · rintro _ ⟨⟩ other hother
        rw [hnone] at hother
        cases hother

/-- **The service behind the rounds** is the last one that was selected. -/
theorem Rounds.service {s t : Loop} {as : List (Applied L)} (h : Rounds env groupId source s as t)
    (hservice : s.service.isSome = true) :
    t.service = lastSelected as s.service ∧ ∀ a ∈ as, ∀ service ∈ a.selectedService,
      some service.id = a.result.state.result.routing.serviceId := by
  obtain ⟨ls, hrun, rfl⟩ := h
  induction hrun with
  | nil s => exact ⟨rfl, fun _ ha => absurd ha List.not_mem_nil⟩
  | @cons s u t l ls hround _ ih =>
    obtain ⟨hfirst, hsome, hids⟩ := Round.service hround hservice
    obtain ⟨hlast, hrest⟩ := ih hsome
    have hreduce : (l :: ls).reduceOption = l.toList ++ ls.reduceOption := by cases l <;> rfl
    rw [hreduce, lastSelected_append, ← hfirst]
    refine ⟨hlast, fun a ha => ?_⟩
    rcases List.mem_append.mp ha with hmem | hmem
    · exact hids a (Option.mem_toList.mp hmem)
    · exact hrest a hmem

end Loops

/-! ## The calls of an event -/

/-- The services that had their turn come back from a paused event. -/
theorem evaluatedServiceIds_resumed (u : CharClasses) (db : Entities) (r : RuntimeResult)
    (previous : Dict) (now : String) :
    (resumed u db r previous now).evaluatedServiceIds = r.evaluatedServiceIds := by
  have hruntime : (Dict.getD (runtimeContext u r previous now) "runtime").asDict =
      redactEntries u r.toDict := by
    unfold runtimeContext
    rw [getD_redactEntries u (by decide +kernel : isSensitiveKey "runtime" = false)]
    simp [Dict.getD, Dict.get_cons, redactSecrets, asDict]
  have hread : Dict.getD (redactEntries u r.toDict) "evaluated_service_ids" =
      redactSecrets u (.list (r.evaluatedServiceIds.map fun n : Id => .int n)) := by
    rw [getD_redactEntries u (runtimeKeys_not_sensitive _ (by decide))]
    simp [RuntimeResult.toDict, Dict.getD, Dict.get_cons]
  show (asList (Dict.getD (Dict.getD (runtimeContext u r previous now) "runtime").asDict
    "evaluated_service_ids")).filterMap idOf = r.evaluatedServiceIds
  rw [hruntime, hread]
  exact ids_restored u r.evaluatedServiceIds

/-- The calls that process an event, with the result they leave and the turns that they took. The
tables may change in between. -/
inductive Passes (L : Language) : RuntimeResult → List Id → Prop where
  | intake {env : Env L} {alertData data : Dict} {r : RuntimeResult} :
      runEventOrchestration env alertData = .ok (r, data) → Passes L r (turnsOfEvent env alertData)
  | lifecycle {env : Env L} {alertData data : Dict} {r r' : RuntimeResult} {ids : List Id}
      {route : Option Route} {team : Option TeamRow} {service : Option Service} :
      Passes L r ids → runServiceOrchestration env alertData r route team service = .ok (r', data) →
      Passes L r' (ids ++ turnsOfService env alertData r route team service)
  /-- a paused event is stored and activated -/
  | activation {r : RuntimeResult} {ids : List Id} (u : CharClasses) (db : Entities) (previous : Dict)
      (now : String) : Passes L r ids → Passes L (resumed u db r previous now) ids

theorem finish_evaluated (s : Loop) : s.finish.evaluatedServiceIds = s.runtime.evaluatedServiceIds := by
  unfold Loop.finish requireRoute
  split_ifs <;> rfl

section Calls

variable {env : Env L} {alertData data : Dict} {r r' : RuntimeResult}

/-- **The list that a run returns is that of its turns.** -/
theorem turnsOfEvent_evaluated (h : runEventOrchestration env alertData = .ok (r, data)) :
    r.evaluatedServiceIds = turnsOfEvent env alertData := by
  unfold runEventOrchestration at h
  unfold turnsOfEvent
  -- without a group there are no turns
  cases hgroup : groupIdFromAlert env.db alertData with
  | none =>
    rw [hgroup] at h
    cases h
    rfl
  | some groupId =>
    rw [hgroup] at h
    dsimp only at h ⊢
    cases hinitial : initialEntities env.db alertData groupId with
    | error message =>
      rw [hinitial] at h
      dsimp only at h ⊢
      split_ifs at h <;> cases h <;> rfl
    | ok entities =>
      obtain ⟨route, team, service⟩ := entities
      rw [hinitial] at h
      dsimp only at h ⊢
      -- nor without orchestrations
      split_ifs at h ⊢ with hidle
      · cases h
        rfl
      · obtain ⟨t, hrun, h⟩ := bind_eq_ok.mp h
        cases h
        obtain ⟨u, hglobals, hrun⟩ := bind_eq_ok.mp hrun
        have hstart : u.runtime.evaluatedServiceIds = [] := evaluateOrchestrations_evaluated hglobals
        rw [hglobals, finish_evaluated]
        dsimp only at hrun ⊢
        split_ifs at hrun with hblocked
        · -- nothing is left to the chain of a blocked run
          cases hrun
          have hnone : t.nextService = none := by
            unfold Loop.nextService
            rw [hblocked]
            cases t.service <;> rfl
          rw [hstart]
          unfold maxServiceHandoffs
          rw [turnsIn, hnone]
        · rw [turns_evaluated hrun, hstart, List.nil_append]

theorem turnsOfService_none {route : Option Route} {team : Option TeamRow} {service : Option Service}
    (h : r.groupId = none) : turnsOfService env alertData r route team service = [] := by
  unfold turnsOfService
  rw [h]

/-- Otherwise the turns are those from the service on, unless the event is blocked. -/
theorem turnsOfService_some {route : Option Route} {team : Option TeamRow} {service : Option Service}
    {groupId : Id} (h : r.groupId = some groupId) :
    turnsOfService env alertData r route team service =
      if r.blocked || service.isNone then []
      else turnsIn env groupId (textIn alertData "source") maxServiceHandoffs
        (serviceLoop env alertData r route team service) := by
  unfold turnsOfService
  rw [h]

/-- The second run adds its turns to the list. -/
theorem turnsOfService_evaluated {route : Option Route} {team : Option TeamRow} {service : Option Service}
    (h : runServiceOrchestration env alertData r route team service = .ok (r', data)) :
    r'.evaluatedServiceIds = r.evaluatedServiceIds ++ turnsOfService env alertData r route team service := by
  unfold runServiceOrchestration at h
  split at h
  · rename_i hgroup
    rw [turnsOfService_none hgroup]
    cases h
    exact (List.append_nil _).symm
  · rename_i groupId hgroup
    rw [turnsOfService_some hgroup]
    split_ifs at h ⊢
    · cases h
      exact (List.append_nil _).symm
    · obtain ⟨t, hrun, h⟩ := bind_eq_ok.mp h
      cases h
      rw [finish_evaluated]
      exact turns_evaluated hrun

/-- The turns of a call are new, whether it returns or not. -/
theorem turnsOfService_new (env : Env L) (alertData : Dict) (r : RuntimeResult) (route : Option Route)
    (team : Option TeamRow) (service : Option Service) :
    (turnsOfService env alertData r route team service).Nodup ∧
      (∀ id ∈ turnsOfService env alertData r route team service, id ∉ r.evaluatedServiceIds) ∧
      (turnsOfService env alertData r route team service).length ≤ maxServiceHandoffs := by
  have hnone : ([] : List Id).Nodup ∧ (∀ id ∈ ([] : List Id), id ∉ r.evaluatedServiceIds) ∧
      ([] : List Id).length ≤ maxServiceHandoffs :=
    ⟨List.nodup_nil, fun _ h => absurd h List.not_mem_nil, Nat.zero_le _⟩
  unfold turnsOfService
  split
  · exact hnone
  · rename_i groupId _
    split_ifs
    · exact hnone
    · obtain ⟨hnodup, hnew⟩ := turnsIn_new env groupId (textIn alertData "source") maxServiceHandoffs
        (serviceLoop env alertData r route team service)
      exact ⟨hnodup, hnew, length_turnsIn _ _ _ _ _⟩

/-- Each service has one turn, and there are not too many. -/
theorem turnsOfEvent_new (env : Env L) (alertData : Dict) : (turnsOfEvent env alertData).Nodup ∧
    (turnsOfEvent env alertData).length ≤ maxServiceHandoffs := by
  have hnone : ([] : List Id).Nodup ∧ ([] : List Id).length ≤ maxServiceHandoffs :=
    ⟨List.nodup_nil, Nat.zero_le _⟩
  unfold turnsOfEvent
  split
  · exact hnone
  · rename_i groupId _
    split
    · exact hnone
    · dsimp only
      split_ifs
      · exact hnone
      · split
        · exact ⟨(turnsIn_new env groupId _ _ _).1, length_turnsIn _ _ _ _ _⟩
        · exact hnone

/-- The result carries the turns that were taken, and no service had two. -/
theorem Passes.evaluated {ids : List Id} (h : Passes L r ids) : r.evaluatedServiceIds = ids ∧ ids.Nodup := by
  induction h with
  | intake hrun => exact ⟨turnsOfEvent_evaluated hrun, (turnsOfEvent_new _ _).1⟩
  | lifecycle _ hrun ih =>
    obtain ⟨hids, hnodup⟩ := ih
    obtain ⟨hturns, hnew, -⟩ := turnsOfService_new _ _ _ _ _ _
    refine ⟨by rw [turnsOfService_evaluated hrun, hids], List.nodup_append.mpr ⟨hnodup, hturns, ?_⟩⟩
    rintro id hid other hother rfl
    exact hnew id hother (hids.symm ▸ hid)
  | activation u db previous now _ ih => exact ⟨(evaluatedServiceIds_resumed u db _ previous now).trans ih.1, ih.2⟩

end Calls

/-- What is promised of the chains of an event: a call whatever comes of it has eight turns at
most, no service has a second one, and a chain that returns leaves the last service that was
selected. -/
structure HandoffLaw (L : Language) : Prop where
  intake : ∀ (env : Env L) alertData,
    (turnsOfEvent env alertData).Nodup ∧ (turnsOfEvent env alertData).length ≤ 8
  lifecycle : ∀ r ids, Passes L r ids → ∀ (env : Env L) alertData route team service,
    (ids ++ turnsOfService env alertData r route team service).Nodup ∧
      (turnsOfService env alertData r route team service).length ≤ 8
  chain : ∀ (env : Env L) groupId source s,
    (turnsIn env groupId source maxServiceHandoffs s).length ≤ 8 ∧
      ∀ t, evaluateServiceChain env groupId source maxServiceHandoffs s = .ok t →
        t.service = lastSelected (appliedInChain env groupId source maxServiceHandoffs s) s.service ∧
          ∀ a ∈ appliedInChain env groupId source maxServiceHandoffs s, ∀ service ∈ a.selectedService,
            some service.id = a.result.state.result.routing.serviceId

/-- **Handoffs end**, with one turn for each service of an event. -/
theorem service_handoffs (L : Language) : HandoffLaw L := by
  refine ⟨fun env alertData => turnsOfEvent_new env alertData, ?_, ?_⟩
  · intro r ids hpasses env alertData route team service
    obtain ⟨hids, hnodup⟩ := hpasses.evaluated
    obtain ⟨hturns, hnew, hlength⟩ := turnsOfService_new env alertData r route team service
    refine ⟨List.nodup_append.mpr ⟨hnodup, hturns, ?_⟩, hlength⟩
    rintro id hid other hother rfl
    exact hnew id hother (hids.symm ▸ hid)
  · intro env groupId source s
    refine ⟨length_turnsIn env groupId source maxServiceHandoffs s, fun t hrun => ?_⟩
    cases hservice : s.service with
    | none =>
      -- the chain has nothing to do
      have hnone : s.nextService = none := by
        unfold Loop.nextService
        rw [hservice]
        rfl
      have hempty : appliedInChain env groupId source maxServiceHandoffs s = [] := by
        unfold maxServiceHandoffs
        rw [appliedInChain, hnone]
      rw [evaluateServiceChain_done hnone] at hrun
      cases hrun
      rw [hempty]
      exact ⟨hservice, fun _ ha => absurd ha List.not_mem_nil⟩
    | some service =>
      have hlast := Rounds.service (evaluateServiceChain_rounds hrun) (hservice ▸ rfl)
      rw [hservice] at hlast
      exact hlast

end IncidentRelay.Orchestration
