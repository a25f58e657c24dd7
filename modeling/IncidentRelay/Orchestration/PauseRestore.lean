import IncidentRelay.Orchestration.Containment
import IncidentRelay.Orchestration.Linked
import IncidentRelay.Redaction
import IncidentRelay.Routing.FindRoute

/-!
# Pausing an event and restoring its decision

A paused event keeps `to_dict()` of its runtime result, redacted, in its pending
row. `restore_runtime_result` reads it back at activation. Two fields do not come
back as they were: whether the route was selected by an orchestration, which
`to_dict` leaves out, and a group key that the redaction changes.

* `round_trip_iff` — exactly when the decision and its route are those of the
  event that was paused;
* `selected_route_forgotten` — a pause after a selected route.
-/

namespace IncidentRelay.Orchestration

open Json Redaction RouteSelection

/-! ## Texts of the enumerations -/

def Scope.text : Scope → String
  | .global => "global"
  | .service => "service"

def Mode.text : Mode → String
  | .active => "active"
  | .shadow => "shadow"
  | .disabled => "disabled"

def Scope.ofText (text : String) : Option Scope :=
  [Scope.global, .service].find? fun s => s.text = text

def Mode.ofText (text : String) : Option Mode :=
  [Mode.active, .shadow, .disabled].find? fun m => m.text = text

def CompatibilityMode.ofText (text : String) : Option CompatibilityMode :=
  [CompatibilityMode.legacy, .hybrid, .orchestration].find? fun m => m.text = text

def Disposition.ofText (text : String) : Option Disposition :=
  [Disposition.process, .suppress, .pause, .drop].find? fun d => d.text = text

def TraceLevel.ofText (text : String) : Option TraceLevel :=
  [TraceLevel.full, .compact, .disabled].find? fun l => l.text = text

def HistoryLevel.ofText (text : String) : Option HistoryLevel :=
  [HistoryLevel.full, .initial, .disabled].find? fun l => l.text = text

def PauseRetrigger.ofText (text : String) : Option PauseRetrigger :=
  [PauseRetrigger.preserve, .reset].find? fun r => r.text = text

/-! ## Writing -/

def optId (id : Option Id) : Json := optNat (id.map fun n : Id => (n : Nat))

/-- `step.to_dict()`, without the duration. -/
def RuntimeStep.toDict (s : RuntimeStep) : Dict :=
  [("orchestration_id", .int s.orchestrationId), ("version_id", optId s.versionId),
    ("scope", .str s.scope.text), ("mode", .str s.mode.text),
    ("compatibility_mode", .str s.compatibilityMode.text), ("applied", .bool s.applied),
    ("execution_id", optId s.executionId), ("matched_rule_count", .int s.matchedRuleCount),
    ("outcome", .str s.outcome), ("error", optText s.error)]

/-- `runtime.to_dict()`. -/
def RuntimeResult.toDict (r : RuntimeResult) : Dict :=
  [("group_id", optId r.groupId), ("compatibility_mode", .str r.compatibilityMode.text),
    ("route_id", optId (r.route.map (·.id))), ("team_id", optId (r.team.map (·.id))),
    ("service_id", optId (r.service.map (·.id))),
    ("escalation_policy_id", optId (r.escalationPolicy.map (·.id))),
    ("priority_policy_id", optId (r.priorityPolicy.map (·.id))),
    ("notification_policy_id", optId (r.notificationPolicy.map (·.id))),
    ("group_key", r.groupKey.getD .null),
    ("grouping_window_seconds", optNat r.groupingWindowSeconds),
    ("grouping_reopen_window_seconds", .int r.groupingReopenWindowSeconds),
    ("trace_level", optText (r.traceLevel.map TraceLevel.text)),
    ("alert_event_history", optText (r.alertEventHistory.map HistoryLevel.text)),
    ("blocked", .bool r.blocked), ("reason", optText r.reason),
    ("disposition", .str r.disposition.text),
    ("disposition_reason", optText r.dispositionReason),
    ("pause_seconds", optNat r.pauseSeconds), ("pause_retrigger", .str r.pauseRetrigger.text),
    ("disposition_orchestration_id", optId r.dispositionOrchestrationId),
    ("disposition_version_id", optId r.dispositionVersionId),
    ("evaluated_service_ids", .list (r.evaluatedServiceIds.map fun n : Id => .int n)),
    ("steps", .list (r.steps.map fun s => .obj s.toDict))]

/-- `runtime.execution_ids`. -/
def RuntimeResult.executionIds (r : RuntimeResult) : List Id := r.steps.filterMap (·.executionId)

def asList : Json → List Json
  | .list xs => xs
  | _ => []

/-- `_runtime_context(runtime, previous)`. -/
def runtimeContext (u : CharClasses) (r : RuntimeResult) (previous : Dict) (now : String) : Dict :=
  let updates := asList (previous.getD "updates")
  let update := Json.obj [("at", .str now),
    ("execution_ids", .list (r.executionIds.map fun n : Id => .int n)),
    ("disposition", .str r.disposition.text)]
  redactEntries u [("runtime", .obj r.toDict),
    ("updates", .list (updates.drop (updates.length - 49) ++ [update]))]

/-- The keys of the alert data that are stored. -/
def storedKey (key : String) : Bool :=
  key != "raw" && !"_orchestration_".toList.isPrefixOf key.toList

/-- `_event_for_storage(alert_data)`. -/
def eventForStorage (alertData : Dict) : Dict := alertData.filter fun kv => storedKey kv.1

/-! ## Reading -/

def natOf : Json → Option Nat
  | .int n => some n.toNat
  | _ => none

def textOf : Json → Option String
  | .str s => some s
  | _ => none

def flagOf : Json → Bool
  | .bool b => b
  | _ => false

/-- `value`, with Python's `None` as nothing. -/
def valueOf : Json → Option Json
  | .null => none
  | v => some v

/-- `RuntimeStep(**item)`. -/
def restoreStep (item : Json) : Option RuntimeStep := do
  let data := item.asDict
  .some {
    orchestrationId := ← idOf (data.getD "orchestration_id")
    versionId := idOf (data.getD "version_id")
    scope := ← (textOf (data.getD "scope")).bind Scope.ofText
    mode := ← (textOf (data.getD "mode")).bind Mode.ofText
    compatibilityMode := ←
      (textOf (data.getD "compatibility_mode")).bind CompatibilityMode.ofText
    applied := flagOf (data.getD "applied")
    executionId := idOf (data.getD "execution_id")
    matchedRuleCount := ← natOf (data.getD "matched_rule_count")
    outcome := ← textOf (data.getD "outcome")
    error := textOf (data.getD "error") }

/-- `restore_runtime_result(data)`. -/
def restoreRuntimeResult (db : Entities) (data : Dict) : RuntimeResult :=
  let find {α : Type} (key : α → Id) (rows : List α) (name : String) : Option α :=
    (idOf (data.getD name)).bind (byId key rows)
  let route := find (·.id) db.routes "route_id"
  { groupId := idOf (data.getD "group_id")
    compatibilityMode :=
      ((textOf (data.getD "compatibility_mode")).bind CompatibilityMode.ofText).getD .legacy
    route
    team := find (fun t : TeamRow => t.id) db.teams "team_id" <|> route.map (·.team)
    service := find (·.id) db.services "service_id"
    escalationPolicy := find (·.id) db.escalationPolicies "escalation_policy_id"
    priorityPolicy := find (·.id) db.priorityPolicies "priority_policy_id"
    notificationPolicy := find (·.id) db.notificationPolicies "notification_policy_id"
    groupKey := valueOf (data.getD "group_key")
    groupingWindowSeconds := natOf (data.getD "grouping_window_seconds")
    groupingReopenWindowSeconds := (natOf (data.getD "grouping_reopen_window_seconds")).getD 0
    traceLevel := (textOf (data.getD "trace_level")).bind TraceLevel.ofText
    alertEventHistory := (textOf (data.getD "alert_event_history")).bind HistoryLevel.ofText
    routeSelectedByOrchestration := (data.getD "route_selected_by_orchestration").truthy
    steps := (asList (data.getD "steps")).filterMap restoreStep
    blocked := flagOf (data.getD "blocked")
    reason := textOf (data.getD "reason")
    disposition := ((textOf (data.getD "disposition")).bind Disposition.ofText).getD .process
    dispositionReason := textOf (data.getD "disposition_reason")
    pauseSeconds := natOf (data.getD "pause_seconds")
    pauseRetrigger :=
      ((textOf (data.getD "pause_retrigger")).bind PauseRetrigger.ofText).getD .preserve
    dispositionOrchestrationId := idOf (data.getD "disposition_orchestration_id")
    dispositionVersionId := idOf (data.getD "disposition_version_id")
    evaluatedServiceIds := (asList (data.getD "evaluated_service_ids")).filterMap idOf }

/-- `_activation_runtime(row)` on the row's context. -/
def activationRuntime (db : Entities) (context : Dict) : RuntimeResult :=
  { restoreRuntimeResult db (context.getD "runtime").asDict with
    disposition := .process
    dispositionReason := none
    pauseSeconds := none
    pauseRetrigger := .preserve }

/-! ## What is written is read -/

section RoundTrip

variable (u : CharClasses)

theorem redactString_text {α : Type} {text : α → String} (h : ∀ a, Plain (text a).toList) (a : α) :
    redactString u (text a) = text a := redactString_of_plain u (h a)

/-- An id is restored. -/
@[simp] theorem idOf_optId (id : Option Id) : idOf (redactSecrets u (optId id)) = id := by
  cases id with
  | none => rfl
  | some n =>
    have hpos : 0 < ((n : Nat) : Int).toNat := by
      rw [Int.toNat_natCast]
      exact n.pos
    show (if h : 0 < ((n : Nat) : Int).toNat then some (⟨((n : Nat) : Int).toNat, h⟩ : Id)
      else none) = some n
    rw [dif_pos hpos]
    rfl

@[simp] theorem idOf_int (n : Id) : idOf (.int ((n : Nat) : Int)) = some n :=
  idOf_optId ⟨fun _ => false, fun _ => false⟩ (some n)

@[simp] theorem natOf_optNat (n : Option Nat) : natOf (redactSecrets u (optNat n)) = n := by
  cases n with
  | none => rfl
  | some n => rfl

/-- A text is restored as redacted. -/
@[simp] theorem textOf_optText (s : Option String) :
    textOf (redactSecrets u (optText s)) = s.map (redactString u) := by
  cases s with
  | none => rfl
  | some s => rfl

@[simp] theorem textOf_str (s : String) : textOf (.str s) = some s := rfl

@[simp] theorem natOf_natCast (n : Nat) : natOf (.int n) = some n := rfl

@[simp] theorem flagOf_bool (b : Bool) : flagOf (.bool b) = b := rfl

@[simp] theorem asList_list (xs : List Json) : asList (.list xs) = xs := rfl

/-- A value is redacted where it is read. -/
theorem getD_redactEntries {key : String} (hkey : isSensitiveKey key = false) (kvs : Dict) :
    Dict.getD (redactEntries u kvs) key = redactSecrets u (Dict.getD kvs key) := by
  unfold Dict.getD
  rw [get_redactEntries u hkey]
  cases Dict.get kvs key with
  | none => rfl
  | some v => rfl

@[simp] theorem scope_restored (s : Scope) :
    Scope.ofText (redactString u s.text) = some s := by
  rw [redactString_text u (by intro s; cases s <;> decide)]
  cases s <;> decide

@[simp] theorem mode_restored (m : Mode) : Mode.ofText (redactString u m.text) = some m := by
  rw [redactString_text u (by intro m; cases m <;> decide)]
  cases m <;> decide

@[simp] theorem compatibilityMode_restored (m : CompatibilityMode) :
    CompatibilityMode.ofText (redactString u m.text) = some m := by
  rw [redactString_text u (by intro m; cases m <;> decide)]
  cases m <;> decide

@[simp] theorem disposition_restored (d : Disposition) :
    Disposition.ofText (redactString u d.text) = some d := by
  rw [redactString_text u (by intro d; cases d <;> decide)]
  cases d <;> decide

@[simp] theorem traceLevel_restored (l : TraceLevel) :
    TraceLevel.ofText (redactString u l.text) = some l := by
  rw [redactString_text u (by intro l; cases l <;> decide)]
  cases l <;> decide

@[simp] theorem historyLevel_restored (l : HistoryLevel) :
    HistoryLevel.ofText (redactString u l.text) = some l := by
  rw [redactString_text u (by intro l; cases l <;> decide)]
  cases l <;> decide

@[simp] theorem pauseRetrigger_restored (r : PauseRetrigger) :
    PauseRetrigger.ofText (redactString u r.text) = some r := by
  rw [redactString_text u (by intro r; cases r <;> decide)]
  cases r <;> decide

/-- An optional text is restored when each text is. -/
theorem option_restored {α : Type} {write : α → String} {read : String → Option α}
    (h : ∀ a, read (redactString u (write a)) = some a) (x : Option α) :
    ((x.map (redactString u ∘ write)).bind fun text => read text) = x := by
  cases x with
  | none => rfl
  | some a =>
    show read (redactString u (write a)) = some a
    exact h a

/-- A step as it comes back. -/
def RuntimeStep.restored (s : RuntimeStep) : RuntimeStep :=
  { s with outcome := redactString u s.outcome, error := s.error.map (redactString u) }

/-- A step is restored with its texts redacted. -/
theorem restoreStep_redacted (s : RuntimeStep) :
    restoreStep (redactSecrets u (.obj s.toDict)) = some (s.restored u) := by
  have hread : ∀ key ∈ ["orchestration_id", "version_id", "scope", "mode", "compatibility_mode",
      "applied", "execution_id", "matched_rule_count", "outcome", "error"],
      Dict.getD (redactEntries u s.toDict) key = redactSecrets u (Dict.getD s.toDict key) :=
    fun key hkey => getD_redactEntries u ((by decide +kernel :
      ∀ key ∈ ["orchestration_id", "version_id", "scope", "mode", "compatibility_mode", "applied",
        "execution_id", "matched_rule_count", "outcome", "error"],
        isSensitiveKey key = false) key hkey) _
  unfold restoreStep
  simp only [redactSecrets, asDict, hread, List.mem_cons, true_or, or_true]
  simp [RuntimeStep.toDict, RuntimeStep.restored, Dict.getD, Dict.get_cons, redactSecrets]

end RoundTrip

/-- A row is found again under the id that was written. -/
theorem find_written {α : Type} {key : α → Id} {rows : List α} (hkey : (rows.map key).Nodup)
    {row : Option α} (hrow : ∀ x ∈ row, x ∈ rows) : (row.map key).bind (byId key rows) = row := by
  cases row with
  | none => rfl
  | some x => exact byId_self hkey (hrow x rfl)

/-- A result as it comes back. -/
def RuntimeResult.restored (u : CharClasses) (r : RuntimeResult) : RuntimeResult :=
  { r with
    groupKey := r.groupKey.map (redactSecrets u)
    routeSelectedByOrchestration := false
    steps := r.steps.map (·.restored u)
    reason := r.reason.map (redactString u)
    dispositionReason := r.dispositionReason.map (redactString u)
    context := none }

/-- `valueOf` after the redaction. -/
theorem valueOf_redacted (u : CharClasses) {v : Option Json} (h : ∀ x ∈ v, x ≠ .null) :
    valueOf (redactSecrets u (v.getD .null)) = v.map (redactSecrets u) := by
  cases v with
  | none => rfl
  | some x =>
    have hx : redactSecrets u x ≠ .null := fun hnull => h x rfl ((redactSecrets_eq_null u).mp hnull)
    show valueOf (redactSecrets u x) = some (redactSecrets u x)
    unfold valueOf
    split
    · rename_i hnull
      exact absurd hnull hx
    · rfl

/-- The keys of `to_dict`. -/
def runtimeKeys : List String :=
  ["group_id", "compatibility_mode", "route_id", "team_id", "service_id", "escalation_policy_id",
    "priority_policy_id", "notification_policy_id", "group_key", "grouping_window_seconds",
    "grouping_reopen_window_seconds", "trace_level", "alert_event_history", "blocked", "reason",
    "disposition", "disposition_reason", "pause_seconds", "pause_retrigger",
    "disposition_orchestration_id", "disposition_version_id", "evaluated_service_ids", "steps",
    "route_selected_by_orchestration"]

theorem runtimeKeys_not_sensitive : ∀ key ∈ runtimeKeys, isSensitiveKey key = false := by
  decide +kernel

/-- The entities are found under the ids that were written. -/
structure Found (db : Entities) (r : RuntimeResult) : Prop where
  route : (r.route.map (·.id)).bind (byId (·.id) db.routes) = r.route
  team : (r.team.map (·.id)).bind (byId (fun t : TeamRow => t.id) db.teams) = r.team
  service : (r.service.map (·.id)).bind (byId (·.id) db.services) = r.service
  escalation :
    (r.escalationPolicy.map (·.id)).bind (byId (·.id) db.escalationPolicies) = r.escalationPolicy
  priority : (r.priorityPolicy.map (·.id)).bind (byId (·.id) db.priorityPolicies) = r.priorityPolicy
  notification : (r.notificationPolicy.map (·.id)).bind (byId (·.id) db.notificationPolicies) =
    r.notificationPolicy

/-- A runtime of rows is found again. -/
theorem RuntimeResult.Linked.found {db : Entities} {r : RuntimeResult} (h : r.Linked db) :
    Found db r where
  route := find_written db.routes_key h.selection.route
  team := find_written db.teams_key h.selection.team
  service := find_written db.services_key h.selection.service
  escalation := find_written db.escalation_key h.selection.escalation
  priority := find_written db.priority_key h.selection.priority
  notification := find_written db.notification_key h.selection.notification

/-- The ids of a list come back. -/
theorem ids_restored (u : CharClasses) (ids : List Id) :
    (redactItems u (ids.map fun n : Id => .int n)).filterMap idOf = ids := by
  have hid : (idOf ∘ redactSecrets u ∘ fun n : Id => Json.int ((n : Nat) : Int)) = some :=
    funext idOf_int
  rw [redactItems_eq_map, List.map_map, List.filterMap_map, hid, List.filterMap_some]

/-- **What is restored of a result whose entities are in the tables.** -/
theorem restore_redacted (u : CharClasses) {db : Entities} {r : RuntimeResult} (h : r.Linked db) :
    restoreRuntimeResult db (redactEntries u r.toDict) = r.restored u := by
  -- the keys are not secret words, so each is read back as it was written
  have hread : ∀ key ∈ runtimeKeys,
      Dict.getD (redactEntries u r.toDict) key = redactSecrets u (Dict.getD r.toDict key) :=
    fun key hkey => getD_redactEntries u (runtimeKeys_not_sensitive key hkey) _
  have hsteps : (redactItems u (r.steps.map fun s => .obj s.toDict)).filterMap restoreStep =
      r.steps.map (·.restored u) := by
    rw [redactItems_eq_map, List.map_map, List.filterMap_map, List.filterMap_eq_map_iff_forall_eq_some.mpr]
    intro s _
    exact restoreStep_redacted u s
  have hservices : (redactItems u (r.evaluatedServiceIds.map fun n : Id => .int n)).filterMap idOf =
      r.evaluatedServiceIds := ids_restored u r.evaluatedServiceIds
  -- the route, when there is one, has the team of the result
  have hteam : (r.team <|> r.route.map (·.team)) = r.team := by
    cases hr : r.route with
    | none => cases r.team <;> rfl
    | some route =>
      obtain ⟨team, ht⟩ : ∃ team, r.team = some team := Option.isSome_iff_exists.mp (h.selection.route_team (show r.route.isSome = true by rw [hr]; rfl))
      rw [ht]
      rfl
  have hrow := h.found
  unfold restoreRuntimeResult
  simp (disch := decide) only [hread]
  simp [RuntimeResult.toDict, RuntimeResult.restored, Dict.getD, Dict.get_cons, redactSecrets,
    hrow.route, hrow.team, hrow.service, hrow.escalation, hrow.priority, hrow.notification,
    valueOf_redacted u h.groupKey, hteam, hsteps, hservices]
  exact ⟨option_restored u (traceLevel_restored u) _, option_restored u (historyLevel_restored u) _,
    rfl⟩

/-! ## The event -/

/-- Only the keys that are dropped are gone from the stored event. -/
theorem get_eventForStorage {key : String} (hkey : storedKey key = true) (alertData : Dict) :
    Dict.get (eventForStorage alertData) key = Dict.get alertData key := by
  unfold eventForStorage
  induction alertData with
  | nil => rfl
  | cons kv rest ih =>
    obtain ⟨k, v⟩ := kv
    by_cases hk : k = key
    · subst hk
      rw [List.filter_cons_of_pos (by exact hkey), Dict.get_cons, Dict.get_cons, if_pos rfl,
        if_pos rfl]
    · rw [Dict.get_cons, if_neg hk, ← ih]
      cases hstored : storedKey k with
      | true => rw [List.filter_cons_of_pos (by exact hstored), Dict.get_cons, if_neg hk]
      | false => rw [List.filter_cons_of_neg (by rw [hstored]; exact Bool.false_ne_true)]

/-- The stored event is routed as the event was. -/
theorem sameRouting_eventForStorage (alertData : Dict) :
    SameRouting (eventForStorage alertData) alertData := fun key hkey =>
  get_eventForStorage ((by decide : ∀ key ∈ routingKeys, storedKey key = true) key hkey) alertData

/-! ## The round trip -/

/-- What the upsert of an alert reads of a runtime result. -/
structure Decision where
  groupId : Option Id
  compatibilityMode : CompatibilityMode
  route : Option Route
  team : Option TeamRow
  service : Option Service
  escalationPolicy : Option Policy
  priorityPolicy : Option Policy
  notificationPolicy : Option Policy
  routeSelectedByOrchestration : Bool
  groupKey : Option Json
  groupingWindowSeconds : Option Nat
  groupingReopenWindowSeconds : Nat
  alertEventHistory : Option HistoryLevel
  traceLevel : Option TraceLevel
  evaluatedServiceIds : List Id
  executionIds : List Id
  blocked : Bool
  deriving DecidableEq

def RuntimeResult.decision (r : RuntimeResult) : Decision :=
  { groupId := r.groupId
    compatibilityMode := r.compatibilityMode
    route := r.route
    team := r.team
    service := r.service
    escalationPolicy := r.escalationPolicy
    priorityPolicy := r.priorityPolicy
    notificationPolicy := r.notificationPolicy
    routeSelectedByOrchestration := r.routeSelectedByOrchestration
    groupKey := r.groupKey
    groupingWindowSeconds := r.groupingWindowSeconds
    groupingReopenWindowSeconds := r.groupingReopenWindowSeconds
    alertEventHistory := r.alertEventHistory
    traceLevel := r.traceLevel
    evaluatedServiceIds := r.evaluatedServiceIds
    executionIds := r.executionIds
    blocked := r.blocked }

/-- The result that activation finds for a result that was stored. -/
def resumed (u : CharClasses) (db : Entities) (r : RuntimeResult) (previous : Dict) (now : String) :
    RuntimeResult :=
  activationRuntime db (runtimeContext u r previous now)

/-- The results of `run_event_orchestration`, and of `run_service_orchestration`
after it, with the alert data they leave. -/
inductive Produced {L : Language} (env : Env L) : RuntimeResult → Dict → Prop where
  | event {alertData data : Dict} {r : RuntimeResult} :
      runEventOrchestration env alertData = .ok (r, data) → Produced env r data
  | service {data data' : Dict} {r r' : RuntimeResult} {route : Route} {service : Service} :
      Produced env r data → route ∈ env.db.routes → service ∈ env.db.services →
      runServiceOrchestration env data r (some route) (some route.team) (some service) =
        .ok (r', data') →
      Produced env r' data'

/-- The decision comes back, and with it the route of the event. -/
structure RoundTrip (u : CharClasses) (db : Entities) (accepts : Matching) (r : RuntimeResult)
    (data : Dict) : Prop where
  decision : ∀ previous now, (resumed u db r previous now).decision = r.decision
  route : ∀ previous now currentRoute,
    routeForRuntime db accepts (eventForStorage data) (some (resumed u db r previous now))
      currentRoute = routeForRuntime db accepts data (some r) currentRoute

section

variable {L : Language} {env : Env L} {r : RuntimeResult} {data : Dict}

/-- By induction on how the result was made: either run ends in a linked one. -/
theorem Produced.linked (h : Produced env r data) : r.Linked env.db := by
  induction h with
  | event hrun => exact runEventOrchestration_linked hrun
  | @service data data' r r' route service _ hroute hservice hrun ih =>
    refine runServiceOrchestration_linked ih ?_ ?_ ?_ (fun _ => rfl) hrun
    · intro x hx
      cases hx
      exact hroute
    · intro x hx
      cases hx
      exact env.db.route_team route hroute
    · intro x hx
      cases hx
      exact hservice

/-- What activation finds. -/
theorem resumed_eq (u : CharClasses) {db : Entities} (h : r.Linked db) (previous : Dict)
    (now : String) : resumed u db r previous now =
      { r.restored u with
        disposition := .process, dispositionReason := none, pauseSeconds := none,
        pauseRetrigger := .preserve } := by
  have hruntime : (Dict.getD (runtimeContext u r previous now) "runtime").asDict =
      redactEntries u r.toDict := by
    unfold runtimeContext
    rw [getD_redactEntries u (by decide +kernel : isSensitiveKey "runtime" = false)]
    simp [Dict.getD, Dict.get_cons, redactSecrets, asDict]
  unfold resumed activationRuntime
  rw [hruntime, restore_redacted u h]

/-- The executions are restored. -/
theorem executionIds_restored (u : CharClasses) : (r.restored u).executionIds = r.executionIds := by
  unfold RuntimeResult.executionIds RuntimeResult.restored
  rw [List.filterMap_map]
  refine List.filterMap_congr fun s _ => ?_
  dsimp only [Function.comp_apply, RuntimeStep.restored]

/-- **The decision of a paused event comes back exactly when its route was not
selected by an orchestration and the redaction leaves its group key.** -/
theorem round_trip_iff (u : CharClasses) (accepts : Matching) (h : Produced env r data) :
    RoundTrip u env.db accepts r data ↔
      r.routeSelectedByOrchestration = false ∧ ∀ key ∈ r.groupKey, redactSecrets u key = key := by
  have hresumed := resumed_eq u h.linked
  have hkey : r.groupKey.map (redactSecrets u) = r.groupKey ↔
      ∀ key ∈ r.groupKey, redactSecrets u key = key := by
    cases r.groupKey with
    | none => simp
    | some key => simp
  constructor
  · rintro ⟨hdecision, -⟩
    -- the decision of two results is compared with no alert there
    have heq := hdecision [] ""
    rw [hresumed] at heq
    exact ⟨(congrArg Decision.routeSelectedByOrchestration heq).symm,
      hkey.mp (congrArg Decision.groupKey heq)⟩
  · rintro ⟨hflag, hgroupKey⟩
    have hgroupKey := hkey.mpr hgroupKey
    -- both halves ask for the state before, which the restored result keeps
    constructor
    · intro previous now
      have hids : (resumed u env.db r previous now).executionIds = r.executionIds := by
        rw [hresumed]
        exact executionIds_restored u
      unfold RuntimeResult.decision
      rw [hids, hresumed]
      dsimp only [RuntimeResult.restored]
      rw [hgroupKey, hflag]
    · intro previous now currentRoute
      have hfind := findRouteForAlert_congr env.db accepts (sameRouting_eventForStorage data)
      rw [hresumed]
      unfold routeForRuntime
      dsimp only [RuntimeResult.restored]
      rw [hflag, hfind]

end

/-! ## A pause after a selected route -/

/-- Selects a route and pauses for a minute. -/
def selectAndPause : Rule plainLanguage :=
  .mk true .continue () [.run (.setRouting .route 1) .continue,
    .run (.pause 60 .preserve none) .continue] []

def pauseEnv : Env plainLanguage :=
  { opsEnv with orchestrations :=
      [{ hybridGlobal with published := some { id := 1, rules := [selectAndPause] } }] }

def diskAlert : Dict :=
  [("source", .str "webhook"), ("title", .str "Disk full"), ("status", .str "firing"),
    ("forced_route_id", .int 1), ("dedup_key", .str "disk")]

def asciiClasses : CharClasses := { alnum := Char.isAlphanum, decimal := Char.isDigit }

/-- The result of a run, when there is one. -/
def resultOf (run : Except PyError (RuntimeResult × Dict)) : RuntimeResult × Dict :=
  match run with
  | .ok result => result
  | .error _ => ({}, [])

/-- A run that returned is its result. -/
theorem eq_resultOf {run : Except PyError (RuntimeResult × Dict)} (h : run.isOk = true) :
    run = .ok ((resultOf run).1, (resultOf run).2) := by
  cases run with
  | error e => cases h
  | ok result => rfl

def pausedRun : RuntimeResult × Dict := resultOf (runEventOrchestration pauseEnv diskAlert)

/-- The selected route takes the event whatever its conditions say. After the pause
its conditions decide, and the event has no route. -/
theorem selected_route_forgotten :
    Produced pauseEnv pausedRun.1 pausedRun.2 ∧ pausedRun.1.disposition = .pause ∧
    routeForRuntime opsTables (fun _ _ => false) pausedRun.2 (some pausedRun.1) none =
      .ok (some opsRoute) ∧
    routeForRuntime opsTables (fun _ _ => false) (eventForStorage pausedRun.2)
      (some (resumed asciiClasses opsTables pausedRun.1 [] "")) none = .ok none ∧
    ¬RoundTrip asciiClasses opsTables (fun _ _ => false) pausedRun.1 pausedRun.2 := by
  -- the run of the worker, evaluated once
  obtain ⟨hrun, hpause, hbefore, hafter⟩ :
      (runEventOrchestration pauseEnv diskAlert).isOk = true ∧
      pausedRun.1.disposition = .pause ∧
      routeForRuntime opsTables (fun _ _ => false) pausedRun.2 (some pausedRun.1) none =
        .ok (some opsRoute) ∧
      routeForRuntime opsTables (fun _ _ => false) (eventForStorage pausedRun.2)
        (some (resumed asciiClasses opsTables pausedRun.1 [] "")) none = .ok none := by
    decide +kernel
  refine ⟨.event (eq_resultOf hrun), hpause, hbefore, hafter, ?_⟩
  rintro ⟨-, hroute⟩
  have heq := hroute [] "" none
  rw [hbefore, hafter] at heq
  cases heq

/-- Pauses for a minute. -/
def pauseOnlyEnv : Env plainLanguage :=
  { opsEnv with orchestrations :=
      [{ hybridGlobal with published := some { id := 1, rules :=
          [.mk true .continue () [.run (.pause 60 .preserve none) .continue] []] } }] }

def pauseOnlyRun : RuntimeResult × Dict := resultOf (runEventOrchestration pauseOnlyEnv diskAlert)

/-- A pause alone comes back. -/
theorem round_trip_sample :
    pauseOnlyRun.1.disposition = .pause ∧
      RoundTrip asciiClasses opsTables (fun _ _ => true) pauseOnlyRun.1 pauseOnlyRun.2 := by
  obtain ⟨hrun, hpause, hflag, hkey⟩ :
      (runEventOrchestration pauseOnlyEnv diskAlert).isOk = true ∧
      pauseOnlyRun.1.disposition = .pause ∧
      pauseOnlyRun.1.routeSelectedByOrchestration = false ∧ pauseOnlyRun.1.groupKey = none := by
    decide +kernel
  have hproduced : Produced pauseOnlyEnv pauseOnlyRun.1 pauseOnlyRun.2 := .event (eq_resultOf hrun)
  refine ⟨hpause, (round_trip_iff asciiClasses (fun _ _ => true) hproduced).mpr ⟨hflag, ?_⟩⟩
  rw [hkey]
  simp

end IncidentRelay.Orchestration
