import IncidentRelay.Orchestration.Validated
import IncidentRelay.Orchestration.Webhooks

/-!
# What the walk reads back

The requests that the walk over the stored trace yields (`walkRules_reads`): those of the
rules on the levels up to 3 as they are, those of level 4 not at all, and a rule on a
level below makes it raise.
-/

namespace IncidentRelay.Orchestration

open Json Redaction

/-! ## What the rules ask for -/

/-- An entry of the trace, with its level in the tree. -/
structure NestedRule (L : Language) where
  level : ℕ
  path : String
  steps : List (ActionStep L)

section Asked

variable {L : Language}

mutual
/-- An entry, and those below it. -/
def RuleTrace.nested (level : ℕ) : RuleTrace L → List (NestedRule L)
  | .mk path _ _ steps children => ⟨level, path, steps⟩ :: nestedRules (level + 1) children

def nestedRules (level : ℕ) : List (RuleTrace L) → List (NestedRule L)
  | [] => []
  | trace :: traces => trace.nested level ++ nestedRules level traces
end

/-- The webhook that a step asked for. -/
def ActionStep.webhook (step : ActionStep L) : Option Int :=
  match step.action with
  | .run (.enqueueWebhook actionId) _ => if step.success then some actionId else none
  | _ => none

def NestedRule.requests (rule : NestedRule L) : List (Int × String) :=
  (rule.steps.filterMap ActionStep.webhook).map (·, rule.path)

/-- The webhooks that the rules asked for, in order. -/
def requestsOf (rules : List (NestedRule L)) : List (Int × String) :=
  rules.flatMap NestedRule.requests

end Asked

/-! ## A step of the stored trace -/

section Steps

variable {L : Language} {d : TraceDetails L} {u : CharClasses}

/-- `safe_obj` with the default limits. -/
theorem stored_obj (u : CharClasses) (depth : ℕ) (kvs : Dict) (h : depth ≤ 12)
    (hlength : kvs.length ≤ 512) :
    ∃ safe : Dict, safeTraceValue {} u depth (.obj kvs) = .obj safe ∧
      ∀ key, isSensitiveKey key = false →
        Dict.get safe key = (Dict.get kvs key).map (safeTraceValue {} u (depth + 1)) :=
  safe_obj h hlength

/-- The value of a stored object under a key. -/
theorem safe_getD {safe : Dict} {kvs : Dict} {depth : ℕ} {key : String} {value : Json}
    (hsafe : ∀ key, isSensitiveKey key = false →
      Dict.get safe key = (Dict.get kvs key).map (safeTraceValue {} u depth))
    (hkey : isSensitiveKey key = false) (hvalue : Dict.get kvs key = some value) :
    Dict.getD safe key = safeTraceValue {} u depth value := by
  unfold Dict.getD
  rw [hsafe key hkey, hvalue]
  rfl

/-- `SUPPORTED_ACTION_TYPES`, but for `enqueue_webhook`. -/
def otherActionTypes : List String :=
  ["extract_regex", "copy_field", "copy_to_variable", "json_path", "split", "set_variable",
    "static", "lowercase", "uppercase", "trim", "set_title", "set_message", "set_description",
    "set_severity", "set_priority", "set_dedup_key", "set_group_key", "set_route", "set_team",
    "set_service", "set_escalation_policy", "set_notification_policy", "set_priority_policy",
    "set_event_action", "set_trace_level", "set_alert_event_history", "set_label",
    "remove_label", "set_custom_field", "remove_custom_field", "set_grouping", "add_note",
    "suppress", "drop", "pause"]

/-- The type of an action is one of a fixed list, unless it asks for a webhook. -/
theorem body_type (body : ActionBody) :
    (∃ actionId, body = .enqueueWebhook actionId) ∨ body.type ∈ otherActionTypes := by
  cases body with
  | enqueueWebhook actionId => exact .inl ⟨actionId, rfl⟩
  | setText field value =>
    refine .inr ?_
    cases field <;> simp [ActionBody.type, TextField.name, otherActionTypes]
  | setRouting target id =>
    refine .inr ?_
    cases target <;> simp [ActionBody.type, RoutingTarget.type, otherActionTypes]
  | setPolicy kind id =>
    refine .inr ?_
    cases kind <;> simp [ActionBody.type, PolicyKind.type, otherActionTypes]
  | _ => exact .inr (by simp [ActionBody.type, otherActionTypes])

theorem step_type (step : ActionStep L) :
    (∃ actionId f, step.action = .run (.enqueueWebhook actionId) f) ∨
      step.type d ∈ otherActionTypes ∧ step.webhook = none := by
  obtain ⟨index, action, success, outcome⟩ := step
  cases action with
  | extract extractor =>
    refine .inr ⟨?_, rfl⟩
    show (d.extractionType extractor).text ∈ _
    cases d.extractionType extractor <;> simp [ExtractionType.text, otherActionTypes]
  | run body f =>
    rcases body_type body with ⟨actionId, rfl⟩ | htype
    · exact .inl ⟨actionId, f, rfl⟩
    · refine .inr ⟨htype, ?_⟩
      cases body with
      | enqueueWebhook actionId =>
        have hother : ("enqueue_webhook" ∈ otherActionTypes) = False := by
          simp [otherActionTypes]
        exact (hother.mp htype).elim
      | _ => rfl

/-- No type has a mark of a secret, and no other one is that of a webhook. -/
theorem otherActionTypes_plain : ∀ type ∈ otherActionTypes,
    type.length ≤ 2048 ∧ Plain type.toList ∧ type ≠ "enqueue_webhook" := by
  decide +kernel

/-- A type is kept by the trace. -/
theorem step_type_kept {depth : ℕ} (h : depth ≤ 12) (step : ActionStep L) :
    safeTraceValue {} u depth (.str (step.type d)) = .str (step.type d) := by
  have hkept : (step.type d).length ≤ 2048 ∧ Plain (step.type d).toList := by
    rcases step_type (d := d) step with ⟨actionId, f, haction⟩ | ⟨htype, -⟩
    · have htype : step.type d = "enqueue_webhook" := by
        unfold ActionStep.type
        rw [haction]
        rfl
      rw [htype]
      decide
    · have hplain := otherActionTypes_plain _ htype
      exact ⟨hplain.1, hplain.2.1⟩
  exact safe_str h hkept.1 hkept.2

/-- A step whose fields are there yields its webhook. -/
theorem walkStep_read {depth : ℕ} (h : depth + 2 ≤ 12) (path : String) (step : ActionStep L) :
    walkStep path (safeTraceValue {} u depth (.obj (step.toDict d))) =
      { requests := step.webhook.toList.map (·, path) } := by
  obtain ⟨safe, hsafe, hget⟩ :=
    stored_obj u depth (step.toDict d) (by omega) (by show (10 : ℕ) ≤ 512; omega)
  have hsuccess : Dict.getD safe "success" = .bool step.success := by
    rw [safe_getD hget (by decide) rfl, safe_bool (by show depth + 1 ≤ 12; omega)]
  have htype : Dict.getD safe "type" = .str (step.type d) := by
    rw [safe_getD hget (by decide) rfl, step_type_kept (by omega)]
  have hafter : Dict.getD safe "after" =
      safeTraceValue {} u (depth + 1) (step.afterJson d) :=
    safe_getD hget (by decide) rfl
  rw [hsafe, walkStep, hsuccess, htype, hafter]
  rcases step_type (d := d) step with ⟨actionId, f, haction⟩ | ⟨hother, hnone⟩
  · have hweb : step.type d = "enqueue_webhook" := by
      unfold ActionStep.type
      rw [haction]
      rfl
    unfold ActionStep.webhook ActionStep.afterJson
    rw [haction, hweb]
    cases step.success with
    | false => rfl
    | true =>
      -- the object of the request, with the id in it
      obtain ⟨request, hrequest, hid⟩ :=
        stored_obj u (depth + 1) [("action_id", .int actionId)] (by omega) (by show (1 : ℕ) ≤ 512; omega)
      have hvalue : Dict.getD request "action_id" = .int actionId := by
        rw [safe_getD hid (by decide) rfl, safe_int (by show depth + 1 + 1 ≤ 12; omega)]
      have hfull : (Json.obj request).orElse (.obj []) = .obj request := by
        cases request with
        | nil => cases hvalue
        | cons entry rest => rfl
      have hid : (Json.int actionId).truthy = true := by simp [Json.truthy]
      dsimp only
      rw [if_pos rfl, hrequest, hfull, if_neg (by simp [Json.truthy])]
      dsimp only
      rw [hvalue, if_pos hid]
      rfl
  · have hplain := otherActionTypes_plain _ hother
    rw [hnone, if_pos]
    · rfl
    · simp [hplain.2.2]

/-- A step whose fields are cut has no type that the walk knows. -/
theorem walkStep_cut (path : String) (step : ActionStep L) :
    walkStep path (safeTraceValue {} u 12 (.obj (step.toDict d))) = {} := by
  obtain ⟨safe, hsafe, hget⟩ :=
    stored_obj u 12 (step.toDict d) le_rfl (by show (10 : ℕ) ≤ 512; omega)
  have hcut (v : Json) : safeTraceValue {} u 13 v = truncated :=
    safe_deep (by show (12 : ℕ) < 13; omega) v
  have htype : Dict.getD safe "type" = truncated := by
    rw [safe_getD hget (by decide) rfl, hcut]
  rw [hsafe, walkStep, htype, if_pos]
  simp [truncated]

theorem Generated.append_requests (first second : List (Int × String)) :
    ({ requests := first } : Generated).append { requests := second } =
      { requests := first ++ second } := rfl

/-- The steps of a rule are read from a trace that is not cut. -/
theorem walkSteps_read {depth : ℕ} (h : depth + 2 ≤ 12) (path : String)
    (steps : List (ActionStep L)) :
    walkSteps path (steps.map fun step => safeTraceValue {} u depth (.obj (step.toDict d))) =
      { requests := (steps.filterMap ActionStep.webhook).map (·, path) } := by
  induction steps with
  | nil => rfl
  | cons step steps ih =>
    rw [List.map_cons, walkSteps, walkStep_read h, ih, Generated.append_requests,
      List.filterMap_cons]
    cases step.webhook <;> rfl

/-- From one that is cut nothing is read. -/
theorem walkSteps_cut (path : String) (steps : List (ActionStep L)) :
    walkSteps path (steps.map fun step => safeTraceValue {} u 12 (.obj (step.toDict d))) = {} := by
  induction steps with
  | nil => rfl
  | cons step steps ih =>
    rw [List.map_cons, walkSteps, walkStep_cut, ih]
    rfl

end Steps

/-! ## The rules of the stored trace -/

section Rules

variable {L : Language} {d : TraceDetails L} {u : CharClasses}

/-- The walk over rules: what it yields where no rule is nested below level 4, and that it
raises where one is. -/
structure Reads (rules : List (NestedRule L)) (g : Generated) : Prop where
  kept : (∀ rule ∈ rules, rule.level < 5) →
    g = { requests := requestsOf (rules.filter (·.level < 4)) }
  raises : (∃ rule ∈ rules, 5 ≤ rule.level) → g.raised.isSome

theorem Reads.nil : Reads ([] : List (NestedRule L)) {} where
  kept := fun _ => rfl
  raises := fun ⟨_, hrule, _⟩ => absurd hrule (List.not_mem_nil)

/-- What two parts read. -/
theorem Reads.append {xs ys : List (NestedRule L)} {first second : Generated}
    (hx : Reads xs first) (hy : Reads ys second) : Reads (xs ++ ys) (first.append second) where
  kept := by
    intro hall
    have hfirst := hx.kept fun rule hrule => hall rule (List.mem_append_left _ hrule)
    have hsecond := hy.kept fun rule hrule => hall rule (List.mem_append_right _ hrule)
    rw [hfirst, hsecond, Generated.append_requests, List.filter_append]
    unfold requestsOf
    rw [List.flatMap_append]
  raises := by
    -- the first list that is too deep ends the walk, wherever it stands
    rintro ⟨rule, hrule, hlevel⟩
    unfold Generated.append
    cases hraised : first.raised with
    | some e => rfl
    | none =>
      rcases List.mem_append.mp hrule with hrule | hrule
      · have hfirst := hx.raises ⟨rule, hrule, hlevel⟩
        rw [hraised] at hfirst
        cases hfirst
      · exact hy.raises ⟨rule, hrule, hlevel⟩

/-- What raises in front raises. -/
theorem append_raised {first second : Generated} (h : first.raised.isSome) :
    (first.append second).raised.isSome := by
  unfold Generated.append
  cases hraised : first.raised with
  | some e => rfl
  | none =>
    rw [hraised] at h
    cases h

/-- The children are walked through like the rules. -/
theorem walkChildren_eq (rule : Dict) :
    walkChildren rule = iterWebhookRequests (rule.getD "children") := by
  induction rule with
  | nil =>
    rw [walkChildren]
    rfl
  | cons entry rest ih =>
    obtain ⟨key, value⟩ := entry
    unfold Dict.getD at ih ⊢
    rw [walkChildren, Dict.get_cons]
    by_cases hkey : key = "children"
    · rw [if_pos hkey, if_pos hkey]
      rfl
    · rw [if_neg hkey, if_neg hkey, ih]

/-- The fields of an entry. -/
theorem toJson_obj (path : String) (rule : Rule L) (code : RuleCode)
    (steps : List (ActionStep L)) (children : List (RuleTrace L)) :
    ∃ kvs : Dict, (RuleTrace.mk path rule code steps children).toJson d = .obj kvs ∧
      kvs.length ≤ 512 ∧ Dict.get kvs "path" = some (.str path) ∧
      Dict.get kvs "actions" = some (.list (steps.map fun step => .obj (step.toDict d))) ∧
      Dict.get kvs "children" = some (.list (rulesToJson d children)) := by
  refine ⟨_, by rw [RuleTrace.toJson], ?_, rfl, rfl, rfl⟩
  rw [List.length_append]
  split <;> simp

/-- A path that is a text. -/
theorem pathText_str (path : String) : pathText (.str path) = path := by
  unfold pathText
  by_cases hpath : path = ""
  · subst hpath
    rfl
  · rw [if_pos (by simpa [Json.truthy] using hpath)]
    rfl

/-- An entry at the limit of the depth is there, but what is in it is cut. -/
theorem walkRule_cut (trace : RuleTrace L) :
    (walkRule (safeTraceValue {} u 12 (trace.toJson d))).raised.isSome := by
  obtain ⟨path, rule, code, steps, children⟩ := trace
  obtain ⟨kvs, htrace, hlength, -, hactions, -⟩ := toJson_obj (d := d) path rule code steps children
  obtain ⟨safe, hsafe, hget⟩ :=
    stored_obj u 12 kvs le_rfl hlength
  have hcut : Dict.getD safe "actions" = truncated := by
    rw [safe_getD hget (by decide) hactions, safe_deep (by show (12 : ℕ) < 13; omega)]
  rw [htrace, hsafe, walkRule]
  refine append_raised ?_
  unfold walkActions
  rw [hcut]
  -- the loop over the characters of the text comes to one that has no `get`
  rfl

/-- The steps of a rule on a level up to 4. -/
theorem walkActions_reads {level : ℕ} (hlevel : level ≤ 4) {path : String} {safe kvs : Dict}
    {steps : List (ActionStep L)} (hpath : PathFits path)
    (hsteps : steps.length ≤ maxActionsPerRule)
    (hget : ∀ key, isSensitiveKey key = false →
      Dict.get safe key = (Dict.get kvs key).map (safeTraceValue {} u (3 + 2 * level)))
    (htext : Dict.get kvs "path" = some (.str path))
    (hactions : Dict.get kvs "actions" =
      some (.list (steps.map fun step => .obj (step.toDict d)))) :
    Reads [⟨level, path, steps⟩] (walkActions safe) := by
  have hlist : Dict.getD safe "actions" =
      .list (steps.map fun step => safeTraceValue {} u (4 + 2 * level) (.obj (step.toDict d))) := by
    have hfits : (steps.map fun step => Json.obj (step.toDict d)).length ≤ 512 := by
      rw [List.length_map]
      exact hsteps.trans (by decide)
    have hdeeper : 3 + 2 * level + 1 = 4 + 2 * level := by omega
    rw [safe_getD hget (by decide) hactions, safe_list (by show 3 + 2 * level ≤ 12; omega) hfits,
      List.map_map, hdeeper]
    rfl
  have hname : Dict.getD safe "path" = .str path := by
    rw [safe_getD hget (by decide) htext,
      safe_str (by show 3 + 2 * level ≤ 12; omega) hpath.short hpath.plain]
  unfold walkActions
  rw [hlist, hname, pathText_str]
  dsimp only [loopItems]
  refine ⟨fun _ => ?_, fun ⟨rule, hrule, hdeep⟩ => ?_⟩
  -- the actions of the last level are still read, one further down are not
  · by_cases htop : level < 4
    · rw [walkSteps_read (by omega), List.filter_cons_of_pos (by simpa using htop)]
      simp [requestsOf, NestedRule.requests]
    · obtain rfl : level = 4 := by omega
      rw [walkSteps_cut]
      rfl
  · rw [List.mem_singleton.mp hrule] at hdeep
    change 5 ≤ level at hdeep
    omega

/-- On level 5 the first rule raises. -/
theorem walkRules_last (children : List (RuleTrace L)) :
    Reads (nestedRules 5 children)
      (walkRules ((rulesToJson d children).map (safeTraceValue {} u 12))) := by
  cases children with
  | nil =>
    rw [nestedRules, rulesToJson, List.map_nil, walkRules]
    exact Reads.nil
  | cons trace traces =>
    obtain ⟨path, rule, code, steps, below⟩ := trace
    rw [nestedRules, rulesToJson, List.map_cons, walkRules, RuleTrace.nested]
    refine ⟨fun hall => ?_, fun _ => append_raised (walkRule_cut _)⟩
    have hfirst : (5 : ℕ) < 5 := hall ⟨5, path, steps⟩ (by simp)
    omega

mutual
/-- **A rule is read from its trace**, down to the depth that is kept. By induction on it. -/
theorem walkRule_reads {level : ℕ} (hlevel : level ≤ 4) : ∀ trace : RuleTrace L, trace.Fits →
    Reads (trace.nested level) (walkRule (safeTraceValue {} u (2 + 2 * level) (trace.toJson d)))
  | .mk path rule code steps children => by
    intro hfits
    rw [RuleTrace.Fits] at hfits
    obtain ⟨hpath, hsteps, hchildren, hbelow⟩ := hfits
    obtain ⟨kvs, htrace, hlength, htext, hactions, hkids⟩ :=
      toJson_obj (d := d) path rule code steps children
    obtain ⟨safe, hsafe, hget⟩ :=
      stored_obj u (2 + 2 * level) kvs (by omega) hlength
    have hdeeper : 2 + 2 * level + 1 = 3 + 2 * level := by omega
    rw [hdeeper] at hget
    have hlist : Dict.getD safe "children" =
        .list ((rulesToJson d children).map (safeTraceValue {} u (2 + 2 * (level + 1)))) := by
      have hfits : (rulesToJson d children).length ≤ 512 := by
        rw [rulesToJson_eq_map, List.length_map]
        exact hchildren
      rw [safe_getD hget (by decide) hkids, safe_list (by show 3 + 2 * level ≤ 12; omega) hfits]
      congr 3
      omega
    rw [htrace, hsafe, walkRule, walkChildren_eq, hlist, iterWebhookRequests, RuleTrace.nested]
    refine (walkActions_reads hlevel hpath hsteps hget htext hactions).append ?_
    by_cases hlast : level = 4
    · -- the children are at the limit of the depth
      subst hlast
      exact walkRules_last children
    · exact walkRules_reads (by omega) children hbelow

/-- **What the walk reads back of the rules.** -/
theorem walkRules_reads {level : ℕ} (hlevel : level ≤ 4) : ∀ traces : List (RuleTrace L),
    RulesFit traces → Reads (nestedRules level traces)
      (walkRules ((rulesToJson d traces).map (safeTraceValue {} u (2 + 2 * level))))
  | [] => by
    intro _
    rw [nestedRules, rulesToJson, List.map_nil, walkRules]
    exact Reads.nil
  | trace :: traces => by
    intro hfits
    rw [RulesFit] at hfits
    rw [nestedRules, rulesToJson, List.map_cons, walkRules]
    exact (walkRule_reads hlevel trace hfits.1).append (walkRules_reads hlevel traces hfits.2)
end

end Rules

end IncidentRelay.Orchestration
