import IncidentRelay.Lib.FieldText
import IncidentRelay.Lib.PyText
import IncidentRelay.Orchestration.Entities
import IncidentRelay.Orchestration.Fields

/-!
# The key of an alert group

`build_group_key` writes the scope of an event and the values of the grouping fields of its
route into one text, and what has the same text is one group. The values are not escaped.

 * `routeField_congr`: the fields that the route and the service fix.
 * `groupKey_separates_iff`: the keys of a route separate its groups iff its grouping fields
   are such fields, and values without the separator are always separated.
-/

namespace IncidentRelay.RouteSelection

open Json Orchestration FieldText

/-! ## The key -/

/-- A route with its grouping fields. Its source is the name of an integration. -/
structure GroupingRoute extends Route where
  groupBy : Json
  sourcePlain : '|' ∉ source.toList

/-- An event as the integrations build it: its labels and annotations are objects or absent. -/
structure AlertData where
  data : Dict
  mappings : ∀ key ∈ ["labels", "annotations"], ∃ kvs, (data.getD key).orElse (.obj []) = .obj kvs

/-- `alert_data.get(key) or {}` -/
def AlertData.mapping (alertData : AlertData) (key : String) : Dict :=
  ((alertData.data.getD key).orElse (.obj [])).asDict

/-- `_normalize_group_by` -/
def normalizeGroupBy : Json → List String
  | .list items => (items.map fun item => strip (pyStr (item.orElse (.str "")))).filter (· ≠ "")
  | _ => []

/-- `_fallback_group_key_value` -/
def fallbackGroupKeyValue (alertData : AlertData) : Json :=
  (alertData.data.getD "dedup_key").orElse <|
    (alertData.data.getD "external_id").orElse <|
    (alertData.data.getD "fingerprint").orElse <|
    (alertData.data.getD "title").orElse <|
    (alertData.data.getD "message").orElse (.str "")

/-- `_normalize_group_key_value` -/
def normalizeGroupKeyValue : Json → String
  | .null => ""
  | .bool b => if b then "true" else "false"
  | value => strip (pyStr value)

/-- The loop of `_get_nested_value`. -/
def nestedValue : List String → Json → Json
  | [], current => current
  | part :: path, .obj kvs =>
    match Dict.getD kvs part with
    | .null => .null
    | value => nestedValue path value
  | _ :: _, _ => .null

/-- `_get_nested_value` -/
def getNestedValue (data : Dict) (path : String) : Json := nestedValue (splitDots path) (.obj data)

/-- `name[len(root):]` where `name.startswith(root)`. -/
def pathUnder (root name : String) : Option String :=
  if root.toList.isPrefixOf name.toList then some (String.ofList (name.toList.drop root.length))
  else none

section Key

variable (route : GroupingRoute) (service : Option Service)

def teamIdValue (alertData : AlertData) : Json :=
  (Json.int route.team.id).orElse (alertData.data.getD "team_id")

def routeIdValue (alertData : AlertData) : Json :=
  (Json.int route.id).orElse (alertData.data.getD "forced_route_id")

/-- `getattr(row, "id", None)` of a row that may be absent. -/
def serviceId : Option Service → Json
  | none => .null
  | some service => .int service.id

def serviceIdValue (alertData : AlertData) : Json :=
  (serviceId service).orElse ((serviceId route.service).orElse (alertData.data.getD "service_id"))

/-- The names under which only the route, the service and the source are read. -/
def routeFields : List String :=
  ["source", "team_id", "team", "route_id", "route", "service_id", "service"]

def serviceName : Option Service → Json
  | none => .null
  | some service =>
    (Json.str service.slug).orElse ((Json.str service.name).orElse (.int service.id))

/-- What `get_alert_group_field_value` reads under one of these names. -/
def routeFieldValue (name : String) (alertData : AlertData) : Json :=
  if name = "source" then alertData.data.getD "source"
  else if name = "team_id" then teamIdValue route alertData
  else if name = "team" then (Json.str route.team.slug).orElse (.int route.team.id)
  else if name = "route_id" then routeIdValue route alertData
  else if name = "route" then (Json.str route.name).orElse (.int route.id)
  else if name = "service_id" then serviceIdValue route service alertData
  else serviceName service

/-- The short names: labels first, then annotations, then the event itself. -/
def eventFieldValue (name : String) (alertData : AlertData) : Json :=
  let labels := alertData.mapping "labels"
  let annotations := alertData.mapping "annotations"
  if labels.has name then labels.getD name
  else if annotations.has name then annotations.getD name
  else if alertData.data.has name then alertData.data.getD name
  else .null

def getAlertGroupFieldValue (name : String) (alertData : AlertData) : Json :=
  match pathUnder "labels." name with
  | some path => getNestedValue (alertData.mapping "labels") path
  | none => match pathUnder "annotations." name with
    | some path => getNestedValue (alertData.mapping "annotations") path
    | none => match pathUnder "payload." name with
      | some path => getNestedValue (alertData.mapping "payload") path
      | none =>
        if name ∈ routeFields then routeFieldValue route service name alertData
        else eventFieldValue name alertData

/-- `get_effective_group_by`; the default is no field. -/
def effectiveGroupBy : List String := normalizeGroupBy route.groupBy

def scopeParts (alertData : AlertData) : List (String × Json) :=
  [("source", alertData.data.getD "source"), ("team_id", teamIdValue route alertData),
    ("route_id", routeIdValue route alertData),
    ("service_id", serviceIdValue route service alertData)]

def groupParts (alertData : AlertData) : List (String × Json) :=
  let parts := (effectiveGroupBy route).map fun name =>
    (name, getAlertGroupFieldValue route service name alertData)
  if effectiveGroupBy route = [] then [("dedup_key", fallbackGroupKeyValue alertData)]
  else if parts.any (normalizeGroupKeyValue ·.2 = "") then
    parts ++ [("fallback_dedup_key", fallbackGroupKeyValue alertData)]
  else parts

/-- `f"{name}={_normalize_group_key_value(value)}"` -/
def partText (part : String × Json) : String := part.1 ++ "=" ++ normalizeGroupKeyValue part.2

def buildGroupKey (alertData : AlertData) : String :=
  "|".intercalate ((scopeParts route service alertData ++ groupParts route service alertData).map
    partText)

end Key

/-! ## The text -/

section Text

/-- No space at the end. -/
def Trimmed (text : List Char) : Prop := ∀ c ∈ text.getLast?, isSpace c = false

/-- A text that ends in no space is trimmed at its end. -/
theorem trimmed_of_all {text : List Char} (h : (text.getLast?.all fun c => !isSpace c) = true) :
    Trimmed text := by
  intro c hc
  rw [Option.mem_def.mp hc, Option.all_some, Bool.not_eq_true'] at h
  exact h

theorem trimmed_append {s t : List Char} (hne : t ≠ []) (ht : Trimmed t) : Trimmed (s ++ t) := by
  intro c hc
  rw [List.getLast?_append_of_ne_nil _ hne] at hc
  exact ht c hc

/-- A stripped text is trimmed. -/
theorem trimmed_strip (s : String) : Trimmed (strip s).toList := by
  intro c hc
  rw [strip, String.toList_ofList, trimBy, List.getLast?_reverse] at hc
  have hnot := List.head?_dropWhile_not isSpace (s.toList.dropWhile isSpace).reverse
  rw [hc] at hnot
  exact hnot

theorem mem_strip {s : String} {c : Char} (h : c ∈ (strip s).toList) : c ∈ s.toList := by
  rw [strip, String.toList_ofList, trimBy, List.mem_reverse] at h
  exact (List.dropWhile_suffix _).subset (List.mem_reverse.mp ((List.dropWhile_suffix _).subset h))

theorem trimmed_normalize (value : Json) : Trimmed (normalizeGroupKeyValue value).toList := by
  unfold normalizeGroupKeyValue
  split
  · exact nofun
  · split <;> exact trimmed_of_all (by decide +kernel)
  · exact trimmed_strip _

/-- A name and the text of its value. -/
def textPart (part : String × Json) : List Char × List Char :=
  (part.1.toList, (normalizeGroupKeyValue part.2).toList)

theorem partText_toList (part : String × Json) :
    '|' :: (partText part).toList = field '|' '=' (textPart part) := by
  simp [partText, field, textPart, String.toList_append]

/-- Fields whose texts are trimmed are trimmed together. -/
theorem fields_trimmed {parts : List (String × Json)} :
    Trimmed (fields '|' '=' (parts.map textPart)) := by
  rcases List.eq_nil_or_concat parts with rfl | ⟨parts, part, rfl⟩
  · exact nofun
  · rw [List.concat_eq_append, List.map_append, fields_append]
    refine trimmed_append (List.cons_ne_nil _ _) ?_
    -- the last field ends with its value, or with the sign before it
    have hlast : Trimmed ('=' :: (normalizeGroupKeyValue part.2).toList) := by
      cases hvalue : (normalizeGroupKeyValue part.2).toList with
      | nil =>
        rintro c ⟨⟩
        rfl
      | cons c cs =>
        refine trimmed_append (s := ['=']) (List.cons_ne_nil _ _) ?_
        rw [← hvalue]
        exact trimmed_normalize _
    have htext : fields '|' '=' ([part].map textPart) =
        ('|' :: part.1.toList) ++ ('=' :: (normalizeGroupKeyValue part.2).toList) := by
      simp [field, textPart]
    rw [htext]
    exact trimmed_append (List.cons_ne_nil _ _) hlast

variable {route : GroupingRoute} {service : Option Service} {a b : AlertData}

/-- Joining the parts is writing the fields. -/
theorem intercalate_partText (part : String × Json) (parts : List (String × Json)) :
    '|' :: ("|".intercalate ((part :: parts).map partText)).toList =
      fields '|' '=' ((part :: parts).map textPart) := by
  rw [String.toList_intercalate]
  induction parts generalizing part with
  | nil => simpa using partText_toList part
  | cons next parts ih =>
    have hnext := ih next
    simp only [List.map_cons, List.intercalate_cons_cons, fields_cons] at hnext ⊢
    rw [← partText_toList, ← hnext]
    simp

/-- **The key is the text of its fields**, those of the scope and those of the grouping. -/
theorem buildGroupKey_toList (route : GroupingRoute) (service : Option Service) (a : AlertData) :
    '|' :: (buildGroupKey route service a).toList =
      fields '|' '=' ((scopeParts route service a ++ groupParts route service a).map textPart) :=
  intercalate_partText _ _

/-- Equal keys are equal texts of fields. -/
theorem key_eq_iff : buildGroupKey route service a = buildGroupKey route service b ↔
    fields '|' '=' ((scopeParts route service a ++ groupParts route service a).map textPart) =
      fields '|' '=' ((scopeParts route service b ++ groupParts route service b).map textPart) := by
  rw [← buildGroupKey_toList, ← buildGroupKey_toList, List.cons_inj_right, String.toList_inj]

end Text

/-! ## Events of one scope -/

section Scope

variable {route : GroupingRoute} {service : Option Service} {a b : AlertData} {name : String}

/-- The text of a grouping field. -/
def groupText (route : GroupingRoute) (service : Option Service) (alertData : AlertData)
    (name : String) : String :=
  normalizeGroupKeyValue (getAlertGroupFieldValue route service name alertData)

def fallbackText (alertData : AlertData) : String :=
  normalizeGroupKeyValue (fallbackGroupKeyValue alertData)

def sourceText (alertData : AlertData) : String :=
  normalizeGroupKeyValue (alertData.data.getD "source")

/-- Two events that are resolved to the route and the service: each has the name of an
integration for its source, and their service is the same. -/
structure ResolvedTo (route : GroupingRoute) (service : Option Service) (a b : AlertData) : Prop where
  left : '|' ∉ (sourceText a).toList
  right : '|' ∉ (sourceText b).toList
  service : normalizeGroupKeyValue (serviceIdValue route service a) =
    normalizeGroupKeyValue (serviceIdValue route service b)

/-- Grouping is disabled, or a field is missing. -/
def Incomplete (route : GroupingRoute) (service : Option Service) (alertData : AlertData) : Prop :=
  effectiveGroupBy route = [] ∨ ∃ name ∈ effectiveGroupBy route, groupText route service alertData name = ""

/-- The two events belong to one group of the route. -/
structure SameGroup (route : GroupingRoute) (service : Option Service) (a b : AlertData) : Prop where
  values : ∀ name ∈ effectiveGroupBy route, groupText route service a name = groupText route service b name
  fallback : Incomplete route service a → fallbackText a = fallbackText b

@[simp] theorem int_orElse (n : Id) (value : Json) : (Json.int (n : ℕ)).orElse value = .int (n : ℕ) := by
  have hn : ((n : ℕ) : ℤ) ≠ 0 := Int.natCast_ne_zero.mpr n.ne_zero
  rw [orElse, truthy, bne_iff_ne.mpr hn]
  rfl

/-- **The route, the service and the source fix these fields.** -/
theorem routeField_congr (hname : name ∈ routeFields) (hsource : sourceText a = sourceText b)
    (hservice : normalizeGroupKeyValue (serviceIdValue route service a) =
      normalizeGroupKeyValue (serviceIdValue route service b)) :
    groupText route service a name = groupText route service b name := by
  have hvalue : ∀ c, getAlertGroupFieldValue route service name c = routeFieldValue route service name c := by
    intro c
    -- a field of the route is no path, so the paths below are not taken
    have hplain : ∀ root ∈ ["labels.", "annotations.", "payload."], pathUnder root name = none := by
      revert name
      decide +kernel
    unfold getAlertGroupFieldValue
    rw [hplain "labels." (by simp), hplain "annotations." (by simp), hplain "payload." (by simp)]
    exact if_pos hname
  rw [groupText, groupText, hvalue, hvalue]
  unfold routeFieldValue
  split_ifs
  · exact hsource
  · simp only [teamIdValue, int_orElse]
  · rfl
  · simp only [routeIdValue, int_orElse]
  · rfl
  · exact hservice
  · rfl

/-- The texts of the grouping fields. -/
def groupTexts (route : GroupingRoute) (service : Option Service) (alertData : AlertData)
    (names : List String) : List (List Char × List Char) :=
  names.map fun name => (name.toList, (groupText route service alertData name).toList)

/-- The text behind the grouping fields. -/
def fallbackField (name : String) (alertData : AlertData) : List Char :=
  field '|' '=' (name.toList, (fallbackText alertData).toList)

theorem groupParts_disabled (h : effectiveGroupBy route = []) :
    fields '|' '=' ((groupParts route service a).map textPart) = fallbackField "dedup_key" a := by
  rw [groupParts, if_pos h]
  simp [fallbackField, textPart, fallbackText]

/-- So does one of whose values one is missing, behind those that are there. -/
theorem groupParts_incomplete (hne : effectiveGroupBy route ≠ []) (h : Incomplete route service a) :
    fields '|' '=' ((groupParts route service a).map textPart) =
      fields '|' '=' (groupTexts route service a (effectiveGroupBy route)) ++
        fallbackField "fallback_dedup_key" a := by
  obtain ⟨name, hname, hmissing⟩ := h.resolve_left hne
  rw [groupParts, if_neg hne, if_pos]
  · simp [fields_append, fallbackField, textPart, fallbackText, groupTexts, groupText,
      Function.comp_def]
  · exact List.any_eq_true.mpr ⟨_, List.mem_map_of_mem hname, decide_eq_true hmissing⟩

theorem groupParts_complete (h : ¬Incomplete route service a) :
    fields '|' '=' ((groupParts route service a).map textPart) =
      fields '|' '=' (groupTexts route service a (effectiveGroupBy route)) := by
  rw [groupParts, if_neg fun hnil => h (.inl hnil), if_neg]
  · simp [textPart, groupTexts, groupText, Function.comp_def]
  · intro hany
    obtain ⟨part, hpart, hmissing⟩ := List.any_eq_true.mp hany
    obtain ⟨name, hname, rfl⟩ := List.mem_map.mp hpart
    exact h (.inr ⟨name, hname, of_decide_eq_true hmissing⟩)

/-- The scope of an event, behind its source. -/
theorem scope_fields (alertData : AlertData) :
    fields '|' '=' ((scopeParts route service alertData).map textPart) =
      fields '|' '=' [("source".toList, (sourceText alertData).toList)] ++
        fields '|' '=' (([("team_id", .int route.team.id), ("route_id", .int route.id),
          ("service_id", serviceIdValue route service alertData)]).map textPart) := by
  simp [scopeParts, teamIdValue, routeIdValue, textPart, sourceText]

/-- **Events of one route and service have one key iff their sources and the texts of their
grouping fields are the same.** -/
theorem key_eq_iff_group (h : ResolvedTo route service a b) :
    buildGroupKey route service a = buildGroupKey route service b ↔
      sourceText a = sourceText b ∧ fields '|' '=' ((groupParts route service a).map textPart) =
        fields '|' '=' ((groupParts route service b).map textPart) := by
  have hscope : fields '|' '=' (([("team_id", .int route.team.id), ("route_id", .int route.id),
      ("service_id", serviceIdValue route service a)] : List (String × Json)).map textPart) =
      fields '|' '=' (([("team_id", .int route.team.id), ("route_id", .int route.id),
        ("service_id", serviceIdValue route service b)] : List (String × Json)).map textPart) := by
    simp [textPart, h.service]
  rw [key_eq_iff, List.map_append, List.map_append, fields_append, fields_append, scope_fields,
    scope_fields, hscope, List.append_assoc, List.append_assoc]
  constructor
  · intro heq
    have hplain : ∀ c : AlertData, '|' ∉ (sourceText c).toList →
        ∀ part ∈ [("source".toList, (sourceText c).toList)], '|' ∉ part.2 := by
      intro c hc part hpart
      rwa [List.mem_singleton.mp hpart]
    -- the source holds no bar, so it is read back first and the rest cancels
    obtain ⟨hsource, hrest⟩ := values_eq (by rfl) (hplain a h.left) (hplain b h.right) (stops_fields_append (stops_fields _) _) (stops_fields_append (stops_fields _) _) heq
    refine ⟨String.toList_inj.mp ?_, List.append_cancel_left hrest⟩
    simpa using hsource
  · rintro ⟨hsource, hgroup⟩
    rw [hsource, hgroup]

end Scope

/-! ## Separated events -/

section Separated

variable {route : GroupingRoute} {service : Option Service} {a b : AlertData}

/-- No value of a grouping field contains the separator. -/
def Plain (route : GroupingRoute) (service : Option Service) (alertData : AlertData) : Prop :=
  ∀ name ∈ effectiveGroupBy route, '|' ∉ (groupText route service alertData name).toList

/-- Whether a value is missing depends on the values. -/
theorem incomplete_congr
    (h : ∀ name ∈ effectiveGroupBy route, groupText route service a name = groupText route service b name) :
    Incomplete route service a ↔ Incomplete route service b := by
  unfold Incomplete
  refine or_congr_right (exists_congr fun name => and_congr_right fun hname => ?_)
  rw [h name hname]

/-- Equal fallback fields have equal texts. -/
theorem fallbackText_of_field {name : String} (h : fallbackField name a = fallbackField name b) :
    fallbackText a = fallbackText b := by
  unfold fallbackField field at h
  obtain ⟨-, h⟩ := List.cons.inj h
  obtain ⟨-, h⟩ := List.cons.inj (List.append_cancel_left h)
  exact String.toList_inj.mp h

/-- With equal values the text gives the fallback value, where there is one. -/
theorem sameGroup_of_values
    (hvalues : ∀ name ∈ effectiveGroupBy route,
      groupText route service a name = groupText route service b name)
    (h : fields '|' '=' ((groupParts route service a).map textPart) =
      fields '|' '=' ((groupParts route service b).map textPart)) : SameGroup route service a b := by
  refine ⟨hvalues, fun hincomplete => ?_⟩
  by_cases hnil : effectiveGroupBy route = []
  · rw [groupParts_disabled hnil, groupParts_disabled hnil] at h
    exact fallbackText_of_field h
  · have htexts : groupTexts route service a (effectiveGroupBy route) =
        groupTexts route service b (effectiveGroupBy route) :=
      List.map_congr_left fun name hname => by rw [hvalues name hname]
    rw [groupParts_incomplete hnil hincomplete,
      groupParts_incomplete hnil ((incomplete_congr hvalues).mp hincomplete), htexts] at h
    exact fallbackText_of_field (List.append_cancel_left h)

/-- Fields that the route fixes are the same for all its events. -/
theorem sameGroup_of_fixed (hfixed : ∀ name ∈ effectiveGroupBy route, name ∈ routeFields)
    (h : ResolvedTo route service a b)
    (hkey : buildGroupKey route service a = buildGroupKey route service b) :
    SameGroup route service a b := by
  obtain ⟨hsource, hgroup⟩ := (key_eq_iff_group h).mp hkey
  exact sameGroup_of_values
    (fun name hname => routeField_congr (hfixed name hname) hsource h.service) hgroup

/-- The text of the group parts: the grouping fields, and perhaps one more. -/
theorem exists_groupParts (alertData : AlertData) (hne : effectiveGroupBy route ≠ []) :
    ∃ parts : List (String × Json),
      fields '|' '=' ((groupParts route service alertData).map textPart) =
        fields '|' '=' (groupTexts route service alertData (effectiveGroupBy route)) ++
          fields '|' '=' (parts.map textPart) := by
  by_cases hincomplete : Incomplete route service alertData
  · refine ⟨[("fallback_dedup_key", fallbackGroupKeyValue alertData)], ?_⟩
    rw [groupParts_incomplete hne hincomplete]
    simp [fallbackField, fallbackText, textPart]
  · exact ⟨[], by simpa using groupParts_complete hincomplete⟩

/-- **Values without the separator are separated.** -/
theorem sameGroup_of_plain (h : ResolvedTo route service a b) (ha : Plain route service a)
    (hb : Plain route service b)
    (hkey : buildGroupKey route service a = buildGroupKey route service b) :
    SameGroup route service a b := by
  obtain ⟨-, hgroup⟩ := (key_eq_iff_group h).mp hkey
  refine sameGroup_of_values ?_ hgroup
  intro name hname
  -- a named field is in the list, which is then not empty
  have hne : effectiveGroupBy route ≠ [] := List.ne_nil_of_mem hname
  obtain ⟨s, htexta⟩ := @exists_groupParts route service a hne
  obtain ⟨t, htextb⟩ := @exists_groupParts route service b hne
  rw [htexta, htextb] at hgroup
  have hplain : ∀ c, Plain route service c →
      ∀ part ∈ groupTexts route service c (effectiveGroupBy route), '|' ∉ part.2 := by
    intro c hc part hpart
    obtain ⟨name, hname, rfl⟩ := List.mem_map.mp hpart
    exact hc name hname
  have hnames : (groupTexts route service a (effectiveGroupBy route)).map Prod.fst =
      (groupTexts route service b (effectiveGroupBy route)).map Prod.fst := by
    simp [groupTexts, Function.comp_def]
  -- with no bar in the texts the key separates them again
  obtain ⟨hparts, -⟩ := values_eq hnames (hplain a ha) (hplain b hb)
    (stops_fields _) (stops_fields _) hgroup
  have hpart := List.map_inj_left.mp hparts name hname
  exact String.toList_inj.mp (Prod.mk.inj hpart).2

end Separated

/-! ## Events of one key -/

section Collision

variable {route : GroupingRoute} {service : Option Service} {a b : AlertData} {name : String}

/-- The event has the source of the route and no service of its own. -/
structure Bare (route : GroupingRoute) (alertData : AlertData) : Prop where
  source : alertData.data.getD "source" = .str route.source
  service : alertData.data.getD "service_id" = .null

theorem Bare.sourceText_eq (h : Bare route a) : sourceText a = strip route.source := by
  rw [sourceText, h.source]
  rfl

theorem Bare.serviceIdValue_eq (ha : Bare route a) (hb : Bare route b) :
    serviceIdValue route service a = serviceIdValue route service b := by
  rw [serviceIdValue, serviceIdValue, ha.service, hb.service]

theorem Bare.resolvedTo (ha : Bare route a) (hb : Bare route b) : ResolvedTo route service a b := by
  have hplain : '|' ∉ (strip route.source).toList := fun hmem => route.sourcePlain (mem_strip hmem)
  exact ⟨by rwa [ha.sourceText_eq], by rwa [hb.sourceText_eq], by rw [ha.serviceIdValue_eq hb]⟩

theorem Bare.routeField_eq (ha : Bare route a) (hb : Bare route b) (hname : name ∈ routeFields) :
    groupText route service a name = groupText route service b name :=
  routeField_congr hname (ha.sourceText_eq.trans hb.sourceText_eq.symm)
    (by rw [ha.serviceIdValue_eq hb])

theorem splitDots_ne_nil (path : String) : splitDots path ≠ [] := by
  unfold splitDots
  simp [List.splitOn_ne_nil]

/-- Without a value in the object there is none behind a path. -/
theorem nestedValue_blank {data : Dict} (h : ∀ key, Dict.getD data key = .null) {path : List String}
    (hpath : path ≠ []) : nestedValue path (.obj data) = .null := by
  cases path with
  | nil => exact absurd rfl hpath
  | cons part path => rw [nestedValue, h part]

/-- Blank fields are null. -/
theorem getD_nulls (names : List String) (key : String) :
    Dict.getD (names.map fun name => (name, Json.null)) key = .null := by
  induction names with
  | nil => rfl
  | cons name names ih =>
    rw [List.map_cons, Dict.getD, Dict.get_cons]
    split
    · rfl
    · exact ih

theorem obj_orElse (kvs : Dict) : (Json.obj kvs).orElse (.obj []) = .obj kvs := by
  cases kvs <;> rfl

/-- An event whose labels have no value under any grouping field. -/
def blankEvent (route : GroupingRoute) (dedupKey : String) : AlertData where
  data := [("source", .str route.source), ("dedup_key", .str dedupKey),
    ("labels", .obj ((effectiveGroupBy route).map fun name => (name, .null)))]
  mappings := by
    intro key hkey
    simp only [List.mem_cons, List.not_mem_nil, or_false] at hkey
    rcases hkey with rfl | rfl
    · exact ⟨_, obj_orElse _⟩
    · exact ⟨[], rfl⟩

theorem blankEvent_bare (dedupKey : String) : Bare route (blankEvent route dedupKey) := ⟨rfl, rfl⟩

theorem blankEvent_text {dedupKey : String} (hname : name ∈ effectiveGroupBy route)
    (hnot : name ∉ routeFields) : groupText route service (blankEvent route dedupKey) name = "" := by
  have hlabels : (blankEvent route dedupKey).mapping "labels" =
      (effectiveGroupBy route).map fun name => (name, .null) := by
    rw [AlertData.mapping, show (blankEvent route dedupKey).data.getD "labels" = .obj _ from rfl,
      obj_orElse]
    rfl
  have hnull : getAlertGroupFieldValue route service name (blankEvent route dedupKey) = .null := by
    unfold getAlertGroupFieldValue
    split
    · rw [hlabels]
      exact nestedValue_blank (getD_nulls _) (splitDots_ne_nil _)
    · split
      · exact nestedValue_blank (fun _ => rfl) (splitDots_ne_nil _)
      · split
        · exact nestedValue_blank (fun _ => rfl) (splitDots_ne_nil _)
        · rw [if_neg hnot, eventFieldValue, hlabels]
          -- a short name is a label without a value
          rw [if_pos]
          · exact getD_nulls _ _
          · exact List.any_eq_true.mpr ⟨_, List.mem_map_of_mem hname, beq_self_eq_true name⟩
  rw [groupText, hnull]
  rfl

/-- An object with the value at the end of the path. -/
def nest : List String → Json → Json
  | [], value => value
  | part :: path, value => .obj [(part, nest path value)]

/-- A value that is put at a path is found there. -/
theorem nestedValue_nest (path : List String) {value : Json} (h : value ≠ .null) :
    nestedValue path (nest path value) = value := by
  induction path with
  | nil => rfl
  | cons part path ih =>
    have hget : Dict.getD [(part, nest path value)] part = nest path value := by
      rw [Dict.getD, Dict.get_cons, if_pos rfl]
      rfl
    have hnest : nest path value ≠ .null := by
      cases path with
      | nil => exact h
      | cons =>
        intro hnull
        cases hnull
    rw [nest, nestedValue, hget]
    split
    · exact absurd ‹_› hnest
    · exact ih

/-- An event with one mapping. -/
def eventWith (route : GroupingRoute) (key : String) (kvs : Dict) : AlertData where
  data := [("source", .str route.source), (key, .obj kvs)]
  mappings := by
    intro other hother
    have hsource : other ≠ "source" := by
      rintro rfl
      simp at hother
    rw [Dict.getD, Dict.get_cons, if_neg hsource.symm, Dict.get_cons]
    split
    · exact ⟨_, obj_orElse kvs⟩
    · exact ⟨[], rfl⟩

theorem eventWith_bare {key : String} {kvs : Dict} (hservice : key ≠ "service_id") : Bare route (eventWith route key kvs) := by
  refine ⟨rfl, ?_⟩
  rw [eventWith, Dict.getD, Dict.get_cons, if_neg (by decide +kernel), Dict.get_cons, if_neg hservice]
  rfl

theorem eventWith_mapping {key : String} {kvs : Dict} (hkey : key ≠ "source") :
    (eventWith route key kvs).mapping key = kvs := by
  rw [AlertData.mapping, eventWith, Dict.getD, Dict.get_cons, if_neg hkey.symm, Dict.get_cons,
    if_pos rfl, Option.getD_some, obj_orElse]
  rfl

/-- **Under a field that the route does not fix an event can have any text.** -/
theorem exists_carrying (hnot : name ∉ routeFields) (value : String) : ∃ b : AlertData,
    Bare route b ∧ getAlertGroupFieldValue route service name b = .str value := by
  have hnested : ∀ path, getNestedValue (nest (splitDots path) (.str value)).asDict path = .str value := by
    intro path
    rw [getNestedValue]
    have hobj : Json.obj (nest (splitDots path) (.str value)).asDict = nest (splitDots path) (.str value) := by
      cases hsplit : splitDots path with
      | nil => exact absurd hsplit (splitDots_ne_nil path)
      | cons part rest => rfl
    rw [hobj]
    exact nestedValue_nest _ nofun
  -- the event has the value where the name is looked up
  cases hlabels : pathUnder "labels." name with
  | some path =>
    refine ⟨eventWith route "labels" (nest (splitDots path) (.str value)).asDict,
      eventWith_bare (by decide +kernel), ?_⟩
    rw [getAlertGroupFieldValue, hlabels, eventWith_mapping (by decide +kernel)]
    exact hnested path
  | none =>
    cases hannotations : pathUnder "annotations." name with
    | some path =>
      refine ⟨eventWith route "annotations" (nest (splitDots path) (.str value)).asDict,
        eventWith_bare (by decide +kernel), ?_⟩
      rw [getAlertGroupFieldValue, hlabels, hannotations, eventWith_mapping (by decide +kernel)]
      exact hnested path
    | none =>
      cases hpayload : pathUnder "payload." name with
      | some path =>
        refine ⟨eventWith route "payload" (nest (splitDots path) (.str value)).asDict,
          eventWith_bare (by decide +kernel), ?_⟩
        rw [getAlertGroupFieldValue, hlabels, hannotations, hpayload,
          eventWith_mapping (by decide +kernel)]
        exact hnested path
      | none =>
        refine ⟨eventWith route "labels" [(name, .str value)],
          eventWith_bare (by decide +kernel), ?_⟩
        rw [getAlertGroupFieldValue, hlabels, hannotations, hpayload]
        dsimp only
        rw [if_neg hnot, eventFieldValue, eventWith_mapping (by decide +kernel)]
        simp [Dict.has, Dict.getD, Dict.get_cons]

/-- The first grouping field that the event decides. -/
theorem exists_first (hname : name ∈ effectiveGroupBy route) (hnot : name ∉ routeFields) :
    ∃ front first behind, effectiveGroupBy route = front ++ first :: behind ∧
      (∀ m ∈ front, m ∈ routeFields) ∧ first ∉ routeFields := by
  have hsome : ((effectiveGroupBy route).find? (· ∉ routeFields)).isSome = true :=
    List.find?_isSome.mpr ⟨name, hname, decide_eq_true hnot⟩
  obtain ⟨first, hfirst⟩ := Option.isSome_iff_exists.mp hsome
  obtain ⟨hfirst, front, behind, hsplit, hfront⟩ := List.find?_eq_some_iff_append.mp hfirst
  exact ⟨front, first, behind, hsplit, fun m hm => by simpa using hfront m hm, of_decide_eq_true hfirst⟩

/-- A text that starts with no space and ends with none is its own normal form. -/
theorem normalize_ofList {c : Char} {text : List Char} (hc : isSpace c = false)
    (h : Trimmed (c :: text)) :
    normalizeGroupKeyValue (.str (String.ofList (c :: text))) = String.ofList (c :: text) := by
  show strip (String.ofList (c :: text)) = _
  refine strip_eq_self ?_ ?_
  · rw [String.toList_ofList]
    rintro d ⟨⟩
    exact hc
  · rwa [String.toList_ofList]

/-- A trimmed deduplication key is its own fallback. -/
theorem fallbackText_of_dedupKey {c : Char} {text : List Char} (hc : isSpace c = false)
    (h : Trimmed (c :: text)) (ha : a.data.getD "dedup_key" = .str (String.ofList (c :: text))) :
    (fallbackText a).toList = c :: text := by
  have hne : String.ofList (c :: text) ≠ "" := by
    rw [Ne, ← String.toList_inj, String.toList_ofList]
    exact nofun
  rw [fallbackText, fallbackGroupKeyValue, ha, orElse, truthy, bne_iff_ne.mpr hne]
  rw [if_pos rfl, normalize_ofList hc h, String.toList_ofList]

/-- The texts of the fields in a blank event do not depend on its key. -/
theorem blankEvent_texts (dedupKey dedupKey' : String) {names : List String}
    (h : ∀ m ∈ names, m ∈ effectiveGroupBy route) :
    groupTexts route service (blankEvent route dedupKey) names =
      groupTexts route service (blankEvent route dedupKey') names := by
  refine List.map_congr_left fun m hm => ?_
  by_cases hfixed : m ∈ routeFields
  · rw [(blankEvent_bare dedupKey).routeField_eq (blankEvent_bare dedupKey') hfixed]
  · rw [blankEvent_text (h m hm) hfixed, blankEvent_text (h m hm) hfixed]

/-- **Where the event decides a grouping field, two groups have one key.** One event has no value
under the first such field; the value of the other is the text of the fields behind it. -/
theorem exists_collision (hname : name ∈ effectiveGroupBy route) (hnot : name ∉ routeFields) :
    ∃ a b, ResolvedTo route service a b ∧
      buildGroupKey route service a = buildGroupKey route service b ∧
      ¬SameGroup route service a b := by
  have hne : effectiveGroupBy route ≠ [] := List.ne_nil_of_mem hname
  obtain ⟨front, first, behind, hsplit, hfront, hfirst⟩ := exists_first hname hnot
  have hmem : first ∈ effectiveGroupBy route := by simp [hsplit]
  -- the value takes in the fields behind it and the start of a fallback value
  let behindText := fields '|' '=' (groupTexts route service (blankEvent route "") behind)
  let value := behindText ++ field '|' '=' ("fallback_dedup_key".toList, ['x'])
  obtain ⟨b, hb, hvalue⟩ := @exists_carrying route service first hfirst (String.ofList value)
  obtain ⟨parts, hparts⟩ := @exists_groupParts route service b hne
  -- the fallback value of the blank event is what the other event has behind the value
  let tail := fields '|' '=' (groupTexts route service b behind) ++ fields '|' '=' (parts.map textPart)
  let a := blankEvent route (String.ofList ('x' :: tail))
  have ha : Bare route a := blankEvent_bare _
  have htail : Trimmed ('x' :: tail) := by
    have hfields : tail = fields '|' '=' ((behind.map (fun name =>
        (name, getAlertGroupFieldValue route service name b)) ++ parts).map textPart) := by
      simp [tail, fields_append, groupTexts, groupText, textPart, Function.comp_def]
    cases htailEq : tail with
    | nil =>
      rintro c ⟨⟩
      rfl
    | cons c rest =>
      refine trimmed_append (s := ['x']) (List.cons_ne_nil _ _) ?_
      rw [← htailEq, hfields]
      exact fields_trimmed
  have hfallback : (fallbackText a).toList = 'x' :: tail :=
    fallbackText_of_dedupKey (by decide +kernel) htail rfl
  have hvalueText : groupText route service b first = String.ofList value := by
    rw [groupText, hvalue]
    have hlast : Trimmed value := trimmed_append (List.cons_ne_nil _ _)
      (trimmed_of_all (by decide +kernel))
    obtain ⟨rest, hrest⟩ : ∃ rest, value = '|' :: rest := by
      cases behind with
      | nil => exact ⟨_, rfl⟩
      | cons => exact ⟨_, rfl⟩
    rw [hrest] at hlast ⊢
    exact normalize_ofList (by decide +kernel) hlast
  have hincomplete : Incomplete route service a := .inr ⟨first, hmem, blankEvent_text hmem hfirst⟩
  have hfrontTexts : groupTexts route service a front = groupTexts route service b front :=
    List.map_congr_left fun m hm => by rw [ha.routeField_eq hb (hfront m hm)]
  refine ⟨a, b, ha.resolvedTo hb, (key_eq_iff_group (ha.resolvedTo hb)).mpr ⟨?_, ?_⟩, ?_⟩
  · exact ha.sourceText_eq.trans hb.sourceText_eq.symm
  · have htexts : groupTexts route service a (effectiveGroupBy route) =
        groupTexts route service b front ++ (first.toList, []) ::
          groupTexts route service (blankEvent route "") behind := by
      rw [hsplit, groupTexts, List.map_append, List.map_cons, blankEvent_text hmem hfirst]
      exact congrArg₂ _ hfrontTexts (congrArg _
        (blankEvent_texts _ _ fun m hm => by simp [hsplit, hm]))
    have htexts' : groupTexts route service b (effectiveGroupBy route) =
        groupTexts route service b front ++ (first.toList, value) :: groupTexts route service b behind := by
      rw [hsplit, groupTexts, List.map_append, List.map_cons, hvalueText, String.toList_ofList]
      rfl
    have hshift := @fields_shift _ '|' '=' first.toList "fallback_dedup_key".toList ['x'] tail
      (groupTexts route service (blankEvent route "") behind)
    rw [groupParts_incomplete hne hincomplete, hparts, htexts, htexts', fallbackField, hfallback]
    simp only [fields_append, fields_cons, fields_nil, List.append_assoc, List.append_nil,
      List.cons_append, List.nil_append] at hshift ⊢
    rw [hshift]
  · intro hsame
    have hempty := hsame.values first hmem
    rw [blankEvent_text hmem hfirst, hvalueText, eq_comm, ← String.toList_inj,
      String.toList_ofList] at hempty
    exact List.cons_ne_nil _ _ (List.append_eq_nil_iff.mp hempty).2

end Collision

/-! ## Main results -/

/-- **The keys of a route separate its groups iff the route, the service and the source fix its
grouping fields, and values without the separator are separated on every route.** -/
theorem groupKey_separates_iff (route : GroupingRoute) (service : Option Service) :
    ((∀ a b, ResolvedTo route service a b →
        buildGroupKey route service a = buildGroupKey route service b →
          SameGroup route service a b) ↔
      ∀ name ∈ effectiveGroupBy route, name ∈ routeFields) ∧
    ∀ a b, ResolvedTo route service a b → Plain route service a → Plain route service b →
      buildGroupKey route service a = buildGroupKey route service b → SameGroup route service a b := by
  refine ⟨⟨fun h name hname => ?_, fun hfixed a b hab hkey => sameGroup_of_fixed hfixed hab hkey⟩,
    fun a b hab ha hb hkey => sameGroup_of_plain hab ha hb hkey⟩
  by_contra hnot
  obtain ⟨a, b, hab, hkey, hother⟩ := @exists_collision route service name hname hnot
  exact hother (h a b hab hkey)

/-- A route that groups by the name of the alert and the instance. -/
def byInstance : GroupingRoute where
  id := 1
  team := { id := 1, group := none, active := true, deleted := false, slug := "ops", name := "Ops" }
  service := none
  name := "disks"
  source := "alertmanager"
  enabled := true
  deleted := false
  groupBy := .list [.str "alertname", .str "instance"]
  sourcePlain := by decide +kernel

def instanceEvent (alertname host : String) : AlertData where
  data := [("source", .str "alertmanager"),
    ("labels", .obj [("alertname", .str alertname), ("instance", .str host)])]
  mappings := by
    intro key hkey
    simp only [List.mem_cons, List.not_mem_nil, or_false] at hkey
    rcases hkey with rfl | rfl
    · exact ⟨_, rfl⟩
    · exact ⟨[], rfl⟩

/-- **Two alerts of different names and instances have one key.** -/
theorem separator_merges_groups : ¬∀ (route : GroupingRoute) (service : Option Service) a b,
    ResolvedTo route service a b → buildGroupKey route service a = buildGroupKey route service b →
      SameGroup route service a b := by
  intro h
  have hsame := h byInstance none (instanceEvent "Disk" "a|instance=b")
    (instanceEvent "Disk|instance=a" "b")
    ⟨by decide +kernel, by decide +kernel, by decide +kernel⟩ (by decide +kernel)
  exact absurd (hsame.values "alertname" (by decide +kernel)) (by decide +kernel)

end IncidentRelay.RouteSelection
