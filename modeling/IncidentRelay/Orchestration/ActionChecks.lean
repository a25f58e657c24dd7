import IncidentRelay.Integrations.Payload
import IncidentRelay.Orchestration.JsonPaths
import IncidentRelay.Orchestration.Templates

/-!
# The checks of an action

`validate_extractor` and `validate_action` on any JSON value. A check reads the fields of an
action under no assumption about their types: a list or an object has no hash, `repr` refuses an
integer of too many digits, and `int` an infinite float.

* `reports_validateExtractor`, `reports_validateAction`: where the templates of an action fit, its
  validation reports, if and only if its fields fit (`FieldsFit`).
-/

namespace IncidentRelay.Orchestration

open Json

/-- The functions of the standard library that a validation uses. -/
structure RuleLibrary where
  py : PyLibrary
  /-- `ast.literal_eval` -/
  literalEval : String → Except LiteralError Literal
  /-- `re.compile(pattern).groups` -/
  groups : String → ℕ
  /-- the names in `re.compile(pattern).groupindex` -/
  groupIndex : String → List String

/-! ## Types -/

def extractionTypes : List String :=
  ["extract_regex", "copy_field", "copy_to_variable", "json_path", "split", "set_variable", "static",
    "lowercase", "uppercase", "trim"]

def failureModes : List String := ["continue", "stop_rule", "stop_orchestration"]
def eventActions : List String := ["trigger", "resolve"]
def traceLevels : List String := ["full", "compact", "disabled"]
def alertEventHistoryLevels : List String := ["full", "initial", "disabled"]

/-- The keys of `_TEXT_FIELD_ACTIONS` -/
def textFieldActions : List String :=
  ["set_title", "set_message", "set_description", "set_severity", "set_priority", "set_dedup_key",
    "set_group_key"]

/-- `_ROUTING_ACTIONS` and `_POLICY_ACTIONS`, with the keys under which the reference may be. -/
def referenceActions : List (String × List String) :=
  [("set_route", ["route_id", "value"]), ("set_team", ["team_id", "value"]),
    ("set_service", ["service_id", "value"]),
    ("set_escalation_policy", ["escalation_policy_id", "policy_id", "value"]),
    ("set_notification_policy", ["notification_policy_id", "policy_id", "value"]),
    ("set_priority_policy", ["priority_policy_id", "policy_id", "value"])]

def supportedActionTypes : List String :=
  extractionTypes ++ textFieldActions ++ referenceActions.map Prod.fst ++
    ["set_event_action", "set_trace_level", "set_alert_event_history", "set_label", "remove_label",
      "set_custom_field", "remove_custom_field", "set_grouping", "add_note", "suppress", "drop", "pause",
      "enqueue_webhook"]

def maxLabelNameLength : ℕ := 128
def maxCustomFieldNameLength : ℕ := 128
def maxPauseSeconds : ℕ := 604800
def maxGroupWindowSeconds : ℕ := 86400
def maxReopenWindowSeconds : ℕ := 86400

/-! ## Fields -/

/-- `value in texts`, for a set of texts. -/
def inTexts (value : Json) (texts : List String) : Except PyError Bool :=
  match value with
  | .list _ | .obj _ => .error (.other "TypeError")
  | .str text => .ok (text ∈ texts)
  | _ => .ok false

/-- The issue of a value that is none of the texts. -/
def choiceIssues (value : Json) (texts : List String) (path code message : String) :
    Except PyError (List ValidationIssue) :=
  (inTexts value texts).map fun known => issueIf (!known) path code message

/-- The value of an integer that is no boolean. -/
def plainInteger : Json → Option Int
  | .int n => some n
  | _ => none

/-- An integer from `lo` to `hi`. -/
def isWithin (lo hi : Int) (value : Json) : Bool := (plainInteger value).any fun n => lo ≤ n ∧ n ≤ hi

/-- `action.get("on_failure", "continue")` -/
def failureMode (action : Dict) : Json := (action.get "on_failure").getD (.str "continue")

def failureModeIssues (action : Dict) (path : String) : Except PyError (List ValidationIssue) :=
  choiceIssues (failureMode action) failureModes (path ++ ".on_failure") "invalid_failure_mode"
    "on_failure must be continue, stop_rule or stop_orchestration"

/-- `f"{value!r}"` of a value that is no list and no object. -/
def reprText : Json → Except PyError String
  | .int n => if oversized n then .error (.other "ValueError") else .ok (Json.int n).repr
  | value => .ok value.repr

/-- The templates of a value that may hold one. -/
def templateIssues (literalEval : String → Except LiteralError Literal) (value : Option Json) (path : String) :
    Except PyError (List ValidationIssue) :=
  match value with
  | some (.str text) => if hasDelimiter text.toList then validateTemplateText literalEval text path else .ok []
  | _ => .ok []

/-! ## Extractors -/

/-- `_validate_variable_name(name)` -/
def variableNameMessage : Json → Option String
  | .str name => validateVariableName name
  | _ => some "variable name is required"

def nameIssues (name : Json) (path : String) : List ValidationIssue :=
  ((variableNameMessage name).map fun message => ⟨path, "invalid_variable_name", message, "error"⟩).toList

/-- `_extractor_target(extractor)` -/
def extractorTarget (extractor : Dict) : Json := (extractor.get "name").getD (extractor.getD "target")

def sourceIssues (source : Json) (path : String) : List ValidationIssue :=
  match normalizeFieldReference source with
  | .ok _ => []
  | .error e => [⟨path ++ ".source", "invalid_field_reference", e.message, "error"⟩]

section Checks

variable (lib : RuleLibrary)

/-- The compiled pattern, and what is reported of it. -/
def compilePattern (pattern : Json) (path : String) :
    Except PyError (Option String × List ValidationIssue) :=
  match compileSafeRegex lib.py.re pattern with
  | .ok normalized => .ok (some normalized, [])
  | .error (.regex message) => .ok (none, [⟨path ++ ".pattern", "unsafe_regex", message, "error"⟩])
  | .error e => .error (.other e.code)

/-- The group of a target, in a pattern that compiles. -/
def groupIssues (pattern : String) (group : Json) (path : String) : List ValidationIssue :=
  let report (message : String) : List ValidationIssue :=
    [⟨path ++ ".group", "invalid_regex_group", message, "error"⟩]
  match group with
  | .null => []
  | .int n =>
    if n < 0 ∨ lib.groups pattern < n then report "regex group index does not exist" else []
  | .str name => if name ∈ lib.groupIndex pattern then [] else report "named regex group does not exist"
  | _ => report "regex group must be an integer index or named group"

def regexIssues (extractor : Dict) (path : String) : Except PyError (List ValidationIssue) := do
  let (compiled, patternIssues) ← compilePattern lib (extractor.getD "pattern") path
  let target := extractorTarget extractor
  let targetIssues :=
    if target ≠ .null then
      nameIssues target (path ++ ".name") ++
        (compiled.map fun pattern => groupIssues lib pattern (extractor.getD "group") path).getD []
    else issueIf (compiled.any fun pattern => (lib.groupIndex pattern).isEmpty) path
      "missing_regex_targets" "regex extraction without a target requires named groups"
  return sourceIssues (extractor.getD "source") path ++ patternIssues ++ targetIssues

/-- The targets of a split, with those that were seen. -/
def splitTargetIssues (path : String) (index : ℕ) (seen : List Json) : List Json → List ValidationIssue
  | [] => []
  | name :: names =>
    let at_ := path ++ ".targets[" ++ toString index ++ "]"
    match nameIssues name at_ with
    | [] =>
      if name ∈ seen then
        ⟨at_, "duplicate_variable_name", "split targets must be unique", "error"⟩ ::
          splitTargetIssues path (index + 1) seen names
      else splitTargetIssues path (index + 1) (name :: seen) names
    | issues => issues ++ splitTargetIssues path (index + 1) seen names

def splitIssues (extractor : Dict) (path : String) : List ValidationIssue :=
  let delimiterIssues := match extractor.getD "delimiter" with
    | .str delimiter => issueIf (delimiter = "") (path ++ ".delimiter") "invalid_delimiter"
        "split delimiter must be a non-empty string"
    | _ => issueIf true (path ++ ".delimiter") "invalid_delimiter"
        "split delimiter must be a non-empty string"
  let targetIssues := match extractor.getD "targets" with
    | .null =>
      let target := extractorTarget extractor
      if target ≠ .null then
        nameIssues target (path ++ ".name") ++
          issueIf (!(plainInteger (extractor.getD "index")).any (0 ≤ ·)) (path ++ ".index")
            "invalid_split_index" "split index must be a non-negative integer"
      else issueIf true path "missing_split_target" "split requires name and index, or targets"
    | .list (name :: names) =>
      issueIf (maxVariables < (name :: names).length) (path ++ ".targets") "variable_limit"
        "split has too many targets" ++ splitTargetIssues path 0 [] (name :: names)
    | _ => issueIf true (path ++ ".targets") "invalid_targets" "split targets must be a non-empty list"
  sourceIssues (extractor.getD "source") path ++ delimiterIssues ++ targetIssues

/-- The branch of `validate_extractor` for a type. -/
def extractionIssues (type : String) (extractor : Dict) (path : String) :
    Except PyError (List ValidationIssue) :=
  let targetIssues := nameIssues (extractorTarget extractor) (path ++ ".name")
  if type = "extract_regex" then regexIssues lib extractor path
  else if type = "copy_field" ∨ type = "copy_to_variable" then
    .ok (sourceIssues (extractor.getD "source") path ++ targetIssues)
  else if type = "json_path" then
    (validateJsonPath lib.py (extractor.getD "path")).map fun message =>
      sourceIssues ((extractor.get "source").getD (.str "raw")) path ++
        (message.map fun message => ⟨path ++ ".path", "invalid_json_path", message, "error"⟩).toList ++
        targetIssues
  else if type = "split" then .ok (splitIssues extractor path)
  else if type = "set_variable" ∨ type = "static" then
    (templateIssues lib.literalEval (extractor.get "value") (path ++ ".value")).map (targetIssues ++ ·)
  else .ok (sourceIssues (extractor.getD "source") path ++ targetIssues)

/-- `validate_extractor(extractor, path=…)` -/
def validateExtractor (extractor : Dict) (path : String) : Except PyError (List ValidationIssue) := do
  let type := extractor.getD "type"
  let known ← inTexts type extractionTypes
  if !known then
    let shown ← reprText type
    return [⟨path ++ ".type", "unsupported_extractor", "unsupported variable extractor " ++ shown, "error"⟩]
  runChecks [failureModeIssues extractor path, extractionIssues lib type.pyStr extractor path]

/-! ## Actions -/

/-- `_action_value_sources(action)` -/
def actionValueSources (action : Dict) : List String :=
  ["value", "value_from", "template"].filter (action.has ·)

/-- The context in which a reference is tried. -/
def rootContext : Dict := allowedRoots.map fun root => (root, .obj [])

def valueFromIssues (action : Dict) (path : String) : List ValidationIssue :=
  match action.get "value_from" with
  | none => []
  | some reference =>
    match resolveField rootContext reference with
    | .ok _ => []
    | .error e => [⟨path ++ ".value_from", "invalid_field_reference", e.message, "error"⟩]

/-- `_validate_value_source(action, path=…)` -/
def valueSourceIssues (action : Dict) (path : String) : Except PyError (List ValidationIssue) :=
  let sources := actionValueSources action
  runChecks
    [.ok (issueIf sources.isEmpty path "missing_action_value"
      "action requires value, value_from or template"),
     .ok (issueIf (1 < sources.length) path "conflicting_action_value"
      "action value sources are mutually exclusive"),
     .ok (valueFromIssues action path),
     templateIssues lib.literalEval (action.get "value") (path ++ ".value"),
     match action.get "template" with
     | some (.str text) => validateTemplateText lib.literalEval text (path ++ ".template")
     | _ => .ok []]

/-- `^[A-Za-z_][A-Za-z0-9_.:-]*$` -/
def isLabelName (name : String) : Bool :=
  match name.toList with
  | [] => false
  | c :: cs => isNameStart c && cs.all fun c => isNameChar c || c == '.' || c == ':'

/-- `_validate_name(value, path=…, max_length=…)` -/
def validateName (value : Json) (path : String) (maxLength : ℕ) : Except PyError Unit :=
  match value with
  | .str name =>
    if name = "" then .error (.evaluation "name is required" path)
    else if maxLength < name.length then .error (.evaluation "name exceeds the size limit" path)
    else if isLabelName name then .ok ()
    else .error (.evaluation ("name must start with a letter or underscore and contain only letters, " ++
      "numbers, dot, colon, dash or underscore") path)
  | _ => .error (.evaluation "name is required" path)

/-- The digits of `int(text)`, with single underscores between them. -/
def integerDigits (afterDigit : Bool) : List Char → Option (List ℕ)
  | [] => if afterDigit then some [] else none
  | c :: rest =>
    match Decimal.digit c with
    | some d => (integerDigits true rest).map (d :: ·)
    | none => if c = '_' ∧ afterDigit = true then integerDigits false rest else none

/-- `int(text)`, where it raises nothing. -/
def integerOfText (text : String) : Option Int :=
  let (negative, digits) := Decimal.sign (strip text).toList
  match integerDigits false digits with
  | none => none
  | some ds =>
    if maxIntegerDigits < ds.length then none
    else some (if negative then -(Decimal.value ds) else Decimal.value ds)

/-- An infinite float. -/
def isInfinite : Json → Bool
  | .float t => t.text = "inf" ∨ t.text = "-inf"
  | _ => false

/-- `int(value) > 0`; a float is cut off behind the point. -/
def positiveInt : Json → Except PyError Bool
  | .int n => .ok (0 < n)
  | .bool b => .ok b
  | .float t =>
    if t.text = "nan" then .error (.other "ValueError")
    else if t.text = "inf" ∨ t.text = "-inf" then .error (.other "OverflowError")
    else .ok ((Decimal.ofText t.text).any fun d => !Decimal.lt d ⟨1, 0⟩)
  | .str text =>
    match integerOfText text with
    | some n => .ok (0 < n)
    | none => .error (.other "ValueError")
  | .null | .list _ | .obj _ => .error (.other "TypeError")

/-- `_positive_id(value, path=…)`, but for the id. -/
def positiveId (value : Json) (path : String) : Except PyError Unit :=
  let refused : Except PyError Unit :=
    .error (.evaluation "reference id must be a positive integer" path)
  match value with
  | .bool _ => refused
  | value =>
    match positiveInt value with
    | .ok true => .ok ()
    | .ok false => refused
    | .error e => if e = .other "TypeError" ∨ e = .other "ValueError" then refused else .error e

/-- The references that are given, each with where it is. -/
def presentReferences (action : Dict) (keys : List String) : List (String × Json) :=
  let present (d : Dict) (at_ : String) : List (String × Json) :=
    keys.filterMap fun key =>
      match d.get key with
      | none | some .null | some (.str "") => none
      | some value => some (at_ ++ key, value)
  present action "" ++
    match action.getD "params" with
    | .obj params => present params "params."
    | _ => []

/-- `_static_reference(action, keys, path=…)`, but for the id. -/
def staticReference (action : Dict) (keys : List String) (path : String) : Except PyError Unit :=
  match presentReferences action keys with
  | [(source, value)] => positiveId value (path ++ "." ++ source)
  | _ => .error (.evaluation "action requires exactly one static reference id" path)

/-- `except ActionValidationError` -/
def invalidAction (x : Except PyError Unit) : Except PyError (List ValidationIssue) :=
  match x with
  | .ok () => .ok []
  | .error (.evaluation message path) => .ok [⟨path, "invalid_action", message, "error"⟩]
  | .error e => .error e

def groupingIssues (action : Dict) (path : String) : Except PyError (List ValidationIssue) :=
  let keys := ["dedup_key", "group_key", "window_seconds", "reopen_window_seconds", "strategy"]
  let windowIssues (key code message : String) (limit : ℕ) : List ValidationIssue :=
    match action.get key with
    | none => []
    | some value => issueIf (!isWithin 0 limit value) (path ++ "." ++ key) code message
  runChecks
    (.ok (issueIf (!keys.any (action.has ·)) path "empty_grouping_action"
        "set_grouping requires at least one grouping field") ::
      .ok (windowIssues "window_seconds" "invalid_group_window"
        "grouping window must be between 0 and 86400 seconds" maxGroupWindowSeconds) ::
      .ok (windowIssues "reopen_window_seconds" "invalid_reopen_window"
        "reopen window must be between 0 and 86400 seconds" maxReopenWindowSeconds) ::
      ["dedup_key", "group_key", "strategy"].map fun key =>
        templateIssues lib.literalEval (action.get key) (path ++ "." ++ key))

/-- `action.get("retrigger", "preserve")` -/
def retrigger (action : Dict) : Json := (action.get "retrigger").getD (.str "preserve")

def pauseIssues (action : Dict) (path : String) : Except PyError (List ValidationIssue) :=
  runChecks
    [.ok (issueIf (!isWithin 1 maxPauseSeconds (action.getD "seconds")) (path ++ ".seconds")
      "invalid_pause_duration" "pause duration must be between 1 and 604800 seconds"),
     choiceIssues (retrigger action) ["preserve", "reset"] (path ++ ".retrigger")
      "invalid_pause_retrigger" "pause retrigger must be preserve or reset"]

/-- The branch of `validate_action` for a type. -/
def bodyIssues (type : String) (action : Dict) (path : String) : Except PyError (List ValidationIssue) :=
  if type = "set_event_action" ∧ action.has "value" then
    choiceIssues (action.getD "value") eventActions (path ++ ".value") "invalid_event_action"
      "event action must be trigger or resolve"
  else if type = "set_trace_level" then
    choiceIssues (action.getD "level") traceLevels (path ++ ".level") "invalid_trace_level"
      "trace level must be full, compact or disabled"
  else if type = "set_alert_event_history" then
    choiceIssues (action.getD "level") alertEventHistoryLevels (path ++ ".level")
      "invalid_alert_event_history" "alert event history must be full, initial or disabled"
  else if type = "set_label" ∨ type = "remove_label" then
    invalidAction (validateName ((action.get "name").getD (action.getD "label")) (path ++ ".name")
      maxLabelNameLength)
  else if type = "set_custom_field" ∨ type = "remove_custom_field" then
    invalidAction (validateName ((action.get "name").getD (action.getD "field")) (path ++ ".name")
      maxCustomFieldNameLength)
  else
    match referenceActions.lookup type with
    | some keys => invalidAction (staticReference action keys path)
    | none =>
      if type = "set_grouping" then groupingIssues lib action path
      else if type = "pause" then pauseIssues action path
      else if type = "enqueue_webhook" then
        let actionId := (action.get "action_id").getD (action.getD "webhook_action_id")
        .ok (issueIf (!(plainInteger actionId).any (0 < ·)) (path ++ ".action_id") "invalid_webhook_action"
          "enqueue_webhook requires a positive integer action_id")
      else .ok []

/-- The reason of a disposition. -/
def reasonIssues (action : Dict) (path : String) : Except PyError (List ValidationIssue) :=
  match action.getD "reason" with
  | .null => .ok []
  | .str text => templateIssues lib.literalEval (some (.str text)) (path ++ ".reason")
  | _ => .ok [⟨path ++ ".reason", "invalid_disposition_reason", "disposition reason must be a string",
      "error"⟩]

/-- `validate_action(action, path=…)` of an object. -/
def validateActionObject (action : Dict) (path : String) : Except PyError (List ValidationIssue) := do
  let type := action.getD "type"
  let known ← inTexts type supportedActionTypes
  if !known then
    let shown ← reprText type
    return [⟨path ++ ".type", "unsupported_action", "unsupported orchestration action " ++ shown, "error"⟩]
  let type := type.pyStr
  if type ∈ extractionTypes then validateExtractor lib action path
  else
    runChecks
      [failureModeIssues action path,
       if type ∈ textFieldActions ++ ["set_event_action", "set_label", "set_custom_field", "add_note"] then
         valueSourceIssues lib action path
       else .ok [],
       bodyIssues lib type action path,
       if type ∈ ["suppress", "pause", "drop"] then reasonIssues lib action path else .ok []]

/-- `validate_action(action, path=…)` -/
def validateAction (action : Json) (path : String) : Except PyError (List ValidationIssue) :=
  match action with
  | .obj action => validateActionObject lib action path
  | _ => .ok [⟨path, "invalid_action", "action must be an object", "error"⟩]

end Checks

/-! ## What fits -/

/-- What is checked of a pattern before it is compiled. -/
structure PatternPasses (re : Re) (pattern : String) : Prop where
  short : pattern.length ≤ maxRegexPatternLength
  noNul : Char.ofNat 0 ∉ pattern.toList
  permitted : ∀ p ∈ forbiddenPatterns, re.search p.1 (normalizeNamedGroups re pattern) = false
  notNested : re.search nestedQuantifier (normalizeNamedGroups re pattern) = false
  notAlternating : re.search quantifiedAlternation (normalizeNamedGroups re pattern) = false
  notAmbiguous : re.search ambiguousDotRepeat (normalizeNamedGroups re pattern) = false
  quantifiers : countChars ['*', '+', '?', openBrace] (normalizeNamedGroups re pattern) ≤ 64
  alternatives : countChars ['|'] (normalizeNamedGroups re pattern) ≤ 32

/-- Of a text that passes the checks in front of it, the compiler raises nothing but
`re.error`. -/
def PatternFits (re : Re) (pattern : Json) : Prop :=
  ∀ text, pattern = .str text → PatternPasses re text →
    ∀ className, re.compile (normalizeNamedGroups re text) ≠ .error (.other className)

/-- The fields of an action that are hashed, compiled or converted. -/
structure FieldsFit (lib : RuleLibrary) (type : String) (action : Dict) : Prop where
  failureMode : isContainer (failureMode action) = false
  pattern : type = "extract_regex" → PatternFits lib.py.re (action.getD "pattern")
  eventAction : type = "set_event_action" → isContainer (action.getD "value") = false
  level : type = "set_trace_level" ∨ type = "set_alert_event_history" →
    isContainer (action.getD "level") = false
  retrigger : type = "pause" → isContainer (retrigger action) = false
  reference : ∀ keys, referenceActions.lookup type = some keys → ∀ source value,
    presentReferences action keys = [(source, value)] → isInfinite value = false

/-- The texts of an action fit as templates. -/
def TextsFit (lib : RuleLibrary) (action : Dict) : Prop :=
  ∀ key text, action.get key = some (.str text) → TemplateFits lib.literalEval text

/-! ## The fields -/

theorem reports_choiceIssues {value : Json} {texts : List String} {path code message : String} :
    Reports (choiceIssues value texts path code message) ↔ isContainer value = false := by
  unfold choiceIssues
  cases value <;> simp [inTexts, isContainer]

/-- A refused pattern is reported, or the compiler raised something else. -/
theorem validateRegexPattern_error {re : Re} {pattern : Json} {e : EvalError}
    (h : validateRegexPattern re pattern = .error e) :
    (∃ message, e = .regex message) ∨ ∃ className, e = .other className := by
  unfold validateRegexPattern at h
  dsimp only at h
  repeat' split at h
  all_goals first
    | cases h; exact .inl ⟨_, rfl⟩
    | cases h; exact .inr ⟨_, rfl⟩
    | cases h

/-- The validation of a pattern that passes raises what the compiler raises. -/
theorem validateRegexPattern_passes {re : Re} {text className : String}
    (h : PatternPasses re text) :
    validateRegexPattern re (.str text) = .error (.other className) ↔
      re.compile (normalizeNamedGroups re text) = .error (.other className) := by
  have hpermitted : forbiddenPatterns.find? (fun p => re.search p.1 (normalizeNamedGroups re text)) =
      none := List.find?_eq_none.mpr fun p hp => by simp [h.permitted p hp]
  simp only [validateRegexPattern, if_neg (Nat.not_lt_of_ge h.short), if_neg h.noNul, hpermitted,
    h.notNested, h.notAlternating, h.notAmbiguous, if_neg (Nat.not_lt_of_ge h.quantifiers),
    if_neg (Nat.not_lt_of_ge h.alternatives), Bool.false_eq_true, if_false]
  rcases re.compile (normalizeNamedGroups re text) with (message | other) | _ <;> simp

/-- A check raises its own error only. -/
theorem check_eq_other {p : Prop} [Decidable p] {message className : String}
    {x : Except EvalError String} :
    (if p then .error (.regex message) else x) = .error (.other className) ↔
      ¬p ∧ x = .error (.other className) := by
  split_ifs with hp <;> simp [hp]

/-- A class of exceptions that is not the validation's own comes from the compiler. -/
theorem passes_of_other {re : Re} {pattern : Json} {className : String}
    (h : validateRegexPattern re pattern = .error (.other className)) :
    ∃ text, pattern = .str text ∧ PatternPasses re text := by
  unfold validateRegexPattern at h
  split at h
  next text =>
    refine ⟨text, rfl, ?_⟩
    dsimp only at h
    -- the checks in front of the compilation fail with a message
    obtain ⟨hlong, h⟩ := check_eq_other.mp h
    obtain ⟨hnul, h⟩ := check_eq_other.mp h
    split at h
    · cases h
    next hpermitted =>
      simp only [check_eq_other] at h
      obtain ⟨hnested, halternation, hambiguous, hquantifiers, halternatives, -⟩ := h
      exact ⟨Nat.not_lt.mp hlong, hnul,
        fun p hp => Bool.eq_false_iff.mpr (List.find?_eq_none.mp hpermitted p hp),
        Bool.eq_false_iff.mpr hnested, Bool.eq_false_iff.mpr halternation,
        Bool.eq_false_iff.mpr hambiguous, Nat.not_lt.mp hquantifiers, Nat.not_lt.mp halternatives⟩
  · cases h

/-- **A pattern fits, if and only if its validation raises nothing but its own error.** -/
theorem patternFits_iff {re : Re} {pattern : Json} : PatternFits re pattern ↔
    ∀ className, validateRegexPattern re pattern ≠ .error (.other className) := by
  constructor
  · intro hfits className herror
    obtain ⟨text, rfl, hpasses⟩ := passes_of_other herror
    exact hfits text rfl hpasses className ((validateRegexPattern_passes hpasses).mp herror)
  · rintro hvalid text rfl hpasses className hcompile
    exact hvalid className ((validateRegexPattern_passes hpasses).mpr hcompile)

/-- A pattern that is accepted compiles. -/
theorem validateRegexPattern_compiles {re : Re} {pattern : Json} {normalized : String}
    (h : validateRegexPattern re pattern = .ok normalized) : re.compile normalized = .ok () := by
  unfold validateRegexPattern at h
  dsimp only at h
  repeat' split at h
  all_goals cases h
  assumption

/-- A validated pattern compiles once more. -/
theorem compileSafeRegex_eq (re : Re) (pattern : Json) :
    compileSafeRegex re pattern = validateRegexPattern re pattern := by
  unfold compileSafeRegex
  cases hvalid : validateRegexPattern re pattern with
  | error e => rfl
  | ok normalized => simp [bind, Except.bind, validateRegexPattern_compiles hvalid]

section Fits

variable {lib : RuleLibrary} {action : Dict} {path : String}

/-- The pattern of an extraction is compiled. -/
theorem reports_compilePattern {pattern : Json} :
    Reports (compilePattern lib pattern path) ↔ PatternFits lib.py.re pattern := by
  rw [patternFits_iff, compilePattern, compileSafeRegex_eq]
  cases hvalid : validateRegexPattern lib.py.re pattern with
  | ok normalized => simp
  | error e =>
    obtain ⟨message, rfl⟩ | ⟨className, rfl⟩ := validateRegexPattern_error hvalid
    · simp
    · simp

/-- What else is asked of it is about a pattern that compiled. -/
theorem reports_regexIssues :
    Reports (regexIssues lib action path) ↔ PatternFits lib.py.re (action.getD "pattern") := by
  unfold regexIssues
  rw [reports_bind, ← @reports_compilePattern lib path]
  constructor
  · rintro ⟨compiled, hcompiled, -⟩
    exact ⟨compiled, hcompiled⟩
  · rintro ⟨compiled, hcompiled⟩
    exact ⟨compiled, hcompiled, reports_ok _⟩

/-- A template of an action that fits is reported on. -/
theorem reports_templateIssues (h : TextsFit lib action) (key : String) :
    Reports (templateIssues lib.literalEval (action.get key) path) := by
  unfold templateIssues
  split
  · rename_i text hget
    rw [reports_ite]
    exact ⟨fun _ => reports_validateTemplate.mpr (h key text hget), fun _ => reports_ok _⟩
  · exact reports_ok _

/-- A path is accepted or refused with a message. -/
theorem reports_validateJsonPath (py : PyLibrary) (value : Json) : Reports (validateJsonPath py value) := by
  unfold validateJsonPath
  cases value with
  | str text =>
    dsimp only
    split_ifs
    · exact reports_ok _
    · exact reports_ok _
    · cases hparse : parseJsonPath py text with
      | ok tokens => exact reports_ok _
      | error e =>
        obtain ⟨message, rfl⟩ : ∃ message, e = extractionError message := by
          unfold parseJsonPath at hparse
          split at hparse
          · exact pathTokens_error le_rfl hparse
          · cases hparse
            exact ⟨_, rfl⟩
        exact reports_ok _
  | _ => exact reports_ok _

/-- Only the pattern of an extraction may raise. -/
theorem reports_extractionIssues (h : TextsFit lib action) {type : String} :
    Reports (extractionIssues lib type action path) ↔
      (type = "extract_regex" → PatternFits lib.py.re (action.getD "pattern")) := by
  unfold extractionIssues
  dsimp only
  split_ifs with hregex
  · simp [hregex, reports_regexIssues]
  · simp [hregex]
  · simp [hregex, reports_validateJsonPath]
  · simp [hregex]
  · simp [hregex, reports_templateIssues h]
  · simp [hregex]

/-- The source of a value raises nothing in an action that fits. -/
theorem reports_valueSourceIssues (h : TextsFit lib action) : Reports (valueSourceIssues lib action path) := by
  unfold valueSourceIssues
  rw [reports_runChecks]
  simp only [List.forall_mem_cons, reports_ok, reports_templateIssues h, List.not_mem_nil, true_and,
    false_imp_iff, implies_true, and_true]
  split
  · rename_i text hget
    exact reports_validateTemplate.mpr (h "template" text hget)
  · exact reports_ok _

/-- Neither does a name. -/
theorem reports_validateName {value : Json} {maxLength : ℕ} :
    Reports (invalidAction (validateName value path maxLength)) := by
  unfold validateName
  split
  · split_ifs <;> exact reports_ok _
  · exact reports_ok _

/-- Of a reference, an infinite float is the only one that escapes. -/
theorem reports_positiveId {value : Json} :
    Reports (invalidAction (positiveId value path)) ↔ isInfinite value = false := by
  cases value with
  -- an infinite number cannot be made an integer
  | float t =>
    by_cases hinfinite : t.text = "inf" ∨ t.text = "-inf"
    · have hnan : t.text ≠ "nan" := by
        obtain h | h := hinfinite <;> simp [h]
      simp [positiveId, positiveInt, hnan, hinfinite, invalidAction, isInfinite]
    · by_cases hnan : t.text = "nan"
      · simp [positiveId, positiveInt, hnan, invalidAction, isInfinite]
      · cases hpositive : (Decimal.ofText t.text).any fun d => !Decimal.lt d ⟨1, 0⟩ <;>
          simp [positiveId, positiveInt, hnan, hinfinite, hpositive, invalidAction, isInfinite]
  | int n =>
    by_cases hpositive : 0 < n <;> simp [positiveId, positiveInt, hpositive, invalidAction, isInfinite]
  -- a text is read as an integer or refused
  | str text =>
    cases hint : integerOfText text with
    | none => simp [positiveId, positiveInt, hint, invalidAction, isInfinite]
    | some n =>
      by_cases hpositive : 0 < n <;>
        simp [positiveId, positiveInt, hint, hpositive, invalidAction, isInfinite]
  | _ => simp [positiveId, positiveInt, invalidAction, isInfinite]

/-- A reference raises where an infinite float is converted. -/
theorem reports_staticReference {keys : List String} :
    Reports (invalidAction (staticReference action keys path)) ↔ ∀ source value,
      presentReferences action keys = [(source, value)] → isInfinite value = false := by
  unfold staticReference
  split
  · rename_i source value hpresent
    rw [reports_positiveId]
    constructor
    · intro hfinite _ _ heq
      obtain ⟨-, rfl⟩ := Prod.mk.inj (List.singleton_inj.mp (hpresent.symm.trans heq))
      exact hfinite
    · intro hall
      exact hall source value hpresent
  · rename_i hmany
    exact iff_of_true (reports_ok _) fun source value heq => absurd heq (hmany source value)

/-- The fields of a grouping raise nothing. -/
theorem reports_groupingIssues (h : TextsFit lib action) : Reports (groupingIssues lib action path) := by
  unfold groupingIssues
  simp only [reports_runChecks, List.forall_mem_cons, List.map_cons, List.map_nil, reports_ok,
    reports_templateIssues h, true_and]
  exact List.forall_mem_nil _

theorem reports_pauseIssues :
    Reports (pauseIssues action path) ↔ isContainer (retrigger action) = false := by
  unfold pauseIssues
  simp [reports_runChecks, reports_choiceIssues]

/-- A reason raises nothing. -/
theorem reports_reasonIssues (h : TextsFit lib action) : Reports (reasonIssues lib action path) := by
  unfold reasonIssues
  split
  · exact reports_ok _
  · rename_i text hreason
    have hget : action.get "reason" = some (.str text) := by
      unfold Dict.getD at hreason
      cases hfound : action.get "reason" with
      | none =>
        rw [hfound] at hreason
        cases hreason
      | some value =>
        rw [hfound] at hreason
        exact congrArg some hreason
    rw [← hget]
    exact reports_templateIssues h "reason"
  · exact reports_ok _

/-! ## The validation of an action -/

theorem isContainer_getD_of_not_has {key : String} (h : action.has key = false) :
    isContainer (action.getD key) = false := by
  rw [Integrations.has_eq_isSome, Option.isSome_eq_false_iff, Option.isNone_iff_eq_none] at h
  simp [Dict.getD, h, isContainer]

/-- **The fields of an action that is no extraction.** -/
theorem reports_bodyIssues (h : TextsFit lib action) {type : String} :
    Reports (bodyIssues lib type action path) ↔
      (type = "set_event_action" → isContainer (action.getD "value") = false) ∧
      (type = "set_trace_level" ∨ type = "set_alert_event_history" →
        isContainer (action.getD "level") = false) ∧
      (type = "pause" → isContainer (retrigger action) = false) ∧
      ∀ keys, referenceActions.lookup type = some keys → ∀ source value,
        presentReferences action keys = [(source, value)] → isInfinite value = false := by
  -- the types with a check of their own
  by_cases hevent : type = "set_event_action"
  · subst hevent
    have hlookup : referenceActions.lookup "set_event_action" = none := rfl
    cases hvalue : action.has "value" with
    | true => simp [bodyIssues, hvalue, hlookup, reports_choiceIssues]
    | false => simp [bodyIssues, hvalue, hlookup, isContainer_getD_of_not_has hvalue]
  by_cases htrace : type = "set_trace_level"
  · subst htrace
    have hlookup : referenceActions.lookup "set_trace_level" = none := rfl
    simp [bodyIssues, hlookup, reports_choiceIssues]
  by_cases hhistory : type = "set_alert_event_history"
  · subst hhistory
    have hlookup : referenceActions.lookup "set_alert_event_history" = none := rfl
    simp [bodyIssues, hlookup, reports_choiceIssues]
  by_cases hpause : type = "pause"
  · subst hpause
    have hlookup : referenceActions.lookup "pause" = none := rfl
    simp [bodyIssues, hlookup, reports_pauseIssues]
  -- the types whose name is checked
  by_cases hlabel : type = "set_label" ∨ type = "remove_label" ∨ type = "set_custom_field" ∨
      type = "remove_custom_field"
  · have hlookup : referenceActions.lookup type = none := by
      obtain rfl | rfl | rfl | rfl := hlabel <;> rfl
    refine iff_of_true ?_ ⟨by simp [hevent], by simp [htrace, hhistory], by simp [hpause], by simp [hlookup]⟩
    unfold bodyIssues
    rw [if_neg (by simp [hevent]), if_neg htrace, if_neg hhistory]
    obtain hlabel | hlabel | hlabel | hlabel := hlabel <;> simp [hlabel, reports_validateName]
  · have hbody : bodyIssues lib type action path =
        match referenceActions.lookup type with
        | some keys => invalidAction (staticReference action keys path)
        | none =>
          if type = "set_grouping" then groupingIssues lib action path
          else if type = "enqueue_webhook" then
            let actionId := (action.get "action_id").getD (action.getD "webhook_action_id")
            .ok (issueIf (!(plainInteger actionId).any (0 < ·)) (path ++ ".action_id") "invalid_webhook_action"
              "enqueue_webhook requires a positive integer action_id")
          else .ok [] := by
      simp only [not_or] at hlabel
      simp [bodyIssues, hevent, htrace, hhistory, hpause, hlabel]
    rw [hbody]
    cases hlookup : referenceActions.lookup type with
    -- a reference needs its id, the other types nothing
    | some keys => simp [hevent, htrace, hhistory, hpause, reports_staticReference]
    | none =>
      refine iff_of_true ?_ ⟨by simp [hevent], by simp [htrace, hhistory], by simp [hpause], by simp⟩
      dsimp only
      split_ifs
      · exact reports_groupingIssues h
      · exact reports_ok _
      · exact reports_ok _

/-- What has to fit in an extraction. -/
theorem fieldsFit_extraction {type : String} (htype : type ∈ extractionTypes) :
    FieldsFit lib type action ↔ isContainer (failureMode action) = false ∧
      (type = "extract_regex" → PatternFits lib.py.re (action.getD "pattern")) := by
  constructor
  · intro hfits
    exact ⟨hfits.failureMode, hfits.pattern⟩
  · rintro ⟨hmode, hpattern⟩
    -- an extraction is none of the types that are checked by themselves
    have hother : type ∉ ["set_event_action", "set_trace_level", "set_alert_event_history", "pause"] ∧
        referenceActions.lookup type = none := by
      have hall : ∀ type ∈ extractionTypes,
          type ∉ ["set_event_action", "set_trace_level", "set_alert_event_history", "pause"] ∧
            referenceActions.lookup type = none := by decide
      exact hall type htype
    obtain ⟨hother, hlookup⟩ := hother
    simp only [List.mem_cons, List.not_mem_nil, or_false, not_or] at hother
    exact {
      failureMode := hmode
      pattern := hpattern
      eventAction := fun heq => absurd heq hother.1
      level := fun heq => (heq.elim hother.2.1 hother.2.2.1).elim
      retrigger := fun heq => absurd heq hother.2.2.2
      reference := fun keys heq => absurd (hlookup.symm.trans heq) (by simp) }

theorem fieldsFit_action {type : String} (htype : type ∉ extractionTypes) :
    FieldsFit lib type action ↔ isContainer (failureMode action) = false ∧
      (type = "set_event_action" → isContainer (action.getD "value") = false) ∧
      (type = "set_trace_level" ∨ type = "set_alert_event_history" →
        isContainer (action.getD "level") = false) ∧
      (type = "pause" → isContainer (retrigger action) = false) ∧
      ∀ keys, referenceActions.lookup type = some keys → ∀ source value,
        presentReferences action keys = [(source, value)] → isInfinite value = false := by
  constructor
  · intro hfits
    exact ⟨hfits.failureMode, hfits.eventAction, hfits.level, hfits.retrigger, hfits.reference⟩
  · rintro ⟨hmode, hevent, hlevel, hretrigger, hreference⟩
    have hpattern : type ≠ "extract_regex" := by
      rintro rfl
      exact htype (by decide)
    exact ⟨hmode, fun heq => absurd heq hpattern, hevent, hlevel, hretrigger, hreference⟩

/-- **An extractor whose texts fit is reported on, if and only if its fields fit.** -/
theorem reports_validateExtractor (h : TextsFit lib action) {type : String}
    (htype : action.getD "type" = .str type) (hmem : type ∈ extractionTypes) :
    Reports (validateExtractor lib action path) ↔ FieldsFit lib type action := by
  have hchecks : validateExtractor lib action path =
      runChecks [failureModeIssues action path, extractionIssues lib type action path] := by
    simp [validateExtractor, htype, inTexts, hmem, pyStr, bind, Except.bind]
  rw [hchecks, fieldsFit_extraction hmem]
  simp [reports_runChecks, failureModeIssues, reports_choiceIssues, reports_extractionIssues h]

/-- **An action whose texts fit is reported on, if and only if its type has a hash and, where it is
unknown, a text, and the fields fit, where it is known.** -/
theorem reports_validateAction (h : TextsFit lib action) :
    Reports (validateActionObject lib action path) ↔ isContainer (action.getD "type") = false ∧
      (∀ n, action.getD "type" = .int n → oversized n = false) ∧
      ∀ type, action.getD "type" = .str type → type ∈ supportedActionTypes → FieldsFit lib type action := by
  unfold validateActionObject
  -- the type is compared with the types that are supported
  cases htype : action.getD "type" with
  | list xs => simp [inTexts, isContainer, reports_bind]
  | obj kvs => simp [inTexts, isContainer, reports_bind]
  | int n =>
    cases hdigits : oversized n <;>
      simp [inTexts, isContainer, reports_bind, reprText, hdigits, pure, Except.pure]
  | str type =>
    by_cases hknown : type ∈ supportedActionTypes
    -- an extractor is checked as such, any other action by its body
    · by_cases hextraction : type ∈ extractionTypes
      · simp [inTexts, isContainer, hknown, hextraction, pyStr, reports_validateExtractor h htype hextraction,
          bind, Except.bind]
      · simp [inTexts, isContainer, hknown, hextraction, pyStr, bind, Except.bind,
          fieldsFit_action hextraction, reports_runChecks, reports_ite, failureModeIssues,
          reports_choiceIssues, reports_valueSourceIssues h, reports_bodyIssues h, reports_reasonIssues h]
    · simp [inTexts, isContainer, hknown, reports_bind, reprText, pure, Except.pure]
  | _ => simp [inTexts, isContainer, reports_bind, reprText, pure, Except.pure]

end Fits

end IncidentRelay.Orchestration
