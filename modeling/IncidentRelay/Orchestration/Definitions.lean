import IncidentRelay.Lib.PyText
import IncidentRelay.Lib.TreeRows
import IncidentRelay.Orchestration.Validated
import IncidentRelay.Orchestration.Webhooks

/-!
# Rule definitions

The rules of an orchestration version come in as JSON, are stored as rows and go out as
JSON again. `_create_rule_tree` fills in what a rule leaves out, so that the columns of a
stored rule carry their normal form (`RuleColumns`), and reading the definition of a stored
tree gives the tree back (`readRules_serializeRules`): an exported version can be created
again without a change.
-/

namespace IncidentRelay.Orchestration

open Json

/-! ## Errors -/

/-- What the repository raises. `crash` stands for an exception that is not its own. -/
inductive RepoError where
  | notFound (message : String)
  | conflict (message : String)
  | validation (errors warnings : List String)
  | valueError (message : String)
  | crash
  deriving DecidableEq, Repr

/-! ## Columns of a rule -/

/-- The columns that `EventOrchestrationRule.save` lets through, as `_create_rule_tree` writes
them: a stripped name that is not empty, and no null, false or empty text for the condition and
the actions. -/
structure RuleColumns where
  name : String
  description : Option String
  enabled : Bool
  conditionTree : Json
  actions : Json
  processingMode : ProcessingMode
  name_strip : strip name = name
  name_ne : name ≠ ""
  condition_orElse : conditionTree.orElse (.obj []) = conditionTree
  actions_orElse : actions.orElse (.list []) = actions
  deriving DecidableEq

/-- A default for what has this default already. -/
theorem orElse_orElse (value fallback : Json) :
    (value.orElse fallback).orElse fallback = value.orElse fallback := by
  unfold orElse
  by_cases h : value.truthy = true
  · rw [if_pos h, if_pos h]
  · rw [if_neg h]
    exact ite_self _

/-- `f"Rule {position + 1}"` -/
def positionName (position : ℕ) : String := "Rule " ++ toString (position + 1)

/-! ## Names -/

/-- No digit is a blank. -/
theorem isSpace_of_isDigit {c : Char} (h : c.isDigit = true) : isSpace c = false := by
  simp only [Char.isDigit, Bool.and_eq_true, decide_eq_true_eq, UInt32.le_iff_toNat_le] at h
  have hrange : 48 ≤ c.toNat ∧ c.toNat ≤ 57 := h
  unfold isSpace
  generalize c.toNat = n at hrange
  obtain ⟨hlo, hhi⟩ := hrange
  interval_cases n <;> rfl

/-- The name that a position gives is stripped. -/
theorem strip_positionName (position : ℕ) : strip (positionName position) = positionName position := by
  have htext : (positionName position).toList =
      "Rule ".toList ++ Nat.toDigits 10 (position + 1) := by
    rw [positionName, String.toList_append, toList_toString]
  apply strip_eq_self
  · rw [htext]
    intro c hc
    obtain rfl : c = 'R' := by simpa using hc.symm
    rfl
  · intro c hc
    rw [htext, List.getLast?_append] at hc
    -- a number has a last digit
    have hne : Nat.toDigits 10 (position + 1) ≠ [] := Nat.toDigits_ne_nil
    rw [List.getLast?_eq_some_getLast hne] at hc
    obtain rfl : _ = c := by simpa using hc
    exact isSpace_of_isDigit (Nat.isDigit_of_mem_toDigits (by decide) (by decide)
      (List.getLast_mem hne))

/-! ## Reading -/

/-- `(raw_rule.get("name") or "").strip() or f"Rule {position + 1}"`: only a text has a
`strip`. -/
def ruleName (position : ℕ) (name : Json) : Except RepoError { s : String // strip s = s ∧ s ≠ "" } :=
  match name.orElse (.str "") with
  | .str text =>
    if h : strip text = "" then
      .ok ⟨positionName position, strip_positionName position, by simp [positionName]⟩
    else .ok ⟨strip text, strip_strip text, h⟩
  | _ => .error .crash

/-- `raw_rule.get("processing_mode") or "continue"`, which `save` checks. -/
def processingMode (value : Json) : Except RepoError ProcessingMode :=
  match value.orElse (.str "continue") with
  | .str "continue" => .ok .continue
  | .str "stop" => .ok .stop
  | .str "evaluate_children" => .ok .evaluateChildren
  | .str "children_then_continue" => .ok .childrenThenContinue
  | _ => .error (.valueError "Invalid orchestration rule processing mode")

/-- A text column takes the text of what it is given. -/
def textColumn : Json → Option String
  | .null => none
  | value => some (pyStr value)

def ruleColumns (position : ℕ) (raw : Dict) : Except RepoError RuleColumns := do
  let name ← ruleName position (raw.getD "name")
  let mode ← processingMode (raw.getD "processing_mode")
  return {
    name := name.val
    description := textColumn (raw.getD "description")
    enabled := ((raw.get "enabled").getD (.bool true)).truthy
    conditionTree := (raw.getD "condition_tree").orElse (.obj [])
    actions := (raw.getD "actions").orElse (.list [])
    processingMode := mode
    name_strip := name.property.1
    name_ne := name.property.2
    condition_orElse := orElse_orElse _ _
    actions_orElse := orElse_orElse _ _ }

/-- `isinstance(raw_rule.get("children") or [], list)` -/
def childrenListed (raw : Dict) : Bool :=
  match (raw.getD "children").orElse (.list []) with
  | .list _ => true
  | _ => false

mutual
/-- What `_create_rule_tree` makes of one rule. -/
def readRule (position : ℕ) : Json → Except RepoError (Rose RuleColumns)
  | .obj raw => do
    if !childrenListed raw then throw (.validation ["rule children must be a list"] [])
    let columns ← ruleColumns position raw
    let children ← readChildren raw
    return .node columns children
  | _ => throw (.validation ["every rule must be an object"] [])

def readRules (position : ℕ) : List Json → Except RepoError (List (Rose RuleColumns))
  | [] => return []
  | raw :: rest => do
    let rule ← readRule position raw
    let rules ← readRules (position + 1) rest
    return rule :: rules

/-- The value under the key `children`. -/
def readChildren : Dict → Except RepoError (List (Rose RuleColumns))
  | [] => return []
  | (key, value) :: rest => if key = "children" then readChildList value else readChildren rest

def readChildList : Json → Except RepoError (List (Rose RuleColumns))
  | .list raws => readRules 0 raws
  | _ => return []
end

/-! ## Writing -/

def nullable : Option String → Json
  | none => .null
  | some text => .str text

mutual
/-- `_serialize_rule` -/
def serializeRule : Rose RuleColumns → Json
  | .node columns children =>
    .obj [("name", .str columns.name), ("description", nullable columns.description),
      ("enabled", .bool columns.enabled), ("condition_tree", columns.conditionTree.orElse (.obj [])),
      ("actions", columns.actions.orElse (.list [])),
      ("processing_mode", .str columns.processingMode.text),
      ("children", .list (serializeRules children))]

def serializeRules : List (Rose RuleColumns) → List Json
  | [] => []
  | rule :: rules => serializeRule rule :: serializeRules rules
end

/-! ## Round trip -/

/-- A stored name is read as it is. -/
theorem ruleName_stored (position : ℕ) (columns : RuleColumns) :
    ruleName position (.str columns.name) =
      .ok ⟨columns.name, columns.name_strip, columns.name_ne⟩ := by
  have horElse : (Json.str columns.name).orElse (.str "") = .str columns.name := by
    simp [orElse, truthy, columns.name_ne]
  unfold ruleName
  rw [horElse]
  simp [columns.name_strip, columns.name_ne]

theorem processingMode_text (mode : ProcessingMode) : processingMode (.str mode.text) = .ok mode := by
  cases mode <;> rfl

theorem textColumn_nullable (text : Option String) : textColumn (nullable text) = text := by
  cases text <;> rfl

/-- The columns of a stored rule come back from its definition. -/
theorem ruleColumns_serialized (position : ℕ) (columns : RuleColumns) (children : Json) :
    ruleColumns position
      [("name", .str columns.name), ("description", nullable columns.description),
        ("enabled", .bool columns.enabled), ("condition_tree", columns.conditionTree.orElse (.obj [])),
        ("actions", columns.actions.orElse (.list [])),
        ("processing_mode", .str columns.processingMode.text), ("children", children)] =
      .ok columns := by
  simp [ruleColumns, Dict.getD, Dict.get_cons, ruleName_stored, processingMode_text,
    textColumn_nullable, columns.condition_orElse, columns.actions_orElse, truthy,
    bind, Except.bind, pure, Except.pure]

mutual
/-- **A rule is read back from what it is serialized to.** By induction on the tree. -/
theorem readRule_serializeRule (position : ℕ) :
    ∀ rule : Rose RuleColumns, readRule position (serializeRule rule) = .ok rule
  | .node columns children => by
    have hlisted : childrenListed
        [("name", .str columns.name), ("description", nullable columns.description),
          ("enabled", .bool columns.enabled),
          ("condition_tree", columns.conditionTree.orElse (.obj [])),
          ("actions", columns.actions.orElse (.list [])),
          ("processing_mode", .str columns.processingMode.text),
          ("children", .list (serializeRules children))] = true := by
      have hlist : ∀ xs : List Json, (Json.list xs).orElse (.list []) = .list xs := by
        intro xs
        cases xs <;> rfl
      simp [childrenListed, Dict.getD, Dict.get_cons, hlist]
    rw [serializeRule, readRule, hlisted, ruleColumns_serialized]
    simp [readChildren, readChildList, readRules_serializeRules 0 children, bind, Except.bind, pure,
      Except.pure]

/-- **A stored tree is what its definition reads back as.** -/
theorem readRules_serializeRules (position : ℕ) :
    ∀ rules : List (Rose RuleColumns), readRules position (serializeRules rules) = .ok rules
  | [] => rfl
  | rule :: rules => by
    rw [serializeRules, readRules, readRule_serializeRule position rule,
      readRules_serializeRules (position + 1) rules]
    rfl
end

/-! ## Rules that drop everything -/

/-- `all`, `any` and `none` of constant conditions. -/
def constantOf (key : String) (values : List (Option Bool)) : Option Bool :=
  let settled := fun b => values.any (· = some b)
  let uniform := fun b => values.all (· = some b)
  if key = "all" then
    if settled false then some false else if uniform true then some true else none
  else if key = "any" then
    if settled true then some true else if uniform false then some false else none
  else if key = "none" then
    if settled true then some false else if uniform false then some true else none
  else none

mutual
/-- `_constant_condition_value` -/
def constantConditionValue : Json → Option Bool
  | .obj [] => some true
  | .obj [(key, value)] => constantChildren key value
  | _ => none

def constantChildren (key : String) : Json → Option Bool
  | .list children => constantOf key (constantConditionValues children)
  | _ => none

def constantConditionValues : List Json → List (Option Bool)
  | [] => []
  | condition :: conditions => constantConditionValue condition :: constantConditionValues conditions
end

/-- `action.get("type") or action.get("action")` -/
def actionType (action : Dict) : Json := (action.getD "type").orElse (action.getD "action")

/-- `isinstance(action, dict)` and of this type -/
def hasType (type : String) : Json → Bool
  | .obj action => actionType action = .str type
  | _ => false

/-- The validation has refused actions that are no list. -/
def actionList : Json → List Json
  | .list actions => actions
  | _ => []

mutual
def ruleDropsAll : Rose RuleColumns → Bool
  | .node columns children =>
    columns.enabled &&
      ((constantConditionValue columns.conditionTree = some true &&
        (actionList columns.actions).any (hasType "drop")) || rulesDropAll children)

/-- `_definition_has_catch_all_drop` -/
def rulesDropAll : List (Rose RuleColumns) → Bool
  | [] => false
  | rule :: rules => ruleDropsAll rule || rulesDropAll rules
end

end IncidentRelay.Orchestration
