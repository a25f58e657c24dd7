import IncidentRelay.Orchestration.ActionChecks
import IncidentRelay.Orchestration.Validated

/-!
# The checks of a rule

`validate_rule_definition` on any JSON value for the condition and any JSON value for the actions.
`find_templates` is the only recursion without a limit of its own: how deep the interpreter lets
it go is a parameter.

* `reports_validateConditionTree`: a condition is reported on, if and only if the compiler raises
  nothing but `re.error` on the patterns of the nodes within the limits.
* `reports_templateChecks`: the templates of a value are.
* `definition_reports_iff`: when the validation of a definition reports.
-/

namespace IncidentRelay.Orchestration

open Json

/-! ## The templates of a value -/

mutual
/-- `find_templates(value, path=…)`, with what the generator raises where `frames` calls are not
enough. -/
def findTemplates (frames : ℕ) (path : String) (value : Json) : List (Except PyError (String × String)) :=
  match frames with
  | 0 => [.error (.other "RecursionError")]
  | frames + 1 =>
    match value with
    | .str text => if hasDelimiter text.toList then [.ok (path, text)] else []
    | .obj kvs => findEntryTemplates frames path kvs
    | .list xs => findItemTemplates frames path 0 xs
    | _ => []

def findEntryTemplates (frames : ℕ) (path : String) : Dict → List (Except PyError (String × String))
  | [] => []
  | (key, child) :: kvs =>
    findTemplates frames (path ++ "." ++ key) child ++ findEntryTemplates frames path kvs

def findItemTemplates (frames : ℕ) (path : String) (index : ℕ) :
    List Json → List (Except PyError (String × String))
  | [] => []
  | child :: xs =>
    findTemplates frames (path ++ "[" ++ toString index ++ "]") child ++
      findItemTemplates frames path (index + 1) xs
end

/-! ## The validation -/

/-- `dedupe(items)` -/
def dedupe (items : List ValidationIssue) : List ValidationIssue := items.reverse.dedup.reverse

structure RuleReport where
  errors : List ValidationIssue
  warnings : List ValidationIssue := []
  deriving DecidableEq

section Validation

variable (lib : RuleLibrary)

/-- `validate_action_list(actions, path=…)` of a list. -/
def validateActionList (actions : List Json) (path : String) : Except PyError (List ValidationIssue) :=
  if maxActionsPerRule < actions.length then
    .ok [⟨path, "action_limit", "rule has too many actions", "error"⟩]
  else
    runChecks (actions.mapIdx fun index action =>
      validateAction lib action (path ++ "[" ++ toString index ++ "]"))

/-- The templates of an action, each as it is found. -/
def templateChecks (frames : ℕ) (action : Json) (path : String) : Except PyError (List ValidationIssue) :=
  runChecks ((findTemplates frames path action).map fun found =>
    found >>= fun (path, template) => validateTemplateText lib.literalEval template path)

/-- An action of the second pass. -/
def definitionIssues (frames : ℕ) (action : Json) (path : String) :
    Except PyError (List ValidationIssue) :=
  match action with
  | .obj fields => do
    let extracts ← inTexts (Dict.getD fields "type") extractionTypes
    runChecks
      [if extracts then validateExtractor lib fields path else .ok [],
       templateChecks lib frames action path]
  | _ => .ok [⟨path, "invalid_action", "action must be an object", "error"⟩]

/-- `validate_rule_definition(condition_tree, actions, path=…)` -/
def validateRuleDefinition (frames : ℕ) (conditionTree actions : Json) (path : String) :
    Except PyError RuleReport := do
  let treeIssues ← (validateConditionTree lib.py.re conditionTree (path ++ ".condition_tree")).mapError
    fun e => PyError.other e.code
  match actions with
  | .list actions =>
    let issues ← runChecks
      (validateActionList lib actions (path ++ ".actions") ::
        actions.mapIdx fun index action =>
          definitionIssues lib frames action (path ++ ".actions[" ++ toString index ++ "]"))
    return { errors := dedupe (treeIssues ++ issues) }
  | _ =>
    return { errors := treeIssues ++
      [⟨path ++ ".actions", "invalid_actions", "actions must be a list", "error"⟩] }

end Validation

/-! ## The nodes of a condition -/

mutual
/-- The nodes of a condition in the order of the validator, each with its depth: the nodes at a
depth behind the limit have no children. -/
def treeNodes (depth : ℕ) (node : Json) : List (ℕ × Json) :=
  (depth, node) ::
    if maxConditionDepth < depth then []
    else
      match node with
      | .obj [(key, .list children)] =>
        if logicalKeys.any (Dict.has [(key, .list children)] ·) then childNodes (depth + 1) children else []
      | _ => []

def childNodes (depth : ℕ) : List Json → List (ℕ × Json)
  | [] => []
  | child :: children => treeNodes depth child ++ childNodes depth children
end

/-- The pattern of a node that is not a group. -/
def NodeFits (re : Re) (node : Json) : Prop :=
  ∀ fields raw operator value, node = .obj fields → logicalKeys.any (Dict.has fields ·) = false →
    Dict.get fields "operator" = some raw → normalizeOperator raw = .ok operator →
    operator = .regex ∨ operator = .notRegex → Dict.get fields "value" = some value → PatternFits re value

/-- The nodes within the limits. -/
def examinedNodes (tree : Json) : List (ℕ × Json) :=
  ((treeNodes 0 tree).take maxConditionNodes).filter (·.1 ≤ maxConditionDepth)

section Conditions

variable {re : Re}

/-- The value of a condition is compiled where it is a pattern. -/
theorem reports_valueIssues {operator : Operator} {fields : Dict} {path : String} :
    Reports (valueIssues re operator fields path) ↔ (operator = .regex ∨ operator = .notRegex →
      ∀ value, Dict.get fields "value" = some value → PatternFits re value) := by
  unfold valueIssues
  -- an operator without a value has nothing to check
  cases hvalue : Dict.get fields "value" with
  | none =>
    refine iff_of_true ?_ (by simp)
    dsimp only
    split_ifs <;> exact reports_ok _
  | some value =>
    dsimp only
    -- only for a pattern the value is read
    by_cases hregex : operator = .regex ∨ operator = .notRegex
    · simp only [hregex, forall_true_left, Option.some.injEq, forall_eq', patternFits_iff]
      cases hvalid : validateRegexPattern re value with
      | ok normalized => simp
      | error e => obtain ⟨message, rfl⟩ | ⟨className, rfl⟩ := validateRegexPattern_error hvalid <;> simp
    · refine iff_of_true ?_ fun h => absurd h hregex
      rw [if_neg hregex]
      split_ifs
      · split <;> exact reports_ok _
      · exact reports_ok _
      · exact reports_ok _

/-- Nothing else of a leaf may raise. -/
theorem reports_leafIssues {fields : Dict} {path : String}
    (hleaf : logicalKeys.any (Dict.has fields ·) = false) :
    Reports (leafIssues re fields path) ↔ NodeFits re (.obj fields) := by
  unfold leafIssues NodeFits
  cases hraw : Dict.get fields "operator" with
  | none =>
    refine iff_of_true (reports_ok _) ?_
    rintro _ raw operator value ⟨⟩ - hget
    exact absurd (hraw.symm.trans hget) (by simp)
  | some raw =>
    dsimp only
    -- an operator that is unknown is reported elsewhere
    cases hoperator : normalizeOperator raw with
    | error e =>
      refine iff_of_true (reports_ok _) ?_
      rintro _ _ operator value ⟨⟩ - hget hnormal
      obtain rfl := Option.some.inj (hraw.symm.trans hget)
      rw [hoperator] at hnormal
      cases hnormal
    | ok operator =>
      rw [reports_map, reports_valueIssues]
      -- a known one is checked with its value
      constructor
      · rintro hfits _ _ _ value ⟨⟩ - hget hnormal
        obtain rfl := Option.some.inj (hraw.symm.trans hget)
        obtain rfl := Except.ok.inj (hoperator.symm.trans hnormal)
        exact fun hregex hvalue => hfits hregex value hvalue
      · intro hfits hregex value hvalue
        exact hfits fields raw operator value rfl hleaf hraw hoperator hregex hvalue

/-- A node without children. -/
theorem treeNodes_leaf {depth : ℕ} {node : Json}
    (h : ∀ key children, node = .obj [(key, .list children)] →
      logicalKeys.any (Dict.has [(key, .list children)] ·) = false) :
    treeNodes depth node = [(depth, node)] := by
  unfold treeNodes
  split_ifs
  · rfl
  · split
    · rename_i key children
      simp [h key children rfl]
    · rfl

/-- A group and what is in it. -/
theorem treeNodes_group {depth : ℕ} {key : String} {children : List Json}
    (hdepth : ¬maxConditionDepth < depth)
    (hlogical : logicalKeys.any (Dict.has [(key, .list children)] ·) = true) :
    treeNodes depth (.obj [(key, .list children)]) =
      (depth, .obj [(key, .list children)]) :: childNodes (depth + 1) children := by
  rw [treeNodes, if_neg hdepth]
  simp only [hlogical, if_true]

/-- The nodes that are left to the validator, fit. -/
def Fit (re : Re) (left : ℕ) (nodes : List (ℕ × Json)) : Prop :=
  ∀ visited ∈ nodes.take left, visited.1 ≤ maxConditionDepth → NodeFits re visited.2

/-- The nodes in their order, up to the limit. -/
theorem fit_append {left : ℕ} {xs ys : List (ℕ × Json)} :
    Fit re left (xs ++ ys) ↔ Fit re left xs ∧ Fit re (left - xs.length) ys := by
  unfold Fit
  rw [List.take_append]
  simp only [List.mem_append, or_imp, forall_and]

/-- A visit that raises as its nodes do not fit, and counts them. -/
structure Exact (re : Re) (v : Visit) (nodes : List (ℕ × Json)) (visit : Except EvalError Visit) : Prop where
  reports : Reports visit ↔ Fit re (maxConditionNodes - v.nodeCount) nodes
  counted : ∀ after, visit = .ok after →
    maxConditionNodes - after.nodeCount = maxConditionNodes - v.nodeCount - nodes.length

/-- The visit of a node within the limits that has no children. -/
theorem exact_leaf {v : Visit} {depth : ℕ} {node : Json} {visit : Except EvalError Visit}
    (hcount : ¬maxConditionNodes < v.nodeCount + 1) (hdepth : ¬maxConditionDepth < depth)
    (hnodes : treeNodes depth node = [(depth, node)]) (hreports : Reports visit ↔ NodeFits re node)
    (hafter : ∀ after, visit = .ok after → after.nodeCount = v.nodeCount + 1) :
    Exact re v (treeNodes depth node) visit := by
  have hleft : maxConditionNodes - v.nodeCount = (maxConditionNodes - (v.nodeCount + 1)) + 1 := by omega
  rw [hnodes]
  refine ⟨?_, fun after hvisit => ?_⟩
  · rw [hleft]
    simp [Fit, hreports, not_lt.mp hdepth]
  · rw [hafter after hvisit, hleft]
    simp

/-- A node of which nothing is read fits. -/
theorem nodeFits_of_unread {node : Json}
    (h : ∀ fields, node = .obj fields → logicalKeys.any (Dict.has fields ·) = true ∨ fields = []) :
    NodeFits re node := by
  rintro fields raw operator value rfl hleaf hraw - -
  obtain hlogical | rfl := h fields rfl
  · exact absurd (hlogical.symm.trans hleaf) (by simp)
  · cases hraw

/-- The visit of a group is that of its children, with the group counted. -/
theorem exact_group {v : Visit} {visited : ℕ × Json} {children : List (ℕ × Json)}
    {visit : Except EvalError Visit} (hcount : ¬maxConditionNodes < v.nodeCount + 1)
    (hgroup : NodeFits re visited.2)
    (hchildren : Exact re { v with nodeCount := v.nodeCount + 1 } children visit) :
    Exact re v (visited :: children) visit := by
  have hleft : maxConditionNodes - v.nodeCount = (maxConditionNodes - (v.nodeCount + 1)) + 1 := by omega
  constructor
  · rw [hchildren.reports, hleft]
    simp [Fit, hgroup]
  · intro after hvisit
    rw [hchildren.counted after hvisit, hleft, List.length_cons]
    dsimp only
    omega

mutual
/-- A node is reported on, if and only if what is visited under it fits; and every node that is
visited counts. -/
theorem exact_validateNode (node : Json) (path : String) (depth : ℕ) (v : Visit) :
    Exact re v (treeNodes depth node) (validateNode re node path depth v) := by
  unfold validateNode
  dsimp only
  by_cases hcount : maxConditionNodes < v.nodeCount + 1
  · -- nothing is left
    have hleft : maxConditionNodes - v.nodeCount = 0 := by omega
    rw [if_pos hcount]
    refine ⟨iff_of_true (reports_ok _) (by simp [Fit, hleft]), ?_⟩
    rintro after ⟨⟩
    simp only [Visit.report]
    omega
  rw [if_neg hcount]
  -- a node that is too deep is reported and not read
  by_cases hdepth : maxConditionDepth < depth
  · have hnodes : treeNodes depth node = [(depth, node)] := by
      unfold treeNodes
      rw [if_pos hdepth]
    rw [if_pos hdepth, hnodes]
    refine ⟨iff_of_true (reports_ok _) ?_, ?_⟩
    · rintro _ hvisited hwithin
      obtain rfl := List.mem_singleton.mp (List.mem_of_mem_take hvisited)
      exact absurd hwithin (not_le.mpr hdepth)
    · rintro after ⟨⟩
      simp only [Visit.report, List.length_singleton]
      omega
  rw [if_neg hdepth]
  -- a node is a leaf, or has children under its one logical key
  match node with
  | .obj [] =>
    refine exact_leaf hcount hdepth (treeNodes_leaf (by simp)) ?_ (by rintro after ⟨⟩; rfl)
    exact iff_of_true (reports_ok _) (nodeFits_of_unread fun fields heq => .inr (Json.obj.inj heq).symm)
  | .obj ((key, child) :: rest) =>
    dsimp only
    cases hlogical : logicalKeys.any (Dict.has ((key, child) :: rest) ·) with
    | false =>
      refine exact_leaf hcount hdepth (treeNodes_leaf ?_) ?_ ?_
      · rintro _ _ heq
        rw [← Json.obj.inj heq]
        exact hlogical
      · rw [if_neg (by simp), reports_map, reports_leafIssues hlogical]
      · intro after hafter
        rw [if_neg (by simp)] at hafter
        cases hissues : leafIssues re ((key, child) :: rest) path with
        | error e =>
          rw [hissues] at hafter
          cases hafter
        | ok issues =>
          rw [hissues] at hafter
          cases hafter
          rfl
    | true =>
      have hunread : NodeFits re (.obj ((key, child) :: rest)) :=
        nodeFits_of_unread fun fields heq => .inl (by rw [← Json.obj.inj heq]; exact hlogical)
      rw [if_pos rfl]
      -- more keys than one are reported, and nothing is read below
      by_cases hrest : rest ≠ []
      · rw [if_pos hrest]
        refine exact_leaf hcount hdepth (treeNodes_leaf ?_) (iff_of_true (reports_ok _) hunread)
          (by rintro after ⟨⟩; rfl)
        rintro _ _ heq
        exact absurd (List.cons.inj (Json.obj.inj heq)).2 hrest
      · obtain rfl : rest = [] := not_ne_iff.mp hrest
        rw [if_neg hrest]
        match child with
        | .list children =>
          have hchildren := exact_validateNodes children (path ++ "." ++ key) 0 (depth + 1)
            { v with nodeCount := v.nodeCount + 1 }
          rw [treeNodes_group hdepth hlogical]
          exact exact_group hcount hunread hchildren
        | .null | .bool _ | .int _ | .float _ | .str _ | .obj _ =>
          refine exact_leaf hcount hdepth (treeNodes_leaf (by simp)) (iff_of_true (reports_ok _) hunread)
            (by rintro after ⟨⟩; rfl)
  -- what is no object is reported
  | .null | .bool _ | .int _ | .float _ | .str _ | .list _ =>
    refine exact_leaf hcount hdepth (treeNodes_leaf (by simp)) ?_ (by rintro after ⟨⟩; rfl)
    exact iff_of_true (reports_ok _) (nodeFits_of_unread nofun)

/-- The conditions of a group, one after the other. -/
theorem exact_validateNodes (children : List Json) (path : String) (index depth : ℕ) (v : Visit) :
    Exact re v (childNodes depth children) (validateNodes re children path index depth v) := by
  match children with
  | [] =>
    refine ⟨iff_of_true (reports_ok v) ?_, ?_⟩
    · simp [Fit, childNodes]
    · rintro after ⟨⟩
      simp [childNodes]
  | child :: children =>
    have hchild := exact_validateNode child (path ++ "[" ++ toString index ++ "]") depth v
    have hrest := fun after => exact_validateNodes children path (index + 1) depth after
    unfold validateNodes
    -- the children are checked one after the other, each with the nodes that are left
    constructor
    · rw [reports_bind, childNodes, fit_append, ← hchild.reports]
      constructor
      · rintro ⟨after, hafter, hreports⟩
        refine ⟨⟨after, hafter⟩, ?_⟩
        rw [← hchild.counted after hafter]
        exact (hrest after).reports.mp hreports
      · rintro ⟨⟨after, hafter⟩, hfits⟩
        rw [← hchild.counted after hafter] at hfits
        exact ⟨after, hafter, (hrest after).reports.mpr hfits⟩
    · intro last hlast
      obtain ⟨after, hafter, hlast⟩ := bind_eq_ok.mp hlast
      rw [(hrest after).counted last hlast, hchild.counted after hafter, childNodes, List.length_append,
        Nat.sub_sub]
end

/-- **A condition is reported on, if and only if the nodes within the limits fit.** -/
theorem reports_validateConditionTree {tree : Json} {path : String} :
    Reports (validateConditionTree re tree path) ↔ ∀ visited ∈ examinedNodes tree, NodeFits re visited.2 := by
  unfold validateConditionTree examinedNodes
  rw [reports_map, (exact_validateNode tree path 0 {}).reports]
  simp [Fit, List.mem_filter]

end Conditions

/-! ## What a template is found in -/

mutual
/-- How many calls a search through a value nests. -/
def nesting : Json → ℕ
  | .list xs => nestingItems xs + 1
  | .obj kvs => nestingEntries kvs + 1
  | _ => 1

def nestingItems : List Json → ℕ
  | [] => 0
  | x :: xs => max (nesting x) (nestingItems xs)

def nestingEntries : Dict → ℕ
  | [] => 0
  | (_, x) :: kvs => max (nesting x) (nestingEntries kvs)
end

mutual
/-- The texts of a value, at any depth; its keys are none of them. -/
def textsWithin : Json → List String
  | .str text => [text]
  | .list xs => textsOfItems xs
  | .obj kvs => textsOfEntries kvs
  | _ => []

def textsOfItems : List Json → List String
  | [] => []
  | x :: xs => textsWithin x ++ textsOfItems xs

def textsOfEntries : Dict → List String
  | [] => []
  | (_, x) :: kvs => textsWithin x ++ textsOfEntries kvs
end

section Templates

variable {lib : RuleLibrary}

/-- A template that is found, is reported on. -/
def FoundFits (lib : RuleLibrary) (found : Except PyError (String × String)) : Prop :=
  ∃ path template, found = .ok (path, template) ∧ TemplateFits lib.literalEval template

/-- The texts with delimiters fit. -/
def AllFit (lib : RuleLibrary) (texts : List String) : Prop :=
  ∀ text ∈ texts, hasDelimiter text.toList = true → TemplateFits lib.literalEval text

theorem allFit_append {xs ys : List String} : AllFit lib (xs ++ ys) ↔ AllFit lib xs ∧ AllFit lib ys := by
  simp only [AllFit, List.mem_append, or_imp, forall_and]

mutual
/-- What is found in a value fits, if and only if its texts do and the search is not too deep. -/
theorem findTemplates_fits (frames : ℕ) (path : String) (value : Json) :
    (∀ found ∈ findTemplates frames path value, FoundFits lib found) ↔
      nesting value ≤ frames ∧ AllFit lib (textsWithin value) := by
  -- without a frame even a text is too deep
  cases frames with
  | zero =>
    refine iff_of_false ?_ ?_
    · intro hall
      obtain ⟨_, _, hfound, -⟩ := hall (.error (.other "RecursionError"))
        (by unfold findTemplates; exact List.mem_singleton_self _)
      cases hfound
    · rintro ⟨hnesting, -⟩
      cases value <;> simp [nesting] at hnesting
  | succ frames =>
    -- templates are the texts, wherever they are
    match value with
    | .str text =>
      cases htext : hasDelimiter text.toList <;>
        simp [findTemplates, nesting, textsWithin, AllFit, FoundFits, htext]
    | .list xs =>
      rw [findTemplates, nesting, textsWithin, findItemTemplates_fits frames path 0 xs]
      simp
    | .obj kvs =>
      rw [findTemplates, nesting, textsWithin, findEntryTemplates_fits frames path kvs]
      simp
    | .null | .bool _ | .int _ | .float _ => simp [findTemplates, nesting, textsWithin, AllFit]

/-- The templates in an object are found as deep as it is nested. -/
theorem findEntryTemplates_fits (frames : ℕ) (path : String) (kvs : Dict) :
    (∀ found ∈ findEntryTemplates frames path kvs, FoundFits lib found) ↔
      nestingEntries kvs ≤ frames ∧ AllFit lib (textsOfEntries kvs) := by
  match kvs with
  | [] => simp [findEntryTemplates, nestingEntries, textsOfEntries, AllFit]
  | (key, child) :: kvs =>
    rw [findEntryTemplates, List.forall_mem_append, findTemplates_fits frames _ child,
      findEntryTemplates_fits frames path kvs, nestingEntries, textsOfEntries, allFit_append, max_le_iff]
    exact and_and_and_comm

theorem findItemTemplates_fits (frames : ℕ) (path : String) (index : ℕ) (xs : List Json) :
    (∀ found ∈ findItemTemplates frames path index xs, FoundFits lib found) ↔
      nestingItems xs ≤ frames ∧ AllFit lib (textsOfItems xs) := by
  match xs with
  | [] => simp [findItemTemplates, nestingItems, textsOfItems, AllFit]
  | child :: xs =>
    rw [findItemTemplates, List.forall_mem_append, findTemplates_fits frames _ child,
      findItemTemplates_fits frames path (index + 1) xs, nestingItems, textsOfItems, allFit_append,
      max_le_iff]
    exact and_and_and_comm
end

/-- **The templates of a value are reported on, if and only if its texts fit and it is not nested
too deeply.** -/
theorem reports_templateChecks {frames : ℕ} {action : Json} {path : String} :
    Reports (templateChecks lib frames action path) ↔
      nesting action ≤ frames ∧ AllFit lib (textsWithin action) := by
  rw [← findTemplates_fits frames path action]
  unfold templateChecks
  rw [reports_runChecks, List.forall_mem_map]
  refine forall₂_congr fun found _ => ?_
  rw [reports_bind]
  constructor
  · rintro ⟨⟨at_, template⟩, rfl, hreports⟩
    exact ⟨at_, template, rfl, reports_validateTemplate.mp hreports⟩
  · rintro ⟨at_, template, rfl, hfits⟩
    exact ⟨(at_, template), rfl, reports_validateTemplate.mpr hfits⟩

end Templates

/-! ## The law -/

section Law

variable {lib : RuleLibrary}

/-- What the validation of a definition needs, to report on it. -/
structure DefinitionFits (lib : RuleLibrary) (frames : ℕ) (conditionTree actions : Json) : Prop where
  /-- the patterns of the condition -/
  condition : ∀ visited ∈ examinedNodes conditionTree, NodeFits lib.py.re visited.2
  /-- a type that is no list and no object -/
  type : ∀ action, .obj action ∈ actionList actions → isContainer (Dict.getD action "type") = false
  /-- an unknown type that has a text -/
  shown : (actionList actions).length ≤ maxActionsPerRule → ∀ action n, .obj action ∈ actionList actions →
    Dict.getD action "type" = .int n → oversized n = false
  /-- the fields of an action; behind the limit those of an extractor only -/
  fields : ∀ action type, .obj action ∈ actionList actions → Dict.getD action "type" = .str type →
    type ∈ extractionTypes ∨ type ∈ supportedActionTypes ∧ (actionList actions).length ≤ maxActionsPerRule →
    FieldsFit lib type action
  nested : ∀ action, .obj action ∈ actionList actions → nesting (.obj action) ≤ frames
  templates : ∀ action, .obj action ∈ actionList actions → AllFit lib (textsWithin (.obj action))

/-- A text under a key is one of the texts. -/
theorem mem_textsOfEntries {kvs : Dict} {key text : String} (h : Dict.get kvs key = some (.str text)) :
    text ∈ textsOfEntries kvs := by
  induction kvs with
  | nil => cases h
  | cons kv kvs ih =>
    obtain ⟨k, value⟩ := kv
    rw [Dict.get_cons] at h
    rw [textsOfEntries, List.mem_append]
    split_ifs at h
    · obtain rfl := Option.some.inj h
      exact .inl (by simp [textsWithin])
    · exact .inr (ih h)

/-- The texts of an action are among all that are found in it. -/
theorem textsFit_of_allFit {action : Dict} (h : AllFit lib (textsWithin (.obj action))) :
    TextsFit lib action := by
  intro key text hget
  cases hdelimiter : hasDelimiter text.toList with
  | true =>
    rw [textsWithin] at h
    exact h text (mem_textsOfEntries hget) hdelimiter
  | false => exact templateFits_of_no_delimiter hdelimiter

/-- An action of the second pass is reported on, if and only if its templates are and it is no
extractor whose fields do not fit. -/
theorem reports_definitionIssues {frames : ℕ} {action : Dict} {path : String} :
    Reports (definitionIssues lib frames (.obj action) path) ↔
      isContainer (action.getD "type") = false ∧
      (∀ type, action.getD "type" = .str type → type ∈ extractionTypes → FieldsFit lib type action) ∧
      nesting (.obj action) ≤ frames ∧ AllFit lib (textsWithin (.obj action)) := by
  have htemplates := @reports_templateChecks lib frames (.obj action) path
  unfold definitionIssues
  rw [reports_bind]
  -- the type is compared with lists of texts
  cases htype : action.getD "type" with
  | list xs => simp [inTexts, isContainer]
  | obj kvs => simp [inTexts, isContainer]
  | str type =>
    -- an extraction is checked as an extractor, any other action as itself
    by_cases hextraction : type ∈ extractionTypes
    · simp only [inTexts, hextraction, decide_true, Except.ok.injEq, exists_eq_left', if_true,
        reports_runChecks, List.forall_mem_cons, htemplates, isContainer, Json.str.injEq, forall_eq',
        forall_true_left, true_and]
      constructor
      · rintro ⟨hextractor, hfits, -⟩
        have htexts := textsFit_of_allFit hfits.2
        exact ⟨(reports_validateExtractor htexts htype hextraction).mp hextractor, hfits⟩
      · rintro ⟨hfields, hfits⟩
        have htexts := textsFit_of_allFit hfits.2
        exact ⟨(reports_validateExtractor htexts htype hextraction).mpr hfields, hfits,
          List.forall_mem_nil _⟩
    · simp [inTexts, hextraction, isContainer, reports_runChecks, htemplates]
  | _ => simp [inTexts, isContainer, reports_runChecks, htemplates]

/-- The actions of the first pass, where their texts fit. -/
theorem reports_validateActionList {actions : List Json} {path : String}
    (h : ∀ action, .obj action ∈ actions → TextsFit lib action) :
    Reports (validateActionList lib actions path) ↔ (actions.length ≤ maxActionsPerRule →
      ∀ value ∈ actions, ∀ action, value = .obj action → isContainer (Dict.getD action "type") = false ∧
        (∀ n, Dict.getD action "type" = .int n → oversized n = false) ∧
        ∀ type, Dict.getD action "type" = .str type → type ∈ supportedActionTypes →
          FieldsFit lib type action) := by
  unfold validateActionList
  by_cases hlength : maxActionsPerRule < actions.length
  · simp [hlength, not_le.mpr hlength]
  · rw [if_neg hlength]
    simp only [not_lt.mp hlength, forall_true_left]
    refine reports_runChecks_mapIdx fun index value hvalue => ?_
    cases value with
    | obj action =>
      simp only [validateAction, Json.obj.injEq, forall_eq']
      exact reports_validateAction (h action hvalue)
    | _ => exact iff_of_true (reports_ok _) nofun

/-- The actions of the second pass. -/
theorem reports_definitionChecks {frames : ℕ} {actions : List Json} {path : String} :
    Reports (runChecks (actions.mapIdx fun index action =>
      definitionIssues lib frames action (path ++ ".actions[" ++ toString index ++ "]"))) ↔
      ∀ value ∈ actions, ∀ action, value = .obj action → isContainer (Dict.getD action "type") = false ∧
        (∀ type, Dict.getD action "type" = .str type → type ∈ extractionTypes → FieldsFit lib type action) ∧
        nesting (.obj action) ≤ frames ∧ AllFit lib (textsWithin (.obj action)) := by
  refine reports_runChecks_mapIdx fun index value _ => ?_
  cases value with
  | obj action =>
    simp only [Json.obj.injEq, forall_eq']
    exact reports_definitionIssues
  | _ => exact iff_of_true (reports_ok _) nofun

/-- Both passes. -/
theorem reports_passes {frames : ℕ} {conditionTree : Json} {actions : List Json} {path : String} :
    (∀ visited ∈ examinedNodes conditionTree, NodeFits lib.py.re visited.2) ∧
      Reports (runChecks (validateActionList lib actions (path ++ ".actions") ::
        actions.mapIdx fun index action =>
          definitionIssues lib frames action (path ++ ".actions[" ++ toString index ++ "]"))) ↔
      DefinitionFits lib frames conditionTree (.list actions) := by
  rw [reports_runChecks, List.forall_mem_cons, ← reports_runChecks, reports_definitionChecks]
  -- the condition, the list of actions and then each action for itself
  constructor
  · rintro ⟨hcondition, hfirst, hsecond⟩
    have hfirst := (reports_validateActionList fun action hmem =>
      textsFit_of_allFit (hsecond _ hmem action rfl).2.2.2).mp hfirst
    exact {
      condition := hcondition
      type := fun action hmem => (hsecond _ hmem action rfl).1
      shown := fun hlength action n hmem => (hfirst hlength _ hmem action rfl).2.1 n
      fields := fun action type hmem htype hknown => by
        obtain hextraction | ⟨hsupported, hlength⟩ := hknown
        · exact (hsecond _ hmem action rfl).2.1 type htype hextraction
        · exact (hfirst hlength _ hmem action rfl).2.2 type htype hsupported
      nested := fun action hmem => (hsecond _ hmem action rfl).2.2.1
      templates := fun action hmem => (hsecond _ hmem action rfl).2.2.2 }
  · intro hfits
    have htexts : ∀ action, .obj action ∈ actions → TextsFit lib action :=
      fun action hmem => textsFit_of_allFit (hfits.templates action hmem)
    refine ⟨hfits.condition, (reports_validateActionList htexts).mpr ?_, ?_⟩
    · rintro hlength _ hmem action rfl
      exact ⟨hfits.type action hmem, fun n => hfits.shown hlength action n hmem, fun type htype hsupported =>
        hfits.fields action type hmem htype (.inr ⟨hsupported, hlength⟩)⟩
    · rintro _ hmem action rfl
      exact ⟨hfits.type action hmem, fun type htype hextraction =>
        hfits.fields action type hmem htype (.inl hextraction), hfits.nested action hmem,
        hfits.templates action hmem⟩

/-- Actions that are no list are not read. -/
theorem definitionFits_of_not_list {frames : ℕ} {conditionTree actions : Json} (h : actionList actions = []) :
    DefinitionFits lib frames conditionTree actions ↔
      ∀ visited ∈ examinedNodes conditionTree, NodeFits lib.py.re visited.2 := by
  constructor
  · exact fun hfits => hfits.condition
  · intro hcondition
    have hnone : ∀ action, action ∉ actionList actions := by
      rw [h]
      exact fun _ => List.not_mem_nil
    exact {
      condition := hcondition
      type := fun action hmem => absurd hmem (hnone _)
      shown := fun _ action n hmem => absurd hmem (hnone _)
      fields := fun action type hmem => absurd hmem (hnone _)
      nested := fun action hmem => absurd hmem (hnone _)
      templates := fun action hmem => absurd hmem (hnone _) }

/-- **The validation of a definition reports, if and only if the definition fits.** -/
theorem definition_reports_iff (lib : RuleLibrary) (frames : ℕ) (conditionTree actions : Json)
    (path : String) :
    (∃ report, validateRuleDefinition lib frames conditionTree actions path = .ok report) ↔
      DefinitionFits lib frames conditionTree actions := by
  have htree : Reports ((validateConditionTree lib.py.re conditionTree (path ++ ".condition_tree")).mapError
      fun e => PyError.other e.code) ↔
      ∀ visited ∈ examinedNodes conditionTree, NodeFits lib.py.re visited.2 := by
    rw [reports_mapError, reports_validateConditionTree]
  change Reports (validateRuleDefinition lib frames conditionTree actions path) ↔ _
  unfold validateRuleDefinition
  cases actions with
  | list actions =>
    rw [← reports_passes, ← htree]
    exact reports_bind_of fun treeIssues => reports_bind_ok fun issues => reports_ok _
  | _ =>
    rw [definitionFits_of_not_list rfl, ← htree]
    exact reports_bind_ok fun issues => reports_ok _

end Law

/-- A library whose `literal_eval` knows the set of a list, and nothing else. -/
def setLibrary : RuleLibrary where
  py := codecLibrary
  literalEval := fun text =>
    if text = "(\x7b[]\x7d,)" then .error .typeError else .error .syntaxError
  groups := fun _ => 0
  groupIndex := fun _ => []

/-- A type that is a list, an infinite id, and a set of a list in a template: each escapes. -/
theorem escapes_of_definitions :
    validateRuleDefinition setLibrary 1000 (.obj []) (.list [.obj [("type", .list [])]]) "rule" =
      .error (.other "TypeError") ∧
    validateRuleDefinition setLibrary 1000 (.obj [])
      (.list [.obj [("type", .str "set_route"), ("route_id", .float ⟨"inf", by decide, by decide⟩)]])
      "rule" = .error (.other "OverflowError") ∧
    validateRuleDefinition setLibrary 1000 (.obj [])
      (.list [.obj [("type", .str "set_title"),
        ("template", .str "\x7b\x7b event.title | default(\x7b[]\x7d) \x7d\x7d")]])
      "rule" = .error (.other "TypeError") := by
  refine ⟨rfl, by decide, by decide +kernel⟩

end IncidentRelay.Orchestration
