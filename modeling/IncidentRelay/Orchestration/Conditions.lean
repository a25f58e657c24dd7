import IncidentRelay.Lib.Result
import IncidentRelay.Orchestration.Fields
import Mathlib.Data.List.Dedup

/-!
# Condition trees

`conditions.py`: the operators, the validator and the evaluator, which visits every node
of a tree.

 * `valid_of_visit`: what the validator has left unreported is a valid tree.
 * `evaluateOperator_settles_iff`: the operators that raise.
 * `evaluate_ok_iff`: a tree without an issue has a result unless one of its leaves looks a
   list or an object up among keys, or matches an integer that has no text.
-/

namespace IncidentRelay.Orchestration

open Json

/-! ## Operators -/

inductive Operator where
  | equals | notEquals | contains | notContains | startsWith | endsWith | regex | notRegex
  | in_ | notIn | exists_ | notExists | greaterThan | lessThan | greaterOrEqual | lessOrEqual
  | isTrue | isFalse
  deriving DecidableEq, Repr

def Operator.name : Operator → String
  | .equals => "equals"
  | .notEquals => "not_equals"
  | .contains => "contains"
  | .notContains => "not_contains"
  | .startsWith => "starts_with"
  | .endsWith => "ends_with"
  | .regex => "regex"
  | .notRegex => "not_regex"
  | .in_ => "in"
  | .notIn => "not_in"
  | .exists_ => "exists"
  | .notExists => "not_exists"
  | .greaterThan => "greater_than"
  | .lessThan => "less_than"
  | .greaterOrEqual => "greater_or_equal"
  | .lessOrEqual => "less_or_equal"
  | .isTrue => "is_true"
  | .isFalse => "is_false"

def supportedOperators : List Operator :=
  [.equals, .notEquals, .contains, .notContains, .startsWith, .endsWith, .regex, .notRegex, .in_,
    .notIn, .exists_, .notExists, .greaterThan, .lessThan, .greaterOrEqual, .lessOrEqual, .isTrue,
    .isFalse]

def operatorAliases : List (String × String) :=
  [("eq", "equals"), ("ne", "not_equals"), ("gt", "greater_than"), ("lt", "less_than"),
    ("gte", "greater_or_equal"), ("lte", "less_or_equal")]

/-- `normalize_operator(operator)`. -/
def normalizeOperator (operator : Json) : Except EvalError Operator :=
  match operator with
  | .str text =>
    let stripped := strip text
    let normalized := (operatorAliases.lookup stripped).getD stripped
    match supportedOperators.find? (·.name = normalized) with
    | some operator => .ok operator
    | none => .error (.condition ("unsupported condition operator " ++ (Json.str text).repr) none)
  | _ => .error (.condition "condition operator must be a string" none)

/-! ## Numbers -/

/-- A finite `Decimal`. -/
structure Decimal where
  coefficient : Int
  exponent : Int
  deriving DecidableEq

namespace Decimal

/-- The coefficients of two numbers under one exponent. -/
def align (a b : Decimal) : Int × Int :=
  let e := min a.exponent b.exponent
  (a.coefficient * 10 ^ (a.exponent - e).toNat, b.coefficient * 10 ^ (b.exponent - e).toNat)

def eq (a b : Decimal) : Bool := (align a b).1 = (align a b).2

def lt (a b : Decimal) : Bool := (align a b).1 < (align a b).2

/-- The code points of the digits nought. -/
def noughts : List ℕ :=
  [0x30, 0x660, 0x6F0, 0x7C0, 0x966, 0x9E6, 0xA66, 0xAE6, 0xB66, 0xBE6, 0xC66, 0xCE6, 0xD66, 0xDE6,
    0xE50, 0xED0, 0xF20, 0x1040, 0x1090, 0x17E0, 0x1810, 0x1946, 0x19D0, 0x1A80, 0x1A90, 0x1B50,
    0x1BB0, 0x1C40, 0x1C50, 0xA620, 0xA8D0, 0xA900, 0xA9D0, 0xA9F0, 0xAA50, 0xABF0, 0xFF10, 0x104A0,
    0x10D30, 0x11066, 0x110F0, 0x11136, 0x111D0, 0x112F0, 0x11450, 0x114D0, 0x11650, 0x116C0,
    0x11730, 0x118E0, 0x11950, 0x11C50, 0x11D50, 0x11DA0, 0x11F50, 0x16A60, 0x16AC0, 0x16B50,
    0x1D7CE, 0x1D7D8, 0x1D7E2, 0x1D7EC, 0x1D7F6, 0x1E140, 0x1E2F0, 0x1E4F0, 0x1E950, 0x1FBF0]

/-- The value of a decimal digit of any script. -/
def digit (c : Char) : Option ℕ :=
  (noughts.find? fun n => n ≤ c.toNat ∧ c.toNat < n + 10).map (c.toNat - ·)

/-- The digits in front, and what follows them. -/
def digits : List Char → List ℕ × List Char
  | [] => ([], [])
  | c :: cs =>
    match digit c with
    | some d => (d :: (digits cs).1, (digits cs).2)
    | none => ([], c :: cs)

def value (ds : List ℕ) : ℕ := ds.foldl (fun n d => 10 * n + d) 0

/-- A sign in front: whether it is a minus, and what follows it. -/
def sign : List Char → Bool × List Char
  | '-' :: cs => (true, cs)
  | '+' :: cs => (false, cs)
  | cs => (false, cs)

/-- `e`, a sign and digits, or nothing. -/
def exponentPart : List Char → Option Int
  | [] => some 0
  | c :: cs =>
    if c = 'e' ∨ c = 'E' then
      match digits (sign cs).2 with
      | ([], _) | (_, _ :: _) => none
      | (ds, []) => some (if (sign cs).1 then -(value ds) else value ds)
    else none

/-- `MAX_EMAX` -/
def maxEmax : Int := 999999999999999999

/-- `MIN_ETINY` -/
def minEtiny : Int := -1999999999999999997

/-- `Decimal(text)` of a text that is stripped, where it is finite and nothing is raised. -/
def ofText (text : String) : Option Decimal :=
  let signed := sign (text.toList.filter (· ≠ '_'))
  let whole := digits signed.2
  let fraction := match whole.2 with
    | '.' :: cs => digits cs
    | cs => ([], cs)
  let ds := whole.1 ++ fraction.1
  match exponentPart fraction.2 with
  | none => none
  | some e =>
    let exponent := e - fraction.1.length
    let significant := (ds.dropWhile (· = 0)).length
    if ds = [] then none
    else if maxEmax < exponent + max significant 1 - 1 ∨ exponent < minEtiny then none
    else some ⟨if signed.1 then -(value ds) else value ds, exponent⟩

end Decimal

/-- `_decimal(value)`, where it does not raise `InvalidOperation`. -/
def decimal : Json → Option Decimal
  | .int n => some ⟨n, 0⟩
  | .float t => Decimal.ofText t.text
  | .str s => Decimal.ofText (strip s)
  | .null | .bool _ | .list _ | .obj _ => none

/-! ## Equality -/

/-- What Python knows beside the texts of floats. -/
structure Floats where
  /-- the integer that a float is equal to -/
  integer : FloatText → Option Int

section Equality

variable (floats : Floats)

/-- The integer that `==` takes a value for. -/
def asInteger : Json → Option Int
  | .bool b => some (if b then 1 else 0)
  | .int n => some n
  | .float t => floats.integer t
  | _ => none

/-- `==` of two values, neither of which is a list or an object. -/
def scalarEq (a b : Json) : Bool :=
  match a, b with
  | .null, .null => true
  | .str s, .str t => s = t
  | .float s, .float t =>
    s.text ≠ "nan" ∧ (s = t ∨ (asInteger floats a = some 0 ∧ asInteger floats b = some 0))
  | _, _ => (asInteger floats a).isSome && asInteger floats a = asInteger floats b

mutual
/-- `a == b` -/
def pyEq (a b : Json) : Bool :=
  match a, b with
  | .list xs, .list ys => pyEqItems xs ys
  | .obj xs, .obj ys => xs.length = ys.length && pyEqEntries xs ys
  | a, b => scalarEq floats a b

def pyEqItems : List Json → List Json → Bool
  | [], [] => true
  | x :: xs, y :: ys => pyEq x y && pyEqItems xs ys
  | _, _ => false

/-- The entries are equal under their keys. -/
def pyEqEntries : Dict → Dict → Bool
  | [], _ => true
  | (k, x) :: xs, ys => (Dict.get ys k).any (pyEq x ·) && pyEqEntries xs ys
end

def isNumber : Json → Bool
  | .int _ | .float _ => true
  | _ => false

/-- `_equal(left, right)`. -/
def equal (left right : Json) : Bool :=
  match left, right with
  | .bool a, .bool b => a = b
  | .bool _, _ | _, .bool _ => false
  | left, right =>
    if isNumber left || isNumber right then
      match decimal left, decimal right with
      | some a, some b => a.eq b
      | _, _ => false
    else
      match left, right with
      | .null, .null => true
      | .str s, .str t => s = t
      | .list xs, .list ys => pyEqItems floats xs ys
      | .obj _, .obj _ => pyEq floats left right
      | _, _ => false

/-- `key in mapping`: a list and an object have no hash. -/
def inKeys (kvs : Dict) (key : Json) : Except EvalError Bool :=
  match key with
  | .list _ | .obj _ => .error (.other "TypeError")
  | .str s => .ok (Dict.has kvs s)
  | _ => .ok false

/-- `_contains(container, expected)`. -/
def containsValue (container expected : Json) : Except EvalError Bool :=
  match container with
  | .str s =>
    match expected with
    | .str t => .ok (decide (t.toList <:+: s.toList))
    | _ => .ok false
  | .obj kvs => inKeys kvs expected
  | .list xs => .ok (xs.any (equal floats · expected))
  | _ => .ok false

/-- `_in(actual, expected)`. -/
def inValue (actual expected : Json) : Except EvalError Bool :=
  match expected with
  | .obj kvs => inKeys kvs actual
  | .list xs => .ok (xs.any (equal floats actual ·))
  | _ => .ok false

end Equality

/-- `_coerce_boolean(value)`, where it does not raise `ValueError`. -/
def coerceBoolean : Json → Option Bool
  | .bool b => some b
  | .int n => if n = 0 then some false else if n = 1 then some true else none
  | .str s =>
    let normalized := lower (strip s)
    if normalized ∈ ["true", "1", "yes", "on"] then some true
    else if normalized ∈ ["false", "0", "no", "off"] then some false
    else none
  | _ => none

/-! ## The evaluation of an operator -/

section Evaluation

variable (re : Re) (floats : Floats)

def textPair (test : List Char → List Char → Bool) (actual expected : Json) : Bool :=
  match actual, expected with
  | .str s, .str t => test t.toList s.toList
  | _, _ => false

/-- The four comparisons; none where a value is not a number. -/
def compare (operator : Operator) (actual expected : Json) : Option Bool :=
  match decimal actual, decimal expected with
  | some left, some right => some <|
    match operator with
    | .greaterThan => right.lt left
    | .lessThan => left.lt right
    | .greaterOrEqual => !left.lt right
    | _ => !right.lt left
  | _, _ => none

/-- `compile_safe_regex(expected).search(bounded_regex_input(actual)) is not None` -/
def searchValue (actual expected : Json) : Except EvalError Bool := do
  let pattern ← compileSafeRegex re expected
  let text ← boundedRegexInput actual
  return re.search pattern text

def matchCode (matched : Bool) : Bool × String :=
  (matched, if matched then "condition_matched" else "condition_mismatched")

/-- `_evaluate_operator(operator, actual, expected, found)`; what is missing is none. -/
def evaluateOperator (operator : Operator) (actual expected : Option Json) :
    Except EvalError (Bool × String) :=
  match operator, actual with
  | .exists_, actual => .ok (actual.isSome, if actual.isSome then "field_exists" else "field_missing")
  | .notExists, actual => .ok (actual.isNone, if actual.isNone then "field_missing" else "field_exists")
  | _, none => .ok (false, "field_missing")
  | operator, some actual =>
    let value := expected.getD .null
    match operator with
    | .equals => .ok (matchCode (expected.any (equal floats actual)))
    | .notEquals => .ok (matchCode (!expected.any (equal floats actual)))
    | .contains => (expected.elim (.ok false) (containsValue floats actual)).map matchCode
    | .notContains =>
      (expected.elim (.ok false) (containsValue floats actual)).map fun b => matchCode (!b)
    | .startsWith => .ok (matchCode (textPair List.isPrefixOf actual value))
    | .endsWith => .ok (matchCode (textPair List.isSuffixOf actual value))
    | .regex => (searchValue re actual value).map matchCode
    | .notRegex => (searchValue re actual value).map fun b => matchCode (!b)
    | .in_ => (expected.elim (.ok false) (inValue floats actual)).map matchCode
    | .notIn => (expected.elim (.ok false) (inValue floats actual)).map fun b => matchCode (!b)
    | .isTrue | .isFalse =>
      match coerceBoolean actual with
      | none => .ok (false, "boolean_coercion_failed")
      | some b => .ok (matchCode (if operator = .isTrue then b else !b))
    | operator =>
      match compare operator actual value with
      | none => .ok (false, "numeric_coercion_failed")
      | some b => .ok (matchCode b)

end Evaluation

/-! ## Validation -/

/-- What `visit` writes. -/
structure Visit where
  nodeCount : ℕ := 0
  issues : List ValidationIssue := []

def Visit.report (v : Visit) (path code message : String) : Visit :=
  { v with issues := v.issues ++ [⟨path, code, message, "error"⟩] }

def logicalKeys : List String := ["all", "any", "none"]

/-- The operators without a value. -/
def noValue : List Operator := [.exists_, .notExists, .isTrue, .isFalse]

def isComparison (operator : Operator) : Bool :=
  operator ∈ [.greaterThan, .lessThan, .greaterOrEqual, .lessOrEqual]

section Validation

variable (re : Re)

/-- The issues of the value of an operator. -/
def valueIssues (operator : Operator) (node : Dict) (path : String) :
    Except EvalError (List ValidationIssue) :=
  match Dict.get node "value" with
  | none =>
    if operator ∈ noValue then .ok []
    else .ok [⟨path, "missing_condition_value",
      "operator " ++ operator.name ++ " requires value", "error"⟩]
  | some value =>
    if operator = .regex ∨ operator = .notRegex then
      match validateRegexPattern re value with
      | .ok _ => .ok []
      | .error (.regex message) => .ok [⟨path ++ ".value", "unsafe_regex", message, "error"⟩]
      | .error e => .error e
    else if operator = .in_ ∨ operator = .notIn then
      match value with
      | .list _ | .obj _ => .ok []
      | _ => .ok [⟨path ++ ".value", "invalid_collection",
          "operator " ++ operator.name ++ " requires a list or object value", "error"⟩]
    else if isComparison operator ∧ (decimal value).isNone then
      .ok [⟨path ++ ".value", "invalid_numeric_value",
        "operator " ++ operator.name ++ " requires a finite numeric value", "error"⟩]
    else .ok []

/-- The issues of a node that is not a group. -/
def leafIssues (node : Dict) (path : String) : Except EvalError (List ValidationIssue) :=
  let unknown := (node.map Prod.fst).filter (· ∉ ["field", "operator", "value"])
  let unknownIssues : List ValidationIssue :=
    if unknown = [] then []
    else [⟨path, "unknown_condition_keys",
      "unknown condition keys: " ++ ", ".intercalate (unknown.mergeSort (· ≤ ·)), "error"⟩]
  let fieldIssues : List ValidationIssue :=
    match Dict.get node "field" with
    | none => [⟨path, "missing_field", "condition field is required", "error"⟩]
    | some reference => validateFieldReference reference (path ++ ".field")
  match Dict.get node "operator" with
  | none => .ok (unknownIssues ++ fieldIssues ++
      [⟨path, "missing_operator", "condition operator is required", "error"⟩])
  | some operator =>
    match normalizeOperator operator with
    | .error e => .ok (unknownIssues ++ fieldIssues ++
        [⟨path ++ ".operator", e.code, e.message, "error"⟩])
    | .ok operator => (valueIssues re operator node path).map
        fun issues => unknownIssues ++ fieldIssues ++ issues

mutual
/-- `visit(node, node_path, depth)` of the validator. -/
def validateNode (node : Json) (path : String) (depth : ℕ) (v : Visit) : Except EvalError Visit :=
  let v := { v with nodeCount := v.nodeCount + 1 }
  if maxConditionNodes < v.nodeCount then
    .ok (v.report path "condition_node_limit" "condition tree has too many nodes")
  else if maxConditionDepth < depth then
    .ok (v.report path "condition_depth_limit" "condition tree is nested too deeply")
  else
    match node with
    | .obj [] => .ok v
    | .obj ((key, child) :: rest) =>
      let node := (key, child) :: rest
      if logicalKeys.any (Dict.has node ·) then
        if rest ≠ [] then
          .ok (v.report path "ambiguous_condition_node"
            "logical condition nodes must contain exactly one of all, any or none")
        else
          match child with
          | .list children => validateNodes children (path ++ "." ++ key) 0 (depth + 1) v
          | _ => .ok (v.report (path ++ "." ++ key) "invalid_condition_children"
              (key ++ " must contain a list"))
      else (leafIssues re node path).map fun issues => { v with issues := v.issues ++ issues }
    | _ => .ok (v.report path "invalid_condition_node" "condition node must be an object")

/-- The children of a group, in order. -/
def validateNodes (children : List Json) (path : String) (index depth : ℕ) (v : Visit) :
    Except EvalError Visit :=
  match children with
  | [] => .ok v
  | child :: children => do
    let v ← validateNode child (path ++ "[" ++ toString index ++ "]") depth v
    validateNodes children path (index + 1) depth v
end

/-- `validate_condition_tree(tree, path=…)`. -/
def validateConditionTree (tree : Json) (path : String := "condition_tree") :
    Except EvalError (List ValidationIssue) :=
  (validateNode re tree path 0 {}).map fun v => v.issues.reverse.dedup.reverse

end Validation

/-! ## The evaluation of a tree -/

/-- `ConditionResult` -/
inductive ConditionResult where
  | node (matched : Bool) (code reason path nodeType : String) (children : List ConditionResult)
  | leaf (matched : Bool) (code reason path : String) (field : String) (operator : Operator)
      (expected actual : Option Json)

def ConditionResult.matched : ConditionResult → Bool
  | .node matched _ _ _ _ _ | .leaf matched _ _ _ _ _ _ _ => matched

section Trees

variable (re : Re) (floats : Floats) (context : Dict)

/-- The result of a group. -/
def groupResult (key path : String) (children : List ConditionResult) : ConditionResult :=
  let matches' := children.map (·.matched)
  let matched :=
    if key = "all" then matches'.all id
    else if key = "any" then matches'.any id
    else !matches'.any id
  .node matched (key ++ (if matched then "_matched" else "_mismatched"))
    (key ++ " group " ++ (if matched then "matched" else "did not match")) path key children

/-- A key of a node; `node[key]` raises where it is missing. -/
def requireKey (node : Dict) (key : String) : Except EvalError Json :=
  match Dict.get node key with
  | none => .error (.other "KeyError")
  | some value => .ok value

/-- The evaluation of a node that is not a group: an unsafe pattern or input is a
mismatch. -/
def evaluateLeaf (node : Dict) (path : String) : Except EvalError ConditionResult := do
  let field ← requireKey node "field"
  let operator ← normalizeOperator (← requireKey node "operator")
  let expected := Dict.get node "value"
  let resolution ← resolveField context field
  let result (matched : Bool) (code reason : String) : ConditionResult :=
    .leaf matched code reason path resolution.normalizedReference operator expected resolution.value
  match evaluateOperator re floats operator resolution.value expected with
  | .ok (matched, code) =>
    return result matched code (code.map fun c => if c = '_' then ' ' else c)
  | .error (.regex message) => return result false "unsafe_regex" message
  | .error e => .error e

mutual
/-- `visit(node, node_path)` of the evaluator, on a tree without an issue: a group has one
key, and a list under it. -/
def evaluateNode (node : Json) (path : String) : Except EvalError ConditionResult :=
  match node with
  | .obj [] => .ok (.node true "catch_all" "empty condition matches all events" path "all" [])
  | .obj ((key, child) :: rest) =>
    if logicalKeys.any (Dict.has ((key, child) :: rest) ·) then
      match child with
      | .list children =>
        (evaluateNodes children (path ++ "." ++ key) 0).map (groupResult key path)
      | _ => .error (.other "TypeError")
    else evaluateLeaf re floats context ((key, child) :: rest) path
  | _ => .error (.other "TypeError")

/-- The children of a group, in order: none is left out. -/
def evaluateNodes (children : List Json) (path : String) (index : ℕ) :
    Except EvalError (List ConditionResult) :=
  match children with
  | [] => .ok []
  | child :: children => do
    let result ← evaluateNode child (path ++ "[" ++ toString index ++ "]")
    let results ← evaluateNodes children path (index + 1)
    return result :: results
end

/-- `evaluate_condition_tree(tree, context)`. -/
def evaluateConditionTree (tree : Json) : Except EvalError ConditionResult := do
  match ← validateConditionTree re tree with
  | [] => evaluateNode re floats context tree "$"
  | first :: _ => .error (.condition first.message (some first.path))

end Trees

/-! ## What the validator leaves -/

/-- A tree without an issue: groups of one key with a list under it, and leaves. -/
inductive ValidNode (re : Re) : Json → Prop where
  | catchAll : ValidNode re (.obj [])
  | group {key : String} {children : List Json} :
      logicalKeys.any (Dict.has [(key, .list children)] ·) = true →
      (∀ child ∈ children, ValidNode re child) → ValidNode re (.obj [(key, .list children)])
  | leaf {key : String} {child : Json} {rest : Dict} {path : String} :
      logicalKeys.any (Dict.has ((key, child) :: rest) ·) = false →
      leafIssues re ((key, child) :: rest) path = .ok [] → ValidNode re (.obj ((key, child) :: rest))

section Valid

variable {re : Re}

/-- What is reported is an issue. -/
theorem reported {v : Visit} {path code message : String} {P : Prop}
    (h : (v.report path code message).issues = []) : P := by
  simp [Visit.report] at h

/-- A leaf that is not reported has no issue. -/
theorem leaf_unreported {node : Dict} {path : String} {v v' : Visit}
    (h : (leafIssues re node path).map (fun issues => { v with issues := v.issues ++ issues }) =
      .ok v') (hissues : v'.issues = []) : v.issues = [] ∧ leafIssues re node path = .ok [] := by
  cases hleaf : leafIssues re node path with
  | error e =>
    rw [hleaf] at h
    cases h
  | ok issues =>
    rw [hleaf] at h
    cases h
    obtain ⟨hold, rfl⟩ := List.append_eq_nil_iff.mp hissues
    exact ⟨hold, rfl⟩

mutual
/-- What `visit` has left unreported is valid; nothing that was reported is dropped. -/
theorem valid_of_visit : ∀ (node : Json) {path : String} {depth : ℕ} {v v' : Visit},
    validateNode re node path depth v = .ok v' → v'.issues = [] →
      v.issues = [] ∧ ValidNode re node := by
  intro node path depth v v' h hissues
  unfold validateNode at h
  dsimp only at h
  split_ifs at h
  · cases h
    exact reported hissues
  · cases h
    exact reported hissues
  -- the node is a leaf or a group; anything else is an issue
  · match node, h with
    | .obj [], h =>
      cases h
      exact ⟨hissues, .catchAll⟩
    | .obj ((key, child) :: rest), h =>
      dsimp only at h
      split_ifs at h with hlogical hrest
      · cases h
        exact reported hissues
      · -- a group: there is a list under its only key
        obtain rfl : rest = [] := not_ne_iff.mp hrest
        match child, h with
        | .list children, h =>
          obtain ⟨hold, hchildren⟩ := valid_of_visits children h hissues
          exact ⟨hold, .group hlogical hchildren⟩
        | .null, h | .bool _, h | .int _, h | .float _, h | .str _, h | .obj _, h =>
          cases h
          exact reported hissues
      · obtain ⟨hold, hleaf⟩ :=
          @leaf_unreported re _ path { v with nodeCount := v.nodeCount + 1 } _ h hissues
        exact ⟨hold, .leaf (Bool.eq_false_iff.mpr hlogical) hleaf⟩
    | .null, h | .bool _, h | .int _, h | .float _, h | .str _, h | .list _, h =>
      cases h
      exact reported hissues

/-- The conditions of a group, one after the other. -/
theorem valid_of_visits : ∀ (children : List Json) {path : String} {index depth : ℕ} {v v' : Visit},
    validateNodes re children path index depth v = .ok v' → v'.issues = [] →
      v.issues = [] ∧ ∀ child ∈ children, ValidNode re child
  | [], path, index, depth, v, v', h, hissues => by
    cases h
    exact ⟨hissues, nofun⟩
  | child :: children, path, index, depth, v, v', h, hissues => by
    unfold validateNodes at h
    obtain ⟨w, hw, h⟩ := bind_eq_ok.mp h
    obtain ⟨hw', hchildren⟩ := valid_of_visits children h hissues
    obtain ⟨hold, hchild⟩ := valid_of_visit child hw hw'
    exact ⟨hold, List.forall_mem_cons.mpr ⟨hchild, hchildren⟩⟩
end

/-- A tree on which the validator reports nothing is valid. -/
theorem valid_of_no_issue {tree : Json} {path : String}
    (h : validateConditionTree re tree path = .ok []) : ValidNode re tree := by
  unfold validateConditionTree at h
  cases hvisit : validateNode re tree path 0 {} with
  | error e =>
    rw [hvisit] at h
    cases h
  | ok v =>
    rw [hvisit] at h
    have hissues : v.issues = [] := by
      -- the issues are listed once, but none of them is left out
      have hdedup : v.issues.reverse.dedup.reverse = [] := Except.ok.inj h
      have hmem : ∀ issue, issue ∉ v.issues := by
        intro issue hissue
        have hkept : issue ∈ v.issues.reverse.dedup.reverse := by
          rw [List.mem_reverse, List.mem_dedup, List.mem_reverse]
          exact hissue
        rw [hdedup] at hkept
        exact List.not_mem_nil hkept
      exact List.eq_nil_iff_forall_not_mem.mpr hmem
    exact (valid_of_visit tree hvisit hissues).2

end Valid

/-! ## What an operator raises -/

/-- Nothing is raised but what the evaluator catches. -/
def Settles {α : Type} (x : Except EvalError α) : Prop :=
  ∀ e, x = .error e → ∃ message, e = .regex message

/-- A list or an object: it has no hash. -/
def isContainer : Json → Bool
  | .list _ | .obj _ => true
  | _ => false

def isObject : Json → Bool
  | .obj _ => true
  | _ => false

/-- The operator looks a list or an object up among the keys of an object, or matches an
integer that has no text. -/
def Clash (operator : Operator) (actual value : Json) : Prop :=
  ((operator = .contains ∨ operator = .notContains) ∧ isObject actual = true ∧
      isContainer value = true) ∨
    ((operator = .in_ ∨ operator = .notIn) ∧ isObject value = true ∧ isContainer actual = true) ∨
    ((operator = .regex ∨ operator = .notRegex) ∧ ∃ n, actual = .int n ∧ oversized n = true)

section Raising

variable {re : Re} {floats : Floats}

theorem settles_ok {α : Type} (a : α) : Settles (.ok a) := nofun

theorem settles_map {α β : Type} {x : Except EvalError α} {f : α → β} :
    Settles (x.map f) ↔ Settles x := by
  unfold Settles
  cases x <;> simp [Except.map]

theorem settles_inKeys (kvs : Dict) (key : Json) :
    Settles (inKeys kvs key) ↔ isContainer key = false := by
  cases key <;> simp [Settles, inKeys, isContainer]

/-- Containment raises where a list or an object is looked up in an object. -/
theorem settles_contains (actual value : Json) : Settles (containsValue floats actual value) ↔
    ¬(isObject actual = true ∧ isContainer value = true) := by
  unfold containsValue
  cases actual with
  | obj kvs => simp [settles_inKeys, isObject]
  | str s => cases value <;> simp [Settles, isObject]
  | null | bool | int | float | list => simp [Settles, isObject]

theorem settles_in (actual value : Json) : Settles (inValue floats actual value) ↔
    ¬(isObject value = true ∧ isContainer actual = true) := by
  unfold inValue
  cases value with
  | obj kvs => simp [settles_inKeys, isObject]
  | null | bool | int | float | str | list => simp [Settles, isObject]

/-- What the validator compiled compiles again. -/
theorem compileSafeRegex_ok {pattern : Json} {normalized : String}
    (h : validateRegexPattern re pattern = .ok normalized) :
    compileSafeRegex re pattern = .ok normalized := by
  have hcompile : re.compile normalized = .ok () := by
    unfold validateRegexPattern at h
    split at h
    · split_ifs at h
      dsimp only at h
      split at h
      · cases h
      · split_ifs at h
        split at h <;> cases h
        assumption
    · cases h
  refine bind_eq_ok.mpr ⟨normalized, h, ?_⟩
  rw [hcompile]

/-- An integer of too many digits has no text. -/
theorem settles_text (actual : Json) :
    Settles (inputText actual) ↔ ¬∃ n, actual = .int n ∧ oversized n = true := by
  cases actual with
  | int n =>
    show Settles (integerText n) ↔ _
    unfold integerText
    split_ifs with hn <;> simp [Settles, hn]
  | null | bool | float | str | list | obj => simp [Settles, inputText]

/-- What always settles may follow. -/
theorem settles_bind {α β : Type} {x : Except EvalError α} {f : α → Except EvalError β}
    (hf : ∀ a, Settles (f a)) : Settles (x >>= f) ↔ Settles x := by
  cases x with
  | error e => simp [Settles, bind, Except.bind]
  | ok a => exact iff_of_true (hf a) (settles_ok a)

/-- Only an integer has no text. -/
theorem settles_input (actual : Json) :
    Settles (boundedRegexInput actual) ↔ ¬∃ n, actual = .int n ∧ oversized n = true := by
  rw [← settles_text]
  refine settles_bind fun text e he => ?_
  split_ifs at he
  cases he
  exact ⟨_, rfl⟩

/-- A search needs the text of its input. -/
theorem settles_search {actual value : Json} {normalized : String}
    (h : validateRegexPattern re value = .ok normalized) :
    Settles (searchValue re actual value) ↔ ¬∃ n, actual = .int n ∧ oversized n = true := by
  rw [← settles_input]
  unfold searchValue
  rw [compileSafeRegex_ok h]
  exact settles_map

/-- **The operators that raise**, on a value that the validator lets through. -/
theorem evaluateOperator_settles_iff {operator : Operator} {node : Dict} {path : String}
    (h : valueIssues re operator node path = .ok []) (actual : Json) :
    Settles (evaluateOperator re floats operator (some actual) (Dict.get node "value")) ↔
      ∀ value, Dict.get node "value" = some value → ¬Clash operator actual value := by
  unfold valueIssues at h
  generalize Dict.get node "value" = expected at h ⊢
  -- only the operators that compare text with what may not be text can raise
  cases operator with
  | contains | notContains =>
    cases expected with
    | none => cases h
    | some value => simp [evaluateOperator, settles_map, settles_contains, Clash]
  | in_ | notIn =>
    cases expected with
    | none => cases h
    | some value => simp [evaluateOperator, settles_map, settles_in, Clash]
  | regex | notRegex =>
    cases expected with
    | none => cases h
    | some value =>
      obtain ⟨normalized, hvalid⟩ : ∃ normalized, validateRegexPattern re value = .ok normalized := by
        cases hvalidate : validateRegexPattern re value with
        | ok normalized => exact ⟨normalized, rfl⟩
        | error e => cases e <;> simp [hvalidate] at h
      simp [evaluateOperator, settles_map, settles_search hvalid, Clash]
  | isTrue | isFalse =>
    refine iff_of_true ?_ (by simp [Clash])
    unfold evaluateOperator
    dsimp only
    split <;> exact settles_ok _
  | greaterThan | lessThan | greaterOrEqual | lessOrEqual =>
    refine iff_of_true ?_ (by simp [Clash])
    unfold evaluateOperator
    dsimp only
    split <;> exact settles_ok _
  | equals | notEquals | startsWith | endsWith | exists_ | notExists =>
    exact iff_of_true (settles_ok _) (by simp [Clash])

end Raising

/-! ## What a tree raises -/

mutual
/-- The nodes of a tree that are not groups. -/
def leaves (node : Json) : List Dict :=
  match node with
  | .obj [] => []
  | .obj ((key, child) :: rest) =>
    if logicalKeys.any (Dict.has ((key, child) :: rest) ·) then
      match child with
      | .list children => leavesOf children
      | _ => []
    else [(key, child) :: rest]
  | _ => []

def leavesOf : List Json → List Dict
  | [] => []
  | child :: children => leaves child ++ leavesOf children
end

/-- The operator of the leaf clashes with what the context has in its field. -/
def Raises (context : Dict) (node : Dict) : Prop :=
  ∃ reference text operator resolution actual value, Dict.get node "field" = some reference ∧
    Dict.get node "operator" = some text ∧ normalizeOperator text = .ok operator ∧
    resolveField context reference = .ok resolution ∧ resolution.value = some actual ∧
    Dict.get node "value" = some value ∧ Clash operator actual value

section Results

variable {re : Re} {floats : Floats} {context : Dict}

/-- What a leaf without an issue has. -/
theorem leaf_spec {node : Dict} {path : String} (h : leafIssues re node path = .ok []) :
    ∃ reference text operator resolution, Dict.get node "field" = some reference ∧
      Dict.get node "operator" = some text ∧ normalizeOperator text = .ok operator ∧
      resolveField context reference = .ok resolution ∧ valueIssues re operator node path = .ok [] := by
  unfold leafIssues at h
  dsimp only at h
  split at h
  · simp at h
  · rename_i text htext
    -- a leaf without an issue has a field and an operator that are known
    split at h
    · simp at h
    · rename_i operator hoperator
      cases hvalue : valueIssues re operator node path with
      | error e =>
        rw [hvalue] at h
        cases h
      | ok issues =>
        rw [hvalue] at h
        obtain ⟨hfront, rfl⟩ := List.append_eq_nil_iff.mp (Except.ok.inj h)
        obtain ⟨-, hfield⟩ := List.append_eq_nil_iff.mp hfront
        split at hfield
        · cases hfield
        · rename_i reference hreference
          unfold validateFieldReference at hfield
          split at hfield
          · rename_i normalized hnormalized
            obtain ⟨resolution, hresolve⟩ :
                ∃ resolution, resolveField context reference = .ok resolution :=
              ⟨_, bind_eq_ok.mpr ⟨normalized, hnormalized, rfl⟩⟩
            exact ⟨reference, text, operator, resolution, hreference, htext, hoperator, hresolve,
              hvalue⟩
          · cases hfield

/-- A leaf has a result unless it raises. -/
theorem evaluateLeaf_ok_iff {node : Dict} {path' path : String}
    (h : leafIssues re node path' = .ok []) :
    (∃ r, evaluateLeaf re floats context node path = .ok r) ↔ ¬Raises context node := by
  obtain ⟨reference, text, operator, resolution, hfield, htext, hoperator, hresolve, hvalue⟩ :=
    @leaf_spec re context node path' h
  -- the leaf is what its operator is, behind the lookups
  have hleaf : evaluateLeaf re floats context node path =
      match evaluateOperator re floats operator resolution.value (Dict.get node "value") with
      | .ok (matched, code) => .ok (.leaf matched code (code.map fun c => if c = '_' then ' ' else c)
          path resolution.normalizedReference operator (Dict.get node "value") resolution.value)
      | .error (.regex message) => .ok (.leaf false "unsafe_regex" message path
          resolution.normalizedReference operator (Dict.get node "value") resolution.value)
      | .error e => .error e := by
    unfold evaluateLeaf requireKey
    rw [hfield, htext]
    simp only [bind, Except.bind, hoperator, hresolve]
    rfl
  have hsettles : (∃ r, evaluateLeaf re floats context node path = .ok r) ↔
      Settles (evaluateOperator re floats operator resolution.value (Dict.get node "value")) := by
    rw [hleaf]
    cases evaluateOperator re floats operator resolution.value (Dict.get node "value") with
    | ok r => exact iff_of_true ⟨_, rfl⟩ (settles_ok r)
    | error e => cases e <;> simp [Settles]
  rw [hsettles]
  have hraises : Raises context node ↔ ∃ actual, resolution.value = some actual ∧
      ∃ value, Dict.get node "value" = some value ∧ Clash operator actual value := by
    constructor
    · rintro ⟨reference', text', operator', resolution', actual, value, hfield', htext', hoperator',
        hresolve', hactual, hget, hclash⟩
      obtain rfl := Option.some.inj (hfield.symm.trans hfield')
      obtain rfl := Option.some.inj (htext.symm.trans htext')
      obtain rfl := Except.ok.inj (hoperator.symm.trans hoperator')
      obtain rfl := Except.ok.inj (hresolve.symm.trans hresolve')
      exact ⟨actual, hactual, value, hget, hclash⟩
    · rintro ⟨actual, hactual, value, hget, hclash⟩
      exact ⟨reference, text, operator, resolution, actual, value, hfield, htext, hoperator, hresolve,
        hactual, hget, hclash⟩
  rw [hraises]
  cases hactual : resolution.value with
  | none =>
    -- a field that is missing is looked up nowhere
    refine iff_of_true ?_ (by simp)
    cases operator <;> exact settles_ok _
  | some actual =>
    rw [evaluateOperator_settles_iff hvalue]
    simp

/-- The conditions of a group are all evaluated. -/
theorem evaluateNodes_ok_iff {children : List Json} {path : String} {index : ℕ}
    (h : ∀ child ∈ children, ∀ path, (∃ r, evaluateNode re floats context child path = .ok r) ↔
      ∀ node ∈ leaves child, ¬Raises context node) :
    (∃ rs, evaluateNodes re floats context children path index = .ok rs) ↔
      ∀ node ∈ leavesOf children, ¬Raises context node := by
  induction children generalizing index with
  | nil => exact iff_of_true ⟨[], rfl⟩ nofun
  | cons child children ih =>
    obtain ⟨hchild, hchildren⟩ := List.forall_mem_cons.mp h
    rw [leavesOf, List.forall_mem_append, ← hchild (path ++ "[" ++ toString index ++ "]"),
      ← @ih (index + 1) hchildren, evaluateNodes]
    constructor
    · rintro ⟨rs, hrs⟩
      obtain ⟨r, hr, hrs⟩ := bind_eq_ok.mp hrs
      obtain ⟨rest, hrest, -⟩ := bind_eq_ok.mp hrs
      exact ⟨⟨r, hr⟩, rest, hrest⟩
    · rintro ⟨⟨r, hr⟩, rest, hrest⟩
      exact ⟨r :: rest, bind_eq_ok.mpr ⟨r, hr, bind_eq_ok.mpr ⟨rest, hrest, rfl⟩⟩⟩

/-- A valid node has a result unless one of its leaves raises. -/
theorem evaluateNode_ok_iff {node : Json} (h : ValidNode re node) (path : String) :
    (∃ r, evaluateNode re floats context node path = .ok r) ↔
      ∀ leaf ∈ leaves node, ¬Raises context leaf := by
  induction h generalizing path with
  | catchAll => exact iff_of_true ⟨_, rfl⟩ nofun
  | @group key children hlogical _ ih =>
    have hgroup := @evaluateNodes_ok_iff _ floats context _ (path ++ "." ++ key) 0 ih
    unfold evaluateNode leaves
    rw [if_pos hlogical, if_pos hlogical, ← hgroup]
    dsimp only
    cases evaluateNodes re floats context children (path ++ "." ++ key) 0 <;> simp [Except.map]
  | @leaf key child rest path' hlogical hissues =>
    unfold evaluateNode leaves
    rw [if_neg (Bool.eq_false_iff.mp hlogical), if_neg (Bool.eq_false_iff.mp hlogical),
      evaluateLeaf_ok_iff hissues]
    simp

/-- **A tree on which the validator reports nothing has a result**, with a boolean in it, in
exactly the contexts in which no leaf looks a list or an object up among the keys of an
object, or matches an integer that has no text. -/
theorem evaluate_ok_iff {tree : Json} (h : validateConditionTree re tree = .ok []) :
    (∃ r, evaluateConditionTree re floats context tree = .ok r) ↔
      ∀ leaf ∈ leaves tree, ¬Raises context leaf := by
  rw [← evaluateNode_ok_iff (valid_of_no_issue h) "$"]
  unfold evaluateConditionTree
  rw [h]
  exact Iff.rfl

end Results

/-! ## An event that breaks a condition -/

/-- An engine without patterns. -/
def plainRe : Re := ⟨fun _ => .ok (), fun _ _ => false, fun _ _ text => text⟩

def plainFloats : Floats := ⟨fun _ => none⟩

/-- The labels contain a list. -/
def containsTree : Json :=
  .obj [("all", .list [.obj [("field", .str "event.labels"), ("operator", .str "contains"),
    ("value", .list [.str "dba"])]])]

/-- On an event whose labels are a list the condition has a result. -/
theorem contains_list :
    (∃ r, evaluateConditionTree plainRe plainFloats
      [("event", .obj [("labels", .list [.list [.str "dba"]])])] containsTree = .ok r) ∧
    ∀ leaf ∈ leaves containsTree,
      ¬Raises [("event", .obj [("labels", .list [.list [.str "dba"]])])] leaf := by
  have hresult : ∃ r, evaluateConditionTree plainRe plainFloats
      [("event", .obj [("labels", .list [.list [.str "dba"]])])] containsTree = .ok r :=
    ok_of_isSome (by decide +kernel)
  exact ⟨hresult, (evaluate_ok_iff (by decide +kernel)).mp hresult⟩

/-- **On an event whose labels are an object the same condition raises.** -/
theorem contains_object_raises : ¬∀ (re : Re) (floats : Floats) (context : Dict) (tree : Json),
    validateConditionTree re tree = .ok [] →
      ∃ r, evaluateConditionTree re floats context tree = .ok r := by
  intro h
  obtain ⟨r, hr⟩ := h plainRe plainFloats [("event", .obj [("labels", .obj [("owner", .str "dba")])])]
    containsTree (by decide +kernel)
  have hraises : (evaluateConditionTree plainRe plainFloats
      [("event", .obj [("labels", .obj [("owner", .str "dba")])])] containsTree).toOption.isSome =
        false := by decide +kernel
  rw [hr] at hraises
  cases hraises

end IncidentRelay.Orchestration
