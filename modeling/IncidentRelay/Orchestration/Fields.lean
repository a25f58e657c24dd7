import IncidentRelay.Lib.PyText
import Mathlib.Data.List.Infix

/-!
# Field references and patterns

`fields.py` and `regex.py`: what a field reference may look like and what it finds in a
context, which patterns are accepted and what a pattern is matched against. The engine of
the regular expressions is a parameter.
-/

namespace IncidentRelay.Orchestration

/-! ## Errors -/

structure ValidationIssue where
  path : String
  code : String
  message : String
  severity : String := "error"
  deriving DecidableEq, Repr

/-- What the evaluator raises. -/
inductive EvalError where
  | field (message : String)
  | condition (message : String) (path : Option String)
  | regex (message : String)
  /-- any other exception, by the name of its class -/
  | other (className : String)
  deriving DecidableEq, Repr

/-- `exc.code` -/
def EvalError.code : EvalError → String
  | .field _ => "invalid_field_reference"
  | .condition _ _ => "invalid_condition"
  | .regex _ => "unsafe_regex"
  | .other className => className

/-- `str(exc)`; of the exceptions of Python itself nobody asks for it. -/
def EvalError.message : EvalError → String
  | .field message | .condition message _ | .regex message => message
  | .other className => className

/-! ## Limits -/

def maxConditionDepth : ℕ := 20
def maxConditionNodes : ℕ := 256
def maxFieldReferenceLength : ℕ := 256
def maxRegexPatternLength : ℕ := 512
def maxRegexInputLength : ℕ := 16384

/-- `sys.get_int_max_str_digits()` -/
def maxIntegerDigits : ℕ := 4300

/-! ## Regular expressions -/

/-- What `re.compile` raises: `re.error`, or an exception of its parser. -/
inductive CompileError where
  | error (message : String)
  | other (className : String)
  deriving DecidableEq

/-- The module `re`. -/
structure Re where
  compile : String → Except CompileError Unit
  /-- `re.search(pattern, text) is not None` -/
  search : String → String → Bool
  /-- `re.sub(pattern, replacement, text)` -/
  sub : String → String → String → String

section Patterns

variable (re : Re)

def forbiddenPatterns : List (String × String) :=
  [("\\\\[1-9]", "numeric backreferences are not allowed"),
   ("\\(\\?P=", "named backreferences are not allowed"),
   ("\\(\\?<[=!]", "lookbehind is not allowed"),
   ("\\(\\?\\(", "conditional groups are not allowed"),
   ("\\(\\?>", "atomic groups are not supported")]

def nestedQuantifier : String :=
  "\\((?:[^()\\\\]|\\\\.)*(?:\\*|\\+|\\?|\\\x7b\\d+(?:,\\d*)?\\\x7d)(?:[^()\\\\]|\\\\.)*\\)" ++
    "\\s*(?:\\*|\\+|\\\x7b\\d+(?:,\\d*)?\\\x7d)"

def quantifiedAlternation : String :=
  "\\((?:[^()\\\\]|\\\\.)*\\|(?:[^()\\\\]|\\\\.)*\\)\\s*(?:\\*|\\+|\\\x7b\\d+(?:,\\d*)?\\\x7d)"

def ambiguousDotRepeat : String := "(?:\\.\\*|\\.\\+)\\s*(?:\\.\\*|\\.\\+)"

/-- `normalize_named_groups(pattern)`. -/
def normalizeNamedGroups (pattern : String) : String :=
  re.sub "\\(\\?<([A-Za-z_][A-Za-z0-9_]*)>" "(?P<\\1>" pattern

/-- `text.count(c)` summed over the characters. -/
def countChars (cs : List Char) (text : String) : ℕ := text.toList.countP (· ∈ cs)

/-- `validate_regex_pattern(pattern)`. -/
def validateRegexPattern (pattern : Json) : Except EvalError String :=
  match pattern with
  | .str pattern =>
    if maxRegexPatternLength < pattern.length then .error (.regex "regex pattern exceeds the size limit")
    else if Char.ofNat 0 ∈ pattern.toList then
      .error (.regex "regex pattern cannot contain NUL bytes")
    else
      let normalized := normalizeNamedGroups re pattern
      match forbiddenPatterns.find? fun p => re.search p.1 normalized with
      | some p => .error (.regex p.2)
      | none =>
        if re.search nestedQuantifier normalized then
          .error (.regex "nested quantified groups are not allowed")
        else if re.search quantifiedAlternation normalized then
          .error (.regex "quantified alternation groups are not allowed")
        else if re.search ambiguousDotRepeat normalized then
          .error (.regex "ambiguous repeated wildcard expressions are not allowed")
        else if 64 < countChars ['*', '+', '?', Json.openBrace] normalized then
          .error (.regex "regex pattern has too many quantifiers")
        else if 32 < countChars ['|'] normalized then
          .error (.regex "regex pattern has too many alternatives")
        else
          match re.compile normalized with
          | .ok () => .ok normalized
          | .error (.error message) => .error (.regex ("invalid regex pattern: " ++ message))
          | .error (.other className) => .error (.other className)
  | _ => .error (.regex "regex pattern must be a string")

/-- `compile_safe_regex(pattern)`, down to the pattern that is compiled. -/
def compileSafeRegex (pattern : Json) : Except EvalError String := do
  let normalized ← validateRegexPattern re pattern
  match re.compile normalized with
  | .ok () => .ok normalized
  | .error (.error _) => .error (.other "error")
  | .error (.other className) => .error (.other className)

end Patterns

/-- An integer that `str` refuses. -/
def oversized (n : Int) : Bool := maxIntegerDigits < (Nat.toDigits 10 n.natAbs).length

/-- `str(n)`. -/
def integerText (n : Int) : Except EvalError String :=
  if oversized n then .error (.other "ValueError") else .ok (Json.pyStr (.int n))

/-- The text of a scalar. -/
def inputText : Json → Except EvalError String
  | .null => .ok ""
  | .bool b => .ok (if b then "true" else "false")
  | .str s => .ok s
  | .int n => integerText n
  | .float t => .ok t.text
  | .list _ | .obj _ => .error (.regex "regex input must be a scalar value")

/-- `bounded_regex_input(value)`. -/
def boundedRegexInput (value : Json) : Except EvalError String := do
  let text ← inputText value
  if maxRegexInputLength < text.length then
    .error (.regex "regex input exceeds the size limit")
  else .ok text

/-! ## Field references -/

def allowedRoots : List String :=
  ["event", "labels", "raw", "variables", "route", "service", "team", "integration", "time",
    "result"]

def isNameStart (c : Char) : Bool := c.isAlpha || c == '_'

def isNameChar (c : Char) : Bool := c.isAlphanum || c == '_' || c == '-'

/-- `^[A-Za-z_][A-Za-z0-9_-]*$` -/
def isName (segment : String) : Bool :=
  match segment.toList with
  | [] => false
  | c :: cs => isNameStart c && cs.all isNameChar

/-- `^(0|[1-9][0-9]*)$` -/
def isIndex (segment : String) : Bool :=
  match segment.toList with
  | [] => false
  | c :: cs => c.isDigit && cs.all Char.isDigit && (cs.isEmpty || c != '0')

/-- `int(segment)` of an index. -/
def indexValue (segment : String) : ℕ :=
  segment.toList.foldl (fun n c => 10 * n + (c.toNat - 48)) 0

/-- `text.split(".")` -/
def splitDots (text : String) : List String := (text.toList.splitOn '.').map String.ofList

/-- A segment behind the root. -/
def checkSegment (part : String) : Except EvalError Unit :=
  if part = "" then .error (.field "field reference contains an empty segment")
  else if "__".toList.isPrefixOf part.toList && "__".toList.isSuffixOf part.toList then
    .error (.field "dunder field path segments are not allowed")
  else if isName part || isIndex part then .ok ()
  else .error (.field ("invalid field path segment " ++ (Json.str part).repr ++
    "; only names and list indexes are allowed"))

/-- `normalize_field_reference(reference)`. -/
def normalizeFieldReference (reference : Json) : Except EvalError String :=
  match reference with
  | .str reference =>
    let reference := strip reference
    if reference = "" then .error (.field "field reference cannot be empty")
    else if maxFieldReferenceLength < reference.length then
      .error (.field "field reference exceeds the size limit")
    else if ".".toList.isPrefixOf reference.toList || ".".toList.isSuffixOf reference.toList ||
        decide ("..".toList <:+: reference.toList) then
      .error (.field "field reference contains an empty segment")
    else
      match splitDots reference with
      | [] => .error (.field "field reference contains an empty segment")
      | root :: rest =>
        if root ∈ allowedRoots then do
          rest.forM checkSegment
          return ".".intercalate (root :: rest)
        else if rest = [] ∧ isName root = true then do
          checkSegment root
          return ".".intercalate ["event", root]
        else .error (.field ("field reference must start with one of: " ++
          ", ".intercalate (allowedRoots.mergeSort (· ≤ ·))))
  | _ => .error (.field "field reference must be a string")

/-- `validate_field_reference(reference, path=…)`. -/
def validateFieldReference (reference : Json) (path : String) : List ValidationIssue :=
  match normalizeFieldReference reference with
  | .ok _ => []
  | .error e => [{ path := path, code := e.code, message := e.message }]

/-- `_mapping_get` and `_sequence_get`. -/
def getSegment (current : Json) (segment : String) : Option Json :=
  match current with
  | .obj kvs => Dict.get kvs segment
  | .list xs => if isIndex segment then xs[indexValue segment]? else none
  | _ => none

structure FieldResolution where
  reference : Json
  normalizedReference : String
  /-- the value, where it is found -/
  value : Option Json
  deriving DecidableEq

/-- `resolve_field(context, reference)`. -/
def resolveField (context : Dict) (reference : Json) : Except EvalError FieldResolution := do
  let normalized ← normalizeFieldReference reference
  return {
    reference := reference
    normalizedReference := normalized
    value := (splitDots normalized).foldlM getSegment (.obj context) }

end IncidentRelay.Orchestration
