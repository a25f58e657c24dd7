import IncidentRelay.Orchestration.Conditions
import IncidentRelay.Orchestration.Engine

/-!
# Variable extraction

`variables.py` on an extractor that passed its validation, and the language of a definition
whose conditions, field references and extractors are those of the evaluator. The templates
are a parameter.
-/

namespace IncidentRelay.Orchestration

open Json

/-! ## Extractors -/

/-- A group of a pattern. -/
inductive GroupRef where
  | index (n : ℕ)
  | name (text : String)
  deriving DecidableEq

inductive Transform where
  | lowercase | uppercase | trim
  deriving DecidableEq

/-- What an extractor does; `group` is none where the key is missing, and some none where
it is null. -/
inductive Extraction where
  | regex (source pattern : String) (target : Option String) (group : Option (Option GroupRef))
  | copyField (source target : String)
  | jsonPath (source path target : String)
  | splitTargets (source delimiter : String) (targets : List String) (distinct : targets.Nodup)
  | splitIndex (source delimiter : String) (index : ℕ) (target : String)
  | setVariable (value : Json) (target : String)
  | transform (kind : Transform) (source target : String)

structure Extractor where
  extraction : Extraction
  onFailure : Outcome

/-- What `re.search` returns. -/
structure RegexMatch where
  lastIndex : Option ℕ
  /-- `match.group(group)`; none where there is no such group -/
  group : GroupRef → Option (Option String)
  /-- `match.groupdict()` -/
  groupDict : List (String × Option String)
  distinct : (groupDict.map Prod.fst).Nodup

/-- The functions of the standard library that an extraction uses. -/
structure PyLibrary where
  re : Re
  floats : Floats
  /-- `re.search(pattern, text)` -/
  find : String → String → Option RegexMatch
  /-- `text.lower()` -/
  lower : String → String
  /-- `text.upper()` -/
  upper : String → String
  /-- `bytes(text, "utf-8").decode("unicode_escape")`, where it decodes -/
  unicodeEscape : String → Option String

/-! ## Limits -/

def maxVariables : ℕ := 128
def maxVariableNameLength : ℕ := 64
def maxVariableValueLength : ℕ := 16384
def maxSplitParts : ℕ := 256

/-! ## Errors -/

/-- What `execute_actions` and `extract_variables` catch; of the exceptions of Python itself
it is `ValueError`. -/
def EvalError.recorded : EvalError → PyError
  | .field message => .evaluation message ""
  | .condition message path => .evaluation message (path.getD "")
  | .regex message => .evaluation message ""
  | .other className =>
    if className = "ValueError" then .evaluation "ValueError" "" else .other className

/-- `ExtractionError(message)` -/
def extractionError (message : String) : PyError := .evaluation message ""

/-! ## Paths -/

/-- A segment of a path. -/
inductive PathToken where
  | key (text : String)
  | index (n : ℕ)
  deriving DecidableEq

/-- The name behind a dot, and what follows it. -/
def pathName : List Char → Option (List Char × List Char)
  | [] => none
  | c :: cs => if isNameStart c then some (c :: cs.takeWhile isNameChar, cs.dropWhile isNameChar) else none

section Paths

variable (lib : PyLibrary)

/-- What stands between brackets. -/
def bracketToken (raw : String) : Except PyError PathToken :=
  if isIndex raw then .ok (.index (indexValue raw))
  else
    match raw.toList with
    | quote :: rest =>
      if rest ≠ [] ∧ rest.getLast? = some quote ∧ (quote = singleQuote ∨ quote = doubleQuote) then
        match lib.unicodeEscape (String.ofList rest.dropLast) with
        | none => .error (extractionError "invalid escaped JSON path key")
        | some "" => .error (extractionError "JSON path key cannot be empty")
        | some key => .ok (.key key)
      else .error (extractionError "JSON path brackets only support integer indexes or quoted keys")
    | [] => .error (extractionError "JSON path brackets only support integer indexes or quoted keys")

/-- The result of the parser where its fuel is used up; no class of Python has this name. -/
def outOfFuel : PyError := .other "out of fuel"

/-- The tokens of the rest of a path; every token is longer than nothing, so the length of
the path is fuel enough. -/
def pathTokens : ℕ → List Char → Except PyError (List PathToken)
  | _, [] => .ok []
  | 0, _ :: _ => .error outOfFuel
  | fuel + 1, c :: cs =>
    if c = '.' then
      match pathName cs with
      | none => .error (extractionError "invalid dotted JSON path segment")
      | some (name, rest) => (pathTokens fuel rest).map (.key (String.ofList name) :: ·)
    else if c = openBracket then
      if closeBracket ∉ cs then .error (extractionError "unclosed JSON path bracket")
      else do
        let token ← bracketToken lib (strip (String.ofList (cs.takeWhile (· ≠ closeBracket))))
        let tokens ← pathTokens fuel ((cs.dropWhile (· ≠ closeBracket)).drop 1)
        return token :: tokens
    else .error (extractionError "invalid JSON path syntax")

/-- `_parse_json_path(path)`. -/
def parseJsonPath (path : String) : Except PyError (List PathToken) :=
  match path.toList with
  | '$' :: rest => pathTokens lib rest.length rest
  | _ => .error (extractionError "JSON path must start with $")

/-- One token of `_json_path_get(value, path)`. -/
def getToken (current : Json) (token : PathToken) : Except PyError Json :=
  match token, current with
  | .index n, .list xs =>
    match xs[n]? with
    | some x => .ok x
    | none => .error (extractionError "JSON path index does not exist")
  | .index _, _ => .error (extractionError "JSON path expected a list")
  | .key key, .obj kvs =>
    match Dict.get kvs key with
    | some x => .ok x
    | none => .error (extractionError "JSON path key does not exist")
  | .key _, _ => .error (extractionError "JSON path key does not exist")

/-- `_json_path_get(value, path)`. -/
def jsonPathGet (value : Json) (path : String) : Except PyError Json := do
  let tokens ← parseJsonPath lib path
  tokens.foldlM getToken value

end Paths

/-! ## Variables -/

mutual
/-- `json.dumps(value, allow_nan=False)` raises nothing. -/
def isFinite : Json → Bool
  | .float t => t.text ≠ "nan" ∧ t.text ≠ "inf" ∧ t.text ≠ "-inf"
  | .list xs => itemsFinite xs
  | .obj kvs => entriesFinite kvs
  | _ => true

def itemsFinite : List Json → Bool
  | [] => true
  | x :: xs => isFinite x && itemsFinite xs

def entriesFinite : Dict → Bool
  | [] => true
  | (_, x) :: kvs => isFinite x && entriesFinite kvs
end

/-- `_bounded_value(value)`. -/
def boundedValue (value : Json) : Except PyError Json :=
  if !isFinite value then .error (extractionError "extracted variable must be JSON-compatible")
  else if maxVariableValueLength < (compactJson value).length then
    .error (extractionError "extracted variable exceeds the value size limit")
  else .ok value

/-- `_set_variable(variables, name, value)`. -/
def setVariable (vars : Dict) (name : String) (value : Json) : Except PyError Dict :=
  if !vars.has name && maxVariables ≤ vars.length then
    .error (extractionError "variable count exceeds the limit")
  else (boundedValue value).map (vars.set name)

/-- The variables that an extractor produced, set one after the other: what was set before
a failure stays. -/
def setVariables (vars : Dict) : List (String × Json) → Dict × Except PyError Unit
  | [] => (vars, .ok ())
  | (name, value) :: rest =>
    match setVariable vars name value with
    | .error e => (vars, .error e)
    | .ok vars => setVariables vars rest

/-- `_validate_variable_name(name)`. -/
def validateVariableName (name : String) : Option String :=
  match name.toList with
  | [] => some "variable name is required"
  | c :: cs =>
    if maxVariableNameLength < name.length then some "variable name exceeds the size limit"
    else if isNameStart c && cs.all (fun c => c.isAlphanum || c == '_') then none
    else some ("variable name must start with a letter or underscore and contain only letters, " ++
      "numbers and underscores")

/-- A variable that an extraction starts with. -/
def checkInitial (kv : String × Json) : Except PyError Unit :=
  match validateVariableName kv.1 with
  | some message => .error (.evaluation message ("variables." ++ kv.1))
  | none => (boundedValue kv.2).map fun _ => ()

/-- The variables that an extraction starts with. -/
def checkVariables (vars : Dict) : Except PyError Unit :=
  if maxVariables < vars.length then .error (extractionError "initial variable count exceeds the limit")
  else vars.forM checkInitial

/-! ## Extraction -/

section Extract

variable (lib : PyLibrary) (render : String → Context → Except PyError String) (c : Context)

/-- `resolve_field(context, reference)` -/
def resolveReference (reference : String) : Except PyError (Option Json) :=
  match resolveField c.toJson.asDict (.str reference) with
  | .ok resolution => .ok resolution.value
  | .error e => .error e.recorded

/-- The value of a field that has to be there. -/
def requireField (reference missing : String) : Except PyError Json := do
  match ← resolveReference c reference with
  | some value => .ok value
  | none => .error (extractionError missing)

/-- The text of a field that has to be one. -/
def requireText (reference missing mistyped : String) : Except PyError String := do
  match ← requireField c reference missing with
  | .str text => .ok text
  | _ => .error (extractionError mistyped)

/-- What a match produces: the one group, or all that have a name. -/
def produceMatch (m : RegexMatch) (target : Option String) (group : Option (Option GroupRef)) :
    Except PyError (List (String × Json)) :=
  match target with
  | some target =>
    let chosen := group.getD (some (.index (if m.lastIndex.isSome then 1 else 0)))
    match chosen.bind m.group with
    | none => .error (extractionError "requested regex group does not exist")
    | some text => .ok [(target, optText text)]
  | none =>
    if m.groupDict = [] then
      .error (extractionError "regex extraction requires a target or named groups")
    else .ok (m.groupDict.map fun kv => (kv.1, optText kv.2))

/-- `text.split(delimiter, MAX_SPLIT_PARTS)`: the parts, of which there may be one more. -/
def splitParts (delimiter text : String) : Except PyError (List String) :=
  let parts := text.splitOn delimiter
  if maxSplitParts < parts.length then .error (extractionError "split produced too many parts")
  else .ok parts

/-- The variables that an extractor produces. -/
def produce : Extraction → Except PyError (List (String × Json))
  | .regex source pattern target group => do
    let value ← requireField c source "regex source field does not exist"
    let searched := do
      let pattern ← compileSafeRegex lib.re (.str pattern)
      return lib.find pattern (← boundedRegexInput value)
    match searched with
    | .error e => .error e.recorded
    | .ok none => .error (extractionError "regex did not match")
    | .ok (some m) => produceMatch m target group
  | .copyField source target => do
    let value ← requireField c source "copy source field does not exist"
    return [(target, value)]
  | .jsonPath source path target => do
    let value ← requireField c source "JSON path source field does not exist"
    return [(target, ← jsonPathGet lib value path)]
  | .splitTargets source delimiter targets _ => do
    let text ← requireText c source "split source field does not exist" "split source must be a string"
    let parts ← splitParts delimiter text
    if parts.length < targets.length then
      .error (extractionError "split produced fewer parts than targets")
    else return targets.zip (parts.map .str)
  | .splitIndex source delimiter index target => do
    let text ← requireText c source "split source field does not exist" "split source must be a string"
    match (← splitParts delimiter text)[index]? with
    | none => .error (extractionError "split index does not exist")
    | some part => return [(target, .str part)]
  | .setVariable (.str text) target => do
    let text ← if isTemplate text then render text c else .ok text
    return [(target, .str text)]
  | .setVariable value target => .ok [(target, value)]
  | .transform kind source target => do
    let text ← requireText c source "transform source field does not exist"
      "transform source must be a string"
    let text := match kind with
      | .lowercase => lib.lower text
      | .uppercase => lib.upper text
      | .trim => strip text
    return [(target, .str text)]

/-- The one step of `extract_variables([extractor], context, initial_variables=vars)`: the
variables it leaves and whether it succeeds. -/
def extractStep (x : Extractor) (vars : Dict) : Except PyError (Dict × Bool) :=
  match checkVariables vars with
  | .error e => .error e
  | .ok () =>
    match produce lib render { c with vars := vars } x.extraction with
    | .error (.other className) => .error (.other className)
    | .error (.evaluation _ _) => .ok (vars, false)
    | .ok produced =>
      match setVariables vars produced with
      | (vars, .ok ()) => .ok (vars, true)
      | (vars, .error _) => .ok (vars, false)

end Extract

/-- The language of the evaluator. -/
def evaluatorLanguage (lib : PyLibrary) (render : String → Context → Except PyError String) :
    Language where
  Condition := Json
  Extractor := Extractor
  evaluateConditionTree tree c :=
    match evaluateConditionTree lib.re lib.floats c.toJson.asDict tree with
    | .ok result => .ok result.matched
    | .error e => .error e.recorded
  resolveField := resolveReference
  renderTemplate := render
  extractVariables x c vars :=
    (extractStep lib render c x vars).map fun r => (r.1, if r.2 then .continue else x.onFailure)
  extractionSucceeds x c vars := (extractStep lib render c x vars).toOption.any (·.2)

end IncidentRelay.Orchestration
