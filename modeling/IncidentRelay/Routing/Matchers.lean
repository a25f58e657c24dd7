import IncidentRelay.Lib.PyText
import IncidentRelay.Orchestration.Conditions

/-!
# Matchers

Routes, silences, policies and service rules decide with one format of matchers. A matcher is
first brought into one notation, where flat keys are labels, and the alert is then compared with
each value that is left.
-/

namespace IncidentRelay.Matchers

open Orchestration (Floats pyEq)

/-- What is beside the source: the equality of floats and `regex.search`, which finds nothing
where the pattern is not valid or the time is over. -/
structure Engine where
  floats : Floats
  search : String → String → Bool

variable (engine : Engine)

/-! ## Values -/

/-- `str(value or "")` -/
def textOr (value : Json) : String := (value.orElse (.str "")).pyStr

/-- `safe_regex_search(pattern, value)` -/
def safeRegexSearch (pattern value : Json) : Bool :=
  (textOr pattern).length ≤ 1024 && (textOr value).length ≤ 65536 &&
    engine.search (textOr pattern) (textOr value)

/-- `needle in text` -/
def isIn (needle text : String) : Bool := decide (needle.toList <:+: text.toList)

/-- The name of an operator. -/
def normalizeOperator (operator : Json) : String :=
  match lower (strip operator.pyStr) with
  | "eq" => "equals"
  | "ne" => "not_equals"
  | "neq" => "not_equals"
  | name => name

/-- An operator with its value. -/
def matchOperator (actual : Json) (operator : String) (value : Json) : Bool :=
  match operator with
  | "regex" => safeRegexSearch engine value actual
  | "equals" => actual.pyStr = value.pyStr
  | "not_equals" => actual.pyStr ≠ value.pyStr
  | "contains" => isIn (textOr value) (textOr actual)
  | "not_contains" => !isIn (textOr value) (textOr actual)
  | _ => false

mutual
/-- `match_value(actual_value, expected_value)` -/
def matchValue (actual : Json) : Json → Bool
  | .list xs => xs.any (pyEq engine.floats actual ·)
  | .obj kvs =>
    if Dict.getD kvs "op" ≠ .null then
      matchOperator engine actual (normalizeOperator (Dict.getD kvs "op")) (Dict.getD kvs "value")
    else if Dict.has kvs "regex" then safeRegexSearch engine (Dict.getD kvs "regex") actual
    else if Dict.has kvs "not" then !matchNot actual kvs
    else if Dict.has kvs "contains" then isIn (Dict.getD kvs "contains").pyStr (textOr actual)
    else actual.pyStr = (Json.obj kvs).pyStr
  | .null => actual.pyStr = Json.null.pyStr
  | .bool b => actual.pyStr = (Json.bool b).pyStr
  | .int n => actual.pyStr = (Json.int n).pyStr
  | .float t => actual.pyStr = (Json.float t).pyStr
  | .str s => actual.pyStr = (Json.str s).pyStr

/-- `match_value(actual_value, expected_value["not"])` -/
def matchNot (actual : Json) : Dict → Bool
  | [] => false
  | (key, value) :: kvs => if key = "not" then matchValue actual value else matchNot actual kvs
end

/-! ## Matchers -/

/-- A matcher in one notation. -/
structure Normalized where
  source : Option Json
  title : Option Json
  titleRegex : Option Json
  labels : Dict
  fields : Dict

/-- The object under a key, where there is one. -/
def objectAt (m : Dict) (key : String) : Dict := (m.getD key).asDict

/-- A top-level key. -/
def normalizeEntry (n : Normalized) (entry : String × Json) : Normalized :=
  if entry.1 = "labels" ∨ entry.1 = "fields" then n
  else if entry.1 = "source" then { n with source := some entry.2 }
  else if entry.1 = "title" then { n with title := some entry.2 }
  else if entry.1 = "title_regex" then { n with titleRegex := some entry.2 }
  else { n with labels := n.labels.set entry.1 entry.2 }

/-- `normalize_matchers(matchers)` -/
def normalizeMatchers : Json → Normalized
  | .obj m => m.foldl normalizeEntry ⟨none, none, none, objectAt m "labels", objectAt m "fields"⟩
  | _ => ⟨none, none, none, [], []⟩

/-- `get_nested_value(payload, key)` -/
def getNestedValue (payload : Json) (key : String) : Json :=
  (key.toList.splitOn '.').foldl
    (fun current part => match current with
      | .obj kvs => Dict.getD kvs (String.ofList part)
      | _ => .null)
    payload

/-- The value of a label of the alert; the severity and the status are its own where there is no
label. -/
def labelValue (alert : Dict) (name : String) : Json :=
  let value := (objectAt alert "labels").getD name
  if value = .null ∧ (name = "severity" ∨ name = "status") then alert.getD name else value

/-- `match_alert(alert_data, matchers)`; the labels of an alert are an object. -/
def matchAlert (alert : Dict) (matchers : Json) : Bool :=
  let n := normalizeMatchers matchers
  n.source.all (matchValue engine (alert.getD "source")) &&
    n.title.all (matchValue engine (alert.getD "title")) &&
    n.titleRegex.all (fun pattern =>
      safeRegexSearch engine pattern ((alert.getD "title").orElse (.str ""))) &&
    n.labels.all (fun label => matchValue engine (labelValue alert label.1) label.2) &&
    n.fields.all (fun field => matchValue engine (getNestedValue (.obj alert) field.1) field.2)

/-- A matcher as it is stored; the keys of a dictionary are distinct. -/
structure Matcher where
  json : Json
  keys : (json.asDict.map Prod.fst).Nodup
  labels : ((objectAt json.asDict "labels").map Prod.fst).Nodup
  fields : ((objectAt json.asDict "fields").map Prod.fst).Nodup

/-! ## Clauses of a value -/

/-- The operators of a value, by their precedence. -/
def operatorClauses (kvs : Dict) : List Dict :=
  (if kvs.getD "op" ≠ .null then [kvs.filter fun kv => kv.1 = "op" || kv.1 = "value"] else []) ++
    (["regex", "not", "contains"].filter kvs.has).map fun key => [(key, kvs.getD key)]

/-- What no operator reads. -/
def remainder (kvs : Dict) : Dict :=
  kvs.filter fun kv => !(kv.1 ∈ ["regex", "not", "contains"]) &&
    !(kvs.getD "op" ≠ .null && (kv.1 = "op" || kv.1 = "value"))

/-- A value with one operator for each one that it has. -/
def clauses : Json → List Json
  | .obj kvs =>
    if operatorClauses kvs = [] then [.obj kvs]
    else (operatorClauses kvs).map .obj ++ if remainder kvs = [] then [] else [.obj (remainder kvs)]
  | value => [value]

def firstClause (value : Json) : Json := (clauses value).headD value

/-- A value has a first clause. -/
theorem clauses_eq_cons (value : Json) : clauses value = firstClause value :: (clauses value).tail := by
  have hne : clauses value ≠ [] := by
    cases value with
    | obj kvs =>
      rw [clauses]
      split_ifs with hnone
      · exact List.cons_ne_nil _ _
      · exact fun h => hnone (List.map_eq_nil_iff.mp (List.append_eq_nil_iff.mp h).1)
      · exact List.append_ne_nil_of_right_ne_nil _ (List.cons_ne_nil _ _)
    | _ => exact List.cons_ne_nil _ _
  obtain ⟨clause, rest, h⟩ := List.exists_cons_of_ne_nil hne
  rw [firstClause, h]
  rfl

/-- A negation is decided by what it negates. -/
theorem matchNot_eq (actual : Json) (kvs : Dict) (h : Dict.has kvs "not" = true) :
    matchNot engine actual kvs = matchValue engine actual (Dict.getD kvs "not") := by
  induction kvs with
  | nil => cases h
  | cons kv kvs ih =>
    obtain ⟨key, value⟩ := kv
    rw [matchNot, Dict.getD, Dict.get_cons]
    split_ifs with hkey
    · rfl
    · refine ih ?_
      simpa [Dict.has, hkey] using h

/-- The filter for the keys of an operator keeps what stands under them. -/
theorem get_filter {p : String → Bool} {kvs : Dict} {key : String} (h : p key = true) :
    Dict.get (kvs.filter fun kv => p kv.1) key = Dict.get kvs key := by
  induction kvs with
  | nil => rfl
  | cons kv kvs ih =>
    obtain ⟨k, value⟩ := kv
    rw [List.filter_cons, Dict.get_cons]
    by_cases hk : k = key
    · subst hk
      rw [if_pos h, Dict.get_cons, if_pos rfl, if_pos rfl]
    · rw [if_neg hk]
      split_ifs
      · rw [Dict.get_cons, if_neg hk, ih]
      · exact ih

/-- The first operator, where the value has no `op`. -/
theorem firstClause_of_key {kvs : Dict} (hop : kvs.getD "op" = .null) (key : String)
    (h : (["regex", "not", "contains"].filter kvs.has).head? = some key) :
    firstClause (.obj kvs) = .obj [(key, kvs.getD key)] := by
  obtain ⟨keys, hkeys⟩ := List.head?_eq_some_iff.mp h
  have hclauses : operatorClauses kvs = [(key, kvs.getD key)] :: keys.map fun key => [(key, kvs.getD key)] := by
    rw [operatorClauses, if_neg (not_not.mpr hop), List.nil_append, hkeys]
    rfl
  rw [firstClause, clauses, hclauses, if_neg (List.cons_ne_nil _ _)]
  rfl

/-- An object is decided by its first clause. -/
theorem matchValue_object (actual : Json) (kvs : Dict) :
    matchValue engine actual (.obj kvs) = matchValue engine actual (firstClause (.obj kvs)) := by
  by_cases hop : kvs.getD "op" = .null
  · have hread : matchValue engine actual (.obj kvs) =
        if kvs.has "regex" then safeRegexSearch engine (kvs.getD "regex") actual
        else if kvs.has "not" then !matchNot engine actual kvs
        else if kvs.has "contains" then isIn (kvs.getD "contains").pyStr (textOr actual)
        else decide (actual.pyStr = (Json.obj kvs).pyStr) := by
      rw [matchValue, if_neg (not_not.mpr hop)]
    by_cases hregex : kvs.has "regex" = true
    · rw [hread, if_pos hregex, firstClause_of_key hop "regex" (by simp [hregex])]
      rfl
    · rw [hread, if_neg hregex]
      by_cases hnot : kvs.has "not" = true
      · rw [if_pos hnot, firstClause_of_key hop "not" (by simp [hregex, hnot]),
          matchNot_eq engine actual kvs hnot]
        rfl
      · rw [if_neg hnot]
        by_cases hcontains : kvs.has "contains" = true
        · rw [if_pos hcontains,
            firstClause_of_key hop "contains" (by simp [hregex, hnot, hcontains])]
          rfl
        · -- the value has no operator
          have hself : firstClause (.obj kvs) = .obj kvs := by
            simp [firstClause, clauses, operatorClauses, hop, hregex, hnot, hcontains]
          rw [hself, hread, if_neg hregex, if_neg hnot]
  · have hclause : firstClause (.obj kvs) =
        .obj (kvs.filter fun kv => kv.1 = "op" || kv.1 = "value") := by
      simp [firstClause, clauses, operatorClauses, hop]
    have hget {key : String} (hkey : (key = "op" || key = "value") = true) :
        Dict.getD (kvs.filter fun kv => kv.1 = "op" || kv.1 = "value") key = kvs.getD key :=
      congrArg (·.getD .null) (get_filter (p := fun key => key = "op" || key = "value") hkey)
    rw [hclause, matchValue, matchValue, hget rfl, hget rfl, if_pos hop, if_pos hop]

/-- **A value is matched by the first of its clauses.** -/
theorem matchValue_firstClause (actual value : Json) :
    matchValue engine actual value = matchValue engine actual (firstClause value) := by
  cases value with
  | obj kvs => exact matchValue_object engine actual kvs
  | _ => rfl

end IncidentRelay.Matchers
