import IncidentRelay.Redaction

/-!
# What a trace keeps of a value

`bounded_trace_value` cuts a value at a depth, in its texts and in its collections, and
`safe_trace_value` redacts what is left. Above the depth a value is there with its
entries under their keys (`safe_obj`, `safe_list`); below it nothing is left but
`<truncated>` (`safe_deep`).
-/

namespace IncidentRelay.Orchestration

open Json Redaction

/-- `trace_limits()`, with the defaults of the settings. -/
structure TraceLimits where
  /-- `ORCHESTRATION_TRACE_MAX_DEPTH` -/
  maxDepth : ℕ := 12
  /-- `ORCHESTRATION_TRACE_MAX_STRING_CHARS` -/
  maxStringChars : ℕ := 2048
  /-- `ORCHESTRATION_TRACE_MAX_ITEMS` -/
  maxItems : ℕ := 512

def truncated : Json := .str "<truncated>"

/-- A text of a bounded value. -/
def boundedText (limits : TraceLimits) (s : String) : String :=
  if s.length ≤ limits.maxStringChars then s
  else String.ofList (s.toList.take limits.maxStringChars) ++ "…"

section Bounded

variable (limits : TraceLimits)

mutual
/-- `bounded_trace_value(value, depth=…)`. -/
def boundedTraceValue (depth : ℕ) : Json → Json
  | .list xs =>
    if limits.maxDepth < depth then truncated
    else .list ((boundedItems (depth + 1) xs).take limits.maxItems)
  | .obj kvs =>
    if limits.maxDepth < depth then truncated
    else .obj ((boundedEntries (depth + 1) kvs).take limits.maxItems)
  | .str s => if limits.maxDepth < depth then truncated else .str (boundedText limits s)
  | .null => if limits.maxDepth < depth then truncated else .null
  | .bool b => if limits.maxDepth < depth then truncated else .bool b
  | .int n => if limits.maxDepth < depth then truncated else .int n
  | .float t => if limits.maxDepth < depth then truncated else .float t

def boundedItems (depth : ℕ) : List Json → List Json
  | [] => []
  | x :: xs => boundedTraceValue depth x :: boundedItems depth xs

def boundedEntries (depth : ℕ) : Dict → Dict
  | [] => []
  | (k, x) :: kvs => (k, boundedTraceValue depth x) :: boundedEntries depth kvs
end

/-- The items are bounded one by one. -/
theorem boundedItems_eq_map (depth : ℕ) (xs : List Json) :
    boundedItems limits depth xs = xs.map (boundedTraceValue limits depth) := by
  induction xs with
  | nil => rfl
  | cons x xs ih => rw [boundedItems, ih, List.map_cons]

/-- Bounding drops no entry. -/
theorem length_boundedEntries (depth : ℕ) (kvs : Dict) :
    (boundedEntries limits depth kvs).length = kvs.length := by
  induction kvs with
  | nil => rfl
  | cons kv kvs ih =>
    rw [boundedEntries, List.length_cons, List.length_cons, ih]

theorem get_boundedEntries (depth : ℕ) (kvs : Dict) (key : String) :
    Dict.get (boundedEntries limits depth kvs) key =
      (Dict.get kvs key).map (boundedTraceValue limits depth) := by
  induction kvs with
  | nil => rfl
  | cons kv kvs ih =>
    obtain ⟨k, x⟩ := kv
    rw [boundedEntries, Dict.get_cons, Dict.get_cons]
    by_cases hk : k = key
    · rw [if_pos hk, if_pos hk]
      rfl
    · rw [if_neg hk, if_neg hk, ih]

end Bounded

/-! ## Redacted -/

section Safe

variable (limits : TraceLimits) (u : CharClasses)

/-- `safe_trace_value(value)`, of a value at a depth of the whole. -/
def safeTraceValue (depth : ℕ) (value : Json) : Json :=
  redactSecrets u (boundedTraceValue limits depth value)

variable {limits u} {depth : ℕ}

/-- Below the limit nothing is left. -/
theorem safe_deep (h : limits.maxDepth < depth) (value : Json) :
    safeTraceValue limits u depth value = truncated := by
  have hbounded : boundedTraceValue limits depth value = truncated := by
    cases value <;> (rw [boundedTraceValue, if_pos h])
  unfold safeTraceValue
  rw [hbounded]
  show Json.str (redactString u "<truncated>") = _
  rw [redactString_of_plain u (by decide)]
  rfl

/-- A list is there, with its items. -/
theorem safe_list (h : depth ≤ limits.maxDepth) {xs : List Json}
    (hlength : xs.length ≤ limits.maxItems) :
    safeTraceValue limits u depth (.list xs) =
      .list (xs.map (safeTraceValue limits u (depth + 1))) := by
  have hall : (boundedItems limits (depth + 1) xs).take limits.maxItems =
      xs.map (boundedTraceValue limits (depth + 1)) := by
    rw [boundedItems_eq_map]
    refine List.take_of_length_le ?_
    rwa [List.length_map]
  unfold safeTraceValue
  rw [boundedTraceValue, if_neg (not_lt.mpr h), hall, redactSecrets, redactItems_eq_map,
    List.map_map]
  rfl

/-- An object is there, with its values under the keys that are not sensitive. -/
theorem safe_obj (h : depth ≤ limits.maxDepth) {kvs : Dict}
    (hlength : kvs.length ≤ limits.maxItems) :
    ∃ safe : Dict, safeTraceValue limits u depth (.obj kvs) = .obj safe ∧
      ∀ key, isSensitiveKey key = false →
        Dict.get safe key = (Dict.get kvs key).map (safeTraceValue limits u (depth + 1)) := by
  have hall : (boundedEntries limits (depth + 1) kvs).take limits.maxItems =
      boundedEntries limits (depth + 1) kvs := by
    refine List.take_of_length_le ?_
    rwa [length_boundedEntries]
  refine ⟨redactEntries u (boundedEntries limits (depth + 1) kvs), ?_, ?_⟩
  · unfold safeTraceValue
    rw [boundedTraceValue, if_neg (not_lt.mpr h), hall, redactSecrets]
  · intro key hkey
    rw [get_redactEntries u hkey, get_boundedEntries, Option.map_map]
    rfl

theorem safe_int (h : depth ≤ limits.maxDepth) (n : Int) :
    safeTraceValue limits u depth (.int n) = .int n := by
  unfold safeTraceValue
  rw [boundedTraceValue, if_neg (not_lt.mpr h), redactSecrets]

theorem safe_bool (h : depth ≤ limits.maxDepth) (b : Bool) :
    safeTraceValue limits u depth (.bool b) = .bool b := by
  unfold safeTraceValue
  rw [boundedTraceValue, if_neg (not_lt.mpr h), redactSecrets]

/-- A short text without a mark of a secret is kept. -/
theorem safe_str (h : depth ≤ limits.maxDepth) {s : String}
    (hlength : s.length ≤ limits.maxStringChars) (hplain : Plain s.toList) :
    safeTraceValue limits u depth (.str s) = .str s := by
  unfold safeTraceValue boundedTraceValue
  rw [if_neg (not_lt.mpr h), redactSecrets]
  unfold boundedText
  rw [if_pos hlength, redactString_of_plain u hplain]

end Safe

/-! ## A mapping in a stored value -/

/-- `(data.get(key) or {})` -/
def under (data : Dict) (key : String) : Dict := ((data.getD key).orElse (.obj [])).asDict

theorem asDict_orElse (kvs : Dict) : ((Json.obj kvs).orElse (.obj [])).asDict = kvs := by
  cases kvs <;> rfl

end IncidentRelay.Orchestration
