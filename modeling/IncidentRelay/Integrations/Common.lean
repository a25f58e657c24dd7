import IncidentRelay.Lib.PyText
import IncidentRelay.Integrations.Payload

/-!
# What the normalizers share

The helpers of `normalizers/common.py` and the severity aliases. `sha256` stands
for `hashlib.sha256(…).hexdigest()`, of which nothing is assumed: two fallback
keys are compared by the text they are a digest of (`makeDedupKey_apart`).
-/

namespace IncidentRelay.Integrations

open Json

/-! ## Values -/

/-- `clean_string(value)`. -/
def cleanString : Json → Option String
  | .null => none
  | value =>
    let text := strip (pyStr value)
    if text = "" then none else some text

/-- `value or None` of a text that may be missing. -/
def orNone : Option String → Json
  | some s => .str s
  | none => .null

/-- `str(value or "").strip()`. -/
def textOf (value : Json) : String :=
  strip (pyStr (value.orElse (.str "")))

def normalizeEventLink (value : Json) : Option String := cleanString value

def firstEventLink (values : List Json) : Option String :=
  values.findSome? normalizeEventLink

def addEventLinkLabel (labels : Dict) (eventLink : Option String) : Dict :=
  match normalizeEventLink (orNone eventLink) with
  | some link => labels.setdefault "event_link" (.str link)
  | none => labels

/-- The link is a label of its own. -/
theorem get_addEventLinkLabel_of_ne (labels : Dict) {other : String} (link : Option String)
    (h : other ≠ "event_link") : (addEventLinkLabel labels link).get other = labels.get other := by
  unfold addEventLinkLabel
  split
  · exact get_setdefault_of_ne _ _ h
  · rfl

/-- The link is one label more at the end, or none. -/
theorem addEventLinkLabel_inj {l l' : Dict} {link link' : Option String}
    (hkeys : l.get "event_link" = none ↔ l'.get "event_link" = none)
    (hlength : l.length = l'.length)
    (h : addEventLinkLabel l link = addEventLinkLabel l' link') : l = l' := by
  have hshape : ∀ (m : Dict) (v : Option String), addEventLinkLabel m v = m ∨
      (m.get "event_link" = none ∧ ∃ x, addEventLinkLabel m v = m ++ [("event_link", x)]) := by
    intro m v
    unfold addEventLinkLabel
    split
    · unfold Dict.setdefault
      rw [has_eq_isSome]
      cases hget : m.get "event_link" with
      | some w => exact .inl rfl
      | none => exact .inr ⟨rfl, _, set_of_not_mem hget _⟩
    · exact .inl rfl
  rcases hshape l link with hl | ⟨-, x, hl⟩
  · rcases hshape l' link' with hl' | ⟨-, y, hl'⟩
    · rw [← hl, h, hl']
    · rw [hl, hl'] at h
      rw [h] at hlength
      simp at hlength
  · rcases hshape l' link' with hl' | ⟨-, y, hl'⟩
    · rw [hl, hl'] at h
      rw [← h] at hlength
      simp at hlength
    · rw [hl, hl'] at h
      exact (List.append_inj h hlength).1

/-- `first_non_empty(*values)`. -/
def firstNonEmpty : List Json → Json
  | [] => .null
  | value :: rest =>
    let value := match value with
      | .str s => .str (strip s)
      | v => v
    if value.truthy then value else firstNonEmpty rest

/-! ## The fallback key -/

/-- `make_hash(value)`. -/
def makeHash (sha256 : String → String) (value : Json) : String := sha256 value.repr

/-- The dictionary of `make_dedup_key`. -/
def dedupParts (source : String) (externalId title : Json) (labels : Dict) : Json :=
  .obj [("source", .str source), ("external_id", externalId), ("title", title),
    ("labels", .obj labels)]

/-- `make_dedup_key(source, external_id, title, labels)`. -/
def makeDedupKey (sha256 : String → String) (source : String) (externalId title : Json)
    (labels : Dict) : String :=
  makeHash sha256 (dedupParts source externalId title labels)

/-- Two keys that differ, unless two different texts have the same digest. -/
def Apart (sha256 : String → String) (key key' : Json) : Prop :=
  key ≠ key' ∨ ∃ text text', text ≠ text' ∧ key = .str (sha256 text) ∧ key' = .str (sha256 text')

/-- Fallback keys of different parts are digests of different texts. -/
theorem makeDedupKey_apart (sha256 : String → String) {source : String} {e e' t t' : Json}
    {l l' : Dict} (h : e ≠ e' ∨ t ≠ t' ∨ l ≠ l') :
    Apart sha256 (.str (makeDedupKey sha256 source e t l))
      (.str (makeDedupKey sha256 source e' t' l')) := by
  refine .inr ⟨_, _, ?_, rfl, rfl⟩
  intro htext
  have hparts := Json.obj.inj (repr_injective htext)
  simp only [List.cons.injEq, Prod.mk.injEq, Json.obj.injEq] at hparts
  obtain ⟨-, ⟨-, he⟩, ⟨-, ht⟩, ⟨-, hl⟩, -⟩ := hparts
  rcases h with h | h | h
  · exact h he
  · exact h ht
  · exact h hl

/-! ## Labels -/

/-- `re.sub("[^a-z0-9]+", "_", …)`: one underscore for a run of other characters. -/
def replaceRuns (keep : Char → Bool) : Bool → List Char → List Char
  | _, [] => []
  | inRun, c :: rest =>
    if keep c then c :: replaceRuns keep false rest
    else if inRun then replaceRuns keep true rest
    else '_' :: replaceRuns keep true rest

def isWordChar (c : Char) : Bool := ('a' ≤ c && c ≤ 'z') || ('0' ≤ c && c ≤ '9')

/-- `canonical_label_key(value)`. -/
def canonicalLabelKey (value : String) : String :=
  String.ofList (trimBy (· == '_') (replaceRuns isWordChar false (lower (strip value)).toList))

/-- `normalize_label_value(value)`. -/
def normalizeLabelValue : Json → Json
  | .list xs => .str (dumps { sortKeys := true } (.list xs))
  | .obj kvs => .str (dumps { sortKeys := true } (.obj kvs))
  | value => value

/-- `stable_labels(labels, exclude=…)`. -/
def stableLabels (labels : Dict) (exclude : List String) : Dict :=
  (labels.mergeSort fun a b => decide (a.1 ≤ b.1)).filter fun kv => !exclude.contains kv.1

/-! ## Severities -/

def prioritySeverity : List (String × String) :=
  [("p1", "critical"), ("p2", "high"), ("p3", "medium"), ("p4", "warning"), ("p5", "info")]

/-- `severity_from_priority(value)`. -/
def severityFromPriority (value : Json) : Option String :=
  (cleanString value).bind fun priority => prioritySeverity.lookup (lower priority)

def severityAliases : List (String × String) :=
  [("crit", "critical"), ("critical", "critical"), ("error", "critical"), ("fatal", "critical"),
    ("disaster", "critical"), ("high", "high"), ("avg", "medium"), ("average", "medium"),
    ("medium", "medium"), ("warn", "warning"), ("warning", "warning"), ("low", "low"),
    ("info", "info"), ("information", "info"), ("informational", "info"),
    ("not_classified", "info"), ("not classified", "info")]

/-- `normalize_severity(value)`. -/
def normalizeSeverity (value : Json) : String :=
  let normalized := lower (textOf value)
  (severityAliases.lookup normalized).getD normalized

end IncidentRelay.Integrations
