import IncidentRelay.Integrations.Common

/-!
# Datadog

`normalize_datadog`. The payload is read under canonical names: keys that differ
in case or punctuation are one name, and the first value that is given counts.
The key is the first of `alert_cycle_key`, `aggreg_key` and `dedup_key` that is
given, and a digest of the sorted labels otherwise; the id of the event and the
alert type are among them.

* `datadog_key_of_keyed` — with one explicit key, however the payload is ordered,
  the recovery carries it;
* `datadog_two_keys` — otherwise two payloads of the alert have two keys, unless
  the labels of the sender hide the fields that vary.
-/

namespace IncidentRelay.Integrations

open Json

/-! ## The payload -/

/-- `DatadogWebhookSchema`, without the fields that are not given. -/
def datadogSchema : List Field :=
  [{ name := "title", type := .text },
    { name := "alert_title", type := .text },
    { name := "event_title", type := .text },
    { name := "message", type := .text },
    { name := "text_only_msg", type := .text },
    { name := "event_msg", type := .text },
    { name := "alert_id", type := .textOrInt },
    { name := "event_id", type := .textOrInt },
    { name := "id", type := .textOrInt },
    { name := "alert_cycle_key", type := .text },
    { name := "aggreg_key", type := .text },
    { name := "alert_transition", type := .text },
    { name := "alert_type", type := .text },
    { name := "alert_priority", type := .text },
    { name := "alert_scope", type := .text },
    { name := "hostname", type := .text },
    { name := "link", type := .text },
    { name := "labels", type := .object },
    { name := "team", type := .text }]

/-- One entry of the payload under its canonical name. -/
def addCanonical (result : Dict) (kv : String × Json) : Dict :=
  let normalized := canonicalLabelKey kv.1
  if normalized = "" then result
  else if !result.has normalized || (result.getD normalized == .null && kv.2 != .null) then
    result.set normalized kv.2
  else result

/-- `_canonical_payload(payload)`. -/
def canonicalPayload (payload : Dict) : Dict := payload.foldl addCanonical []

/-- `_get(data, *names)`: the first name with a value. -/
def getName (data : Dict) : List String → Json
  | [] => .null
  | name :: names =>
    match data.getD (canonicalLabelKey name) with
    | .null => getName data names
    | value => value

/-! ## Status, severity and tags -/

def resolvedTransitions : List String :=
  ["ok", "recover", "recovered", "recovery", "resolve", "resolved", "success"]

/-- `" ".join(text.split())`. -/
def joinWords (text : String) : String :=
  String.ofList (trimBy (· == ' ') (text.toList.foldr
    (fun c rest => if isSpace c then (if rest.head? = some ' ' then rest else ' ' :: rest)
      else c :: rest) []))

/-- `normalize_datadog_status(transition, alert_type)`. -/
def normalizeDatadogStatus (transition alertType : Option String) : String :=
  let normalized := (lower ((transition.bind fun t => cleanString (.str t)).getD "")).map
    fun c => if c = '_' ∨ c = '-' then ' ' else c
  let normalized := joinWords normalized
  if normalized ∈ resolvedTransitions then "resolved"
  else if normalized = "" ∧ lower (strip (alertType.getD "")) = "success" then "resolved"
  else "firing"

/-- `normalize_datadog_severity(explicit, alert_type, priority)`. -/
def normalizeDatadogSeverity (explicit : Json) (alertType priority : Option String) : String :=
  let orInfo := fun severity => if severity = "" then "info" else severity
  match cleanString explicit with
  | some explicit => orInfo (normalizeSeverity (.str explicit))
  | none => match severityFromPriority (orNone priority) with
    | some severity => severity
    | none => orInfo (normalizeSeverity (orNone alertType))

/-- `labels[key] = value` for a label that is given. -/
def setLabel (labels : Dict) (kv : String × Json) : Dict :=
  match cleanString (.str kv.1), normalizeLabelValue kv.2 with
  | some key, .null => labels
  | some key, value => labels.set key value
  | none, _ => labels

/-- `labels.update(other)`. -/
def updateLabels (labels other : Dict) : Dict :=
  other.foldl (fun labels kv => labels.set kv.1 kv.2) labels

/-- One tag of the form `key:value`, or a flag. -/
def setTag (labels : Dict) (item : Json) : Dict :=
  match cleanString item with
  | none => labels
  | some text =>
    let chars := text.toList
    if ':' ∈ chars then
      let key := strip (String.ofList (chars.takeWhile (· ≠ ':')))
      let value := strip (String.ofList ((chars.dropWhile (· ≠ ':')).drop 1))
      if key = "" then labels else labels.setdefault key (.str value)
    else labels.setdefault text (.str "true")

/-- One item of a list of tags. -/
def addTag (labels : Dict) (item : Json) : Dict :=
  match item with
  | .obj tags => updateLabels labels (tags.foldl setLabel [])
  | item => setTag labels item

/-- `normalize_datadog_tags(value)`. -/
def normalizeDatadogTags (value : Json) : Dict :=
  match value with
  | .null => []
  | .obj tags => tags.foldl setLabel []
  | .list items => items.foldl addTag []
  | value => ((pyStr value).splitOn ",").foldl (fun labels item => setTag labels (.str item)) []

/-! ## The fields of the event -/

/-- The labels of the sender: `labels`, `tags` and the scope. -/
def datadogUserLabels (data : Dict) : Dict :=
  let labels := ((getName data ["labels"]).asDict).foldl setLabel []
  let labels := updateLabels labels (normalizeDatadogTags (getName data ["tags"]))
  updateLabels labels (normalizeDatadogTags (getName data ["alert_scope", "scope"]))

def datadogAlertId (data : Dict) : Option String :=
  cleanString (getName data ["alert_id", "monitor_id"])

def datadogEventId (data : Dict) : Option String := cleanString (getName data ["id", "event_id"])

def datadogCycleKey (data : Dict) : Option String := cleanString (getName data ["alert_cycle_key"])

def datadogAggregKey (data : Dict) : Option String :=
  cleanString (getName data ["aggreg_key", "aggregation_key"])

def datadogTransition (data : Dict) : Option String :=
  cleanString (getName data ["alert_transition", "transition"])

def datadogAlertType (data : Dict) : Option String :=
  cleanString (getName data ["alert_type", "event_alert_type"])

def datadogPriority (data : Dict) : Option String :=
  cleanString (getName data ["alert_priority", "priority"])

/-- The labels that the normalizer sets where the sender has none. -/
def datadogFixedLabels (data : Dict) : List (String × Option String) :=
  [("datadog_alert_id", datadogAlertId data),
    ("datadog_event_id", datadogEventId data),
    ("datadog_alert_cycle_key", datadogCycleKey data),
    ("datadog_aggreg_key", datadogAggregKey data),
    ("datadog_alert_transition", datadogTransition data),
    ("datadog_alert_type", datadogAlertType data),
    ("datadog_alert_priority", datadogPriority data),
    ("datadog_scope", cleanString (getName data ["alert_scope", "scope"])),
    ("datadog_event_type", cleanString (getName data ["event_type"])),
    ("datadog_metric", cleanString (getName data ["alert_metric", "metric"])),
    ("host", cleanString (getName data ["hostname", "host"]))]

/-- `labels.setdefault(key, value)` of a field that is given. -/
def setFixed (labels : Dict) (kv : String × Option String) : Dict :=
  match kv.2 with
  | some text => labels.setdefault kv.1 (.str text)
  | none => labels

def datadogLabels (data : Dict) : Dict :=
  addEventLinkLabel ((datadogFixedLabels data).foldl setFixed (datadogUserLabels data))
    (firstEventLink [getName data ["link", "event_link", "event_url", "url"],
      getName data ["incident_url"]])

def datadogTitle (data : Dict) : Json :=
  firstNonEmpty [getName data ["alert_title"], getName data ["event_title"],
    getName data ["title"], .str "Datadog alert"]

/-- The first explicit key of the payload. -/
def explicitKey (cycleKey aggregKey dedupKey : Json) : Json :=
  firstNonEmpty [orNone (cleanString cycleKey), orNone (cleanString aggregKey), dedupKey]

def datadogExplicitKey (data : Dict) : Json :=
  explicitKey (getName data ["alert_cycle_key"]) (getName data ["aggreg_key", "aggregation_key"])
    (getName data ["dedup_key", "fingerprint"])

/-- `alert_id or event_id`. -/
def datadogIdentity (data : Dict) : Json :=
  orNone ((datadogAlertId data).or (datadogEventId data))

def datadogStableLabels (data : Dict) : Dict :=
  stableLabels (datadogLabels data)
    ["event_link", "datadog_alert_transition", "datadog_alert_status"]

def datadogDedupKey (sha256 : String → String) (data : Dict) : Json :=
  (datadogExplicitKey data).orElse (.str (makeDedupKey sha256 "datadog" (datadogIdentity data)
    (datadogTitle data) (datadogStableLabels data)))

/-- `normalize_datadog(payload)`: the one event of the list. -/
def normalizeDatadog (sha256 : String → String) (payload : Dict) : Dict :=
  let data := canonicalPayload payload
  let labels := datadogLabels data
  let title := datadogTitle data
  let message := firstNonEmpty [getName data ["text_only_msg"], getName data ["event_msg"],
    getName data ["message"], getName data ["alert_status"], .str ""]
  [("source", .str "datadog"),
    ("team_slug", firstNonEmpty [getName data ["team", "oncall_team"], labels.getD "team",
      labels.getD "oncall_team"]),
    ("external_id", firstNonEmpty [orNone (datadogCycleKey data), orNone (datadogAggregKey data),
      orNone (datadogEventId data), orNone (datadogAlertId data)]),
    ("dedup_key", datadogDedupKey sha256 data),
    ("title", .str (takeText (pyStr title) 255)),
    ("message", .str (pyStr (message.orElse (.str "")))),
    ("severity", .str (normalizeDatadogSeverity (getName data ["severity"])
      (datadogAlertType data) (datadogPriority data))),
    ("labels", .obj labels),
    ("payload", .obj payload),
    ("status", .str (normalizeDatadogStatus (datadogTransition data) (datadogAlertType data)))]

theorem normalizeDatadog_dedupKey (sha256 : String → String) (payload : Dict) :
    (normalizeDatadog sha256 payload).getD "dedup_key" =
      datadogDedupKey sha256 (canonicalPayload payload) := rfl

/-! ## Reading the canonical payload -/

/-- The first value given under a name. -/
def firstValue (p : Dict) (name : String) : Json :=
  ((p.find? fun kv => canonicalLabelKey kv.1 == name && kv.2 != .null).map Prod.snd).getD .null

/-- One entry of the payload: the first value for a name counts. -/
theorem getD_addCanonical (result : Dict) (kv : String × Json) {name : String} (hname : name ≠ "") :
    (addCanonical result kv).getD name =
      if canonicalLabelKey kv.1 = name ∧ result.getD name = .null then kv.2
      else result.getD name := by
  obtain ⟨k, v⟩ := kv
  unfold addCanonical
  dsimp only
  -- the entry is kept if nothing was read under its name before
  by_cases hk : canonicalLabelKey k = name
  · rw [hk, if_neg hname, has_eq_isSome]
    unfold Dict.getD
    cases hget : result.get name with
    | none => simp
    | some w =>
      by_cases hw : w = .null
      · by_cases hv : v = .null
        · simp [hw, hv, hget]
        · simp [hw, hv]
      · simp [hw, hget]
  · have hne : name ≠ canonicalLabelKey k := fun h => hk h.symm
    simp only [hk, false_and, if_false]
    unfold Dict.getD
    split
    · rfl
    · split
      · rw [Dict.get_set_of_ne _ _ hne]
      · rfl

/-- By induction on the entries. -/
theorem getD_foldl_addCanonical (p result : Dict) {name : String} (hname : name ≠ "") :
    (p.foldl addCanonical result).getD name =
      if result.getD name = .null then firstValue p name else result.getD name := by
  induction p generalizing result with
  | nil =>
    by_cases h : result.getD name = .null
    · rw [if_pos h]
      exact h
    · rw [if_neg h]
      rfl
  | cons kv p ih =>
    rw [List.foldl_cons, ih, getD_addCanonical _ _ hname]
    by_cases hnull : result.getD name = .null
    · by_cases hk : canonicalLabelKey kv.1 = name
      · by_cases hv : kv.2 = .null
        · simp [firstValue, List.find?_cons, hnull, hk, hv]
        · simp [firstValue, List.find?_cons, hnull, hk, hv]
      · simp [firstValue, List.find?_cons, hnull, hk]
    · simp [hnull]

theorem getD_canonicalPayload (p : Dict) {name : String} (hname : name ≠ "") :
    (canonicalPayload p).getD name = firstValue p name := by
  rw [canonicalPayload, getD_foldl_addCanonical p [] hname]
  rfl

/-- What is read is an entry that gives a value. -/
theorem firstValue_mem {p : Dict} {name : String} (h : firstValue p name ≠ .null) :
    ∃ key, (key, firstValue p name) ∈ p ∧ canonicalLabelKey key = name := by
  unfold firstValue at h ⊢
  cases hfind : p.find? fun kv => canonicalLabelKey kv.1 == name && kv.2 != .null with
  | none =>
    rw [hfind] at h
    exact absurd rfl h
  | some kv =>
    have hprop := List.find?_some hfind
    rw [Bool.and_eq_true, beq_iff_eq] at hprop
    exact ⟨kv.1, List.mem_of_find?_eq_some hfind, hprop.1⟩

/-- Where an entry gives a value, some value is read. -/
theorem firstValue_ne_null {p : Dict} {name key : String} {v : Json} (hm : (key, v) ∈ p)
    (hkey : canonicalLabelKey key = name) (hv : v ≠ .null) : firstValue p name ≠ .null := by
  unfold firstValue
  cases hfind : p.find? fun kv => canonicalLabelKey kv.1 == name && kv.2 != .null with
  | none =>
    rw [List.find?_eq_none] at hfind
    have := hfind _ hm
    simp [hkey, hv] at this
  | some kv =>
    have hprop := List.find?_some hfind
    rw [Bool.and_eq_true, bne_iff_ne] at hprop
    exact hprop.2

/-- The names under which the normalizer reads are canonical. -/
def canonicalNames (names : List String) : Bool :=
  names.all fun name => canonicalLabelKey name == name && name != ""

/-! ## One alert, two payloads -/

/-- The names the status is read from, and the id of the event. -/
def datadogVarying : List String :=
  ["alert_transition", "transition", "alert_type", "event_alert_type", "id", "event_id"]

def datadogVaries (key : String) : Bool := datadogVarying.contains (canonicalLabelKey key)

/-- The payloads differ in the order of keys, in the fields that the status is read
from and in the id of the event. -/
def SameDatadogAlert (p q : Dict) : Prop :=
  ∃ r : Dict, Reordered (.obj p) (.obj r) ∧ SameBut datadogVaries r q

/-- In some order of its keys the payload gives this value under the name. -/
def Readable (p : Dict) (name : String) (value : Json) : Prop :=
  ∃ key v, (key, v) ∈ p ∧ canonicalLabelKey key = name ∧ v ≠ .null ∧ Reordered v value

/-- In some order of its keys the payload gives this value under the names. -/
inductive Reads (p : Dict) : List String → Json → Prop where
  | missing : Reads p [] .null
  | here {name : String} {names : List String} {value : Json} :
      Readable p name value → Reads p (name :: names) value
  | next {name : String} {names : List String} {value : Json} :
      (∀ v, ¬Readable p name v) → Reads p names value → Reads p (name :: names) value

/-- The explicit keys that the payload gives in some order of its keys. -/
def ExplicitKey (p : Dict) (key : Json) : Prop :=
  ∃ c a d, Reads p ["alert_cycle_key"] c ∧ Reads p ["aggreg_key", "aggregation_key"] a ∧
    Reads p ["dedup_key", "fingerprint"] d ∧ explicitKey c a d = key

/-- The payload gives one explicit key. -/
def DatadogKeyed (p : Dict) : Prop :=
  ∃ key : Json, key.truthy = true ∧ ∀ key', ExplicitKey p key' → key' = key

theorem reordered_ne_null {v w : Json} (h : Reordered v w) (hv : v ≠ .null) : w ≠ .null := by
  rintro rfl
  exact hv (h.symm.eq_of_rigid rfl)

section SameAlert

variable {p q : Dict}

/-- A value under a name that does not vary is one of `p` in another order. -/
theorem SameDatadogAlert.readable (h : SameDatadogAlert p q) {name : String}
    (hname : datadogVarying.contains name = false) (value : Json) :
    Readable q name value ↔ Readable p name value := by
  obtain ⟨r, hr, hq⟩ := h
  have hmem : ∀ key v, canonicalLabelKey key = name → ((key, v) ∈ q ↔ (key, v) ∈ r) := by
    intro key v hkey
    have hvaries : datadogVaries key = false := by rw [datadogVaries, hkey, hname]
    have hfilter : ∀ d : Dict, (key, v) ∈ d ↔ (key, v) ∈ d.filter fun kv => !datadogVaries kv.1 := by
      intro d
      simp [hvaries]
    rw [hfilter q, hfilter r, hq]
  constructor
  · rintro ⟨key, v, hm, hkey, hv, hvalue⟩
    obtain ⟨w, hw, hvw⟩ := hr.carries_symm key v ((hmem key v hkey).mp hm)
    exact ⟨key, w, hw, hkey, reordered_ne_null hvw hv, hvw.symm.trans hvalue⟩
  · rintro ⟨key, v, hm, hkey, hv, hvalue⟩
    obtain ⟨w, hw, hvw⟩ := hr.symm.carries_symm key v hm
    exact ⟨key, w, (hmem key w hkey).mpr hw, hkey, reordered_ne_null hvw hv,
      hvw.symm.trans hvalue⟩

/-- What the normalizer reads is what the payload gives in its own order. -/
theorem reads_getName (p : Dict) {names : List String} (hnames : canonicalNames names = true) :
    Reads p names (getName (canonicalPayload p) names) := by
  -- by induction on the names: the first whose value is not null
  induction names with
  | nil => exact .missing
  | cons name names ih =>
    rw [canonicalNames, List.all_cons, Bool.and_eq_true, Bool.and_eq_true, beq_iff_eq,
      bne_iff_ne] at hnames
    obtain ⟨⟨hcanonical, hne⟩, hrest⟩ := hnames
    have hread : (canonicalPayload p).getD (canonicalLabelKey name) = firstValue p name := by
      rw [hcanonical, getD_canonicalPayload p hne]
    rw [getName, hread]
    by_cases hnull : firstValue p name = .null
    · rw [hnull]
      refine .next ?_ (ih hrest)
      rintro value ⟨key, v, hm, hkey, hv, -⟩
      exact firstValue_ne_null hm hkey hv hnull
    -- a value that is not null is that of one of the keys
    · obtain ⟨key, hm, hkey⟩ := firstValue_mem hnull
      have hhere : Reads p (name :: names) (firstValue p name) :=
        .here ⟨key, _, hm, hkey, hnull, .refl _⟩
      generalize firstValue p name = value at hnull hhere
      cases value with
      | null => exact absurd rfl hnull
      | _ => exact hhere

/-- What is read of a payload depends on what can be read under the names. -/
theorem reads_congr {names : List String}
    (h : ∀ name ∈ names, ∀ value, Readable q name value ↔ Readable p name value) {value : Json}
    (hread : Reads q names value) : Reads p names value := by
  induction hread with
  | missing => exact .missing
  | here hv => exact .here ((h _ (by simp) _).mp hv)
  | next hnone _ ih =>
    refine .next (fun v hv => hnone v ((h _ (by simp) v).mpr hv)) ?_
    exact ih fun name hm => h name (List.mem_cons_of_mem _ hm)

/-- Whatever the order, the explicit key is one that the payload gives. -/
theorem SameDatadogAlert.explicitKey (h : SameDatadogAlert p q) :
    ExplicitKey p (datadogExplicitKey (canonicalPayload q)) := by
  have hread : ∀ names, canonicalNames names = true →
      (∀ name ∈ names, datadogVarying.contains name = false) →
      Reads p names (getName (canonicalPayload q) names) := by
    intro names hnames hvarying
    exact reads_congr (fun name hm => h.readable (hvarying name hm)) (reads_getName q hnames)
  exact ⟨_, _, _, hread _ (by decide) (by decide), hread _ (by decide) (by decide),
    hread _ (by decide) (by decide), rfl⟩

theorem SameDatadogAlert.refl (p : Dict) : SameDatadogAlert p p :=
  ⟨p, .refl _, SameBut.refl _ _⟩

/-- With one explicit key the recovery carries the key of the firing. -/
theorem datadog_key_of_keyed (sha256 : String → String) (hkeyed : DatadogKeyed p)
    (h : SameDatadogAlert p q) :
    (normalizeDatadog sha256 q).getD "dedup_key" =
      (normalizeDatadog sha256 p).getD "dedup_key" := by
  obtain ⟨key, htruthy, hkey⟩ := hkeyed
  have hp := hkey _ (SameDatadogAlert.refl p).explicitKey
  have hq := hkey _ h.explicitKey
  rw [normalizeDatadog_dedupKey, normalizeDatadog_dedupKey, datadogDedupKey, datadogDedupKey, hp,
    hq, orElse, orElse, if_pos htruthy, if_pos htruthy]

end SameAlert

/-! ## Every explicit key is given in some order -/

/-- Reordering a payload leaves what can be read under a name. -/
theorem readable_reordered {p r : Dict} (h : Reordered (.obj p) (.obj r)) (name : String)
    (value : Json) : Readable r name value ↔ Readable p name value := by
  constructor
  · rintro ⟨key, v, hm, hkey, hv, hvalue⟩
    obtain ⟨w, hw, hvw⟩ := h.carries_symm key v hm
    exact ⟨key, w, hw, hkey, reordered_ne_null hvw hv, hvw.symm.trans hvalue⟩
  · rintro ⟨key, v, hm, hkey, hv, hvalue⟩
    obtain ⟨w, hw, hvw⟩ := h.symm.carries_symm key v hm
    exact ⟨key, w, hw, hkey, reordered_ne_null hvw hv, hvw.symm.trans hvalue⟩

/-- An entry moved to the front is the one that is read. -/
theorem bring_to_front {p : Dict} {name : String} {value : Json} (h : Readable p name value) :
    ∃ r : Dict, Reordered (.obj p) (.obj r) ∧ firstValue r name = value ∧
      ∀ other, other ≠ name → firstValue r other = firstValue p other := by
  obtain ⟨key, v, hm, hkey, hv, hvalue⟩ := h
  obtain ⟨pre, post, rfl⟩ := List.append_of_mem hm
  refine ⟨(key, value) :: (pre ++ post), ?_, ?_, ?_⟩
  · exact (Reordered.entry pre post key hvalue).trans (.perm List.perm_middle)
  · have hne := reordered_ne_null hvalue hv
    simp [firstValue, List.find?_cons, hkey, hne]
  · intro other hother
    have hmiss : ∀ x : Json, (canonicalLabelKey key == other && x != .null) = false := by
      intro x
      have : canonicalLabelKey key ≠ other := fun h => hother (h.symm.trans hkey)
      simp [this]
    simp only [firstValue, List.find?_cons, List.find?_append, hmiss]

/-- A name that is looked up depends on its first values. -/
theorem getName_congr {p r : Dict} {names : List String} (hnames : canonicalNames names = true)
    (h : ∀ name ∈ names, firstValue r name = firstValue p name) :
    getName (canonicalPayload r) names = getName (canonicalPayload p) names := by
  induction names with
  | nil => rfl
  | cons name names ih =>
    rw [canonicalNames, List.all_cons, Bool.and_eq_true, Bool.and_eq_true, beq_iff_eq,
      bne_iff_ne] at hnames
    obtain ⟨⟨hcanonical, hne⟩, hrest⟩ := hnames
    rw [getName, getName, hcanonical, getD_canonicalPayload r hne, getD_canonicalPayload p hne,
      h name (by simp), ih hrest fun n hn => h n (List.mem_cons_of_mem _ hn)]

/-- What the payload gives in some order is read in some order. -/
theorem Reads.realize {p : Dict} {names : List String} {value : Json}
    (hnames : canonicalNames names = true) (h : Reads p names value) :
    ∃ r : Dict, Reordered (.obj p) (.obj r) ∧ getName (canonicalPayload r) names = value ∧
      ∀ other, other ∉ names → firstValue r other = firstValue p other := by
  -- what may be read is read in some order of the payload: bring its key to the front
  induction h with
  | missing => exact ⟨p, .refl _, rfl, fun _ _ => rfl⟩
  | @here name names value hv =>
    rw [canonicalNames, List.all_cons, Bool.and_eq_true, Bool.and_eq_true, beq_iff_eq,
      bne_iff_ne] at hnames
    obtain ⟨r, hr, hvalue, hother⟩ := bring_to_front hv
    obtain ⟨-, v, -, -, hvnull, hvalue'⟩ := hv
    have hne := reordered_ne_null hvalue' hvnull
    refine ⟨r, hr, ?_, fun other hnot => hother other fun heq => hnot (by simp [heq])⟩
    rw [getName, hnames.1.1, getD_canonicalPayload r hnames.1.2, hvalue]
    cases value with
    | null => exact absurd rfl hne
    | _ => rfl
  -- the names in front stay null in the new order
  | @next name names value hnone _ ih =>
    rw [canonicalNames, List.all_cons, Bool.and_eq_true, Bool.and_eq_true, beq_iff_eq,
      bne_iff_ne] at hnames
    obtain ⟨r, hr, hvalue, hother⟩ := ih hnames.2
    refine ⟨r, hr, ?_, fun other hnot => hother other fun hm => hnot (by simp [hm])⟩
    have hnull : firstValue r name = .null := by
      by_contra hne
      obtain ⟨key, hm, hkey⟩ := firstValue_mem hne
      exact hnone _ ((readable_reordered hr name _).mp ⟨key, _, hm, hkey, hne, .refl _⟩)
    rw [getName, hnames.1.1, getD_canonicalPayload r hnames.1.2, hnull]
    exact hvalue

/-- Each key that can be read is the one that some order of the payload has. -/
theorem ExplicitKey.realize {p : Dict} {key : Json} (h : ExplicitKey p key) :
    ∃ r : Dict, Reordered (.obj p) (.obj r) ∧ datadogExplicitKey (canonicalPayload r) = key := by
  obtain ⟨c, a, d, hc, ha, hd, rfl⟩ := h
  have hstep : ∀ {p r : Dict} {names : List String} {v : Json}, Reordered (.obj p) (.obj r) →
      Reads p names v → Reads r names v := fun hr hv =>
    reads_congr (fun name _ value => (readable_reordered hr name value).symm) hv
  -- One name after the other; the later ones leave the earlier ones alone.
  obtain ⟨r₁, hr₁, hc₁, -⟩ := hc.realize (by decide)
  obtain ⟨r₂, hr₂, ha₂, hkeep₂⟩ := (hstep hr₁ ha).realize (by decide)
  obtain ⟨r₃, hr₃, hd₃, hkeep₃⟩ := (hstep (hr₁.trans hr₂) hd).realize (by decide)
  refine ⟨r₃, (hr₁.trans hr₂).trans hr₃, ?_⟩
  have hc₃ : getName (canonicalPayload r₃) ["alert_cycle_key"] = c := by
    rw [← hc₁]
    apply getName_congr (by decide)
    intro name hm
    obtain rfl := List.mem_singleton.mp hm
    rw [hkeep₃ _ (by decide), hkeep₂ _ (by decide)]
  have ha₃ : getName (canonicalPayload r₃) ["aggreg_key", "aggregation_key"] = a := by
    rw [← ha₂]
    apply getName_congr (by decide)
    intro name hm
    have hnot : ∀ n ∈ ["aggreg_key", "aggregation_key"], n ∉ ["dedup_key", "fingerprint"] := by
      decide
    exact hkeep₃ name (hnot name hm)
  rw [datadogExplicitKey, hc₃, ha₃, hd₃]

/-! ## A field that varies is written over -/

/-- The payload with one value under a name. -/
def overwrite (p : Dict) (name value : String) : Dict :=
  (name, .str value) :: p.filter fun kv => !(canonicalLabelKey kv.1 == name)

section Overwrite

variable {p : Dict} {name : String} (value : String)

theorem firstValue_overwrite (hname : canonicalLabelKey name = name) :
    firstValue (overwrite p name value) name = .str value := by
  simp [firstValue, overwrite, hname]

/-- Other names keep theirs. -/
theorem firstValue_overwrite_of_ne (hname : canonicalLabelKey name = name) {other : String}
    (hother : other ≠ name) :
    firstValue (overwrite p name value) other = firstValue p other := by
  have hhead : (canonicalLabelKey name == other) = false := by
    rw [hname]
    simpa using hother.symm
  have hfilter : (p.filter fun kv => !(canonicalLabelKey kv.1 == name)).find?
      (fun kv => canonicalLabelKey kv.1 == other && kv.2 != .null) =
      p.find? fun kv => canonicalLabelKey kv.1 == other && kv.2 != .null := by
    rw [List.find?_filter]
    refine congrArg (fun f => List.find? f p) (funext fun kv => ?_)
    by_cases hk : canonicalLabelKey kv.1 = other
    · simp only [hk, hother, beq_eq_false_iff_ne.mpr hother, Bool.not_false, true_and,
        Bool.decide_eq_true]
    · simp only [beq_eq_false_iff_ne.mpr hk, Bool.false_and, Bool.false_eq_true, and_false,
        decide_false]
  rw [firstValue, overwrite, List.find?_cons, hhead, Bool.false_and, hfilter]
  rfl

/-- Overwriting a field that may vary leaves the alert the same. -/
theorem sameBut_overwrite (hname : datadogVaries name = true)
    (hcanonical : canonicalLabelKey name = name) :
    SameBut datadogVaries p (overwrite p name value) := by
  unfold SameBut overwrite
  rw [List.filter_cons_of_neg (by simp [hname]), List.filter_filter]
  apply List.filter_congr
  intro kv _
  by_cases hk : canonicalLabelKey kv.1 = name
  · have hvaries : datadogVaries kv.1 = true := by
      unfold datadogVaries at hname ⊢
      rw [hcanonical] at hname
      rw [hk, hname]
    simp [hvaries]
  · simp [hk]

theorem accepts_overwrite (hp : Accepts datadogSchema p) (hname : canonicalLabelKey name = name)
    (htext : ∀ f ∈ datadogSchema, f.name = name → f.type.accepts (.str value) = true) :
    Accepts datadogSchema (overwrite p name value) := by
  have hd := hp.1
  rw [distinct, Bool.and_eq_true, decide_eq_true_eq, distinctEntries_iff] at hd
  -- the keys stay apart, and each field is of its type
  refine ⟨?_, ?_⟩
  · rw [distinct, Bool.and_eq_true, decide_eq_true_eq, distinctEntries_iff]
    refine ⟨?_, ?_⟩
    · rw [overwrite, List.map_cons, List.nodup_cons]
      refine ⟨?_, hd.1.sublist (List.filter_sublist.map _)⟩
      intro hm
      obtain ⟨kv, hkv, rfl⟩ := List.mem_map.mp hm
      have := (List.mem_filter.mp hkv).2
      simp [hname] at this
    · intro kv hm
      rcases List.mem_cons.mp hm with rfl | hm
      · rfl
      · exact hd.2 kv (List.mem_filter.mp hm).1
  · intro f hf
    have hcanonical : canonicalLabelKey f.name = f.name := by
      have hall : ∀ f ∈ datadogSchema, canonicalLabelKey f.name = f.name := by decide +kernel
      exact hall f hf
    unfold Field.accepts Dict.getD
    rw [overwrite, Dict.get_cons]
    -- the field that is overwritten accepts the text, the others are as before
    by_cases hk : name = f.name
    · rw [if_pos hk, Option.getD_some, htext f hf hk.symm, Bool.or_true]
    · have hkeep : (canonicalLabelKey f.name == name) = false := by
        rw [hcanonical]
        simpa using fun h => hk h.symm
      rw [if_neg hk, @get_filter (fun k => canonicalLabelKey k == name) f.name hkeep]
      exact hp.2 f hf

end Overwrite

/-! ## The labels of an event -/

/-- Each label once. -/
def KeysOnce (labels : Dict) : Prop := (labels.map Prod.fst).Nodup

/-- A loop that sets labels one by one keeps the keys apart. -/
theorem keysOnce_foldl {α : Type} {f : Dict → α → Dict}
    (hf : ∀ labels x, KeysOnce labels → KeysOnce (f labels x)) (xs : List α) {labels : Dict}
    (h : KeysOnce labels) : KeysOnce (xs.foldl f labels) := by
  induction xs generalizing labels with
  | nil => exact h
  | cons x xs ih => exact ih (hf labels x h)

theorem keysOnce_setLabel (labels : Dict) (kv : String × Json) (h : KeysOnce labels) :
    KeysOnce (setLabel labels kv) := by
  unfold setLabel
  split
  · exact h
  · exact nodup_set h _ _
  · exact h

theorem keysOnce_updateLabels {labels : Dict} (h : KeysOnce labels) (other : Dict) :
    KeysOnce (updateLabels labels other) :=
  keysOnce_foldl (fun _ _ hl => nodup_set hl _ _) other h

theorem keysOnce_userLabels (data : Dict) : KeysOnce (datadogUserLabels data) := by
  unfold datadogUserLabels
  refine keysOnce_updateLabels (keysOnce_updateLabels ?_ _) _
  exact keysOnce_foldl keysOnce_setLabel _ List.nodup_nil

/-- A fixed label is set under its key. -/
theorem keysOnce_setFixed (labels : Dict) (kv : String × Option String) (h : KeysOnce labels) :
    KeysOnce (setFixed labels kv) := by
  unfold setFixed
  split
  · exact nodup_setdefault h _ _
  · exact h

theorem keysOnce_datadogLabels (data : Dict) : KeysOnce (datadogLabels data) := by
  have hfixed : KeysOnce ((datadogFixedLabels data).foldl setFixed (datadogUserLabels data)) :=
    keysOnce_foldl keysOnce_setFixed _ (keysOnce_userLabels data)
  unfold datadogLabels addEventLinkLabel
  split
  · exact nodup_setdefault hfixed _ _
  · exact hfixed

/-- A fixed label overwrites none that is there. -/
theorem get_setFixed_of_some {labels : Dict} {key : String} {v : Json}
    (h : labels.get key = some v) (kv : String × Option String) :
    (setFixed labels kv).get key = some v := by
  unfold setFixed
  split
  · exact get_setdefault_of_some h _ _
  · exact h

/-- None of them does. -/
theorem get_foldl_setFixed_of_some {labels : Dict} {key : String} {v : Json}
    (h : labels.get key = some v) (fixed : List (String × Option String)) :
    (fixed.foldl setFixed labels).get key = some v := by
  induction fixed generalizing labels with
  | nil => exact h
  | cons kv fixed ih => exact ih (get_setFixed_of_some h kv)

/-- A fixed field that the sender does not label is a label. -/
theorem get_foldl_setFixed {fixed : List (String × Option String)} {key text : String}
    (hm : (key, some text) ∈ fixed) (hnd : (fixed.map Prod.fst).Nodup) {labels : Dict}
    (h : labels.get key = none) :
    (fixed.foldl setFixed labels).get key = some (.str text) := by
  -- by induction on the labels that are fixed: the first of the key stays
  induction fixed generalizing labels with
  | nil => cases hm
  | cons kv fixed ih =>
    rw [List.map_cons, List.nodup_cons] at hnd
    rw [List.foldl_cons]
    rcases List.mem_cons.mp hm with rfl | hm
    · apply get_foldl_setFixed_of_some
      rw [setFixed, get_setdefault_self, h]
      rfl
    · apply ih hm hnd.2
      have hne : key ≠ kv.1 := by
        rintro rfl
        exact hnd.1 (List.mem_map.mpr ⟨_, hm, rfl⟩)
      unfold setFixed
      split
      · rw [get_setdefault_of_ne _ _ hne, h]
      · exact h

/-- Such a label is among those that the fallback key covers. -/
theorem mem_datadogStableLabels {data : Dict} {key text : String}
    (hm : (key, some text) ∈ datadogFixedLabels data)
    (hfree : (datadogUserLabels data).get key = none)
    (hkey : key ∉ ["event_link", "datadog_alert_transition", "datadog_alert_status"]) :
    (key, .str text) ∈ datadogStableLabels data := by
  have hnd : ((datadogFixedLabels data).map Prod.fst).Nodup := by
    show List.Nodup ["datadog_alert_id", "datadog_event_id", "datadog_alert_cycle_key",
      "datadog_aggreg_key", "datadog_alert_transition", "datadog_alert_type",
      "datadog_alert_priority", "datadog_scope", "datadog_event_type", "datadog_metric", "host"]
    decide
  have hget : (datadogLabels data).get key = some (.str text) := by
    rw [datadogLabels, get_addEventLinkLabel_of_ne _ _ fun h => hkey (by simp [h])]
    exact get_foldl_setFixed hm hnd hfree
  rw [datadogStableLabels, stableLabels, List.mem_filter, List.mem_mergeSort]
  exact ⟨(get_eq_some_iff (keysOnce_datadogLabels data) key _).mp hget, by simpa using hkey⟩

/-- One value for a label, whichever payload it is read from. -/
theorem datadogStableLabels_unique {data : Dict} {key : String} {v w : Json}
    (hv : (key, v) ∈ datadogStableLabels data) (hw : (key, w) ∈ datadogStableLabels data) :
    v = w := by
  rw [datadogStableLabels, stableLabels, List.mem_filter, List.mem_mergeSort] at hv hw
  have hget := (get_eq_some_iff (keysOnce_datadogLabels data) key v).mpr hv.1
  have hget' := (get_eq_some_iff (keysOnce_datadogLabels data) key w).mpr hw.1
  rw [hget] at hget'
  exact Option.some.inj hget'

/-! ## Two payloads with two keys -/

/-- The sender labels the alert so that neither the id of the event nor the alert
type is covered by the fallback key. -/
def Shadowed (p : Dict) : Prop :=
  let data := canonicalPayload p
  (datadogAlertId data).isSome = true ∧
    (datadogUserLabels data).get "datadog_event_id" ≠ none ∧
    (datadogUserLabels data).get "datadog_alert_type" ≠ none

/-- In some order of its keys the payload is labelled so. -/
def Shadowable (p : Dict) : Prop :=
  ∃ r : Dict, Reordered (.obj p) (.obj r) ∧ Shadowed r

section TwoKeys

variable {p : Dict} {name : String} (value : String)

/-- Writing over a name leaves what is read under other names. -/
theorem getName_overwrite_of_not_mem (hname : canonicalLabelKey name = name) {names : List String}
    (hnames : canonicalNames names = true) (hnot : name ∉ names) :
    getName (canonicalPayload (overwrite p name value)) names =
      getName (canonicalPayload p) names := by
  apply getName_congr hnames
  intro other hm
  exact firstValue_overwrite_of_ne value hname fun h => hnot (h ▸ hm)

theorem getName_overwrite (hname : canonicalLabelKey name = name) (hne : name ≠ "")
    (names : List String) :
    getName (canonicalPayload (overwrite p name value)) (name :: names) = .str value := by
  rw [getName, hname, getD_canonicalPayload _ hne, firstValue_overwrite value hname]

/-- Names that the explicit key and the labels of the sender are not read under. -/
def notRead (name : String) : Bool :=
  !(["alert_cycle_key", "aggreg_key", "aggregation_key", "dedup_key", "fingerprint", "labels",
    "tags", "alert_scope", "scope"].contains name)

/-- A name that the key does not read changes no key. -/
theorem explicitKey_overwrite (hname : canonicalLabelKey name = name)
    (hread : notRead name = true) :
    datadogExplicitKey (canonicalPayload (overwrite p name value)) =
      datadogExplicitKey (canonicalPayload p) := by
  simp only [notRead, List.contains_eq_mem, List.mem_cons, List.not_mem_nil, or_false,
    Bool.not_eq_true', decide_eq_false_iff_not, not_or] at hread
  unfold datadogExplicitKey
  rw [getName_overwrite_of_not_mem value hname (by decide) (by simp [hread]),
    getName_overwrite_of_not_mem value hname (by decide) (by simp [hread]),
    getName_overwrite_of_not_mem value hname (by decide) (by simp [hread])]

theorem userLabels_overwrite (hname : canonicalLabelKey name = name)
    (hread : notRead name = true) :
    datadogUserLabels (canonicalPayload (overwrite p name value)) =
      datadogUserLabels (canonicalPayload p) := by
  simp only [notRead, List.contains_eq_mem, List.mem_cons, List.not_mem_nil, or_false,
    Bool.not_eq_true', decide_eq_false_iff_not, not_or] at hread
  unfold datadogUserLabels
  rw [getName_overwrite_of_not_mem value hname (by decide) (by simp [hread]),
    getName_overwrite_of_not_mem value hname (by decide) (by simp [hread]),
    getName_overwrite_of_not_mem value hname (by decide) (by simp [hread])]

end TwoKeys

/-- Two payloads of the alert have two keys. -/
def HasTwoKeys (sha256 : String → String) (p : Dict) : Prop :=
  ∃ q q', Accepts datadogSchema q ∧ Accepts datadogSchema q' ∧ SameDatadogAlert p q ∧
    SameDatadogAlert p q' ∧
    Apart sha256 ((normalizeDatadog sha256 q).getD "dedup_key")
      ((normalizeDatadog sha256 q').getD "dedup_key")

/-- It is enough that the digest covers a field that varies. -/
theorem hasTwoKeys_of_parts (sha256 : String → String) {p : Dict} (hp : Accepts datadogSchema p)
    (hblank : (datadogExplicitKey (canonicalPayload p)).truthy = false) {name : String}
    (hname : canonicalLabelKey name = name) (hvaries : datadogVaries name = true)
    (hread : notRead name = true)
    (hfield : ∀ v, ∀ f ∈ datadogSchema, f.name = name → f.type.accepts (.str v) = true)
    {v w : String}
    (hparts : datadogIdentity (canonicalPayload (overwrite p name v)) ≠
        datadogIdentity (canonicalPayload (overwrite p name w)) ∨
      datadogStableLabels (canonicalPayload (overwrite p name v)) ≠
        datadogStableLabels (canonicalPayload (overwrite p name w))) :
    HasTwoKeys sha256 p := by
  -- two values of a field that the key does not name
  refine ⟨overwrite p name v, overwrite p name w, accepts_overwrite _ hp hname (hfield _),
    accepts_overwrite _ hp hname (hfield _), ⟨p, .refl _, sameBut_overwrite _ hvaries hname⟩,
    ⟨p, .refl _, sameBut_overwrite _ hvaries hname⟩, ?_⟩
  rw [normalizeDatadog_dedupKey, normalizeDatadog_dedupKey, datadogDedupKey, datadogDedupKey,
    explicitKey_overwrite v hname hread, explicitKey_overwrite w hname hread, orElse, orElse,
    hblank, if_neg Bool.false_ne_true, if_neg Bool.false_ne_true]
  -- the keys differ as their parts do
  apply makeDedupKey_apart
  rcases hparts with hid | hlabels
  · exact .inl hid
  · exact .inr (.inr hlabels)

/-- A fixed label that the sender does not set, read from a field that varies. -/
theorem stableLabels_ne {data data' : Dict} {key : String}
    (hm : (key, some "1") ∈ datadogFixedLabels data)
    (hm' : (key, some "2") ∈ datadogFixedLabels data')
    (hfree : (datadogUserLabels data).get key = none)
    (hfree' : (datadogUserLabels data').get key = none)
    (hkey : key ∉ ["event_link", "datadog_alert_transition", "datadog_alert_status"]) :
    datadogStableLabels data ≠ datadogStableLabels data' := by
  intro heq
  have h := mem_datadogStableLabels hm hfree hkey
  rw [heq] at h
  have hvalue := datadogStableLabels_unique h (mem_datadogStableLabels hm' hfree' hkey)
  exact absurd hvalue (by decide)

/-- Where the schema takes a text, any text will do. -/
theorem textField (name : String) (hname : name = "id" ∨ name = "alert_type") (v : String) :
    ∀ f ∈ datadogSchema, f.name = name → f.type.accepts (.str v) = true := by
  intro f hf heq
  have hall : datadogSchema.all (fun f => (f.name != "id" && f.name != "alert_type") ||
      f.type == .text || f.type == .textOrInt) = true := by decide
  have h := List.all_eq_true.mp hall f hf
  rw [heq] at h
  have ht : f.type = .text ∨ f.type = .textOrInt := by
    rcases hname with rfl | rfl <;> simpa using h
  rcases ht with ht | ht <;> rw [ht] <;> rfl

section Blank

variable (sha256 : String → String) {p : Dict} (hp : Accepts datadogSchema p)
  (hblank : (datadogExplicitKey (canonicalPayload p)).truthy = false)

include hp hblank

/-- The id of the event is a label. -/
theorem hasTwoKeys_of_event_label
    (hfree : (datadogUserLabels (canonicalPayload p)).get "datadog_event_id" = none) :
    HasTwoKeys sha256 p := by
  have hname : canonicalLabelKey "id" = "id" := by decide
  have hid : ∀ v, cleanString (.str v) = some v →
      ("datadog_event_id", some v) ∈ datadogFixedLabels (canonicalPayload (overwrite p "id" v)) := by
    intro v hv
    have hev : datadogEventId (canonicalPayload (overwrite p "id" v)) = some v := by
      rw [datadogEventId, getName_overwrite v hname (by decide), hv]
    rw [datadogFixedLabels, hev]
    exact List.mem_cons_of_mem _ List.mem_cons_self
  have huser : ∀ v, (datadogUserLabels (canonicalPayload (overwrite p "id" v))).get
      "datadog_event_id" = none := by
    intro v
    rw [userLabels_overwrite v hname (by decide), hfree]
  exact hasTwoKeys_of_parts sha256 hp hblank hname (by decide) (by decide)
    (textField "id" (.inl rfl)) (.inr (stableLabels_ne (hid "1" (by decide)) (hid "2" (by decide))
      (huser "1") (huser "2") (by decide)))

/-- The id of the event is the identity of an event without alert id. -/
theorem hasTwoKeys_of_identity (halert : datadogAlertId (canonicalPayload p) = none) :
    HasTwoKeys sha256 p := by
  have hname : canonicalLabelKey "id" = "id" := by decide
  have hidentity : ∀ v, cleanString (.str v) = some v →
      datadogIdentity (canonicalPayload (overwrite p "id" v)) = .str v := by
    intro v hv
    have halert' : datadogAlertId (canonicalPayload (overwrite p "id" v)) = none := by
      rw [← halert, datadogAlertId, datadogAlertId,
        getName_overwrite_of_not_mem v hname (by decide) (by decide)]
    have hev : datadogEventId (canonicalPayload (overwrite p "id" v)) = some v := by
      rw [datadogEventId, getName_overwrite v hname (by decide), hv]
    rw [datadogIdentity, halert', hev]
    rfl
  have hne : datadogIdentity (canonicalPayload (overwrite p "id" "1")) ≠
      datadogIdentity (canonicalPayload (overwrite p "id" "2")) := by
    rw [hidentity "1" (by decide), hidentity "2" (by decide)]
    decide
  exact hasTwoKeys_of_parts sha256 hp hblank hname (by decide) (by decide)
    (textField "id" (.inl rfl)) (.inl hne)

/-- The alert type is a label. -/
theorem hasTwoKeys_of_type_label
    (hfree : (datadogUserLabels (canonicalPayload p)).get "datadog_alert_type" = none) :
    HasTwoKeys sha256 p := by
  -- the type of the alert becomes a label, so it varies the key
  have hname : canonicalLabelKey "alert_type" = "alert_type" := by decide
  have htype : ∀ v, cleanString (.str v) = some v → ("datadog_alert_type", some v) ∈
      datadogFixedLabels (canonicalPayload (overwrite p "alert_type" v)) := by
    intro v hv
    have hat : datadogAlertType (canonicalPayload (overwrite p "alert_type" v)) = some v := by
      rw [datadogAlertType, getName_overwrite v hname (by decide), hv]
    rw [datadogFixedLabels, hat]
    iterate 5 apply List.mem_cons_of_mem
    exact List.mem_cons_self
  have huser : ∀ v, (datadogUserLabels (canonicalPayload (overwrite p "alert_type" v))).get
      "datadog_alert_type" = none := by
    intro v
    rw [userLabels_overwrite v hname (by decide), hfree]
  exact hasTwoKeys_of_parts sha256 hp hblank hname (by decide) (by decide)
    (textField "alert_type" (.inr rfl))
    (.inr (stableLabels_ne (htype "1" (by decide)) (htype "2" (by decide))
      (huser "1") (huser "2") (by decide)))

/-- Without an explicit key two payloads of the alert have two keys. -/
theorem hasTwoKeys_of_blank (hshadow : ¬Shadowed p) : HasTwoKeys sha256 p := by
  by_cases hevent : (datadogUserLabels (canonicalPayload p)).get "datadog_event_id" = none
  · exact hasTwoKeys_of_event_label sha256 hp hblank hevent
  · by_cases htype : (datadogUserLabels (canonicalPayload p)).get "datadog_alert_type" = none
    · exact hasTwoKeys_of_type_label sha256 hp hblank htype
    · apply hasTwoKeys_of_identity sha256 hp hblank
      by_contra halert
      exact hshadow ⟨Option.isSome_iff_ne_none.mpr halert, hevent, htype⟩

end Blank

/-- Without one explicit key two payloads of the alert have two keys. -/
theorem datadog_two_keys (sha256 : String → String) {p : Dict} (hp : Accepts datadogSchema p)
    (hkeyed : ¬DatadogKeyed p) (hshadow : ¬Shadowable p) : HasTwoKeys sha256 p := by
  by_cases hblank : ∃ key, ExplicitKey p key ∧ key.truthy = false
  -- an explicit key that is false: the key is made of the parts, which some field varies
  · obtain ⟨key, hkey, hfalse⟩ := hblank
    obtain ⟨r, hr, hrkey⟩ := hkey.realize
    obtain ⟨q, q', hq, hq', ⟨s, hs, hsq⟩, ⟨s', hs', hsq'⟩, hapart⟩ :=
      hasTwoKeys_of_blank sha256 (hp.reordered hr) (by rw [hrkey, hfalse])
        fun h => hshadow ⟨r, hr, h⟩
    exact ⟨q, q', hq, hq', ⟨s, hr.trans hs, hsq⟩, ⟨s', hr.trans hs', hsq'⟩, hapart⟩
  · -- Two orders of the payload give two explicit keys.
    have htruthy : ∀ key, ExplicitKey p key → key.truthy = true := by
      intro key hkey
      rw [← Bool.not_eq_false]
      exact fun h => hblank ⟨key, hkey, h⟩
    have hown := (SameDatadogAlert.refl p).explicitKey
    obtain ⟨key, hkey, hne⟩ : ∃ key, ExplicitKey p key ∧
        key ≠ datadogExplicitKey (canonicalPayload p) := by
      by_contra hnone
      exact hkeyed ⟨_, htruthy _ hown, fun key hkey =>
        by_contra fun hne => hnone ⟨key, hkey, hne⟩⟩
    obtain ⟨r, hr, hrkey⟩ := hkey.realize
    refine ⟨p, r, hp, hp.reordered hr, SameDatadogAlert.refl p, ⟨r, hr, SameBut.refl _ _⟩, .inl ?_⟩
    rw [normalizeDatadog_dedupKey, normalizeDatadog_dedupKey, datadogDedupKey, datadogDedupKey,
      hrkey, orElse, orElse, if_pos (htruthy _ hown), if_pos (htruthy _ hkey)]
    exact hne.symm

end IncidentRelay.Integrations
