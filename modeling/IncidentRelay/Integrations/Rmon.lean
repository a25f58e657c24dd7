import IncidentRelay.Integrations.Common
import IncidentRelay.Integrations.Payload

/-!
# RMON

`normalize_rmon` and its deduplication key. The key is the fingerprint when the
payload has a usable one, and a digest of identity, title and labels otherwise.
The severity is among the labels and is also what the status is read from when
the payload has no status.

* `rmon_key_of_fingerprint` — with a fingerprint the recovery carries the key;
* `rmon_key_without_fingerprint` — without one some recovery does not.
-/

namespace IncidentRelay.Integrations

open Json

/-! ## The payload -/

/-- `RmonWebhookSchema`. -/
def rmonSchema : List Field :=
  [{ name := "title", type := .text, optional := false },
    { name := "message", type := .text },
    { name := "severity", type := .text },
    { name := "status", type := .text },
    { name := "fingerprint", type := .text },
    { name := "external_id", type := .textOrInt },
    { name := "team", type := .text },
    { name := "labels", type := .object, optional := false },
    { name := "runbook", type := .text },
    { name := "runbook_url", type := .text },
    { name := "event_link", type := .text },
    { name := "rmon_name", type := .text },
    { name := "check_id", type := .textOrInt },
    { name := "multi_check_id", type := .textOrInt },
    { name := "state_id", type := .textOrInt },
    { name := "check_name", type := .text },
    { name := "check_type", type := .text },
    { name := "target", type := .text },
    { name := "agent", type := .text },
    { name := "region", type := .text },
    { name := "country", type := .text }]

/-! ## The normalizer -/

def rmonResolvedStatuses : List String :=
  ["clear", "cleared", "closed", "info", "normal", "ok", "recover", "recovered", "resolved", "up"]

/-- `_clean_identifier(value)`. -/
def cleanIdentifier (value : Json) : Option String :=
  (cleanString value).bind fun text =>
    if lower text ∈ ["none", "null", "none none", "null null"] then none else some text

/-- `_set_label(labels, key, value)`. -/
def setRmonLabel (labels : Dict) (key : String) (value : Json) : Dict :=
  match cleanIdentifier value with
  | some text => labels.setdefault key (.str text)
  | none => labels

/-- `normalize_rmon_status(value)`. -/
def normalizeRmonStatus (value : Json) : String :=
  if lower (textOf value) ∈ rmonResolvedStatuses then "resolved" else "firing"

/-- The severity of the payload, of its labels, or the default. -/
def rmonSeverity (payload : Dict) : Json :=
  firstNonEmpty [payload.getD "severity", (labelsOf payload).getD "severity", .str "warning"]

def rmonFingerprint (payload : Dict) : Option String :=
  cleanIdentifier (payload.getD "fingerprint")

def rmonCheckId (payload : Dict) : Json :=
  firstNonEmpty [payload.getD "multi_check_id", payload.getD "check_id",
    (labelsOf payload).getD "rmon_check_id"]

def rmonCheckName (payload : Dict) : Json :=
  firstNonEmpty [payload.getD "check_name", (labelsOf payload).getD "check_name"]

def rmonTitle (payload : Dict) : Json :=
  firstNonEmpty [payload.getD "title", rmonCheckName payload,
    (labelsOf payload).getD "alertname", .str "RMON alert"]

def rmonExternalId (payload : Dict) : Json :=
  orNone (cleanIdentifier (firstNonEmpty [payload.getD "external_id", rmonCheckId payload,
    orNone (rmonFingerprint payload)]))

/-- The labels of the alert: those of the payload, and what the normalizer adds
under keys they do not have. -/
def rmonLabels (payload : Dict) : Dict :=
  let labels := labelsOf payload
  let rmonName := firstNonEmpty [payload.getD "rmon_name", labels.getD "rmon_name"]
  let checkId := rmonCheckId payload
  let stateId := firstNonEmpty [payload.getD "state_id", labels.getD "rmon_state_id"]
  let checkName := rmonCheckName payload
  let checkType := firstNonEmpty [payload.getD "check_type", labels.getD "check_type"]
  let target := firstNonEmpty [payload.getD "target", labels.getD "target",
    labels.getD "instance"]
  let labels := setRmonLabel labels "alertname" (checkName.orElse (rmonTitle payload))
  let labels := setRmonLabel labels "severity" (rmonSeverity payload)
  let labels := setRmonLabel labels "rmon_name" rmonName
  let labels := setRmonLabel labels "rmon_check_id" checkId
  let labels := setRmonLabel labels "rmon_state_id" stateId
  let labels := setRmonLabel labels "rmon_check_name" checkName
  let labels := setRmonLabel labels "rmon_check_type" checkType
  let labels := setRmonLabel labels "target" target
  let labels := setRmonLabel labels "rmon_agent" (payload.getD "agent")
  let labels := setRmonLabel labels "rmon_region" (payload.getD "region")
  let labels := setRmonLabel labels "rmon_country" (payload.getD "country")
  let labels := addEventLinkLabel labels (firstEventLink [payload.getD "event_link",
    payload.getD "runbook_url", labels.getD "event_link", labels.getD "runbook_url"])
  if (payload.getD "runbook_url").truthy then
    setRmonLabel labels "runbook_url" (payload.getD "runbook_url")
  else labels

def rmonDedupKey (sha256 : String → String) (payload : Dict) : String :=
  match rmonFingerprint payload with
  | some fingerprint => fingerprint
  | none => makeDedupKey sha256 "rmon" (rmonExternalId payload) (rmonTitle payload)
      (rmonLabels payload)

/-- `normalize_rmon(payload)`: the one event of the list. -/
def normalizeRmon (sha256 : String → String) (payload : Dict) : Dict :=
  let labels := rmonLabels payload
  let title := rmonTitle payload
  let message := firstNonEmpty [payload.getD "message", title, .str ""]
  [("source", .str "rmon"),
    ("team_slug", ((payload.getD "team").orElse (labels.getD "team")).orElse
      (labels.getD "oncall_team")),
    ("external_id", rmonExternalId payload),
    ("dedup_key", .str (rmonDedupKey sha256 payload)),
    ("title", title),
    ("message", message.orElse (.str "")),
    ("severity", rmonSeverity payload),
    ("labels", .obj labels),
    ("payload", .obj payload),
    ("status", .str (normalizeRmonStatus ((payload.getD "status").orElse
      (rmonSeverity payload))))]

theorem normalizeRmon_dedupKey (sha256 : String → String) (payload : Dict) :
    (normalizeRmon sha256 payload).getD "dedup_key" = .str (rmonDedupKey sha256 payload) := rfl

/-! ## One alert, two payloads -/

def rmonVaries (key : String) : Bool := key = "status" || key = "severity" || key = "labels"

/-- The payloads differ in the order of keys, in the status, and in the severity
where one of the two statuses is read from it. -/
def SameRmonAlert (p q : Dict) : Prop :=
  ∃ r : Dict, Reordered (.obj p) (.obj r) ∧ SameBut rmonVaries r q ∧
    SameBut (· = "severity") (labelsOf r) (labelsOf q) ∧
    ((p.getD "status").truthy = true → (q.getD "status").truthy = true →
      q.getD "severity" = r.getD "severity" ∧ labelsOf q = labelsOf r)

/-- With a fingerprint the recovery carries the key of the firing. -/
theorem rmon_key_of_fingerprint (sha256 : String → String) {p q : Dict}
    (hp : Accepts rmonSchema p) (hfp : (rmonFingerprint p).isSome)
    (h : SameRmonAlert p q) :
    (normalizeRmon sha256 q).getD "dedup_key" = (normalizeRmon sha256 p).getD "dedup_key" := by
  obtain ⟨r, hr, hq, -, -⟩ := h
  have hget : q.getD "fingerprint" = p.getD "fingerprint" := by
    rw [hq.getD (by decide)]
    exact hp.reordered_text hr (by decide)
  have hsame : rmonFingerprint q = rmonFingerprint p := by
    rw [rmonFingerprint, rmonFingerprint, hget]
  obtain ⟨fp, hfp⟩ := Option.isSome_iff_exists.mp hfp
  rw [normalizeRmon_dedupKey, normalizeRmon_dedupKey, rmonDedupKey, rmonDedupKey, hsame, hfp]

/-! ## The severity label -/

/-- A label is set under its own key. -/
theorem get_setRmonLabel_of_ne (labels : Dict) {key other : String} (value : Json)
    (h : other ≠ key) : (setRmonLabel labels key value).get other = labels.get other := by
  unfold setRmonLabel
  split
  · exact get_setdefault_of_ne _ _ h
  · rfl

/-- A severity that cleans to itself is the label, unless the payload labels its own. -/
theorem get_rmonLabels_severity (payload : Dict) :
    (rmonLabels payload).get "severity" =
      (setRmonLabel (labelsOf payload) "severity" (rmonSeverity payload)).get "severity" := by
  have hset : ∀ (labels labels' : Dict) (value : Json),
      labels.get "severity" = labels'.get "severity" →
      (setRmonLabel labels "severity" value).get "severity" =
        (setRmonLabel labels' "severity" value).get "severity" := by
    intro labels labels' value h
    unfold setRmonLabel
    split
    · rw [get_setdefault_self, get_setdefault_self, h]
    · exact h
  unfold rmonLabels
  dsimp only
  split
  all_goals
    simp only [ne_eq, String.reduceEq, not_false_eq_true, get_setRmonLabel_of_ne,
      get_addEventLinkLabel_of_ne]
    exact hset _ _ _ (get_setRmonLabel_of_ne _ _ (by decide))

/-! ## A recovery with another key -/

/-- The labels with the severity written over, where they have one. -/
def relabel (labels : Dict) (severity : String) : Dict :=
  if labels.has "severity" then labels.set "severity" (.str severity) else labels

/-- The recovery whose status is read from its severity. -/
def rmonVariant (p : Dict) (severity : String) : Dict :=
  ((p.set "status" .null).set "severity" (.str severity)).set "labels"
    (.obj (relabel (labelsOf p) severity))

section Variant

variable (p : Dict) (s : String)

theorem labelsOf_rmonVariant : labelsOf (rmonVariant p s) = relabel (labelsOf p) s := by
  unfold labelsOf rmonVariant Dict.getD
  rw [Dict.get_set_self]
  rfl

theorem getD_rmonVariant_severity : (rmonVariant p s).getD "severity" = .str s := by
  unfold rmonVariant Dict.getD
  rw [Dict.get_set_of_ne _ _ (by decide), Dict.get_set_self]
  rfl

theorem rmonFingerprint_rmonVariant : rmonFingerprint (rmonVariant p s) = rmonFingerprint p := by
  unfold rmonFingerprint rmonVariant Dict.getD
  rw [Dict.get_set_of_ne _ _ (by decide), Dict.get_set_of_ne _ _ (by decide),
    Dict.get_set_of_ne _ _ (by decide)]

/-- The variant is the same alert: its status is read from its severity. -/
theorem sameRmonAlert_rmonVariant : SameRmonAlert p (rmonVariant p s) := by
  refine ⟨p, .refl _, ?_, ?_, ?_⟩
  · exact ((sameBut_set p _ (by decide)).trans (sameBut_set _ _ (by decide))).trans
      (sameBut_set _ _ (by decide))
  · rw [labelsOf_rmonVariant, relabel]
    split
    · exact sameBut_set _ _ (by decide)
    · exact SameBut.refl _ _
  · intro _ hstatus
    have hnull : (rmonVariant p s).getD "status" = .null := by
      unfold rmonVariant Dict.getD
      rw [Dict.get_set_of_ne _ _ (by decide), Dict.get_set_of_ne _ _ (by decide),
        Dict.get_set_self]
      rfl
    rw [hnull] at hstatus
    cases hstatus

variable {p s}

/-- The schema accepts it too. -/
theorem accepts_rmonVariant (hp : Accepts rmonSchema p) : Accepts rmonSchema (rmonVariant p s) := by
  have hlabels : distinct (.obj (relabel (labelsOf p) s)) = true := by
    have hd : distinct (.obj (labelsOf p)) = true := distinct_asDict hp.1 "labels"
    unfold relabel
    split
    · exact distinct_set hd _ rfl
    · exact hd
  unfold rmonVariant
  refine ((hp.set rfl ?_).set rfl ?_).set hlabels ?_
  all_goals
    intro f hf hname
    simp only [rmonSchema, List.mem_cons, List.not_mem_nil, or_false] at hf
    rcases hf with rfl | rfl | rfl | rfl | rfl | rfl | rfl | rfl | rfl | rfl | rfl | rfl | rfl |
      rfl | rfl | rfl | rfl | rfl | rfl | rfl | rfl <;> first | rfl | simp at hname

/-- A severity that is no placeholder is the label of the variant. -/
theorem get_rmonLabels_rmonVariant (hs : cleanIdentifier (.str s) = some s) (hstrip : strip s = s)
    (hne : s ≠ "") : (rmonLabels (rmonVariant p s)).get "severity" = some (.str s) := by
  have hsev : rmonSeverity (rmonVariant p s) = .str s := by
    unfold rmonSeverity
    rw [getD_rmonVariant_severity]
    simp [firstNonEmpty, hstrip, truthy, hne]
  rw [get_rmonLabels_severity, hsev, labelsOf_rmonVariant, setRmonLabel, hs]
  dsimp only
  rw [get_setdefault_self, relabel, has_eq_isSome]
  cases hget : (labelsOf p).get "severity" with
  | some v => simp
  | none => simp [hget]

end Variant

/-- Without a fingerprint some recovery has another key: the severity, which the
status is read from, is one of the labels. -/
theorem rmon_key_without_fingerprint (sha256 : String → String) {p : Dict}
    (hp : Accepts rmonSchema p) (hfp : rmonFingerprint p = none) :
    ∃ q, Accepts rmonSchema q ∧ SameRmonAlert p q ∧
      Apart sha256 ((normalizeRmon sha256 p).getD "dedup_key")
        ((normalizeRmon sha256 q).getD "dedup_key") := by
  -- Of two severities at least one is not the label the payload already has.
  have hdiff : ∃ s, cleanIdentifier (.str s) = some s ∧ strip s = s ∧ s ≠ "" ∧
      (rmonLabels p).get "severity" ≠ some (.str s) := by
    by_cases h : (rmonLabels p).get "severity" = some (.str "up")
    · refine ⟨"ok", by decide, by decide, by decide, ?_⟩
      rw [h]
      decide
    · exact ⟨"up", by decide, by decide, by decide, h⟩
  obtain ⟨s, hclean, hstrip, hne, hlabel⟩ := hdiff
  refine ⟨rmonVariant p s, accepts_rmonVariant hp, sameRmonAlert_rmonVariant p s, ?_⟩
  rw [normalizeRmon_dedupKey, normalizeRmon_dedupKey, rmonDedupKey, rmonDedupKey,
    rmonFingerprint_rmonVariant, hfp]
  apply makeDedupKey_apart
  refine .inr (.inr ?_)
  intro hlabels
  rw [hlabels, get_rmonLabels_rmonVariant hclean hstrip hne] at hlabel
  exact hlabel rfl

end IncidentRelay.Integrations
