import IncidentRelay.Integrations.Common

/-!
# Generic webhooks

`normalize_webhook` on its two formats, the generic one and PagerDuty Events API
v2. The generic key is the fingerprint, or a digest that covers the labels in
the order of the payload. The key of a PagerDuty event is its `dedup_key`, which
the schema asks of every event that is no trigger.

* `generic_key_of_keyed`, `generic_key_without` — the generic recovery carries the
  key exactly when there is a fingerprint or the labels have one order only;
* `pagerduty_key_of_keyed` — the PagerDuty recovery carries the key.
-/

namespace IncidentRelay.Integrations

open Json

/-! ## The payload -/

/-- `GenericWebhookSchema`. -/
def webhookSchema : List Field :=
  [{ name := "title", type := .text },
    { name := "message", type := .text },
    { name := "severity", type := .text },
    { name := "status", type := .text },
    { name := "team", type := .text },
    { name := "labels", type := .object, optional := false },
    { name := "fingerprint", type := .text },
    { name := "external_id", type := .text },
    { name := "event_link", type := .text },
    { name := "event_url", type := .text },
    { name := "alert_url", type := .text },
    { name := "source_url", type := .text },
    { name := "dashboard_url", type := .text },
    { name := "runbook_url", type := .text },
    { name := "routing_key", type := .text },
    { name := "event_action", type := .text },
    { name := "dedup_key", type := .text },
    { name := "payload", type := .object },
    { name := "links", type := .objects, optional := false },
    { name := "images", type := .objects, optional := false },
    { name := "client", type := .text },
    { name := "client_url", type := .text }]

def pagerdutyEventActions : List String := ["trigger", "acknowledge", "resolve"]

/-- `str(payload.get("event_action") or "").strip().lower()`. -/
def eventAction (payload : Dict) : String := lower (textOf (payload.getD "event_action"))

/-- `payload.get("payload") or {}`, and `{}` for what is no object. -/
def eventPayloadOf (payload : Dict) : Dict := (payload.getD "payload").asDict

/-- `validate_supported_format`. -/
def supportedFormat (payload : Dict) : Bool :=
  let action := eventAction payload
  if action ≠ "" then
    pagerdutyEventActions.contains action && textOf (payload.getD "routing_key") != "" &&
      (if action = "acknowledge" ∨ action = "resolve" then textOf (payload.getD "dedup_key") != ""
      else
        let eventPayload := eventPayloadOf payload
        ["summary", "source", "severity"].all (fun key => textOf (eventPayload.getD key) != "") &&
          ["critical", "error", "warning", "info"].contains
            (lower (textOf (eventPayload.getD "severity"))))
  else textOf (payload.getD "title") != ""

/-! ## PagerDuty Events API v2 -/

/-- `is_pagerduty_events_v2(payload)`. -/
def isPagerdutyEventsV2 (payload : Dict) : Bool :=
  pagerdutyEventActions.contains (eventAction payload)

/-- `_sanitized_payload(payload)`. -/
def sanitizedPayload (payload : Dict) : Dict :=
  if (payload.getD "routing_key").truthy then payload.set "routing_key" (.str "[REDACTED]")
  else payload

/-- `labels.setdefault(key, value)` of a value that is given. -/
def setGiven (labels : Dict) (key : String) (value : Option String) : Dict :=
  match value with
  | some text => labels.setdefault key (.str text)
  | none => labels

/-- One custom detail as a label. -/
def addDetail (labels : Dict) (detail : String × Json) : Dict :=
  match cleanString (.str detail.1) with
  | none => labels
  | some key =>
    if labels.has key then labels
    else match normalizeLabelValue detail.2 with
      | .null => labels
      | value => labels.set key value

def customDetailsOf (eventPayload : Dict) : Dict := (eventPayload.getD "custom_details").asDict

/-- The four fields of the event payload that are labels. -/
def addEventFields (labels eventPayload : Dict) : Dict :=
  let labels := setGiven labels "source" (cleanString (eventPayload.getD "source"))
  let labels := setGiven labels "component" (cleanString (eventPayload.getD "component"))
  let labels := setGiven labels "group" (cleanString (eventPayload.getD "group"))
  setGiven labels "class" (cleanString (eventPayload.getD "class"))

/-- `_pagerduty_labels(payload, event_payload, action)`. -/
def pagerdutyLabels (payload eventPayload : Dict) (action : String) : Dict :=
  let labels := labelsOf payload
  let labels := labels.setdefault "pagerduty_event_action" (.str action)
  let labels := labels.setdefault "pagerduty_format" (.str "events_api_v2")
  let labels := addEventFields labels eventPayload
  let labels := (customDetailsOf eventPayload).foldl addDetail labels
  setGiven labels "pagerduty_client" (cleanString (payload.getD "client"))

/-- The address of a link that is an object. -/
def linkHref (item : Json) : Option Json :=
  match item with
  | .obj fields => some (Dict.getD fields "href")
  | _ => none

/-- `_pagerduty_event_link(payload)`. -/
def pagerdutyEventLink (payload : Dict) : Option String :=
  let links := match payload.getD "links" with
    | .list items => items
    | _ => []
  firstEventLink (links.filterMap linkHref ++ [payload.getD "client_url"])

def pagerdutyDedupGiven (payload : Dict) : Option String :=
  cleanString (payload.getD "dedup_key")

def pagerdutyTitle (payload : Dict) : String :=
  takeText (match cleanString ((eventPayloadOf payload).getD "summary") with
    | some summary => summary
    | none => match pagerdutyDedupGiven payload with
      | some key => "PagerDuty event " ++ key
      | none => "PagerDuty webhook event") 255

/-- The labels of the event, its link included. -/
def pagerdutyEventLabels (payload : Dict) : Dict :=
  addEventLinkLabel (pagerdutyLabels payload (eventPayloadOf payload) (eventAction payload))
    (pagerdutyEventLink payload)

/-- The labels that the fallback key covers. -/
def pagerdutyKeyLabels (labels : Dict) : Dict :=
  [("component", labels.getD "component"), ("group", labels.getD "group"),
    ("class", labels.getD "class")]

def pagerdutyDedupKey (sha256 : String → String) (payload : Dict) : String :=
  match pagerdutyDedupGiven payload with
  | some key => key
  | none => makeDedupKey sha256 "webhook"
      (orNone (cleanString ((eventPayloadOf payload).getD "source")))
      (.str (pagerdutyTitle payload)) (pagerdutyKeyLabels (pagerdutyEventLabels payload))

/-- The status of an action. -/
def pagerdutyStatus (action : String) : String :=
  if action = "trigger" then "firing"
  else if action = "acknowledge" then "acknowledged"
  else "resolved"

/-- `_normalize_pagerduty_events_v2(payload)`. -/
def normalizePagerdutyEventsV2 (sha256 : String → String) (payload : Dict) : Dict :=
  let action := eventAction payload
  let eventPayload := eventPayloadOf payload
  let labels := pagerdutyEventLabels payload
  let customDetails := customDetailsOf eventPayload
  let message := firstNonEmpty [eventPayload.getD "message", eventPayload.getD "description",
    customDetails.getD "message", customDetails.getD "description", customDetails.getD "details"]
  let severity := normalizeSeverity (eventPayload.getD "severity")
  [("source", .str "webhook"),
    ("team_slug", firstNonEmpty [payload.getD "team", labels.getD "team",
      labels.getD "oncall_team", customDetails.getD "team", customDetails.getD "oncall_team"]),
    ("external_id", .str (pagerdutyDedupKey sha256 payload)),
    ("dedup_key", .str (pagerdutyDedupKey sha256 payload)),
    ("title", .str (pagerdutyTitle payload)),
    ("message", .str (pyStr (message.orElse (.str "")))),
    ("severity", .str (if severity = "" then "info" else severity)),
    ("labels", .obj labels),
    ("payload", .obj (sanitizedPayload payload)),
    ("status", .str (pagerdutyStatus action)),
    ("lifecycle_action", .str action),
    ("integration_format", .str "pagerduty_events_api_v2")]

/-! ## The generic format -/

def genericTitle (payload : Dict) : Json := (payload.getD "title").orElse (.str "Webhook alert")

def genericEventLink (payload : Dict) : Option String :=
  let keys := ["event_link", "event_url", "alert_url", "source_url", "dashboard_url", "runbook_url"]
  firstEventLink (keys.map payload.getD ++ keys.map (labelsOf payload).getD)

def genericLabels (payload : Dict) : Dict :=
  addEventLinkLabel (labelsOf payload) (genericEventLink payload)

def genericDedupKey (sha256 : String → String) (payload : Dict) : Json :=
  (payload.getD "fingerprint").orElse (.str (makeDedupKey sha256 "webhook"
    (payload.getD "external_id") (genericTitle payload) (genericLabels payload)))

/-- `normalize_webhook(payload)`: the one event of the list. -/
def normalizeWebhook (sha256 : String → String) (payload : Dict) : Dict :=
  if isPagerdutyEventsV2 payload then normalizePagerdutyEventsV2 sha256 payload
  else
    let labels := genericLabels payload
    let severity := normalizeSeverity (payload.getD "severity")
    [("source", .str "webhook"),
      ("team_slug", ((payload.getD "team").orElse (labels.getD "team")).orElse
        (labels.getD "oncall_team")),
      ("external_id", payload.getD "external_id"),
      ("dedup_key", genericDedupKey sha256 payload),
      ("title", genericTitle payload),
      ("message", (payload.getD "message").orElse (.str "")),
      ("severity", .str (if severity = "" then "info" else severity)),
      ("labels", .obj labels),
      ("payload", .obj (sanitizedPayload payload)),
      ("status", (payload.getD "status").orElse (.str "firing"))]

/-- The key depends on the format of the payload. -/
theorem normalizeWebhook_dedupKey (sha256 : String → String) (payload : Dict) :
    (normalizeWebhook sha256 payload).getD "dedup_key" =
      if isPagerdutyEventsV2 payload then .str (pagerdutyDedupKey sha256 payload)
      else genericDedupKey sha256 payload := by
  unfold normalizeWebhook
  split <;> rfl

/-! ## One alert, two payloads -/

/-- A payload that the schema takes. -/
def AcceptsWebhook (p : Dict) : Prop := Accepts webhookSchema p ∧ supportedFormat p = true

/-- The field that the status is read from. -/
def webhookVaries (pagerduty : Bool) (key : String) : Bool :=
  if pagerduty then key = "event_action" else key = "status"

/-- The payloads are of one format and differ in the order of keys and in the
field that the status is read from. -/
def SameWebhookAlert (p q : Dict) : Prop :=
  isPagerdutyEventsV2 q = isPagerdutyEventsV2 p ∧
    ∃ r : Dict, Reordered (.obj p) (.obj r) ∧ SameBut (webhookVaries (isPagerdutyEventsV2 p)) r q

section SameAlert

variable {p q : Dict}

/-- A text that is no varying field is read as it was. -/
theorem SameWebhookAlert.text (hp : Accepts webhookSchema p) (h : SameWebhookAlert p q)
    {key : String} (hkey : textual webhookSchema key = true)
    (hvaries : webhookVaries (isPagerdutyEventsV2 p) key = false) :
    q.getD key = p.getD key := by
  obtain ⟨-, r, hr, hq⟩ := h
  rw [hq.getD hvaries]
  exact hp.reordered_text hr hkey

/-- The object under a key that does not vary is a reordering of what it was. -/
theorem SameWebhookAlert.object (hp : Accepts webhookSchema p) (h : SameWebhookAlert p q)
    {key : String} (hvaries : webhookVaries (isPagerdutyEventsV2 p) key = false) :
    Reordered (.obj (p.getD key).asDict) (.obj (q.getD key).asDict) := by
  obtain ⟨-, r, hr, hq⟩ := h
  rw [hq.getD hvaries]
  exact reordered_asDict (nodup_of_distinct hp.1) hr key

end SameAlert

/-! ## The generic key -/

/-- A fingerprint, or labels in one order only. -/
def GenericKeyed (p : Dict) : Prop :=
  (p.getD "fingerprint").truthy = true ∨ rigid (.obj (labelsOf p)) = true

/-- The recovery carries the key of the firing. -/
theorem generic_key_of_keyed (sha256 : String → String) {p q : Dict} (hp : AcceptsWebhook p)
    (hformat : isPagerdutyEventsV2 p = false) (hkeyed : GenericKeyed p)
    (h : SameWebhookAlert p q) :
    (normalizeWebhook sha256 q).getD "dedup_key" = (normalizeWebhook sha256 p).getD "dedup_key" := by
  have htext : ∀ key, textual webhookSchema key = true → key ≠ "status" →
      q.getD key = p.getD key := by
    intro key hkey hne
    exact h.text hp.1 hkey (by rw [hformat]; simp [webhookVaries, hne])
  rw [normalizeWebhook_dedupKey, normalizeWebhook_dedupKey, h.1, hformat, if_neg Bool.false_ne_true,
    if_neg Bool.false_ne_true, genericDedupKey, genericDedupKey,
    htext "fingerprint" (by decide) (by decide)]
  -- the given fingerprint is read in both, or labels of one order are the same
  rcases hkeyed with hfp | hrigid
  · rw [orElse, orElse, if_pos hfp, if_pos hfp]
  · have hlabels : labelsOf q = labelsOf p := by
      have hr : Reordered (.obj (labelsOf p)) (.obj (labelsOf q)) :=
        h.object hp.1 (by rw [hformat]; rfl)
      exact Json.obj.inj (hr.eq_of_rigid hrigid)
    have hlink : genericEventLink q = genericEventLink p := by
      simp only [genericEventLink, List.map_cons, List.map_nil, hlabels,
        htext "event_link" (by decide) (by decide), htext "event_url" (by decide) (by decide),
        htext "alert_url" (by decide) (by decide), htext "source_url" (by decide) (by decide),
        htext "dashboard_url" (by decide) (by decide), htext "runbook_url" (by decide) (by decide)]
    have htitle : genericTitle q = genericTitle p := by
      rw [genericTitle, genericTitle, htext "title" (by decide) (by decide)]
    rw [genericLabels, genericLabels, hlabels, hlink, htitle,
      htext "external_id" (by decide) (by decide)]

/-- Without a fingerprint and with labels in more than one order, the same alert
in another order has another key. -/
theorem generic_key_without (sha256 : String → String) {p : Dict} (hp : AcceptsWebhook p)
    (hformat : isPagerdutyEventsV2 p = false) (hkeyed : ¬GenericKeyed p) :
    ∃ q, AcceptsWebhook q ∧ SameWebhookAlert p q ∧
      Apart sha256 ((normalizeWebhook sha256 p).getD "dedup_key")
        ((normalizeWebhook sha256 q).getD "dedup_key") := by
  have hfp : (p.getD "fingerprint").truthy = false := by
    rw [← Bool.not_eq_true]
    exact fun hfp => hkeyed (.inl hfp)
  have hrigid : rigid (.obj (labelsOf p)) = false := by
    rw [← Bool.not_eq_true]
    exact fun hr => hkeyed (.inr hr)
  have hlabels : p.get "labels" = some (.obj (labelsOf p)) := by
    unfold labelsOf Dict.getD at hrigid ⊢
    cases hget : p.get "labels" with
    | none => rw [hget] at hrigid; cases hrigid
    | some v =>
      rw [hget] at hrigid
      cases v with
      | obj kvs => rfl
      | _ => cases hrigid
  -- labels with two orders give a second payload of the same alert
  obtain ⟨w, hvw, hne⟩ := exists_reordered_ne _ (distinct_of_get hp.1.1 hlabels) hrigid
  obtain ⟨labels, rfl, hperm, -⟩ := hvw.obj_inv
  have hget : ∀ key, key ≠ "labels" → (p.set "labels" (.obj labels)).getD key = p.getD key := by
    intro key hkey
    rw [Dict.getD, Dict.getD, Dict.get_set_of_ne _ _ hkey]
  have hq : isPagerdutyEventsV2 (p.set "labels" (.obj labels)) = false := by
    rw [← hformat, isPagerdutyEventsV2, isPagerdutyEventsV2, eventAction, eventAction,
      hget "event_action" (by decide)]
  have hlabelsq : labelsOf (p.set "labels" (.obj labels)) = labels := by
    rw [labelsOf, Dict.getD, Dict.get_set_self]
    rfl
  refine ⟨p.set "labels" (.obj labels), ⟨?_, ?_⟩, ⟨by rw [hq, hformat], _,
    reordered_set hlabels hvw, SameBut.refl _ _⟩, ?_⟩
  · refine hp.1.set (distinct_reordered hvw (distinct_of_get hp.1.1 hlabels)) ?_
    intro f hf hname
    simp only [webhookSchema, List.mem_cons, List.not_mem_nil, or_false] at hf
    rcases hf with rfl | rfl | rfl | rfl | rfl | rfl | rfl | rfl | rfl | rfl | rfl | rfl | rfl |
      rfl | rfl | rfl | rfl | rfl | rfl | rfl | rfl | rfl <;> first | rfl | simp at hname
  · have hsupported := hp.2
    unfold supportedFormat eventAction eventPayloadOf at hsupported ⊢
    rwa [hget "event_action" (by decide), hget "routing_key" (by decide),
      hget "dedup_key" (by decide), hget "payload" (by decide), hget "title" (by decide)]
  · rw [normalizeWebhook_dedupKey, normalizeWebhook_dedupKey, hq, hformat,
      if_neg Bool.false_ne_true, if_neg Bool.false_ne_true, genericDedupKey, genericDedupKey,
      hget "fingerprint" (by decide), orElse, orElse, hfp, if_neg Bool.false_ne_true,
      if_neg Bool.false_ne_true]
    apply makeDedupKey_apart
    -- its key differs, as the labels go into the digest in their order
    refine .inr (.inr ?_)
    intro heq
    rw [genericLabels, genericLabels, hlabelsq] at heq
    have hsame : labelsOf p = labels := by
      refine addEventLinkLabel_inj ?_ ?_ heq
      · rw [get_eq_none_iff, get_eq_none_iff, hperm.mem_iff]
      · simpa using hperm.length_eq
    exact hne (by rw [hsame])

/-! ## The PagerDuty key -/

/-- The labels that the fallback key of an event without `dedup_key` covers. -/
def pagerdutyKeyNames : List String := ["component", "group", "class"]

/-- The fallback key reads texts: no object in another order, and no custom detail
under the name of a label that it covers. -/
def PagerdutyPlain (p : Dict) : Prop :=
  (∀ key ∈ "summary" :: "source" :: pagerdutyKeyNames,
    rigid ((eventPayloadOf p).getD key) = true) ∧
  (∀ key ∈ pagerdutyKeyNames, rigid ((labelsOf p).getD key) = true) ∧
  ∀ detail ∈ (customDetailsOf (eventPayloadOf p)).map Prod.fst,
    ∀ key ∈ pagerdutyKeyNames, cleanString (.str detail) ≠ some key

def PagerdutyKeyed (p : Dict) : Prop := (pagerdutyDedupGiven p).isSome = true ∨ PagerdutyPlain p

/-- A label that is given is set under its own key. -/
theorem get_setGiven_of_ne (labels : Dict) {key other : String} (value : Option String)
    (h : other ≠ key) : (setGiven labels key value).get other = labels.get other := by
  unfold setGiven
  split
  · exact get_setdefault_of_ne _ _ h
  · rfl

theorem get_setGiven_self (labels : Dict) (key : String) (value : Option String) :
    (setGiven labels key value).get key =
      (labels.get key).or (value.map fun text => Json.str text) := by
  unfold setGiven
  split
  · rw [get_setdefault_self]
    cases labels.get key <;> rfl
  · cases labels.get key <;> rfl

/-- A custom detail of another name leaves a label alone. -/
theorem get_foldl_addDetail (details : Dict) {key : String}
    (h : ∀ detail ∈ details.map Prod.fst, cleanString (.str detail) ≠ some key) (labels : Dict) :
    (details.foldl addDetail labels).get key = labels.get key := by
  induction details generalizing labels with
  | nil => rfl
  | cons detail details ih =>
    rw [List.foldl_cons, ih (fun d hd => h d (by simp [hd])) _]
    have hne := h detail.1 (by simp)
    unfold addDetail
    split
    · rfl
    · rename_i name hname
      have hkey : key ≠ name := fun heq => hne (by rw [hname, heq])
      split
      · rfl
      · split
        · rfl
        · exact Dict.get_set_of_ne _ _ hkey

/-- A covered label is the one of the payload, or the text of the event payload. -/
theorem get_pagerdutyEventLabels {p : Dict} (hp : PagerdutyPlain p) {key : String}
    (hkey : key ∈ pagerdutyKeyNames) :
    (pagerdutyEventLabels p).get key = ((labelsOf p).get key).or
      ((cleanString ((eventPayloadOf p).getD key)).map fun text => Json.str text) := by
  have hfold := get_foldl_addDetail _ (fun detail hd => hp.2.2 detail hd key hkey)
  unfold pagerdutyEventLabels pagerdutyLabels
  simp only [pagerdutyKeyNames, List.mem_cons, List.not_mem_nil, or_false] at hkey
  rcases hkey with rfl | rfl | rfl
  all_goals
    rw [get_addEventLinkLabel_of_ne _ _ (by decide)]
    simp only [get_setGiven_of_ne, hfold, addEventFields, ne_eq, String.reduceEq,
      not_false_eq_true, get_setGiven_self, get_setdefault_of_ne]

/-- The recovery carries the key of the firing. -/
theorem pagerduty_key_of_keyed (sha256 : String → String) {p q : Dict} (hp : AcceptsWebhook p)
    (hformat : isPagerdutyEventsV2 p = true) (hkeyed : PagerdutyKeyed p)
    (h : SameWebhookAlert p q) :
    (normalizeWebhook sha256 q).getD "dedup_key" = (normalizeWebhook sha256 p).getD "dedup_key" := by
  have hfield : q.getD "dedup_key" = p.getD "dedup_key" :=
    h.text hp.1 (by decide) (by rw [hformat]; rfl)
  have hgiven : pagerdutyDedupGiven q = pagerdutyDedupGiven p := by
    rw [pagerdutyDedupGiven, pagerdutyDedupGiven, hfield]
  rw [normalizeWebhook_dedupKey, normalizeWebhook_dedupKey, h.1, hformat, if_pos rfl, if_pos rfl,
    pagerdutyDedupKey, pagerdutyDedupKey, hgiven]
  cases hkey : pagerdutyDedupGiven p with
  | some key => rfl
  | none =>
    have hplain : PagerdutyPlain p := by
      rcases hkeyed with hsome | hplain
      · rw [hkey] at hsome
        cases hsome
      · exact hplain
    -- The objects that the fallback reads are those of `p` in another order.
    have hep : Reordered (.obj (eventPayloadOf p)) (.obj (eventPayloadOf q)) :=
      h.object hp.1 (by rw [hformat]; rfl)
    have hlabels : Reordered (.obj (labelsOf p)) (.obj (labelsOf q)) :=
      h.object hp.1 (by rw [hformat]; rfl)
    have hepnd := nodup_of_distinct (distinct_asDict hp.1.1 "payload")
    have hlabelsnd := nodup_of_distinct (distinct_asDict hp.1.1 "labels")
    have hfield : ∀ key ∈ "summary" :: "source" :: pagerdutyKeyNames,
        (eventPayloadOf q).getD key = (eventPayloadOf p).getD key :=
      fun key hm => reordered_get_rigid hepnd hep (hplain.1 key hm)
    have hlabel : ∀ key ∈ pagerdutyKeyNames, (labelsOf q).get key = (labelsOf p).get key := by
      intro key hm
      have hrigid := hplain.2.1 key hm
      cases hget : (labelsOf p).get key with
      | none => exact reordered_get_none hlabels hget
      | some v =>
        rw [Dict.getD, hget] at hrigid
        obtain ⟨w, hw, hvw⟩ := reordered_get hlabelsnd hlabels hget
        rw [hw, hvw.eq_of_rigid hrigid]
    have hplainq : PagerdutyPlain q := by
      refine ⟨?_, ?_, ?_⟩
      · intro key hm
        rw [hfield key hm]
        exact hplain.1 key hm
      · intro key hm
        rw [Dict.getD, hlabel key hm]
        exact hplain.2.1 key hm
      · intro detail hd
        have hdetails := reordered_asDict hepnd hep "custom_details"
        exact hplain.2.2 detail ((reordered_keys hdetails).mem_iff.mpr hd)
    have hcovered : ∀ key ∈ pagerdutyKeyNames,
        (pagerdutyEventLabels q).getD key = (pagerdutyEventLabels p).getD key := by
      intro key hm
      rw [Dict.getD, Dict.getD, get_pagerdutyEventLabels hplainq hm,
        get_pagerdutyEventLabels hplain hm, hlabel key hm, hfield key (by simp [hm])]
    have htitle : pagerdutyTitle q = pagerdutyTitle p := by
      rw [pagerdutyTitle, pagerdutyTitle, hgiven, hfield "summary" (by simp)]
    rw [htitle, hfield "source" (by simp), pagerdutyKeyLabels, pagerdutyKeyLabels,
      hcovered "component" (by decide), hcovered "group" (by decide), hcovered "class" (by decide)]

end IncidentRelay.Integrations
