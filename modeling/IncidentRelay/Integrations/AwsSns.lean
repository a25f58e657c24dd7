import IncidentRelay.Integrations.Common
import IncidentRelay.Integrations.Payload

/-!
# AWS SNS and CloudWatch alarms

`normalize_aws_sns` on an SNS envelope. `loads` stands for `json.loads`: `none`
where it raises, and the envelope's message is then the text itself. The key of a
CloudWatch alarm is the alarm's ARN; without one it is a digest of labels, and
the first label after the topic is the id of the message.

* `cloudwatch_key_of_arn` — with an ARN the recovery carries the key;
* `cloudwatch_key_without_arn` — without one some recovery does not, nor with an
  ARN that is an object in another order.
-/

namespace IncidentRelay.Integrations

open Json

/-! ## The envelope -/

/-- `AwsSnsEnvelopeSchema`, by alias. -/
def awsSnsSchema : List Field :=
  [{ name := "Type", type := .text, optional := false },
    { name := "MessageId", type := .text, optional := false },
    { name := "TopicArn", type := .text, optional := false },
    { name := "Message", type := .text, optional := false },
    { name := "Timestamp", type := .text, optional := false },
    { name := "SignatureVersion", type := .text, optional := false },
    { name := "Signature", type := .text, optional := false },
    { name := "SigningCertURL", type := .text, optional := false },
    { name := "Subject", type := .text },
    { name := "Token", type := .text },
    { name := "SubscribeURL", type := .text },
    { name := "UnsubscribeURL", type := .text },
    { name := "MessageAttributes", type := .object, optional := false }]

/-! ## Labels -/

/-- `_label_key(value)`. -/
def labelKey (value : Json) : String :=
  String.ofList (trimBy (· == '_')
    (replaceRuns (fun c => isWordChar c || c == '_') false (lower (textOf value)).toList))

/-- `_set_label(labels, key, value)`. -/
def setAwsLabel (labels : Dict) (key : String) (value : Json) : Dict :=
  let key := labelKey (.str key)
  match cleanString value with
  | some text => if key = "" then labels else labels.setdefault key (.str text)
  | none => labels

def attributesOf (envelope : Dict) : Dict := (envelope.getD "MessageAttributes").asDict

/-- The value of an attribute that is an object. -/
def attributeText (item : Dict) : Json :=
  firstNonEmpty [item.getD "Value", item.getD "StringValue"]

/-- The name of an attribute in any case. -/
def sameName (name : String) (attr : String × Json) : Bool := lower attr.1 == lower name

/-- `_message_attribute_value(envelope, name)`. -/
def messageAttributeValue (envelope : Dict) (name : String) : Json :=
  let attributes := attributesOf envelope
  let item := match attributes.getD name with
    | .null => ((attributes.find? (sameName name)).map Prod.snd).getD .null
    | item => item
  match item with
  | .obj fields => attributeText fields
  | item => orNone (cleanString item)

/-- One attribute as a label. -/
def setAttribute (labels : Dict) (attr : String × Json) : Dict :=
  setAwsLabel labels attr.1 (match attr.2 with
    | .obj fields => attributeText fields
    | item => item)

/-- `_sns_labels(envelope)`. -/
def snsLabels (envelope : Dict) : Dict :=
  let labels := setAwsLabel [] "sns_topic_arn" (envelope.getD "TopicArn")
  let labels := setAwsLabel labels "sns_message_id" (envelope.getD "MessageId")
  (attributesOf envelope).foldl setAttribute labels

/-! ## CloudWatch alarms -/

def cloudwatchResolvedStates : List String := ["OK"]

/-- `_cloudwatch_status(state)`. -/
def cloudwatchStatus (state : Json) : String :=
  if upper (textOf state) ∈ cloudwatchResolvedStates then "resolved" else "firing"

/-- `_cloudwatch_severity(state, envelope)`. -/
def cloudwatchSeverity (state : Json) (envelope : Dict) : Json :=
  let configured := firstNonEmpty [messageAttributeValue envelope "severity"]
  if configured.truthy then configured
  else
    let state := upper (textOf state)
    if state = "ALARM" then .str "critical"
    else if state = "INSUFFICIENT_DATA" then .str "warning"
    else .str "info"

/-- What a loop over `value or []` goes through: the items of a list; the characters of a text
and the keys of an object are no objects, and the loop over the dimensions skips them. -/
def asItems : Json → List Json
  | .list xs => xs
  | _ => []

/-- The loop raises no `TypeError`: a number and `true` cannot be gone through. -/
def iterable : Json → Bool
  | .list _ | .str _ | .obj _ => true
  | value => !value.truthy

/-- One dimension of the trigger. -/
def setDimension (labels : Dict) : Json → Dict
  | .obj dimension =>
    let name := labelKey (Dict.getD dimension "name")
    if name = "" then labels
    else setAwsLabel labels ("dimension_" ++ name) (Dict.getD dimension "value")
  | _ => labels

/-- The labels of the trigger. -/
def setTrigger (labels trigger : Dict) : Dict :=
  let labels := setAwsLabel labels "cloudwatch_metric_name" (trigger.getD "MetricName")
  let labels := setAwsLabel labels "cloudwatch_namespace" (trigger.getD "Namespace")
  let labels := setAwsLabel labels "cloudwatch_statistic"
    (firstNonEmpty [trigger.getD "Statistic", trigger.getD "StatisticType"])
  let labels := setAwsLabel labels "cloudwatch_unit" (trigger.getD "Unit")
  let labels := setAwsLabel labels "cloudwatch_period" (trigger.getD "Period")
  let labels := setAwsLabel labels "cloudwatch_evaluation_periods"
    (trigger.getD "EvaluationPeriods")
  let labels := setAwsLabel labels "cloudwatch_datapoints_to_alarm"
    (trigger.getD "DatapointsToAlarm")
  let labels := setAwsLabel labels "cloudwatch_comparison_operator"
    (trigger.getD "ComparisonOperator")
  let labels := setAwsLabel labels "cloudwatch_threshold" (trigger.getD "Threshold")
  let labels := setAwsLabel labels "cloudwatch_treat_missing_data"
    (trigger.getD "TreatMissingData")
  (asItems (trigger.getD "Dimensions")).foldl setDimension labels

def cloudwatchAlarmName (envelope message : Dict) : Json :=
  firstNonEmpty [message.getD "AlarmName", envelope.getD "Subject", .str "CloudWatch alarm"]

def cloudwatchAlarmArn (message : Dict) : Option String := cleanString (message.getD "AlarmArn")

def cloudwatchState (message : Dict) : String := upper (textOf (message.getD "NewStateValue"))

def cloudwatchLabels (envelope message : Dict) : Dict :=
  let labels := snsLabels envelope
  let labels := setAwsLabel labels "alertname" (cloudwatchAlarmName envelope message)
  let labels := setAwsLabel labels "aws_service" (.str "cloudwatch")
  let labels := setAwsLabel labels "aws_account_id"
    (orNone (cleanString (message.getD "AWSAccountId")))
  let labels := setAwsLabel labels "aws_region" (orNone (cleanString (message.getD "Region")))
  let labels := setAwsLabel labels "cloudwatch_alarm_arn" (orNone (cloudwatchAlarmArn message))
  let labels := setAwsLabel labels "cloudwatch_state" (.str (cloudwatchState message))
  let labels := setAwsLabel labels "cloudwatch_previous_state" (message.getD "OldStateValue")
  let labels := match (message.getD "Trigger").orElse (.obj []) with
    | .obj trigger => setTrigger labels trigger
    | _ => labels
  setAwsLabel labels "severity" (cloudwatchSeverity (.str (cloudwatchState message)) envelope)

def cloudwatchExternalId (envelope message : Dict) : Json :=
  firstNonEmpty [orNone (cloudwatchAlarmArn message), message.getD "AlarmName",
    envelope.getD "MessageId"]

def cloudwatchDedupKey (sha256 : String → String) (envelope message : Dict) : String :=
  match cloudwatchAlarmArn message with
  | some arn => arn
  | none => makeDedupKey sha256 "aws_sns" (cloudwatchExternalId envelope message)
      (cloudwatchAlarmName envelope message) (cloudwatchLabels envelope message)

/-- `_safe_stored_envelope(envelope)`. -/
def safeStoredEnvelope (envelope : Dict) : Dict := envelope.pop "Signature"

/-- The annotations that are given. -/
def cloudwatchAnnotations (message : Dict) : Dict :=
  [("alarm_description", message.getD "AlarmDescription"),
    ("state_reason", message.getD "NewStateReason"),
    ("state_change_time", message.getD "StateChangeTime"),
    ("alarm_rule", message.getD "AlarmRule"),
    ("triggering_children", message.getD "TriggeringChildren")].filter
      fun kv => kv.2 != .null && kv.2 != .str "" && kv.2 != .list []

/-- `_normalize_cloudwatch_alarm(envelope, message)`. -/
def normalizeCloudwatchAlarm (sha256 : String → String) (envelope message : Dict) : Dict :=
  let labels := cloudwatchLabels envelope message
  let alarmName := cloudwatchAlarmName envelope message
  [("source", .str "aws_sns"),
    ("team_slug", firstNonEmpty [messageAttributeValue envelope "team",
      messageAttributeValue envelope "oncall_team", labels.getD "team",
      labels.getD "oncall_team"]),
    ("external_id", cloudwatchExternalId envelope message),
    ("dedup_key", .str (cloudwatchDedupKey sha256 envelope message)),
    ("title", alarmName),
    ("message", firstNonEmpty [message.getD "NewStateReason", message.getD "AlarmDescription",
      alarmName]),
    ("severity", cloudwatchSeverity (.str (cloudwatchState message)) envelope),
    ("labels", .obj labels),
    ("annotations", .obj (cloudwatchAnnotations message)),
    ("payload", .obj [("sns", .obj (safeStoredEnvelope envelope)), ("cloudwatch", .obj message)]),
    ("status", .str (cloudwatchStatus (.str (cloudwatchState message))))]

/-! ## Other notifications -/

/-- `_normalize_generic_sns(envelope, parsed_message)`. -/
def normalizeGenericSns (sha256 : String → String) (envelope : Dict) (parsed : Json) : Dict :=
  let labels := setAwsLabel (snsLabels envelope) "aws_service" (.str "sns")
  let title := firstNonEmpty [envelope.getD "Subject", .str "AWS SNS notification"]
  let messageText := match parsed with
    | .str text => text
    | value => dumps { sortKeys := true } value
  let externalId := cleanString (envelope.getD "MessageId")
  [("source", .str "aws_sns"),
    ("team_slug", firstNonEmpty [labels.getD "team", labels.getD "oncall_team"]),
    ("external_id", orNone externalId),
    ("dedup_key", .str (externalId.getD
      (makeDedupKey sha256 "aws_sns" (orNone externalId) title labels))),
    ("title", title),
    ("message", .str messageText),
    ("severity", firstNonEmpty [labels.getD "severity", .str "warning"]),
    ("labels", .obj labels),
    ("payload", .obj [("sns", .obj (safeStoredEnvelope envelope)), ("message", parsed)]),
    ("status", .str "firing")]

/-- A parsed message that is a CloudWatch alarm. -/
def isCloudwatchAlarm (message : Dict) : Bool :=
  (message.getD "AlarmName").truthy && (message.getD "NewStateValue").truthy

/-- The dimensions of the trigger, if it is an object, can be gone through. -/
def dimensionsIterable (message : Dict) : Bool :=
  match (message.getD "Trigger").orElse (.obj []) with
  | .obj trigger => iterable (Dict.getD trigger "Dimensions")
  | _ => true

/-- `normalize_aws_sns(envelope)`: the one event of the list, or `none` where the loop over the
dimensions raises. -/
def normalizeAwsSns (sha256 : String → String) (loads : String → Option Json) (envelope : Dict) :
    Option Dict :=
  let raw := (envelope.getD "Message").orElse (.str "")
  let parsed := match raw with
    | .str text => (loads text).getD raw
    | value => value
  match parsed with
  | .obj message =>
    if isCloudwatchAlarm message then
      if dimensionsIterable message then some (normalizeCloudwatchAlarm sha256 envelope message)
      else none
    else some (normalizeGenericSns sha256 envelope parsed)
  | _ => some (normalizeGenericSns sha256 envelope parsed)

/-! ## One alarm, two notifications -/

/-- An envelope, and the object that its message parses to, on which the normalizer does not
raise. -/
structure AlarmNotification where
  envelope : Dict
  message : Dict
  accepted : Accepts awsSnsSchema envelope
  distinct_message : distinct (.obj message) = true
  alarm : isCloudwatchAlarm message = true
  iterable : dimensionsIterable message = true

/-- What the normalizer makes of the notification. -/
def AlarmNotification.event (n : AlarmNotification) (sha256 : String → String) : Dict :=
  normalizeCloudwatchAlarm sha256 n.envelope n.message

/-- The normalizer takes this branch for every envelope whose message parses so. -/
theorem AlarmNotification.event_eq (n : AlarmNotification) (sha256 : String → String)
    {loads : String → Option Json} {text : String}
    (htext : n.envelope.getD "Message" = .str text) (hloads : loads text = some (.obj n.message))
    (hne : text ≠ "") :
    normalizeAwsSns sha256 loads n.envelope = some (n.event sha256) := by
  unfold normalizeAwsSns AlarmNotification.event
  have hor : (Json.str text).orElse (.str "") = .str text := by
    simp [orElse, truthy, hne]
  simp only [htext, hor, hloads, Option.getD_some, n.alarm, n.iterable, if_true]

def envelopeVaries (key : String) : Bool :=
  key = "MessageId" || key = "Timestamp" || key = "Signature" || key = "Message"

def alarmVaries (key : String) : Bool := key = "NewStateValue" || key = "OldStateValue"

/-- The notifications differ in the order of keys, in the states, and in what SNS
writes for each message. -/
def SameAlarm (p q : AlarmNotification) : Prop :=
  (∃ r : Dict, Reordered (.obj p.envelope) (.obj r) ∧ SameBut envelopeVaries r q.envelope) ∧
    ∃ r : Dict, Reordered (.obj p.message) (.obj r) ∧ SameBut alarmVaries r q.message

/-- The alarm has an ARN, written in one way only. -/
def HasArn (p : AlarmNotification) : Prop :=
  (cloudwatchAlarmArn p.message).isSome = true ∧ rigid (p.message.getD "AlarmArn") = true

/-- With an ARN the recovery carries the key of the firing. -/
theorem cloudwatch_key_of_arn (sha256 : String → String) {p q : AlarmNotification}
    (harn : HasArn p) (h : SameAlarm p q) :
    (q.event sha256).getD "dedup_key" = (p.event sha256).getD "dedup_key" := by
  obtain ⟨-, r, hr, hq⟩ := h
  have hget : q.message.getD "AlarmArn" = p.message.getD "AlarmArn" := by
    rw [hq.getD (by decide)]
    exact reordered_get_rigid (nodup_of_distinct p.distinct_message) hr harn.2
  have hsame : cloudwatchAlarmArn q.message = cloudwatchAlarmArn p.message := by
    rw [cloudwatchAlarmArn, cloudwatchAlarmArn, hget]
  obtain ⟨arn, harn⟩ := Option.isSome_iff_exists.mp harn.1
  show Json.str (cloudwatchDedupKey sha256 q.envelope q.message) =
    Json.str (cloudwatchDedupKey sha256 p.envelope p.message)
  rw [cloudwatchDedupKey, cloudwatchDedupKey, hsame, harn]

/-! ## The message id is a label -/

/-- What is labelled stays labelled. -/
def Keeps (labels labels' : Dict) : Prop :=
  ∀ key v, labels.get key = some v → labels'.get key = some v

theorem Keeps.trans {a b c : Dict} (h : Keeps a b) (h' : Keeps b c) : Keeps a c :=
  fun key v hv => h' key v (h key v hv)

/-- A label that is there already is kept. -/
theorem keeps_setAwsLabel (labels : Dict) (key : String) (value : Json) :
    Keeps labels (setAwsLabel labels key value) := by
  intro other v hv
  unfold setAwsLabel
  dsimp only
  split
  · split
    · exact hv
    · exact get_setdefault_of_some hv _ _
  · exact hv

theorem keeps_foldl {α : Type} (f : Dict → α → Dict) (hf : ∀ labels x, Keeps labels (f labels x))
    (xs : List α) (labels : Dict) : Keeps labels (xs.foldl f labels) := by
  induction xs generalizing labels with
  | nil => exact fun _ _ hv => hv
  | cons x xs ih => exact (hf labels x).trans (ih (f labels x))

theorem keeps_setAttribute (labels : Dict) (attr : String × Json) :
    Keeps labels (setAttribute labels attr) :=
  keeps_setAwsLabel labels attr.1 _

/-- Neither does a dimension. -/
theorem keeps_setDimension (labels : Dict) (dimension : Json) :
    Keeps labels (setDimension labels dimension) := by
  cases dimension with
  | obj fields =>
    unfold setDimension
    dsimp only
    split
    · exact fun _ _ hv => hv
    · exact keeps_setAwsLabel _ _ _
  | _ => exact fun _ _ hv => hv

theorem keeps_setTrigger (labels trigger : Dict) : Keeps labels (setTrigger labels trigger) := by
  unfold setTrigger
  dsimp only
  refine Keeps.trans ?_ (keeps_foldl _ keeps_setDimension _ _)
  iterate 9 refine Keeps.trans ?_ (keeps_setAwsLabel _ _ _)
  exact keeps_setAwsLabel _ _ _

theorem keeps_cloudwatchLabels (envelope message : Dict) :
    Keeps (snsLabels envelope) (cloudwatchLabels envelope message) := by
  unfold cloudwatchLabels
  dsimp only
  refine Keeps.trans ?_ (keeps_setAwsLabel _ _ _)
  split
  · refine Keeps.trans ?_ (keeps_setTrigger _ _)
    iterate 6 refine Keeps.trans ?_ (keeps_setAwsLabel _ _ _)
    exact keeps_setAwsLabel _ _ _
  · iterate 6 refine Keeps.trans ?_ (keeps_setAwsLabel _ _ _)
    exact keeps_setAwsLabel _ _ _

/-- The id of the message is a label of the alarm. -/
theorem get_cloudwatchLabels_messageId (envelope message : Dict) {id : String}
    (hid : cleanString (envelope.getD "MessageId") = some id) :
    (cloudwatchLabels envelope message).get "sns_message_id" = some (.str id) := by
  apply keeps_cloudwatchLabels
  unfold snsLabels
  dsimp only
  refine keeps_foldl setAttribute keeps_setAttribute _ _ _ _ ?_
  -- Only the topic is labelled before, under another key.
  have hkey : labelKey (.str "sns_message_id") = "sns_message_id" := by decide
  have htopic : labelKey (.str "sns_topic_arn") = "sns_topic_arn" := by decide
  have hfree : (setAwsLabel [] "sns_topic_arn" (envelope.getD "TopicArn")).get "sns_message_id" =
      none := by
    unfold setAwsLabel
    rw [htopic]
    dsimp only
    split
    · rw [if_neg (by decide), get_setdefault_of_ne _ _ (by decide)]
      rfl
    · rfl
  unfold setAwsLabel at hfree ⊢
  rw [hkey, hid]
  dsimp only at hfree ⊢
  rw [if_neg (by decide), get_setdefault_self, hfree]
  rfl

/-! ## A recovery with another key -/

/-- Another message about the same alarm. -/
def AlarmNotification.resend (p : AlarmNotification) (id : String) : AlarmNotification where
  envelope := p.envelope.set "MessageId" (.str id)
  message := p.message
  accepted := by
    refine p.accepted.set rfl ?_
    intro f hf hname
    simp only [awsSnsSchema, List.mem_cons, List.not_mem_nil, or_false] at hf
    rcases hf with rfl | rfl | rfl | rfl | rfl | rfl | rfl | rfl | rfl | rfl | rfl | rfl | rfl <;>
      first | rfl | simp at hname
  distinct_message := p.distinct_message
  alarm := p.alarm
  iterable := p.iterable

/-- The same alarm with its ARN written in another order. -/
def AlarmNotification.rewriteArn (p : AlarmNotification) (arn : Json)
    (harn : distinct arn = true) : AlarmNotification where
  envelope := p.envelope
  message := p.message.set "AlarmArn" arn
  accepted := p.accepted
  distinct_message := distinct_set p.distinct_message _ harn
  alarm := by
    have h := p.alarm
    unfold isCloudwatchAlarm Dict.getD at h ⊢
    rwa [Dict.get_set_of_ne _ _ (by decide), Dict.get_set_of_ne _ _ (by decide)]
  iterable := by
    have h := p.iterable
    unfold dimensionsIterable Dict.getD at h ⊢
    rwa [Dict.get_set_of_ne _ _ (by decide)]

theorem sameAlarm_resend (p : AlarmNotification) (id : String) : SameAlarm p (p.resend id) :=
  ⟨⟨p.envelope, .refl _, sameBut_set _ _ (by decide)⟩, p.message, .refl _, SameBut.refl _ _⟩

/-- Without an ARN in one way of writing some recovery has another key. -/
theorem cloudwatch_key_without_arn (sha256 : String → String) {p : AlarmNotification}
    (harn : ¬HasArn p) :
    ∃ q, SameAlarm p q ∧
      Apart sha256 ((p.event sha256).getD "dedup_key") ((q.event sha256).getD "dedup_key") := by
  show ∃ q, SameAlarm p q ∧ Apart sha256 (.str (cloudwatchDedupKey sha256 p.envelope p.message))
    (.str (cloudwatchDedupKey sha256 q.envelope q.message))
  cases hp : cloudwatchAlarmArn p.message with
  | none =>
    -- The digest covers the id of the message.
    have hdiff : ∃ id, cleanString (.str id) = some id ∧
        (cloudwatchLabels p.envelope p.message).get "sns_message_id" ≠ some (.str id) := by
      by_cases h : (cloudwatchLabels p.envelope p.message).get "sns_message_id" = some (.str "m1")
      · refine ⟨"m2", by decide, ?_⟩
        rw [h]
        decide
      · exact ⟨"m1", by decide, h⟩
    obtain ⟨id, hid, hlabel⟩ := hdiff
    refine ⟨p.resend id, sameAlarm_resend p id, ?_⟩
    have hget : cleanString ((p.resend id).envelope.getD "MessageId") = some id := by
      unfold AlarmNotification.resend Dict.getD
      rw [Dict.get_set_self]
      exact hid
    have hq := get_cloudwatchLabels_messageId (p.resend id).envelope p.message hget
    have hnone : cloudwatchAlarmArn (p.resend id).message = none := hp
    rw [cloudwatchDedupKey, cloudwatchDedupKey, hp, hnone]
    apply makeDedupKey_apart
    refine .inr (.inr ?_)
    intro hlabels
    rw [hlabels] at hlabel
    exact hlabel hq
  | some arn =>
    have hrigid : rigid (p.message.getD "AlarmArn") = false := by
      rw [← Bool.not_eq_true]
      exact fun hr => harn ⟨by rw [hp]; rfl, hr⟩
    -- A value in two orders is a list or an object, and prints in two ways.
    cases hget : p.message.get "AlarmArn" with
    | none =>
      rw [Dict.getD, hget] at hrigid
      cases hrigid
    | some v =>
      rw [Dict.getD, hget, Option.getD_some] at hrigid
      have hdistinct := distinct_of_get p.distinct_message hget
      obtain ⟨w, hvw, hne⟩ := exists_reordered_ne v hdistinct hrigid
      have hwrigid : rigid w = false := by
        rw [← Bool.not_eq_true]
        exact fun hw => hne (hvw.symm.eq_of_rigid hw).symm
      have htext : ∀ x : Json, rigid x = false → cleanString x = some x.repr := by
        intro x hx
        have hstrip := strip_repr_of_not_rigid hx
        have hempty : x.repr ≠ "" := by
          intro h
          have hnil : reprChars x = [] := by
            have := congrArg String.toList h
            rwa [Json.repr, String.toList_ofList] at this
          obtain ⟨c, rest, hcons, -⟩ := reprChars_head x
          rw [hcons] at hnil
          cases hnil
        cases x with
        | list xs => simp [cleanString, pyStr, hstrip, hempty]
        | obj kvs => simp [cleanString, pyStr, hstrip, hempty]
        | _ => cases hx
      refine ⟨p.rewriteArn w (distinct_reordered hvw hdistinct),
        ⟨⟨p.envelope, .refl _, SameBut.refl _ _⟩, _, reordered_set hget hvw, SameBut.refl _ _⟩, ?_⟩
      have hpv : cloudwatchAlarmArn p.message = some v.repr := by
        rw [cloudwatchAlarmArn, Dict.getD, hget]
        exact htext v hrigid
      have hqw : cloudwatchAlarmArn (p.message.set "AlarmArn" w) = some w.repr := by
        rw [cloudwatchAlarmArn, Dict.getD, Dict.get_set_self]
        exact htext w hwrigid
      left
      show Json.str (cloudwatchDedupKey sha256 p.envelope p.message) ≠
        Json.str (cloudwatchDedupKey sha256 p.envelope (p.message.set "AlarmArn" w))
      rw [cloudwatchDedupKey, cloudwatchDedupKey, hpv, hqw]
      intro h
      exact hne (repr_injective (Json.str.inj h)).symm

end IncidentRelay.Integrations
