import IncidentRelay.Integrations.AwsSns
import IncidentRelay.Integrations.Datadog
import IncidentRelay.Integrations.Rmon
import IncidentRelay.Integrations.Webhook

/-!
# The key of a recovery

A recovery addresses the alert that its firing opened when both carry one
deduplication key. Two payloads describe the same alert when they differ in the
fields that the status is read from, in the ids of single messages and in the
order of keys only. The results hold for every digest function: where the keys
are not one, they differ or are digests of two different texts.

* `recovery_key` — for each of the four normalizers, when all payloads of an
  alert carry one key;
* `rmon_recovery_loses_key` — a firing and its recovery that do not.
-/

namespace IncidentRelay.Integrations

open Json

/-! ## One key or two -/

section Keys

variable {P : Type} (same : P → P → Prop) (key : P → Json)

/-- Every payload of the alert carries its key. -/
def OneKey (p : P) : Prop := ∀ q, same p q → key q = key p

/-- Two payloads of the alert do not carry one key, collisions apart. -/
def TwoKeys (sha256 : String → String) (p : P) : Prop :=
  ∃ q q', same p q ∧ same p q' ∧ Apart sha256 (key q) (key q')

end Keys

/-! ## The payloads -/

/-- A payload that passed `RmonWebhookSchema`. -/
def RmonPayload : Type := { p : Dict // Accepts rmonSchema p }

def RmonPayload.Same (p q : RmonPayload) : Prop := SameRmonAlert p.1 q.1

def RmonPayload.key (sha256 : String → String) (p : RmonPayload) : Json :=
  (normalizeRmon sha256 p.1).getD "dedup_key"

/-- A payload that passed `DatadogWebhookSchema`. -/
def DatadogPayload : Type := { p : Dict // Accepts datadogSchema p }

def DatadogPayload.Same (p q : DatadogPayload) : Prop := SameDatadogAlert p.1 q.1

def DatadogPayload.key (sha256 : String → String) (p : DatadogPayload) : Json :=
  (normalizeDatadog sha256 p.1).getD "dedup_key"

/-- A payload that passed `GenericWebhookSchema`. -/
def WebhookPayload : Type := { p : Dict // AcceptsWebhook p }

def WebhookPayload.Same (p q : WebhookPayload) : Prop := SameWebhookAlert p.1 q.1

def WebhookPayload.key (sha256 : String → String) (p : WebhookPayload) : Json :=
  (normalizeWebhook sha256 p.1).getD "dedup_key"

def AlarmNotification.key (sha256 : String → String) (p : AlarmNotification) : Json :=
  (p.event sha256).getD "dedup_key"

/-! ## When the recovery carries the key -/

theorem rmon_oneKey (sha256 : String → String) (p : RmonPayload)
    (h : (rmonFingerprint p.1).isSome = true) :
    OneKey RmonPayload.Same (RmonPayload.key sha256) p :=
  fun _ hq => rmon_key_of_fingerprint sha256 p.2 h hq

/-- Without it the severity changes the key. -/
theorem rmon_twoKeys (sha256 : String → String) (p : RmonPayload)
    (h : ¬(rmonFingerprint p.1).isSome = true) :
    TwoKeys RmonPayload.Same (RmonPayload.key sha256) sha256 p := by
  rw [Bool.not_eq_true, Option.isSome_eq_false_iff, Option.isNone_iff_eq_none] at h
  obtain ⟨q, hq, hsame, hapart⟩ := rmon_key_without_fingerprint sha256 p.2 h
  refine ⟨p, ⟨q, hq⟩, ⟨p.1, .refl _, SameBut.refl _ _, SameBut.refl _ _, ?_⟩, hsame, hapart⟩
  intro _ _
  exact ⟨rfl, rfl⟩

theorem cloudwatch_oneKey (sha256 : String → String) (p : AlarmNotification) (h : HasArn p) :
    OneKey SameAlarm (AlarmNotification.key sha256) p :=
  fun _ hq => cloudwatch_key_of_arn sha256 h hq

/-- Without it the message id changes the key. -/
theorem cloudwatch_twoKeys (sha256 : String → String) (p : AlarmNotification) (h : ¬HasArn p) :
    TwoKeys SameAlarm (AlarmNotification.key sha256) sha256 p := by
  obtain ⟨q, hsame, hapart⟩ := cloudwatch_key_without_arn sha256 h
  exact ⟨p, q, ⟨⟨p.envelope, .refl _, SameBut.refl _ _⟩, p.message, .refl _, SameBut.refl _ _⟩,
    hsame, hapart⟩

/-- What decides the key of a webhook event, by its format. -/
def WebhookKeyed (p : Dict) : Prop :=
  (isPagerdutyEventsV2 p = true ∧ PagerdutyKeyed p) ∨
    (isPagerdutyEventsV2 p = false ∧ GenericKeyed p)

/-- A webhook that brings its key has one. -/
theorem webhook_oneKey (sha256 : String → String) (p : WebhookPayload) (h : WebhookKeyed p.1) :
    OneKey WebhookPayload.Same (WebhookPayload.key sha256) p := by
  intro q hq
  rcases h with ⟨hformat, hkeyed⟩ | ⟨hformat, hkeyed⟩
  · exact pagerduty_key_of_keyed sha256 p.2 hformat hkeyed hq
  · exact generic_key_of_keyed sha256 p.2 hformat hkeyed hq

/-- Otherwise the severity changes it. -/
theorem webhook_twoKeys (sha256 : String → String) (p : WebhookPayload)
    (hformat : isPagerdutyEventsV2 p.1 = false) (h : ¬WebhookKeyed p.1) :
    TwoKeys WebhookPayload.Same (WebhookPayload.key sha256) sha256 p := by
  have hkeyed : ¬GenericKeyed p.1 := fun hkeyed => h (.inr ⟨hformat, hkeyed⟩)
  obtain ⟨q, hq, hsame, hapart⟩ := generic_key_without sha256 p.2 hformat hkeyed
  exact ⟨p, ⟨q, hq⟩, ⟨rfl, p.1, .refl _, SameBut.refl _ _⟩, hsame, hapart⟩

theorem datadog_oneKey (sha256 : String → String) (p : DatadogPayload) (h : DatadogKeyed p.1) :
    OneKey DatadogPayload.Same (DatadogPayload.key sha256) p :=
  fun _ hq => datadog_key_of_keyed sha256 h hq

/-- Otherwise its fields change it. -/
theorem datadog_twoKeys (sha256 : String → String) (p : DatadogPayload) (h : ¬DatadogKeyed p.1)
    (hshadow : ¬Shadowable p.1) :
    TwoKeys DatadogPayload.Same (DatadogPayload.key sha256) sha256 p := by
  obtain ⟨q, q', hq, hq', hsame, hsame', hapart⟩ := datadog_two_keys sha256 p.2 h hshadow
  exact ⟨⟨q, hq⟩, ⟨q', hq'⟩, hsame, hsame', hapart⟩

/-- **A recovery carries the key of its firing when the payload names the key
itself**, in a fingerprint, an alarm ARN, a `dedup_key` or a cycle key, or when
the digest covers nothing that varies; otherwise two payloads of the alert carry
two keys. -/
theorem recovery_key (sha256 : String → String) :
    (∀ p : RmonPayload,
      ((rmonFingerprint p.1).isSome = true →
        OneKey RmonPayload.Same (RmonPayload.key sha256) p) ∧
      (¬(rmonFingerprint p.1).isSome = true →
        TwoKeys RmonPayload.Same (RmonPayload.key sha256) sha256 p)) ∧
    (∀ p : AlarmNotification,
      (HasArn p → OneKey SameAlarm (AlarmNotification.key sha256) p) ∧
      (¬HasArn p → TwoKeys SameAlarm (AlarmNotification.key sha256) sha256 p)) ∧
    (∀ p : WebhookPayload,
      (WebhookKeyed p.1 → OneKey WebhookPayload.Same (WebhookPayload.key sha256) p) ∧
      (isPagerdutyEventsV2 p.1 = false → ¬WebhookKeyed p.1 →
        TwoKeys WebhookPayload.Same (WebhookPayload.key sha256) sha256 p)) ∧
    ∀ p : DatadogPayload,
      (DatadogKeyed p.1 → OneKey DatadogPayload.Same (DatadogPayload.key sha256) p) ∧
      (¬DatadogKeyed p.1 → ¬Shadowable p.1 →
        TwoKeys DatadogPayload.Same (DatadogPayload.key sha256) sha256 p) :=
  ⟨fun p => ⟨rmon_oneKey sha256 p, rmon_twoKeys sha256 p⟩,
    fun p => ⟨cloudwatch_oneKey sha256 p, cloudwatch_twoKeys sha256 p⟩,
    fun p => ⟨webhook_oneKey sha256 p, webhook_twoKeys sha256 p⟩,
    fun p => ⟨datadog_oneKey sha256 p, datadog_twoKeys sha256 p⟩⟩

/-! ## A firing and its recovery -/

/-- An RMON payload without fingerprint and status. -/
def rmonFiring : RmonPayload :=
  ⟨[("title", .str "Disk full"), ("severity", .str "critical"), ("labels", .obj [])], by decide⟩

def rmonRecovery : RmonPayload :=
  ⟨[("title", .str "Disk full"), ("severity", .str "info"), ("labels", .obj [])], by decide⟩

/-- An alarm with an ARN and one dimension. -/
def diskAlarm : AlarmNotification where
  envelope := [("Type", .str "Notification"), ("MessageId", .str "m1"),
    ("TopicArn", .str "arn:aws:sns:eu-west-1:1:ops"), ("Message", .str "alarm"),
    ("Timestamp", .str "2026-01-01T00:00:00.000Z"), ("SignatureVersion", .str "1"),
    ("Signature", .str "c2ln"), ("SigningCertURL", .str "https://sns.eu-west-1.amazonaws.com/a.pem"),
    ("MessageAttributes", .obj [])]
  message := [("AlarmName", .str "Disk full"), ("NewStateValue", .str "ALARM"),
    ("AlarmArn", .str "arn:aws:cloudwatch:eu-west-1:1:alarm:disk"),
    ("Trigger", .obj [("Dimensions", .list [.obj [("name", .str "host"), ("value", .str "db1")]])])]
  accepted := by decide
  distinct_message := by decide
  alarm := by decide
  iterable := by decide

theorem recovery_key_sample :
    TwoKeys RmonPayload.Same (RmonPayload.key id) id rmonFiring ∧
      OneKey SameAlarm (AlarmNotification.key id) diskAlarm ∧
      normalizeAwsSns id (fun _ => some (.obj diskAlarm.message)) diskAlarm.envelope =
        some (diskAlarm.event id) :=
  ⟨((recovery_key id).1 rmonFiring).2 (by decide), ((recovery_key id).2.1 diskAlarm).1 ⟨by decide, by decide⟩,
    @AlarmNotification.event_eq diskAlarm id (fun _ => some (.obj diskAlarm.message)) "alarm" rfl rfl
      (by decide)⟩

/-- The alert fires with one severity and recovers with another, which is all its
status is read from. The two keys are digests of different texts. -/
theorem rmon_recovery_loses_key :
    (normalizeRmon id rmonFiring.1).getD "status" = .str "firing" ∧
    (normalizeRmon id rmonRecovery.1).getD "status" = .str "resolved" ∧
    RmonPayload.Same rmonFiring rmonRecovery ∧
    ∀ sha256, Apart sha256 (rmonFiring.key sha256) (rmonRecovery.key sha256) := by
  refine ⟨by decide, by decide, ?_, ?_⟩
  · refine ⟨rmonFiring.1, .refl _, rfl, rfl, ?_⟩
    intro hstatus
    exact absurd hstatus (by decide)
  · intro sha256
    have hfp : rmonFingerprint rmonFiring.1 = none ∧ rmonFingerprint rmonRecovery.1 = none := by
      decide
    show Apart sha256 (.str (rmonDedupKey sha256 rmonFiring.1))
      (.str (rmonDedupKey sha256 rmonRecovery.1))
    rw [rmonDedupKey, rmonDedupKey, hfp.1, hfp.2]
    exact makeDedupKey_apart sha256 (.inr (.inr (by decide)))

end IncidentRelay.Integrations
