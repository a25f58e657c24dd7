import IncidentRelay.Lib.LineText
import IncidentRelay.Lib.PyRepr
import IncidentRelay.Lib.Result

/-!
# The signed text of an envelope

`build_aws_sns_signing_string` and `build_cloud_ru_smn_signing_string`: the names and the values
of the signed fields, each on a line of its own. The message is the first value and is free text.

* `signed_text_determines`: what the text says of the fields.
* `signed_text_moved`: a line break behind the message, and a message that is no text, are read
  in two ways.
-/

namespace IncidentRelay.Integrations

open Json LineText

/-! ## Fields -/

/-- What a builder raises. -/
inductive SigningError where
  | api (code message : String) (status : ℕ)
  /-- a type that cannot be hashed is looked up in a set -/
  | typeError
  deriving DecidableEq

/-- The fields of an envelope by their names; the type is signed last. -/
structure SignedFields where
  type : String
  message : String
  messageId : String
  subject : String
  /-- behind the subject of a notification -/
  dated : List String
  /-- between the message and the type of a confirmation -/
  confirmation : List String
  invalidType : SigningError
  missing : String → SigningError
  messageId_ne_subject : messageId ≠ subject
  names_lines : ∀ name ∈ type :: messageId :: subject :: (dated ++ confirmation), '\n' ∉ name.toList

variable (fields : SignedFields)

/-- The fields behind the message. -/
def behindMessage (envelope : Dict) : Except SigningError (List String) :=
  match envelope.getD fields.type with
  | .str "Notification" =>
    .ok (fields.messageId :: (if envelope.getD fields.subject = .null then [] else [fields.subject]) ++
      fields.dated ++ [fields.type])
  | .str "SubscriptionConfirmation" | .str "UnsubscribeConfirmation" =>
    .ok (fields.confirmation ++ [fields.type])
  | .list _ | .obj _ => .error .typeError
  | _ => .error fields.invalidType

/-- The loop over the names. -/
def signedParts (envelope : Dict) : List String → Except SigningError (List (List Char))
  | [] => .ok []
  | name :: names =>
    if envelope.getD name = .null then .error (fields.missing name)
    else (signedParts envelope names).map
      ([name.toList, (pyStr (envelope.getD name)).toList] ++ ·)

def signingString (envelope : Dict) : Except SigningError String := do
  let names ← behindMessage fields envelope
  let parts ← signedParts fields envelope (fields.message :: names)
  return String.ofList (ended '\n' parts)

/-! ## The two builders -/

def awsSnsFields : SignedFields where
  type := "Type"
  message := "Message"
  messageId := "MessageId"
  subject := "Subject"
  dated := ["Timestamp", "TopicArn"]
  confirmation := ["MessageId", "SubscribeURL", "Timestamp", "Token", "TopicArn"]
  invalidType := .api "aws_sns_invalid_type" "Unsupported Amazon SNS message type." 400
  missing name := .api "aws_sns_missing_signature_field"
    ("Amazon SNS message is missing the signed field " ++ name ++ ".") 400
  messageId_ne_subject := by decide
  names_lines := by decide

/-- `build_aws_sns_signing_string(envelope)` -/
def buildAwsSnsSigningString : Dict → Except SigningError String := signingString awsSnsFields

def cloudRuSmnFields : SignedFields where
  type := "type"
  message := "message"
  messageId := "message_id"
  subject := "subject"
  dated := ["timestamp", "topic_urn"]
  confirmation := ["message_id", "subscribe_url", "timestamp", "topic_urn"]
  invalidType := .api "cloud_ru_smn_invalid_type" "Unsupported Cloud.ru SMN message type." 400
  missing name := .api "cloud_ru_smn_missing_signature_field"
    ("Cloud.ru SMN message is missing the signed field " ++ name ++ ".") 400
  messageId_ne_subject := by decide
  names_lines := by decide

/-- `build_cloud_ru_smn_signing_string(envelope)` -/
def buildCloudRuSmnSigningString : Dict → Except SigningError String := signingString cloudRuSmnFields

/-! ## What is signed -/

variable {fields}

/-- The value of a field as it is signed. -/
def signedValue (envelope : Dict) (name : String) : List Char := (pyStr (envelope.getD name)).toList

def isText : Json → Bool
  | .str _ => true
  | _ => false

/-- Among texts, and among other values, the text determines the value. -/
theorem pyStr_inj {v w : Json} (hkind : isText v = isText w) (h : pyStr v = pyStr w) : v = w := by
  cases v with
  | str s =>
    cases w with
    | str t => exact congrArg Json.str h
    | _ => cases hkind
  | _ =>
    cases w with
    | str t => cases hkind
    | _ => exact repr_injective h

/-- What is signed are names and values in turn. -/
theorem signedParts_ok {envelope : Dict} {names : List String} {parts : List (List Char)}
    (h : signedParts fields envelope names = .ok parts) :
    parts = labelled String.toList names (signedValue envelope) := by
  induction names generalizing parts with
  | nil => exact (Except.ok.inj h).symm
  | cons name names ih =>
    rw [signedParts] at h
    split_ifs at h
    cases hrest : signedParts fields envelope names with
    | error e =>
      rw [hrest] at h
      cases h
    | ok rest =>
      rw [hrest] at h
      rw [labelled_cons, ← ih hrest]
      exact (Except.ok.inj h).symm

/-- The text: the message, and the lines of the other fields. -/
theorem signingString_ok {envelope : Dict} {text : String} (h : signingString fields envelope = .ok text) :
    ∃ names, behindMessage fields envelope = .ok names ∧
      text.toList = fields.message.toList ++ '\n' :: (signedValue envelope fields.message ++
        '\n' :: ended '\n' (labelled String.toList names (signedValue envelope))) := by
  obtain ⟨names, hnames, h⟩ := bind_eq_ok.mp h
  obtain ⟨parts, hparts, h⟩ := bind_eq_ok.mp h
  refine ⟨names, hnames, ?_⟩
  rw [← Except.ok.inj h, String.toList_ofList, signedParts_ok hparts, labelled_cons, ended_cons,
    ended_cons]

/-- The names end with the type, which is one of three. -/
theorem behindMessage_ok {envelope : Dict} {names : List String}
    (h : behindMessage fields envelope = .ok names) : ∃ type front,
      envelope.getD fields.type = .str type ∧ '\n' ∉ type.toList ∧ names = front ++ [fields.type] ∧
      front = if type = "Notification" then
          fields.messageId :: (if envelope.getD fields.subject = .null then [] else [fields.subject]) ++
            fields.dated
        else fields.confirmation := by
  unfold behindMessage at h
  split at h
  · rename_i htype
    exact ⟨_, _, htype, by decide, (Except.ok.inj h).symm, rfl⟩
  · rename_i htype
    exact ⟨_, _, htype, by decide, (Except.ok.inj h).symm, rfl⟩
  · rename_i htype
    exact ⟨_, _, htype, by decide, (Except.ok.inj h).symm, rfl⟩
  all_goals cases h

/-- No line break in a signed value other than the message. -/
def SingleLines (fields : SignedFields) (envelope : Dict) : Prop :=
  ∀ names, behindMessage fields envelope = .ok names →
    ∀ name ∈ names, '\n' ∉ signedValue envelope name

/-- Of the two values of a signed field both are texts, or none of them is. -/
def SameKinds (fields : SignedFields) (a b : Dict) : Prop :=
  ∀ names, behindMessage fields a = .ok names →
    ∀ name ∈ fields.message :: names, isText (a.getD name) = isText (b.getD name)

/-- The same fields are signed, and they have the same values. -/
def SameSigned (fields : SignedFields) (a b : Dict) : Prop :=
  ∃ names, behindMessage fields a = .ok names ∧ behindMessage fields b = .ok names ∧
    ∀ name ∈ fields.message :: names, a.getD name = b.getD name

section Texts

variable {a b : Dict} {text : String}

/-- The names that are signed have no line break. -/
theorem names_lines_of_ok {names : List String} (h : behindMessage fields a = .ok names) :
    ∀ name ∈ names, '\n' ∉ name.toList := by
  obtain ⟨type, front, -, -, rfl, rfl⟩ := behindMessage_ok h
  intro name hname
  refine fields.names_lines name ?_
  simp only [List.mem_append, List.mem_cons] at hname ⊢
  split_ifs at hname <;> simp at hname <;> tauto

/-- **The type is read from the last line**, whatever the other values are. -/
theorem type_of_text (ha : signingString fields a = .ok text) (hb : signingString fields b = .ok text) :
    a.getD fields.type = b.getD fields.type := by
  obtain ⟨namesA, hnamesA, htextA⟩ := signingString_ok ha
  obtain ⟨namesB, hnamesB, htextB⟩ := signingString_ok hb
  obtain ⟨typeA, frontA, htypeA, hlineA, rfl, -⟩ := behindMessage_ok hnamesA
  obtain ⟨typeB, frontB, htypeB, hlineB, rfl, -⟩ := behindMessage_ok hnamesB
  -- the last line of the text is the type
  have hlast (e : Dict) (front : List String) (type : String) (htype : e.getD fields.type = .str type) :
      ∃ before, fields.message.toList ++ '\n' :: (signedValue e fields.message ++
        '\n' :: ended '\n' (labelled String.toList (front ++ [fields.type]) (signedValue e))) =
          before ++ '\n' :: ended '\n' [type.toList] := by
    refine ⟨fields.message.toList ++ '\n' :: (signedValue e fields.message ++ '\n' ::
      (ended '\n' (labelled String.toList front (signedValue e)) ++ fields.type.toList)), ?_⟩
    have hvalue : signedValue e fields.type = type.toList := by
      unfold signedValue
      rw [htype]
      rfl
    rw [labelled_append, ended_append, labelled_cons, hvalue, ended_cons]
    simp [labelled, List.append_assoc]
  obtain ⟨beforeA, hbeforeA⟩ := hlast a frontA typeA htypeA
  obtain ⟨beforeB, hbeforeB⟩ := hlast b frontB typeB htypeB
  have heq : beforeA ++ '\n' :: ended '\n' [typeA.toList] =
      beforeB ++ '\n' :: ended '\n' [typeB.toList] := by
    rw [← hbeforeA, ← hbeforeB, ← htextA, ← htextB]
  obtain ⟨-, hlines⟩ := behind_inj (List.forall_mem_singleton.mpr hlineA)
    (List.forall_mem_singleton.mpr hlineB) rfl heq
  rw [htypeA, htypeB, String.toList_inj.mp (List.singleton_inj.mp hlines)]

theorem lines_of_names {names : List String} (ha : behindMessage fields a = .ok names)
    (hsingle : SingleLines fields a) :
    ∀ line ∈ labelled String.toList names (signedValue a), '\n' ∉ line :=
  (forall_mem_labelled _).mpr fun name hname =>
    ⟨names_lines_of_ok ha name hname, hsingle names ha name hname⟩

/-- The messages and the lines behind them. -/
theorem behind_of_text {namesA namesB : List String} (ha : signingString fields a = .ok text)
    (hb : signingString fields b = .ok text) (hnamesA : behindMessage fields a = .ok namesA)
    (hnamesB : behindMessage fields b = .ok namesB) :
    signedValue a fields.message ++ '\n' :: ended '\n' (labelled String.toList namesA (signedValue a)) =
      signedValue b fields.message ++
        '\n' :: ended '\n' (labelled String.toList namesB (signedValue b)) := by
  obtain ⟨_, hsameA, htextA⟩ := signingString_ok ha
  obtain ⟨_, hsameB, htextB⟩ := signingString_ok hb
  obtain rfl := Except.ok.inj (hsameA.symm.trans hnamesA)
  obtain rfl := Except.ok.inj (hsameB.symm.trans hnamesB)
  have hall := htextA.symm.trans htextB
  exact (List.cons.inj (List.append_cancel_left hall)).2

/-- The subject is not mistaken for the id of the message. -/
theorem subject_of_text {names : List String} (ha : signingString fields a = .ok text)
    (hb : signingString fields b = .ok text) (hsingleA : SingleLines fields a)
    (hsingleB : SingleLines fields b) (hnamesA : behindMessage fields a = .ok (fields.messageId :: names)) :
    behindMessage fields b ≠ .ok (fields.messageId :: fields.subject :: names) := by
  intro hnamesB
  have hlinesA := lines_of_names hnamesA hsingleA
  have hlinesB := lines_of_names hnamesB hsingleB
  have htext := behind_of_text ha hb hnamesA hnamesB
  rw [labelled_cons _ fields.messageId (fields.subject :: names)] at hlinesB htext
  -- the id of the other message belongs to what is before the lines
  have hbefore : signedValue b fields.message ++ '\n' :: ended '\n' (fields.messageId.toList ::
      signedValue b fields.messageId ::
        labelled String.toList (fields.subject :: names) (signedValue b)) =
      (signedValue b fields.message ++ '\n' ::
        (fields.messageId.toList ++ '\n' :: signedValue b fields.messageId)) ++
        '\n' :: ended '\n' (labelled String.toList (fields.subject :: names) (signedValue b)) := by
    simp [ended_cons]
  rw [hbefore] at htext
  have hrest := (List.forall_mem_cons.mp (List.forall_mem_cons.mp hlinesB).2).2
  obtain ⟨-, hlines⟩ := behind_inj hlinesA hrest (by simp only [length_labelled, List.length_cons]) htext
  rw [labelled_cons, labelled_cons] at hlines
  exact fields.messageId_ne_subject (String.toList_inj.mp (List.cons.inj hlines).1)

/-- **The text determines the fields**, where the values behind the messages are single lines. -/
theorem sameSigned_of_text (ha : signingString fields a = .ok text)
    (hb : signingString fields b = .ok text) (hsingleA : SingleLines fields a)
    (hsingleB : SingleLines fields b) (hkinds : SameKinds fields a b) : SameSigned fields a b := by
  obtain ⟨namesA, hnamesA, -⟩ := signingString_ok ha
  obtain ⟨namesB, hnamesB, -⟩ := signingString_ok hb
  have hnames : namesA = namesB := by
    obtain ⟨typeA, frontA, htypeA, -, rfl, hfrontA⟩ := behindMessage_ok hnamesA
    obtain ⟨typeB, frontB, htypeB, -, rfl, hfrontB⟩ := behindMessage_ok hnamesB
    have htype := type_of_text ha hb
    rw [htypeA, htypeB] at htype
    obtain rfl := Json.str.inj htype
    -- whether there is a subject is part of the kind, which both share
    refine congrArg (· ++ [fields.type]) ?_
    subst hfrontA hfrontB
    by_cases hnotification : typeA = "Notification"
    · simp only [if_pos hnotification] at hnamesA hnamesB ⊢
      by_cases hsubjectA : a.getD fields.subject = .null <;>
        by_cases hsubjectB : b.getD fields.subject = .null
      · rw [if_pos hsubjectA, if_pos hsubjectB]
      · rw [if_pos hsubjectA] at hnamesA
        rw [if_neg hsubjectB] at hnamesB
        exact absurd hnamesB (subject_of_text ha hb hsingleA hsingleB hnamesA)
      · rw [if_neg hsubjectA] at hnamesA
        rw [if_pos hsubjectB] at hnamesB
        exact absurd hnamesA (subject_of_text hb ha hsingleB hsingleA hnamesB)
      · rw [if_neg hsubjectA, if_neg hsubjectB]
    · rw [if_neg hnotification, if_neg hnotification]
  subst hnames
  -- with one line to each value the lines are read back
  obtain ⟨hmessage, hlines⟩ := behind_inj (lines_of_names hnamesA hsingleA)
    (lines_of_names hnamesB hsingleB) (by simp only [length_labelled]) (behind_of_text ha hb hnamesA hnamesB)
  have hvalues : ∀ name ∈ fields.message :: namesA, signedValue a name = signedValue b name :=
    List.forall_mem_cons.mpr ⟨hmessage, labelled_inj _ hlines⟩
  exact ⟨namesA, hnamesA, hnamesB, fun name hname =>
    pyStr_inj (hkinds namesA hnamesA name hname) (String.toList_inj.mp (hvalues name hname))⟩

end Texts

/-- What a signed text says of the envelopes that it is built from. -/
structure Determines (fields : SignedFields) (build : Dict → Except SigningError String) : Prop where
  type : ∀ a b text, build a = .ok text → build b = .ok text → a.getD fields.type = b.getD fields.type
  signed : ∀ a b text, build a = .ok text → build b = .ok text → SingleLines fields a →
    SingleLines fields b → SameKinds fields a b → SameSigned fields a b

/-- **A signed text determines the type, and all signed fields where the values behind the message
are single lines.** The message may have line breaks. -/
theorem signed_text_determines : Determines awsSnsFields buildAwsSnsSigningString ∧
    Determines cloudRuSmnFields buildCloudRuSmnSigningString :=
  ⟨⟨fun _ _ _ => type_of_text, fun _ _ _ => sameSigned_of_text⟩,
    ⟨fun _ _ _ => type_of_text, fun _ _ _ => sameSigned_of_text⟩⟩

/-! ## Envelopes -/

/-- A notification that is signed by version 2; what else it has is not signed. -/
def awsNotification (messageId message : String) (rest : Dict) : Dict :=
  [("Type", .str "Notification"), ("MessageId", .str messageId), ("TopicArn", .str "arn:aws:sns:ops"),
    ("Message", .str message), ("Timestamp", .str "2026-01-05T08:00:00.000Z"),
    ("SignatureVersion", .str "2")] ++ rest

def smnNotification (message : Json) : Dict :=
  [("type", .str "Notification"), ("message_id", .str "1"), ("topic_urn", .str "urn:smn:ops"),
    ("message", message), ("timestamp", .str "2026-01-05T08:00:00Z")]

/-- A message of two lines. -/
theorem signed_text_lines :
    SameSigned awsSnsFields (awsNotification "1" "disk full\non db1" [("Subject", .str "ALARM")])
      (awsNotification "1" "disk full\non db1" [("Subject", .str "ALARM"), ("Token", .str "t")]) := by
  have hnames : ∀ names, behindMessage awsSnsFields
      (awsNotification "1" "disk full\non db1" [("Subject", .str "ALARM")]) = .ok names →
      names = ["MessageId", "Subject", "Timestamp", "TopicArn", "Type"] := by
    intro names h
    exact (Except.ok.inj h).symm
  refine signed_text_determines.1.signed _ _ _ rfl rfl ?_ ?_ ?_
  · intro names h
    rw [hnames names h]
    decide +kernel
  · intro names h
    rw [hnames names h]
    decide +kernel
  · intro names h
    rw [hnames names h]
    decide +kernel

/-- The subject as a part of the id, and an object as its text. -/
theorem signed_text_moved :
    ¬(∀ a b text, buildAwsSnsSigningString a = .ok text → buildAwsSnsSigningString b = .ok text →
      SameSigned awsSnsFields a b) ∧
    ¬∀ a b text, buildCloudRuSmnSigningString a = .ok text → buildCloudRuSmnSigningString b = .ok text →
      SameSigned cloudRuSmnFields a b := by
  constructor
  · intro hdetermines
    obtain ⟨names, hsubject, hnone, -⟩ :=
      hdetermines (awsNotification "1" "disk full" [("Subject", .str "ALARM")])
        (awsNotification "1\nSubject\nALARM" "disk full" []) _ rfl rfl
    have hnames : ["MessageId", "Subject", "Timestamp", "TopicArn", "Type"] =
        ["MessageId", "Timestamp", "TopicArn", "Type"] :=
      (Except.ok.inj hsubject).trans (Except.ok.inj hnone).symm
    exact absurd hnames (by decide)
  · intro hdetermines
    obtain ⟨names, -, -, hsame⟩ := hdetermines (smnNotification (.obj [("level", .int 1)]))
      (smnNotification (.str "\x7b'level': 1\x7d")) _ rfl rfl
    have hmessage := hsame "message" List.mem_cons_self
    cases hmessage

end IncidentRelay.Integrations
