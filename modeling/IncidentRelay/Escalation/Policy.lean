import Mathlib.Data.List.Sort
import IncidentRelay.Tenant
import IncidentRelay.Pending.Row

/-!
# Escalation policies

A policy is a list of rules in the order of their positions, that a group of alerts is
escalated along. What comes next is found from the rule that the group is at and the
number of cycles behind it (`getNextRuleForAlert`).
-/

namespace IncidentRelay.Escalation

inductive TargetType where
  | user
  | rotation
  deriving DecidableEq, Repr

/-- `EscalationPolicyRule` -/
structure Rule where
  id : Id
  policy : Id
  position : Int
  delaySeconds : Int
  targetType : TargetType
  targetRotation : Option Id
  targetUser : Option Id
  enabled : Bool
  deriving DecidableEq

/-- `EscalationPolicy` -/
structure Policy where
  id : Id
  enabled : Bool
  repeatCount : Int
  deriving DecidableEq

/-- The two tables. -/
structure Policies where
  policies : List Policy
  rules : List Rule

/-- What the rest of the system says of users and rotations at a time. -/
structure OnCall where
  /-- `user.active` -/
  active : Id → Bool
  /-- `get_current_oncall_user(rotation)` -/
  currentOncallUser : Id → Option Id
  /-- `get_next_rotation_user(rotation, current_user)` -/
  nextRotationUser : Option Id → Option Id → Option Id
  username : Id → String

/-- The columns of a group that `get_next_rule_for_alert` reads. -/
structure Place where
  escalationPolicy : Option Id
  escalationRule : Option Id
  escalationRepeatCount : Int
  deriving DecidableEq

section Rules

variable (db : Policies)

def findPolicy (id : Id) : Option Policy := db.policies.find? (·.id = id)

def findRule (id : Id) : Option Rule := db.rules.find? (·.id = id)

/-- `ORDER BY position, id` -/
def inOrder (a b : Rule) : Prop := a.position < b.position ∨ a.position = b.position ∧ a.id ≤ b.id

instance : DecidableRel inOrder := fun a b =>
  inferInstanceAs (Decidable (a.position < b.position ∨ a.position = b.position ∧ a.id ≤ b.id))

/-- `list_enabled_rules(policy)` -/
def listEnabledRules (policy : Policy) : List Rule :=
  (db.rules.filter fun rule => rule.policy = policy.id ∧ rule.enabled = true).insertionSort inOrder

/-- `get_first_enabled_rule(policy)` -/
def getFirstEnabledRule (policy : Policy) : Option Rule :=
  if policy.enabled then (listEnabledRules db policy).head? else none

/-- `get_rule_delay_seconds(rule)` -/
def getRuleDelaySeconds (rule : Rule) : Int := max rule.delaySeconds 0

/-- `get_next_escalation_at(rule, now)` -/
def getNextEscalationAt (rule : Rule) (now : Instant) : Instant :=
  now + seconds (getRuleDelaySeconds rule)

/-- `resolve_rule_user(rule)` -/
def resolveRuleUser (w : OnCall) (rule : Rule) : Option Id :=
  if rule.enabled then
    match rule.targetType with
    | .user => rule.targetUser.filter w.active
    | .rotation => rule.targetRotation.bind w.currentOncallUser
  else none

/-- The rule behind the current one in the list; where the current one is not in it, the
first. -/
def nextInCycle (repeatCount current : Int) (currentId : Id) (first : Rule) :
    List Rule → Option Rule × Int
  | [] => (some first, current)
  | rule :: rest =>
    if rule.id ≠ currentId then nextInCycle repeatCount current currentId first rest
    else match rest.head? with
      | some next => (some next, current)
      | none => if current < repeatCount then (some first, current + 1) else (none, current)

/-- `get_next_rule_for_alert(alert)` -/
def getNextRuleForAlert (place : Place) : Option Rule × Int :=
  match place.escalationPolicy.bind (findPolicy db) with
  | none => (none, place.escalationRepeatCount)
  | some policy =>
    if policy.enabled then
      match listEnabledRules db policy with
      | [] => (none, place.escalationRepeatCount)
      | first :: rest =>
        match place.escalationRule with
        | none => (some first, place.escalationRepeatCount)
        | some current =>
          nextInCycle policy.repeatCount place.escalationRepeatCount current first (first :: rest)
    else (none, place.escalationRepeatCount)

end Rules

/-! ## The stages of a policy -/

/-- The rules of the policy, once and then as often as it repeats. -/
def stages (policy : Policy) (rules : List Rule) : List Rule :=
  (List.replicate (policy.repeatCount.toNat + 1) rules).flatten

/-- What comes after a rule of a list with distinct ids. -/
theorem nextInCycle_at {repeatCount current : Int} {first : Rule} {rules : List Rule}
    (hids : (rules.map Rule.id).Nodup) {i : ℕ} {rule : Rule} (hrule : rules[i]? = some rule) :
    nextInCycle repeatCount current rule.id first rules =
      match rules[i + 1]? with
      | some next => (some next, current)
      | none => if current < repeatCount then (some first, current + 1) else (none, current) := by
  induction rules generalizing i with
  | nil => cases hrule
  | cons head rest ih =>
    rw [List.map_cons, List.nodup_cons] at hids
    rw [nextInCycle]
    cases i with
    | zero =>
      obtain rfl : head = rule := by simpa using hrule
      rw [if_neg (by simp)]
      cases rest with
      | nil => rfl
      | cons next rest => rfl
    | succ i =>
      have hrest : rest[i]? = some rule := by simpa using hrule
      have hne : head.id ≠ rule.id := by
        intro heq
        exact hids.1 (heq ▸ List.mem_map_of_mem (List.mem_of_getElem? hrest))
      rw [if_pos hne, ih hids.2 hrest]
      rfl

end IncidentRelay.Escalation
