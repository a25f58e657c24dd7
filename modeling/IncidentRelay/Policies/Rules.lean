import IncidentRelay.Lib.IdTable
import IncidentRelay.Lib.Json
import IncidentRelay.Lib.Places
import IncidentRelay.Tenant
import Mathlib.Data.List.Sort
import Mathlib.Data.Prod.Lex

/-!
# The rules of a policy

A notification policy and a priority policy keep their rules in the same way: the rules are
evaluated in the order of their positions, and every request that moves a rule writes the
positions of all of them anew (`reorderPolicyRules`). This module has the requests as the
two services compute them, each with what it read before its transaction as an argument of
its own; what the two differ in is a `PolicyKind`.

The table holds the rules of one policy. A request looks at live rules only, so what a
request does is said of `liveRule`, rule by rule (`liveRule_reorderPolicyRules` and the
laws before it).
-/

namespace IncidentRelay.Policies

structure PolicyRule where
  id : ℕ
  position : ℤ
  deleted : Bool
  /-- The other columns, by name. -/
  fields : Dict
  channels : List Id
  deriving DecidableEq

abbrev Rules := IdTable PolicyRule PolicyRule.id

/-! ## What is read -/

/-- `get_policy_rule`. -/
def liveRule (t : Rules) (n : ℕ) : Option PolicyRule := (t.get n).filter fun r => !r.deleted

/-- `ORDER BY position, id`. -/
def Before (r r' : PolicyRule) : Prop := toLex (r.position, r.id) ≤ toLex (r'.position, r'.id)

instance : DecidableRel Before := fun r r' =>
  inferInstanceAs (Decidable (toLex (r.position, r.id) ≤ toLex (r'.position, r'.id)))

def listPolicyRules (t : Rules) : List PolicyRule :=
  (t.rows.filter fun r => !r.deleted).insertionSort Before

def ruleIds (t : Rules) : List ℕ := (listPolicyRules t).map PolicyRule.id

def liveIds (t : Rules) : Finset ℕ := (ruleIds t).toFinset

/-- The position of a live rule. -/
def place (t : Rules) (n : ℕ) : ℤ := ((liveRule t n).map PolicyRule.position).getD 0

/-! ## Positions -/

def setPosition (n : ℕ) (position : ℤ) (t : Rules) : Rules :=
  t.update (fun r => r.id = n && !r.deleted) (fun r => { r with position }) fun _ => rfl

/-- Consecutive positions, the first being `next`. -/
def setPositions : ℤ → List ℕ → Rules → Rules
  | _, [], t => t
  | next, n :: ids, t => setPositions (next + 1) ids (setPosition n next t)

def temporaryBase : ℤ := 1000000

/-- The two phases keep the positions distinct on the way. -/
def reorderPolicyRules (ids : List ℕ) (t : Rules) : Rules :=
  setPositions 1 ids (setPositions (temporaryBase + 1) ids t)

/-- The position a request asks for, among those there are. -/
def targetPosition (requested : Option ℤ) (last : ℤ) : ℤ :=
  match requested with
  | none => last
  | some position => max 1 (min position last)

/-! ## The two kinds of policy -/

structure PolicyKind where
  /-- The columns an update may set. `position` is one of them, but the service has taken it
  out of the payload. -/
  updatable : List String
  /-- The columns of a new rule. -/
  created : Dict → Dict
  /-- What an enabled rule must have. -/
  deliverable : Json → List Id → Bool

def notificationPolicy : PolicyKind where
  updatable := ["name", "description", "event_types", "matchers", "matcher_preset",
    "continue_matching", "enabled"]
  created data :=
    [("name", data.getD "name"), ("description", data.getD "description"),
      ("event_types", (data.getD "event_types").orElse (.list [])),
      ("matchers", (data.getD "matchers").orElse (.obj [])),
      ("matcher_preset", data.getD "matcher_preset"),
      ("continue_matching", (data.get "continue_matching").getD (.bool false)),
      ("enabled", (data.get "enabled").getD (.bool true))]
  deliverable enabled channels := !enabled.truthy || !channels.isEmpty

def priorityPolicy : PolicyKind where
  updatable := ["name", "description", "matchers", "matcher_preset", "priority", "enabled"]
  created data :=
    [("name", data.getD "name"), ("description", data.getD "description"),
      ("matchers", (data.getD "matchers").orElse (.obj [])),
      ("matcher_preset", data.getD "matcher_preset"), ("priority", data.getD "priority"),
      ("enabled", (data.get "enabled").getD (.bool true))]
  deliverable _ _ := true

/-! ## The transactions -/

/-- `for field in …: if field in data: setattr(rule, field, data[field])`. -/
def setFields (names : List String) (data fields : Dict) : Dict :=
  names.foldl (fun fields name =>
    match data.get name with
    | some value => fields.set name value
    | none => fields) fields

def replaceRuleChannels (n : ℕ) (channels : List Id) (t : Rules) : Rules :=
  t.update (fun r => r.id = n) (fun r => { r with channels := channels.eraseDups }) fun _ => rfl

section

variable (kind : PolicyKind)

/-- The list of the existing rules was read before the transaction. -/
def createRule (existing : List PolicyRule) (data : Dict) (channels : List Id)
    (position : Option ℤ) (t : Rules) : Rules :=
  let target := targetPosition position (existing.length + 1)
  let rule : PolicyRule :=
    { id := t.next, position := existing.length + 1, deleted := false,
      fields := kind.created data, channels := [] }
  let t := replaceRuleChannels rule.id channels (t.insert rule rfl)
  reorderPolicyRules ((existing.map PolicyRule.id).insertIdx (target - 1).toNat rule.id) t

/-- `update_policy_rule`, which reads the rule again; without the rule it raises. -/
def updatePolicyRule (n : ℕ) (data : Dict) (t : Rules) : Option Rules := do
  let rule ← liveRule t n
  return t.save { rule with fields := setFields kind.updatable data rule.fields }

/-- The channels are replaced if they are not those that were read before the transaction. -/
def writeRule (n : ℕ) (data : Dict) (channels : Option (List Id)) (current : List Id)
    (t : Rules) : Option Rules := do
  let t ← updatePolicyRule kind n data t
  let final := channels.getD current
  return if final = current then t else replaceRuleChannels n final t

/-- The list of the other rules is read in the transaction. -/
def moveRule (n : ℕ) (position : Option ℤ) (t : Rules) : Rules :=
  match position with
  | none => t
  | some position =>
    let ids := (ruleIds t).filter (· ≠ n)
    let target := targetPosition (some position) (ids.length + 1)
    reorderPolicyRules (ids.insertIdx (target - 1).toNat n) t

def updateRule (n : ℕ) (data : Dict) (channels : Option (List Id)) (current : List Id)
    (position : Option ℤ) (t : Rules) : Option Rules := do
  let t ← writeRule kind n data channels current t
  return moveRule n position t

end

def softDeletePolicyRule (n : ℕ) (t : Rules) : Option Rules := do
  let rule ← liveRule t n
  return t.save { rule with
    position := -rule.id, deleted := true, channels := []
    fields := rule.fields.set "enabled" (.bool false) }

def deleteRule (n : ℕ) (t : Rules) : Option Rules := do
  let t ← softDeletePolicyRule n t
  return reorderPolicyRules (ruleIds t) t

/-! ## The live rules -/

variable {t : Rules} {n m : ℕ} {r : PolicyRule}

theorem liveRule_eq_some : liveRule t n = some r ↔ r ∈ t.rows ∧ r.id = n ∧ r.deleted = false := by
  unfold liveRule
  rw [Option.filter_eq_some_iff, IdTable.get_eq_some]
  simp [and_assoc]

theorem lt_of_liveRule (h : liveRule t n = some r) : n < t.next := by
  obtain ⟨hr, rfl, -⟩ := liveRule_eq_some.mp h
  exact t.lt r hr

theorem place_of_liveRule (h : liveRule t n = some r) : place t n = r.position := by
  rw [place, h]
  rfl

theorem mem_listPolicyRules : r ∈ listPolicyRules t ↔ liveRule t r.id = some r := by
  rw [listPolicyRules, List.mem_insertionSort, List.mem_filter, liveRule_eq_some]
  simp

theorem mem_ruleIds : n ∈ ruleIds t ↔ ∃ r, liveRule t n = some r := by
  rw [ruleIds, List.mem_map]
  constructor
  · rintro ⟨r, hr, rfl⟩
    exact ⟨r, mem_listPolicyRules.mp hr⟩
  · rintro ⟨r, hr⟩
    obtain ⟨-, rfl, -⟩ := liveRule_eq_some.mp hr
    exact ⟨r, mem_listPolicyRules.mpr hr, rfl⟩

theorem mem_liveIds : n ∈ liveIds t ↔ ∃ r, liveRule t n = some r := by
  rw [liveIds, List.mem_toFinset, mem_ruleIds]

theorem nodup_ruleIds (t : Rules) : (ruleIds t).Nodup := by
  have hperm : (ruleIds t).Perm ((t.rows.filter fun r => !r.deleted).map PolicyRule.id) :=
    (List.perm_insertionSort _ _).map _
  exact hperm.nodup_iff.mpr (t.nodup.sublist (List.filter_sublist.map _))

theorem card_liveIds (t : Rules) : (liveIds t).card = (ruleIds t).length :=
  List.toFinset_card_of_nodup (nodup_ruleIds t)

/-- The list is in the order of the positions. -/
theorem pairwise_ruleIds (h : Set.InjOn (place t) (liveIds t)) :
    (ruleIds t).Pairwise fun x y => place t x < place t y := by
  -- the order of the query is total, since a position and an id compare
  have htotal : ∀ r r', Before r r' ∨ Before r' r := fun r r' => le_total _ _
  have htrans : ∀ r r' r'', Before r r' → Before r' r'' → Before r r'' := fun _ _ _ => le_trans
  have : Std.Total Before := ⟨htotal⟩
  have : IsTrans PolicyRule Before := ⟨htrans⟩
  have hsorted : (listPolicyRules t).Pairwise Before := List.pairwise_insertionSort _ _
  have hnodup := List.pairwise_map.mp (nodup_ruleIds t)
  rw [ruleIds, List.pairwise_map]
  refine (hsorted.and hnodup).imp_of_mem ?_
  rintro r r' hr hr' ⟨hle, hne⟩
  have hr := mem_listPolicyRules.mp hr
  have hr' := mem_listPolicyRules.mp hr'
  rw [place_of_liveRule hr, place_of_liveRule hr']
  have hpos : r.position ≤ r'.position := by
    obtain h | ⟨h, -⟩ := Prod.Lex.le_iff.mp hle
    · exact h.le
    · exact h.le
  -- equal positions would be one rule, as the places are distinct
  refine lt_of_le_of_ne hpos fun heq => hne ?_
  refine h (mem_liveIds.mpr ⟨r, hr⟩) (mem_liveIds.mpr ⟨r', hr'⟩) ?_
  rw [place_of_liveRule hr, place_of_liveRule hr', heq]

/-! ## What the statements do to a live rule -/

/-- **An update under a guard** is read back rule by rule. -/
theorem liveRule_update {guard : PolicyRule → Bool} {set : PolicyRule → PolicyRule}
    (hset : ∀ r, (set r).id = r.id) (hdeleted : ∀ r, (set r).deleted = r.deleted) (n : ℕ) :
    liveRule (t.update guard set hset) n =
      (liveRule t n).map fun r => if guard r = true then set r else r := by
  unfold liveRule
  rw [IdTable.get_update]
  cases t.get n with
  | none => rfl
  | some r =>
    have hkeep : (if guard r = true then set r else r).deleted = r.deleted := by
      split_ifs
      · exact hdeleted r
      · rfl
    cases hr : r.deleted <;> simp [Option.filter_some, hkeep, hr]

/-- Setting a position moves that rule only. -/
theorem liveRule_setPosition (position : ℤ) (t : Rules) (n m : ℕ) :
    liveRule (setPosition m position t) n =
      (liveRule t n).map fun r => if n = m then { r with position } else r := by
  have hdeleted (r : PolicyRule) : { r with position }.deleted = r.deleted := rfl
  refine (liveRule_update _ hdeleted n).trans (Option.map_congr fun r hr => ?_)
  obtain ⟨-, rfl, hdeleted⟩ := liveRule_eq_some.mp hr
  simp [hdeleted]

/-- Setting positions in a row numbers the rules of the list in its order. -/
theorem liveRule_setPositions {ids : List ℕ} (hids : ids.Nodup) (next : ℤ) (t : Rules) (n : ℕ) :
    liveRule (setPositions next ids t) n = (liveRule t n).map fun r =>
      if n ∈ ids then { r with position := next + ids.idxOf n } else r := by
  induction ids generalizing next t with
  | nil => simp [setPositions]
  | cons m ids ih =>
    obtain ⟨hm, hids⟩ := List.nodup_cons.mp hids
    rw [setPositions, ih hids, liveRule_setPosition, Option.map_map]
    refine Option.map_congr fun r _ => ?_
    by_cases hnm : n = m
    · subst hnm
      simp [hm]
    · have hidx : (m :: ids).idxOf n = ids.idxOf n + 1 := List.idxOf_cons_ne _ (Ne.symm hnm)
      by_cases hn : n ∈ ids
      · have hplace : next + 1 + (ids.idxOf n : ℤ) = next + (ids.idxOf n + 1 : ℕ) := by omega
        simp [hnm, hn, hidx, hplace]
      · simp [hnm, hn]

/-- **The rules in the list get the places they have there; the others keep theirs.** -/
theorem liveRule_reorderPolicyRules {ids : List ℕ} (hids : ids.Nodup) (t : Rules) (n : ℕ) :
    liveRule (reorderPolicyRules ids t) n = (liveRule t n).map fun r =>
      if n ∈ ids then { r with position := placeIn ids n } else r := by
  rw [reorderPolicyRules, liveRule_setPositions hids, liveRule_setPositions hids, Option.map_map]
  refine Option.map_congr fun r _ => ?_
  simp only [Function.comp_apply, placeIn]
  split_ifs with hn
  · congr 1
    omega
  · rfl

/-- Replacing the channels keeps the other columns. -/
theorem liveRule_replaceRuleChannels (channels : List Id) (t : Rules) (n m : ℕ) :
    liveRule (replaceRuleChannels m channels t) n =
      (liveRule t n).map fun r => if n = m then { r with channels := channels.eraseDups } else r := by
  have hdeleted (r : PolicyRule) : { r with channels := channels.eraseDups }.deleted = r.deleted := rfl
  refine (liveRule_update _ hdeleted n).trans (Option.map_congr fun r hr => ?_)
  obtain ⟨-, rfl, -⟩ := liveRule_eq_some.mp hr
  simp

/-- A new rule is read back under its id. -/
theorem liveRule_insert {row : PolicyRule} {hrow : row.id = t.next} (hlive : row.deleted = false)
    (n : ℕ) : liveRule (t.insert row hrow) n = if n = t.next then some row else liveRule t n := by
  unfold liveRule
  rw [IdTable.get_insert]
  split_ifs
  · simp [Option.filter_some, hlive]
  · rfl

/-- `rule.save()` of a rule that is live. -/
theorem liveRule_save {rule row : PolicyRule} (h : liveRule t m = some rule) (hrow : row.id = m)
    (n : ℕ) : liveRule (t.save row) n =
      if n = m then (if row.deleted then none else some row) else liveRule t n := by
  unfold liveRule
  rw [IdTable.get_save]
  obtain ⟨hmem, hid, -⟩ := liveRule_eq_some.mp h
  by_cases hn : n = m
  · rw [hn, if_pos rfl, IdTable.get_eq_some.mpr ⟨hmem, hid⟩, Option.map_some,
      if_pos (hid.trans hrow.symm), Option.filter_some]
    cases row.deleted <;> rfl
  · rw [if_neg hn]
    congr 1
    cases hget : t.get n with
    | none => rfl
    | some r =>
      obtain ⟨-, rfl⟩ := IdTable.get_eq_some.mp hget
      rw [Option.map_some, if_neg fun heq => hn (heq.trans hrow)]

/-- The fields that are given are written, the others stay. -/
theorem get_setFields (names : List String) (data fields : Dict) (name : String) :
    (setFields names data fields).get name =
      ((if name ∈ names then data.get name else none).or (fields.get name)) := by
  unfold setFields
  induction names generalizing fields with
  | nil => simp
  | cons other names ih =>
    rw [List.foldl_cons, ih]
    -- the name asked for is set here, or it is left to the rest
    by_cases hname : name = other
    · subst hname
      cases hget : data.get name with
      | none => simp
      | some value => by_cases hmem : name ∈ names <;> simp [hmem]
    · have hget : (match data.get other with
          | some value => fields.set other value
          | none => fields).get name = fields.get name := by
        cases data.get other with
        | none => rfl
        | some value => exact Dict.get_set_of_ne _ _ hname
      simp [hname, hget]

end IncidentRelay.Policies
