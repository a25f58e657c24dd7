import IncidentRelay.Orchestration.Conditions
import IncidentRelay.Orchestration.VersionLaws

/-!
# Conditions that are always true

Before a version is published, its conditions are folded to constants where they do not look
at the event, and a rule that drops every event asks for a confirmation.

 * `matched_of_constant`: the evaluator agrees with the constant of a condition.
 * `catchAll_sound_iff`: a condition with the constant true matches unless the evaluation of
   one of its leaves raises, and what is published without confirmation has no rule that
   drops every event.
-/

namespace IncidentRelay.Orchestration

open Json

/-! ## Constants -/

/-- The result is that of the constant, where there is one. -/
def AgreesWith (value : Option Bool) (r : ConditionResult) : Prop := ∀ b, value = some b → r.matched = b

section Constants

variable {values : List (Option Bool)} {results : List ConditionResult}

/-- A child with a constant has it for its result. -/
theorem mem_matched_of_settled (h : List.Forall₂ AgreesWith values results) {b : Bool}
    (hsettled : values.any (· = some b) = true) : b ∈ results.map (·.matched) := by
  induction h with
  | nil => cases hsettled
  | cons hvalue _ ih =>
    rw [List.any_cons, Bool.or_eq_true] at hsettled
    rcases hsettled with hhead | htail
    · rw [List.map_cons, hvalue b (of_decide_eq_true hhead)]
      exact List.mem_cons_self
    · exact List.mem_cons_of_mem _ (ih htail)

/-- Conditions that have one constant value have one result. -/
theorem matched_of_uniform (h : List.Forall₂ AgreesWith values results) {b : Bool}
    (huniform : values.all (· = some b) = true) : ∀ m ∈ results.map (·.matched), m = b := by
  induction h with
  | nil => exact nofun
  | cons hvalue _ ih =>
    rw [List.all_cons, Bool.and_eq_true] at huniform
    intro m hm
    rcases List.mem_cons.mp hm with rfl | hm
    · exact hvalue b (of_decide_eq_true huniform.1)
    · exact ih huniform.2 m hm

/-- **The constant of a group is the result of the group.** -/
theorem groupResult_agrees {key path : String} (h : List.Forall₂ AgreesWith values results) :
    AgreesWith (constantOf key values) (groupResult key path results) := by
  intro b hconstant
  have hsettled := fun b => @mem_matched_of_settled values results h b
  have huniform := fun b => @matched_of_uniform values results h b
  unfold constantOf at hconstant
  show (if key = "all" then (results.map (·.matched)).all id
    else if key = "any" then (results.map (·.matched)).any id
    else !(results.map (·.matched)).any id) = b
  dsimp only at hconstant
  generalize results.map (·.matched) = matches' at hsettled huniform ⊢
  -- one lemma for a conjunction and one for a disjunction
  have hall : ∀ c, (if values.any (· = some false) then some false
      else if values.all (· = some true) then some true else none) = some c → matches'.all id = c := by
    intro c hc
    split_ifs at hc with hfalse htrue
    · obtain rfl := Option.some.inj hc
      exact List.all_eq_false.mpr ⟨false, hsettled false hfalse, Bool.false_ne_true⟩
    · obtain rfl := Option.some.inj hc
      exact List.all_eq_true.mpr (huniform true htrue)
  have hany : ∀ c, (if values.any (· = some true) then some true
      else if values.all (· = some false) then some false else none) = some c → matches'.any id = c := by
    intro c hc
    split_ifs at hc with htrue hfalse
    · obtain rfl := Option.some.inj hc
      exact List.any_eq_true.mpr ⟨true, hsettled true htrue, rfl⟩
    · obtain rfl := Option.some.inj hc
      refine List.any_eq_false.mpr fun m hm => ?_
      rw [huniform false hfalse m hm]
      exact Bool.false_ne_true
  by_cases hkeyAll : key = "all"
  · rw [if_pos hkeyAll] at hconstant ⊢
    exact hall b hconstant
  · rw [if_neg hkeyAll] at hconstant ⊢
    by_cases hkeyAny : key = "any"
    · rw [if_pos hkeyAny] at hconstant ⊢
      exact hany b hconstant
    · rw [if_neg hkeyAny] at hconstant ⊢
      -- none is the negation of any
      split_ifs at hconstant with hkeyNone htrue hfalse
      · rw [hany true (if_pos htrue)]
        exact Option.some.inj hconstant
      · rw [hany false (by rw [if_neg htrue, if_pos hfalse])]
        exact Option.some.inj hconstant

end Constants

/-! ## Trees -/

section Trees

variable {re : Re} {floats : Floats} {context : Dict}

/-- Constant values agree with the results, one by one. -/
theorem evaluateNodes_agree {children : List Json}
    (h : ∀ child ∈ children, ∀ path r, evaluateNode re floats context child path = .ok r →
      AgreesWith (constantConditionValue child) r) {path : String} {index : ℕ}
    {results : List ConditionResult}
    (hresults : evaluateNodes re floats context children path index = .ok results) :
    List.Forall₂ AgreesWith (constantConditionValues children) results := by
  induction children generalizing index results with
  | nil =>
    rw [evaluateNodes] at hresults
    cases hresults
    exact .nil
  | cons child children ih =>
    rw [evaluateNodes] at hresults
    obtain ⟨r, hr, hresults⟩ := bind_eq_ok.mp hresults
    obtain ⟨rest, hrest, hresults⟩ := bind_eq_ok.mp hresults
    cases hresults
    exact .cons (h child List.mem_cons_self _ r hr)
      (ih (fun c hc => h c (List.mem_cons_of_mem _ hc)) hrest)

/-- A leaf has no constant. -/
theorem constant_of_leaf {key : String} {child : Json} {rest : Dict}
    (h : logicalKeys.any (Dict.has ((key, child) :: rest) ·) = false) :
    constantConditionValue (.obj ((key, child) :: rest)) = none := by
  cases rest with
  | cons => rfl
  | nil =>
    have hkeys : key ≠ "all" ∧ key ≠ "any" ∧ key ≠ "none" := by
      refine ⟨?_, ?_, ?_⟩ <;> rintro rfl <;> simp [logicalKeys, Dict.has] at h
    rw [constantConditionValue]
    cases child with
    | list children =>
      rw [constantChildren, constantOf]
      simp [hkeys]
    | null | bool | int | float | str | obj => rfl

/-- **The evaluator agrees with the constant of a node.** -/
theorem node_agrees {node : Json} (h : ValidNode re node) {path : String} {r : ConditionResult}
    (hr : evaluateNode re floats context node path = .ok r) :
    AgreesWith (constantConditionValue node) r := by
  induction h generalizing path r with
  | catchAll =>
    rw [evaluateNode] at hr
    cases hr
    intro b hb
    rw [constantConditionValue] at hb
    exact Option.some.inj hb
  -- a group folds its children, whose constants are those of their results
  | @group key children hlogical _ ih =>
    unfold evaluateNode at hr
    rw [if_pos hlogical] at hr
    dsimp only at hr
    cases hresults : evaluateNodes re floats context children (path ++ "." ++ key) 0 with
    | error e =>
      rw [hresults] at hr
      cases hr
    | ok results =>
      rw [hresults] at hr
      cases hr
      rw [constantConditionValue, constantChildren]
      exact groupResult_agrees (evaluateNodes_agree (fun c hc path r => ih c hc) hresults)
  -- a leaf is never constant
  | leaf hlogical _ =>
    rw [constant_of_leaf hlogical]
    intro b hb
    cases hb

/-- The condition matches in the context. -/
def Matches (re : Re) (floats : Floats) (context : Dict) (tree : Json) : Prop :=
  ∃ r, evaluateConditionTree re floats context tree = .ok r ∧ r.matched = true

/-- A constant that is found is what the tree evaluates to. -/
theorem matched_of_constant {tree : Json} {r : ConditionResult}
    (hr : evaluateConditionTree re floats context tree = .ok r) :
    AgreesWith (constantConditionValue tree) r := by
  obtain ⟨issues, hissues, hr⟩ := bind_eq_ok.mp hr
  split at hr
  · exact node_agrees (valid_of_no_issue hissues) hr
  · cases hr

/-- A condition with the constant true matches unless one of its leaves raises, and one with the
constant false does not match. -/
theorem constant_sound_iff {tree : Json} (h : validateConditionTree re tree = .ok []) :
    ((constantConditionValue tree = some true → Matches re floats context tree) ∧
      (constantConditionValue tree = some false → ¬Matches re floats context tree)) ↔
    (constantConditionValue tree = some true → ∀ leaf ∈ leaves tree, ¬Raises context leaf) := by
  constructor
  · rintro ⟨htrue, -⟩ hconstant
    obtain ⟨r, hr, -⟩ := htrue hconstant
    exact (evaluate_ok_iff h).mp ⟨r, hr⟩
  · intro hleaves
    refine ⟨fun hconstant => ?_, ?_⟩
    · obtain ⟨r, hr⟩ := (evaluate_ok_iff h).mpr (hleaves hconstant)
      exact ⟨r, hr, matched_of_constant hr true hconstant⟩
    · rintro hconstant ⟨r, hr, hmatched⟩
      exact Bool.noConfusion (hmatched.symm.trans (matched_of_constant hr false hconstant))

end Trees

/-! ## Rules that drop every event -/

section Rules

/-- A rule that the engine can come to: it is enabled, and so is each rule above it. -/
inductive Live : List (Rose RuleColumns) → RuleColumns → Prop
  | here {rules : List (Rose RuleColumns)} {columns : RuleColumns}
      {children : List (Rose RuleColumns)} (hrule : .node columns children ∈ rules)
      (henabled : columns.enabled = true) : Live rules columns
  | under {rules : List (Rose RuleColumns)} {columns : RuleColumns}
      {children : List (Rose RuleColumns)} {c : RuleColumns} (hrule : .node columns children ∈ rules)
      (henabled : columns.enabled = true) (hbelow : Live children c) : Live rules c

def drops (c : RuleColumns) : Bool := (actionList c.actions).any (hasType "drop")

/-- One rule that drops all is enough. -/
theorem rulesDropAll_of_mem {rules : List (Rose RuleColumns)} {rule : Rose RuleColumns}
    (hrule : rule ∈ rules) (h : ruleDropsAll rule = true) : rulesDropAll rules = true := by
  induction rules with
  | nil => cases hrule
  | cons first rules ih =>
    rw [rulesDropAll, Bool.or_eq_true]
    rcases List.mem_cons.mp hrule with rfl | hrest
    · exact .inl h
    · exact .inr (ih hrest)

/-- The check comes to each live rule. -/
theorem rulesDropAll_of_live {rules : List (Rose RuleColumns)} {c : RuleColumns} (h : Live rules c)
    (hconstant : constantConditionValue c.conditionTree = some true) (hdrops : drops c = true) :
    rulesDropAll rules = true := by
  induction h with
  | here hrule henabled =>
    refine rulesDropAll_of_mem hrule ?_
    rw [ruleDropsAll, henabled, hconstant]
    exact Bool.or_eq_true _ _ |>.mpr (.inl hdrops)
  | under hrule henabled _ ih =>
    refine rulesDropAll_of_mem hrule ?_
    rw [ruleDropsAll, henabled, ih hconstant hdrops, Bool.or_true]
    rfl

/-- A condition that is built from empty ones. -/
inductive EmptyBuilt : Json → Prop
  | catchAll : EmptyBuilt (.obj [])
  | group {key : String} {children : List Json} (hkey : key ∈ logicalKeys)
      (hchildren : ∀ child ∈ children, EmptyBuilt child) : EmptyBuilt (.obj [(key, .list children)])

/-- Where no constant is settled one way, all are settled the other way. -/
theorem all_of_none_settled {values : List (Option Bool)} (h : ∀ value ∈ values, value.isSome = true)
    {b : Bool} (hnone : ¬values.any (· = some b) = true) : values.all (· = some !b) = true := by
  refine List.all_eq_true.mpr fun value hvalue => decide_eq_true ?_
  have hne : value ≠ some b := fun heq =>
    hnone (List.any_eq_true.mpr ⟨value, hvalue, decide_eq_true heq⟩)
  obtain ⟨c, rfl⟩ := Option.isSome_iff_exists.mp (h value hvalue)
  exact congrArg some (Bool.eq_not_of_ne fun hc => hne (congrArg some hc))

/-- Where each condition is constant the group is. -/
theorem constantOf_isSome {key : String} (hkey : key ∈ logicalKeys) {values : List (Option Bool)}
    (h : ∀ value ∈ values, value.isSome = true) : (constantOf key values).isSome = true := by
  have hall : ∀ b c d, (if values.any (· = some b) = true then some c
      else if values.all (· = some !b) = true then some d else none : Option Bool).isSome = true := by
    intro b c d
    by_cases hsettled : values.any (· = some b) = true
    · rw [if_pos hsettled]
      rfl
    · rw [if_neg hsettled, if_pos (all_of_none_settled h hsettled)]
      rfl
  unfold constantOf
  dsimp only
  rcases List.mem_cons.mp hkey with rfl | hkey
  · exact hall false false true
  rcases List.mem_cons.mp hkey with rfl | hkey
  · exact hall true true false
  · obtain rfl := List.mem_singleton.mp hkey
    exact hall true false true

/-- Each value is that of a condition. -/
theorem mem_constantConditionValues {children : List Json} {value : Option Bool}
    (h : value ∈ constantConditionValues children) :
    ∃ child ∈ children, constantConditionValue child = value := by
  induction children with
  | nil => cases h
  | cons child children ih =>
    rw [constantConditionValues] at h
    rcases List.mem_cons.mp h with rfl | hrest
    · exact ⟨child, List.mem_cons_self, rfl⟩
    · obtain ⟨c, hc, hvalue⟩ := ih hrest
      exact ⟨c, List.mem_cons_of_mem _ hc, hvalue⟩

/-- What is built from empty conditions has a constant. -/
theorem constant_of_emptyBuilt {tree : Json} (h : EmptyBuilt tree) :
    (constantConditionValue tree).isSome = true := by
  induction h with
  | catchAll => rfl
  | @group key children hkey _ ih =>
    rw [constantConditionValue, constantChildren]
    refine constantOf_isSome hkey fun value hvalue => ?_
    obtain ⟨child, hchild, rfl⟩ := mem_constantConditionValues hvalue
    exact ih child hchild

/-- The rules of a definition drop no event that only empty conditions lead to. -/
def NoEmptyDrop (re : Re) (floats : Floats) (rules : List (Rose RuleColumns)) : Prop :=
  ∀ c, Live rules c → drops c = true → EmptyBuilt c.conditionTree →
    ∀ context, ¬Matches re floats context c.conditionTree

/-- Without a constant there is no rule that drops all. -/
theorem noEmptyDrop (re : Re) (floats : Floats) {rules : List (Rose RuleColumns)}
    (h : rulesDropAll rules = false) : NoEmptyDrop re floats rules := by
  rintro c hlive hdrops hempty context ⟨r, hr, hmatched⟩
  obtain ⟨b, hb⟩ := Option.isSome_iff_exists.mp (constant_of_emptyBuilt hempty)
  -- a rule with the constant true is refused, one with the constant false does not match
  cases b with
  | true =>
    rw [rulesDropAll_of_live hlive hb hdrops] at h
    cases h
  | false => exact Bool.noConfusion (hmatched.symm.trans (matched_of_constant hr false hb))

end Rules

/-! ## Publications -/

namespace Repository

/-- A publication without the confirmation of a catch-all drop. -/
def Request.Unconfirmed : Request → Prop
  | .publishDraft _ _ confirm _ => confirm = false
  | .rollbackToVersion _ _ _ confirm _ => confirm = false
  | _ => False

section Publications

variable {s t : Repository} {checks : Validators} {v : EventOrchestrationVersion}

/-- What was published without a confirmation drops not all. -/
theorem not_dropAll_of_publishVersionLocked {o : EventOrchestration} {d : EventOrchestrationVersion}
    {comment : Option String} {now : ℕ}
    (h : s.publishVersionLocked checks o d comment false now = .ok (t, v)) :
    rulesDropAll (t.rules.forest v.id) = false := by
  obtain ⟨_, _, h⟩ := bind_eq_ok.mp h
  obtain ⟨_, _, h⟩ := bind_eq_ok.mp h
  dsimp only at h
  obtain ⟨_, _, h⟩ := bind_eq_ok.mp h
  obtain ⟨_, hdrop, h⟩ := bind_eq_ok.mp h
  obtain ⟨_, _, h⟩ := bind_eq_ok.mp h
  obtain ⟨w, hw, h⟩ := bind_eq_ok.mp h
  obtain ⟨rfl, rfl⟩ := Prod.mk.inj (Except.ok.inj h)
  -- the publication leaves the rules of the draft as they are
  rw [(getVersion_ok hw).2]
  change rulesDropAll (s.rules.forest d.id) = false
  simpa using hdrop

theorem not_dropAll_of_unconfirmed {request : Request} (hunconfirmed : request.Unconfirmed)
    (h : s.handle checks request = .ok (t, v)) : rulesDropAll (t.rules.forest v.id) = false := by
  -- only a publication and a rollback put rules in force; every other request carries the rules
  -- over
  cases request with
  | publishDraft o comment confirm now =>
    obtain rfl : confirm = false := hunconfirmed
    obtain ⟨row, _, h⟩ := bind_eq_ok.mp h
    cases hdraft : s.getDraft o with
    | none =>
      rw [hdraft] at h
      cases h
    | some d =>
      rw [hdraft] at h
      exact not_dropAll_of_publishVersionLocked h
  | rollbackToVersion o source comment confirm now =>
    obtain rfl : confirm = false := hunconfirmed
    obtain ⟨row, _, h⟩ := bind_eq_ok.mp h
    obtain ⟨w, _, h⟩ := bind_eq_ok.mp h
    obtain ⟨_, _, h⟩ := bind_eq_ok.mp h
    obtain ⟨_, _, h⟩ := bind_eq_ok.mp h
    obtain ⟨_, _, h⟩ := bind_eq_ok.mp h
    dsimp only at h
    -- the rollback saves the old definition first and then publishes it
    obtain ⟨s', _, h⟩ := bind_eq_ok.mp h
    exact not_dropAll_of_publishVersionLocked h
  | getOrCreateDraft | replaceDraftRules | saveDraftDefinition | archiveDraft => exact hunconfirmed.elim

end Publications

end Repository

/-! ## Main results -/

/-- **The constants are sound except where a leaf raises**, and what is published without a
confirmation drops no event that only empty conditions lead to. -/
theorem catchAll_sound_iff (re : Re) (floats : Floats) {tree : Json}
    (h : validateConditionTree re tree = .ok []) (checks : Validators) :
    (∀ context, ((constantConditionValue tree = some true → Matches re floats context tree) ∧
        (constantConditionValue tree = some false → ¬Matches re floats context tree)) ↔
      (constantConditionValue tree = some true → ∀ leaf ∈ leaves tree, ¬Raises context leaf)) ∧
    ∀ (s : Repository) (request : Repository.Request) t v, request.Unconfirmed →
      s.handle checks request = .ok (t, v) → NoEmptyDrop re floats (t.rules.forest v.id) :=
  ⟨fun _ => constant_sound_iff h, fun _ _ _ _ hunconfirmed hv =>
    noEmptyDrop re floats (Repository.not_dropAll_of_unconfirmed hunconfirmed hv)⟩

/-- The labels contain a list, or the event is any. -/
def catchAllTree : Json :=
  .obj [("any", .list [.obj [("field", .str "event.labels"), ("operator", .str "contains"),
    ("value", .list [.str "dba"])], .obj []])]

def listContext : Dict := [("event", .obj [("labels", .list [.list [.str "dba"]])])]

def objectContext : Dict := [("event", .obj [("labels", .obj [("owner", .str "dba")])])]

/-- No event is not any event. -/
def impossible : Json := .obj [("none", .list [.obj []])]

theorem impossible_emptyBuilt : EmptyBuilt impossible := by
  refine @EmptyBuilt.group "none" [.obj []] (by decide) fun child hchild => ?_
  obtain rfl := List.mem_singleton.mp hchild
  exact .catchAll

/-- A rule that drops where its condition matches. -/
def dropWhere (condition : Json) : Json :=
  .obj [("condition_tree", condition), ("actions", .list [.obj [("type", .str "drop")]])]

/-- A draft with that rule. -/
def draftOf (condition : Json) : Repository :=
  Repository.oneOrchestration.next Repository.noMessages
    (.saveDraftDefinition 1 [dropWhere condition] none)

/-- On an event whose labels are a list the condition matches; a rule that drops on an empty
condition that never matches is published without a confirmation. -/
theorem catchAll_sound_sample :
    (Matches plainRe plainFloats listContext catchAllTree ∧
      ∀ leaf ∈ leaves catchAllTree, ¬Raises listContext leaf) ∧
    ∃ t v, (draftOf impossible).handle Repository.noMessages (.publishDraft 1 none false 10) =
        .ok (t, v) ∧
      (t.rules.forest v.id).any (fun
        | .node c _ => c.enabled && drops c && c.conditionTree = impossible) = true ∧
      EmptyBuilt impossible ∧ NoEmptyDrop plainRe plainFloats (t.rules.forest v.id) := by
  have hvalid : validateConditionTree plainRe catchAllTree = .ok [] := by decide +kernel
  have hconstant : constantConditionValue catchAllTree = some true := by decide +kernel
  -- the theorem at the tree, and at a publication that confirms nothing
  obtain ⟨hconstants, hpublished⟩ :=
    catchAll_sound_iff plainRe plainFloats hvalid Repository.noMessages
  refine ⟨?_, ?_⟩
  · have hmatches : Matches plainRe plainFloats listContext catchAllTree := by
      obtain ⟨r, hr⟩ := ok_of_isSome
        (x := evaluateConditionTree plainRe plainFloats listContext catchAllTree) (by decide +kernel)
      exact ⟨r, hr, matched_of_constant hr true hconstant⟩
    refine ⟨hmatches, (hconstants listContext).mp ⟨fun _ => hmatches, fun hfalse => ?_⟩ hconstant⟩
    rw [hconstant] at hfalse
    cases hfalse
  -- the publication goes through, since its rules do not drop everything
  · obtain ⟨⟨t, v⟩, hhandle, hread⟩ := ok_of_any
      (x := (draftOf impossible).handle Repository.noMessages (.publishDraft 1 none false 10))
      (p := fun r => (r.1.rules.forest r.2.id).any (fun
        | .node c _ => c.enabled && drops c && c.conditionTree = impossible)) (by decide +kernel)
    exact ⟨t, v, hhandle, hread, impossible_emptyBuilt,
      hpublished (draftOf impossible) (.publishDraft 1 none false 10) t v rfl hhandle⟩

/-- **On an event whose labels are an object the condition with the constant true raises.** -/
theorem catchAll_object_raises : ¬∀ (re : Re) (floats : Floats) (context : Dict) (tree : Json),
    validateConditionTree re tree = .ok [] →
      (constantConditionValue tree = some true → Matches re floats context tree) ∧
      (constantConditionValue tree = some false → ¬Matches re floats context tree) := by
  intro h
  obtain ⟨r, hr, -⟩ := (h plainRe plainFloats objectContext catchAllTree (by decide +kernel)).1
    (by decide +kernel)
  have hraises : (evaluateConditionTree plainRe plainFloats objectContext catchAllTree).toOption.isSome =
      false := by decide +kernel
  rw [hr] at hraises
  cases hraises

end IncidentRelay.Orchestration
