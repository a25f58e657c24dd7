import IncidentRelay.Orchestration.Trace
import IncidentRelay.Redaction

/-!
# Validated rule trees

`_validate_rules` bounds the depth of a definition, the number of its rules and the
actions of each. The trace of a definition within these bounds has bounds of its own
(`traceLevel_fits`): on its lists, and on the texts of its paths.
-/

namespace IncidentRelay.Orchestration

open Redaction

/-- `MAX_RULE_DEPTH` -/
def maxRuleDepth : ℕ := 20

/-- `MAX_RULE_NODES` -/
def maxRuleNodes : ℕ := 512

/-- `MAX_ACTIONS_PER_RULE` -/
def maxActionsPerRule : ℕ := 128

section Validation

variable {L : Language}

mutual
/-- A rule of `_validate_rules(…)`, behind a number of nodes: the nodes with it, or the
error. -/
def validateRule (depth nodes : ℕ) : Rule L → Option ℕ
  | .mk _ _ _ actions children =>
    if maxRuleNodes < nodes + 1 then none
    else if maxActionsPerRule < actions.length then none
    else if maxRuleDepth < depth + 1 then none
    else validateLevel (depth + 1) (nodes + 1) children

/-- The loop of `_validate_rules(rules, depth=…)`. -/
def validateLevel (depth nodes : ℕ) : List (Rule L) → Option ℕ
  | [] => some nodes
  | rule :: rules => (validateRule depth nodes rule).bind fun nodes =>
    validateLevel depth nodes rules
end

/-- `_validate_rules(rules)` raises no error about the size of the definition. -/
def Validated (rules : List (Rule L)) : Prop := (validateLevel 0 0 rules).isSome

instance (rules : List (Rule L)) : Decidable (Validated rules) :=
  inferInstanceAs (Decidable ((validateLevel 0 0 rules).isSome = true))

/-- What the check of a rule says of it. -/
structure RuleValid (depth nodes : ℕ) (rule : Rule L) (n : ℕ) : Prop where
  counted : nodes < maxRuleNodes
  actions : rule.actions.length ≤ maxActionsPerRule
  shallow : depth < maxRuleDepth
  children : validateLevel (depth + 1) (nodes + 1) rule.children = some n

/-- A rule that is accepted is within the limits. -/
theorem validateRule_spec {depth nodes n : ℕ} {rule : Rule L}
    (h : validateRule depth nodes rule = some n) : RuleValid depth nodes rule n := by
  obtain ⟨enabled, mode, condition, actions, children⟩ := rule
  rw [validateRule] at h
  split at h
  · cases h
  · split at h
    · cases h
    · split at h
      · cases h
      · exact ⟨by omega, by show actions.length ≤ _; omega, by omega, h⟩

mutual
theorem validateRule_counts {depth nodes n : ℕ} :
    ∀ rule : Rule L, validateRule depth nodes rule = some n → nodes < n ∧ n ≤ maxRuleNodes
  | .mk enabled mode condition actions children => by
    intro h
    have hvalid := validateRule_spec h
    have hcounts := validateLevel_counts children hvalid.counted hvalid.children
    omega

/-- Each rule of a level is counted, and the count is within its bound. -/
theorem validateLevel_counts {depth nodes n : ℕ} :
    ∀ rules : List (Rule L), nodes ≤ maxRuleNodes → validateLevel depth nodes rules = some n →
      nodes + rules.length ≤ n ∧ n ≤ maxRuleNodes
  | [] => by
    intro hnodes h
    cases h
    exact ⟨le_rfl, hnodes⟩
  | rule :: rules => by
    intro hnodes h
    obtain ⟨m, hrule, hrest⟩ := Option.bind_eq_some_iff.mp h
    have hfirst := validateRule_counts rule hrule
    have hothers := validateLevel_counts rules hfirst.2 hrest
    rw [List.length_cons]
    omega
end

/-! ## The trace -/

/-- The text of a path is kept by the trace as it is. -/
structure PathFits (path : String) : Prop where
  plain : Plain path.toList
  short : path.length ≤ 2048

mutual
/-- The lists and the path of an entry, and of those below it. -/
def RuleTrace.Fits : RuleTrace L → Prop
  | .mk path _ _ steps children =>
    PathFits path ∧ steps.length ≤ maxActionsPerRule ∧ children.length ≤ maxRuleNodes ∧
      RulesFit children

def RulesFit : List (RuleTrace L) → Prop
  | [] => True
  | trace :: traces => trace.Fits ∧ RulesFit traces
end

/-- A step that returned is in front of the others. -/
theorem withStep_eq {step : ActionStep L} {steps : List (ActionStep L)}
    {rest : Except PyError (List (ActionStep L) × EventActionState × Outcome)}
    {s : EventActionState} {outcome : Outcome}
    (h : withStep L step rest = .ok (steps, s, outcome)) :
    ∃ others, rest = .ok (others, s, outcome) ∧ steps = step :: others := by
  cases rest with
  | error e => cases h
  | ok r =>
    obtain ⟨others, left⟩ := r
    cases h
    exact ⟨others, rfl, rfl⟩

/-- There is at most one step for each action. -/
theorem length_traceActions {actions : List (Action L)} :
    ∀ {index : ℕ} {state s : EventActionState} {steps : List (ActionStep L)} {outcome : Outcome},
      traceActions L index state actions = .ok (steps, s, outcome) →
      steps.length ≤ actions.length := by
  induction actions with
  | nil =>
    intro index state s steps outcome h
    cases h
    exact le_rfl
  | cons action actions ih =>
    intro index state s steps outcome h
    -- the step of the action, and those of the rest where it goes on
    have hsteps : (∃ step, steps = [step]) ∨ ∃ step others t,
        traceActions L (index + 1) t actions = .ok (others, s, outcome) ∧
          steps = step :: others := by
      cases action with
      | extract extractor =>
        rw [traceActions] at h
        split at h
        · cases h
        · dsimp only at h
          split at h
          · obtain ⟨others, hothers, rfl⟩ := withStep_eq h
            exact .inr ⟨_, _, _, hothers, rfl⟩
          · cases h
            exact .inl ⟨_, rfl⟩
      | run body onFailure =>
        rw [traceActions] at h
        split at h
        · cases h
          exact .inl ⟨_, rfl⟩
        · obtain ⟨others, hothers, rfl⟩ := withStep_eq h
          exact .inr ⟨_, _, _, hothers, rfl⟩
        · dsimp only at h
          split at h
          · obtain ⟨others, hothers, rfl⟩ := withStep_eq h
            exact .inr ⟨_, _, _, hothers, rfl⟩
          · cases h
            exact .inl ⟨_, rfl⟩
        · cases h
    rcases hsteps with ⟨step, rfl⟩ | ⟨step, others, t, hothers, rfl⟩
    · simp
    · have hlength := ih hothers
      simp only [List.length_cons]
      omega

/-- There is at most one entry for each rule of a level. -/
theorem length_traceLevel {rules : List (Rule L)} :
    ∀ {state t : EventActionState} {path : String} {index : ℕ} {traces : List (RuleTrace L)}
      {stopped : Bool}, traceLevel L state path index rules = .ok (traces, t, stopped) →
      traces.length ≤ rules.length := by
  induction rules with
  | nil =>
    intro state t path index traces stopped h
    cases h
    exact le_rfl
  | cons rule rules ih =>
    intro state t path index traces stopped h
    rw [traceLevel] at h
    -- one trace for each rule read, the last one included that halts
    obtain ⟨⟨trace, s, halted⟩, hrule, h⟩ := bind_eq_ok.mp h
    cases halted with
    | true =>
      cases h
      simp
    | false =>
      obtain ⟨⟨others, u, halted⟩, hothers, h⟩ := bind_eq_ok.mp h
      cases h
      have hlength := ih hothers
      simp only [List.length_cons]
      omega

/-- The trace of a rule keeps its path. -/
theorem closeRule_trace (path : String) (rule : Rule L) (steps : List (ActionStep L))
    (traces : List (RuleTrace L)) (state : EventActionState) (stopped : Bool) :
    ∃ code, (closeRule L path rule steps (traces, state, stopped)).1 =
      .mk path rule code steps traces := by
  cases stopped with
  | true => exact ⟨_, rfl⟩
  | false =>
    unfold closeRule
    dsimp only
    split
    · exact ⟨_, rfl⟩
    · split <;> exact ⟨_, rfl⟩

/-! ## Paths -/

/-- The digits of the index of a rule. -/
theorem index_digits {index : ℕ} (h : index < maxRuleNodes) :
    (Nat.toDigits 10 index).length ≤ 3 ∧ Plain (Nat.toDigits 10 index) := by
  constructor
  · exact (Nat.length_toDigits_le_iff (by omega) (by omega)).mpr (by
      unfold maxRuleNodes at h
      omega)
  · intro c hc hmark
    have hdigit := Nat.isDigit_of_mem_toDigits (by omega) (by omega) hc
    have hnone : ∀ m ∈ marks, m.isDigit = false := by simp [marks]
    rw [hnone c hmark] at hdigit
    cases hdigit

/-- Two texts without a mark of a secret. -/
theorem plain_append {xs ys : List Char} (hx : Plain xs) (hy : Plain ys) : Plain (xs ++ ys) := by
  intro c hc
  rcases List.mem_append.mp hc with hc | hc
  · exact hx c hc
  · exact hy c hc

theorem toList_toString (n : ℕ) : (toString n).toList = Nat.toDigits 10 n := by
  show (Nat.repr n).toList = _
  rw [Nat.repr_eq_ofList_toDigits, String.toList_ofList]

/-- The path of a level of the tree. -/
structure LevelPath (depth : ℕ) (path : String) : Prop where
  plain : Plain path.toList
  short : path.length ≤ 5 + 14 * depth

/-- The path of a rule is short and plain. -/
theorem LevelPath.rule {depth index : ℕ} {path : String} (h : LevelPath depth path)
    (hindex : index < maxRuleNodes) :
    Plain (path ++ "[" ++ toString index ++ "]").toList ∧
      (path ++ "[" ++ toString index ++ "]").length ≤ 10 + 14 * depth := by
  have hdigits := index_digits hindex
  constructor
  · rw [String.toList_append, String.toList_append, String.toList_append, toList_toString]
    exact plain_append (plain_append (plain_append h.plain (by decide)) hdigits.2) (by decide)
  · have hlength : (toString index).length = (Nat.toDigits 10 index).length := by
      rw [← String.length_toList, toList_toString]
    have hshort := h.short
    rw [String.length_append, String.length_append, String.length_append, hlength]
    have hopen : "[".length = 1 := by decide
    have hclose : "]".length = 1 := by decide
    omega

theorem LevelPath.children {depth index : ℕ} {path : String} (h : LevelPath depth path)
    (hindex : index < maxRuleNodes) :
    LevelPath (depth + 1) (path ++ "[" ++ toString index ++ "]" ++ ".children") := by
  obtain ⟨hplain, hshort⟩ := h.rule hindex
  have hname : ".children".length = 9 := by decide
  refine ⟨?_, ?_⟩
  · rw [String.toList_append]
    exact plain_append hplain (by decide)
  · rw [String.length_append, hname]
    omega

/-! ## Within the bounds -/

mutual
/-- **The trace of a valid rule fits** into what is kept. By induction on the tree. -/
theorem traceRule_fits {depth index nodes n : ℕ} {state t : EventActionState} {path : String}
    {trace : RuleTrace L} {stopped : Bool} (hpath : LevelPath depth path)
    (hindex : index ≤ nodes) : ∀ rule : Rule L, validateRule depth nodes rule = some n →
      traceRule L state (path ++ "[" ++ toString index ++ "]") rule = .ok (trace, t, stopped) →
      trace.Fits
  | .mk enabled mode condition actions children => by
    intro hvalid htrace
    -- what the validator has counted bounds the trace, as it counts the children too
    have hrule := validateRule_spec hvalid
    have hnode : index < maxRuleNodes := hindex.trans_lt hrule.counted
    have hown := hpath.rule hnode
    have hfits : PathFits (path ++ "[" ++ toString index ++ "]") := by
      have hdepth := hrule.shallow
      unfold maxRuleDepth at hdepth
      exact ⟨hown.1, by omega⟩
    have hempty : RulesFit ([] : List (RuleTrace L)) := by
      rw [RulesFit]
      trivial
    -- a rule that is not entered leaves no trace below it
    cases traceRule_ends htrace with
    | disabled _ =>
      rw [RuleTrace.Fits]
      exact ⟨hfits, Nat.zero_le _, Nat.zero_le _, hempty⟩
    | unmatched _ _ =>
      rw [RuleTrace.Fits]
      exact ⟨hfits, Nat.zero_le _, Nat.zero_le _, hempty⟩
    | halted _ _ hactions =>
      rw [RuleTrace.Fits]
      exact ⟨hfits, (length_traceActions hactions).trans hrule.actions, Nat.zero_le _, hempty⟩
    | @closed steps s t outcome traces stopped _ _ hactions _ hchildren =>
      obtain ⟨code, htrace⟩ := closeRule_trace (path ++ "[" ++ toString index ++ "]")
        (.mk enabled mode condition actions children) steps traces t stopped
      rw [htrace, RuleTrace.Fits]
      -- the children are validated one level further down
      refine ⟨hfits, (length_traceActions hactions).trans hrule.actions, ?_⟩
      unfold traceChildren at hchildren
      split at hchildren
      · have hcounts := validateLevel_counts children hrule.counted hrule.children
        have hlength := length_traceLevel hchildren
        change traces.length ≤ children.length at hlength
        exact ⟨by omega, traceLevel_fits (hpath.children hnode) (Nat.zero_le _) children
          hrule.children hchildren⟩
      · cases hchildren
        exact ⟨Nat.zero_le _, hempty⟩

/-- **The trace of a validated level is within its bounds.** -/
theorem traceLevel_fits {depth index nodes n : ℕ} {state t : EventActionState} {path : String}
    {traces : List (RuleTrace L)} {stopped : Bool} (hpath : LevelPath depth path)
    (hindex : index ≤ nodes) : ∀ rules : List (Rule L),
      validateLevel depth nodes rules = some n →
      traceLevel L state path index rules = .ok (traces, t, stopped) → RulesFit traces
  | [] => by
    intro _ h
    cases h
    rw [RulesFit]
    trivial
  | rule :: rules => by
    intro hvalid h
    obtain ⟨m, hrule, hrest⟩ := Option.bind_eq_some_iff.mp hvalid
    have hcounts := validateRule_counts rule hrule
    rw [traceLevel] at h
    obtain ⟨⟨trace, s, halted⟩, htrace, h⟩ := bind_eq_ok.mp h
    have hfirst := traceRule_fits hpath hindex rule hrule htrace
    -- a halted rule ends the list, otherwise the count goes on with the next index
    cases halted with
    | true =>
      cases h
      rw [RulesFit, RulesFit]
      exact ⟨hfirst, trivial⟩
    | false =>
      obtain ⟨⟨others, u, halted⟩, hothers, h⟩ := bind_eq_ok.mp h
      cases h
      rw [RulesFit]
      exact ⟨hfirst, traceLevel_fits hpath (by omega) rules hrest hothers⟩
end

end Validation

end IncidentRelay.Orchestration
