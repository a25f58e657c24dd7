import IncidentRelay.Lib.Result
import IncidentRelay.Orchestration.Runtime

/-!
# Failures of an orchestration are contained

A failure of an orchestration is an error raised while its rules are evaluated,
or a selection that its group does not have. `_evaluate_orchestrations` handles
both: the loop keeps what was accumulated, or the result is blocked. What it does
not handle is the copy of the candidate's whole context, whose limits are those
that each part of the event was held to on its own.

* `contained_iff` — a run contains its failures exactly when every orchestration
  that is applied leaves a context within the limits of `_json_copy`;
* `deep_payload_escapes` — a payload that passes on its own and not as a part.
-/

namespace IncidentRelay.Orchestration

open Json

variable {L : Language}

/-! ## What a run reaches -/

section Reach

variable (env : Env L) (groupId : Id) (source : Option String)

/-- The loop over a list comes to an orchestration in a state. -/
inductive Reaches : List (Orchestration L) → Loop → Orchestration L → Loop → Prop where
  | here {o : Orchestration L} {os : List (Orchestration L)} {s : Loop} :
      o.skipped = false → Reaches (o :: os) s o s
  | skip {o o' : Orchestration L} {os : List (Orchestration L)} {s t : Loop} :
      o.skipped = true → Reaches os s o' t → Reaches (o :: os) s o' t
  | later {o o' : Orchestration L} {os : List (Orchestration L)} {s s' t : Loop} :
      o.skipped = false → evaluateOne env groupId source o s = .ok (s', .proceed) →
      Reaches os s' o' t → Reaches (o :: os) s o' t

/-- The loop state of the chain when it turns to its service. -/
def enterService (s : Loop) (service : Service) : Loop :=
  { s with runtime := { s.runtime with
      evaluatedServiceIds := s.runtime.evaluatedServiceIds ++ [service.id] } }

/-- The orchestrations of a service. -/
def serviceOrchestrations (service : Service) : List (Orchestration L) :=
  listRuntimeOrchestrations env groupId .service (some service.id)

/-- The chain turns to this service. -/
def Enters (s : Loop) (service : Service) : Prop :=
  s.service = some service ∧ s.runtime.blocked = false ∧
    service.id ∉ s.runtime.evaluatedServiceIds

/-- The chain of service orchestrations comes to an orchestration in a state. -/
inductive ReachesInChain : Nat → Loop → Orchestration L → Loop → Prop where
  | here {left : Nat} {s t : Loop} {service : Service} {o : Orchestration L} :
      Enters s service →
      Reaches env groupId source (serviceOrchestrations env groupId service)
        (enterService s service) o t →
      ReachesInChain (left + 1) s o t
  | later {left : Nat} {s s' t : Loop} {service : Service} {o : Orchestration L} :
      Enters s service →
      evaluateOrchestrations env groupId source (serviceOrchestrations env groupId service)
        (enterService s service) = .ok s' →
      ReachesInChain left s' o t → ReachesInChain (left + 1) s o t

/-- The global loop or the chain comes to an orchestration in a state. -/
inductive ReachesInLoop : Loop → Orchestration L → Loop → Prop where
  | global {s t : Loop} {o : Orchestration L} :
      Reaches env groupId source (listRuntimeOrchestrations env groupId .global none) s o t →
      ReachesInLoop s o t
  | chain {s s' t : Loop} {o : Orchestration L} :
      evaluateOrchestrations env groupId source
        (listRuntimeOrchestrations env groupId .global none) s = .ok s' →
      s'.runtime.blocked = false →
      ReachesInChain env groupId source maxServiceHandoffs s' o t →
      ReachesInLoop s o t

end Reach

/-- The run of an event starts a loop. -/
def Starts (env : Env L) (alertData : Dict) (groupId : Id) (s : Loop) : Prop :=
  ∃ route team service, groupIdFromAlert env.db alertData = some groupId ∧
    initialEntities env.db alertData groupId = .ok (route, team, service) ∧
    ((listRuntimeOrchestrations env groupId .global none).isEmpty && service.isNone) = false ∧
    s = startLoop env alertData groupId route team service

/-- The run of an event comes to an orchestration in a state. -/
def Reached (env : Env L) (alertData : Dict) (groupId : Id) (o : Orchestration L) (t : Loop) :
    Prop :=
  ∃ s, Starts env alertData groupId s ∧
    ReachesInLoop env groupId (textIn alertData "source") s o t

/-! ## Failures -/

/-- The orchestration fails on the state, with the step that is recorded and the
reason that is given. -/
inductive Failure (env : Env L) (groupId : Id) (source : Option String) (o : Orchestration L)
    (s : Loop) : RuntimeStep → String → Prop where
  | evaluation {step : RuntimeStep} :
      runOne env o s.context = (none, step) →
      Failure env groupId source o s step "Active orchestration evaluation failed"
  | selection {step : RuntimeStep} {candidate : LevelResult} {context : Context}
      {message : String} :
      runOne env o s.context = (some candidate, step) → step.applied = true →
      candidate.state.toDict = .ok context →
      resolveSelectedEntities env.db candidate.state.result groupId source s.selection =
        .error message →
      Failure env groupId source o s { step with
        applied := false, outcome := "rejected", error := some "RuntimeOrchestrationError" } message

/-- The context that the orchestration leaves is within the limits, where it is
applied. -/
def Fits (env : Env L) (o : Orchestration L) (s : Loop) : Prop :=
  o.applies = true → ∀ version result, evaluateRules env o s.context = .ok (version, result) →
    ∃ copy, jsonCopy "context" result.state.context.toJson = .ok copy

/-- A run that contains the failures of its orchestrations. -/
structure Contained (env : Env L) (alertData : Dict) : Prop where
  /-- the run returns -/
  returns : ∃ result, runEventOrchestration env alertData = .ok result
  /-- a failure that does not block leaves everything but the list of steps -/
  keeps : ∀ groupId o s step reason, Reached env alertData groupId o s →
    Failure env groupId (textIn alertData "source") o s step reason → o.blocks = false →
    evaluateOne env groupId (textIn alertData "source") o s = .ok (s.addStep step, .proceed)
  /-- a failure in orchestration mode blocks the result -/
  blocks : ∀ groupId o s step reason result, Reached env alertData groupId o s →
    Failure env groupId (textIn alertData "source") o s step reason → o.blocks = true →
    runEventOrchestration env alertData = .ok result →
    result.1.blocked = true ∧ result.1.reason = some reason

/-! ## One orchestration -/

section Step

variable {env : Env L} {groupId : Id} {source : Option String} {o : Orchestration L} {s : Loop}

/-- An orchestration whose result counts was evaluated. -/
theorem runOne_some {candidate : LevelResult} {step : RuntimeStep}
    (h : runOne env o s.context = (some candidate, step)) :
    (∃ version, evaluateRules env o s.context = .ok (version, candidate)) ∧
      step.applied = o.applies := by
  unfold runOne at h
  cases hrules : evaluateRules env o s.context with
  | error e =>
    rw [hrules] at h
    cases h
  | ok found =>
    rw [hrules] at h
    cases h
    exact ⟨⟨found.1, rfl⟩, rfl⟩

/-- A state that is returned could be copied. -/
theorem toDict_eq_ok {state : EventActionState} {context : Context}
    (h : state.toDict = .ok context) :
    context = state.context ∧ ∃ copy, jsonCopy "context" state.context.toJson = .ok copy := by
  unfold EventActionState.toDict at h
  cases hcopy : jsonCopy "context" state.context.toJson with
  | error e =>
    rw [hcopy] at h
    cases h
  | ok copy =>
    rw [hcopy] at h
    cases h
    exact ⟨rfl, copy, rfl⟩

/-- A round raises exactly when the context that it is to apply does not fit. -/
theorem evaluateOne_returns_iff :
    (∃ r, evaluateOne env groupId source o s = .ok r) ↔ Fits env o s := by
  unfold evaluateOne Fits
  cases hrun : runOne env o s.context with
  | mk candidate step =>
    cases candidate with
    | none =>
      -- The evaluation failed: there is no context to apply.
      have herror : ∀ x, evaluateRules env o s.context ≠ .ok x := by
        intro x hx
        unfold runOne at hrun
        rw [hx] at hrun
        cases hrun
      constructor
      · intro _ _ version result hok
        exact absurd hok (herror _)
      · intro _
        dsimp only
        split
        · exact ⟨_, rfl⟩
        · exact ⟨_, rfl⟩
    | some candidate =>
      obtain ⟨⟨version, hok⟩, happlied⟩ := runOne_some hrun
      dsimp only
      rw [happlied]
      cases happlies : o.applies with
      | false =>
        simp only [Bool.not_false, if_true, Bool.false_eq_true, false_implies, iff_true]
        exact ⟨_, rfl⟩
      | true =>
        simp only [Bool.not_true, Bool.false_eq_true, if_false, true_implies]
        constructor
        · rintro ⟨r, hr⟩ version' result hresult
          rw [hok] at hresult
          cases hresult
          cases hdict : candidate.state.toDict with
          | error e =>
            rw [hdict] at hr
            cases hr
          | ok context => exact (toDict_eq_ok hdict).2
        · intro hfits
          obtain ⟨copy, hcopy⟩ := hfits version candidate hok
          have hdict : candidate.state.toDict = .ok candidate.state.context := by
            unfold EventActionState.toDict
            rw [hcopy]
            rfl
          rw [hdict]
          dsimp only [bind, Except.bind]
          split
          · split
            · exact ⟨_, rfl⟩
            · exact ⟨_, rfl⟩
          · exact ⟨_, rfl⟩

/-- A failed round keeps the state, or blocks it. -/
theorem evaluateOne_of_failure {step : RuntimeStep} {reason : String}
    (h : Failure env groupId source o s step reason) :
    evaluateOne env groupId source o s =
      if o.blocks then .ok ((s.addStep step).block reason, .stop)
      else .ok (s.addStep step, .proceed) := by
  cases h with
  | evaluation hrun =>
    unfold evaluateOne
    rw [hrun]
  | @selection step candidate context message hrun happlied hdict hselect =>
    obtain ⟨-, happlies⟩ := runOne_some hrun
    have hactive : o.mode = .active := by
      rw [happlies] at happlied
      unfold Orchestration.applies at happlied
      simp only [Bool.and_eq_true, decide_eq_true_eq] at happlied
      exact happlied.1
    have hblocks : o.blocks = decide (o.compatibilityMode = .orchestration) := by
      simp [Orchestration.blocks, hactive]
    unfold evaluateOne
    rw [hrun]
    dsimp only
    rw [happlied]
    simp only [Bool.not_true, Bool.false_eq_true, if_false]
    rw [hdict]
    dsimp only [bind, Except.bind]
    rw [hselect, hblocks]
    by_cases hmode : o.compatibilityMode = .orchestration
    · simp [hmode]
    · simp [hmode]

end Step

/-! ## The loops -/

section Loops

variable {env : Env L} {groupId : Id} {source : Option String}

/-- The loop returns exactly when everything it comes to fits. -/
theorem evaluateOrchestrations_returns_iff (os : List (Orchestration L)) (s : Loop) :
    (∃ t, evaluateOrchestrations env groupId source os s = .ok t) ↔
      ∀ o t, Reaches env groupId source os s o t → Fits env o t := by
  -- by induction on the orchestrations, which are walked until one of them ends the walk
  induction os generalizing s with
  | nil =>
    constructor
    · intro _ o t h
      cases h
    · intro _
      exact ⟨_, rfl⟩
  | cons o os ih =>
    rw [evaluateOrchestrations]
    cases hskip : o.skipped with
    | true =>
      rw [if_pos rfl, ih s]
      constructor
      · intro h o' t hreach
        cases hreach with
        | here hs => rw [hskip] at hs; cases hs
        | skip _ hr => exact h o' t hr
        | later hs _ _ => rw [hskip] at hs; cases hs
      · intro h o' t hreach
        exact h o' t (.skip hskip hreach)
    | false =>
      rw [if_neg Bool.false_ne_true]
      -- the first one has to fit the loop, and the rest the loop that it leaves
      constructor
      · rintro ⟨t, ht⟩ o' t' hreach
        obtain ⟨⟨s', next⟩, hone, hrest⟩ := bind_eq_ok.mp ht
        cases hreach with
        | here _ => exact evaluateOne_returns_iff.mp ⟨_, hone⟩
        | skip hs _ => rw [hskip] at hs; cases hs
        | later _ hone' hr =>
          rw [hone] at hone'
          cases hone'
          exact (ih _).mp ⟨t, hrest⟩ o' t' hr
      · intro h
        obtain ⟨⟨s', next⟩, hone⟩ := evaluateOne_returns_iff.mpr (h o s (.here hskip))
        rw [hone]
        cases next with
        | stop => exact ⟨_, rfl⟩
        | proceed =>
          show ∃ t, evaluateOrchestrations env groupId source os s' = .ok t
          exact (ih s').mpr fun o' t' hr => h o' t' (.later hskip hone hr)

/-- A failure that blocks ends the loop. -/
theorem evaluateOrchestrations_of_block {os : List (Orchestration L)} {s t : Loop}
    {o : Orchestration L} (hreach : Reaches env groupId source os s o t) {t' : Loop}
    (hstop : evaluateOne env groupId source o t = .ok (t', .stop)) :
    evaluateOrchestrations env groupId source os s =
      .ok { t' with runtime := { t'.runtime with context := some t'.context } } := by
  induction hreach with
  | here hskip =>
    rw [evaluateOrchestrations, hskip, if_neg Bool.false_ne_true, hstop]
    rfl
  | skip hskip _ ih =>
    rw [evaluateOrchestrations, hskip, if_pos rfl]
    exact ih hstop
  | later hskip hone _ ih =>
    rw [evaluateOrchestrations, hskip, if_neg Bool.false_ne_true, hone]
    exact ih hstop

/-- A chain that is blocked is at its end. -/
theorem evaluateServiceChain_of_blocked {s : Loop} (h : s.runtime.blocked = true) (left : Nat) :
    evaluateServiceChain env groupId source left s = .ok s := by
  rw [evaluateServiceChain]
  cases s.service with
  | none => rfl
  | some service => simp [h]

/-- Entering a service evaluates its orchestrations, and goes on. -/
theorem evaluateServiceChain_enter {s : Loop} {service : Service} (h : Enters s service)
    (left : Nat) :
    evaluateServiceChain env groupId source (left + 1) s =
      (evaluateOrchestrations env groupId source (serviceOrchestrations env groupId service)
        (enterService s service) >>= evaluateServiceChain env groupId source left) := by
  obtain ⟨hservice, hblocked, hnew⟩ := h
  obtain ⟨context, route, team, current, runtime⟩ := s
  obtain rfl : current = some service := hservice
  rw [evaluateServiceChain]
  dsimp only at hblocked hnew ⊢
  rw [if_neg (Bool.eq_false_iff.mp hblocked), if_neg hnew]
  rfl

/-- The chain returns exactly when everything it comes to fits. -/
theorem evaluateServiceChain_returns_iff (left : Nat) (s : Loop) :
    (∃ t, evaluateServiceChain env groupId source left s = .ok t) ↔
      ∀ o t, ReachesInChain env groupId source left s o t → Fits env o t := by
  -- by induction on the hand-offs that are left
  induction left generalizing s with
  | zero =>
    constructor
    · intro _ o t h
      cases h
    · intro _
      rw [evaluateServiceChain]
      split
      · exact ⟨_, rfl⟩
      · split
        · exact ⟨_, rfl⟩
        · split
          · exact ⟨_, rfl⟩
          · exact ⟨_, rfl⟩
  | succ left ih =>
    -- by whether a service is entered
    by_cases henter : ∃ service, Enters s service
    · obtain ⟨service, henter⟩ := henter
      have hunique : ∀ other, Enters s other → other = service := by
        intro other hother
        have := hother.1.symm.trans henter.1
        exact Option.some.inj this
      rw [evaluateServiceChain_enter henter]
      constructor
      · rintro ⟨t, ht⟩ o t' hreach
        obtain ⟨s', hs', hrest⟩ := bind_eq_ok.mp ht
        cases hreach with
        | here he hr =>
          obtain rfl := hunique _ he
          exact (evaluateOrchestrations_returns_iff _ _).mp ⟨s', hs'⟩ o t' hr
        | later he hs'' hr =>
          obtain rfl := hunique _ he
          rw [hs'] at hs''
          cases hs''
          exact (ih _).mp ⟨t, hrest⟩ o t' hr
      · intro h
        obtain ⟨s', hs'⟩ := (evaluateOrchestrations_returns_iff _ _).mpr
          fun o t hr => h o t (.here henter hr)
        rw [hs']
        exact (ih s').mpr fun o t hr => h o t (.later henter hs' hr)
    · constructor
      · intro _ o t hreach
        cases hreach with
        | here he _ => exact absurd ⟨_, he⟩ henter
        | later he _ _ => exact absurd ⟨_, he⟩ henter
      · intro _
        rw [evaluateServiceChain]
        cases hservice : s.service with
        | none => exact ⟨_, rfl⟩
        | some service =>
          cases hblocked : s.runtime.blocked with
          | true => exact ⟨s, by simp⟩
          | false =>
            have hseen : service.id ∈ s.runtime.evaluatedServiceIds := by
              by_contra hnew
              exact henter ⟨service, hservice, hblocked, hnew⟩
            exact ⟨s, by simp [hseen]⟩

/-- A failure that blocks ends the chain. -/
theorem evaluateServiceChain_of_block {left : Nat} {s t : Loop} {o : Orchestration L}
    (hreach : ReachesInChain env groupId source left s o t) {t' : Loop}
    (hstop : evaluateOne env groupId source o t = .ok (t', .stop))
    (hblocked : t'.runtime.blocked = true) :
    evaluateServiceChain env groupId source left s =
      .ok { t' with runtime := { t'.runtime with context := some t'.context } } := by
  induction hreach with
  | here henter hr =>
    rw [evaluateServiceChain_enter henter, evaluateOrchestrations_of_block hr hstop]
    have hend : ({ t' with runtime := { t'.runtime with context := some t'.context } } :
        Loop).runtime.blocked = true := hblocked
    exact evaluateServiceChain_of_blocked hend _
  | later henter hs' _ ih =>
    rw [evaluateServiceChain_enter henter, hs']
    exact ih hstop

/-- **A run returns, if and only if** each orchestration that it comes to fits. -/
theorem runLoop_returns_iff (s : Loop) :
    (∃ t, runLoop env groupId source s = .ok t) ↔
      ∀ o t, ReachesInLoop env groupId source s o t → Fits env o t := by
  constructor
  -- the globals return when each that is reached fits
  · rintro ⟨t, ht⟩ o t' hreach
    obtain ⟨s', hs', hrest⟩ := bind_eq_ok.mp ht
    cases hreach with
    | global hr => exact (evaluateOrchestrations_returns_iff _ _).mp ⟨s', hs'⟩ o t' hr
    | chain hs'' hblocked hr =>
      rw [hs'] at hs''
      cases hs''
      rw [hblocked, if_neg Bool.false_ne_true] at hrest
      exact (evaluateServiceChain_returns_iff _ _).mp ⟨t, hrest⟩ o t' hr
  · intro h
    obtain ⟨s', hs'⟩ := (evaluateOrchestrations_returns_iff _ _).mpr
      fun o t hr => h o t (.global hr)
    unfold runLoop
    rw [hs']
    show ∃ t, (if s'.runtime.blocked = true then Except.ok s' else
      evaluateServiceChain env groupId source maxServiceHandoffs s') = .ok t
    -- and the chain behind them, unless the run is blocked
    cases hblocked : s'.runtime.blocked with
    | true => exact ⟨s', rfl⟩
    | false =>
      rw [if_neg Bool.false_ne_true]
      exact (evaluateServiceChain_returns_iff _ _).mpr
        fun o t hr => h o t (.chain hs' hblocked hr)

/-- A failure that blocks ends the run. -/
theorem runLoop_of_block {s t : Loop} {o : Orchestration L}
    (hreach : ReachesInLoop env groupId source s o t) {t' : Loop}
    (hstop : evaluateOne env groupId source o t = .ok (t', .stop))
    (hblocked : t'.runtime.blocked = true) :
    runLoop env groupId source s =
      .ok { t' with runtime := { t'.runtime with context := some t'.context } } := by
  unfold runLoop
  cases hreach with
  | global hr =>
    rw [evaluateOrchestrations_of_block hr hstop]
    show (if t'.runtime.blocked = true then _ else _) = _
    rw [hblocked, if_pos rfl]
  | chain hs' hopen hr =>
    rw [hs']
    show (if _ then _ else _) = _
    rw [hopen, if_neg Bool.false_ne_true]
    exact evaluateServiceChain_of_block hr hstop hblocked

end Loops

/-! ## The run -/

/-- A run that starts a loop is the loop. -/
theorem runEventOrchestration_of_starts {env : Env L} {alertData : Dict} {groupId : Id} {s : Loop}
    (h : Starts env alertData groupId s) :
    runEventOrchestration env alertData =
      (runLoop env groupId (textIn alertData "source") s >>= fun t =>
        .ok (t.finish, applyRuntimeToAlertData t.finish alertData)) := by
  obtain ⟨route, team, service, hgroup, hinitial, hsome, rfl⟩ := h
  unfold runEventOrchestration
  rw [hgroup]
  dsimp only
  rw [hinitial]
  dsimp only
  rw [if_neg (by rw [hsome]; exact Bool.false_ne_true)]

/-- Every other run returns. -/
theorem returns_of_not_starts {env : Env L} {alertData : Dict}
    (h : ∀ groupId s, ¬Starts env alertData groupId s) :
    ∃ result, runEventOrchestration env alertData = .ok result := by
  unfold runEventOrchestration
  split
  · exact ⟨_, rfl⟩
  · rename_i groupId hgroup
    dsimp only
    split
    · split
      · exact ⟨_, rfl⟩
      · exact ⟨_, rfl⟩
    · rename_i route team service hinitial
      split
      · exact ⟨_, rfl⟩
      · rename_i hsome
        exact absurd ⟨route, team, service, hgroup, hinitial, Bool.eq_false_iff.mpr hsome, rfl⟩
          (h groupId _)

/-- What blocks a loop blocks the result that is made of it. -/
theorem finish_of_block (s : Loop) (step : RuntimeStep) (reason : String) :
    (Loop.finish { (s.addStep step).block reason with
      runtime := { ((s.addStep step).block reason).runtime with
        context := some ((s.addStep step).block reason).context } }).blocked = true ∧
    (Loop.finish { (s.addStep step).block reason with
      runtime := { ((s.addStep step).block reason).runtime with
        context := some ((s.addStep step).block reason).context } }).reason = some reason :=
  ⟨rfl, rfl⟩

/-- **A run contains the failures of its orchestrations exactly when every context
that is applied is within the limits of `_json_copy` as a whole.** -/
theorem contained_iff (env : Env L) (alertData : Dict) :
    Contained env alertData ↔
      ∀ groupId o s, Reached env alertData groupId o s → Fits env o s := by
  constructor
  · rintro ⟨⟨result, hresult⟩, -, -⟩ groupId o t ⟨s, hstarts, hreach⟩
    rw [runEventOrchestration_of_starts hstarts] at hresult
    obtain ⟨s', hs', -⟩ := bind_eq_ok.mp hresult
    exact (runLoop_returns_iff s).mp ⟨s', hs'⟩ o t hreach
  · intro h
    refine ⟨?_, ?_, ?_⟩
    -- there is a group to run for, or nothing runs
    · by_cases hstarts : ∃ groupId s, Starts env alertData groupId s
      · obtain ⟨groupId, s, hstarts⟩ := hstarts
        rw [runEventOrchestration_of_starts hstarts]
        obtain ⟨t, ht⟩ := (runLoop_returns_iff s).mpr
          fun o t hr => h groupId o t ⟨s, hstarts, hr⟩
        rw [ht]
        exact ⟨_, rfl⟩
      · exact returns_of_not_starts fun groupId s hs => hstarts ⟨groupId, s, hs⟩
    · intro groupId o s step reason _ hfailure hblocks
      rw [evaluateOne_of_failure hfailure, hblocks, if_neg Bool.false_ne_true]
    · intro groupId o t step reason result ⟨s, hstarts, hreach⟩ hfailure hblocks hrun
      have hstop := evaluateOne_of_failure hfailure
      rw [hblocks, if_pos rfl] at hstop
      rw [runEventOrchestration_of_starts hstarts, runLoop_of_block hreach hstop rfl] at hrun
      cases hrun
      exact finish_of_block t step reason

/-! ## A payload that passes only on its own -/

/-- A language without conditions and templates. -/
def plainLanguage : Language where
  Condition := Unit
  Extractor := Unit
  evaluateConditionTree := fun _ _ => .ok true
  resolveField := fun _ _ => .ok none
  renderTemplate := fun text _ => .ok text
  extractVariables := fun _ _ vars => .ok (vars, .continue)
  extractionSucceeds := fun _ _ _ => true

/-- Objects inside each other. -/
def nested : Nat → Json
  | 0 => .str "ok"
  | n + 1 => .obj [("detail", nested n)]

def opsTeam : TeamRow :=
  { id := 1, group := some 1, active := true, deleted := false, slug := "ops", name := "Ops" }

def opsRoute : Route :=
  { id := 1, team := opsTeam, service := none, name := "ops", source := "webhook", enabled := true,
    deleted := false }

/-- One team with one route. -/
def opsTables : Entities where
  groups := [{ id := 1, active := true, deleted := false }]
  teams := [opsTeam]
  services := []
  routes := [opsRoute]
  escalationPolicies := []
  priorityPolicies := []
  notificationPolicies := []
  teams_key := by simp
  services_key := List.nodup_nil
  routes_key := by simp
  escalation_key := by simp
  priority_key := List.nodup_nil
  notification_key := List.nodup_nil
  route_team := by simp [opsRoute]
  route_service := by simp [opsRoute]
  service_team := by simp

/-- A global hybrid orchestration without rules. -/
def hybridGlobal : Orchestration plainLanguage :=
  { id := 1, group := 1, scope := .global, service := none, mode := .active,
    compatibilityMode := .hybrid, enabled := true, deleted := false, activeVersionId := some 1,
    published := some { id := 1, rules := [] } }

def opsEnv : Env plainLanguage :=
  { db := opsTables, orchestrations := [hybridGlobal], defaultHistory := .full,
    now := "2024-01-01T00:00:00", recordExecution := fun _ => some 1 }

/-- A payload with values at the deepest level that is allowed. -/
def deepAlert : Dict :=
  [("source", .str "webhook"), ("title", .str "Disk full"), ("status", .str "firing"),
    ("forced_route_id", .int 1), ("payload", nested 16)]

/-- The rules of the hybrid orchestration are evaluated without a failure, and the
run raises where their result is copied. -/
theorem deep_payload_escapes :
    (evaluateRules opsEnv hybridGlobal
      (startLoop opsEnv deepAlert 1 (some opsRoute) (some opsTeam) none).context).isOk = true ∧
    hybridGlobal.blocks = false ∧ ¬Contained opsEnv deepAlert := by
  refine ⟨by decide +kernel, rfl, ?_⟩
  rintro ⟨⟨result, hresult⟩, -, -⟩
  have hraises : (runEventOrchestration opsEnv deepAlert).isOk = false := by decide +kernel
  rw [hresult] at hraises
  cases hraises

end IncidentRelay.Orchestration
