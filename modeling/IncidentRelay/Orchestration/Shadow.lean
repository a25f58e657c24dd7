import IncidentRelay.Orchestration.Containment
import IncidentRelay.Orchestration.Selected

/-!
# Shadow orchestrations

A shadow orchestration is evaluated and recorded, and its result is never applied. Two
installations that differ in nothing but their shadow orchestrations decide alike: a
shadow round changes what a run has recorded, and a run decides by everything else
(`Loop.seen`).
-/

namespace IncidentRelay.Orchestration

open Json

/-! ## What a run decides by -/

/-- A result without its record: the steps and the context that it carries. -/
def RuntimeResult.unrecorded (r : RuntimeResult) : RuntimeResult :=
  { r with steps := [], context := none }

/-- A state of the loop without the record, and whether a step of the record was applied. -/
def Loop.seen (s : Loop) : Loop × Bool :=
  ({ s with runtime := s.runtime.unrecorded }, s.runtime.hasApplied)

/-- `orchestration.mode != "shadow"`. -/
def Orchestration.visible {L : Language} (o : Orchestration L) : Bool := o.mode ≠ .shadow

/-- Nothing but the shadow orchestrations is different, and the rows that record the
executions. -/
structure SameButShadows {L : Language} (env env' : Env L) : Prop where
  db : env.db = env'.db
  defaultHistory : env.defaultHistory = env'.defaultHistory
  now : env.now = env'.now
  visible : env.orchestrations.filter (·.visible) = env'.orchestrations.filter (·.visible)

section Seen

variable {s t : Loop}

theorem seen_context (h : s.seen = t.seen) : s.context = t.context :=
  congrArg (·.1.context) h

theorem seen_hasApplied (h : s.seen = t.seen) : s.runtime.hasApplied = t.runtime.hasApplied :=
  congrArg Prod.snd h

theorem seen_selection (h : s.seen = t.seen) : s.selection = t.selection :=
  congrArg (·.1.selection) h

theorem seen_blocked (h : s.seen = t.seen) : s.runtime.blocked = t.runtime.blocked :=
  congrArg (·.1.runtime.blocked) h

theorem seen_evaluated (h : s.seen = t.seen) :
    s.runtime.evaluatedServiceIds = t.runtime.evaluatedServiceIds :=
  congrArg (·.1.runtime.evaluatedServiceIds) h

theorem seen_service (h : s.seen = t.seen) : s.service = t.service :=
  congrArg (·.1.service) h

/-- A change of the runtime that the record has no part in. -/
theorem seen_update (f : RuntimeResult → RuntimeResult)
    (hdecision : ∀ r, (f r).unrecorded = (f r.unrecorded).unrecorded)
    (happlied : ∀ r, (f r).hasApplied = r.hasApplied) (h : s.seen = t.seen) :
    ({ s with runtime := f s.runtime } : Loop).seen =
      ({ t with runtime := f t.runtime } : Loop).seen := by
  have hs : ({ s with runtime := f s.runtime } : Loop).seen =
      ({ s.seen.1 with runtime := (f s.seen.1.runtime).unrecorded }, s.seen.2) := by
    unfold Loop.seen
    rw [hdecision, happlied]
  have ht : ({ t with runtime := f t.runtime } : Loop).seen =
      ({ t.seen.1 with runtime := (f t.seen.1.runtime).unrecorded }, t.seen.2) := by
    unfold Loop.seen
    rw [hdecision, happlied]
  rw [hs, ht, h]

theorem hasApplied_addStep (s : Loop) (step : RuntimeStep) :
    (s.addStep step).runtime.hasApplied = (s.runtime.hasApplied || step.applied) := by
  show (s.runtime.steps ++ [step]).any _ = (s.runtime.steps.any _ || _)
  rw [List.any_append, List.any_cons, List.any_nil, Bool.or_false]

/-- A step that is not applied is a matter of the record. -/
theorem addStep_seen (step : RuntimeStep) (h : step.applied = false) :
    (s.addStep step).seen = s.seen := by
  unfold Loop.seen
  rw [hasApplied_addStep, h, Bool.or_false]
  rfl

theorem block_seen (reason : String) (h : s.seen = t.seen) :
    (s.block reason).seen = (t.block reason).seen :=
  seen_update (fun r => { r with blocked := true, reason := some reason }) (fun _ => rfl)
    (fun _ => rfl) h

/-- What is committed depends on the step through its version alone. -/
theorem commit_seen {L : Language} (o : Orchestration L) {step step' : RuntimeStep}
    (context : Context) (result : ActionResult) (selected : Selection)
    (happlied : step.applied = true) (happlied' : step'.applied = true)
    (hversion : step.versionId = step'.versionId) (h : s.seen = t.seen) :
    (commit o step context result selected s).seen =
      (commit o step' context result selected t).seen := by
  have hany : ∀ (p : RuntimeStep) (u : Loop), p.applied = true →
      (commit o p context result selected u).runtime.hasApplied = true := by
    intro p u hp
    show (applyDisposition _ _ _ _).steps.any _ = true
    rw [(applyDisposition_steps _ _ _ _).1, List.any_append, List.any_cons, hp, Bool.true_or,
      Bool.or_true]
  -- the decision behind a commit comes from the decision before it
  have hdecision : ∀ (p : RuntimeStep) (u : Loop),
      (commit o p context result selected u).runtime.unrecorded =
        (commit o { step with versionId := p.versionId } context result selected
          u.seen.1).runtime.unrecorded := by
    intro p u
    unfold commit applyDisposition
    cases result.disposition <;> rfl
  have hloop : (commit o step context result selected s).runtime.unrecorded =
      (commit o step' context result selected t).runtime.unrecorded := by
    rw [hdecision step s, hdecision step' t, hversion, h]
  unfold Loop.seen
  rw [hany step s happlied, hany step' t happlied', hloop]
  rfl

end Seen

/-! ## One orchestration -/

section Rounds

variable {L : Language} {env env' : Env L} {groupId : Id} {source : Option String}

theorem evaluateRules_same (h : SameButShadows env env') (o : Orchestration L)
    (context : Context) : evaluateRules env o context = evaluateRules env' o context := by
  unfold evaluateRules
  rw [h.defaultHistory]

/-- `_run_one` in both installations: the same candidate, and steps that differ in the row
of the execution. -/
theorem runOne_same (h : SameButShadows env env') (o : Orchestration L) (context : Context) :
    (runOne env o context).1 = (runOne env' o context).1 ∧
      (runOne env o context).2.applied = (runOne env' o context).2.applied ∧
      (runOne env o context).2.versionId = (runOne env' o context).2.versionId ∧
      ((runOne env o context).1 = none → (runOne env o context).2.applied = false) := by
  unfold runOne
  rw [evaluateRules_same h]
  cases evaluateRules env' o context with
  | error e => exact ⟨rfl, rfl, rfl, fun _ => rfl⟩
  | ok evaluated => exact ⟨rfl, rfl, rfl, fun hnone => by cases hnone⟩

/-- A shadow orchestration leaves a step that is not applied. -/
theorem evaluateOne_shadow {o : Orchestration L} (hshadow : o.visible = false) (s : Loop) :
    ∃ step, step.applied = false ∧
      evaluateOne env groupId source o s = .ok (s.addStep step, .proceed) := by
  -- what is not visible is in shadow mode, so it neither blocks nor applies
  have hmode : o.mode = .shadow := by
    by_contra hne
    rw [show o.visible = true from decide_eq_true hne] at hshadow
    cases hshadow
  have hblocks : o.blocks = false := by
    unfold Orchestration.blocks
    rw [hmode]
    rfl
  have happlies : o.applies = false := by
    unfold Orchestration.applies
    rw [hmode]
    rfl
  unfold evaluateOne
  -- its rules are evaluated, or not; the loop only notes the step
  rcases runOne_cases env o s.context with ⟨step, hrun, happlied, -⟩ |
    ⟨version, result, candidate, step, -, -, hrun, -, happlied, -⟩
  · refine ⟨step, happlied, ?_⟩
    rw [hrun]
    dsimp only
    rw [hblocks]
    rfl
  · have hquiet : step.applied = false := happlied.trans happlies
    refine ⟨step, hquiet, ?_⟩
    rw [hrun]
    dsimp only
    rw [hquiet]
    rfl

/-- The same orchestration on states that are seen alike. -/
theorem evaluateOne_agree (h : SameButShadows env env') (o : Orchestration L) {s t : Loop}
    (hs : s.seen = t.seen) :
    Agree (fun p q => p.1.seen = q.1.seen ∧ p.2 = q.2)
      (evaluateOne env groupId source o s) (evaluateOne env' groupId source o t) := by
  obtain ⟨hcandidate, happlied, hversion, hfailed⟩ := runOne_same h o s.context
  unfold evaluateOne
  rw [← seen_context hs, ← seen_selection hs]
  -- both runs evaluate the orchestration to the same candidate
  cases hrun : runOne env o s.context with
  | mk candidate step =>
    cases hrun' : runOne env' o s.context with
    | mk candidate' step' =>
      rw [hrun, hrun'] at hcandidate happlied hversion
      rw [hrun] at hfailed
      dsimp only at hcandidate happlied hversion hfailed
      subst hcandidate
      -- and go on in the same way, as they see the same
      cases candidate with
      | none =>
        have hquiet := hfailed rfl
        have hadded : (s.addStep step).seen = (t.addStep step').seen := by
          rw [addStep_seen step hquiet, addStep_seen step' (happlied ▸ hquiet), hs]
        dsimp only
        split
        · exact .ok ⟨block_seen _ hadded, rfl⟩
        · exact .ok ⟨hadded, rfl⟩
      | some candidate =>
        dsimp only
        cases hstep : step.applied with
        | false =>
          have hstep' : step'.applied = false := happlied ▸ hstep
          rw [hstep']
          refine .ok ⟨?_, rfl⟩
          rw [addStep_seen step hstep, addStep_seen step' hstep', hs]
        | true =>
          have hstep' : step'.applied = true := happlied ▸ hstep
          rw [hstep', ← h.db]
          refine Agree.bind (.refl (fun _ => rfl) _) ?_
          rintro context _ rfl
          split
          · -- the selection is rejected
            have hadded : ∀ p q : RuntimeStep, p.applied = false → q.applied = false →
                (s.addStep p).seen = (t.addStep q).seen := by
              intro p q hp hq
              rw [addStep_seen p hp, addStep_seen q hq, hs]
            split
            · exact .ok ⟨block_seen _ (hadded _ _ rfl rfl), rfl⟩
            · exact .ok ⟨hadded _ _ rfl rfl, rfl⟩
          · exact .ok ⟨commit_seen o _ _ _ hstep hstep' hversion hs, rfl⟩

/-! ## The loops -/

/-- What is visible of the orchestrations is the same. -/
theorem listRuntime_visible (h : SameButShadows env env') (scope : Scope) (serviceId : Option Id) :
    (listRuntimeOrchestrations env groupId scope serviceId).filter (·.visible) =
      (listRuntimeOrchestrations env' groupId scope serviceId).filter (·.visible) := by
  unfold listRuntimeOrchestrations
  rw [List.filter_comm, h.visible, List.filter_comm]

/-- The loop over a list, in both installations. -/
theorem evaluateOrchestrations_agree (h : SameButShadows env env') (os : List (Orchestration L))
    {s t : Loop} (hs : s.seen = t.seen) :
    Agree (fun s t => s.seen = t.seen) (evaluateOrchestrations env groupId source os s)
      (evaluateOrchestrations env' groupId source os t) := by
  induction os generalizing s t with
  | nil =>
    refine .ok (seen_update (fun r => { r with context := some s.context }) (fun _ => rfl)
      (fun _ => rfl) hs |>.trans ?_)
    rfl
  | cons o os ih =>
    unfold evaluateOrchestrations
    split
    · exact ih hs
    · refine (evaluateOne_agree h o hs).bind ?_
      rintro ⟨u, next⟩ ⟨v, next'⟩ ⟨huv, rfl⟩
      cases next with
      | proceed => exact ih huv
      | stop => exact .ok huv

/-- The shadow orchestrations of the list may be left out. By induction on the list. -/
theorem evaluateOrchestrations_visible (env : Env L) (groupId : Id) (source : Option String)
    (os : List (Orchestration L)) (s : Loop) :
    Agree (fun s t => s.seen = t.seen) (evaluateOrchestrations env groupId source os s)
      (evaluateOrchestrations env groupId source (os.filter (·.visible)) s) := by
  have hself : SameButShadows env env := ⟨rfl, rfl, rfl, rfl⟩
  induction os generalizing s with
  | nil => exact .ok rfl
  | cons o os ih =>
    cases hvisible : o.visible with
    | true =>
      rw [List.filter_cons_of_pos hvisible]
      unfold evaluateOrchestrations
      split
      · exact ih s
      · refine (evaluateOne_agree hself o rfl).bind ?_
        rintro ⟨u, next⟩ ⟨v, next'⟩ ⟨huv, rfl⟩
        cases next with
        | proceed =>
          exact (ih u).trans (evaluateOrchestrations_agree hself _ huv)
            fun _ _ _ hab hbc => hab.trans hbc
        | stop => exact .ok huv
    | false =>
      rw [List.filter_cons_of_neg (by rw [hvisible]; exact Bool.false_ne_true)]
      have hshadow : ∃ step, step.applied = false ∧
          evaluateOne env groupId source o s = .ok (s.addStep step, .proceed) :=
        evaluateOne_shadow hvisible s
      obtain ⟨step, hstep, hone⟩ := hshadow
      have hskipped : o.skipped = false := by
        unfold Orchestration.visible at hvisible
        unfold Orchestration.skipped
        rw [not_not.mp (of_decide_eq_false hvisible)]
        rfl
      rw [evaluateOrchestrations, hskipped, if_neg Bool.false_ne_true, hone]
      -- the rest of the list runs on a state with one more step
      exact (ih (s.addStep step)).trans
        (evaluateOrchestrations_agree hself _ (addStep_seen step hstep))
        fun _ _ _ hab hbc => hab.trans hbc

/-- The loop over lists with the same visible orchestrations. -/
theorem evaluateOrchestrations_seen (h : SameButShadows env env') {os os' : List (Orchestration L)}
    (hos : os.filter (·.visible) = os'.filter (·.visible)) {s t : Loop} (hs : s.seen = t.seen) :
    Agree (fun s t => s.seen = t.seen) (evaluateOrchestrations env groupId source os s)
      (evaluateOrchestrations env' groupId source os' t) := by
  have hleft := evaluateOrchestrations_visible env groupId source os s
  have hright := evaluateOrchestrations_visible env' groupId source os' t
  rw [hos] at hleft
  have hboth := hleft.trans (evaluateOrchestrations_agree h (os'.filter (·.visible)) hs)
    fun _ _ _ hab hbc => hab.trans hbc
  exact hboth.trans hright.symm fun _ _ _ hab hcb => hab.trans hcb.symm

/-- The chain of the services. By induction on the handoffs that are left. -/
theorem evaluateServiceChain_seen (h : SameButShadows env env') (left : ℕ) {s t : Loop}
    (hs : s.seen = t.seen) :
    Agree (fun s t => s.seen = t.seen) (evaluateServiceChain env groupId source left s)
      (evaluateServiceChain env' groupId source left t) := by
  induction left generalizing s t with
  | zero =>
    -- the loops agree on what decides whether a service follows
    obtain ⟨context, route, team, service, runtime⟩ := s
    obtain ⟨context', route', team', service', runtime'⟩ := t
    obtain rfl : service = service' := seen_service hs
    have hblocked : runtime.blocked = runtime'.blocked := seen_blocked hs
    have hevaluated : runtime.evaluatedServiceIds = runtime'.evaluatedServiceIds :=
      seen_evaluated hs
    unfold evaluateServiceChain
    dsimp only
    rw [← hblocked, ← hevaluated]
    split
    · exact .ok hs
    · split_ifs
      · exact .ok hs
      · exact .ok hs
      · exact .ok (seen_update (fun r => { r with
          blocked := r.compatibilityMode = .orchestration
          reason := some "Service orchestration handoff limit exceeded"
          evaluatedServiceIds := runtime.evaluatedServiceIds }) (fun _ => rfl) (fun _ => rfl) hs)
  | succ left ih =>
    obtain ⟨context, route, team, service, runtime⟩ := s
    obtain ⟨context', route', team', service', runtime'⟩ := t
    obtain rfl : service = service' := seen_service hs
    have hblocked : runtime.blocked = runtime'.blocked := seen_blocked hs
    have hevaluated : runtime.evaluatedServiceIds = runtime'.evaluatedServiceIds :=
      seen_evaluated hs
    unfold evaluateServiceChain
    dsimp only
    rw [← hblocked, ← hevaluated]
    split
    · exact .ok hs
    · rename_i found
      split_ifs
      · exact .ok hs
      · exact .ok hs
      -- the visible orchestrations of the next service are the same
      · refine (evaluateOrchestrations_seen h (listRuntime_visible h .service (some found.id))
          ?_).bind fun _ _ huv => ih huv
        exact seen_update (fun r => { r with
          blocked := runtime.blocked
          evaluatedServiceIds := runtime.evaluatedServiceIds ++ [found.id] }) (fun _ => rfl)
          (fun _ => rfl) hs

end Rounds

/-! ## The two runs of an event -/

section Runs

variable {L : Language} {env env' : Env L} {alertData : Dict}

/-- Results that go on alike: the same decision, and behind a routing the same context. -/
structure GoesOn (env : Env L) (alertData : Dict) (r q : RuntimeResult) : Prop where
  unrecorded : r.unrecorded = q.unrecorded
  hasApplied : r.hasApplied = q.hasApplied
  context : ∀ route team service,
    (serviceLoop env alertData r route team service).context =
      (serviceLoop env alertData q route team service).context

/-- What a missing route decides does not depend on the records. -/
theorem requireRoute_decision (r : RuntimeResult) :
    (requireRoute r).unrecorded = (requireRoute r.unrecorded).unrecorded ∧
      (requireRoute r).hasApplied = r.hasApplied := by
  have hcondition : (!r.unrecorded.blocked &&
      decide (r.unrecorded.compatibilityMode = .orchestration) && r.unrecorded.route.isNone) =
      (!r.blocked && decide (r.compatibilityMode = .orchestration) && r.route.isNone) := rfl
  unfold requireRoute
  rw [hcondition]
  split
  · exact ⟨rfl, rfl⟩
  · exact ⟨rfl, rfl⟩

/-- The ends of two runs that are seen alike. -/
theorem finish_seen {s t : Loop} (h : s.seen = t.seen) :
    s.finish.unrecorded = t.finish.unrecorded ∧ s.finish.hasApplied = t.finish.hasApplied ∧
      s.finish.context = t.finish.context := by
  have hfinish : ∀ u : Loop, u.finish.unrecorded =
      (requireRoute { u.seen.1.runtime with
        route := u.route, team := u.team, service := u.service }).unrecorded := by
    intro u
    unfold Loop.finish
    exact (requireRoute_decision _).1
  refine ⟨?_, ?_, ?_⟩
  · rw [hfinish, hfinish, h]
    rw [show s.route = t.route from congrArg (·.1.route) h,
      show s.team = t.team from congrArg (·.1.team) h, seen_service h]
  · rw [(finish_fields s).2.2.1, (finish_fields t).2.2.1, seen_hasApplied h]
  · rw [(finish_fields s).2.1, (finish_fields t).2.1, seen_context h]

/-- What is written back is decided by the decision and by the context. -/
theorem apply_same {r q : RuntimeResult} (hdecision : r.unrecorded = q.unrecorded)
    (happlied : r.hasApplied = q.hasApplied) (hcontext : r.context = q.context) :
    applyRuntimeToAlertData r alertData = applyRuntimeToAlertData q alertData := by
  have hfield : ∀ {β : Type} (f : RuntimeResult → β), f r.unrecorded = f q.unrecorded :=
    fun f => congrArg f hdecision
  have hblocked : r.blocked = q.blocked := hfield (·.blocked)
  have hany : r.steps.any (·.applied) = q.steps.any (·.applied) := happlied
  have hroute : r.route = q.route := hfield (·.route)
  have hteam : r.team = q.team := hfield (·.team)
  have hservice : r.service = q.service := hfield (·.service)
  have hkey : r.groupKey = q.groupKey := hfield (·.groupKey)
  have hpriority : r.priorityPolicy = q.priorityPolicy := hfield (·.priorityPolicy)
  have hescalation : r.escalationPolicy = q.escalationPolicy := hfield (·.escalationPolicy)
  have hnotification : r.notificationPolicy = q.notificationPolicy :=
    hfield (·.notificationPolicy)
  unfold applyRuntimeToAlertData
  rw [hblocked, hany, hcontext, hroute, hteam, hservice, hkey, hpriority, hescalation,
    hnotification]

/-- **Two runs stay alike.** -/
theorem runLoop_seen {groupId : Id} {source : Option String} (h : SameButShadows env env')
    {s t : Loop} (hs : s.seen = t.seen) :
    Agree (fun s t => s.seen = t.seen) (runLoop env groupId source s)
      (runLoop env' groupId source t) := by
  unfold runLoop
  refine (evaluateOrchestrations_seen h (listRuntime_visible h .global none) hs).bind ?_
  intro u v huv
  rw [← seen_blocked huv]
  split
  · exact .ok huv
  · exact evaluateServiceChain_seen h _ huv

/-- The run of an event whose entities are known, without the early end. -/
def runFrom (env : Env L) (alertData : Dict) (groupId : Id) (route : Option Route)
    (team : Option TeamRow) (service : Option Service) : Except PyError (RuntimeResult × Dict) := do
  let s ← runLoop env groupId (textIn alertData "source")
    (startLoop env alertData groupId route team service)
  .ok (s.finish, applyRuntimeToAlertData s.finish alertData)

/-- Where no orchestration is there and no service, the run ends early with what it would
have ended with. -/
theorem runFrom_idle (alertData : Dict) {groupId : Id} (route : Option Route)
    (team : Option TeamRow)
    (hidle : listRuntimeOrchestrations env groupId .global none = []) :
    ∃ r, runFrom env alertData groupId route team none = .ok (r, alertData) ∧
      GoesOn env alertData { groupId := some groupId, route, team, service := none } r := by
  -- no global is there, and no service, so the loop ends where it starts
  have hloop : runLoop env groupId (textIn alertData "source")
      (startLoop env alertData groupId route team none) =
      .ok (startLoop env alertData groupId route team none).settle := by
    unfold runLoop
    rw [hidle]
    show evaluateServiceChain _ _ _ _ _ = _
    unfold evaluateServiceChain
    rfl
  refine ⟨(startLoop env alertData groupId route team none).settle.finish, ?_, ?_⟩
  · unfold runFrom
    rw [hloop]
    show Except.ok (_, applyRuntimeToAlertData _ _) = _
    unfold applyRuntimeToAlertData
    rfl
  · exact ⟨rfl, rfl, fun _ _ _ => rfl⟩

/-- From the same entities they come to the same decision. -/
theorem runFrom_agree (h : SameButShadows env env') (groupId : Id) (route : Option Route)
    (team : Option TeamRow) (service : Option Service) :
    Agree (fun p q => GoesOn env p.2 p.1 q.1 ∧ p.2 = q.2)
      (runFrom env alertData groupId route team service)
      (runFrom env' alertData groupId route team service) := by
  unfold runFrom
  refine (runLoop_seen h (t := startLoop env' alertData groupId route team service) ?_).bind ?_
  · unfold startLoop
    rw [h.now]
  · intro s t hst
    obtain ⟨hdecision, happlied, hcontext⟩ := finish_seen hst
    refine .ok ⟨⟨hdecision, happlied, ?_⟩, apply_same hdecision happlied hcontext⟩
    intro route team service
    unfold serviceLoop
    rw [hcontext]

theorem GoesOn.trans {r q p : RuntimeResult} (h : GoesOn env alertData r q)
    (h' : GoesOn env alertData q p) : GoesOn env alertData r p :=
  ⟨h.unrecorded.trans h'.unrecorded, h.hasApplied.trans h'.hasApplied,
    fun route team service => (h.context route team service).trans (h'.context route team service)⟩

theorem GoesOn.symm {r q : RuntimeResult} (h : GoesOn env alertData r q) :
    GoesOn env alertData q r :=
  ⟨h.unrecorded.symm, h.hasApplied.symm, fun route team service => (h.context route team service).symm⟩

/-- The second run starts alike. -/
theorem serviceLoop_same (h : SameButShadows env env') (r : RuntimeResult) (route : Option Route)
    (team : Option TeamRow) (service : Option Service) :
    serviceLoop env alertData r route team service =
      serviceLoop env' alertData r route team service := by
  unfold serviceLoop
  rw [h.now]

/-- What goes on alike in one installation does so in the other. -/
theorem GoesOn.of_same (h : SameButShadows env env') {r q : RuntimeResult}
    (hr : GoesOn env' alertData r q) : GoesOn env alertData r q := by
  refine ⟨hr.unrecorded, hr.hasApplied, fun route team service => ?_⟩
  rw [serviceLoop_same h, serviceLoop_same h]
  exact hr.context route team service

/-- The run with the early end, and the one without it. -/
theorem runFrom_early (env : Env L) (alertData : Dict) (groupId : Id) (route : Option Route)
    (team : Option TeamRow) (service : Option Service) :
    Agree (fun p q => GoesOn env p.2 p.1 q.1 ∧ p.2 = q.2)
      (if (listRuntimeOrchestrations env groupId .global none).isEmpty && service.isNone then
        .ok ({ groupId := some groupId, route, team, service }, alertData)
      else runFrom env alertData groupId route team service)
      (runFrom env alertData groupId route team service) := by
  split
  · rename_i hidle
    obtain ⟨hempty, hservice⟩ := Bool.and_eq_true_iff.mp hidle
    obtain rfl : service = none := Option.isNone_iff_eq_none.mp hservice
    obtain ⟨r, hrun, hgoes⟩ := runFrom_idle alertData route team (List.isEmpty_iff.mp hempty)
    rw [hrun]
    exact .ok ⟨hgoes, rfl⟩
  · exact .refl (fun _ => ⟨⟨rfl, rfl, fun _ _ _ => rfl⟩, rfl⟩) _

/-- What blocks is visible. -/
theorem any_blocks_visible (os : List (Orchestration L)) :
    os.any (·.blocks) = (os.filter (·.visible)).any (·.blocks) := by
  rw [List.any_filter]
  refine congrArg os.any (funext fun o => ?_)
  unfold Orchestration.blocks Orchestration.visible
  cases o.mode <;> rfl

/-- The events of both installations, before the route is looked for. -/
theorem runEventOrchestration_agree (h : SameButShadows env env') (alertData : Dict) :
    Agree (fun p q => GoesOn env p.2 p.1 q.1 ∧ p.2 = q.2)
      (runEventOrchestration env alertData) (runEventOrchestration env' alertData) := by
  have hself : ∀ p : RuntimeResult × Dict, GoesOn env p.2 p.1 p.1 ∧ p.2 = p.2 :=
    fun _ => ⟨⟨rfl, rfl, fun _ _ _ => rfl⟩, rfl⟩
  unfold runEventOrchestration
  rw [← h.db]
  -- the two runs load the same entities
  cases groupIdFromAlert env.db alertData with
  | none => exact .ok (hself _)
  | some groupId =>
    dsimp only
    cases hinitial : initialEntities env.db alertData groupId with
    | error message =>
      dsimp only
      rw [any_blocks_visible, listRuntime_visible h, ← any_blocks_visible]
      exact .refl hself _
    | ok entities =>
      obtain ⟨route, team, service⟩ := entities
      have hleft := runFrom_early env alertData groupId route team service
      have hright := runFrom_early env' alertData groupId route team service
      have hboth := hleft.trans (runFrom_agree h groupId route team service)
        -- each of them ends early, or runs from its entities
        (T := fun p q => GoesOn env p.2 p.1 q.1 ∧ p.2 = q.2) ?_
      · exact hboth.trans hright.symm fun p q o hpq hoq =>
          ⟨hpq.1.trans (by rw [hpq.2, ← hoq.2]; exact (hoq.1.of_same h).symm),
            hpq.2.trans hoq.2.symm⟩
      · intro p q o hpq hqo
        refine ⟨hpq.1.trans ?_, hpq.2.trans hqo.2⟩
        rw [hpq.2]
        exact hqo.1

/-- Without a service, or behind a block, there is no second run. -/
theorem runServiceOrchestration_idle {runtime : RuntimeResult} {route : Option Route}
    {team : Option TeamRow} {service : Option Service}
    (h : runtime.groupId = none ∨ (runtime.blocked || service.isNone) = true) :
    runServiceOrchestration env alertData runtime route team service =
      .ok (runtime, alertData) := by
  unfold runServiceOrchestration
  split
  · rfl
  · rename_i groupId hgroup
    rw [if_pos (h.resolve_left (by rw [hgroup]; exact Option.some_ne_none _))]

/-- Otherwise it is that of the chain. -/
theorem runServiceOrchestration_active {runtime : RuntimeResult} {groupId : Id}
    {route : Option Route} {team : Option TeamRow} {service : Option Service}
    (hgroup : runtime.groupId = some groupId)
    (hactive : (runtime.blocked || service.isNone) = false) :
    runServiceOrchestration env alertData runtime route team service = (do
      let s ← evaluateServiceChain env groupId (textIn alertData "source") maxServiceHandoffs
        (serviceLoop env alertData runtime route team service)
      .ok (s.finish, applyRuntimeToAlertData s.finish alertData)) := by
  unfold runServiceOrchestration
  split
  · rename_i hnone
    rw [hgroup] at hnone
    cases hnone
  · rename_i groupId' hgroup'
    obtain rfl : groupId = groupId' := Option.some.inj (hgroup.symm.trans hgroup')
    rw [if_neg (by rw [hactive]; exact Bool.false_ne_true)]
    rfl

/-- The orchestrations of a service, on results that go on alike. -/
theorem runServiceOrchestration_agree (h : SameButShadows env env') {r q : RuntimeResult}
    (hr : GoesOn env alertData r q) (route : Option Route) (team : Option TeamRow)
    (service : Option Service) :
    Agree (fun p q => (p.1.unrecorded, p.2) = (q.1.unrecorded, q.2))
      (runServiceOrchestration env alertData r route team service)
      (runServiceOrchestration env' alertData q route team service) := by
  have hgroup : r.groupId = q.groupId := congrArg (·.groupId) hr.unrecorded
  have hblocked : r.blocked = q.blocked := congrArg (·.blocked) hr.unrecorded
  -- where there is nothing to run both leave the result
  by_cases hidle : r.groupId = none ∨ (r.blocked || service.isNone) = true
  · rw [runServiceOrchestration_idle hidle,
      runServiceOrchestration_idle (by rw [← hgroup, ← hblocked]; exact hidle)]
    exact .ok (congrArg (·, alertData) hr.unrecorded)
  · obtain ⟨hsome, hactive⟩ := not_or.mp hidle
    obtain ⟨groupId, hid⟩ := Option.ne_none_iff_exists'.mp hsome
    have hactive := Bool.eq_false_iff.mpr hactive
    rw [runServiceOrchestration_active hid hactive,
      runServiceOrchestration_active (hgroup.symm.trans hid) (by rw [← hblocked]; exact hactive)]
    -- else they start from loops that see the same
    have hstart : (serviceLoop env alertData r route team service).seen =
        (serviceLoop env' alertData q route team service).seen := by
      rw [← serviceLoop_same h]
      have hruntime : (serviceLoop env alertData r route team service).runtime.unrecorded =
          (serviceLoop env alertData q route team service).runtime.unrecorded := by
        show ({ r.unrecorded with route, team, service } : RuntimeResult) =
          { q.unrecorded with route, team, service }
        rw [hr.unrecorded]
      have happlied : (serviceLoop env alertData r route team service).runtime.hasApplied =
          (serviceLoop env alertData q route team service).runtime.hasApplied := hr.hasApplied
      unfold Loop.seen
      rw [hruntime, happlied, hr.context route team service]
      rfl
    refine (evaluateServiceChain_seen h maxServiceHandoffs hstart).bind fun s t hst => ?_
    obtain ⟨hdecision, hany, hcontext⟩ := finish_seen hst
    refine .ok ?_
    dsimp only
    rw [hdecision, apply_same hdecision hany hcontext]

/-- `run_event_orchestration(alert_data)`, and `run_service_orchestration` where the
lifecycle goes on with a route and a service: `choose` is what it makes of the decision
and of the alert data. -/
def runBoth (env : Env L)
    (choose : RuntimeResult → Dict →
      Except PyError (Option (Option Route × Option TeamRow × Option Service)))
    (alertData : Dict) : Except PyError (RuntimeResult × Dict) := do
  let (runtime, alertData) ← runEventOrchestration env alertData
  let chosen ← choose runtime.unrecorded alertData
  match chosen with
  | none => .ok (runtime, alertData)
  | some (route, team, service) =>
    runServiceOrchestration env alertData runtime route team service

/-- **Shadow orchestrations do not interfere**: the decision and the alert data do not
depend on them. -/
theorem shadow_noninterference (h : SameButShadows env env')
    (choose : RuntimeResult → Dict →
      Except PyError (Option (Option Route × Option TeamRow × Option Service)))
    (alertData : Dict) :
    (runBoth env choose alertData).map (fun p => (p.1.unrecorded, p.2)) =
      (runBoth env' choose alertData).map (fun p => (p.1.unrecorded, p.2)) := by
  refine Agree.map_eq ?_
  unfold runBoth
  refine (runEventOrchestration_agree h alertData).bind ?_
  rintro ⟨r, data⟩ ⟨q, data'⟩ ⟨hgoes, hdata⟩
  obtain rfl : data = data' := hdata
  dsimp only at hgoes ⊢
  rw [← hgoes.unrecorded]
  refine Agree.bind (.refl (fun _ => rfl) _) ?_
  rintro chosen _ rfl
  cases chosen with
  | none => exact .ok (congrArg (·, data) hgoes.unrecorded)
  | some entities => exact runServiceOrchestration_agree h hgoes _ _ _

end Runs

/-! ## Shadows around an active orchestration -/

/-- A global orchestration that suppresses every event. -/
def suppressing : Orchestration plainLanguage :=
  { hybridGlobal with
    published := some { id := 1, rules := [.mk true .continue () [.run (.suppress none) .continue] []] } }

/-- One that drops every event, in shadow mode. -/
def shadowDrop : Orchestration plainLanguage :=
  { hybridGlobal with
    id := 2, mode := .shadow,
    published := some { id := 2, rules := [.mk true .continue () [.run (.drop none) .continue] []] } }

/-- One without a published version, in shadow mode: its evaluation fails. -/
def shadowFailing : Orchestration plainLanguage :=
  { hybridGlobal with id := 3, mode := .shadow, published := none }

def withShadows : Env plainLanguage :=
  { opsEnv with orchestrations := [shadowDrop, suppressing, shadowFailing] }

def withoutShadows : Env plainLanguage :=
  { opsEnv with orchestrations := [suppressing], recordExecution := fun _ => none }

def diskFull : Dict :=
  [("source", .str "webhook"), ("title", .str "Disk full"), ("status", .str "firing"),
    ("forced_route_id", .int 1)]

/-- The event is suppressed, in both installations. -/
theorem shadow_noninterference_sample :
    (runBoth withShadows (fun _ _ => .ok none) diskFull).map (fun p => p.1.disposition) =
        .ok .suppress ∧
      (runBoth withShadows (fun _ _ => .ok none) diskFull).map (fun p => (p.1.unrecorded, p.2)) =
        (runBoth withoutShadows (fun _ _ => .ok none) diskFull).map
          (fun p => (p.1.unrecorded, p.2)) := by
  have hsame : SameButShadows withShadows withoutShadows :=
    { db := rfl
      defaultHistory := rfl
      now := rfl
      visible := rfl }
  exact ⟨by decide +kernel, shadow_noninterference hsame (fun _ _ => .ok none) diskFull⟩

end IncidentRelay.Orchestration
