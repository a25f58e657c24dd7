import IncidentRelay.Orchestration.ActionSteps
import IncidentRelay.Orchestration.Applied

/-!
# The contexts of an intake

Whatever the orchestrations of a run do, the context that the next one is evaluated on is
the one built from the event, with what the rules before it wrote (`IntakeContext`). The
rules write to a few fields of the event only, so the source, the integration and the
kinds of keys stay (`IntakeContext.fromAlert`).
-/

namespace IncidentRelay.Orchestration

open Json

/-! ## What an action can write -/

section Writes

variable {L : Language} {P : EventActionState → Prop}

/-- A property of states that no write of an action ends. -/
structure ClosedUnderWrites (P : EventActionState → Prop) : Prop where
  event : ∀ {s key value}, key ∈ mutableEventFields →
    (key = "labels" → ∃ labels, value = .obj labels) → P s → P (setEvent s key value)
  result : ∀ {s} r, P s → P { s with result := r }
  entity : ∀ {s} target id, P s → P (RoutingTarget.select s id target)
  vars : ∀ {s} vars, P s → P { s with vars := vars }

theorem TextField.name_mem (field : TextField) :
    field.name ∈ mutableEventFields ∧ field.name ≠ "labels" := by
  cases field <;> decide

/-- What is written of a value. -/
theorem withValue_closed {α : Type} {s : EventActionState} {value : Except PyError α}
    {write : α → EventActionState} {outcome : Outcome} (hwrite : ∀ v, P (write v)) (h : P s) :
    P (withValue s value write outcome).1 := by
  cases value with
  | error e => exact h
  | ok v => exact hwrite v

/-- What is written of the details. -/
theorem withCustomDetails_closed (hP : ClosedUnderWrites P) {s : EventActionState}
    {g : EventActionState → Dict → Effect} (hg : ∀ t details, P t → P (g t details).1) (h : P s) :
    P (withCustomDetails s g).1 := by
  have hdetails : P (withDetails s) := by
    unfold withDetails Dict.setdefault
    split
    · exact h
    · exact hP.event (by decide) (fun heq => absurd heq (by decide)) h
  unfold withCustomDetails
  dsimp only
  split
  · exact hg _ _ hdetails
  · exact hdetails

/-- A step of a grouping. -/
theorem groupingStep_closed {path key : String} {value : Option Json}
    {write : EventActionState → String → EventActionState} {effect : Effect}
    (hwrite : ∀ s text, P s → P (write s text)) (h : P effect.1) :
    P (groupingStep L path key value write effect).1 := by
  obtain ⟨s, outcome⟩ := effect
  unfold groupingStep
  cases outcome with
  | error e => exact h
  | ok outcome =>
    cases value with
    | none => exact h
    | some v => exact withValue_closed (fun text => hwrite s text h) h

theorem executeGrouping_closed (hP : ClosedUnderWrites P) {s : EventActionState} (path : String)
    (g : GroupingAction) (h : P s) : P (executeGrouping L s path g).1 := by
  have hdedup : P (groupingStep L path "dedup_key" g.dedupKey writeDedup (s, .ok .continue)).1 :=
    groupingStep_closed (fun s text hs => hP.event (by decide) (fun heq => absurd heq (by decide))
      (hP.result _ hs)) h
  have hgroup : P (groupingStep L path "group_key" g.groupKey writeGroup
      (groupingStep L path "dedup_key" g.dedupKey writeDedup (s, .ok .continue))).1 :=
    groupingStep_closed (fun s text hs => hP.event (by decide) (fun heq => absurd heq (by decide))
      (hP.result _ hs)) hdedup
  have hstrategy : P (groupingStep L path "strategy" g.strategy writeStrategy
      (groupingStep L path "group_key" g.groupKey writeGroup
        (groupingStep L path "dedup_key" g.dedupKey writeDedup (s, .ok .continue)))).1 :=
    groupingStep_closed (fun s text hs => hP.result _ hs) hgroup
  rw [executeGrouping_eq]
  generalize groupingStep L path "strategy" g.strategy writeStrategy _ = effect at hstrategy
  obtain ⟨left, outcome⟩ := effect
  cases outcome with
  | error e => exact hstrategy
  | ok outcome => exact hP.result _ hstrategy

/-- By the kind of the action. -/
theorem executeAction_closed (hP : ClosedUnderWrites P) {s : EventActionState} (path : String)
    (body : ActionBody) (h : P s) : P (executeAction L s path body).1 := by
  have hevent : ∀ {t key value}, key ∈ mutableEventFields → key ≠ "labels" → P t →
      -- a write to the event outside its labels keeps the property
      P (setEvent t key value) := fun hkey hlabels ht =>
    hP.event hkey (fun heq => absurd heq hlabels) ht
  -- one case for each kind of action, by what it writes
  cases body with
  | setText field source =>
    exact withValue_closed (fun _ => hevent field.name_mem.1 field.name_mem.2 h) h
  | setEventAction source => exact withValue_closed (fun _ => hevent (by decide) (by decide) h) h
  | setTraceLevel level => exact hP.result _ h
  | setAlertEventHistory level => exact hP.result _ h
  | setLabel name source =>
    rw [executeAction]
    split
    · exact h
    · exact withValue_closed (fun _ => hP.event (by decide) (fun _ => ⟨_, rfl⟩) h) h
  | removeLabel name => exact hP.event (by decide) (fun _ => ⟨_, rfl⟩) h
  | setCustomField name source =>
    exact withCustomDetails_closed hP (fun t details ht =>
      withValue_closed (fun _ => hevent (by decide) (by decide) ht) ht) h
  | removeCustomField name =>
    exact withCustomDetails_closed hP (fun t details ht => hevent (by decide) (by decide) ht) h
  | setRouting target id => exact hP.entity target id h
  | setPolicy kind id => exact hP.result _ h
  | setGrouping g => exact executeGrouping_closed hP path g h
  | addNote source => exact withValue_closed (fun _ => hP.result _ h) h
  | enqueueWebhook actionId => exact hP.result _ h
  | suppress reason => exact withValue_closed (fun _ => hP.result _ h) h
  | pause seconds retrigger reason => exact withValue_closed (fun _ => hP.result _ h) h
  | drop reason => exact withValue_closed (fun _ => hP.result _ h) h

/-- So what is closed under the writes of actions holds behind each entry. -/
theorem entry_closed (hP : ClosedUnderWrites P) {s : EventActionState} (e : Entry L) (h : P s) :
    P (e.effect s) := by
  cases e with
  | visit path rule matched => exact h
  | finish path rule => exact h
  | step path ran =>
    obtain ⟨index, action, success, outcome⟩ := ran
    cases action with
    | run body onFailure => exact executeAction_closed hP _ body h
    | extract extractor =>
      show P ((⟨index, .extract extractor, success, outcome⟩ : ActionStep L).effect s)
      unfold ActionStep.effect
      dsimp only
      split
      · exact hP.vars _ h
      · exact h

/-- What no write ends holds behind an evaluation. By induction on the log. -/
theorem evaluated_closed (hP : ClosedUnderWrites P) {defaultHistory : HistoryLevel}
    {rules : List (Rule L)} {context : Context} {r : OrchestrationExecutionResult L}
    (hrun : executeRuleTreeTraced L defaultHistory rules context = .ok r)
    (h : ∀ s, EventActionState.fromContext defaultHistory context = .ok s → P s) : P r.state := by
  obtain ⟨s, hstart, hwalk, -⟩ := executeRuleTreeTraced_walk hrun
  rw [← hwalk.sees.2]
  generalize logs r.rules = log
  have hs := h s hstart
  clear hstart hwalk h
  induction log generalizing s with
  | nil => exact hs
  | cons e log ih => exact ih _ (entry_closed hP e hs)

end Writes

/-! ## The contexts -/

section Contexts

variable {L : Language}

/-- A context that the intake of an event comes to: the one built from the event, with
what any rules and any entities make of it. -/
inductive IntakeContext (env : Env L) (alertData : Dict) : Context → Prop where
  | built (route : Option Route) (team : Option TeamRow) (service : Option Service) :
      IntakeContext env alertData (buildRuntimeContext env.now alertData route team service)
  | evaluated {c : Context} {rules : List (Rule L)} {r : OrchestrationExecutionResult L} :
      IntakeContext env alertData c →
      executeRuleTreeTraced L env.defaultHistory rules c = .ok r →
      IntakeContext env alertData r.state.context
  | refreshed {c : Context} (route : Option Route) (team : Option TeamRow)
      (service : Option Service) : IntakeContext env alertData c →
      IntakeContext env alertData (refreshEntityContext c route team service)

variable {env : Env L} {alertData : Dict}

/-- What the event of a run keeps. -/
structure Context.FromAlert (alertData : Dict) (c : Context) : Prop where
  keys : ∀ kv ∈ c.event, contextKey kv.1 = true
  labels : Dict.get c.event "labels" = some (.obj c.labels)
  source : Dict.get c.event "source" = Dict.get alertData "source"
  integration : c.integration =
    [("name", alertData.getD "source"), ("source", alertData.getD "source")]

/-- An entry after a key was set. -/
theorem mem_set {d : Dict} {key : String} {value : Json} {kv : String × Json}
    (h : kv ∈ d.set key value) : kv.1 = key ∨ kv ∈ d := by
  induction d with
  | nil =>
    obtain rfl := List.mem_singleton.mp h
    exact .inl rfl
  | cons first rest ih =>
    obtain ⟨k, v⟩ := first
    unfold Dict.set at h
    split at h
    · next hk =>
      rcases List.mem_cons.mp h with rfl | hrest
      · exact .inl (beq_iff_eq.mp hk)
      · exact .inr (List.mem_cons_of_mem _ hrest)
    · rcases List.mem_cons.mp h with rfl | hrest
      · exact .inr List.mem_cons_self
      · exact (ih hrest).imp id (List.mem_cons_of_mem _)

/-- The fields of a context are those of the event. -/
theorem get_filter_contextKey (d : Dict) {key : String} (h : contextKey key = true) :
    Dict.get (d.filter fun kv => contextKey kv.1) key = Dict.get d key := by
  induction d with
  | nil => rfl
  | cons kv d ih =>
    obtain ⟨k, v⟩ := kv
    rw [Dict.get_cons, List.filter_cons]
    by_cases hk : k = key
    · rw [if_pos hk, if_pos (hk ▸ h), Dict.get_cons, if_pos hk]
    · rw [if_neg hk]
      split
      · rw [Dict.get_cons, if_neg hk, ih]
      · exact ih

/-- No action writes a field that a context does not have. -/
theorem fromAlert_closed (alertData : Dict) :
    ClosedUnderWrites fun s => s.context.FromAlert alertData where
  event := by
    intro s key value hkey hlabels h
    refine ⟨fun kv hkv => ?_, ?_, ?_, h.integration⟩
    -- the key was there before, or it is a field of the event
    · rcases mem_set hkv with hnew | hold
      · rw [hnew]
        have hall : ∀ key ∈ mutableEventFields, contextKey key = true := by decide
        exact hall key hkey
      · exact h.keys kv hold
    · show Dict.get (s.event.set key value) "labels" =
        some (.obj (Dict.getD (s.event.set key value) "labels").asDict)
      unfold Dict.getD
      by_cases heq : key = "labels"
      · obtain ⟨labels, rfl⟩ := hlabels heq
        rw [heq, Dict.get_set_self]
        rfl
      · rw [Dict.get_set_of_ne _ _ (Ne.symm heq)]
        exact h.labels
    · have hother : "source" ≠ key := by
        rintro rfl
        exact absurd hkey (by decide)
      exact (Dict.get_set_of_ne _ _ hother).trans h.source
  result := fun _ h => ⟨h.keys, h.labels, h.source, h.integration⟩
  entity := by
    intro s target id h
    cases target <;> exact ⟨h.keys, h.labels, h.source, h.integration⟩
  vars := fun _ h => ⟨h.keys, h.labels, h.source, h.integration⟩

/-- An orchestration starts with the fields of its context. -/
theorem fromContext_fromAlert {defaultHistory : HistoryLevel} {c : Context} {s : EventActionState}
    (h : c.FromAlert alertData) (hstart : EventActionState.fromContext defaultHistory c = .ok s) :
    s.context.FromAlert alertData := by
  unfold EventActionState.fromContext at hstart
  obtain ⟨-, -, hstart⟩ := bind_eq_ok.mp hstart
  obtain ⟨labels, hlabels, hstart⟩ := bind_eq_ok.mp hstart
  obtain rfl := jsonCopy_eq_ok hlabels
  iterate 8
    obtain ⟨-, -, hstart⟩ := bind_eq_ok.mp hstart
  cases hstart
  -- the labels are those that the event has
  have hevent : c.event.set "labels" (.obj c.labels) = c.event :=
    (Dict.set_eq_self_iff _ _ _).mpr h.labels
  refine ⟨?_, ?_, ?_, h.integration⟩
  · show ∀ kv ∈ c.event.set "labels" (.obj c.labels), _
    rw [hevent]
    exact h.keys
  · show Dict.get (c.event.set "labels" (.obj c.labels)) "labels" =
      some (.obj (Dict.getD (c.event.set "labels" (.obj c.labels)) "labels").asDict)
    unfold Dict.getD
    rw [Dict.get_set_self]
    rfl
  · show Dict.get (c.event.set "labels" (.obj c.labels)) "source" = _
    rw [hevent]
    exact h.source

/-- A context is built from the alert. -/
theorem built_fromAlert (now : String) (alertData : Dict) (route : Option Route)
    (team : Option TeamRow) (service : Option Service) :
    (buildRuntimeContext now alertData route team service).FromAlert alertData := by
  refine ⟨fun kv hkv => ?_, Dict.get_set_self _ _ _, ?_, rfl⟩
  · rcases mem_set hkv with hlabels | hevent
    · rw [hlabels]
      decide
    · exact (List.mem_filter.mp hevent).2
  · exact (Dict.get_set_of_ne _ _ (by decide)).trans (get_filter_contextKey _ (by decide))

/-- Every context of an intake has the source and the integration of the event. -/
theorem IntakeContext.fromAlert {c : Context} (h : IntakeContext env alertData c) :
    c.FromAlert alertData := by
  induction h with
  | built route team service => exact built_fromAlert _ _ _ _ _
  | evaluated hc hrun ih =>
    exact evaluated_closed (fromAlert_closed alertData) hrun fun s => fromContext_fromAlert ih
  | refreshed route team service hc ih => exact ⟨ih.keys, ih.labels, ih.source, ih.integration⟩

/-! ## The runs come to such contexts only -/

variable {groupId : Id} {source : Option String}

/-- One round leaves such a context. -/
theorem Round.intake {s t : Loop} {l : Option (Applied L)} (h : Round env groupId source s l t)
    (hs : IntakeContext env alertData s.context) : IntakeContext env alertData t.context := by
  cases h with
  | recorded happlied => exact hs
  | blocked reason => exact hs
  | settled => exact hs
  | entered service => exact hs
  | exhausted => exact hs
  | applied h =>
    obtain ⟨rules, hrun⟩ := h.evaluated
    obtain ⟨step, -, -, rfl⟩ := h.committed
    exact .refreshed _ _ _ (.evaluated hs hrun)

theorem Rounds.intake {s t : Loop} {as : List (Applied L)} (h : Rounds env groupId source s as t)
    (hs : IntakeContext env alertData s.context) : IntakeContext env alertData t.context := by
  obtain ⟨ls, hrun, -⟩ := h
  exact hrun.invariant (fun hs hround => hround.intake hs) hs

end Contexts

end IncidentRelay.Orchestration
