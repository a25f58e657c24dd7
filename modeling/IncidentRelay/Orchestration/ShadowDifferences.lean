import IncidentRelay.Orchestration.ShadowMetrics

/-!
# What the shadow metrics report

The candidate of a stored trace is what the evaluation's context kept, cut and redacted
(`candidate_shown`), and a row adds to a counter where that differs from the stored
snapshot of the alert (`changes_insert`). A row reports exactly the differences that its
executed actions make when the fields no action wrote were already those of the alert
(`metrics_real_iff`).
-/

namespace IncidentRelay.Orchestration

open Json Redaction

/-! ## Sizes -/

/-- An object that is accepted is small, and so are its values. -/
theorem validate_obj {path : String} {depth : ℕ} {kvs : Dict}
    (h : validateJsonValue path depth (.obj kvs) = .ok ()) :
    kvs.length ≤ maxActionCollectionItems ∧ validateEntries path (depth + 1) kvs = .ok () := by
  rw [validateJsonValue] at h
  split_ifs at h with hdepth hlength
  exact ⟨not_lt.mp hlength, h⟩

/-- What is under a key of it was accepted. -/
theorem validateEntries_get {path : String} {depth : ℕ} {kvs : Dict} {key : String} {value : Json}
    (h : validateEntries path depth kvs = .ok ()) (hget : Dict.get kvs key = some value) :
    validateJsonValue (path ++ "." ++ key) depth value = .ok () := by
  induction kvs with
  | nil => cases hget
  | cons kv kvs ih =>
    obtain ⟨k, x⟩ := kv
    rw [validateEntries] at h
    split at h
    · cases h
    · next hfirst =>
      rw [Dict.get_cons] at hget
      split_ifs at hget with hk
      · cases hget
        cases hk
        exact hfirst
      · exact ih h hget

/-- A context that can be copied has no large object in it. -/
structure Context.Small (c : Context) : Prop where
  event : c.event.length ≤ maxActionCollectionItems
  route : c.route.length ≤ maxActionCollectionItems
  team : c.team.length ≤ maxActionCollectionItems
  service : c.service.length ≤ maxActionCollectionItems

/-- A state that is returned is small enough for the trace. -/
theorem toDict_small {s : EventActionState} {c : Context} (h : s.toDict = .ok c) :
    s.context.Small := by
  unfold EventActionState.toDict at h
  obtain ⟨copy, hcopy, -⟩ := bind_eq_ok.mp h
  unfold jsonCopy at hcopy
  obtain ⟨⟨⟩, hvalid, -⟩ := bind_eq_ok.mp hcopy
  obtain ⟨-, hentries⟩ := validate_obj hvalid
  have hpart : ∀ (key : String) {kvs : Dict},
      Dict.get s.context.toJson.asDict key = some (.obj kvs) →
      kvs.length ≤ maxActionCollectionItems := fun key kvs hget =>
    (validate_obj (validateEntries_get hentries hget)).1
  exact ⟨hpart "event" rfl, hpart "route" rfl, hpart "team" rfl, hpart "service" rfl⟩

/-! ## The stored values -/

section Shown

variable {u : CharClasses} {depth : ℕ}

theorem safe_null (h : depth ≤ 12) : safeTraceValue {} u depth .null = .null := by
  unfold safeTraceValue
  rw [boundedTraceValue, if_neg (not_lt.mpr h), redactSecrets]

/-- A stored dictionary, with the values of another at a depth of the trace. -/
def Shows (u : CharClasses) (depth : ℕ) (kvs stored : Dict) : Prop :=
  ∀ key, isSensitiveKey key = false →
    Dict.get stored key = (Dict.get kvs key).map (safeTraceValue {} u depth)

/-- A stored object shows what it stores under its keys. -/
theorem Shows.getD {kvs stored : Dict} {key : String} (h : Shows u depth kvs stored)
    (hdepth : depth ≤ 12) (hkey : isSensitiveKey key = false) :
    stored.getD key = safeTraceValue {} u depth (kvs.getD key) := by
  unfold Dict.getD
  rw [h key hkey]
  cases Dict.get kvs key with
  | none => exact (safe_null hdepth).symm
  | some value => rfl

theorem Shows.under {kvs stored : Dict} (h : Shows u depth kvs stored) (key : String)
    (sub : Dict) (hdepth : depth ≤ 12) (hkey : isSensitiveKey key = false)
    (hsub : Dict.get kvs key = some (.obj sub)) (hlength : sub.length ≤ 512) :
    Shows u (depth + 1) sub (under stored key) := by
  obtain ⟨safe, hsafe, hget⟩ := stored_obj u depth sub hdepth hlength
  have hunder : Orchestration.under stored key = safe := by
    unfold Orchestration.under
    rw [h.getD hdepth hkey, show Dict.getD kvs key = .obj sub from congrArg (·.getD .null) hsub,
      hsafe, asDict_orElse]
  rw [hunder]
  exact hget

/-- The candidate's value of a field, as a trace shows it. -/
def Context.shown (u : CharClasses) (c : Context) (f : ChangeField) : Json :=
  (safeTraceValue {} u 4 (c.selected f)).orElse (safeTraceValue {} u 3 (c.found f))

/-- What is shown depends on what is kept. -/
theorem shown_of_kept {c c' : Context} {f : ChangeField} (h : c.kept f = c'.kept f) :
    c.shown u f = c'.shown u f := by
  unfold Context.shown
  rw [show c.selected f = c'.selected f from congrArg Prod.fst h,
    show c.found f = c'.found f from congrArg Prod.snd h]

theorem length_entry (key : String) (value : Option Json) : (entry key value).length ≤ 1 := by
  cases value <;> simp [entry]

/-- A routing is small. -/
theorem routing_small (r : Routing) : r.toJson.asDict.length ≤ 512 := by
  have hroute := length_entry "route_id" (r.routeId.map fun n : Id => Json.int n)
  have hteam := length_entry "team_id" (r.teamId.map fun n : Id => Json.int n)
  have hservice := length_entry "service_id" (r.serviceId.map fun n : Id => Json.int n)
  show (idEntry _ _ ++ idEntry _ _ ++ idEntry _ _).length ≤ 512
  simp only [idEntry, List.length_append]
  omega

theorem grouping_small (g : Grouping) : g.toJson.asDict.length ≤ 512 := by
  have hdedup := length_entry "dedup_key" (g.dedupKey.map Json.str)
  have hgroup := length_entry "group_key" (g.groupKey.map Json.str)
  have hstrategy := length_entry "strategy" (g.strategy.map Json.str)
  have hwindow := length_entry "window_seconds" (g.windowSeconds.map fun n : Nat => Json.int n)
  have hreopen :=
    length_entry "reopen_window_seconds" (g.reopenWindowSeconds.map fun n : Nat => Json.int n)
  show (entry _ _ ++ entry _ _ ++ entry _ _ ++ entry _ _ ++ entry _ _).length ≤ 512
  simp only [List.length_append]
  omega

/-- The ids of a routing under their keys. -/
theorem routing_ids (r : Routing) :
    r.toJson.asDict.getD "route_id" = idJson r.routeId ∧
      r.toJson.asDict.getD "team_id" = idJson r.teamId ∧
      r.toJson.asDict.getD "service_id" = idJson r.serviceId := by
  obtain ⟨route, team, service⟩ := r
  cases route <;> cases team <;> cases service <;> exact ⟨rfl, rfl, rfl⟩

theorem grouping_key (g : Grouping) : g.toJson.asDict.getD "group_key" = optText g.groupKey := by
  obtain ⟨dedup, group, strategy, window, reopen⟩ := g
  cases dedup <;> cases group <;> cases strategy <;> cases window <;> cases reopen <;> rfl

/-- The candidate of a stored context is what the context kept of each field. -/
theorem candidate_shown {s : EventActionState} {stored : Dict} (hsmall : s.context.Small)
    (h : Shows u 2 s.context.toJson.asDict stored) (f : ChangeField) :
    (candidateValues stored).getD f.key = s.context.shown u f := by
  -- what is compared of the candidate is stored in the event, the result and the entities
  have hevent := h.under "event" _ (by omega) (by decide) rfl hsmall.event
  have hresult := h.under "result" s.result.toJson.asDict (by omega) (by decide) rfl
     (by show 15 ≤ 512; omega)
  obtain ⟨hroute, hteam, hservice⟩ := routing_ids s.result.routing
  have hrouting := hresult.under "routing" s.result.routing.toJson.asDict (by omega)
    (by decide) rfl (routing_small _)
  cases f with
  | route =>
    have hentity := h.under "route" _ (by omega) (by decide) rfl hsmall.route
    show ((under _ "routing").getD "route_id").orElse ((under stored "route").getD "id") = _
    rw [hrouting.getD (by omega) (by decide), hentity.getD (by omega) (by decide), hroute]
    rfl
  | team =>
    have hentity := h.under "team" _ (by omega) (by decide) rfl hsmall.team
    show ((under _ "routing").getD "team_id").orElse ((under stored "team").getD "id") = _
    rw [hrouting.getD (by omega) (by decide), hentity.getD (by omega) (by decide), hteam]
    rfl
  | service =>
    have hentity := h.under "service" _ (by omega) (by decide) rfl hsmall.service
    show ((under _ "routing").getD "service_id").orElse ((under stored "service").getD "id") = _
    rw [hrouting.getD (by omega) (by decide), hentity.getD (by omega) (by decide), hservice]
    rfl
  | severity =>
    show (under stored "event").getD "severity" = _
    rw [hevent.getD (by omega) (by decide)]
    unfold Context.shown Context.selected
    dsimp only
    rw [safe_null (by omega)]
    rfl
  | title =>
    show (under stored "event").getD "title" = _
    rw [hevent.getD (by omega) (by decide)]
    unfold Context.shown Context.selected
    dsimp only
    rw [safe_null (by omega)]
    rfl
  | grouping =>
    have hgrouping := hresult.under "grouping" s.result.grouping.toJson.asDict (by omega)
      (by decide) rfl (grouping_small _)
    show ((under _ "grouping").getD "group_key").orElse ((under stored "event").getD "group_key") = _
    rw [hgrouping.getD (by omega) (by decide), hevent.getD (by omega) (by decide),
      grouping_key]
    rfl

end Shown

/-! ## What a row adds -/

section Counts

variable (floats : Floats)

/-- The row counts as a change of the field. -/
def counts (row : ExecutionRow) (f : ChangeField) : Bool :=
  let trace := (row.traceJson.orElse (.obj [])).asDict
  let (candidate, actual) := candidateActualValues trace
  trace.getD "mode" = .str "shadow" && (trace.getD "result").truthy &&
    !(trace.getD "error").truthy && !(trace.getD "rejected_reason").truthy && !actual.isEmpty &&
    differs floats candidate actual f

/-- One row more is counted if it differs. -/
theorem changes_countRow (m : ShadowMetrics) (row : ExecutionRow) (f : ChangeField) :
    (countRow floats m row).changes f = m.changes f + countIf (counts floats row f) := by
  unfold countRow counts
  dsimp only
  split_ifs with hmode
  · rw [decide_eq_false hmode]
    simp [countIf]
  · rw [decide_eq_true (not_not.mp hmode)]
    dsimp only
    congr 2
    rw [Bool.true_and, Bool.and_comm (!List.isEmpty _)]

/-- By induction on the rows. -/
theorem changes_foldl (f : ChangeField) (m : ShadowMetrics) (rows : List ExecutionRow) :
    (rows.foldl (countRow floats) m).changes f =
      m.changes f + (rows.map fun row => countIf (counts floats row f)).sum := by
  induction rows generalizing m with
  | nil => rfl
  | cons row rows ih =>
    rw [List.foldl_cons, ih, changes_countRow, List.map_cons, List.sum_cons, Nat.add_assoc]

theorem changes_insert (f : ChangeField) (before after : List ExecutionRow) (row : ExecutionRow) :
    (metricsOf floats (before ++ row :: after)).changes f =
      (metricsOf floats (before ++ after)).changes f + countIf (counts floats row f) := by
  unfold metricsOf
  rw [changes_foldl, changes_foldl]
  simp only [List.map_append, List.map_cons, List.sum_append, List.sum_cons]
  omega

end Counts

/-! ## The law -/

section Law

variable {L : Language}

/-- The row of an execution in shadow mode. -/
structure ShadowRow (u : CharClasses) (d : TraceDetails L) (o : Orchestration L)
    (defaultHistory : HistoryLevel) (version : Version L) (context : Context)
    (row : ExecutionRow) : Prop where
  shadow : o.mode = .shadow
  published : o.published = some version
  stored : executionTrace u d o context
    (executeRuleTreeTraced L defaultHistory version.rules context) = .ok row.traceJson

/-- The evaluation starts in a state and has a result. -/
structure Executed (defaultHistory : HistoryLevel) (version : Version L) (context : Context)
    (s : EventActionState) (r : OrchestrationExecutionResult L) : Prop where
  start : EventActionState.fromContext defaultHistory context = .ok s
  result : executeRuleTreeTraced L defaultHistory version.rules context = .ok r

section Differences

variable (floats : Floats) (defaultHistory : HistoryLevel) (version : Version L)
  (context : Context) (group : Option Alerts.AlertGroup) (alert : Option Alerts.Alert)

/-- The executed actions write the field, and what they make of it is not what the
lifecycle made of it. -/
def RealDifference (f : ChangeField) : Prop :=
  ∃ s r, Executed defaultHistory version context s r ∧ gave f s (logs r.rules) = true ∧
    pyEq floats (r.state.context.value f) ((actualResultSnapshot group alert).getD f.key) = false

/-- The row reports the differences that its actions make, and no others, in the metrics
over any other rows. -/
structure ReportsReal (u : CharClasses) (runtime : RuntimeResult) (row : ExecutionRow) : Prop where
  /-- without an executed action the row adds nothing -/
  idle : (∀ s r, Executed defaultHistory version context s r →
      (logs r.rules).all (·.visitOnly) = true) → ∀ f before after,
    (metricsOf floats (attachRuntimeExecutions u group alert (some runtime)
        (before ++ row :: after))).changes f =
      (metricsOf floats (attachRuntimeExecutions u group alert (some runtime)
        (before ++ after))).changes f
  /-- it adds a change exactly where there is a difference -/
  counted : ∀ f before after,
    (metricsOf floats (attachRuntimeExecutions u group alert (some runtime)
        (before ++ row :: after))).changes f =
      (metricsOf floats (attachRuntimeExecutions u group alert (some runtime)
        (before ++ after))).changes f + 1 ↔
    RealDifference floats defaultHistory version context group alert f

/-- The field of the context is already the one of the alert, where no action writes it;
where one does, the trace shows a difference to the alert when there is one. -/
def SettledBefore (u : CharClasses) (f : ChangeField) : Prop :=
  ∀ s r, Executed defaultHistory version context s r →
    if gave f s (logs r.rules) then
      pyEq floats (r.state.context.shown u f)
          (safeTraceValue {} u 1 ((actualResultSnapshot group alert).getD f.key)) =
        pyEq floats (r.state.context.value f) ((actualResultSnapshot group alert).getD f.key)
    else
      pyEq floats (context.shown u f)
        (safeTraceValue {} u 1 ((actualResultSnapshot group alert).getD f.key)) = true

end Differences

variable {floats : Floats} {u : CharClasses} {d : TraceDetails L} {o : Orchestration L}
  {defaultHistory : HistoryLevel} {version : Version L} {context : Context}
  {group : Option Alerts.AlertGroup} {alert : Option Alerts.Alert} {runtime : RuntimeResult}
  {row : ExecutionRow}

variable (u group alert) in
/-- What the metrics read back from an attached trace. -/
theorem attached_trace {trace : Dict} (hrow : row.traceJson = .obj trace) :
    (((attachActual u group alert row).traceJson).orElse (.obj [])).asDict =
      trace.set "actual_result" (safeTraceValue {} u 0 (.obj (actualResultSnapshot group alert))) := by
  show ((Json.obj _).orElse (.obj [])).asDict = _
  rw [asDict_orElse, hrow, asDict_orElse]

variable (u group alert) in
/-- What the lifecycle left, as it is attached to a row. -/
theorem actual_shown (trace : Dict) (f : ChangeField) :
    let actual := under (trace.set "actual_result"
      (safeTraceValue {} u 0 (.obj (actualResultSnapshot group alert)))) "actual_result"
    actual.isEmpty = false ∧
      actual.getD f.key = safeTraceValue {} u 1 ((actualResultSnapshot group alert).getD f.key) := by
  obtain ⟨safe, hsafe, hget⟩ := stored_obj u 0 (actualResultSnapshot group alert) (by omega)
    (by show 10 ≤ 512; omega)
  have hshows : Shows u 1 (actualResultSnapshot group alert) safe := hget
  have hunder : under (trace.set "actual_result"
      (safeTraceValue {} u 0 (.obj (actualResultSnapshot group alert)))) "actual_result" = safe := by
    unfold under Dict.getD
    rw [Dict.get_set_self, hsafe]
    exact asDict_orElse safe
  dsimp only
  rw [hunder]
  refine ⟨?_, hshows.getD (by omega) (by cases f <;> decide)⟩
  cases safe with
  | nil => cases hget "route_id" (by decide)
  | cons kv safe => rfl

theorem getD_set_of_ne (d : Dict) {key other : String} (value : Json) (h : other ≠ key) :
    (d.set key value).getD other = d.getD other := by
  unfold Dict.getD
  rw [Dict.get_set_of_ne _ _ h]

/-- A row of an evaluation that failed is not compared. -/
theorem counts_failed {e : PyError} (h : executionTrace u d o context (.error e) = .ok row.traceJson)
    (f : ChangeField) : counts floats (attachActual u group alert row) f = false := by
  have htrace := attached_trace u group alert (Except.ok.inj h).symm
  unfold counts
  dsimp only
  rw [htrace, getD_set_of_ne _ _ (by decide), getD_set_of_ne _ _ (by decide)]
  simp [Dict.getD, Dict.get_cons, Json.truthy]

/-- A row with a result counts where the candidate that is shown is not the alert that is
shown. -/
theorem counts_result {r : OrchestrationExecutionResult L} (hshadow : o.mode = .shadow)
    (h : executionTrace u d o context (.ok r) = .ok row.traceJson) (f : ChangeField) :
    counts floats (attachActual u group alert row) f =
      !pyEq floats (r.state.context.shown u f)
        (safeTraceValue {} u 1 ((actualResultSnapshot group alert).getD f.key)) := by
  obtain ⟨copy, hcopy, h⟩ := bind_eq_ok.mp h
  have hrow : row.traceJson = .obj (recordedTrace u d o context r).asDict := (Except.ok.inj h).symm
  have htrace := attached_trace u group alert hrow
  have hother : ∀ key, key ≠ "actual_result" →
      Dict.getD ((((attachActual u group alert row).traceJson).orElse (.obj [])).asDict) key =
        Dict.getD (recordedTrace u d o context r).asDict key := by
    intro key hkey
    rw [htrace, getD_set_of_ne _ _ hkey]
  obtain ⟨safe, hsafe, hget⟩ := stored_obj u 0 (r.toDict d) (by omega)
    (by show (5 : ℕ) ≤ 512; omega)
  have hshows : Shows u 1 (r.toDict d) safe := hget
  have hsome : (Json.obj safe).truthy = true := by
    cases safe with
    | nil => cases hget "outcome" (by decide)
    | cons kv safe => rfl
  -- the keys of the trace that the comparison reads
  have hmode := hother "mode" (by decide)
  have hresult := hother "result" (by decide)
  have herror := hother "error" (by decide)
  have hrejected := hother "rejected_reason" (by decide)
  rw [show Dict.getD (recordedTrace u d o context r).asDict "mode" = .str o.mode.text from rfl,
    hshadow] at hmode
  rw [show Dict.getD (recordedTrace u d o context r).asDict "result" = .obj safe from hsafe]
    at hresult
  rw [show Dict.getD (recordedTrace u d o context r).asDict "error" = .null from rfl] at herror
  rw [show Dict.getD (recordedTrace u d o context r).asDict "rejected_reason" = .null from rfl]
    at hrejected
  have hcontext : Shows u 2 r.state.context.toJson.asDict (under safe "context") :=
    hshows.under _ _ (by omega) (by decide) rfl (by show 10 ≤ 512; omega)
  have hunder : under ((((attachActual u group alert row).traceJson).orElse (.obj [])).asDict)
      "result" = safe := by
    unfold under
    rw [hresult, asDict_orElse]
  obtain ⟨hactual, hvalue⟩ := actual_shown u group alert
    (recordedTrace u d o context r).asDict f
  unfold counts candidateActualValues differs
  dsimp only
  rw [hmode, hresult, herror, hrejected, hunder, hsome, candidate_shown (toDict_small hcopy) hcontext,
    htrace, hactual, hvalue]
  rfl

theorem executed_unique {s s' : EventActionState} {r r' : OrchestrationExecutionResult L}
    (h : Executed defaultHistory version context s r)
    (h' : Executed defaultHistory version context s' r') : s = s' ∧ r = r' :=
  ⟨Except.ok.inj (h.start.symm.trans h'.start), Except.ok.inj (h.result.symm.trans h'.result)⟩

/-- A field that no executed action writes ends as it was. -/
theorem shown_keeps {s : EventActionState} {r : OrchestrationExecutionResult L} {f : ChangeField}
    (h : Executed defaultHistory version context s r) (hgave : gave f s (logs r.rules) = false) :
    r.state.context.shown u f = context.shown u f := by
  obtain ⟨s', hstart, hwalk, -⟩ := executeRuleTreeTraced_walk h.result
  obtain rfl : s = s' := Except.ok.inj (h.start.symm.trans hstart)
  have hreplay := replay_keeps hgave
  rw [hwalk.sees.2] at hreplay
  exact shown_of_kept (hreplay.trans (fromContext_kept h.start f))

/-- The counter of a field, where the row counts. -/
theorem counts_iff (h : ShadowRow u d o defaultHistory version context row) (f : ChangeField) :
    (counts floats (attachActual u group alert row) f = true ↔
        RealDifference floats defaultHistory version context group alert f) ↔
      SettledBefore floats defaultHistory version context group alert u f := by
  have hstored := h.stored
  -- an evaluation that fails gives no state and is not counted
  cases hresult : executeRuleTreeTraced L defaultHistory version.rules context with
  | error e =>
    rw [hresult] at hstored
    have hnone : ∀ s r, ¬Executed defaultHistory version context s r := fun s r hran => by
      cases hresult.symm.trans hran.result
    refine iff_of_true ?_ fun s r hran => absurd hran (hnone s r)
    rw [counts_failed hstored f]
    exact iff_of_false Bool.false_ne_true fun ⟨s, r, hran, _⟩ => hnone s r hran
  -- one that succeeds gives exactly one state and one result
  | ok r =>
    rw [hresult] at hstored
    obtain ⟨s, hstart, -, -⟩ := executeRuleTreeTraced_walk hresult
    have hran : Executed defaultHistory version context s r := ⟨hstart, hresult⟩
    have hreal : RealDifference floats defaultHistory version context group alert f ↔
        gave f s (logs r.rules) = true ∧ pyEq floats (r.state.context.value f)
          ((actualResultSnapshot group alert).getD f.key) = false := by
      constructor
      · rintro ⟨s', r', hran', hdiffers⟩
        obtain ⟨rfl, rfl⟩ := executed_unique hran hran'
        exact hdiffers
      · exact fun hdiffers => ⟨s, r, hran, hdiffers⟩
    have hsettled : ∀ P : EventActionState → OrchestrationExecutionResult L → Prop,
        (∀ s r, Executed defaultHistory version context s r → P s r) ↔ P s r := by
      refine fun P => ⟨fun hall => hall s r hran, fun hone s' r' hran' => ?_⟩
      obtain ⟨rfl, rfl⟩ := executed_unique hran hran'
      exact hone
    unfold SettledBefore
    rw [hsettled, hreal, counts_result h.shadow hstored]
    -- a field that the rules gave is compared, any other one is as it was before
    cases hgave : gave f s (logs r.rules) with
    | true =>
      rw [if_pos rfl]
      cases pyEq floats (r.state.context.shown u f) _ <;>
        cases pyEq floats (r.state.context.value f) _ <;> decide
    | false =>
      rw [if_neg Bool.false_ne_true, shown_keeps hran hgave]
      cases pyEq floats (context.shown u f) _ <;> simp

/-- **The metrics report the differences that the rules make, and no others, exactly when
each field that no executed action writes was the one of the alert already, and the trace
shows a written field to differ where it does.** -/
theorem metrics_real_iff (h : ShadowRow u d o defaultHistory version context row)
    (hrow : row.id ∈ runtime.executionIds.map fun id : Id => (id : ℕ)) :
    ReportsReal floats defaultHistory version context group alert u runtime row ↔
      ∀ f, SettledBefore floats defaultHistory version context group alert u f := by
  -- one row more is the row itself
  have hinsert : ∀ f before after,
      (metricsOf floats (attachRuntimeExecutions u group alert (some runtime)
          (before ++ row :: after))).changes f =
        (metricsOf floats (attachRuntimeExecutions u group alert (some runtime)
          (before ++ after))).changes f +
          countIf (counts floats (attachActual u group alert row) f) := by
    intro f before after
    unfold attachRuntimeExecutions
    dsimp only
    rw [List.map_append, List.map_append, List.map_cons, if_pos hrow, changes_insert]
  constructor
  · intro hreports f
    refine (counts_iff h f).mp ?_
    rw [← hreports.counted f [] [], hinsert]
    cases counts floats (attachActual u group alert row) f <;> simp [countIf]
  · intro hsettled
    have hcounts := fun f => (counts_iff h f).mpr (hsettled f)
    -- the counters do not move where nothing differs, and move by one where something does
    refine ⟨fun hidle f before after => ?_, fun f before after => ?_⟩
    · have hnone : counts floats (attachActual u group alert row) f = false := by
        refine Bool.eq_false_iff.mpr fun htrue => ?_
        obtain ⟨s, r, hran, hgave, -⟩ := (hcounts f).mp htrue
        rw [gave_of_idle (hidle s r hran)] at hgave
        cases hgave
      rw [hinsert, hnone]
      rfl
    · rw [← hcounts f, hinsert]
      cases counts floats (attachActual u group alert row) f <;> simp [countIf]

end Law

/-! ## An event that the routing completes -/

/-- A definition whose one rule has no action. -/
def idleVersion : Version plainLanguage := { id := 1, rules := [.mk true .continue () [] []] }

/-- A definition that sets the title. -/
def retitling : Version plainLanguage :=
  { id := 1
    rules := [.mk true .continue ()
      [.run (.setText .title (.value (.str "Disk nearly full"))) .continue] []] }

def shadowOf (version : Version plainLanguage) : Orchestration plainLanguage :=
  { hybridGlobal with mode := .shadow, published := some version }

theorem shadow_service_mem (route : Route) (alertData : Dict) :
    ∀ service ∈ Alerts.plainServices.resolveAlertService route alertData, service ∈ opsEnv.db.services := by
  simp [Alerts.plainServices]

/-- An installation with one route and the orchestration. -/
def shadowSite (version : Version plainLanguage) : Alerts.Site plainLanguage :=
  { Alerts.plainServices with
    orc := { opsEnv with orchestrations := [shadowOf version] }
    chars := asciiClasses
    settings := {}
    activationError := fun _ => "RuntimeError"
    service_mem := shadow_service_mem }

/-- An event of a team, without a route. -/
def unroutedEvent : Dict :=
  [("source", .str "webhook"), ("title", .str "Disk full"), ("status", .str "firing"),
    ("severity", .str "critical"), ("team_slug", .str "ops"), ("dedup_key", .str "disk")]

/-- An event with a route and a group key of its own. -/
def routedEvent : Dict :=
  [("source", .str "webhook"), ("title", .str "Disk full"), ("status", .str "firing"),
    ("severity", .str "critical"), ("forced_route_id", .int 1), ("dedup_key", .str "disk"),
    ("group_key", .str "disk")]

section Samples

variable (version : Version plainLanguage) (event : Dict)

/-- The context that the orchestration is evaluated on. -/
def contextFor (route : Option Route) : Context :=
  (startLoop (shadowSite version).orc event 1 route (route.map (·.team)) none).context

def runtimeFor : RuntimeResult :=
  match runEventOrchestration (shadowSite version).orc event with
  | .ok (r, _) => r
  | .error _ => {}

/-- What the lifecycle stores of the event. -/
def alertFor : Option Alerts.Alert :=
  (Alerts.upsertAlert (shadowSite version) event 0 Alerts.World.init).store.alerts.rows.head?

def groupFor : Option Alerts.AlertGroup :=
  (Alerts.upsertAlert (shadowSite version) event 0 Alerts.World.init).store.groups.rows.head?

/-- Python without floats that are integers. -/
def noFloats : Floats where
  integer := fun _ => none

def rowFor (context : Context) (r : OrchestrationExecutionResult plainLanguage) : ExecutionRow where
  id := 1
  uid := "run"
  group := 1
  traceJson := recordedTrace asciiClasses plainDetails (shadowOf version) context r
  orchestration := 1
  matchedRuleCount := 1
  createdAt := some 0

/-- A shadow execution, with what is read off its start and its result. -/
theorem shadow_executed {β : Type} (context : Context) (x : β)
    (f : EventActionState → OrchestrationExecutionResult plainLanguage → β)
    (h : (do
      let s ← EventActionState.fromContext .full context
      let r ← executeRuleTreeTraced plainLanguage .full version.rules context
      let _ ← r.state.toDict
      Except.ok (f s r) : Except PyError β) = .ok x) :
    ∃ s r, Executed .full version context s r ∧ f s r = x ∧
      ShadowRow asciiClasses plainDetails (shadowOf version) .full version context
        (rowFor version context r) := by
  obtain ⟨s, hstart, h⟩ := bind_eq_ok.mp h
  obtain ⟨r, hresult, h⟩ := bind_eq_ok.mp h
  obtain ⟨copy, hcopy, h⟩ := bind_eq_ok.mp h
  refine ⟨s, r, ⟨hstart, hresult⟩, Except.ok.inj h, rfl, rfl, ?_⟩
  rw [hresult]
  exact bind_eq_ok.mpr ⟨copy, hcopy, rfl⟩

end Samples

/-- The orchestration does nothing, and the route that the event gets behind it counts as
a routing change. -/
theorem legacy_routing_counted :
    ∃ row, ShadowRow asciiClasses plainDetails (shadowOf idleVersion) .full idleVersion
        (contextFor idleVersion unroutedEvent none) row ∧
      ¬ReportsReal noFloats .full idleVersion (contextFor idleVersion unroutedEvent none)
        (groupFor idleVersion unroutedEvent) (alertFor idleVersion unroutedEvent) asciiClasses
        (runtimeFor idleVersion unroutedEvent) row := by
  -- the rules of the version do nothing, and the routing of the lifecycle is counted all the same
  obtain ⟨s, r, hran, hread, hrow⟩ := shadow_executed idleVersion
    (contextFor idleVersion unroutedEvent none) (true, 1)
    (fun s r => ((logs r.rules).all (·.visitOnly),
      (metricsOf noFloats (attachRuntimeExecutions asciiClasses (groupFor idleVersion unroutedEvent)
        (alertFor idleVersion unroutedEvent) (some (runtimeFor idleVersion unroutedEvent))
        [rowFor idleVersion (contextFor idleVersion unroutedEvent none) r])).changes .route))
    (by decide +kernel)
  obtain ⟨hvisits, hone⟩ := Prod.ext_iff.mp hread
  refine ⟨_, hrow, fun hreports => ?_⟩
  have hidle := hreports.idle (fun s' r' hran' => by
    obtain ⟨-, rfl⟩ := executed_unique hran hran'
    exact hvisits) .route [] []
  rw [List.nil_append] at hidle
  dsimp only at hone
  rw [hone] at hidle
  cases hidle

/-- The route, the severity and the group key are there before, and the title is set. -/
theorem metrics_real_sample :
    ∃ row, ShadowRow asciiClasses plainDetails (shadowOf retitling) .full retitling
        (contextFor retitling routedEvent (some opsRoute)) row ∧
      RealDifference noFloats .full retitling (contextFor retitling routedEvent (some opsRoute))
        (groupFor retitling routedEvent) (alertFor retitling routedEvent) .title ∧
      ReportsReal noFloats .full retitling (contextFor retitling routedEvent (some opsRoute))
        (groupFor retitling routedEvent) (alertFor retitling routedEvent) asciiClasses
        (runtimeFor retitling routedEvent) row := by
  obtain ⟨s, r, hran, hread, hrow⟩ := shadow_executed retitling
    (contextFor retitling routedEvent (some opsRoute)) (true, false, true)
    (fun s r => (gave .title s (logs r.rules),
      pyEq noFloats (r.state.context.value .title)
        ((actualResultSnapshot (groupFor retitling routedEvent)
          (alertFor retitling routedEvent)).getD ChangeField.title.key),
      [ChangeField.route, .team, .service, .severity, .title, .grouping].all fun f =>
        decide (if gave f s (logs r.rules) then
          pyEq noFloats (r.state.context.shown asciiClasses f)
              (safeTraceValue {} asciiClasses 1 ((actualResultSnapshot
                (groupFor retitling routedEvent) (alertFor retitling routedEvent)).getD f.key)) =
            pyEq noFloats (r.state.context.value f) ((actualResultSnapshot
              (groupFor retitling routedEvent) (alertFor retitling routedEvent)).getD f.key)
        else
          pyEq noFloats
            ((contextFor retitling routedEvent (some opsRoute)).shown asciiClasses f)
            (safeTraceValue {} asciiClasses 1 ((actualResultSnapshot
              (groupFor retitling routedEvent) (alertFor retitling routedEvent)).getD f.key)) = true)))
    (by decide +kernel)
  obtain ⟨hgave, hrest⟩ := Prod.ext_iff.mp hread
  obtain ⟨hdiffers, hall⟩ := Prod.ext_iff.mp hrest
  refine ⟨_, hrow, ⟨s, r, hran, hgave, hdiffers⟩, (metrics_real_iff hrow ?_).mpr ?_⟩
  · show (1 : ℕ) ∈ (runtimeFor retitling routedEvent).executionIds.map _
    decide +kernel
  · intro f s' r' hran'
    -- the only field that the rules gave is the title, which differs
    obtain ⟨rfl, rfl⟩ := executed_unique hran hran'
    exact of_decide_eq_true (List.all_eq_true.mp hall f (by cases f <;> decide))

end IncidentRelay.Orchestration
