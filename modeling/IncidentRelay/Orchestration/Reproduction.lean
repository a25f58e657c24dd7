import IncidentRelay.Orchestration.Replay
import IncidentRelay.Orchestration.Shadow

/-!
# What a replay reproduces

A replay starts from the event and the payload of the stored context, so the variables,
the result and the entities that the orchestrations in front of an execution left are
lost. Every execution on a context is reproduced exactly when the context holds nothing
of them (`replays_iff`).
-/

namespace IncidentRelay.Orchestration

open Json Redaction

/-! ## The state that an evaluation starts in -/

def startState (defaultHistory : HistoryLevel) (c : Context) : EventActionState :=
  { event := c.event.set "labels" (.obj c.labels)
    raw := c.raw
    vars := c.vars
    route := c.route
    service := c.service
    team := c.team
    integration := c.integration
    time := c.time
    result := c.result.getD { alertEventHistory := defaultHistory } }

/-- The state that an orchestration starts with. -/
theorem fromContext_state {defaultHistory : HistoryLevel} {c : Context} {s : EventActionState}
    (h : EventActionState.fromContext defaultHistory c = .ok s) : s = startState defaultHistory c := by
  unfold EventActionState.fromContext at h
  obtain ⟨-, -, h⟩ := bind_eq_ok.mp h
  obtain ⟨labels, hlabels, h⟩ := bind_eq_ok.mp h
  obtain rfl := jsonCopy_eq_ok hlabels
  iterate 8
    obtain ⟨-, -, h⟩ := bind_eq_ok.mp h
  cases h
  rfl

theorem jsonCopy_empty : jsonCopy "result" (.obj []) = .ok (.obj []) := by decide +kernel

/-- A result that is the one of a new context may as well be missing. -/
theorem fromContext_fresh {defaultHistory : HistoryLevel} {c : Context} {s : EventActionState}
    (hresult : c.result.getD { alertEventHistory := defaultHistory } =
      { alertEventHistory := defaultHistory })
    (h : EventActionState.fromContext defaultHistory c = .ok s) :
    EventActionState.fromContext defaultHistory { c with result := none } = .ok s := by
  have hs := fromContext_state h
  unfold EventActionState.fromContext at h ⊢
  obtain ⟨event, hevent, h⟩ := bind_eq_ok.mp h
  obtain ⟨labels, hlabels, h⟩ := bind_eq_ok.mp h
  obtain ⟨-, -, h⟩ := bind_eq_ok.mp h
  refine bind_eq_ok.mpr ⟨event, hevent, bind_eq_ok.mpr ⟨labels, hlabels,
    bind_eq_ok.mpr ⟨.obj [], jsonCopy_empty, ?_⟩⟩⟩
  iterate 7
    obtain ⟨value, hvalue, h⟩ := bind_eq_ok.mp h
    refine bind_eq_ok.mpr ⟨value, hvalue, ?_⟩
  cases h
  dsimp only
  rw [hresult]
  rfl

/-! ## The law -/

section Law

variable {L : Language}

/-- `{"now": evaluated_at}` -/
def timeAt (evaluatedAt : String) : Dict := [("now", .str evaluatedAt)]

/-- The context can be copied into a state and out of it. -/
def Copies (defaultHistory : HistoryLevel) (c : Context) : Prop :=
  ∃ s copy, EventActionState.fromContext defaultHistory c = .ok s ∧ s.toDict = .ok copy

/-- The trace keeps the whole context, and the context is within the limits of a copy, at
the time of the execution and at that of the replay. -/
structure WithinLimits (u : CharClasses) (defaultHistory : HistoryLevel) (evaluatedAt : String)
    (c : Context) : Prop where
  shown : safeTraceValue {} u 0 c.toJson = c.toJson
  fits : Copies defaultHistory c
  fitsThen : Copies defaultHistory (c.withTime (timeAt evaluatedAt))

/-- The row that an execution of a version on a context has written. What was attached to
the trace behind it does not matter. -/
structure WrittenRow (u : CharClasses) (d : TraceDetails L) (env : Env L) (o : Orchestration L)
    (version : Version L) (c : Context) (r : OrchestrationExecutionResult L)
    (row : ReplayedRow) : Prop where
  ran : executeRuleTreeTraced L env.defaultHistory version.rules c = .ok r
  copied : ∃ copy, r.state.toDict = .ok copy
  group : row.group = o.group
  stored : (row.traceJson.orElse (.obj [])).asDict.getD "initial_context" =
    (recordedTrace u d o c r).asDict.getD "initial_context"

/-- The replay reports the disposition, the rules and, up to its time, the final context of
the execution. -/
def Reproduces (replayed : Except String (Except PyError (Simulation L)))
    (r : OrchestrationExecutionResult L) : Prop :=
  ∃ result, replayed = .ok (.ok (.ran result)) ∧
    result.disposition.type = r.state.result.disposition ∧ result.execution.rules = r.rules ∧
    result.finalContext.withTime [] = r.state.context.withTime []

/-- Every execution on the context, of a valid version that does not read the time, is
reproduced from the row that it wrote. -/
def Replays (u : CharClasses) (d : TraceDetails L) (env : Env L) (settings : SimulatorSettings L)
    (o : Orchestration L) (evaluatedAt : String) (c : Context) : Prop :=
  ∀ version r row, RulesTimeBlind version.rules → validationErrors env.db settings o version = [] →
    WrittenRow u d env o version c r row →
    (∃ copy, (r.state.withTime (timeAt evaluatedAt)).toDict = .ok copy) →
    Reproduces (replayExecution env settings o version row evaluatedAt) r

/-- The event that a replay takes from a context. -/
def Context.replayedEvent (c : Context) : Dict :=
  if c.raw = [] then c.event else c.event.set "payload" (.obj c.raw)

/-- The context has nothing but the event and the entities that the event names. -/
structure Rebuildable (env : Env L) (settings : SimulatorSettings L) (o : Orchestration L)
    (c : Context) : Prop where
  /-- the event has a source, a dedup key and a title -/
  complete : missingKeys c.event = []
  small : (compactJson (.obj c.replayedEvent)).utf8ByteSize ≤ settings.maximumBytes
  /-- no orchestration before has set a variable -/
  vars : c.vars = []
  /-- none has set anything in the result -/
  result : c.result.getD { alertEventHistory := env.defaultHistory } =
    { alertEventHistory := env.defaultHistory }
  /-- the entities are those that the event names -/
  entities : ∃ route team service,
    simulatedEntities env.db o c.event = .ok (route, team, service) ∧
    c.route = contextOf Route.context route ∧ c.team = contextOf TeamRow.context team ∧
    c.service = contextOf Service.context service

/-! ## The event that is replayed -/

section Event

variable {alertData : Dict} {c : Context}

/-- A default for what is there. -/
theorem setdefault_of_get {d : Dict} {key : String} {value : Json} (h : Dict.get d key = some value)
    (other : Json) : d.setdefault key other = d := by
  have hset : d.setdefault key value = d := by
    unfold Dict.setdefault
    split
    · rfl
    · exact (Dict.set_eq_self_iff _ _ _).mpr h
  exact (setdefault_eq_self_iff d key other).mpr ((setdefault_eq_self_iff d key value).mp hset)

/-- What is not null is there. -/
theorem get_of_getD {d : Dict} {key : String} (h : Dict.getD d key ≠ .null) :
    ∃ value, Dict.get d key = some value := by
  unfold Dict.getD at h
  cases hget : Dict.get d key with
  | none =>
    rw [hget] at h
    exact absurd rfl h
  | some value => exact ⟨value, rfl⟩

/-- An event without missing fields has each of them. -/
theorem missing_of_mem {event : Dict} {key : String} (h : missingKeys event = [])
    (hkey : key ∈ ["source", "dedup_key", "title"]) : Dict.getD event key ≠ .null := by
  intro hnull
  have hmem : key ∈ missingKeys event := by
    refine List.mem_filter.mpr ⟨hkey, ?_⟩
    rw [hnull]
    rfl
  rw [h] at hmem
  cases hmem

/-- A context has no other fields. -/
theorem Context.FromAlert.get_none (h : c.FromAlert alertData) {key : String}
    (hkey : contextKey key = false) : Dict.get c.event key = none := by
  unfold Dict.get
  rw [List.find?_eq_none.mpr]
  · rfl
  · intro kv hkv heq
    have hin := h.keys kv hkv
    rw [beq_iff_eq.mp heq, hkey] at hin
    cases hin

/-- A replayed event has those of the context. -/
theorem getD_replayedEvent (c : Context) {key : String} (h : key ≠ "payload") :
    c.replayedEvent.getD key = c.event.getD key := by
  unfold Context.replayedEvent Dict.getD
  split
  · rfl
  · rw [Dict.get_set_of_ne _ _ h]

theorem filter_replayedEvent (h : c.FromAlert alertData) :
    (c.replayedEvent.filter fun kv => contextKey kv.1) = c.event := by
  have hall : (c.event.filter fun kv => contextKey kv.1) = c.event := List.filter_eq_self.mpr h.keys
  unfold Context.replayedEvent
  split
  · exact hall
  · have hnew : ∀ d : Dict, Dict.get d "payload" = none →
        ((d.set "payload" (.obj c.raw)).filter fun kv => contextKey kv.1) =
          d.filter fun kv => contextKey kv.1 := by
      intro d hd
      -- the payload is put behind keys of the context only
      induction d with
      | nil =>
        unfold Dict.set
        rw [List.filter_cons, if_neg (by show ¬contextKey "payload" = true; decide)]
      | cons kv d ih =>
        obtain ⟨k, v⟩ := kv
        rw [Dict.get_cons] at hd
        split_ifs at hd with hk
        unfold Dict.set
        rw [if_neg (by simpa using hk), List.filter_cons, List.filter_cons, ih hd]
    exact (hnew _ (h.get_none (by decide))).trans hall

/-- The event of a stored context, whatever it lacks. -/
theorem eventFromExecution_eq {u : CharClasses} {d : TraceDetails L} {env : Env L}
    {o : Orchestration L} {version : Version L} {r : OrchestrationExecutionResult L}
    {row : ReplayedRow} (h : c.FromAlert alertData)
    (hshown : safeTraceValue {} u 0 c.toJson = c.toJson)
    (hrow : WrittenRow u d env o version c r row) :
    eventFromExecution row =
      (((c.replayedEvent.setdefault "source" (.str (orText row.source "webhook"))).setdefault
        "dedup_key" (.str (orText row.eventFingerprint ("execution:" ++ toString row.id)))).setdefault
        "title" (.str ("Replay execution " ++ toString row.id))).setdefault "labels" (.obj []) := by
  have hinitial : under (row.traceJson.orElse (.obj [])).asDict "initial_context" =
      c.toJson.asDict := by
    unfold under
    rw [hrow.stored, show (recordedTrace u d o c r).asDict.getD "initial_context" =
      safeTraceValue {} u 0 c.toJson from rfl, hshown]
    exact asDict_orElse _
  -- the raw payload is what the replay adds
  have hevent : under c.toJson.asDict "event" = c.event := asDict_orElse c.event
  have hpayload : Dict.getD c.event "payload" = .null := by
    unfold Dict.getD
    rw [h.get_none (by decide)]
    rfl
  unfold eventFromExecution
  dsimp only
  rw [hinitial, hevent, hpayload, show Dict.getD c.toJson.asDict "raw" = .obj c.raw from rfl]
  unfold Context.replayedEvent
  cases c.raw with
  | nil => rfl
  | cons kv raw => rfl

/-- Of an event with its keys there it is the event and its payload. -/
theorem eventFromExecution_complete {u : CharClasses} {d : TraceDetails L} {env : Env L}
    {o : Orchestration L} {version : Version L} {r : OrchestrationExecutionResult L}
    {row : ReplayedRow} (h : c.FromAlert alertData)
    (hshown : safeTraceValue {} u 0 c.toJson = c.toJson)
    (hrow : WrittenRow u d env o version c r row) (hcomplete : missingKeys c.event = []) :
    eventFromExecution row = c.replayedEvent := by
  -- what is there is not asked for again
  have hthere : ∀ {key}, key ≠ "payload" → Dict.getD c.event key ≠ .null → ∀ other,
      c.replayedEvent.setdefault key other = c.replayedEvent := by
    intro key hkey hnull other
    rw [← getD_replayedEvent c hkey] at hnull
    obtain ⟨value, hvalue⟩ := get_of_getD hnull
    exact setdefault_of_get hvalue other
  have hlabels : Dict.getD c.event "labels" ≠ .null := by
    unfold Dict.getD
    rw [h.labels]
    exact fun heq => by cases heq
  rw [eventFromExecution_eq h hshown hrow,
    hthere (by decide) (missing_of_mem hcomplete (by simp)),
    hthere (by decide) (missing_of_mem hcomplete (by simp)),
    hthere (by decide) (missing_of_mem hcomplete (by simp)), hthere (by decide) hlabels]

theorem missingKeys_congr {event event' : Dict}
    (h : ∀ key ∈ ["source", "dedup_key", "title"], event.getD key = event'.getD key) :
    missingKeys event = missingKeys event' :=
  List.filter_congr fun key hkey => by rw [h key hkey]

/-- The entities of a simulation on those that name them. -/
theorem simulatedEntities_congr {db : Entities} {o : Orchestration L} {event event' : Dict}
    (h : ∀ key ∈ ["forced_route_id", "forced_team_id", "service_id", "source"],
      event.getD key = event'.getD key) :
    simulatedEntities db o event = simulatedEntities db o event' := by
  have hinitial : initialEntities db event o.group = initialEntities db event' o.group := by
    unfold initialEntities textIn
    rw [h "forced_route_id" (by simp), h "forced_team_id" (by simp), h "service_id" (by simp),
      h "source" (by simp)]
  unfold simulatedEntities
  rw [hinitial]

/-- A prepared event is complete and small enough. -/
theorem prepare_spec {maximumBytes : ℕ} {event normalized : Dict}
    (h : prepareNormalizedEvent maximumBytes event = .ok normalized) :
    normalized = event ∧ missingKeys event = [] ∧
      (compactJson (.obj event)).utf8ByteSize ≤ maximumBytes := by
  unfold prepareNormalizedEvent at h
  split_ifs at h with hsize hmissing
  have hsize := not_lt.mp hsize
  have hmissing := not_not.mp hmissing
  split at h
  · cases h
    exact ⟨rfl, hmissing, hsize⟩
  · cases h
    exact ⟨rfl, hmissing, hsize⟩
  · cases h

theorem prepare_complete {maximumBytes : ℕ} (h : c.FromAlert alertData)
    (hcomplete : missingKeys c.event = [])
    (hsmall : (compactJson (.obj c.replayedEvent)).utf8ByteSize ≤ maximumBytes) :
    prepareNormalizedEvent maximumBytes c.replayedEvent = .ok c.replayedEvent := by
  have hmissing : missingKeys c.replayedEvent = [] := by
    rw [← hcomplete]
    refine missingKeys_congr fun key hkey => getD_replayedEvent c ?_
    rintro rfl
    exact absurd hkey (by decide)
  have hlabels : c.replayedEvent.getD "labels" = .obj c.labels := by
    rw [getD_replayedEvent c (by decide)]
    unfold Dict.getD
    rw [h.labels]
    rfl
  unfold prepareNormalizedEvent
  rw [if_neg (not_lt.mpr hsmall), if_neg (by simpa using hmissing), hlabels]

/-- The context that is built around the event. -/
theorem rebuilt_eq (h : c.FromAlert alertData) (evaluatedAt : String) (route : Option Route)
    (team : Option TeamRow) (service : Option Service) :
    buildRuntimeContext evaluatedAt c.replayedEvent route team service =
      { c with
        vars := []
        route := contextOf Route.context route
        team := contextOf TeamRow.context team
        service := contextOf Service.context service
        time := timeAt evaluatedAt
        result := none } := by
  have hlabels : (Dict.getD c.event "labels").asDict = c.labels := by
    unfold Dict.getD
    rw [h.labels]
    rfl
  have hevent : c.event.set "labels" (.obj c.labels) = c.event :=
    (Dict.set_eq_self_iff _ _ _).mpr h.labels
  have hsource : c.replayedEvent.getD "source" = alertData.getD "source" := by
    rw [getD_replayedEvent c (by decide)]
    unfold Dict.getD
    rw [h.source]
  -- the raw payload of the context is found under its key
  have hraw : ((c.replayedEvent.getD "raw").orElse (c.replayedEvent.getD "payload")).asDict =
      c.raw := by
    rw [getD_replayedEvent c (by decide)]
    unfold Dict.getD
    rw [h.get_none (by decide)]
    unfold Context.replayedEvent
    split
    · next hempty =>
      rw [h.get_none (by decide), hempty]
      rfl
    · rw [Dict.get_set_self]
      rfl
  unfold buildRuntimeContext buildContext
  dsimp only
  rw [filter_replayedEvent h, hlabels, hevent, hraw, hsource, ← h.integration]
  rfl

end Event

/-! ## The replay -/

section Replay

variable {u : CharClasses} {d : TraceDetails L} {env : Env L} {settings : SimulatorSettings L}
  {o : Orchestration L} {evaluatedAt : String} {alertData : Dict} {c : Context}

/-- A context without anything of other orchestrations is rebuilt, and the evaluation of it
is the one that the row was written for. -/
theorem replays_of_rebuildable (h : c.FromAlert alertData)
    (hw : WithinLimits u env.defaultHistory evaluatedAt c) (hc : Rebuildable env settings o c) :
    Replays u d env settings o evaluatedAt c := by
  intro version r row hblind hvalid hrow ⟨copy, hcopy⟩
  obtain ⟨route, team, service, hentities, hroute, hteam, hservice⟩ := hc.entities
  obtain ⟨s, -, hs, -⟩ := hw.fits
  obtain ⟨s', copy', hs', hcopy'⟩ := hw.fitsThen
  have hlater : s' = s.withTime (timeAt evaluatedAt) := by
    rw [fromContext_state hs, fromContext_state hs']
    rfl
  -- the rebuilt context is the context at another time, without its result
  have hrebuilt : buildRuntimeContext evaluatedAt c.replayedEvent route team service =
      { c.withTime (timeAt evaluatedAt) with result := none } := by
    rw [rebuilt_eq h, ← hroute, ← hteam, ← hservice, ← hc.vars]
    rfl
  have hstart := fromContext_fresh (c := c.withTime (timeAt evaluatedAt)) hc.result hs'
  have hrun := executeRuleTree_withTime hblind (c := c) (timeAt evaluatedAt) hs (hlater ▸ hstart)
  rw [hrow.ran] at hrun
  have hprepared := prepare_complete h hc.complete hc.small
  have hsimulated : simulatedEntities env.db o c.replayedEvent = .ok (route, team, service) := by
    rw [← hentities]
    refine simulatedEntities_congr fun key hkey => getD_replayedEvent c ?_
    rintro rfl
    exact absurd hkey (by decide)
  have hrun : simulateVersion env settings o version c.replayedEvent evaluatedAt =
      .ok (.ran (simulationResult env o c.replayedEvent
        (buildRuntimeContext evaluatedAt c.replayedEvent route team service)
        { route, team, service, escalation := none, priority := none, notification := none }
        { r with state := r.state.withTime (timeAt evaluatedAt) } copy)) := by
    rw [← hrebuilt] at hstart hrun
    exact (simulateVersion_ran env settings o version).mpr ⟨hvalid, _, _, _, _, hprepared, hsimulated,
      s', copy', _, _, hstart, hcopy', hrun, hcopy, rfl⟩
  refine ⟨simulationResult env o c.replayedEvent
    (buildRuntimeContext evaluatedAt c.replayedEvent route team service)
    { route, team, service, escalation := none, priority := none, notification := none }
    { r with state := r.state.withTime (timeAt evaluatedAt) } copy, ?_, rfl, rfl, ?_⟩
  · unfold replayExecution
    rw [if_neg (by simpa using hrow.group), eventFromExecution_complete h hw.shown hrow hc.complete,
      hprepared]
    show Except.ok _ = _
    rw [hrun]
  · show copy.withTime [] = _
    rw [(toDict_eq_ok hcopy).1]
    rfl

/-- Without rules nothing happens. -/
theorem executeRuleTree_nil {defaultHistory : HistoryLevel} {s : EventActionState}
    (h : EventActionState.fromContext defaultHistory c = .ok s) :
    executeRuleTreeTraced L defaultHistory [] c =
      .ok { state := s, rules := [], outcome := if s.result.dropped then "drop" else "continue" } := by
  unfold executeRuleTreeTraced
  rw [h]
  rfl

/-- What the version without rules leaves of a context that is built around an event. -/
theorem getD_startState {event : Dict} {route : Option Route} {team : Option TeamRow}
    {service : Option Service} {key : String} (hkey : contextKey key = true)
    (hlabels : key ≠ "labels") :
    Dict.getD (startState env.defaultHistory
      (buildRuntimeContext evaluatedAt event route team service)).event key = event.getD key := by
  unfold startState buildRuntimeContext buildContext Dict.getD
  dsimp only
  rw [Dict.get_set_of_ne _ _ hlabels, Dict.get_set_of_ne _ _ hlabels, get_filter_contextKey _ hkey]

/-- An execution without rules is reproduced with the whole context only. -/
theorem rebuildable_of_replays {row : ReplayedRow} {r : OrchestrationExecutionResult L}
    (h : c.FromAlert alertData) (hshown : safeTraceValue {} u 0 c.toJson = c.toJson)
    (hrow : WrittenRow u d env o { id := 1, rules := [] } c r row)
    (hr : r.state = startState env.defaultHistory c)
    (hreplay : Reproduces
      (replayExecution env settings o { id := 1, rules := [] } row evaluatedAt) r) :
    Rebuildable env settings o c := by
  obtain ⟨result, hreplay, -, -, hfinal⟩ := hreplay
  unfold replayExecution at hreplay
  -- the event was accepted and prepared, and its entities were found
  rw [if_neg (by simpa using hrow.group)] at hreplay
  obtain ⟨event, hevent, hreplay⟩ := bind_eq_ok.mp hreplay
  obtain ⟨-, normalized, route, team, service, hprepared, hentities, baseline, copy, execution,
    final, hbaseline, hcopy, hexecution, hlast, rfl⟩ :=
      (simulateVersion_ran env settings o _).mp (Except.ok.inj hreplay)
  obtain ⟨rfl, hmissing, hsize⟩ := prepare_spec hevent
  obtain ⟨rfl, -, -⟩ := prepare_spec hprepared
  rw [executeRuleTree_nil hbaseline] at hexecution
  cases hexecution
  rw [show final = baseline.context from (toDict_eq_ok hlast).1, hr, fromContext_state hbaseline]
    at hfinal
  -- the context of before has the same values under its keys
  have hsame : ∀ key, contextKey key = true → key ≠ "labels" →
      (eventFromExecution row).getD key = c.event.getD key := by
    intro key hkey hlabels
    have hevents := congrArg (fun c => Dict.getD (Context.event c) key) hfinal
    rw [← @getD_startState _ env evaluatedAt _ route team service key hkey hlabels]
    refine hevents.trans ?_
    show Dict.getD (c.event.set "labels" (.obj c.labels)) key = _
    rw [(Dict.set_eq_self_iff _ _ _).mpr h.labels]
  -- so nothing of the event is missing
  have hcomplete : missingKeys c.event = [] := by
    rw [← hmissing]
    refine (missingKeys_congr fun key hkey => hsame key ?_ ?_).symm
    · have hall : ∀ key ∈ ["source", "dedup_key", "title"], contextKey key = true := by decide
      exact hall key hkey
    · rintro rfl
      exact absurd hkey (by decide)
  rw [eventFromExecution_complete h hshown hrow hcomplete] at hentities hsize
  have hnamed : simulatedEntities env.db o c.event = .ok (route, team, service) := by
    rw [← hentities]
    refine (simulatedEntities_congr fun key hkey => getD_replayedEvent c ?_).symm
    rintro rfl
    exact absurd hkey (by decide)
  have hvars := congrArg Context.vars hfinal
  have hresult := congrArg Context.result hfinal
  exact ⟨hcomplete, hsize, hvars.symm, (Option.some.inj hresult).symm, route, team, service, hnamed,
    (congrArg Context.route hfinal).symm, (congrArg Context.team hfinal).symm,
    (congrArg Context.service hfinal).symm⟩

/-- The version without rules is among those that are reproduced. -/
theorem rebuildable_of_all (h : c.FromAlert alertData) (hscope : scopeErrors env.db o = [])
    (hw : WithinLimits u env.defaultHistory evaluatedAt c)
    (hreplays : Replays u d env settings o evaluatedAt c) : Rebuildable env settings o c := by
  obtain ⟨s, copy, hs, hcopy⟩ := hw.fits
  obtain ⟨s', copy', hs', hcopy'⟩ := hw.fitsThen
  have hlater : s' = s.withTime (timeAt evaluatedAt) := by
    rw [fromContext_state hs, fromContext_state hs']
    rfl
  -- the execution of a version without rules ends with the context it starts with
  let r : OrchestrationExecutionResult L :=
    { state := s, rules := [], outcome := if s.result.dropped then "drop" else "continue" }
  let row : ReplayedRow :=
    { id := 1, uid := "", group := o.group, traceJson := recordedTrace u d o c r, source := none,
      eventFingerprint := none }
  have hrow : WrittenRow u d env o { id := 1, rules := [] } c r row :=
    ⟨executeRuleTree_nil hs, ⟨copy, hcopy⟩, rfl, rfl⟩
  have hvalid : validationErrors env.db settings o { id := 1, rules := [] } = [] := by
    unfold validationErrors
    rw [hscope]
    rfl
  exact rebuildable_of_replays h hw.shown hrow (fromContext_state hs)
    (hreplays _ r row trivial hvalid hrow ⟨copy', hlater ▸ hcopy'⟩)

/-- **On a context that an intake comes to, every execution is reproduced by its replay
exactly when the context holds nothing but an event that is complete and small enough, and
the entities that the event names.** -/
theorem replays_iff (h : IntakeContext env alertData c) (hscope : scopeErrors env.db o = [])
    (hw : WithinLimits u env.defaultHistory evaluatedAt c) :
    Replays u d env settings o evaluatedAt c ↔ Rebuildable env settings o c :=
  ⟨rebuildable_of_all h.fromAlert hscope hw, replays_of_rebuildable h.fromAlert hw⟩

end Replay

end Law

/-! ## A chain of two orchestrations -/

/-- An orchestration without rules, behind the one that suppresses. -/
def recordingOnly : Orchestration plainLanguage :=
  { hybridGlobal with id := 2, published := some { id := 2, rules := [] } }

def chainEnv : Env plainLanguage :=
  { opsEnv with orchestrations := [suppressing, recordingOnly] }

def plainSettings : SimulatorSettings plainLanguage where
  maximumBytes := 1048576
  ruleErrors := fun _ => []

/-- An event with a route and a dedup key. -/
def keyedEvent : Dict :=
  [("source", .str "webhook"), ("title", .str "Disk full"), ("status", .str "firing"),
    ("forced_route_id", .int 1), ("dedup_key", .str "disk")]

/-- The loop of the event, at its start. -/
def keyedLoop : Loop :=
  startLoop chainEnv keyedEvent 1 (some opsRoute) (some opsTeam) none

/-- The context behind the first orchestration. -/
def suppressedContext : Context :=
  match evaluateOrchestrations chainEnv 1 (some "webhook") [suppressing] keyedLoop with
  | .ok s => s.context
  | .error _ => keyedLoop.context

def replayTime : String := "2024-01-02T00:00:00"

/-- The context is one of an intake. -/
theorem suppressedContext_intake : IntakeContext chainEnv keyedEvent suppressedContext := by
  unfold suppressedContext
  cases hrun : evaluateOrchestrations chainEnv 1 (some "webhook") [suppressing] keyedLoop with
  | error e => exact .built _ _ _
  | ok s => exact (evaluateOrchestrations_rounds hrun).intake (.built _ _ _)

/-- What can be started can be copied. -/
theorem copies_of_isOk {defaultHistory : HistoryLevel} {c : Context}
    (h : (EventActionState.fromContext defaultHistory c >>= (·.toDict)).isOk = true) :
    Copies defaultHistory c := by
  cases hcopy : EventActionState.fromContext defaultHistory c >>= (·.toDict) with
  | error e =>
    rw [hcopy] at h
    cases h
  | ok copy =>
    obtain ⟨s, hs, hcopy⟩ := bind_eq_ok.mp hcopy
    exact ⟨s, copy, hs, hcopy⟩

/-- The second orchestration ends with the suppression of the first, and its replay with
none. -/
theorem earlier_suppression_lost :
    IntakeContext chainEnv keyedEvent suppressedContext ∧
      WithinLimits asciiClasses .full replayTime suppressedContext ∧
      ¬Replays asciiClasses plainDetails chainEnv plainSettings recordingOnly replayTime
        suppressedContext := by
  -- one evaluation for all that is read of the context
  obtain ⟨hshown, hfits, hthen, hscope, hset⟩ :
      safeTraceValue {} asciiClasses 0 suppressedContext.toJson = suppressedContext.toJson ∧
      (EventActionState.fromContext .full suppressedContext >>= (·.toDict)).isOk = true ∧
      (EventActionState.fromContext .full (suppressedContext.withTime (timeAt replayTime)) >>=
        (·.toDict)).isOk = true ∧
      scopeErrors chainEnv.db recordingOnly = [] ∧
      suppressedContext.result.getD { alertEventHistory := .full } ≠
        { alertEventHistory := .full } := by decide +kernel
  have hw : WithinLimits asciiClasses .full replayTime suppressedContext :=
    ⟨hshown, copies_of_isOk hfits, copies_of_isOk hthen⟩
  refine ⟨suppressedContext_intake, hw, fun hreplays => ?_⟩
  exact hset (rebuildable_of_all suppressedContext_intake.fromAlert hscope hw hreplays).result

/-- On the context of the event itself every execution is reproduced. -/
theorem replays_sample :
    Replays asciiClasses plainDetails chainEnv plainSettings suppressing replayTime
      keyedLoop.context := by
  have hintake : IntakeContext chainEnv keyedEvent keyedLoop.context := .built _ _ _
  obtain ⟨hshown, hfits, hthen, hscope, hcomplete, hsmall, hentities⟩ :
      safeTraceValue {} asciiClasses 0 keyedLoop.context.toJson = keyedLoop.context.toJson ∧
      (EventActionState.fromContext .full keyedLoop.context >>= (·.toDict)).isOk = true ∧
      (EventActionState.fromContext .full (keyedLoop.context.withTime (timeAt replayTime)) >>=
        (·.toDict)).isOk = true ∧
      scopeErrors chainEnv.db suppressing = [] ∧ missingKeys keyedLoop.context.event = [] ∧
      (compactJson (.obj keyedLoop.context.replayedEvent)).utf8ByteSize ≤
        plainSettings.maximumBytes ∧
      simulatedEntities chainEnv.db suppressing keyedLoop.context.event =
        .ok (some opsRoute, some opsTeam, none) := by decide +kernel
  refine (replays_iff hintake hscope
    ⟨hshown, copies_of_isOk hfits, copies_of_isOk hthen⟩).mpr ?_
  exact ⟨hcomplete, hsmall, rfl, rfl, some opsRoute, some opsTeam, none, hentities, rfl, rfl, rfl⟩

end IncidentRelay.Orchestration
