import Mathlib.Data.List.Induction
import IncidentRelay.Lib.Once
import IncidentRelay.Orchestration.ControlLaw
import IncidentRelay.Orchestration.TraceWalk

/-!
# The deliveries of an execution

The queue holds one row for each webhook that the walk read back and whose action is
enabled, however often it is filled (`queued_once`). It is the whole of what the steps
asked for exactly where the trace was cut below all of them (`delivers_iff`).
-/

namespace IncidentRelay.Orchestration

open Json Redaction

/-! ## The rows of an execution -/

/-- What is said here of a row. -/
structure RowKey where
  idempotencyKey : String
  orchestrationExecution : ℕ
  action : Id
  rulePath : String

def AutomationExecution.brief (row : AutomationExecution) : RowKey where
  idempotencyKey := row.idempotencyKey
  orchestrationExecution := row.orchestrationExecution
  action := row.action
  rulePath := row.rulePath

section Queue

variable (s : WebhookServices) (actions : List WebhookAction) (execution : OrchestrationExecution)
  (context : Json)

/-- The request is for an enabled action. -/
def isEnabled (request : Int × String) : Bool :=
  (findAction actions execution.group request.1).isSome

/-- The headers and the body of the request can be rendered, where its action is enabled. -/
def Renders (request : Int × String) : Prop :=
  ∀ action, findAction actions execution.group request.1 = some action →
    ∃ rendered, renderRequest s context action = .ok rendered

/-- The row of a request, where its action is enabled. -/
def rowOf (ordinal : ℕ) (request : Int × String) : Option RowKey :=
  (findAction actions execution.group request.1).map fun action =>
    { idempotencyKey := s.sha256 (keyMaterial execution.uid action.uid request.2 ordinal)
      orchestrationExecution := execution.id
      action := action.id
      rulePath := request.2 }

/-- The rows of the requests, from an ordinal on. -/
def rowsFrom (ordinal : ℕ) : List (Int × String) → List RowKey
  | [] => []
  | request :: requests =>
    (rowOf s actions execution ordinal request).toList ++ rowsFrom (ordinal + 1) requests

/-- `get_or_create` adds the row unless its key is there. -/
theorem getOrCreate_brief (call : WebhookCall) (row : AutomationExecution)
    (rows : List AutomationExecution) :
    (getOrCreate call row rows).1.map AutomationExecution.brief =
      Table.insertNew RowKey.idempotencyKey (rows.map AutomationExecution.brief) row.brief := by
  -- a row is there when its key is
  have hkeys : (row.brief.idempotencyKey ∈
      (rows.map AutomationExecution.brief).map RowKey.idempotencyKey) ↔
        rows.any (·.idempotencyKey = row.idempotencyKey) = true := by
    rw [List.map_map, List.mem_map, List.any_eq_true]
    constructor
    · rintro ⟨r, hr, hkey⟩
      exact ⟨r, hr, decide_eq_true hkey⟩
    · rintro ⟨r, hr, hkey⟩
      exact ⟨r, hr, of_decide_eq_true hkey⟩
  unfold getOrCreate Table.insertNew
  -- the row that is there is written over without its key, or the new one is put behind the others
  by_cases hany : rows.any (·.idempotencyKey = row.idempotencyKey) = true
  · rw [if_pos hany, if_pos (hkeys.mpr hany)]
    show List.map _ (rows.map _) = _
    rw [List.map_map]
    refine List.map_congr_left fun r _ => ?_
    show AutomationExecution.brief (if _ then _ else _) = r.brief
    split <;> rfl
  · rw [if_neg hany, if_neg (fun hmem => hany (hkeys.mp hmem)), List.map_append]
    rfl

/-- A request, where it can be rendered. -/
theorem enqueueOne_spec (call : WebhookCall) (ordinal : ℕ) {request : Int × String}
    (rows : List AutomationExecution) (hrender : Renders s actions execution context request) :
    ∃ after created,
      enqueueOne s actions execution context call ordinal request rows = .ok (after, created) ∧
      after.map AutomationExecution.brief =
        (rowOf s actions execution ordinal request).toList.foldl
          (Table.insertNew RowKey.idempotencyKey) (rows.map AutomationExecution.brief) := by
  unfold enqueueOne rowOf
  cases haction : findAction actions execution.group request.1 with
  | none => exact ⟨rows, false, rfl, rfl⟩
  | some action =>
    obtain ⟨⟨headers, body⟩, hrendered⟩ := hrender action haction
    dsimp only
    rw [hrendered]
    exact ⟨_, _, rfl, getOrCreate_brief call _ rows⟩

/-- The requests, where all of them can be rendered. -/
theorem enqueueFrom_spec (call : WebhookCall) {requests : List (Int × String)} :
    ∀ {ordinal : ℕ} {rows : List AutomationExecution},
      (∀ request ∈ requests, Renders s actions execution context request) →
      (∃ n, (enqueueFrom s actions execution context call ordinal requests rows).2 = .ok n) ∧
      (enqueueFrom s actions execution context call ordinal requests rows).1.map
          AutomationExecution.brief =
        (rowsFrom s actions execution ordinal requests).foldl
          (Table.insertNew RowKey.idempotencyKey) (rows.map AutomationExecution.brief) := by
  induction requests with
  | nil => exact fun _ => ⟨⟨0, rfl⟩, rfl⟩
  | cons request requests ih =>
    intro ordinal rows hrender
    obtain ⟨after, created, hone, hafter⟩ := enqueueOne_spec s actions execution context call
      ordinal rows (hrender request (by simp))
    obtain ⟨⟨n, hn⟩, hrest⟩ := @ih (ordinal + 1) after
      fun other hother => hrender other (List.mem_cons_of_mem _ hother)
    rw [enqueueFrom, hone, rowsFrom, List.foldl_append, ← hafter]
    dsimp only
    exact ⟨⟨n + created.toNat, by rw [hn]; rfl⟩, hrest⟩

/-- Where the queue was filled, all requests were rendered. -/
theorem enqueueFrom_renders (call : WebhookCall) {requests : List (Int × String)} :
    ∀ {ordinal n : ℕ} {rows : List AutomationExecution},
      (enqueueFrom s actions execution context call ordinal requests rows).2 = .ok n →
      ∀ request ∈ requests, Renders s actions execution context request := by
  -- by induction on the requests, which are numbered in their order
  induction requests with
  | nil =>
    intro ordinal n rows _ request hrequest
    cases hrequest
  | cons first requests ih =>
    intro ordinal n rows h request hrequest
    rw [enqueueFrom] at h
    cases hone : enqueueOne s actions execution context call ordinal first rows with
    | error e =>
      rw [hone] at h
      cases h
    | ok done =>
      rw [hone] at h
      dsimp only at h
      -- it is the first request, rendered from what is kept of the result, or a later one
      rcases List.mem_cons.mp hrequest with rfl | hrequest
      · intro action haction
        unfold enqueueOne at hone
        rw [haction] at hone
        obtain ⟨rendered, hrendered, -⟩ := bind_eq_ok.mp hone
        exact ⟨rendered, hrendered⟩
      · cases hrest : (enqueueFrom s actions execution context call (ordinal + 1) requests
            done.1).2 with
        | error e =>
          rw [hrest] at h
          cases h
        | ok m => exact ih hrest request hrequest

/-! ## Their keys -/

/-- The texts that the keys of the requests are digests of. -/
def keyTexts (requests : List (Int × String)) : Set String :=
  {text | ∃ action ∈ actions, ∃ request ∈ requests, ∃ ordinal < requests.length,
    text = keyMaterial execution.uid action.uid request.2 ordinal}

/-- What is behind the last mark is the same. -/
theorem last_field_inj {c : Char} {xs ys as bs : List Char} (ha : c ∉ as) (hb : c ∉ bs)
    (h : xs ++ c :: as = ys ++ c :: bs) : as = bs := by
  have hfield (front : List Char) {field : List Char} (hfield : c ∉ field) :
      (front ++ c :: field).reverse.takeWhile (· ≠ c) = field.reverse := by
    rw [List.reverse_append, List.reverse_cons, List.append_assoc, List.takeWhile_append_of_pos]
    · simp
    · intro x hx
      have hx : x ∈ field := List.mem_reverse.mp hx
      exact decide_eq_true fun heq => hfield (heq ▸ hx)
  have hreverse : as.reverse = bs.reverse := by
    rw [← hfield xs ha, h, hfield ys hb]
  exact List.reverse_injective hreverse

/-- The ordinal can be read off the key. -/
theorem keyMaterial_ordinal {uid actionUid otherUid path other : String} {i j : ℕ}
    (h : keyMaterial uid actionUid path i = keyMaterial uid otherUid other j) : i = j := by
  have hdigits (n : ℕ) : ':' ∉ Nat.toDigits 10 n := by
    intro hmem
    have hdigit := Nat.isDigit_of_mem_toDigits (by omega) (by omega) hmem
    cases hdigit
  have hlist := congrArg String.toList h
  unfold keyMaterial at hlist
  simp only [String.toList_append, toList_toString] at hlist
  have hcolon : ":".toList = [':'] := by decide
  rw [hcolon, List.append_assoc _ [':'] (Nat.toDigits 10 i),
    List.append_assoc _ [':'] (Nat.toDigits 10 j)] at hlist
  exact toDigits_inj (last_field_inj (hdigits i) (hdigits j) hlist)

/-- The key of a row is the digest of a text with its ordinal. -/
theorem rowsFrom_key {requests : List (Int × String)} :
    ∀ {ordinal : ℕ} {row : RowKey}, row ∈ rowsFrom s actions execution ordinal requests →
      ∃ action ∈ actions, ∃ request ∈ requests, ∃ i, ordinal ≤ i ∧ i < ordinal + requests.length ∧
        row.idempotencyKey = s.sha256 (keyMaterial execution.uid action.uid request.2 i) := by
  induction requests with
  | nil =>
    intro ordinal row h
    cases h
  | cons request requests ih =>
    intro ordinal row h
    rw [rowsFrom] at h
    -- the row of the first request, or one of those behind it
    rcases List.mem_append.mp h with h | h
    · rw [Option.mem_toList] at h
      obtain ⟨action, haction, rfl⟩ := Option.map_eq_some_iff.mp h
      refine ⟨action, List.mem_of_find?_eq_some haction, request, by simp, ordinal, le_rfl, ?_, rfl⟩
      rw [List.length_cons]
      omega
    · obtain ⟨action, haction, other, hother, i, hlow, hhigh, hkey⟩ := ih h
      refine ⟨action, haction, other, List.mem_cons_of_mem _ hother, i, by omega, ?_, hkey⟩
      rw [List.length_cons]
      omega

/-- Where the digests differ, no two rows have a key in common. -/
theorem rowsFrom_nodup {asked requests : List (Int × String)}
    (hdigests : Set.InjOn s.sha256 (keyTexts actions execution asked)) :
    ∀ {ordinal : ℕ}, requests ⊆ asked → ordinal + requests.length ≤ asked.length →
      ((rowsFrom s actions execution ordinal requests).map RowKey.idempotencyKey).Nodup := by
  induction requests with
  | nil =>
    intro ordinal _ _
    exact List.nodup_nil
  | cons request requests ih =>
    intro ordinal hsub hlength
    rw [List.length_cons] at hlength
    have hrest := @ih (ordinal + 1) (fun _ h => hsub (List.mem_cons_of_mem _ h)) (by omega)
    rw [rowsFrom]
    unfold rowOf
    -- a request without an action that is enabled makes no row
    cases haction : findAction actions execution.group request.1 with
    | none => exact hrest
    | some action =>
      show (_ :: List.map _ _).Nodup
      rw [List.nodup_cons]
      -- two rows with one key have one text under it, but the number of the request is part of it
      refine ⟨fun hmem => ?_, hrest⟩
      obtain ⟨row, hrow, hkey⟩ := List.mem_map.mp hmem
      obtain ⟨later, hlater, other, hother, i, hlow, hhigh, hdigest⟩ :=
        rowsFrom_key s actions execution hrow
      have hsame : keyMaterial execution.uid later.uid other.2 i =
          keyMaterial execution.uid action.uid request.2 ordinal := by
        refine hdigests ⟨later, hlater, other, hsub (List.mem_cons_of_mem _ hother), i, by omega,
          rfl⟩ ⟨action, List.mem_of_find?_eq_some haction, request, hsub (by simp), ordinal,
            by omega, rfl⟩ ?_
        rw [← hdigest, hkey]
      have hordinal := keyMaterial_ordinal hsame
      omega

/-- The rows are those of the enabled actions. -/
theorem rowsFrom_requests {requests : List (Int × String)} :
    ∀ {ordinal : ℕ}, (rowsFrom s actions execution ordinal requests).map
        (fun row => (((row.action : ℕ) : Int), row.rulePath)) =
      requests.filter (isEnabled actions execution) := by
  induction requests with
  | nil => exact rfl
  | cons request requests ih =>
    intro ordinal
    rw [rowsFrom, List.map_append, ih]
    unfold rowOf
    -- an action that is not found is not enabled
    cases haction : findAction actions execution.group request.1 with
    | none =>
      have hskip : isEnabled actions execution request = false := by
        unfold isEnabled
        rw [haction]
        rfl
      rw [List.filter_cons_of_neg (by rw [hskip]; simp)]
      rfl
    -- one that is found is in the row under its id
    | some action =>
      have hkeep : isEnabled actions execution request = true := by
        unfold isEnabled
        rw [haction]
        rfl
      have hid : ((action.id : ℕ) : Int) = request.1 := by
        have hfound := List.find?_some haction
        simp only [Bool.and_eq_true, decide_eq_true_eq] at hfound
        exact hfound.1.1.1.1
      rw [List.filter_cons_of_pos hkeep]
      show [(((action.id : ℕ) : Int), request.2)] ++ _ = _
      rw [hid]
      rfl

/-- The rows belong to the execution that asked for them. -/
theorem rowsFrom_execution {requests : List (Int × String)} {ordinal : ℕ} {row : RowKey}
    (h : row ∈ rowsFrom s actions execution ordinal requests) :
    row.orchestrationExecution = execution.id := by
  induction requests generalizing ordinal with
  | nil => cases h
  | cons request requests ih =>
    rw [rowsFrom] at h
    rcases List.mem_append.mp h with h | h
    · rw [Option.mem_toList] at h
      obtain ⟨action, -, rfl⟩ := Option.map_eq_some_iff.mp h
      rfl
    · exact ih h

/-! ## The calls -/

/-- The queue after the calls. -/
def afterCalls (calls : List WebhookCall) (rows : List AutomationExecution) :
    List AutomationExecution :=
  calls.foldl (fun rows call => (enqueueExecutionWebhooks s actions execution call rows).1) rows

/-- The deliveries of the execution: the action and the rule of each. -/
def deliveries (rows : List AutomationExecution) : List (Int × String) :=
  (rows.filter (·.orchestrationExecution = execution.id)).map fun row =>
    (((row.action : ℕ) : Int), row.rulePath)

/-- However often the queue is filled, no call raises, and there is one delivery for each of
the webhooks whose action is enabled. -/
structure Delivers (asked : List (Int × String)) (rows : List AutomationExecution) : Prop where
  returns : ∀ calls call, ∃ n,
    (enqueueExecutionWebhooks s actions execution call
      (afterCalls s actions execution calls rows)).2 = .ok n
  once : ∀ calls call,
    deliveries execution (afterCalls s actions execution (calls ++ [call]) rows) =
      asked.filter (isEnabled actions execution)

/-- No row is of the execution or has a key of it, and the digests of its keys differ. -/
structure FreshQueue (asked : List (Int × String)) (rows : List AutomationExecution) : Prop where
  digests : Set.InjOn s.sha256 (keyTexts actions execution asked)
  noRow : ∀ row ∈ rows, row.orchestrationExecution ≠ execution.id
  noKey : ∀ row ∈ rows, ∀ text ∈ keyTexts actions execution asked,
    row.idempotencyKey ≠ s.sha256 text

/-- The calls read the same requests from the trace. -/
def ReadsBack (g : Generated) : Prop :=
  ∀ call rows, enqueueExecutionWebhooks s actions execution call rows =
    ((enqueueFrom s actions execution context call 0 g.requests rows).1,
      (enqueueFrom s actions execution context call 0 g.requests rows).2.bind fun n =>
        match g.raised with
        | none => .ok n
        | some e => .error e)

variable {s actions execution context}

/-- The deliveries of an execution are what it added. -/
theorem deliveries_brief {rows : List AutomationExecution} {base added : List RowKey}
    (hrows : rows.map AutomationExecution.brief = base ++ added)
    (hbase : ∀ row ∈ base, row.orchestrationExecution ≠ execution.id)
    (hadded : ∀ row ∈ added, row.orchestrationExecution = execution.id) :
    deliveries execution rows =
      added.map fun row => (((row.action : ℕ) : Int), row.rulePath) := by
  have hbrief : deliveries execution rows = ((rows.map AutomationExecution.brief).filter
      (·.orchestrationExecution = execution.id)).map
        fun row => (((row.action : ℕ) : Int), row.rulePath) := by
    unfold deliveries
    rw [List.filter_map, List.map_map]
    rfl
  rw [hbrief, hrows, List.filter_append,
    List.filter_eq_nil_iff.mpr (fun row hrow => by simpa using hbase row hrow),
    List.filter_eq_self.mpr (fun row hrow => by simpa using hadded row hrow)]
  rfl

/-- **The queue is filled once.** After the first call it has the rows of the requests, and
no later call changes them. -/
theorem queued_once {asked : List (Int × String)} {rows : List AutomationExecution}
    {g : Generated} (hfresh : FreshQueue s actions execution asked rows)
    (hback : ReadsBack s actions execution context g) (hsub : g.requests ⊆ asked)
    (hlength : g.requests.length ≤ asked.length)
    (hrender : ∀ request ∈ g.requests, Renders s actions execution context request)
    (calls : List WebhookCall) (call : WebhookCall) :
    (afterCalls s actions execution (calls ++ [call]) rows).map AutomationExecution.brief =
      rows.map AutomationExecution.brief ++ rowsFrom s actions execution 0 g.requests := by
  have hpass (call : WebhookCall) (rows : List AutomationExecution) :
      (enqueueExecutionWebhooks s actions execution call rows).1.map AutomationExecution.brief =
        (rowsFrom s actions execution 0 g.requests).foldl
          (Table.insertNew RowKey.idempotencyKey) (rows.map AutomationExecution.brief) := by
    rw [hback]
    exact (enqueueFrom_spec s actions execution context call hrender).2
  have hfirst : (rowsFrom s actions execution 0 g.requests).foldl
      (Table.insertNew RowKey.idempotencyKey) (rows.map AutomationExecution.brief) =
        rows.map AutomationExecution.brief ++ rowsFrom s actions execution 0 g.requests := by
    refine Table.foldl_insertNew_fresh _
      (rowsFrom_nodup s actions execution hfresh.digests hsub (by omega)) fun row hrow hmem => ?_
    obtain ⟨action, haction, request, hrequest, i, -, hi, hkey⟩ :=
      rowsFrom_key s actions execution hrow
    rw [List.map_map] at hmem
    obtain ⟨other, hother, hsame⟩ := List.mem_map.mp hmem
    exact hfresh.noKey other hother _ ⟨action, haction, request, hsub hrequest, i, by omega, rfl⟩
      (hsame.trans hkey)
  -- the calls in front, from the last one on
  induction calls using List.reverseRec generalizing call with
  | nil =>
    show (enqueueExecutionWebhooks s actions execution call rows).1.map _ = _
    rw [hpass, hfirst]
  | append_singleton calls last ih =>
    unfold afterCalls at ih ⊢
    rw [List.foldl_append, List.foldl_cons, List.foldl_nil, hpass, ih last]
    refine Table.foldl_insertNew_present _ fun row hrow => ?_
    rw [List.map_append]
    exact List.mem_append_right _ (List.mem_map_of_mem hrow)

end Queue

/-! ## The whole of what was asked for -/

section Whole

variable {L : Language} {s : WebhookServices} {actions : List WebhookAction}
  {execution : OrchestrationExecution}

/-- The context that the requests are rendered with. -/
def storedContext (u : CharClasses) (result : OrchestrationExecutionResult L) : Json :=
  (safeTraceValue {} u 1 result.state.context.toJson).orElse (.obj [])

/-- The row of an execution of a validated definition that was applied. -/
structure StoredExecution (u : CharClasses) (d : TraceDetails L) (o : Orchestration L)
    (defaultHistory : HistoryLevel) (version : Version L) (context : Context)
    (result : OrchestrationExecutionResult L) (execution : OrchestrationExecution) : Prop where
  applies : o.applies = true
  published : o.published = some version
  validated : Validated version.rules
  ran : executeRuleTreeTraced L defaultHistory version.rules context = .ok result
  stored : execution.traceJson = recordedTrace u d o context result

/-- The webhooks that an execution asked for. -/
def askedBy (result : OrchestrationExecutionResult L) : List (Int × String) :=
  requestsOf (nestedRules 0 result.rules)

/-- What the trace keeps of an execution: no rule was reached below level 4, on level 4 no
enabled webhook was asked for, and the stored context renders the others. -/
structure KeptByTrace (s : WebhookServices) (actions : List WebhookAction)
    (execution : OrchestrationExecution) (u : CharClasses)
    (result : OrchestrationExecutionResult L) : Prop where
  shallow : ∀ rule ∈ nestedRules 0 result.rules, rule.level < 5
  silent : ∀ rule ∈ nestedRules 0 result.rules, rule.level = 4 →
    ∀ request ∈ rule.requests, isEnabled actions execution request = false
  renders : ∀ request ∈ askedBy result,
    Renders s actions execution (storedContext u result) request

/-- A valid definition stays within the limits of the trace. -/
theorem result_fits {defaultHistory : HistoryLevel} {rules : List (Rule L)} {context : Context}
    {result : OrchestrationExecutionResult L} (hvalid : Validated rules)
    (hran : executeRuleTreeTraced L defaultHistory rules context = .ok result) :
    RulesFit result.rules ∧ result.rules.length ≤ maxRuleNodes := by
  unfold executeRuleTreeTraced at hran
  obtain ⟨state, -, hran⟩ := bind_eq_ok.mp hran
  obtain ⟨⟨traces, t, stopped⟩, hlevel, hran⟩ := bind_eq_ok.mp hran
  cases hran
  obtain ⟨n, hn⟩ := Option.isSome_iff_exists.mp hvalid
  have hcounts := validateLevel_counts rules (Nat.zero_le _) hn
  have hlength := length_traceLevel hlevel
  have hroot : LevelPath 0 "rules" := ⟨by decide, by decide⟩
  exact ⟨traceLevel_fits hroot le_rfl rules hn hlevel, by show traces.length ≤ _; omega⟩

/-- The calls walk over the rules of the execution. -/
theorem stored_reads {u : CharClasses} {d : TraceDetails L} {o : Orchestration L}
    {defaultHistory : HistoryLevel} {version : Version L} {context : Context}
    {result : OrchestrationExecutionResult L}
    (h : StoredExecution u d o defaultHistory version context result execution) :
    ∃ g, Reads (nestedRules 0 result.rules) g ∧
      ReadsBack s actions execution (storedContext u result) g := by
  obtain ⟨hfits, hlength⟩ := result_fits h.validated h.ran
  -- what is kept is small enough to be stored as it is
  obtain ⟨safe, hsafe, hget⟩ :=
    stored_obj u 0 (result.toDict d) (by omega) (by show (5 : ℕ) ≤ 512; omega)
  have hcontext : safe.getD "context" = safeTraceValue {} u 1 result.state.context.toJson :=
    safe_getD hget (by decide) rfl
  have hrules : safe.getD "rules" =
      .list ((rulesToJson d result.rules).map (safeTraceValue {} u 2)) := by
    -- and so are its rules
    have hitems : (rulesToJson d result.rules).length ≤ 512 := by
      rw [rulesToJson_eq_map, List.length_map]
      exact hlength
    rw [safe_getD hget (by decide) rfl, safe_list (by show (1 : ℕ) ≤ 12; omega) hitems]
  refine ⟨_, walkRules_reads (d := d) (u := u) (by omega) result.rules hfits, fun call rows => ?_⟩
  have happlied : (execution.traceJson.asDict.getD "applied").truthy = true := by
    rw [h.stored]
    exact h.applies
  have hresult : ((execution.traceJson.asDict.getD "result").orElse (.obj [])).asDict = safe := by
    rw [h.stored]
    show ((safeTraceValue {} u 0 (.obj (result.toDict d))).orElse (.obj [])).asDict = safe
    rw [hsafe]
    cases safe <;> rfl
  unfold enqueueExecutionWebhooks
  simp only [happlied, hresult, hcontext, hrules, Bool.not_true, Bool.false_eq_true, if_false,
    iterWebhookRequests]
  rfl

/-! ## What the cut leaves out -/

/-- Leaving rules out leaves their requests out. -/
theorem requestsOf_sublist (rules : List (NestedRule L)) (p : NestedRule L → Bool) :
    (requestsOf (rules.filter p)).Sublist (requestsOf rules) := by
  induction rules with
  | nil => exact List.Sublist.refl _
  | cons rule rules ih =>
    unfold requestsOf at ih ⊢
    rw [List.filter_cons, List.flatMap_cons]
    split
    · rw [List.flatMap_cons]
      exact List.Sublist.append_left ih _
    · exact ih.trans (List.sublist_append_right _ _)

/-- The enabled webhooks of the kept rules are all of them exactly where the other rules
asked for none. -/
theorem kept_enabled_iff (p : NestedRule L → Bool) (q : Int × String → Bool)
    (rules : List (NestedRule L)) :
    (requestsOf (rules.filter p)).filter q = (requestsOf rules).filter q ↔
      ∀ rule ∈ rules, p rule = false → ∀ request ∈ rule.requests, q request = false := by
  induction rules with
  | nil => simp [requestsOf]
  | cons rule rules ih =>
    have hsplit : (requestsOf (rule :: rules)).filter q =
        rule.requests.filter q ++ (requestsOf rules).filter q := by
      unfold requestsOf
      rw [List.flatMap_cons, List.filter_append]
    cases hp : p rule with
    | true =>
      have hkept : (requestsOf ((rule :: rules).filter p)).filter q =
          rule.requests.filter q ++ (requestsOf (rules.filter p)).filter q := by
        unfold requestsOf
        rw [List.filter_cons_of_pos hp, List.flatMap_cons, List.filter_append]
      rw [hkept, hsplit, List.append_cancel_left_eq, ih, List.forall_mem_cons]
      simp [hp]
    | false =>
      rw [List.filter_cons_of_neg (by simp [hp]), hsplit, List.forall_mem_cons]
      have hshort : ((requestsOf (rules.filter p)).filter q).length ≤
          ((requestsOf rules).filter q).length :=
        ((requestsOf_sublist rules p).filter q).length_le
      constructor
      · intro heq
        -- the kept ones are no more than those behind the rule
        have hlength := congrArg List.length heq
        rw [List.length_append] at hlength
        have hnone : rule.requests.filter q = [] := List.eq_nil_of_length_eq_zero (by omega)
        rw [hnone, List.nil_append] at heq
        exact ⟨fun _ request hrequest => by
          simpa using List.filter_eq_nil_iff.mp hnone request hrequest, ih.mp heq⟩
      · rintro ⟨hrule, hrest⟩
        have hnone : rule.requests.filter q = [] :=
          List.filter_eq_nil_iff.mpr fun request hrequest => by
            simp [hrule hp request hrequest]
        rw [hnone, List.nil_append]
        exact ih.mpr hrest

theorem mem_requestsOf_filter {rules : List (NestedRule L)} {p : NestedRule L → Bool}
    {request : Int × String} :
    request ∈ requestsOf (rules.filter p) ↔
      ∃ rule ∈ rules, p rule = true ∧ request ∈ rule.requests := by
  unfold requestsOf
  rw [List.mem_flatMap]
  constructor
  · rintro ⟨rule, hrule, hrequest⟩
    exact ⟨rule, (List.mem_filter.mp hrule).1, (List.mem_filter.mp hrule).2, hrequest⟩
  · rintro ⟨rule, hrule, hp, hrequest⟩
    exact ⟨rule, List.mem_filter.mpr ⟨hrule, hp⟩, hrequest⟩

/-- **The webhooks of an execution are delivered exactly where its trace keeps them.** -/
theorem delivers_iff {u : CharClasses} {d : TraceDetails L} {o : Orchestration L}
    {defaultHistory : HistoryLevel} {version : Version L} {context : Context}
    {result : OrchestrationExecutionResult L} {rows : List AutomationExecution}
    (h : StoredExecution u d o defaultHistory version context result execution)
    (hfresh : FreshQueue s actions execution (askedBy result) rows) :
    Delivers s actions execution (askedBy result) rows ↔
      KeptByTrace s actions execution u result := by
  obtain ⟨g, hreads, hback⟩ : ∃ g, Reads (nestedRules 0 result.rules) g ∧
      ReadsBack s actions execution (storedContext u result) g := stored_reads h
  have hcall (call : WebhookCall) (rows : List AutomationExecution) := hback call rows
  have hsub : requestsOf ((nestedRules 0 result.rules).filter (·.level < 4)) |>.Sublist
      (askedBy result) := requestsOf_sublist _ _
  -- what the queue holds after a call, where the walk is at its end and all is rendered
  have hqueue (hshallow : ∀ rule ∈ nestedRules 0 result.rules, rule.level < 5)
      (hrender : ∀ request ∈ requestsOf ((nestedRules 0 result.rules).filter (·.level < 4)),
        Renders s actions execution (storedContext u result) request) (calls : List WebhookCall)
      (call : WebhookCall) :
      deliveries execution (afterCalls s actions execution (calls ++ [call]) rows) =
        (requestsOf ((nestedRules 0 result.rules).filter (·.level < 4))).filter
          (isEnabled actions execution) := by
    have hg := hreads.kept hshallow
    have hrequests : g.requests =
        requestsOf ((nestedRules 0 result.rules).filter (·.level < 4)) := by rw [hg]
    rw [← hrequests] at hrender hsub ⊢
    have hrows := queued_once hfresh hback hsub.subset hsub.length_le hrender calls call
    rw [deliveries_brief hrows, rowsFrom_requests]
    · intro row hrow
      obtain ⟨r, hr, rfl⟩ := List.mem_map.mp hrow
      exact hfresh.noRow r hr
    · intro row hrow
      exact rowsFrom_execution s actions execution hrow
  constructor
  · intro hdelivers
    have hsome : ∃ n, (enqueueExecutionWebhooks s actions execution ⟨none, 0⟩ rows).2 = .ok n :=
      hdelivers.returns [] ⟨none, 0⟩
    obtain ⟨n, hn⟩ := hsome
    rw [hcall] at hn
    dsimp only at hn
    cases hfilled : (enqueueFrom s actions execution (storedContext u result) ⟨none, 0⟩ 0
        g.requests rows).2 with
    | error e =>
      rw [hfilled] at hn
      cases hn
    | ok m =>
      have hshallow : ∀ rule ∈ nestedRules 0 result.rules, rule.level < 5 := by
        intro rule hrule
        by_contra hdeep
        have hraised := hreads.raises ⟨rule, hrule, not_lt.mp hdeep⟩
        rw [hfilled] at hn
        cases hr : g.raised with
        | none =>
          rw [hr] at hraised
          cases hraised
        | some e =>
          rw [hr] at hn
          cases hn
      have hg := hreads.kept hshallow
      have hrender := enqueueFrom_renders s actions execution (storedContext u result) _ hfilled
      rw [hg] at hrender
      have hsame := hqueue hshallow hrender [] ⟨none, 0⟩
      rw [hdelivers.once [] ⟨none, 0⟩] at hsame
      have hsilent := (kept_enabled_iff _ _ _).mp hsame.symm
      refine ⟨hshallow, fun rule hrule hlevel => hsilent rule hrule (by simp [hlevel]), ?_⟩
      intro request hrequest
      obtain ⟨rule, hrule, hin⟩ := List.mem_flatMap.mp hrequest
      by_cases hkept : rule.level < 4
      · exact hrender request
          (mem_requestsOf_filter.mpr ⟨rule, hrule, by simpa using hkept, hin⟩)
      · intro action haction
        have hoff := hsilent rule hrule (by simpa using hkept) request hin
        unfold isEnabled at hoff
        rw [haction] at hoff
        cases hoff
  · intro hkept
    have hrender : ∀ request ∈ requestsOf ((nestedRules 0 result.rules).filter (·.level < 4)),
        Renders s actions execution (storedContext u result) request :=
      fun request hrequest => hkept.renders request (hsub.subset hrequest)
    have hg := hreads.kept hkept.shallow
    refine ⟨fun calls call => ?_, fun calls call => ?_⟩
    · rw [hcall]
      obtain ⟨n, hn⟩ := (@enqueueFrom_spec s actions execution (storedContext u result) call _ 0
        (afterCalls s actions execution calls rows) hrender).1
      rw [hg]
      exact ⟨n, by dsimp only; rw [hn]; rfl⟩
    · rw [hqueue hkept.shallow hrender]
      refine (kept_enabled_iff _ _ _).mpr fun rule hrule hlevel => ?_
      have hdeep := hkept.shallow rule hrule
      have hfour : ¬rule.level < 4 := by simpa using hlevel
      exact hkept.silent rule hrule (by omega)

end Whole

/-! ## A webhook on level 4 -/

/-- A rule that asks for a webhook, below a number of rules. -/
def webhookRule : ℕ → Rule plainLanguage
  | 0 => .mk true .continue () [.run (.enqueueWebhook 1) .continue] []
  | below + 1 => .mk true .childrenThenContinue () [] [webhookRule below]

def webhookVersion (below : ℕ) : Version plainLanguage := { id := 1, rules := [webhookRule below] }

def webhookOrchestration (below : ℕ) : Orchestration plainLanguage :=
  { hybridGlobal with published := some (webhookVersion below) }

def plainDetails : TraceDetails plainLanguage where
  ruleName := fun _ => "Rule 1"
  condition := fun _ => .obj [("matched", .bool true)]
  extractionType := fun _ => .static
  extractionFailureMode := fun _ => "continue"
  stepCode := fun _ => "action_applied"
  stepReason := fun _ => "webhook requested"
  before := fun _ => .null
  after := fun _ => .null
  references := fun _ => []
  matchedRuleCount := 1
  stoppedAt := .null

def plainServices : WebhookServices where
  sha256 := id
  renderTemplate := fun text _ => .ok text
  decryptHeaders := fun _ => []
  encryptHeaders := fun _ => ""
  encryptSecret := id

/-- An action of the group, with a body of its own. -/
def pingAction : WebhookAction where
  id := 1
  uid := "ping"
  group := 1
  url := "https://hooks.example/ping"
  method := "POST"
  headersEncrypted := none
  bodyTemplate := some "ping"
  timeoutSeconds := 10
  retryCount := 3
  privateNetworkPolicy := "deny"
  enabled := true
  deleted := false
  deletedAt := none

def webhookExecution (below : ℕ) (result : OrchestrationExecutionResult plainLanguage) :
    OrchestrationExecution where
  id := 1
  uid := "run"
  group := 1
  traceJson := recordedTrace asciiClasses plainDetails (webhookOrchestration below) bareContext
    result

/-- An execution of the rules, with what is read off its result. -/
theorem webhook_stored (below : ℕ) (hvalid : Validated [webhookRule below]) {β : Type} (x : β)
    (f : OrchestrationExecutionResult plainLanguage → β)
    (h : (evaluateBare [webhookRule below]).map f = .ok x) :
    ∃ result, StoredExecution asciiClasses plainDetails (webhookOrchestration below) .full
      (webhookVersion below) bareContext result (webhookExecution below result) ∧ f result = x := by
  obtain ⟨result, hresult, hf⟩ := evaluates_bare [webhookRule below] x f h
  exact ⟨result, ⟨rfl, rfl, hvalid, hresult.result, rfl⟩, hf⟩

theorem emptyQueue_fresh (below : ℕ) (result : OrchestrationExecutionResult plainLanguage) :
    FreshQueue plainServices [pingAction] (webhookExecution below result) (askedBy result) [] where
  digests := Function.injective_id.injOn
  noRow := fun _ hrow => absurd hrow (List.not_mem_nil)
  noKey := fun _ hrow => absurd hrow (List.not_mem_nil)

/-- On level 4 the webhook is asked for and never delivered. -/
theorem deep_webhook_lost :
    ∃ result, StoredExecution asciiClasses plainDetails (webhookOrchestration 4) .full
        (webhookVersion 4) bareContext result (webhookExecution 4 result) ∧
      FreshQueue plainServices [pingAction] (webhookExecution 4 result) (askedBy result) [] ∧
      ¬Delivers plainServices [pingAction] (webhookExecution 4 result) (askedBy result) [] := by
  obtain ⟨result, hstored, hread⟩ := webhook_stored 4 (by decide) (0, 1)
    (fun result =>
      ((deliveries (webhookExecution 4 result)
          (afterCalls plainServices [pingAction] (webhookExecution 4 result) [⟨none, 0⟩] [])).length,
        ((askedBy result).filter (isEnabled [pingAction] (webhookExecution 4 result))).length))
    (by decide +kernel)
  refine ⟨result, hstored, emptyQueue_fresh 4 result, fun hdelivers => ?_⟩
  have hsame := congrArg List.length (hdelivers.once [] ⟨none, 0⟩)
  have hlost := congrArg Prod.fst hread
  have hasked := congrArg Prod.snd hread
  rw [List.nil_append] at hsame
  exact absurd ((hlost.symm.trans hsame).trans hasked) (by decide)

/-- The action renders in every context. -/
theorem ping_renders (context : Json) {group : Id} {request : Int × String} {action : WebhookAction}
    (h : findAction [pingAction] group request.1 = some action) :
    ∃ rendered, renderRequest plainServices context action = .ok rendered := by
  have hping : action = pingAction := List.mem_singleton.mp (List.mem_of_find?_eq_some h)
  subst hping
  exact ⟨([], "ping"), rfl⟩

/-- On the last level that the walk over the trace reads it is delivered. -/
theorem delivers_iff_sample :
    ∃ result, StoredExecution asciiClasses plainDetails (webhookOrchestration 3) .full
        (webhookVersion 3) bareContext result (webhookExecution 3 result) ∧
      (askedBy result).map Prod.fst = [1] ∧
      Delivers plainServices [pingAction] (webhookExecution 3 result) (askedBy result) [] := by
  obtain ⟨result, hstored, hread⟩ := webhook_stored 3 (by decide) ([1], true)
    (fun result => ((askedBy result).map Prod.fst,
      (nestedRules 0 result.rules).all (·.level < 4))) (by decide +kernel)
  obtain ⟨hasked, hlevels⟩ := Prod.mk.inj hread
  have hlevel : ∀ rule ∈ nestedRules 0 result.rules, rule.level < 4 := fun rule hrule =>
    of_decide_eq_true (List.all_eq_true.mp hlevels rule hrule)
  refine ⟨result, hstored, hasked, (delivers_iff hstored (emptyQueue_fresh 3 result)).mpr ?_⟩
  refine ⟨fun rule hrule => ?_, fun rule hrule hlast => ?_, fun request _ action haction => ?_⟩
  · have := hlevel rule hrule
    omega
  · have := hlevel rule hrule
    omega
  · exact ping_renders _ haction

end IncidentRelay.Orchestration
