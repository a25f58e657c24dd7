import IncidentRelay.Alerts.EventRun
import IncidentRelay.Alerts.Isolation

/-!
# What becomes of a disposition

The disposition of an event is the last one that the actions of its orchestrations
have set, and the orchestration that is named for it is the last one that was applied.
A drop stays where no later action sets another disposition (`drop_final_iff`); a
paused event belongs to the orchestration that paused it where no other one was
applied behind it (`provenance_iff`).
-/

namespace IncidentRelay.Alerts

open Json Orchestration Pending

variable {L : Language}

/-! ## The paused event of a key -/

section Paused

variable (site : Site L) (a : Arrival) (now : Instant) (w : World)

/-- A paused event waits under the key of the event. -/
def PausedEventWaits : Prop :=
  ∃ groupId ∈ a.route.team.group, ∃ r : PendingOrchestratedEvent,
    w.findActive (activeKey site groupId a.source a.dedupKey) = some r ∧ r.status.active = true

/-- A statement whose guard selects no row is none. -/
theorem updatePending_of_none {w : World} {guard : PendingOrchestratedEvent → Bool}
    {set : PendingOrchestratedEvent → PendingOrchestratedEvent} {hset : ∀ r, (set r).id = r.id}
    (h : ∀ r ∈ w.pending.rows, guard r = false) : w.updatePending guard set hset = w := by
  have hrows : (w.pending.update guard set hset).rows = w.pending.rows := by
    show w.pending.rows.map _ = _
    refine (List.map_congr_left fun r hr => ?_).trans (List.map_id _)
    rw [h r hr]
    rfl
  obtain ⟨store, ⟨rows, next, nodup, lt⟩, nextToken⟩ := w
  unfold World.updatePending IdTable.update at *
  dsimp only at hrows ⊢
  simp only [hrows]

/-- The rows after an update: those the guard lets through are rewritten, the others stay. -/
theorem mem_updatePending {w : World} {guard : PendingOrchestratedEvent → Bool}
    {set : PendingOrchestratedEvent → PendingOrchestratedEvent} {hset : ∀ r, (set r).id = r.id}
    {r : PendingOrchestratedEvent} :
    r ∈ (w.updatePending guard set hset).pending.rows ↔ ∃ r₀ ∈ w.pending.rows,
      (guard r₀ = true ∧ r = set r₀) ∨ (guard r₀ = false ∧ r = r₀) := by
  show r ∈ (w.pending.update guard set hset).rows ↔ _
  exact IdTable.mem_update

theorem findActive_spec {w : World} {key : String} {r : PendingOrchestratedEvent}
    (h : w.findActive key = some r) : r ∈ w.pending.rows ∧ r.activeKey = some key := by
  have hkey := List.find?_some (p := fun r : PendingOrchestratedEvent => r.activeKey = some key) h
  exact ⟨List.mem_of_find?_eq_some h, of_decide_eq_true hkey⟩

/-- A resolved event changes the state exactly where a paused event waits. -/
theorem clearPending_changes :
    (∃ w', clearPending site a now w = some w' ∧ w' ≠ w) ↔
      a.status = .resolved ∧ PausedEventWaits site a w := by
  unfold clearPending PausedEventWaits
  by_cases hresolved : a.status = .resolved
  · rw [if_pos hresolved]
    constructor
    · rintro ⟨w', hw', hne⟩
      obtain ⟨groupId, hgroup, hclear⟩ := Option.bind_eq_some_iff.mp hw'
      obtain ⟨r, hr, rfl⟩ := Option.map_eq_some_iff.mp hclear
      refine ⟨hresolved, groupId, hgroup, r, hr, ?_⟩
      by_contra hinactive
      refine hne (updatePending_of_none fun row hrow => ?_)
      by_contra hguard
      obtain ⟨hid, -, hactive⟩ := of_decide_eq_true (Bool.not_eq_false _ ▸ hguard)
      rw [IdTable.eq_of_id hrow (findActive_spec hr).1 hid] at hactive
      exact hinactive hactive
    · rintro ⟨-, groupId, hgroup, r, hr, hactive⟩
      refine ⟨_, Option.bind_eq_some_iff.mpr ⟨groupId, hgroup,
        Option.map_eq_some_iff.mpr ⟨r, hr, rfl⟩⟩, ?_⟩
      intro hsame
      obtain ⟨hmem, hkey⟩ := findActive_spec hr
      -- the row of the paused event has lost its key
      have hguard : resolveGuard (activeKey site groupId a.source a.dedupKey) r r = true :=
        decide_eq_true ⟨rfl, hkey, hactive⟩
      have hwritten : resolveRow now r r ∈ w.pending.rows := by
        rw [← congrArg (fun w : World => w.pending.rows) hsame]
        exact mem_updatePending.mpr ⟨r, hmem, .inl ⟨hguard, rfl⟩⟩
      have heq := IdTable.eq_of_id hwritten hmem rfl
      have hlost : (resolveRow now r r).activeKey = r.activeKey := congrArg _ heq
      rw [hkey] at hlost
      cases hlost
  · rw [if_neg hresolved]
    constructor
    · rintro ⟨w', hw', -⟩
      cases hw'
    · rintro ⟨h, -⟩
      exact absurd h hresolved

end Paused

/-! ## A drop is final -/

section Drop

variable (site : Site L) (alertData : Dict) (now : Instant) (w : World) (e : EventRun L)

/-- When one of the applied orchestrations has dropped the event, its disposition is
drop, and the call changes nothing. -/
def DropFinal : Prop :=
  .drop ∈ decidedBy e.applied →
    e.runtime.disposition = .drop ∧ upsertAlert site alertData now w = w

/-- No action behind the drop sets another disposition, and the event is not turned
into a resolve while a paused event of its key waits. -/
def DropStands : Prop :=
  .drop ∈ decidedBy e.applied →
    (decidedBy e.applied).getLast? = some .drop ∧
      ∀ a, incoming site alertData = some a →
        ¬(a.status = .resolved ∧ PausedEventWaits site a w)

/-- A dropped event changes at most the paused event of its key. -/
theorem deliver_of_drop {site : Site L} {a : Arrival} (h : a.runtime.disposition = .drop) :
    deliver site a now w = (clearPending site a now w).getD w := by
  unfold deliver upsertRouted
  cases clearPending site a now w with
  | some w' => rfl
  | none =>
    dsimp only
    rw [if_pos h]
    rfl

/-- **A drop is final exactly when no later action sets another disposition and no
paused event of the key is resolved.** -/
theorem drop_final_iff {e : EventRun L}
    (h : orchestrate site.orc site.toServices alertData = .ok e) :
    DropFinal site alertData now w e ↔ DropStands site alertData w e := by
  have hreports := (orchestrate_reports h).disposition
  unfold DropFinal DropStands
  refine imp_congr_right fun _ => ?_
  -- the disposition is the last one that was decided
  have hlast : e.runtime.disposition = .drop ↔ (decidedBy e.applied).getLast? = some .drop := by
    rw [hreports, List.getLastD_eq_getLast?]
    cases (decidedBy e.applied).getLast? with
    | none => simp
    | some d => simp
  rw [hlast]
  refine and_congr_right fun hdrop => ?_
  have hdisposition := hlast.mpr hdrop
  unfold upsertAlert
  -- an event that is dropped on its way changes nothing
  cases hincoming : incoming site alertData with
  | none => simp
  | some a =>
    have hruntime := (incoming_runtime h hincoming).1
    dsimp only
    rw [deliver_of_drop now w (by rw [hruntime]; exact hdisposition)]
    -- else nothing is delivered, but a paused event may be resolved by it
    constructor
    · intro hsame a' ha' hchanges
      cases ha'
      obtain ⟨w', hw', hne⟩ := (clearPending_changes site a now w).mpr hchanges
      rw [hw'] at hsame
      exact hne hsame
    · intro hquiet
      by_contra hchanged
      refine hquiet a rfl ((clearPending_changes site a now w).mp ?_)
      cases hclear : clearPending site a now w with
      | none =>
        rw [hclear] at hchanged
        exact absurd rfl hchanged
      | some w' =>
        rw [hclear] at hchanged
        exact ⟨w', rfl, hchanged⟩

end Drop

/-! ## Provenance -/

section Provenance

variable (site : Site L) (alertData : Dict) (e : EventRun L)

/-- The last orchestration with an action of its own that set a disposition. -/
def lastDecider (as : List (Applied L)) : Option (Applied L) :=
  (as.filter fun a => !a.dispositions.isEmpty).getLast?

/-- `archive_orchestration(orchestration_id)` on the paused events. -/
def archiveOrchestration (orchestrationId : ℕ) (now : Instant) (w : World) : World :=
  w.updatePending (cancelGuard { orchestrationIds := [orchestrationId] })
    (cancelledRow now "orchestration_deleted") fun _ => rfl

/-- The row belongs to the orchestration, and the deletion of this orchestration and of
no other cancels it. -/
structure OwnedBy (d : Applied L) (w : World) (r : PendingOrchestratedEvent) : Prop where
  orchestration : r.orchestration = d.orchestration.id
  version : r.version = d.versionId
  cancelled : ∀ (orchestrationId : ℕ) (now : Instant),
    (∃ r' ∈ (archiveOrchestration orchestrationId now w).pending.rows,
      r'.id = r.id ∧ r'.status = .cancelled) ↔ orchestrationId = d.orchestration.id

/-- A disposition is reported under the name of the orchestration whose action set it
last, and the paused event that is stored for it belongs to this orchestration. -/
structure Provenance : Prop where
  named : e.runtime.disposition ≠ .process →
    ∃ d, lastDecider e.applied = some d ∧ e.runtime.reporter = d.reporter
  owned : ∀ a now w w', incoming site alertData = some a → a.runtime.disposition = .pause →
    storePausedEvent site a now w = .ok w' →
    ∃ d, lastDecider e.applied = some d ∧
      ∀ r ∈ w'.pending.rows, r ∉ w.pending.rows → OwnedBy d w' r

/-- The orchestration whose action set the disposition last is the one that was applied
last. -/
def LastAppliedDecides (as : List (Applied L)) : Prop :=
  ∀ d, lastDecider as = some d → ∀ b, as.getLast? = some b → b.reporter = d.reporter

/-- Where an orchestration decided, there is a last one that did. -/
theorem lastDecider_isSome {as : List (Applied L)} (h : decidedBy as ≠ []) :
    ∃ d, lastDecider as = some d := by
  refine Option.ne_none_iff_exists'.mp fun hnone => h ?_
  rw [lastDecider, List.getLast?_eq_none_iff, List.filter_eq_nil_iff] at hnone
  unfold decidedBy
  rw [List.flatMap_eq_nil_iff]
  intro a ha
  have hempty := hnone a ha
  rwa [Bool.not_eq_true', Bool.not_eq_false, List.isEmpty_iff] at hempty

theorem decidedBy_ne_nil {as : List (Applied L)} {d : Applied L} (h : lastDecider as = some d) :
    decidedBy as ≠ [] := by
  obtain ⟨hd, hset⟩ := List.mem_filter.mp (List.mem_of_getLast? h)
  intro hnil
  rw [decidedBy, List.flatMap_eq_nil_iff] at hnil
  rw [hnil d hd] at hset
  cases hset

/-- An event is processed exactly when no applied orchestration decided anything. -/
theorem disposition_eq_process_iff {e : EventRun L} (h : e.runtime.Reports e.applied) :
    e.runtime.disposition = .process ↔ decidedBy e.applied = [] := by
  rw [h.disposition]
  constructor
  · intro hprocess
    exact (getLastD_eq_process (process_not_mem_decidedBy _) hprocess).1
  · intro hnil
    rw [hnil]
    rfl

/-- The orchestration that is named is the one that was applied last. -/
theorem reporter_eq {e : EventRun L} (h : e.runtime.Reports e.applied)
    (hdisposition : e.runtime.disposition ≠ .process) :
    ∃ b, e.applied.getLast? = some b ∧ e.runtime.reporter = b.reporter := by
  have hreporter := h.reporter
  unfold reporterOf at hreporter
  rw [if_neg hdisposition] at hreporter
  cases hlast : e.applied.getLast? with
  | none =>
    rw [List.getLast?_eq_none_iff] at hlast
    refine absurd ((disposition_eq_process_iff h).mpr ?_) hdisposition
    rw [hlast]
    rfl
  | some b =>
    rw [hlast] at hreporter
    exact ⟨b, rfl, hreporter⟩

/-- A pause that passes its checks names the orchestration and the version it came from. -/
theorem check_provenance {arguments : PauseArguments} {now : Instant} {request : PauseRequest}
    (h : arguments.check now = .ok request) :
    arguments.provenance = some (request.orchestration, request.version) := by
  unfold PauseArguments.check at h
  split at h
  · cases h
  · split at h
    · dsimp only at h
      split at h
      · split at h
        · cases h
        · rename_i hprovenance
          cases h
          exact hprovenance
      · cases h
    · cases h

/-- The row of a paused event carries the names of the request, and is active. -/
theorem stored_row {site : Site L} {a : Arrival} {now : Instant} {w w' : World}
    (h : storePausedEvent site a now w = .ok w') {r : PendingOrchestratedEvent}
    (hr : r ∈ w'.pending.rows) (hnew : r ∉ w.pending.rows) :
    ∃ orchestration version : Id, a.runtime.reporter = (some orchestration, some version) ∧
      r.orchestration = orchestration ∧ r.version = version ∧ r.status.active = true := by
  unfold storePausedEvent at h
  obtain ⟨request, hcheck, h⟩ := bind_eq_ok.mp h
  -- the request carries the names of the result
  obtain ⟨orchestration, version, hreporter, ho, hv⟩ : ∃ orchestration version : Id,
      a.runtime.reporter = (some orchestration, some version) ∧
        request.orchestration = orchestration ∧ request.version = version := by
    have hprovenance := check_provenance hcheck
    unfold Arrival.pauseArguments at hprovenance
    unfold RuntimeResult.reporter
    dsimp only at hprovenance
    cases ho : a.runtime.dispositionOrchestrationId with
    | none =>
      rw [ho] at hprovenance
      cases hprovenance
    | some o =>
      cases hv : a.runtime.dispositionVersionId with
      | none =>
        rw [ho, hv] at hprovenance
        cases hprovenance
      | some v =>
        rw [ho, hv] at hprovenance
        have hpair : ((o : ℕ), (v : ℕ)) = _ := Option.some.inj hprovenance
        exact ⟨o, v, rfl, (congrArg Prod.fst hpair).symm, (congrArg Prod.snd hpair).symm⟩
  refine ⟨orchestration, version, hreporter, ?_⟩
  split at h
  · cases h
    rcases List.mem_append.mp hr with hr | hr
    · exact absurd hr hnew
    · cases List.mem_singleton.mp hr
      exact ⟨ho, hv, rfl⟩
  · rename_i current _
    cases h
    obtain ⟨r₀, hr₀, ⟨hguard, rfl⟩ | ⟨-, rfl⟩⟩ := mem_updatePending.mp hr
    · obtain ⟨-, -, hstatus⟩ := of_decide_eq_true hguard
      unfold PauseRequest.refresh
      by_cases hactivating : current.status = .activating
      · rw [if_pos hactivating] at hstatus ⊢
        refine ⟨ho, hv, ?_⟩
        show r₀.status.active = true
        rw [hstatus.1]
        rfl
      · rw [if_neg hactivating]
        exact ⟨ho, hv, rfl⟩
    · exact absurd hr₀ hnew

/-- Deleting an orchestration cancels an active row exactly when it owns it. -/
theorem archive_cancels {w : World} {r : PendingOrchestratedEvent} (hr : r ∈ w.pending.rows)
    (hactive : r.status.active = true) (orchestrationId : ℕ) (now : Instant) :
    (∃ r' ∈ (archiveOrchestration orchestrationId now w).pending.rows,
      r'.id = r.id ∧ r'.status = .cancelled) ↔ orchestrationId = r.orchestration := by
  have hcovers : ∀ row : PendingOrchestratedEvent,
      cancelGuard { orchestrationIds := [orchestrationId] } row = true ↔
        row.status.active = true ∧ orchestrationId = row.orchestration := by
    intro row
    unfold cancelGuard CancelScope.covers
    rw [Bool.and_eq_true]
    -- a row is covered by what it is stored with
    refine and_congr_right fun _ => ?_
    simp only [Option.any_none, Option.isSome_none, Bool.false_and, Bool.false_or,
      List.contains_iff_mem, List.mem_singleton]
    exact eq_comm
  unfold archiveOrchestration
  constructor
  -- the row was cancelled by this archive, being active before
  · rintro ⟨r', hr', hid, hcancelled⟩
    obtain ⟨r₀, hr₀, ⟨hguard, rfl⟩ | ⟨-, rfl⟩⟩ := mem_updatePending.mp hr'
    · rw [← IdTable.eq_of_id hr₀ hr hid]
      exact ((hcovers r₀).mp hguard).2
    · rw [IdTable.eq_of_id hr₀ hr hid] at hcancelled
      rw [hcancelled] at hactive
      cases hactive
  · intro howner
    exact ⟨_, mem_updatePending.mpr ⟨r, hr, .inl ⟨(hcovers r).mpr ⟨hactive, howner⟩, rfl⟩⟩, rfl,
      rfl⟩

/-- **A disposition has its provenance exactly when the orchestration that set it last is
the one that was applied last.** -/
theorem provenance_iff {e : EventRun L}
    (h : orchestrate site.orc site.toServices alertData = .ok e) :
    Provenance site alertData e ↔ LastAppliedDecides e.applied := by
  have hreports := orchestrate_reports h
  constructor
  -- the orchestration that is named is the one that reported last
  · rintro ⟨hnamed, -⟩ d hd b hb
    have hset : e.runtime.disposition ≠ .process := fun hprocess =>
      decidedBy_ne_nil hd ((disposition_eq_process_iff hreports).mp hprocess)
    obtain ⟨b', hb', hreporter⟩ := reporter_eq hreports hset
    obtain ⟨d', hd', hname⟩ := hnamed hset
    obtain rfl : b = b' := Option.some.inj (hb.symm.trans hb')
    obtain rfl : d = d' := Option.some.inj (hd.symm.trans hd')
    exact hreporter.symm.trans hname
  -- the last to decide is the one that reports
  · intro hlast
    have hnamed : e.runtime.disposition ≠ .process →
        ∃ d, lastDecider e.applied = some d ∧ e.runtime.reporter = d.reporter := by
      intro hset
      obtain ⟨b, hb, hreporter⟩ := reporter_eq hreports hset
      obtain ⟨d, hd⟩ := lastDecider_isSome fun hnil =>
        hset ((disposition_eq_process_iff hreports).mpr hnil)
      exact ⟨d, hd, hreporter.trans (hlast d hd b hb)⟩
    refine ⟨hnamed, ?_⟩
    intro a now w w' ha hpause hstore
    have hruntime := (incoming_runtime h ha).1
    rw [hruntime] at hpause
    obtain ⟨d, hd, hname⟩ := hnamed (by rw [hpause]; decide)
    refine ⟨d, hd, ?_⟩
    intro r hr hnew
    obtain ⟨orchestration, version, hreporter, ho, hv, hactive⟩ := stored_row hstore hr hnew
    rw [hruntime, hname] at hreporter
    obtain rfl : d.orchestration.id = orchestration :=
      Option.some.inj (congrArg Prod.fst hreporter)
    obtain rfl : d.versionId = version := Option.some.inj (congrArg Prod.snd hreporter)
    refine ⟨ho, hv, fun orchestrationId later => ?_⟩
    rw [archive_cancels hr hactive, ho]

end Provenance

/-! ## Two orchestrations behind each other -/

/-- One tenant with a route, and global orchestrations. -/
def oneTenantSite (orchestrations : List (Orchestration plainLanguage)) : Site plainLanguage :=
  { plainServices with
    orc := { opsEnv with orchestrations }
    chars := asciiClasses
    settings := {}
    activationError := fun _ => "RuntimeError"
    service_mem := by simp [plainServices] }

/-- A global orchestration whose only rule always does this. -/
def always (id : Id) (body : ActionBody) : Orchestration plainLanguage :=
  { hybridGlobal with
    id, published := some { id, rules := [.mk true .continue () [.run body .continue] []] } }

def runOf (site : Site plainLanguage) : Except PyError (EventRun plainLanguage) :=
  orchestrate site.orc site.toServices (diskOn 1)

/-- What is computed of a run that raises nothing is computed of its result. -/
theorem runOf_ok (site : Site plainLanguage) {β : Type} (x : β) (f : EventRun plainLanguage → β)
    (h : (runOf site).map f = .ok x) :
    ∃ e, orchestrate site.orc site.toServices (diskOn 1) = .ok e ∧ f e = x := by
  unfold runOf at h
  cases hrun : orchestrate site.orc site.toServices (diskOn 1) with
  | error error =>
    rw [hrun] at h
    cases h
  | ok e =>
    rw [hrun] at h
    exact ⟨e, rfl, Except.ok.inj h⟩

def dropThenSuppress : Site plainLanguage :=
  oneTenantSite [always 1 (.drop none), always 2 (.suppress none)]

/-- The event that the first orchestration drops is suppressed by the second. -/
theorem dropped_event_suppressed :
    ∃ e, orchestrate dropThenSuppress.orc dropThenSuppress.toServices (diskOn 1) = .ok e ∧
      ¬DropFinal dropThenSuppress (diskOn 1) 0 World.init e := by
  obtain ⟨e, he, hends⟩ := runOf_ok dropThenSuppress (true, Disposition.suppress)
    (fun e => ((decidedBy e.applied).contains .drop, e.runtime.disposition)) (by decide +kernel)
  refine ⟨e, he, fun hfinal => ?_⟩
  have hdropped := List.contains_iff_mem.mp (congrArg Prod.fst hends)
  have hsuppressed : e.runtime.disposition = .suppress := congrArg Prod.snd hends
  rw [(hfinal hdropped).1] at hsuppressed
  cases hsuppressed

def suppressThenDrop : Site plainLanguage :=
  oneTenantSite [always 1 (.suppress none), always 2 (.drop none)]

/-- A drop behind a suppression is final. -/
theorem drop_final_sample :
    ∃ e, orchestrate suppressThenDrop.orc suppressThenDrop.toServices (diskOn 1) = .ok e ∧
      decidedBy e.applied = [.suppress, .drop] ∧ e.runtime.disposition = .drop ∧
      upsertAlert suppressThenDrop (diskOn 1) 0 World.init = World.init := by
  -- one evaluation for all that is read of the run
  obtain ⟨e, he, hread⟩ := runOf_ok suppressThenDrop ([Disposition.suppress, .drop], some "firing")
    (fun e => (decidedBy e.applied, textIn e.alertData "status")) (by decide +kernel)
  obtain ⟨hdecided, hstatus⟩ := Prod.mk.inj hread
  have hfiring : ∀ a ∈ incoming suppressThenDrop (diskOn 1), a.status ≠ .resolved := by
    intro a ha
    unfold Arrival.status
    rw [(incoming_runtime he ha).2.1, hstatus]
    decide
  have hstands : DropStands suppressThenDrop (diskOn 1) World.init e := by
    refine fun _ => ⟨by rw [hdecided]; rfl, fun a ha hresolved => ?_⟩
    exact hfiring a ha hresolved.1
  have hfinal := (drop_final_iff suppressThenDrop (diskOn 1) 0 World.init he).mpr hstands
    (by rw [hdecided]; decide)
  exact ⟨e, he, hdecided, hfinal⟩

def suppressThenTitle : Site plainLanguage :=
  oneTenantSite [always 1 (.suppress none), always 2 (.setText .title (.value (.str "Disk")))]

/-- The event is suppressed by the first orchestration, and the second is named for it. -/
theorem suppression_renamed :
    ∃ e, orchestrate suppressThenTitle.orc suppressThenTitle.toServices (diskOn 1) = .ok e ∧
      ¬Provenance suppressThenTitle (diskOn 1) e := by
  obtain ⟨e, he, hends⟩ := runOf_ok suppressThenTitle
    (Disposition.suppress, (some 2, some 2), some (some 1, some 1))
    (fun e => (e.runtime.disposition, e.runtime.reporter,
      (lastDecider e.applied).map Applied.reporter)) (by decide +kernel)
  refine ⟨e, he, fun hprovenance => ?_⟩
  have hsuppressed : e.runtime.disposition = .suppress := congrArg Prod.fst hends
  obtain ⟨d, hd, hnamed⟩ := hprovenance.named (by rw [hsuppressed]; decide)
  have hreporter : e.runtime.reporter = (some 2, some 2) := congrArg (·.2.1) hends
  have hdecider : (lastDecider e.applied).map Applied.reporter = some (some 1, some 1) :=
    congrArg (·.2.2) hends
  rw [hd, Option.map_some, ← hnamed, hreporter] at hdecider
  cases hdecider

def titleThenPause : Site plainLanguage :=
  oneTenantSite [always 1 (.setText .title (.value (.str "Disk"))),
    always 2 (.pause 60 .preserve none)]

/-- The orchestration that pauses is the last one that was applied, and is named for it. -/
theorem provenance_sample :
    ∃ e, orchestrate titleThenPause.orc titleThenPause.toServices (diskOn 1) = .ok e ∧
      e.applied.map Applied.reporter = [(some 1, some 1), (some 2, some 2)] ∧
      e.runtime.disposition = .pause ∧ Provenance titleThenPause (diskOn 1) e := by
  -- one evaluation for all that is read of the run
  obtain ⟨e, he, hread⟩ := runOf_ok titleThenPause true
    (fun e => decide (e.runtime.disposition = .pause ∧
      e.applied.map Applied.reporter = [(some 1, some 1), (some 2, some 2)] ∧
      (lastDecider e.applied).map Applied.reporter = some (some 2, some 2))) (by decide +kernel)
  obtain ⟨hpause, happlied, hdecider⟩ := of_decide_eq_true hread
  have hlast : LastAppliedDecides e.applied := by
    intro d hd b hb
    have hreporter := List.getLast?_map (f := Applied.reporter) (l := e.applied)
    rw [happlied, hb] at hreporter
    rw [hd] at hdecider
    exact (Option.some.inj hreporter).symm.trans (Option.some.inj hdecider).symm
  exact ⟨e, he, happlied, hpause, (provenance_iff _ _ he).mpr hlast⟩

end IncidentRelay.Alerts
