import IncidentRelay.Alerts.Disposition

/-!
# Resolves among paused events

Every event of one fingerprint is paused by one published orchestration. A resolved event
that finds the paused row ends it and goes no further: an alert that is open from an
earlier activation stays open. A resolved event that finds none is paused itself, and the
worker that takes it in meets the row it comes from, so the row is never activated.
Only where a row is paused and nothing is open is the resolve not lost
(`resolve_kept_iff`, `resolve_lost`).
-/

namespace IncidentRelay.Alerts

open Json Orchestration RouteSelection Pending

/-! ## One fingerprint -/

/-- A fingerprint, and the published version that pauses its events. -/
structure Pausing where
  group : Id
  source : String
  dedupKey : String
  orchestration : Id
  version : Id
  source_ne : source ≠ ""
  dedupKey_ne : dedupKey ≠ ""

namespace Pausing

variable {L : Language} (site : Site L) (p : Pausing)

def key : String := activeKey site p.group p.source p.dedupKey

/-- The event is of the fingerprint. -/
structure Of (a : Arrival) : Prop where
  source : a.source = p.source
  dedupKey : a.dedupKey = p.dedupKey
  group : a.route.team.group = some p.group

/-- The version pauses the event. -/
structure Pauses (a : Arrival) : Prop extends p.Of a where
  runtimeGroup : a.runtime.groupId = some p.group
  disposition : a.runtime.disposition = .pause
  pauseSeconds : ∃ n ∈ a.runtime.pauseSeconds, 0 < n
  orchestration : a.runtime.dispositionOrchestrationId = some p.orchestration
  version : a.runtime.dispositionVersionId = some p.version

/-- A firing or a resolved event that is paused, or a run of the worker. -/
def Takes : Label → Prop
  | .upsert alertData _ => ∃ a, incoming site alertData = some a ∧ p.Pauses a ∧
      (a.status = .firing ∨ a.status = .resolved)
  | .processDue .. => True
  | .followUp .. => False

/-- The row holds the event. -/
structure Holds (a : Arrival) (now : Instant) (row : PendingOrchestratedEvent) : Prop where
  event : row.normalizedEventJson = eventForStorage a.alertData
  context : row.contextJson = .obj (runtimeContext site.chars a.runtime [] (toString now))

/-- The worker takes the event in as it was: resolved, and of the fingerprint. -/
def Resumes (a : Arrival) (now : Instant) : Prop :=
  ∀ row, Holds site a now row → ∀ a' ∈ resumedArrival site row, p.Of a' ∧ a'.status = .resolved

/-- The row is paused. -/
def Waiting (row : PendingOrchestratedEvent) : Prop := row.activeKey = some (p.key site)

/-- The alert is open. -/
def Open (alert : Alert) : Prop :=
  alert.source = p.source ∧ alert.dedupKey = p.dedupKey ∧
    tenantOf site.orc.db alert.team = some p.group ∧ alert.status ≠ .resolved

/-- No alert is open, and no row is paused. -/
def Settled (w : World) : Prop :=
  (∀ alert ∈ w.store.alerts.rows, ¬p.Open site alert) ∧
    ∀ row ∈ w.pending.rows, ¬p.Waiting site row

end Pausing

section Runs

variable {L : Language} {site : Site L} {p : Pausing} {w : World} {now : Instant}

/-! ## The table -/

abbrev PausedTable : Type := IdTable PendingOrchestratedEvent (·.id)

/-- The rows that are not over are the paused row. -/
structure OneRow (site : Site L) (p : Pausing) (t : PausedTable) : Prop where
  waiting : ∀ row ∈ t.rows, row.status.active = true → p.Waiting site row
  active : ∀ row ∈ t.rows, row.activeKey.isSome = true → row.status.active = true
  one : ∀ row ∈ t.rows, ∀ row' ∈ t.rows, p.Waiting site row → p.Waiting site row' → row = row'

theorem oneRow_init : OneRow site p World.init.pending := by
  have hempty : ∀ row : PendingOrchestratedEvent, row ∉ World.init.pending.rows :=
    fun _ => List.not_mem_nil
  exact ⟨fun row hrow => absurd hrow (hempty row), fun row hrow => absurd hrow (hempty row),
    fun row hrow => absurd hrow (hempty row)⟩

/-- The statement keeps the key of the rows it selects and leaves them active, or it ends
them. -/
def Keeps (guard : PendingOrchestratedEvent → Bool)
    (set : PendingOrchestratedEvent → PendingOrchestratedEvent) : Prop :=
  ∀ row, guard row = true →
    ((set row).activeKey = row.activeKey ∧ (set row).status.active = row.status.active) ∨
    ((set row).activeKey = none ∧ (set row).status.active = false)

/-- Such an update keeps one row at most that waits with the event. -/
theorem OneRow.update {t : PausedTable} (h : OneRow site p t)
    {guard : PendingOrchestratedEvent → Bool}
    {set : PendingOrchestratedEvent → PendingOrchestratedEvent} (hkeeps : Keeps guard set)
    (hset : ∀ r, (set r).id = r.id) : OneRow site p (t.update guard set hset) := by
  -- what a guarded update leaves is a row of before, with its key or over
  have hbefore : ∀ row ∈ (t.update guard set hset).rows,
      ∃ row₀ ∈ t.rows, row₀.id = row.id ∧
        (row.activeKey = row₀.activeKey ∧ row.status.active = row₀.status.active ∨
          row.activeKey = none ∧ row.status.active = false) := by
    intro row hrow
    obtain ⟨row₀, hrow₀, ⟨hguard, rfl⟩ | ⟨-, rfl⟩⟩ := Table.mem_update.mp hrow
    · exact ⟨row₀, hrow₀, (hset row₀).symm, hkeeps row₀ hguard⟩
    · exact ⟨row, hrow₀, rfl, .inl ⟨rfl, rfl⟩⟩
  -- the three parts of the invariant, for the rows of before
  refine ⟨?_, ?_, ?_⟩
  · intro row hrow hactive
    obtain ⟨row₀, hrow₀, -, ⟨hkey, hstatus⟩ | ⟨-, hover⟩⟩ := hbefore row hrow
    · exact hkey.trans (h.waiting row₀ hrow₀ (hstatus ▸ hactive))
    · rw [hover] at hactive
      cases hactive
  · intro row hrow hkeyed
    obtain ⟨row₀, hrow₀, -, ⟨hkey, hstatus⟩ | ⟨hnone, -⟩⟩ := hbefore row hrow
    · exact hstatus.trans (h.active row₀ hrow₀ (hkey ▸ hkeyed))
    · rw [hnone] at hkeyed
      cases hkeyed
  -- two rows that wait with the key are one
  · intro row hrow row' hrow' hwaiting hwaiting'
    obtain ⟨row₀, hrow₀, hid, ⟨hkey, -⟩ | ⟨hnone, -⟩⟩ := hbefore row hrow
    · obtain ⟨row₀', hrow₀', hid', ⟨hkey', -⟩ | ⟨hnone', -⟩⟩ := hbefore row' hrow'
      · have heq := h.one row₀ hrow₀ row₀' hrow₀' (hkey.symm.trans hwaiting)
          (hkey'.symm.trans hwaiting')
        exact IdTable.eq_of_id hrow hrow' (hid.symm.trans ((congrArg _ heq).trans hid'))
      · cases hnone'.symm.trans hwaiting'
    · cases hnone.symm.trans hwaiting

/-- Nothing is found under the key of the event exactly when no row waits with it. -/
theorem findActive_eq_none :
    w.findActive (p.key site) = none ↔ ∀ row ∈ w.pending.rows, ¬p.Waiting site row := by
  unfold World.findActive Pausing.Waiting
  rw [List.find?_eq_none]
  simp only [decide_eq_true_eq]

/-- A paused row is found. -/
theorem findActive_of_waiting {row : PendingOrchestratedEvent} (hrow : row ∈ w.pending.rows)
    (hwaiting : p.Waiting site row) : ∃ current, w.findActive (p.key site) = some current := by
  refine Option.isSome_iff_exists.mp (List.find?_isSome.mpr ⟨row, hrow, ?_⟩)
  exact decide_eq_true hwaiting

/-! ## The worker's statements -/

/-- Taking a stale claim back keeps the row waiting with what it waits with. -/
theorem keeps_requeue (settings : Settings) :
    Keeps (staleGuard settings now) (requeueRow now) := by
  intro row hguard
  have hactivating : row.status = .activating := (of_decide_eq_true hguard).1
  refine .inl ⟨rfl, ?_⟩
  rw [hactivating]
  rfl

theorem keeps_claim (rowId token : ℕ) : Keeps (claimGuard rowId) (claimRow token now) := by
  intro row hguard
  have hpending : row.status = .pending := (of_decide_eq_true hguard).2
  refine .inl ⟨rfl, ?_⟩
  rw [hpending]
  rfl

theorem keeps_activated (claimed : PendingOrchestratedEvent) (alertData : Dict) :
    Keeps (heldGuard claimed) (activatedRow now alertData) := fun _ _ => .inr ⟨rfl, rfl⟩

/-- A failure ends it or puts it back. -/
theorem keeps_failed (settings : Settings) (error : String) (claimed : PendingOrchestratedEvent) :
    Keeps (heldGuard claimed) (failedRow settings now error claimed) := by
  intro row hguard
  have hactivating : row.status = .activating := (of_decide_eq_true hguard).2.1
  refine .inl ⟨rfl, ?_⟩
  rw [hactivating]
  unfold failedRow
  dsimp only
  split
  · rfl
  · rfl

theorem keeps_resolve (current : PendingOrchestratedEvent) (key : String) :
    Keeps (resolveGuard key current) (resolveRow now current) := fun _ _ => .inr ⟨rfl, rfl⟩

/-- A second pause refreshes the row and leaves its key. -/
theorem keeps_refresh (request : PauseRequest) (current : PendingOrchestratedEvent)
    (sha256 : String → String) :
    Keeps (request.refreshGuard sha256 current) (request.refresh current) := by
  intro row hguard
  obtain ⟨-, -, hstatus⟩ := of_decide_eq_true hguard
  unfold PauseRequest.refresh
  split_ifs at hstatus ⊢ with hactivating
  · exact .inl ⟨rfl, rfl⟩
  · refine .inl ⟨rfl, ?_⟩
    rcases hstatus with hpending | hfailed
    · rw [hpending]
    · rw [hfailed]
      rfl

/-- An event that is written leaves the paused rows. -/
theorem upsertRouted_completed {a : Arrival} {t : World} {groupId alertId : ℕ} {created : Bool}
    (h : upsertRouted site a now w = .ok (t, .completed groupId alertId created)) :
    t.pending = w.pending := by
  unfold upsertRouted at h
  split at h
  · cases h
  · split_ifs at h
    · cases h
    · obtain ⟨w', -, hreturn⟩ := bind_eq_ok.mp h
      cases hreturn
    · generalize persistEvent site.toServices a now w.store = written at h
      obtain ⟨store, outcome⟩ := written
      cases h
      rfl

/-- What the worker does to the table, whatever it takes in. -/
theorem OneRow.activateOne (h : OneRow site p w.pending) (rowId : ℕ) :
    OneRow site p (activateOne site now w rowId).pending := by
  unfold Alerts.activateOne
  split
  · exact h
  -- the claim keeps the key and ends the waiting for the worker
  · rename_i w' row hclaim
    have hclaimed : OneRow site p w'.pending := by
      obtain ⟨found, -, heq⟩ := Option.map_eq_some_iff.mp hclaim
      cases heq
      exact h.update (keeps_claim rowId w.nextToken) fun _ => rfl
    -- the activation commits, or its failure is noted on the row
    split
    · rename_i w'' hactivate
      obtain ⟨a, ha, hcommit⟩ := Option.bind_eq_some_iff.mp hactivate
      split at hcommit
      · rename_i t groupId alertId created hrouted
        split_ifs at hcommit
        cases hcommit
        have ht : OneRow site p t.pending := by
          rw [upsertRouted_completed hrouted]
          exact hclaimed
        exact ht.update (keeps_activated row a.alertData) fun _ => rfl
      · cases hcommit
    · exact hclaimed.update (keeps_failed site.settings _ row) fun _ => rfl

/-- By induction on the rows that are due. -/
theorem OneRow.activations (rowIds : List ℕ) (h : OneRow site p w.pending) :
    OneRow site p (rowIds.foldl (Alerts.activateOne site now) w).pending := by
  induction rowIds generalizing w with
  | nil => exact h
  | cons rowId rowIds ih => exact ih (h.activateOne rowId)

/-- A batch keeps one row at most. -/
theorem OneRow.processDue (h : OneRow site p w.pending) (limit : ℕ) :
    OneRow site p (processDue site limit now w).pending := by
  have hrequeued : OneRow site p (requeueStale site now w).pending :=
    h.update (keeps_requeue site.settings) fun _ => rfl
  exact hrequeued.activations _

/-! ## The event -/

/-- The arguments of a pause that pass the checks. -/
theorem check_ok {args : PauseArguments} {groupId : ℕ} {provenance : ℕ × ℕ}
    (hgroup : (args.runtimeGroupId <|> args.routeGroupId) = some groupId)
    (hkeys : args.source ≠ "" ∧ args.dedupKey ≠ "")
    (hseconds : 0 < (args.pauseSeconds.getD 0).toNat) (hprovenance : args.provenance = some provenance) :
    ∃ request, args.check now = .ok request ∧ request.groupId = groupId ∧
      request.source = args.source ∧ request.dedupKey = args.dedupKey ∧
      request.storedEvent = args.storedEvent ∧ request.runtimeContext = args.runtimeContext := by
  unfold PauseArguments.check
  rw [hgroup, hprovenance]
  dsimp only
  rw [dif_pos hkeys, dif_pos hseconds]
  exact ⟨_, rfl, rfl, rfl, rfl, rfl, rfl⟩

/-- The request of an event that is paused. -/
theorem Pausing.Pauses.check {a : Arrival} (h : p.Pauses a) (now : Instant) :
    ∃ request, (Arrival.pauseArguments site a now).check now = .ok request ∧
      request.key site.sha256 = p.key site ∧ request.storedEvent = eventForStorage a.alertData ∧
      request.runtimeContext (.obj []) =
        .obj (runtimeContext site.chars a.runtime [] (toString now)) := by
  obtain ⟨n, hn, hpos⟩ := h.pauseSeconds
  have hsource := h.source
  have hdedup := h.dedupKey
  -- an event that pauses passes every check of the request
  obtain ⟨request, hrequest, hgroup, hsource', hdedup', hevent, hcontext⟩ :=
    @check_ok now (Arrival.pauseArguments site a now) p.group (p.orchestration, p.version)
      (by
        unfold Arrival.pauseArguments
        dsimp only
        rw [h.runtimeGroup]
        rfl)
      (by
        show a.source ≠ "" ∧ a.dedupKey ≠ ""
        rw [hsource, hdedup]
        exact ⟨p.source_ne, p.dedupKey_ne⟩)
      (by
        unfold Arrival.pauseArguments
        dsimp only
        rw [Option.mem_def.mp hn]
        show 0 < ((n : ℕ) : Int).toNat
        omega)
      (by
        unfold Arrival.pauseArguments
        dsimp only
        rw [h.orchestration, h.version]
        rfl)
  refine ⟨request, hrequest, ?_, hevent, ?_⟩
  · unfold PauseRequest.key
    rw [hgroup, hsource', hdedup']
    show pendingActiveKey _ _ a.source a.dedupKey = _
    rw [hsource, hdedup]
    rfl
  · rw [hcontext]
    rfl

/-- Behind the paused row of its fingerprint a resolved event goes no further. -/
theorem clearPending_waiting {a : Arrival} (hof : p.Of a) (hresolved : a.status = .resolved)
    {current : PendingOrchestratedEvent} (hfound : w.findActive (p.key site) = some current) :
    clearPending site a now w =
      some (w.updatePending (resolveGuard (p.key site) current) (resolveRow now current)
        fun _ => rfl) := by
  have hkey : activeKey site p.group a.source a.dedupKey = p.key site := by
    rw [hof.source, hof.dedupKey]
    rfl
  unfold clearPending
  rw [if_pos hresolved, hof.group]
  show resolvePendingEvent site p.group a.source a.dedupKey now w = _
  unfold resolvePendingEvent
  dsimp only
  rw [hkey, hfound]
  rfl

/-- Without a row that waits with the event there is nothing to clear. -/
theorem clearPending_eq_none {a : Arrival} (hof : p.Of a)
    (hnone : ∀ row ∈ w.pending.rows, ¬p.Waiting site row) :
    clearPending site a now w = none := by
  have hkey : activeKey site p.group a.source a.dedupKey = p.key site := by
    rw [hof.source, hof.dedupKey]
    rfl
  have hfind : w.findActive (p.key site) = none := findActive_eq_none.mpr hnone
  unfold clearPending
  split
  · rw [hof.group]
    show resolvePendingEvent site p.group a.source a.dedupKey now w = none
    unfold resolvePendingEvent
    dsimp only
    rw [hkey, hfind]
    rfl
  · rfl

/-- An event that is paused is in a new row, or in the paused one. -/
theorem deliver_paused {a : Arrival} (hp : p.Pauses a)
    (hclear : clearPending site a now w = none) :
    ∃ request : PauseRequest, request.key site.sha256 = p.key site ∧
      request.storedEvent = eventForStorage a.alertData ∧
      request.runtimeContext (.obj []) =
        .obj (runtimeContext site.chars a.runtime [] (toString now)) ∧
      deliver site a now w =
        match w.findActive (p.key site) with
        | none =>
          { w with
            pending := w.pending.insert (request.newRow site.sha256 w.pending.next) rfl }
        | some current =>
          w.updatePending (request.refreshGuard site.sha256 current) (request.refresh current)
            (PauseRequest.refresh_id request current) := by
  obtain ⟨request, hrequest, hkey, hevent, hcontext⟩ := @Pausing.Pauses.check L site p a hp now
  -- a paused event is not dropped
  have hdrop : a.runtime.disposition ≠ .drop := by
    rw [hp.disposition]
    exact fun h => by cases h
  refine ⟨request, hkey, hevent, hcontext, ?_⟩
  unfold deliver upsertRouted
  rw [hclear]
  dsimp only
  rw [if_neg hdrop, if_pos hp.disposition]
  unfold storePausedEvent
  rw [hrequest, ← hkey]
  -- there is a row that waits, or there is none
  cases hfound : w.findActive (request.key site.sha256) with
  | none => simp only [bind, Except.bind, hfound]
  | some current => simp only [bind, Except.bind, hfound]

/-- A row is inserted only where none waits. -/
theorem OneRow.insert {t : PausedTable} (h : OneRow site p t) {row : PendingOrchestratedEvent}
    (hid : row.id = t.next) (hrow : p.Waiting site row) (hactive : row.status.active = true)
    (hnone : ∀ row ∈ t.rows, ¬p.Waiting site row) : OneRow site p (t.insert row hid) := by
  refine ⟨?_, ?_, ?_⟩
  · intro row' hrow' hactive'
    rcases IdTable.mem_insert.mp hrow' with hbefore | rfl
    · exact h.waiting row' hbefore hactive'
    · exact hrow
  · intro row' hrow' hkeyed
    rcases IdTable.mem_insert.mp hrow' with hbefore | rfl
    · exact h.active row' hbefore hkeyed
    · exact hactive
  · intro row₁ hrow₁ row₂ hrow₂ hwaiting₁ hwaiting₂
    rcases IdTable.mem_insert.mp hrow₁ with hbefore₁ | rfl
    · exact absurd hwaiting₁ (hnone row₁ hbefore₁)
    · rcases IdTable.mem_insert.mp hrow₂ with hbefore₂ | rfl
      · exact absurd hwaiting₂ (hnone row₂ hbefore₂)
      · rfl

/-- A delivery that pauses refreshes the row that waits, or inserts one. -/
theorem OneRow.deliver {a : Arrival} (hp : p.Pauses a) (h : OneRow site p w.pending) :
    OneRow site p (deliver site a now w).pending := by
  cases hclear : clearPending site a now w with
  -- the event resolves a waiting row
  | some cleared =>
    have hdeliver : Alerts.deliver site a now w = cleared := by
      unfold Alerts.deliver upsertRouted
      rw [hclear]
    rw [hdeliver]
    unfold clearPending at hclear
    split_ifs at hclear
    obtain ⟨groupId, -, hresolve⟩ := Option.bind_eq_some_iff.mp hclear
    obtain ⟨current, -, rfl⟩ := Option.map_eq_some_iff.mp hresolve
    exact h.update (keeps_resolve current _) fun _ => rfl
  -- it does not, and is paused: the row is refreshed or made
  | none =>
    obtain ⟨request, hkey, -, -, hdeliver⟩ := deliver_paused hp hclear
    rw [hdeliver]
    cases hfound : w.findActive (p.key site) with
    | some current =>
      exact h.update (keeps_refresh request current site.sha256)
        (PauseRequest.refresh_id request current)
    | none =>
      exact h.insert rfl (congrArg some hkey) rfl (findActive_eq_none.mp hfound)

/-- An event that comes in is delivered. -/
theorem step_upsert {alertData : Dict} {a : Arrival} (ha : incoming site alertData = some a) :
    step site w (.upsert alertData now) = deliver site a now w := by
  show upsertAlert site alertData now w = _
  unfold upsertAlert
  rw [ha]

/-- The table of every run. -/
theorem OneRow.run {labels : List Label} (hlabels : ∀ label ∈ labels, p.Takes site label)
    (h : OneRow site p w.pending) : OneRow site p (labels.foldl (step site) w).pending := by
  induction labels generalizing w with
  | nil => exact h
  | cons label labels ih =>
    refine ih (fun l hl => hlabels l (List.mem_cons_of_mem _ hl)) ?_
    have htakes := hlabels label List.mem_cons_self
    cases label with
    | upsert alertData now =>
      obtain ⟨a, ha, hp, -⟩ := htakes
      rw [step_upsert ha]
      exact h.deliver hp
    | processDue limit now => exact h.processDue limit
    | followUp => exact htakes.elim

/-! ## Behind a resolve that finds the row -/

/-- Every row is over. -/
def Quiet (t : PausedTable) : Prop := ∀ row ∈ t.rows, row.status.active = false

/-- In a quiet table no row waits with the event. -/
theorem OneRow.quiet {t : PausedTable} (h : OneRow site p t) (hquiet : Quiet t) :
    ∀ row ∈ t.rows, ¬p.Waiting site row := by
  intro row hrow hwaiting
  have hactive := h.active row hrow (by rw [hwaiting]; rfl)
  rw [hquiet row hrow] at hactive
  cases hactive

/-- Where one row waits at most, ending it leaves the table quiet. -/
theorem OneRow.resolve_quiet {t : PausedTable} (h : OneRow site p t)
    {current : PendingOrchestratedEvent} (hcurrent : current ∈ t.rows)
    (hwaiting : p.Waiting site current) :
    Quiet (t.update (resolveGuard (p.key site) current) (resolveRow now current) fun _ => rfl) := by
  intro row hrow
  obtain ⟨row₀, hrow₀, ⟨-, rfl⟩ | ⟨hguard, rfl⟩⟩ := IdTable.mem_update.mp hrow
  · rfl
  · rw [← Bool.not_eq_true]
    intro hactive
    -- a row that is not over is the paused one, which the statement selects
    have hrow_waiting := h.waiting row hrow₀ hactive
    have heq := h.one row hrow₀ current hcurrent hrow_waiting hwaiting
    have hselected : resolveGuard (p.key site) current row = true :=
      decide_eq_true ⟨congrArg _ heq, hrow_waiting, hactive⟩
    rw [hguard] at hselected
    cases hselected

/-- With every row over the worker does nothing to the alerts. -/
theorem processDue_quiet (h : Quiet w.pending) (limit : ℕ) :
    (processDue site limit now w).store = w.store ∧
      Quiet (processDue site limit now w).pending := by
  -- no row that is over is put back or due
  have hrequeued : Quiet (requeueStale site now w).pending := by
    intro row hrow
    obtain ⟨row₀, hrow₀, ⟨hguard, rfl⟩ | ⟨-, rfl⟩⟩ := Table.mem_update.mp hrow
    · have hactivating : row₀.status = .activating := (of_decide_eq_true hguard).1
      have hover := h row₀ hrow₀
      rw [hactivating] at hover
      cases hover
    · exact h row hrow₀
  have hnone : dueIds limit now (requeueStale site now w).pending.rows = [] := by
    have hfilter : (requeueStale site now w).pending.rows.filter (isDue now) = [] := by
      refine List.filter_eq_nil_iff.mpr fun row hrow hdue => ?_
      have hpending : row.status = .pending := (of_decide_eq_true hdue).1
      have hover := hrequeued row hrow
      rw [hpending] at hover
      cases hover
    unfold dueIds
    rw [hfilter, List.insertionSort_nil, List.take_nil, List.map_nil]
  unfold processDue
  dsimp only
  rw [hnone]
  exact ⟨rfl, hrequeued⟩

/-! ## Behind a resolve that is paused -/

/-- The event is paused and its row is not over. -/
def Stuck (site : Site L) (p : Pausing) (a : Arrival) (stored : Instant) (t : PausedTable) : Prop :=
  OneRow site p t ∧ ∃ row ∈ t.rows, p.Waiting site row ∧ Pausing.Holds site a stored row

/-- An update that does not touch what the row was stored with keeps it stuck. -/
theorem Stuck.update {a : Arrival} {stored : Instant} {t : PausedTable}
    (h : Stuck site p a stored t) {guard : PendingOrchestratedEvent → Bool}
    {set : PendingOrchestratedEvent → PendingOrchestratedEvent} (hkeeps : Keeps guard set)
    (hset : ∀ r, (set r).id = r.id)
    (hevent : ∀ r, (set r).activeKey = r.activeKey ∧
      (set r).normalizedEventJson = r.normalizedEventJson ∧ (set r).contextJson = r.contextJson) :
    Stuck site p a stored (t.update guard set hset) := by
  obtain ⟨hone, row, hrow, hwaiting, hholds⟩ := h
  refine ⟨hone.update hkeeps hset, _, IdTable.updated_mem hset hrow, ?_⟩
  obtain ⟨hkey, hjson, hcontext⟩ := hevent row
  split_ifs
  · exact ⟨hkey.trans hwaiting, hjson.trans hholds.event, hcontext.trans hholds.context⟩
  · exact ⟨hwaiting, hholds⟩

/-- The worker claims the row, meets it again behind its event, and gives it back. -/
theorem Stuck.activateOne {a : Arrival} {stored : Instant} (hresumes : p.Resumes site a stored)
    (h : Stuck site p a stored w.pending) (rowId : ℕ) :
    Stuck site p a stored (activateOne site now w rowId).pending := by
  unfold Alerts.activateOne
  split
  · exact h
  · rename_i w' row hclaim
    obtain ⟨found, hfound, heq⟩ := Option.map_eq_some_iff.mp hclaim
    -- the row that is claimed is the paused one
    have hmem := List.mem_of_find?_eq_some hfound
    have hguard : claimGuard rowId found = true := List.find?_some hfound
    have hpending : found.status = .pending := (of_decide_eq_true hguard).2
    obtain ⟨row₀, hrow₀, hwaiting, hholds⟩ := h.2
    have hfound_waiting := h.1.waiting found hmem (by rw [hpending]; rfl)
    have hfound_eq := h.1.one found hmem row₀ hrow₀ hfound_waiting hwaiting
    subst hfound_eq
    have hclaimed : Stuck site p a stored w'.pending ∧ Pausing.Holds site a stored row := by
      cases heq
      exact ⟨h.update (keeps_claim rowId w.nextToken) (fun _ => rfl) fun _ => ⟨rfl, rfl, rfl⟩,
        hholds.event, hholds.context⟩
    have hraises : activateClaimed site row now w' = none := by
      refine Option.bind_eq_none_iff.mpr fun a' ha' => ?_
      obtain ⟨hof, hresolved⟩ := hresumes row hclaimed.2 a' ha'
      obtain ⟨row', hrow', hwaiting', -⟩ := hclaimed.1.2
      obtain ⟨current, hcurrent⟩ := findActive_of_waiting hrow' hwaiting'
      unfold upsertRouted
      rw [clearPending_waiting hof hresolved hcurrent]
    rw [hraises]
    exact hclaimed.1.update (keeps_failed site.settings _ row) (fun _ => rfl)
      fun _ => ⟨rfl, rfl, rfl⟩

/-- A batch keeps the row stuck: what it activates raises. -/
theorem Stuck.processDue {a : Arrival} {stored : Instant} (hresumes : p.Resumes site a stored)
    (h : Stuck site p a stored w.pending) (limit : ℕ) :
    Stuck site p a stored (processDue site limit now w).pending := by
  have hrequeued : Stuck site p a stored (requeueStale site now w).pending :=
    h.update (keeps_requeue site.settings) (fun _ => rfl) fun _ => ⟨rfl, rfl, rfl⟩
  unfold Alerts.processDue
  dsimp only
  -- by induction on the rows that are due
  generalize dueIds limit now (requeueStale site now w).pending.rows = rowIds
  generalize requeueStale site now w = requeued at hrequeued
  induction rowIds generalizing requeued with
  | nil => exact hrequeued
  | cons rowId rowIds ih =>
    rw [List.foldl_cons]
    exact ih _ (Stuck.activateOne hresumes hrequeued rowId)

/-- An event that finds no paused row is paused. -/
theorem deliver_stuck {a : Arrival} (hone : OneRow site p w.pending) (hp : p.Pauses a)
    (hnone : ∀ row ∈ w.pending.rows, ¬p.Waiting site row) :
    Stuck site p a now (deliver site a now w).pending := by
  obtain ⟨request, hkey, hevent, hcontext, hdeliver⟩ :=
    @deliver_paused L site p w now a hp (clearPending_eq_none hp.toOf hnone)
  rw [findActive_eq_none.mpr hnone] at hdeliver
  refine ⟨hone.deliver hp, request.newRow site.sha256 w.pending.next, ?_,
    congrArg some hkey, hevent, hcontext⟩
  rw [hdeliver]
  exact List.mem_append_right _ (List.mem_singleton_self _)

/-! ## The last event -/

/-- The worker runs, each time with a limit and at an instant. -/
def processAll (site : Site L) (ticks : List (ℕ × Instant)) (w : World) : World :=
  ticks.foldl (fun w tick => processDue site tick.1 tick.2 w) w

/-- The batches after a quiet table do nothing. -/
theorem processAll_quiet (ticks : List (ℕ × Instant)) (h : Quiet w.pending) :
    (processAll site ticks w).store = w.store ∧ Quiet (processAll site ticks w).pending := by
  induction ticks generalizing w with
  | nil => exact ⟨rfl, h⟩
  | cons tick ticks ih =>
    obtain ⟨hstore, hquiet⟩ := @processDue_quiet L site w tick.2 h tick.1
    obtain ⟨hlater, hend⟩ := ih hquiet
    exact ⟨hlater.trans hstore, hend⟩

/-- One row at most through all batches. -/
theorem processAll_oneRow (ticks : List (ℕ × Instant)) (h : OneRow site p w.pending) :
    OneRow site p (processAll site ticks w).pending := by
  induction ticks generalizing w with
  | nil => exact h
  | cons tick ticks ih => exact ih (h.processDue tick.1)

/-- Stuck through all batches. -/
theorem processAll_stuck {a : Arrival} {stored : Instant} (hresumes : p.Resumes site a stored)
    (ticks : List (ℕ × Instant)) (h : Stuck site p a stored w.pending) :
    Stuck site p a stored (processAll site ticks w).pending := by
  induction ticks generalizing w with
  | nil => exact h
  | cons tick ticks ih => exact ih (Stuck.processDue hresumes h tick.1)

/-- **In a run of one fingerprint whose events are all paused, a resolved event is kept
exactly when it finds a paused row and no alert is open.** -/
theorem resolve_kept_iff {labels : List Label} (hlabels : ∀ label ∈ labels, p.Takes site label)
    {alertData : Dict} {a : Arrival} (ha : incoming site alertData = some a) (hp : p.Pauses a)
    (hresolved : a.status = .resolved) (hresumes : p.Resumes site a now)
    (ticks : List (ℕ × Instant)) :
    let w := labels.foldl (step site) World.init
    p.Settled site (processAll site ticks (step site w (.upsert alertData now))) ↔
      (∃ row ∈ w.pending.rows, p.Waiting site row) ∧
        ∀ alert ∈ w.store.alerts.rows, ¬p.Open site alert := by
  intro w
  have hone : OneRow site p w.pending := oneRow_init.run hlabels
  rw [step_upsert ha]
  by_cases hwaiting : ∃ row ∈ w.pending.rows, p.Waiting site row
  · -- the row is over, and the alerts stay as they are
    obtain ⟨row, hrow, hrow_waiting⟩ := hwaiting
    obtain ⟨current, hfound⟩ := findActive_of_waiting hrow hrow_waiting
    obtain ⟨hcurrent, hcurrent_waiting⟩ := findActive_spec hfound
    have hdeliver : deliver site a now w = w.updatePending (resolveGuard (p.key site) current)
        (resolveRow now current) fun _ => rfl := by
      unfold deliver upsertRouted
      rw [clearPending_waiting hp.toOf hresolved hfound]
    have hquiet : Quiet (deliver site a now w).pending := by
      rw [hdeliver]
      exact hone.resolve_quiet hcurrent hcurrent_waiting
    obtain ⟨hstore, hend⟩ := @processAll_quiet L site _ ticks hquiet
    have hkept : (deliver site a now w).store = w.store := by rw [hdeliver]; rfl
    -- the row is over, so the resolve is kept if no alert is open
    constructor
    · intro hsettled
      rw [← hkept, ← hstore]
      exact ⟨⟨row, hrow, hrow_waiting⟩, hsettled.1⟩
    · rintro ⟨-, hopen⟩
      -- and it is resolved if none is
      refine ⟨?_, ((processAll_oneRow ticks (hone.deliver hp)).quiet hend)⟩
      rw [hstore, hkept]
      exact hopen
  · -- the event is paused, and its row stays
    constructor
    · intro hsettled
      have hnone : ∀ row ∈ w.pending.rows, ¬p.Waiting site row :=
        fun row hrow hrow_waiting => hwaiting ⟨row, hrow, hrow_waiting⟩
      obtain ⟨-, row, hrow, hrow_waiting, -⟩ := 
        processAll_stuck hresumes ticks (deliver_stuck hone hp hnone)
      exact absurd hrow_waiting (hsettled.2 row hrow)
    · rintro ⟨hexists, -⟩
      exact absurd hexists hwaiting

end Runs

/-! ## An alert that was activated before -/

/-- One global orchestration that pauses every event for a minute. -/
def pausingSite : Site plainLanguage := oneTenantSite [always 1 (.pause 60 .preserve none)]

def diskPausing : Pausing where
  group := 1
  source := "webhook"
  dedupKey := "disk"
  orchestration := 1
  version := 1
  source_ne := by decide
  dedupKey_ne := by decide

/-- The resolved event under the key `disk`. -/
def diskResolved : Dict := (diskOn 1).set "status" (.str "resolved")

/-- The firing event. -/
def diskFires : List Label := [.upsert (diskOn 1) (seconds 150)]

def diskPaused : World := diskFires.foldl (step pausingSite) World.init

/-- The firing event, and the worker after the pause. -/
def diskActivated : World :=
  [Label.upsert (diskOn 1) 0, Label.processDue 100 (seconds 120)].foldl (step pausingSite)
    World.init

/-- The event is under the key `disk`, of the tenant. -/
def ofDisk (status : Status) (a : Arrival) : Bool :=
  a.source = "webhook" && a.dedupKey = "disk" && a.route.team.group = some 1 && a.status = status

/-- It is paused for a minute. -/
def pausedForMinute (a : Arrival) : Bool :=
  a.runtime.groupId = some 1 && a.runtime.disposition = .pause &&
    a.runtime.pauseSeconds = some 60 && a.runtime.dispositionOrchestrationId = some 1 &&
    a.runtime.dispositionVersionId = some 1

theorem of_ofDisk {status : Status} {a : Arrival} (h : ofDisk status a = true) :
    diskPausing.Of a ∧ a.status = status := by
  simp only [ofDisk, Bool.and_eq_true, decide_eq_true_eq] at h
  obtain ⟨⟨⟨hsource, hdedup⟩, hgroup⟩, hstatus⟩ := h
  exact ⟨⟨hsource, hdedup, hgroup⟩, hstatus⟩

theorem pauses_of_any {alertData : Dict} {status : Status}
    (h : (incoming pausingSite alertData).any
      (fun a => ofDisk status a && pausedForMinute a) = true) :
    ∃ a, incoming pausingSite alertData = some a ∧ diskPausing.Pauses a ∧ a.status = status := by
  obtain ⟨a, ha, hboth⟩ := Option.any_eq_true _ _ |>.mp h
  obtain ⟨hdisk, hminute⟩ := Bool.and_eq_true_iff.mp hboth
  obtain ⟨hof, hstatus⟩ := of_ofDisk hdisk
  simp only [pausedForMinute, Bool.and_eq_true, decide_eq_true_eq] at hminute
  obtain ⟨⟨⟨⟨hgroup, hpause⟩, hseconds⟩, horchestration⟩, hversion⟩ := hminute
  exact ⟨a, ha, ⟨hof, hgroup, hpause, ⟨60, hseconds, by decide⟩, horchestration, hversion⟩,
    hstatus⟩

theorem diskOn_pauses : ∃ a, incoming pausingSite (diskOn 1) = some a ∧ diskPausing.Pauses a ∧
    a.status = .firing :=
  pauses_of_any (by decide +kernel)

/-- What a worker makes of the event behind the pause. -/
def resumedDisk (a : Arrival) : Option Arrival :=
  arrivalOf (routeEvent pausingSite.orc pausingSite.toServices (eventForStorage a.alertData)
    (activationRuntime pausingSite.orc.db (Json.obj (runtimeContext pausingSite.chars a.runtime
      [] (toString (seconds 180)))).asDict))

/-- The resolved event is paused, and the worker takes it in as it was. -/
theorem diskResolved_run : (incoming pausingSite diskResolved).any (fun a =>
    (ofDisk .resolved a && pausedForMinute a) && (resumedDisk a).all (ofDisk .resolved)) = true := by
  decide +kernel

theorem diskResolved_pauses : ∃ a, incoming pausingSite diskResolved = some a ∧
    diskPausing.Pauses a ∧ a.status = .resolved := by
  refine pauses_of_any ((Option.any_eq_true _ _).mpr ?_)
  obtain ⟨a, ha, hrun⟩ := (Option.any_eq_true _ _).mp diskResolved_run
  exact ⟨a, ha, (Bool.and_eq_true_iff.mp hrun).1⟩

theorem diskOn_takes (now : Instant) : diskPausing.Takes pausingSite (.upsert (diskOn 1) now) := by
  obtain ⟨a, ha, hp, hfiring⟩ := diskOn_pauses
  exact ⟨a, ha, hp, .inl hfiring⟩

theorem diskResolved_resumes {a : Arrival} (ha : incoming pausingSite diskResolved = some a) :
    diskPausing.Resumes pausingSite a (seconds 180) := by
  have hrun := diskResolved_run
  rw [ha, Option.any_some] at hrun
  have hresumed := (Bool.and_eq_true_iff.mp hrun).2
  intro row hholds a' ha'
  unfold resumedArrival at ha'
  rw [hholds.event, hholds.context] at ha'
  rw [resumedDisk, Option.mem_def.mp ha', Option.all_some] at hresumed
  exact of_ofDisk hresumed

/-- The alert is open when the resolved event comes. It is paused, and its row is there
however often the worker runs. -/
theorem resolve_lost :
    (∀ label ∈ [Label.upsert (diskOn 1) 0, Label.processDue 100 (seconds 120)],
      diskPausing.Takes pausingSite label) ∧
    (∃ a, incoming pausingSite diskResolved = some a ∧ diskPausing.Pauses a ∧
      a.status = .resolved) ∧
    (∃ alert ∈ (step pausingSite diskActivated
        (.upsert diskResolved (seconds 180))).store.alerts.rows, diskPausing.Open pausingSite alert) ∧
    ∀ ticks, ¬diskPausing.Settled pausingSite (processAll pausingSite ticks
      (step pausingSite diskActivated (.upsert diskResolved (seconds 180)))) := by
  have htakes : ∀ label ∈ [Label.upsert (diskOn 1) 0, Label.processDue 100 (seconds 120)],
      diskPausing.Takes pausingSite label := by
    intro label hlabel
    rcases List.mem_cons.mp hlabel with rfl | hlabel
    · exact diskOn_takes 0
    · obtain rfl := List.mem_singleton.mp hlabel
      trivial
  obtain ⟨a, ha, hp, hresolved⟩ := diskResolved_pauses
  -- the row of the paused event was activated, so no row waits
  have hone : OneRow pausingSite diskPausing diskActivated.pending := oneRow_init.run htakes
  obtain ⟨hnone, hopen⟩ : diskActivated.findActive (diskPausing.key pausingSite) = none ∧
      ∃ alert ∈ (step pausingSite diskActivated
        (.upsert diskResolved (seconds 180))).store.alerts.rows,
        alert.source = "webhook" ∧ alert.dedupKey = "disk" ∧
          tenantOf pausingSite.orc.db alert.team = some 1 ∧ alert.status ≠ .resolved := by
    decide +kernel
  -- its resolve is paused like the event, and waits with nobody to take it
  refine ⟨htakes, ⟨a, ha, hp, hresolved⟩, hopen, fun ticks hsettled => ?_⟩
  rw [step_upsert ha] at hsettled
  obtain ⟨-, row, hrow, hwaiting, -⟩ := processAll_stuck (diskResolved_resumes ha) ticks
    (deliver_stuck hone hp (findActive_eq_none.mp hnone))
  exact hsettled.2 row hrow hwaiting

/-- A resolved event that finds the first pause is kept. -/
theorem resolve_kept_sample :
    diskPausing.Settled pausingSite (processAll pausingSite [(10, seconds 240)]
      (step pausingSite diskPaused (.upsert diskResolved (seconds 180)))) := by
  obtain ⟨a, ha, hp, hresolved⟩ := diskResolved_pauses
  have hbefore : (∃ row ∈ diskPaused.pending.rows, diskPausing.Waiting pausingSite row) ∧
      ∀ alert ∈ diskPaused.store.alerts.rows, ¬diskPausing.Open pausingSite alert := by
    unfold Pausing.Waiting Pausing.Open
    decide +kernel
  have htakes : ∀ label ∈ diskFires, diskPausing.Takes pausingSite label := by
    intro label hlabel
    obtain rfl := List.mem_singleton.mp hlabel
    exact diskOn_takes _
  have hiff := @resolve_kept_iff _ pausingSite diskPausing (seconds 180) _ htakes diskResolved a ha
    hp hresolved (diskResolved_resumes ha) [(10, seconds 240)]
  unfold diskPaused at hbefore ⊢
  exact hiff.mpr hbefore

end IncidentRelay.Alerts
