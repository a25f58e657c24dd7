import IncidentRelay.Alerts.Actions
import IncidentRelay.Alerts.Isolation
import IncidentRelay.Alerts.ReleaseOrder

/-!
# Runs with silences

Events, acknowledgements, resolves, edits of silences, reconciliations and runs of the
lifecycle come in any order. Whatever they leave behind, a run of the lifecycle holds
every silenced alert, and a silence lets go what it is the last to hold
(`lifecycle_contract`). The order in which silences end is seen where the applications of
an alert remember different statuses, and an alert that nothing has held is returned too
(`releases_not_free`).
-/

namespace IncidentRelay.Alerts

open Json

/-! ## Requests -/

inductive SilenceRequest where
  | event (env : IntakeServices) (rules : Matchers) (a : Arrival) (now : Instant)
  | acknowledge (groupId : ℕ) (userId : Option ℕ) (now : Instant)
  | resolve (groupId : ℕ) (userId : Option ℕ) (now : Instant)
  | create (data : SilenceData)
  | update (silenceId : ℕ) (data : SilenceData)
  | enable (silenceId : ℕ)
  | disable (silenceId : ℕ)
  | softDelete (silenceId : ℕ)
  | reconcile (rules : Matchers) (silenceId : ℕ) (now : Instant)
  | lifecycle (rules : Matchers) (now : Instant)

def Desk.handle (d : Desk) : SilenceRequest → Desk
  | .event env rules a now => d.intake env.toServices rules a now
  | .acknowledge groupId userId now =>
    { d with store := acknowledgeGroup d.store groupId userId now }
  | .resolve groupId userId now => { d with store := resolveGroup d.store groupId userId now }
  | .create data => d.createSilence data
  | .update silenceId data => d.updateSilence silenceId data
  | .enable silenceId => d.enableSilence silenceId
  | .disable silenceId => d.disableSilence silenceId
  | .softDelete silenceId => d.softDeleteSilence silenceId
  | .reconcile rules silenceId now =>
    match d.silences.get silenceId with
    | none => d
    | some silence => d.reconcileSilence rules silence now
  | .lifecycle rules now => d.processSilenceLifecycle rules now

def Desk.run (requests : List SilenceRequest) : Desk := requests.foldl Desk.handle Desk.empty

/-! ## What the requests keep -/

/-- No group is merged, and those with children are resolved when they are. -/
structure Desk.Sane (d : Desk) : Prop where
  tidy : Tidy (fun _ => True) d.store
  plain : d.Plain

section Sane

variable {d : Desk}

theorem Desk.Sane.same {d' : Desk} (h : d.Sane) (hstore : d'.store = d.store) : d'.Sane := by
  refine ⟨hstore ▸ h.tidy, fun g hg => h.plain g ?_⟩
  rwa [hstore] at hg

theorem editSilence_store (d : Desk) (silenceId : ℕ) (edit : Silence → Silence) :
    (d.editSilence silenceId edit).store = d.store := by
  unfold Desk.editSilence
  split <;> rfl

/-- An event is stored as the intake stores it, with the silences that match. -/
theorem intake_store (d : Desk) (env : Services) (rules : Matchers) (a : Arrival) (now : Instant) :
    (d.intake env rules a now).store = (persistEvent { env with
      isSilenced := fun team data now =>
        !(d.findActiveSilences (some team) (fun s => rules.event s data) now).isEmpty }
      a now d.store).1 := by
  unfold Desk.intake
  dsimp only
  split
  · exact (record_spec _ _ _ _ _).1
  · rfl

/-- The groups that an event leaves are merged where they were. -/
theorem EventSpec.unmerged {env : Services} {s t : Store} {n : ℕ} {created : List ℕ}
    (h : EventSpec env s t n created) (hgrouped : Grouped s)
    (hs : ∀ g ∈ s.groups.rows, g.mergedInto = none) : ∀ g ∈ t.groups.rows, g.mergedInto = none := by
  intro r hr
  by_cases hid : r.id = n
  · obtain ⟨g, hg, rfl, hbefore, hnew, -⟩ := h.group
    rw [IdTable.eq_of_id hr hg hid]
    by_cases hcreated : created = []
    · obtain ⟨a, ha, hgroup⟩ := h.owner hcreated
      obtain ⟨r', hr', hr'_group⟩ := hgrouped a ha
      have hr'_id : r'.id = g.id := Option.some.inj (hr'_group.symm.trans hgroup)
      rw [hbefore r' hr' hr'_id, hs r' hr']
    · exact hnew hcreated
  · exact hs r ((h.others r hid).mp hr)

theorem Steady.sane {d' : Desk} (h : Steady (fun _ => True) d d') (hd : d.Sane) : d'.Sane :=
  ⟨h.tidy, h.plain hd.plain⟩

section Tidy

variable {due : ℕ → Prop}

/-- An event works on one group or leaves the store. -/
theorem intake_cases (h : Tidy due d.store) (env : IntakeServices) (rules : Matchers)
    (a : Arrival) (now : Instant) :
    (d.intake env.toServices rules a now).store = d.store ∨
      ∃ silencing : Services, silencing.RestoresOpen ∧ ∃ n created,
        EventSpec silencing d.store (d.intake env.toServices rules a now).store n created := by
  rw [intake_store]
  have hopen : Services.RestoresOpen { env.toServices with
      isSilenced := fun team data now =>
        !(d.findActiveSilences (some team) (fun s => rules.event s data) now).isEmpty } :=
    env.restoresOpen
  rcases persistEvent_spec _ a now d.store h.grouped with ⟨hsame, -⟩ | ⟨n, hspec⟩
  · exact .inl hsame
  · exact .inr ⟨_, hopen, n, _, hspec⟩

/-- One case for each request but the resolve of a group. -/
theorem handle_tidy (h : Tidy due d.store) {r : SilenceRequest}
    (hr : ∀ groupId userId now, r ≠ .resolve groupId userId now) :
    Tidy due (d.handle r).store := by
  have hedit : ∀ silenceId edit, Tidy due (d.editSilence silenceId edit).store :=
    fun silenceId edit => (editSilence_store d silenceId edit).symm ▸ h
  -- every request but a resolve keeps what is due
  cases r with
  | event env rules a now =>
    rcases intake_cases h env rules a now with hsame | ⟨silencing, hopen, n, created, hspec⟩
    · exact hsame.symm ▸ h
    · exact h.event hopen hspec
  | acknowledge groupId userId now => exact acknowledge_tidy h groupId userId now
  | resolve groupId userId now => exact absurd rfl (hr groupId userId now)
  | create data => exact h
  | update silenceId data => exact hedit silenceId _
  | enable silenceId => exact hedit silenceId _
  | disable silenceId => exact hedit silenceId _
  | softDelete silenceId => exact hedit silenceId _
  | reconcile rules silenceId now =>
    unfold Desk.handle
    dsimp only
    split
    · exact h
    · exact (reconcileSilence_steady rules now h _).tidy
  | lifecycle rules now => exact (lifecycle_steady rules now h).1.tidy

end Tidy

/-- An acknowledgement keeps the statuses plain. -/
theorem acknowledge_plain (h : d.Plain) (groupId : ℕ) (userId : Option ℕ) (now : Instant) :
    Desk.Plain { d with store := acknowledgeGroup d.store groupId userId now } := by
  intro r hr
  change r ∈ (acknowledgeGroup d.store groupId userId now).groups.rows at hr
  unfold acknowledgeGroup at hr
  split at hr
  · exact h r hr
  · rename_i g hg
    split_ifs at hr
    · exact h r hr
    · rcases IdTable.mem_save.mp hr with ⟨hr, -⟩ | ⟨rfl, -⟩
      · exact h r hr
      · exact h g (IdTable.get_eq_some.mp hg).1

/-- A resolve keeps the desk sane. -/
theorem resolve_sane (h : d.Sane) (groupId : ℕ) (userId : Option ℕ) (now : Instant) :
    Desk.Sane { d with store := resolveGroup d.store groupId userId now } := by
  refine ⟨resolveGroup_tidy userId now h.tidy groupId, fun r hr => ?_⟩
  change r ∈ (resolveGroup d.store groupId userId now).groups.rows at hr
  unfold resolveGroup at hr
  split at hr
  · exact h.plain r hr
  · rename_i g hg
    split_ifs at hr
    · exact h.plain r hr
    · rw [resolveAlertGroup_groups] at hr
      rcases IdTable.mem_save.mp hr with ⟨hr, -⟩ | ⟨rfl, -⟩
      · exact h.plain r hr
      · exact h.plain g (IdTable.get_eq_some.mp hg).1

/-- **Every request keeps the desk sane.** -/
theorem handle_sane (h : d.Sane) (r : SilenceRequest) : (d.handle r).Sane := by
  -- each request keeps the store sane, whatever is due in it
  cases r with
  | event env rules a now =>
    refine ⟨handle_tidy h.tidy nofun, fun g hg => ?_⟩
    rcases intake_cases h.tidy env rules a now with hsame | ⟨silencing, -, n, created, hspec⟩
    · exact h.plain g (hsame ▸ hg)
    · exact hspec.unmerged h.tidy.grouped h.plain g hg
  | acknowledge groupId userId now =>
    exact ⟨handle_tidy h.tidy nofun, acknowledge_plain h.plain groupId userId now⟩
  | resolve groupId userId now => exact resolve_sane h groupId userId now
  | create data => exact h.same rfl
  | update silenceId data => exact h.same (editSilence_store d silenceId _)
  | enable silenceId => exact h.same (editSilence_store d silenceId _)
  | disable silenceId => exact h.same (editSilence_store d silenceId _)
  | softDelete silenceId => exact h.same (editSilence_store d silenceId _)
  | reconcile rules silenceId now =>
    unfold Desk.handle
    dsimp only
    split
    · exact h
    · exact (reconcileSilence_steady rules now h.tidy _).sane h
  | lifecycle rules now => exact (lifecycle_steady rules now h.tidy).1.sane h

/-- By induction on the requests. -/
theorem run_sane (requests : List SilenceRequest) : (Desk.run requests).Sane := by
  have hstart : Desk.empty.Sane := ⟨tidy_empty _, fun _ hg => absurd hg List.not_mem_nil⟩
  unfold Desk.run
  generalize Desk.empty = d at hstart
  induction requests generalizing d with
  | nil => exact hstart
  | cons r rest ih => exact ih _ (handle_sane hstart r)

end Sane

/-! ## The contract -/

/-- A silence with the instant of its reconciliation. -/
abbrev Ending := Silence × Instant

/-- What the lifecycle promises of a desk. -/
structure Desk.Contract (d : Desk) : Prop where
  /-- behind a run every silenced alert is held -/
  held : ∀ rules now, (d.processSilenceLifecycle rules now).Held
  /-- a run returns a silenced alert exactly when nothing holds it any more -/
  returned : ∀ rules now, ∀ a ∈ d.store.alerts.rows, a.status = .silenced →
    ∀ b ∈ (d.processSilenceLifecycle rules now).store.alerts.rows, b.id = a.id →
      (b.status ≠ .silenced ↔ ¬(d.processSilenceLifecycle rules now).Holds a.id)
  /-- where nothing held it before, it is firing behind the first step of the run, and no
  active silence matches it -/
  backfilled : ∀ rules now, ∀ b ∈ (d.reconcileOrphanSilencedAlerts rules now).store.alerts.rows,
    ∃ a ∈ d.store.alerts.rows, d.Backfilled rules now a b
  /-- a release returns the silenced alert that nothing else holds, to the status of the
  application, and no other -/
  released : ∀ reason now, ∀ p ∈ d.applications.rows,
    List.Forall₂ (FreedTo d [p] fun _ => p.restoredStatus) d.store.alerts.rows
      (d.releaseApplicationAlert reason now p).1.store.alerts.rows
  /-- silences end in any order, where the applications of a silenced alert agree -/
  reconciled : ∀ rules, ∀ ends ends' : List Ending, ends.Perm ends' →
    (ends.map (·.1.id)).Nodup → (∀ e ∈ ends, Ends e.1 e.2) → d.Agrees →
      SameStatuses (ends.foldl (fun d e => d.reconcileSilence rules e.1 e.2) d).store
        (ends'.foldl (fun d e => d.reconcileSilence rules e.1 e.2) d).store
  /-- and so they do when the scheduler releases them -/
  scheduled : ∀ now, ∀ silences silences' : List Silence, silences.Perm silences' →
    (silences.map (·.id)).Nodup → (∀ s ∈ silences, s.reactivateOnEnd = true) → d.Agrees →
      SameStatuses (silences.foldl (fun d s => d.releaseEnded now s) d).store
        (silences'.foldl (fun d s => d.releaseEnded now s) d).store
  /-- an alert that is resolved stays so in a release, a reconciliation and a run -/
  ended : ∀ n, d.Over n → (∀ silence reason now respect, ∀ xs : List Application,
      (∀ x ∈ xs, x ∈ d.applications.rows) →
        (d.releaseSilenceApplications silence reason now xs respect).Over n) ∧
    (∀ rules silence now, (d.reconcileSilence rules silence now).Over n) ∧
    ∀ rules now, (d.processSilenceLifecycle rules now).Over n

/-- A silenced alert is returned exactly when nothing holds it any more. -/
theorem returned_of_steady {due : ℕ → Prop} {d d' : Desk} (h : Steady due d d') (hheld : d'.Held)
    {a : Alert} (ha : a ∈ d.store.alerts.rows) (hsilenced : a.status = .silenced) {b : Alert}
    (hb : b ∈ d'.store.alerts.rows) (hid : b.id = a.id) :
    b.status ≠ .silenced ↔ ¬d'.Holds a.id := by
  rw [not_iff_not]
  constructor
  · exact fun hs => hid ▸ hheld b hb hs
  · -- the alerts that were silenced are silenced while they are held
    have hquiet : d.Quiet fun n => n = a.id := by
      intro c hc hc_id _
      rw [IdTable.eq_of_id hc ha hc_id, hsilenced]
    exact fun hholds => h.quiet _ hquiet b hb hid (hid ▸ hholds)

/-- **The lifecycle of silences**, behind every sequence of requests. -/
theorem lifecycle_contract (requests : List SilenceRequest) : (Desk.run requests).Contract := by
  have hsane := run_sane requests
  generalize Desk.run requests = d at hsane
  exact
    { held := fun rules now => (lifecycle_steady rules now hsane.tidy).2 hsane.plain
      returned := fun rules now a ha hs b hb hid => by
        obtain ⟨hsteady, hheld⟩ := lifecycle_steady rules now hsane.tidy
        exact returned_of_steady hsteady (hheld hsane.plain) ha hs hb hid
      backfilled := fun rules now =>
        (reconcileOrphans_spec rules now hsane.tidy).2.2
      released := fun reason now p hp =>
        releaseApplicationAlert_statuses reason now (relates_of_mem hp)
      reconciled := fun rules ends ends' hperm hnodup hends hagrees =>
        @ends_ordered Ending _ (fun e => e.1.id) _ _
          (fun e he d => reconcileSilence_releases d rules (hends e he)) hperm hnodup d
          hagrees
      scheduled := fun now silences silences' hperm hnodup hreactivates hagrees => by
        refine ends_ordered (fun s hs d => ?_) hperm hnodup hagrees
        exact releaseSilence_releases d s _ now _ true (by simp [hreactivates s hs])
      ended := fun n hn => by
        refine ⟨fun silence reason now respect xs hxs => ?_, fun rules silence now => ?_,
          fun rules now => ?_⟩
        · exact (releaseSilence_steady reason now hsane.tidy silence xs
            (fun x hx => relates_of_mem (hxs x hx)) respect).ended n hn
        · exact (reconcileSilence_steady rules now hsane.tidy silence).ended n hn
        · exact (lifecycle_steady rules now hsane.tidy).1.ended n hn }

/-! ## Without agreement -/

/-- Silences end in any order, whatever their applications remember. -/
def Desk.AnyOrder (d : Desk) : Prop :=
  ∀ rules, ∀ ends ends' : List Ending, ends.Perm ends' → (ends.map (·.1.id)).Nodup →
    (∀ e ∈ ends, Ends e.1 e.2) →
      SameStatuses (ends.foldl (fun d e => d.reconcileSilence rules e.1 e.2) d).store
        (ends'.foldl (fun d e => d.reconcileSilence rules e.1 e.2) d).store

/-- A run returns an alert only where a silence has held it. -/
def Desk.OnlyReleased (d : Desk) : Prop :=
  ∀ rules now, ∀ a ∈ d.store.alerts.rows, a.status = .silenced →
    ∀ b ∈ (d.processSilenceLifecycle rules now).store.alerts.rows, b.id = a.id →
      b.status ≠ .silenced → d.Holds a.id

/-- Intake without maintenance windows. -/
def plainIntake : IntakeServices where
  toServices := { plainServices with originalStatus := fun _ g => originalStatusForGroup none [] g }
  fallback := fun _ _ => none
  applicationStatuses := fun _ _ => []
  original := fun _ _ => rfl

/-- A webhook event of the route with a status. -/
def webhookArrival (key status : String) : Arrival where
  alertData := [("source", .str "webhook"), ("dedup_key", .str key), ("status", .str status)]
  route := Orchestration.opsRoute
  service := none
  runtime := {}

def matchAll : Matchers where
  event := fun _ _ => true
  alert := fun _ _ => true

/-- A silence of the team of the route over the whole run. -/
def opsSilence (applyToExisting : Bool) : SilenceData where
  team := Orchestration.opsRoute.team.id
  matchers := .obj []
  startsAt := 0
  endsAt := 3600
  applyToExisting
  reactivateOnEnd := true

def diskEvent (status : String) (now : Instant) : SilenceRequest :=
  .event plainIntake matchAll (webhookArrival "disk" status) now

/-- The second silence finds an alert that was acknowledged in between. -/
def heldTwice : List SilenceRequest :=
  [.create (opsSilence false), diskEvent "firing" 60, diskEvent "acknowledged" 120,
    diskEvent "silenced" 180, .create (opsSilence true), .reconcile matchAll 2 240,
    .disable 1, .disable 2]

/-- The silences end in this order. -/
def endIn (d : Desk) (ids : List ℕ) : List Ending :=
  (ids.filterMap d.silences.get).map fun s => (s, 300)

/-- A silenced event under no silence. -/
def neverHeld : List SilenceRequest := [diskEvent "silenced" 60]
/-- **The order of the silences is seen, and an alert is returned that nothing held.** -/
theorem releases_not_free : (¬∀ requests, (Desk.run requests).AnyOrder) ∧
    ¬∀ requests, (Desk.run requests).OnlyReleased := by
  constructor
  · intro h
    have hperm : (endIn (Desk.run heldTwice) [1, 2]).Perm (endIn (Desk.run heldTwice) [2, 1]) :=
      ((List.Perm.swap 2 1 []).filterMap _).map _
    have hsame := h heldTwice matchAll _ _ hperm (by decide +kernel) (by unfold Ends; decide +kernel)
    have hstatus := Rows.map_eq hsame fun hab => hab.2
    revert hstatus
    decide +kernel
  · intro h
    have hreturned : ∃ a ∈ (Desk.run neverHeld).store.alerts.rows, a.status = .silenced ∧
        (∃ b ∈ ((Desk.run neverHeld).processSilenceLifecycle matchAll 120).store.alerts.rows,
          b.id = a.id ∧ b.status ≠ .silenced) ∧ ¬(Desk.run neverHeld).Holds a.id := by
      unfold Desk.Holds
      decide +kernel
    obtain ⟨a, ha, hs, ⟨b, hb, hid, hreturned⟩, hfree⟩ := hreturned
    exact hfree (h neverHeld matchAll 120 a ha hs b hb hid hreturned)

end IncidentRelay.Alerts
