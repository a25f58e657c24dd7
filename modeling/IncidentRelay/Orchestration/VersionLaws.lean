import IncidentRelay.Lib.Run
import IncidentRelay.Orchestration.VersionHistory

/-!
# Runs of the version operations

From a repository without versions every request keeps the versions in order and the
published ones frozen. What a rollback publishes is another matter: `archived` is the status
of a version that was replaced in production and of a draft that was thrown away, and only
the first is something to go back to. In the runs that never roll back to a discarded draft,
a rollback puts the rules of a once published version back into production.
-/

namespace IncidentRelay.Orchestration

/-- A draft that was archived and never published. -/
def EventOrchestrationVersion.Discarded (v : EventOrchestrationVersion) : Prop :=
  v.status = .archived ∧ v.publishedAt = none

namespace Repository

/-! ## The laws -/

/-- No version and no rule yet, and nothing in production. -/
structure Initial (s : Repository) : Prop where
  versions : s.versions.rows = []
  rules : s.rules.rows = []
  active : ∀ o ∈ s.orchestrations.rows, o.activeVersionId = none

/-- One draft and one published version for an orchestration, which points to the published
one, and numbers that grow from version to version. -/
structure InOrder (s : Repository) : Prop where
  draft : ∀ v ∈ s.versions.rows, ∀ w ∈ s.versions.rows, v.orchestration = w.orchestration →
    v.status = .draft → w.status = .draft → v = w
  published : ∀ v ∈ s.versions.rows, ∀ w ∈ s.versions.rows, v.orchestration = w.orchestration →
    v.status = .published → w.status = .published → v = w
  active : ∀ o ∈ s.orchestrations.rows, ∀ id, o.activeVersionId = some id ↔
    ∃ v ∈ s.versions.rows, v.id = id ∧ v.orchestration = o.id ∧ v.status = .published
  number : ∀ v ∈ s.versions.rows, ∀ w ∈ s.versions.rows, v.orchestration = w.orchestration →
    v.id < w.id → v.versionNumber < w.versionNumber

/-- The version to roll back to. -/
def Request.source : Request → Option ℕ
  | .rollbackToVersion _ source _ _ _ => some source
  | _ => none

/-- What a rollback that goes through has published: the rules of a version that was published
before, and not what is left of a discarded draft. -/
structure RollsBack (s t : Repository) (v : EventOrchestrationVersion) (source : ℕ) : Prop where
  mem : v ∈ t.versions.rows
  status : v.status = .published
  rules : ∃ w ∈ s.versions.rows, w.orchestration = v.orchestration ∧ w.publishedAt.isSome ∧
    definitionRules v.definitionJson = definitionRules w.definitionJson ∧
    t.rules.forest v.id = s.rules.forest w.id
  source : ∀ w ∈ s.versions.rows, w.id = source → ¬w.Discarded

/-- The laws of one request. -/
structure Lawful (checks : Validators) (s : Repository) (request : Request) : Prop where
  inOrder : (s.next checks request).InOrder
  frozen : Frozen s (s.next checks request)
  rollback : ∀ source, request.source = some source → ∀ t v,
    s.handle checks request = .ok (t, v) → RollsBack s t v source

/-- The request does not roll back to a discarded draft. -/
def SparesDiscarded (s : Repository) (request : Request) : Prop :=
  ∀ v ∈ s.versions.rows, request.source = some v.id → ¬v.Discarded

instance (v : EventOrchestrationVersion) : Decidable v.Discarded :=
  inferInstanceAs (Decidable (_ ∧ _))

instance (s : Repository) (request : Request) : Decidable (s.SparesDiscarded request) :=
  inferInstanceAs (Decidable (∀ v ∈ s.versions.rows, _ → ¬v.Discarded))

/-! ## One request -/

/-- A new installation has no versions to be at odds. -/
theorem Initial.coherent {s : Repository} (h : s.Initial) : s.Coherent := by
  have hno : ∀ v, v ∉ s.versions.rows := by
    intro v
    rw [h.versions]
    exact List.not_mem_nil
  have hrules : ∀ n, s.rules.Holds n [] := fun n => TreeTable.holds_nil (by simp [h.rules])
  constructor
  case sound => constructor <;> simp [h.rules]
  case held => exact fun n => ⟨[], hrules n⟩
  case fresh => exact fun n _ => hrules n
  case activeRow =>
    intro o ho id hid
    simp [h.active o ho] at hid
  all_goals
    intros
    exact absurd ‹_› (hno _)

/-- What a coherent repository promises to its readers. -/
theorem Coherent.inOrder {s : Repository} (h : s.Coherent) : s.InOrder where
  draft := h.draft
  published v hv w hw heq hp hp' := by
    obtain ⟨o, ho, hid⟩ := h.owned v hv
    have hv' := (h.active o ho v hv hid.symm).mp hp
    have hw' := (h.active o ho w hw (heq.symm.trans hid.symm)).mp hp'
    exact s.versions.eq_of_id hv hw (Option.some.inj (hv'.symm.trans hw'))
  active o ho id := by
    constructor
    · intro hid
      obtain ⟨v, hv, rfl, heq⟩ := h.activeRow o ho id hid
      exact ⟨v, hv, rfl, heq, (h.active o ho v hv heq).mpr hid⟩
    · rintro ⟨v, hv, rfl, heq, hp⟩
      exact (h.active o ho v hv heq).mp hp
  number := h.number

/-- **Every request that is accepted advances the history**, by the kind of the request. -/
theorem handle_ok {s t : Repository} (hs : s.Coherent) {checks : Validators} {request : Request}
    {v : EventOrchestrationVersion} (h : s.handle checks request = .ok (t, v)) : Advanced s t := by
  cases request with
  | getOrCreateDraft o comment => exact (getOrCreateDraft_ok hs h).1
  | replaceDraftRules version rules => exact replaceDraftRules_ok hs h
  | saveDraftDefinition o rules comment => exact saveDraftDefinition_ok hs h
  | archiveDraft version => exact archiveDraft_ok hs h
  | publishDraft o comment confirm now => exact publishDraft_ok hs h
  | rollbackToVersion o source comment confirm now => exact (rollbackToVersion_ok hs h).1

/-- Whether it goes through or not, a request keeps the repository coherent. -/
theorem next_advanced {s : Repository} (hs : s.Coherent) (checks : Validators)
    (request : Request) : Advanced s (s.next checks request) := by
  unfold next
  cases h : s.handle checks request with
  | error e => exact .refl hs
  | ok result => exact handle_ok hs h

/-- The definition that is stored determines the rules. -/
theorem serializeRules_injective : Function.Injective serializeRules := by
  intro trees trees' heq
  have h := readRules_serializeRules 0 trees
  rw [heq, readRules_serializeRules] at h
  exact (Except.ok.inj h).symm

/-- The source of a rollback that is no discarded draft was published. -/
theorem rollsBack_of_not_discarded {s t : Repository} (hs : s.Coherent) {checks : Validators}
    {o source : ℕ} {comment : Option String} {confirm : Bool} {now : ℕ}
    {v : EventOrchestrationVersion}
    (h : s.rollbackToVersion checks o source comment confirm now = .ok (t, v))
    (hsource : ∀ w ∈ s.versions.rows, w.id = source → ¬w.Discarded) : RollsBack s t v source := by
  obtain ⟨hadvanced, hmem, rfl, hstatus, w, hw, rfl, hwo, hdraft, hrules⟩ :=
    rollbackToVersion_ok hs h
  -- what is no draft was published once: it is so still, or it was archived with its date
  have hpublished : w.publishedAt.isSome := by
    cases hwstatus : w.status with
    | draft => exact absurd hwstatus hdraft
    | published => exact hs.published w hw hwstatus
    | archived =>
      rw [Option.isSome_iff_ne_none]
      exact fun hnone => hsource w hw rfl ⟨hwstatus, hnone⟩
  refine ⟨hmem, hstatus, ⟨w, hw, hwo, hpublished, ?_, ?_⟩, hsource⟩
  · rw [hrules, hs.definition w hw hpublished]
  · -- the definition of the new version is that of its rows
    apply serializeRules_injective
    have hv := hadvanced.coherent.published v hmem hstatus
    rw [← hadvanced.coherent.definition v hmem hv, hrules]

/-- **A request is lawful** as soon as it rolls back to no draft that was discarded. -/
theorem lawful {s : Repository} (hs : s.Coherent) {checks : Validators} {request : Request}
    (h : s.SparesDiscarded request) : s.Lawful checks request where
  inOrder := (next_advanced hs checks request).coherent.inOrder
  frozen := (next_advanced hs checks request).frozen
  rollback source hsource t v hok := by
    cases request with
    | rollbackToVersion o src comment confirm now =>
      obtain rfl : src = source := Option.some.inj hsource
      refine rollsBack_of_not_discarded hs hok fun w hw hid => h w hw ?_
      rw [hid]
      rfl
    | _ => cases hsource

/-! ## Runs -/

/-- **Runs that spare the discarded drafts.** Every request of such a run keeps the versions in
order and the published ones frozen, and every rollback publishes the rules of a version that
was published. -/
theorem versions_lawful {checks : Validators} {s : Repository} (h : s.Initial)
    {requests : List Request} (hspare : Along (next checks) SparesDiscarded s requests) :
    s.InOrder ∧ Along (next checks) (Lawful checks) s requests := by
  have hrun : ∀ {s : Repository}, s.Coherent → ∀ {requests : List Request},
      Along (next checks) SparesDiscarded s requests →
        Along (next checks) (Lawful checks) s requests := by
    intro s hs requests hspare
    induction requests generalizing s with
    | nil => trivial
    | cons request requests ih =>
      obtain ⟨hfirst, hrest⟩ := hspare
      exact ⟨lawful hs hfirst, ih (next_advanced hs checks request).coherent hrest⟩
  exact ⟨h.coherent.inOrder, hrun h.coherent hspare⟩

/-! ## Rolling back to a discarded draft -/

/-- Rules without an action and without a condition have nothing to complain about. -/
def noMessages : Validators where
  ruleDefinition _ _ _ := ([], [])
  actionReferences _ _ _ := []

def oneOrchestration : Repository where
  orchestrations := IdTable.empty.insert ⟨1, 1, .global, none, none, false⟩ rfl
  versions := IdTable.empty
  rules := ⟨[], 1⟩
  serviceGroupId _ := none

theorem oneOrchestration_initial : oneOrchestration.Initial where
  versions := rfl
  rules := rfl
  active := by decide

/-- A version with a rule goes into production, is replaced, and comes back. -/
theorem versions_lawful_sample :
    oneOrchestration.InOrder ∧ Along (next noMessages) (Lawful noMessages) oneOrchestration
      [.saveDraftDefinition 1 [.obj []] none, .publishDraft 1 none false 10,
        .saveDraftDefinition 1 [] none, .publishDraft 1 none false 20,
        .rollbackToVersion 1 1 none false 30] :=
  versions_lawful oneOrchestration_initial
    ⟨by decide +kernel, by decide +kernel, by decide +kernel, by decide +kernel,
      by decide +kernel, trivial⟩

/-- The repository after a version with one rule was published and a later draft discarded. -/
def afterDiscard : Repository :=
  [Request.saveDraftDefinition 1 [.obj []] none, .publishDraft 1 none false 10,
    .getOrCreateDraft 1 none, .archiveDraft 2].foldl (next noMessages) oneOrchestration

/-- **The rollback to the discarded draft leaves production without a rule**, and the version
that was published has one. -/
theorem rollback_to_discarded :
    ¬∀ requests, Along (next noMessages) (Lawful noMessages) oneOrchestration requests := by
  intro h
  obtain ⟨-, -, -, -, hlast, -⟩ := h
    [.saveDraftDefinition 1 [.obj []] none, .publishDraft 1 none false 10,
      .getOrCreateDraft 1 none, .archiveDraft 2, .rollbackToVersion 1 2 none false 20]
  have hnext : afterDiscard.Lawful noMessages (.rollbackToVersion 1 2 none false 20) := hlast
  -- what is in production has no rules, every version published before has some
  have hproduction : ∀ v ∈ (afterDiscard.next noMessages (.rollbackToVersion 1 2 none false 20)).versions.rows,
      v.status = .published → definitionRules v.definitionJson = [] := by decide +kernel
  have hhistory : ∀ w ∈ afterDiscard.versions.rows, w.publishedAt.isSome →
      definitionRules w.definitionJson ≠ [] := by decide +kernel
  have hokay : (afterDiscard.handle noMessages (.rollbackToVersion 1 2 none false 20)).isOk = true := by
    decide +kernel
  cases hhandle : afterDiscard.handle noMessages (.rollbackToVersion 1 2 none false 20) with
  | error e =>
    rw [hhandle] at hokay
    cases hokay
  | ok result =>
    obtain ⟨t, v⟩ := result
    obtain ⟨hmem, hstatus, ⟨w, hw, -, hpublished, hrules, -⟩, -⟩ := hnext.rollback 2 rfl t v hhandle
    rw [next, hhandle] at hproduction
    exact hhistory w hw hpublished (hrules.symm.trans (hproduction v hmem hstatus))

end Repository

end IncidentRelay.Orchestration
