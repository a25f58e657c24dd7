import IncidentRelay.Orchestration.Versions

/-!
# The history of the versions

`Coherent` is what every request keeps: one draft, the version in production is the one
published, numbers go up with the ids, and the stored definition of a version that was
published is that of its rule rows. `Frozen` says that those versions keep their rules and
their definition. The rules of all versions share one table, and every version's rules are a
forest of it, so that an edit of a draft leaves the others alone (`Coherent.editRules`).
-/

namespace IncidentRelay.Orchestration

namespace Repository

/-! ## Coherence -/

structure Coherent (s : Repository) : Prop where
  sound : s.rules.Sound
  held : ∀ n, ∃ trees, s.rules.Holds n trees
  fresh : ∀ n, s.versions.next ≤ n → s.rules.Holds n []
  owned : ∀ v ∈ s.versions.rows, ∃ o ∈ s.orchestrations.rows, o.id = v.orchestration
  draft : ∀ v ∈ s.versions.rows, ∀ w ∈ s.versions.rows, v.orchestration = w.orchestration →
    v.status = .draft → w.status = .draft → v = w
  active : ∀ o ∈ s.orchestrations.rows, ∀ v ∈ s.versions.rows, v.orchestration = o.id →
    (v.status = .published ↔ o.activeVersionId = some v.id)
  activeRow : ∀ o ∈ s.orchestrations.rows, ∀ id ∈ o.activeVersionId,
    ∃ v ∈ s.versions.rows, v.id = id ∧ v.orchestration = o.id
  number : ∀ v ∈ s.versions.rows, ∀ w ∈ s.versions.rows, v.orchestration = w.orchestration →
    v.id < w.id → v.versionNumber < w.versionNumber
  unpublished : ∀ v ∈ s.versions.rows, v.status = .draft → v.publishedAt = none
  published : ∀ v ∈ s.versions.rows, v.status = .published → v.publishedAt.isSome
  definition : ∀ v ∈ s.versions.rows, v.publishedAt.isSome →
    definitionRules v.definitionJson = serializeRules (s.rules.forest v.id)

/-- A version that was published keeps its definition, its number and its rules. -/
structure Kept (s t : Repository) (v w : EventOrchestrationVersion) : Prop where
  id : w.id = v.id
  orchestration : w.orchestration = v.orchestration
  versionNumber : w.versionNumber = v.versionNumber
  definitionJson : w.definitionJson = v.definitionJson
  publishedAt : w.publishedAt = v.publishedAt
  rows : t.rules.rowsOf v.id = s.rules.rowsOf v.id
  forest : t.rules.forest v.id = s.rules.forest v.id

def Frozen (s t : Repository) : Prop :=
  ∀ v ∈ s.versions.rows, v.publishedAt.isSome → ∃ w ∈ t.versions.rows, Kept s t v w

theorem Frozen.refl (s : Repository) : Frozen s s := fun v hv _ =>
  ⟨v, hv, rfl, rfl, rfl, rfl, rfl, rfl, rfl⟩

/-- What two requests in a row leave alone stays. -/
theorem Frozen.trans {s t u : Repository} (h : Frozen s t) (h' : Frozen t u) : Frozen s u := by
  intro v hv hpublished
  obtain ⟨w, hw, hk⟩ := h v hv hpublished
  obtain ⟨x, hx, hk'⟩ := h' w hw (hk.publishedAt ▸ hpublished)
  refine ⟨x, hx, hk'.id.trans hk.id, hk'.orchestration.trans hk.orchestration,
    hk'.versionNumber.trans hk.versionNumber, hk'.definitionJson.trans hk.definitionJson,
    hk'.publishedAt.trans hk.publishedAt, ?_, ?_⟩
  · rw [← hk.rows, ← hk.id]
    exact hk'.rows
  · rw [← hk.forest, ← hk.id]
    exact hk'.forest

/-! ## Lookups -/

section Lookups

variable {s : Repository}

/-- What is locked is a row. -/
theorem lockedOrchestration_ok {id : ℕ} {o : EventOrchestration}
    (h : s.lockedOrchestration id = .ok o) : o ∈ s.orchestrations.rows ∧ o.id = id := by
  unfold lockedOrchestration at h
  cases hget : s.orchestrations.get id with
  | none => simp [hget] at h
  | some row =>
    rw [hget] at h
    dsimp only at h
    split_ifs at h
    obtain rfl := Except.ok.inj h
    exact IdTable.get_eq_some.mp hget

theorem getVersion_ok {id : ℕ} {v : EventOrchestrationVersion} (h : s.getVersion id = .ok v) :
    v ∈ s.versions.rows ∧ v.id = id := by
  unfold getVersion at h
  cases hget : s.versions.get id with
  | none => simp [hget] at h
  | some row =>
    rw [hget] at h
    obtain rfl := Except.ok.inj h
    exact IdTable.get_eq_some.mp hget

theorem mem_versionsOf {o : ℕ} {v : EventOrchestrationVersion} :
    v ∈ s.versionsOf o ↔ v ∈ s.versions.rows ∧ v.orchestration = o := by
  simp [versionsOf]

/-- A draft that is found is one. -/
theorem getDraft_some {o : ℕ} {v : EventOrchestrationVersion} (h : s.getDraft o = some v) :
    v ∈ s.versions.rows ∧ v.orchestration = o ∧ v.status = .draft := by
  obtain ⟨hv, hstatus⟩ := List.mem_filter.mp (List.argmax_mem h)
  obtain ⟨hrow, ho⟩ := mem_versionsOf.mp hv
  exact ⟨hrow, ho, by simpa using hstatus⟩

/-- Where none is found there is none. -/
theorem getDraft_none {o : ℕ} (h : s.getDraft o = none) {v : EventOrchestrationVersion}
    (hv : v ∈ s.versions.rows) (ho : v.orchestration = o) : v.status ≠ .draft := by
  intro hstatus
  have hnil := List.argmax_eq_none.mp h
  exact List.eq_nil_iff_forall_not_mem.mp hnil v
    (List.mem_filter.mpr ⟨mem_versionsOf.mpr ⟨hv, ho⟩, by simpa using hstatus⟩)

/-- The next number is above all others. -/
theorem lt_nextVersionNumber {v : EventOrchestrationVersion} (hv : v ∈ s.versions.rows) :
    v.versionNumber < s.nextVersionNumber v.orchestration := by
  have hle : ∀ (numbers : List ℕ), ∀ n ∈ numbers, n ≤ numbers.foldr max 0 := by
    intro numbers n hn
    induction numbers with
    | nil => cases hn
    | cons m numbers ih =>
      rcases List.mem_cons.mp hn with rfl | hn
      · exact le_max_left _ _
      · exact (ih hn).trans (le_max_right _ _)
  exact Nat.lt_succ_of_le (hle _ _ (List.mem_map_of_mem (mem_versionsOf.mpr ⟨hv, rfl⟩)))

end Lookups

/-! ## New drafts -/

theorem mem_createDraft {s : Repository} {o : ℕ} {comment : Option String}
    {v : EventOrchestrationVersion} : v ∈ (s.createDraft o comment).1.versions.rows ↔
      v ∈ s.versions.rows ∨ v = (s.createDraft o comment).2 :=
  @IdTable.mem_insert _ _ s.versions _ rfl v

/-- **Creating a draft** where there is none. -/
theorem Coherent.createDraft {s : Repository} (h : s.Coherent) {o : ℕ}
    (ho : ∃ row ∈ s.orchestrations.rows, row.id = o) (hnone : s.getDraft o = none)
    (comment : Option String) : (s.createDraft o comment).1.Coherent := by
  -- the new version is above all the ids there are
  have hlt : ∀ v ∈ s.versions.rows, v.id < s.versions.next := s.versions.lt
  constructor
  case sound => exact h.sound
  case held => exact h.held
  case fresh => exact fun n hn => h.fresh n (Nat.le_of_succ_le hn)
  case owned =>
    intro v hv
    rcases mem_createDraft.mp hv with hv | rfl
    · exact h.owned v hv
    · exact ho
  -- there was no draft, so the new version is the only one
  case draft =>
    intro v hv w hw heq hd hd'
    rcases mem_createDraft.mp hv with hv | rfl <;> rcases mem_createDraft.mp hw with hw | rfl
    · exact h.draft v hv w hw heq hd hd'
    · exact absurd hd (getDraft_none hnone hv heq)
    · exact absurd hd' (getDraft_none hnone hw heq.symm)
    · rfl
  case active =>
    intro row hrow v hv heq
    rcases mem_createDraft.mp hv with hv | rfl
    · exact h.active row hrow v hv heq
    · -- the new id is not in production yet
      refine iff_of_false (by simp [Repository.createDraft]) fun hactive => ?_
      obtain ⟨w, hw, hid, -⟩ := h.activeRow row hrow _ hactive
      exact absurd (hlt w hw) (by rw [hid]; exact lt_irrefl _)
  case activeRow =>
    intro row hrow id hid
    obtain ⟨v, hv, hv'⟩ := h.activeRow row hrow id hid
    exact ⟨v, mem_createDraft.mpr (.inl hv), hv'⟩
  -- its number is above all numbers of the orchestration
  case number =>
    intro v hv w hw heq hid
    rcases mem_createDraft.mp hv with hv | rfl <;> rcases mem_createDraft.mp hw with hw | rfl
    · exact h.number v hv w hw heq hid
    · have := lt_nextVersionNumber hv
      rw [heq] at this
      exact this
    · exact absurd (hlt w hw) (not_lt_of_gt hid)
    · exact absurd hid (lt_irrefl _)
  case unpublished =>
    intro v hv hd
    rcases mem_createDraft.mp hv with hv | rfl
    · exact h.unpublished v hv hd
    · rfl
  -- it was never published
  case published =>
    intro v hv hp
    rcases mem_createDraft.mp hv with hv | rfl
    · exact h.published v hv hp
    · cases hp
  case definition =>
    intro v hv hp
    rcases mem_createDraft.mp hv with hv | rfl
    · exact h.definition v hv hp
    · cases hp

theorem frozen_createDraft (s : Repository) (o : ℕ) (comment : Option String) :
    Frozen s (s.createDraft o comment).1 := fun v hv _ =>
  ⟨v, mem_createDraft.mpr (.inl hv), rfl, rfl, rfl, rfl, rfl, rfl, rfl⟩

/-! ## Rules of a draft -/

/-- What may be done to the rules of one version. -/
structure EditedRules (version : ℕ) (rules rules' : TreeTable ℕ RuleColumns) : Prop where
  sound : rules'.Sound
  edited : ∃ trees, rules'.Holds version trees
  others : ∀ n, n ≠ version → ∀ trees, rules.Holds n trees → rules'.Holds n trees
  rows : ∀ n, n ≠ version → rules'.rowsOf n = rules.rowsOf n

/-- Clearing the rules of a version is editing them. -/
theorem editedRules_clear {rules : TreeTable ℕ RuleColumns} (h : rules.Sound) (version : ℕ) :
    EditedRules version rules (rules.clear version) where
  sound := h.clear version
  edited := ⟨[], TreeTable.holds_clear rules version⟩
  others _ hne _ hheld := hheld.clear_of_ne hne.symm
  rows _ hne := TreeTable.rowsOf_clear_of_ne hne.symm

theorem editedRules_create {rules : TreeTable ℕ RuleColumns} (h : rules.Sound) {version : ℕ}
    (hnil : rules.Holds version []) (trees : List (Rose RuleColumns)) :
    EditedRules version rules (rules.create version trees) where
  sound := h.create version trees
  edited := ⟨trees, hnil.create h trees⟩
  others _ hne _ hheld := hheld.create_of_ne hne.symm trees
  rows _ hne := TreeTable.rowsOf_create_of_ne hne.symm trees

section EditRules

variable {s : Repository} {version : ℕ} {rules : TreeTable ℕ RuleColumns}

/-- The other versions read the same rules. -/
theorem EditedRules.forest_eq (hedit : EditedRules version s.rules rules) (h : s.Coherent) {n : ℕ}
    (hne : n ≠ version) : rules.forest n = s.rules.forest n := by
  obtain ⟨trees, hheld⟩ := h.held n
  rw [hheld.forest_eq, (hedit.others n hne trees hheld).forest_eq]

/-- A draft is no version that was published. -/
theorem Coherent.ne_of_published (h : s.Coherent)
    (hdraft : ∃ v ∈ s.versions.rows, v.id = version ∧ v.status = .draft)
    {v : EventOrchestrationVersion} (hv : v ∈ s.versions.rows) (hp : v.publishedAt.isSome) :
    v.id ≠ version := by
  rintro hid
  obtain ⟨d, hd, hdid, hstatus⟩ := hdraft
  obtain rfl := s.versions.eq_of_id hd hv (hdid.trans hid.symm)
  rw [h.unpublished d hd hstatus] at hp
  cases hp

/-- Editing the rules of a draft leaves the history. -/
theorem Coherent.editRules (h : s.Coherent)
    (hdraft : ∃ v ∈ s.versions.rows, v.id = version ∧ v.status = .draft)
    (hedit : EditedRules version s.rules rules) :
    ({ s with rules := rules } : Repository).Coherent ∧ Frozen s { s with rules := rules } := by
  -- the rules of published versions are not edited
  have hforest : ∀ v ∈ s.versions.rows, v.publishedAt.isSome →
      rules.forest v.id = s.rules.forest v.id := fun v hv hp =>
    hedit.forest_eq h (h.ne_of_published hdraft hv hp)
  have hnext : version < s.versions.next := by
    obtain ⟨d, hd, rfl, -⟩ := hdraft
    exact s.versions.lt d hd
  refine ⟨{ h with
    sound := hedit.sound
    held := ?_
    fresh := ?_
    definition := ?_ }, ?_⟩
  -- the version that is edited holds what it was given
  · intro n
    by_cases hn : n = version
    · exact hn ▸ hedit.edited
    · obtain ⟨trees, hheld⟩ := h.held n
      exact ⟨trees, hedit.others n hn trees hheld⟩
  · intro n hn
    exact hedit.others n (hnext.trans_le hn).ne' [] (h.fresh n hn)
  · intro v hv hp
    exact (h.definition v hv hp).trans (congrArg serializeRules (hforest v hv hp).symm)
  · intro v hv hp
    exact ⟨v, hv, rfl, rfl, rfl, rfl, rfl, hedit.rows v.id (h.ne_of_published hdraft hv hp),
      hforest v hv hp⟩

end EditRules

/-! ## Statements on the versions -/

/-- What a statement does to the rows of the versions and the orchestrations, row by row. -/
structure Rewrites (s t : Repository) (f : EventOrchestrationVersion → EventOrchestrationVersion)
    (g : EventOrchestration → EventOrchestration) : Prop where
  versions : t.versions.rows = s.versions.rows.map f
  next : t.versions.next = s.versions.next
  orchestrations : t.orchestrations.rows = s.orchestrations.rows.map g
  rules : t.rules = s.rules
  id : ∀ v, (f v).id = v.id
  orchestration : ∀ v, (f v).orchestration = v.orchestration
  versionNumber : ∀ v, (f v).versionNumber = v.versionNumber
  orchestrationId : ∀ o, (g o).id = o.id

section RowByRow

variable {s t : Repository} {f : EventOrchestrationVersion → EventOrchestrationVersion}
  {g : EventOrchestration → EventOrchestration}

/-- A rewrite keeps the coherence when it makes no new draft and no stale definition, and
production stays what the orchestrations point to. -/
theorem Coherent.rewrite (h : s.Coherent) (hf : Rewrites s t f g)
    (hdraft : ∀ v ∈ s.versions.rows, (f v).status = .draft →
      v.status = .draft ∧ (f v).publishedAt = v.publishedAt)
    (hpublished : ∀ v ∈ s.versions.rows, (f v).status = .published → (f v).publishedAt.isSome)
    (hdefinition : ∀ v ∈ s.versions.rows, (f v).publishedAt.isSome →
      definitionRules (f v).definitionJson = serializeRules (s.rules.forest v.id))
    (hactive : ∀ o ∈ s.orchestrations.rows, ∀ v ∈ s.versions.rows, v.orchestration = o.id →
      ((f v).status = .published ↔ (g o).activeVersionId = some v.id))
    (hrow : ∀ o ∈ s.orchestrations.rows, ∀ id ∈ (g o).activeVersionId,
      ∃ v ∈ s.versions.rows, v.id = id ∧ v.orchestration = o.id) : t.Coherent := by
  -- the rows behind the rewrite are those of before, rewritten
  have hv : ∀ {v}, v ∈ t.versions.rows → ∃ v₀ ∈ s.versions.rows, f v₀ = v := by
    intro v hv
    rw [hf.versions] at hv
    exact List.mem_map.mp hv
  have ho : ∀ {o}, o ∈ t.orchestrations.rows → ∃ o₀ ∈ s.orchestrations.rows, g o₀ = o := by
    intro o ho
    rw [hf.orchestrations] at ho
    exact List.mem_map.mp ho
  have hmem : ∀ {v}, v ∈ s.versions.rows → f v ∈ t.versions.rows := by
    intro v hv
    rw [hf.versions]
    exact List.mem_map_of_mem hv
  constructor
  case sound => exact hf.rules ▸ h.sound
  case held => exact hf.rules ▸ h.held
  case fresh =>
    rw [hf.rules, hf.next]
    exact h.fresh
  -- ids and the orchestration of a version are not rewritten
  case owned =>
    intro v hvt
    obtain ⟨v, hvs, rfl⟩ := hv hvt
    obtain ⟨o, hos, heq⟩ := h.owned v hvs
    refine ⟨g o, ?_, ?_⟩
    · rw [hf.orchestrations]
      exact List.mem_map_of_mem hos
    · rw [hf.orchestrationId, hf.orchestration, heq]
  case draft =>
    intro v hvt w hwt heq hd hd'
    obtain ⟨v, hvs, rfl⟩ := hv hvt
    obtain ⟨w, hws, rfl⟩ := hv hwt
    rw [hf.orchestration, hf.orchestration] at heq
    rw [h.draft v hvs w hws heq (hdraft v hvs hd).1 (hdraft w hws hd').1]
  -- who is in production is rewritten together with the status of the version
  case active =>
    intro o hot v hvt heq
    obtain ⟨o, hos, rfl⟩ := ho hot
    obtain ⟨v, hvs, rfl⟩ := hv hvt
    rw [hf.orchestration, hf.orchestrationId] at heq
    rw [hf.id]
    exact hactive o hos v hvs heq
  case activeRow =>
    intro o hot id hid
    obtain ⟨o, hos, rfl⟩ := ho hot
    obtain ⟨v, hvs, rfl, heq⟩ := hrow o hos id hid
    exact ⟨f v, hmem hvs, hf.id v, by rw [hf.orchestration, hf.orchestrationId, heq]⟩
  case number =>
    intro v hvt w hwt heq hid
    obtain ⟨v, hvs, rfl⟩ := hv hvt
    obtain ⟨w, hws, rfl⟩ := hv hwt
    rw [hf.orchestration, hf.orchestration] at heq
    rw [hf.id, hf.id] at hid
    rw [hf.versionNumber, hf.versionNumber]
    exact h.number v hvs w hws heq hid
  -- a draft was a draft before, so it was never published
  case unpublished =>
    intro v hvt hd
    obtain ⟨v, hvs, rfl⟩ := hv hvt
    obtain ⟨hd', heq⟩ := hdraft v hvs hd
    exact heq.trans (h.unpublished v hvs hd')
  case published =>
    intro v hvt hp
    obtain ⟨v, hvs, rfl⟩ := hv hvt
    exact hpublished v hvs hp
  -- the definition of what was published stays that of its rules
  case definition =>
    intro v hvt hp
    obtain ⟨v, hvs, rfl⟩ := hv hvt
    rw [hf.rules, hf.id]
    exact hdefinition v hvs hp

/-- A rewrite that spares published versions. -/
theorem Rewrites.frozen (hf : Rewrites s t f g)
    (hkept : ∀ v ∈ s.versions.rows, v.publishedAt.isSome →
      (f v).definitionJson = v.definitionJson ∧ (f v).publishedAt = v.publishedAt) :
    Frozen s t := by
  intro v hv hp
  obtain ⟨hdefinition, hpublished⟩ := hkept v hv hp
  refine ⟨f v, ?_, hf.id v, hf.orchestration v, hf.versionNumber v, hdefinition, hpublished, ?_, ?_⟩
  · rw [hf.versions]
    exact List.mem_map_of_mem hv
  · rw [hf.rules]
  · rw [hf.rules]

end RowByRow

section Statements

variable {s : Repository}

/-- A comment is no history. -/
theorem Coherent.setComment (h : s.Coherent) (version : ℕ) (comment : String) :
    (s.setComment version comment).Coherent ∧ Frozen s (s.setComment version comment) := by
  have hf : Rewrites s (s.setComment version comment)
      (fun v => if v.id = version then { v with comment := comment } else v) id := by
    constructor <;> intros <;> first | rfl | (split_ifs <;> rfl) | skip
    · simp [Repository.setComment, IdTable.update, Table.update]
    · exact (List.map_id _).symm
  -- a comment is not a status, a definition or a time
  have hstatus : ∀ v : EventOrchestrationVersion,
      (if v.id = version then { v with comment := some comment } else v).status = v.status ∧
      (if v.id = version then { v with comment := some comment } else v).publishedAt =
        v.publishedAt ∧
      (if v.id = version then { v with comment := some comment } else v).definitionJson =
        v.definitionJson := by
    intro v
    split_ifs <;> exact ⟨rfl, rfl, rfl⟩
  refine ⟨h.rewrite hf ?_ ?_ ?_ ?_ h.activeRow, hf.frozen fun v _ _ => ?_⟩
  · exact fun v hv hd => ⟨(hstatus v).1 ▸ hd, (hstatus v).2.1⟩
  · intro v hv hp
    rw [(hstatus v).2.1]
    exact h.published v hv ((hstatus v).1 ▸ hp)
  · intro v hv hp
    rw [(hstatus v).2.2]
    exact h.definition v hv ((hstatus v).2.1 ▸ hp)
  · intro o ho v hv heq
    rw [(hstatus v).1]
    exact h.active o ho v hv heq
  · exact ⟨(hstatus v).2.2, (hstatus v).2.1⟩

/-- A draft is discarded with its rules. -/
theorem Coherent.discard (h : s.Coherent) {d : EventOrchestrationVersion}
    (hd : d ∈ s.versions.rows) (hstatus : d.status = .draft) :
    (s.discard d.id).Coherent ∧ Frozen s (s.discard d.id) := by
  have hdraft : ∃ v ∈ s.versions.rows, v.id = d.id ∧ v.status = .draft := ⟨d, hd, rfl, hstatus⟩
  obtain ⟨hclear, hfrozen⟩ := h.editRules hdraft (editedRules_clear h.sound d.id)
  have hf : Rewrites { s with rules := s.rules.clear d.id } (s.discard d.id)
      (fun v => if v.id = d.id ∧ v.status = .draft then { v with status := .archived } else v)
      id := by
    constructor <;> intros <;> first | rfl | (split_ifs <;> rfl) | skip
    · simp [Repository.discard, IdTable.update, Table.update]
    · exact (List.map_id _).symm
  refine ⟨hclear.rewrite hf ?_ ?_ ?_ ?_ hclear.activeRow,
    hfrozen.trans (hf.frozen fun v hv hp => ?_)⟩
  -- a version that is archived is no draft
  · intro v hv hd'
    split_ifs at hd' ⊢ with hv'
    exact ⟨hd', rfl⟩
  -- and a draft was never published
  · intro v hv hp
    split_ifs at hp ⊢ with hv'
    exact hclear.published v hv hp
  · intro v hv hp
    split_ifs at hp ⊢ with hv'
    · exact hclear.definition v hv hp
    · exact hclear.definition v hv hp
  · intro o ho v hv heq
    split_ifs with hv'
    · -- a draft is not in production
      refine iff_of_false (by simp) fun hactive => ?_
      have := (hclear.active o ho v hv heq).mpr hactive
      rw [hv'.2] at this
      cases this
    · exact hclear.active o ho v hv heq
  · split_ifs <;> exact ⟨rfl, rfl⟩

/-- What a publication does to a version. -/
def activated (o d : ℕ) (definition : Dict) (comment : Option String) (now : ℕ)
    (v : EventOrchestrationVersion) : EventOrchestrationVersion :=
  if v.id = d ∧ v.status = .draft then
    { v with
      status := .published
      definitionJson := definition
      publishedAt := some now
      comment := comment.or v.comment }
  else if v.orchestration = o ∧ v.status = .published ∧ v.id ≠ d then { v with status := .archived }
  else v

/-- **Activating a draft** publishes it, archives the active version and points to the new one.
-/
theorem rewrites_activate (s : Repository) (o : EventOrchestration) (d : ℕ)
    (comment : Option String) (now : ℕ) :
    Rewrites s (s.activate o d comment now) (activated o.id d (s.exportVersion o d) comment now)
      (fun row => if row.id = o.id then { row with activeVersionId := some d } else row) where
  versions := by
    show Table.update _ _ (Table.update _ _ s.versions.rows) = _
    unfold Table.update
    rw [List.map_map]
    apply List.map_congr_left
    intro v _
    unfold activated
    -- the draft is published, and what was published is archived
    by_cases hd : v.id = d ∧ v.status = .draft
    · obtain ⟨hid, hstatus⟩ := hd
      simp [hid, hstatus]
    · by_cases ha : v.orchestration = o.id ∧ v.status = .published ∧ v.id ≠ d
      · obtain ⟨ho, hp, hne⟩ := ha
        simp [ho, hp, hne]
      · rw [if_neg hd, if_neg ha]
        have ha' : (decide (v.orchestration = o.id) && decide (v.status = .published) &&
            decide (v.id ≠ d)) = false := by
          simpa [and_assoc] using ha
        have hd' : (decide (v.id = d) && decide (v.status = .draft)) = false := by
          simpa using hd
        simp only [Function.comp_apply, ha', Bool.false_eq_true, if_false, hd']
  next := rfl
  orchestrations := by
    show Table.update _ _ s.orchestrations.rows = _
    simp [Table.update]
  rules := rfl
  id v := by
    unfold activated
    split_ifs <;> rfl
  orchestration v := by
    unfold activated
    split_ifs <;> rfl
  versionNumber v := by
    unfold activated
    split_ifs <;> rfl
  orchestrationId o := by split_ifs <;> rfl

/-- **A draft that is published takes the place of the version in production.** -/
theorem Coherent.activate (h : s.Coherent) {o : EventOrchestration}
    {d : EventOrchestrationVersion} (hd : d ∈ s.versions.rows) (hdo : d.orchestration = o.id) (hstatus : d.status = .draft) (comment : Option String)
    (now : ℕ) :
    (s.activate o d.id comment now).Coherent ∧ Frozen s (s.activate o d.id comment now) := by
  have hf := rewrites_activate s o d.id comment now
  -- the draft is the only version with its id
  have honly : ∀ v ∈ s.versions.rows, v.id = d.id → v = d := fun v hv => s.versions.eq_of_id hv hd
  refine ⟨h.rewrite hf ?_ ?_ ?_ ?_ ?_, hf.frozen fun v hv hp => ?_⟩
  · intro v hv hd'
    unfold activated at hd' ⊢
    split_ifs at hd' ⊢
    exact ⟨hd', rfl⟩
  · intro v hv hp
    unfold activated at hp ⊢
    split_ifs at hp ⊢
    · rfl
    · exact h.published v hv hp
  · intro v hv hp
    unfold activated at hp ⊢
    split_ifs at hp ⊢ with hdraft
    · rw [hdraft.1]
      rfl
    · exact h.definition v hv hp
    · exact h.definition v hv hp
  · intro row hrow v hv heq
    unfold activated
    by_cases hid : row.id = o.id
    · rw [if_pos hid]
      show _ ↔ some d.id = some v.id
      split_ifs with hdraft hold
      · exact iff_of_true rfl (congrArg some hdraft.1.symm)
      · exact iff_of_false (by simp) fun hsome => hold.2.2 (Option.some.inj hsome).symm
      · refine iff_of_false (fun hp => hold ⟨heq.trans hid, hp, fun hvd => ?_⟩) fun hsome => ?_
        · rw [honly v hv hvd, hstatus] at hp
          cases hp
        · have hvd := (Option.some.inj hsome).symm
          exact hdraft ⟨hvd, by rw [honly v hv hvd, hstatus]⟩
    · rw [if_neg hid]
      -- another orchestration: neither the draft nor what it replaces is its own
      have hne : v.orchestration ≠ o.id := fun hv' => hid (heq.symm.trans hv')
      split_ifs with hdraft hold
      · exact absurd (by rw [honly v hv hdraft.1, hdo]) hne
      · exact absurd hold.1 hne
      · exact h.active row hrow v hv heq
  · intro row hrow id hactive
    split_ifs at hactive with hid
    · obtain rfl : d.id = id := by simpa using hactive
      exact ⟨d, hd, rfl, hdo.trans hid.symm⟩
    · exact h.activeRow row hrow id hactive
  · unfold activated
    split_ifs with hdraft
    · rw [h.unpublished v hv hdraft.2] at hp
      cases hp
    · exact ⟨rfl, rfl⟩
    · exact ⟨rfl, rfl⟩

end Statements

/-! ## Requests -/

section Requests

variable {s t : Repository}

/-- The new state, when it is coherent and no published version has changed. -/
structure Advanced (s t : Repository) : Prop where
  coherent : t.Coherent
  frozen : Frozen s t

theorem Advanced.refl (h : s.Coherent) : Advanced s s := ⟨h, Frozen.refl s⟩

theorem Advanced.trans {u : Repository} (h : Advanced s t) (h' : Advanced t u) : Advanced s u :=
  ⟨h'.coherent, h.frozen.trans h'.frozen⟩

theorem assertDraft_ok {v : EventOrchestrationVersion} {u : Unit} (h : assertDraft v = .ok u) :
    v.status = .draft := by
  simpa [assertDraft] using h

/-- A rule tree is created for a draft that has no rules. -/
theorem createRuleTree_ok (hs : s.Coherent) {version : ℕ} {rules : List Json}
    (hdraft : ∃ v ∈ s.versions.rows, v.id = version ∧ v.status = .draft)
    (hnil : s.rules.Holds version []) (h : s.createRuleTree version rules = .ok t) :
    Advanced s t ∧ t.versions = s.versions ∧
      ∃ trees, readRules 0 rules = .ok trees ∧ t.rules = s.rules.create version trees := by
  obtain ⟨trees, htrees, h⟩ := bind_eq_ok.mp h
  obtain rfl := Except.ok.inj h
  obtain ⟨hc, hf⟩ := hs.editRules hdraft (editedRules_create hs.sound hnil trees)
  exact ⟨⟨hc, hf⟩, rfl, trees, htrees, rfl⟩

/-- **A clone has the rules of its source.** The definition of the source is read back as its
rule tree. -/
theorem cloneVersionRules_ok (hs : s.Coherent) {source : EventOrchestrationVersion}
    {o : EventOrchestration} {version : ℕ}
    (hdraft : ∃ v ∈ s.versions.rows, v.id = version ∧ v.status = .draft)
    (hnil : s.rules.Holds version []) (h : s.cloneVersionRules source o version = .ok t) :
    Advanced s t ∧ t.versions = s.versions ∧
      t.rules.forest version = s.rules.forest source.id := by
  obtain ⟨hadvanced, hversions, trees, htrees, hrules⟩ := createRuleTree_ok hs hdraft hnil h
  have heq : trees = s.rules.forest source.id := by
    have hdefinition : definitionRules (s.exportVersion o source.id) =
        serializeRules (s.rules.forest source.id) := rfl
    rw [hdefinition, readRules_serializeRules] at htrees
    exact (Except.ok.inj htrees).symm
  refine ⟨hadvanced, hversions, ?_⟩
  rw [hrules, (hnil.create hs.sound trees).forest_eq, heq]

/-- A draft is found or created. -/
theorem getOrCreateDraft_ok (hs : s.Coherent) {o : ℕ} {comment : Option String}
    {d : EventOrchestrationVersion} (h : s.getOrCreateDraft o comment = .ok (t, d)) :
    Advanced s t ∧ d ∈ t.versions.rows ∧ d.status = .draft := by
  obtain ⟨row, hrow, h⟩ := bind_eq_ok.mp h
  obtain ⟨hrowmem, hrowid⟩ := lockedOrchestration_ok hrow
  -- the draft that is there is returned
  cases hdraft : s.getDraft o with
  | some draft =>
    rw [hdraft] at h
    obtain ⟨rfl, rfl⟩ := Prod.mk.inj (Except.ok.inj h)
    obtain ⟨hmem, -, hstatus⟩ := getDraft_some hdraft
    exact ⟨.refl hs, hmem, hstatus⟩
  -- else one is created, and the rules of the active version are cloned into it
  | none =>
    rw [hdraft] at h
    have hcreated : Advanced s (s.createDraft o comment).1 :=
      ⟨hs.createDraft ⟨row, hrowmem, hrowid⟩ hdraft comment, frozen_createDraft s o comment⟩
    have hmem : (s.createDraft o comment).2 ∈ (s.createDraft o comment).1.versions.rows :=
      mem_createDraft.mpr (.inr rfl)
    cases hactive : row.activeVersionId with
    | none =>
      simp only [hactive] at h
      obtain ⟨rfl, rfl⟩ := Prod.mk.inj (Except.ok.inj h)
      exact ⟨hcreated, hmem, rfl⟩
    | some id =>
      simp only [hactive] at h
      obtain ⟨active, _, h⟩ := bind_eq_ok.mp h
      obtain ⟨_, _, h⟩ := bind_eq_ok.mp h
      obtain ⟨s', hclone, h⟩ := bind_eq_ok.mp h
      obtain ⟨rfl, rfl⟩ := Prod.mk.inj (Except.ok.inj h)
      obtain ⟨hadvanced, hversions, -⟩ := cloneVersionRules_ok hcreated.coherent
        ⟨_, hmem, rfl, rfl⟩ (hs.fresh _ le_rfl) hclone
      exact ⟨hcreated.trans hadvanced, hversions ▸ hmem, rfl⟩

/-- Its rules are replaced. -/
theorem replaceDraftRules_ok (hs : s.Coherent) {version : ℕ} {rules : List Json}
    {d : EventOrchestrationVersion} (h : s.replaceDraftRules version rules = .ok (t, d)) :
    Advanced s t := by
  obtain ⟨v, hv, h⟩ := bind_eq_ok.mp h
  obtain ⟨hmem, hid⟩ := getVersion_ok hv
  obtain ⟨_, hstatus, h⟩ := bind_eq_ok.mp h
  obtain ⟨s', htree, h⟩ := bind_eq_ok.mp h
  obtain ⟨rfl, rfl⟩ := Prod.mk.inj (Except.ok.inj h)
  have hdraft : ∃ v ∈ s.versions.rows, v.id = version ∧ v.status = .draft :=
    ⟨v, hmem, hid, assertDraft_ok hstatus⟩
  obtain ⟨hc, hf⟩ := hs.editRules hdraft (editedRules_clear hs.sound version)
  exact Advanced.trans ⟨hc, hf⟩
    (createRuleTree_ok hc hdraft (TreeTable.holds_clear s.rules version) htree).1

/-- Saving a definition is getting the draft, replacing its rules and setting its comment. -/
theorem saveDraftDefinition_ok (hs : s.Coherent) {o : ℕ} {rules : List Json}
    {comment : Option String} {d : EventOrchestrationVersion}
    (h : s.saveDraftDefinition o rules comment = .ok (t, d)) : Advanced s t := by
  obtain ⟨⟨s', d'⟩, hdraft, h⟩ := bind_eq_ok.mp h
  obtain ⟨hcreated, -, -⟩ := getOrCreateDraft_ok hs hdraft
  obtain ⟨⟨s'', d''⟩, hrules, h⟩ := bind_eq_ok.mp h
  have hreplaced := replaceDraftRules_ok hcreated.coherent hrules
  cases comment with
  | none =>
    obtain ⟨rfl, rfl⟩ := Prod.mk.inj (Except.ok.inj h)
    exact hcreated.trans hreplaced
  | some text =>
    dsimp only at h
    obtain ⟨_, _, h⟩ := bind_eq_ok.mp h
    obtain ⟨rfl, rfl⟩ := Prod.mk.inj (Except.ok.inj h)
    obtain ⟨hc, hf⟩ := hreplaced.coherent.setComment d''.id text
    exact (hcreated.trans hreplaced).trans ⟨hc, hf⟩

/-- A draft may be archived: it was never published, so nothing that is frozen changes. -/
theorem archiveDraft_ok (hs : s.Coherent) {version : ℕ} {d : EventOrchestrationVersion}
    (h : s.archiveDraft version = .ok (t, d)) : Advanced s t := by
  obtain ⟨v, hv, h⟩ := bind_eq_ok.mp h
  obtain ⟨hmem, rfl⟩ := getVersion_ok hv
  obtain ⟨_, hstatus, h⟩ := bind_eq_ok.mp h
  dsimp only at h
  obtain ⟨_, _, h⟩ := bind_eq_ok.mp h
  obtain ⟨rfl, rfl⟩ := Prod.mk.inj (Except.ok.inj h)
  obtain ⟨hc, hf⟩ := hs.discard hmem (assertDraft_ok hstatus)
  exact ⟨hc, hf⟩

/-- A publication puts the draft into production with the rules it has. -/
structure Publishes (s t : Repository) (o d : ℕ) (v : EventOrchestrationVersion) : Prop where
  mem : v ∈ t.versions.rows
  orchestration : v.orchestration = o
  status : v.status = .published
  rules : definitionRules v.definitionJson = serializeRules (s.rules.forest d)

/-- **Publishing** archives what was published before and activates the draft, whose definition
is the one exported now. -/
theorem publishVersionLocked_ok (hs : s.Coherent) {checks : Validators} {o : EventOrchestration}
    {d : EventOrchestrationVersion} (hd : d ∈ s.versions.rows)
    {comment : Option String} {confirm : Bool} {now : ℕ} {v : EventOrchestrationVersion}
    (h : s.publishVersionLocked checks o d comment confirm now = .ok (t, v)) :
    Advanced s t ∧ Publishes s t o.id d.id v := by
  obtain ⟨_, hdo, h⟩ := bind_eq_ok.mp h
  have hdo : d.orchestration = o.id := by simpa using hdo
  obtain ⟨_, hstatus, h⟩ := bind_eq_ok.mp h
  have hstatus := assertDraft_ok hstatus
  dsimp only at h
  obtain ⟨_, _, h⟩ := bind_eq_ok.mp h
  obtain ⟨_, _, h⟩ := bind_eq_ok.mp h
  obtain ⟨_, _, h⟩ := bind_eq_ok.mp h
  obtain ⟨v', hv, h⟩ := bind_eq_ok.mp h
  obtain ⟨rfl, rfl⟩ := Prod.mk.inj (Except.ok.inj h)
  obtain ⟨hc, hf⟩ := hs.activate hd hdo hstatus comment now
  obtain ⟨hmem, hid⟩ := getVersion_ok hv
  -- the row under the id of the draft is the rewritten draft
  have hrow : v' = activated o.id d.id (s.exportVersion o d.id) comment now d := by
    refine (s.activate o d.id comment now).versions.eq_of_id hmem ?_ ?_
    · rw [(rewrites_activate s o d.id comment now).versions]
      exact List.mem_map_of_mem hd
    · rw [hid, (rewrites_activate s o d.id comment now).id]
  have hactivated : activated o.id d.id (s.exportVersion o d.id) comment now d =
      { d with
        status := .published
        definitionJson := s.exportVersion o d.id
        publishedAt := some now
        comment := comment.or d.comment } := if_pos ⟨rfl, hstatus⟩
  refine ⟨⟨hc, hf⟩, hmem, ?_, ?_, ?_⟩
  · rw [hrow, hactivated]
    exact hdo
  · rw [hrow, hactivated]
  · rw [hrow, hactivated]
    rfl

/-- Publishing the draft by its id is publishing it under the lock. -/
theorem publishDraft_ok (hs : s.Coherent) {checks : Validators} {o : ℕ} {comment : Option String}
    {confirm : Bool} {now : ℕ} {v : EventOrchestrationVersion}
    (h : s.publishDraft checks o comment confirm now = .ok (t, v)) : Advanced s t := by
  obtain ⟨row, hrow, h⟩ := bind_eq_ok.mp h
  cases hdraft : s.getDraft o with
  | none =>
    rw [hdraft] at h
    cases h
  | some d =>
    rw [hdraft] at h
    exact (publishVersionLocked_ok hs (getDraft_some hdraft).1 h).1

/-- A rollback puts the rules of its source into production. -/
theorem rollbackToVersion_ok (hs : s.Coherent) {checks : Validators} {o source : ℕ}
    {comment : Option String} {confirm : Bool} {now : ℕ} {v : EventOrchestrationVersion}
    (h : s.rollbackToVersion checks o source comment confirm now = .ok (t, v)) :
    Advanced s t ∧ v ∈ t.versions.rows ∧ v.orchestration = o ∧ v.status = .published ∧
      ∃ w ∈ s.versions.rows, w.id = source ∧ w.orchestration = o ∧ w.status ≠ .draft ∧
        definitionRules v.definitionJson = serializeRules (s.rules.forest source) := by
  obtain ⟨row, hrow, h⟩ := bind_eq_ok.mp h
  obtain ⟨hrowmem, hrowid⟩ := lockedOrchestration_ok hrow
  obtain ⟨w, hw, h⟩ := bind_eq_ok.mp h
  obtain ⟨hwmem, hwid⟩ := getVersion_ok hw
  obtain ⟨_, hwo, h⟩ := bind_eq_ok.mp h
  obtain ⟨_, hwstatus, h⟩ := bind_eq_ok.mp h
  obtain ⟨_, hnone, h⟩ := bind_eq_ok.mp h
  -- there is no draft, so one may be created
  have hnone : s.getDraft o = none := by simpa using hnone
  dsimp only at h
  obtain ⟨s', hclone, h⟩ := bind_eq_ok.mp h
  generalize hcomment : some (_ : String) = text at hclone h
  have hcreated : Advanced s (s.createDraft o text).1 :=
    ⟨hs.createDraft ⟨row, hrowmem, hrowid⟩ hnone text, frozen_createDraft s o text⟩
  have hmem : (s.createDraft o text).2 ∈ (s.createDraft o text).1.versions.rows :=
    mem_createDraft.mpr (.inr rfl)
  obtain ⟨hcloned, hversions, hforest⟩ := cloneVersionRules_ok hcreated.coherent
    ⟨_, hmem, rfl, rfl⟩ (hs.fresh _ le_rfl) hclone
  -- the clone has the rules of the version that is rolled back to, and is published
  obtain ⟨hpublished, hv⟩ := publishVersionLocked_ok hcloned.coherent (hversions ▸ hmem) h
  refine ⟨(hcreated.trans hcloned).trans hpublished, hv.mem, hv.orchestration.trans hrowid, hv.status, w,
    hwmem, hwid, by simpa using hwo, by simpa using hwstatus, ?_⟩
  rw [hv.rules, hforest, ← hwid]
  rfl

end Requests

end Repository

end IncidentRelay.Orchestration
