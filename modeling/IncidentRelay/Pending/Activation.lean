import IncidentRelay.Pending.System

/-!
# Paused events: exactly-once activation

Every statement of the workflow has one of four effects on the table: none, an
insert under a free active key, a rewrite of rows that stay active under the key
they have, or an end of rows that were active (`step_effect`). Whatever the
interleaving, that is enough for the invariant `Coherent`, and `Coherent` is
enough for the main result.

 * `coherent_of_reachable`: row ids and active keys are unique, a row carries
   its own key exactly while it is active, and the log has one entry for each
   terminal row and none for the others.
 * `pending_activates_once`: at most one activation per row, none after the row
   was resolved or cancelled, one active row per key.
-/

namespace IncidentRelay.Pending

variable {cfg : Settings} {sha256 : String → String}

/-- The active key of the event a row stands for. -/
def PendingOrchestratedEvent.key (sha256 : String → String) (row : PendingOrchestratedEvent) :
    String :=
  pendingActiveKey sha256 row.group row.source row.dedupKey

/-- The status a row is left in. -/
def Ending.status : Ending → Status
  | .activated .. => .activated
  | .resolved => .resolved
  | .cancelled => .cancelled

/-- The entry stands for a committed activation. -/
def Ending.isActivation : Ending → Bool
  | .activated .. => true
  | _ => false

@[simp] theorem Ending.status_active (e : Ending) : e.status.active = false := by
  cases e <;> rfl

/-! ## The effect of a statement -/

/-- A rewrite that keeps a row under its key. -/
structure KeepsRow (sha256 : String → String) (r r' : PendingOrchestratedEvent) : Prop where
  id_eq : r'.id = r.id
  key_eq : r'.key sha256 = r.key sha256
  activeKey_eq : r'.activeKey = r.activeKey
  was_active : r.status.active = true
  is_active : r'.status.active = true

/-- A rewrite that ends a row. -/
structure EndsRow (ending : Ending) (r r' : PendingOrchestratedEvent) : Prop where
  id_eq : r'.id = r.id
  activeKey_eq : r'.activeKey = none
  was_active : r.status.active = true
  status_eq : r'.status = ending.status

/-- What a step did to the table, the id sequence and the log. -/
inductive Effect (sha256 : String → String) (s t : World) : Prop where
  | none (rows : t.rows = s.rows) (nextId : t.nextId = s.nextId) (log : t.log = s.log)
  | inserted (row : PendingOrchestratedEvent)
      (id_eq : row.id = s.nextId)
      (active : row.status.active = true)
      (activeKey_eq : row.activeKey = some (row.key sha256))
      (free : ∀ r ∈ s.rows, r.activeKey ≠ some (row.key sha256))
      (rows : t.rows = s.rows ++ [row]) (nextId : t.nextId = s.nextId + 1) (log : t.log = s.log)
  | kept (guard : PendingOrchestratedEvent → Bool)
      (set : PendingOrchestratedEvent → PendingOrchestratedEvent)
      (keeps : ∀ r, guard r = true → KeepsRow sha256 r (set r))
      (rows : t.rows = Table.update guard set s.rows)
      (nextId : t.nextId = s.nextId) (log : t.log = s.log)
  | ended (guard : PendingOrchestratedEvent → Bool)
      (set : PendingOrchestratedEvent → PendingOrchestratedEvent) (ending : Ending)
      (ends : ∀ r, guard r = true → EndsRow ending r (set r))
      (rows : t.rows = Table.update guard set s.rows)
      (nextId : t.nextId = s.nextId)
      (log : t.log = s.log ++ (s.rows.filter guard).map fun r => ⟨r.id, ending⟩)

/-! ### The rewrites, one by one -/

theorem requeueRow_keeps (now : Instant) {r : PendingOrchestratedEvent}
    (h : staleGuard cfg now r = true) : KeepsRow sha256 r (requeueRow now r) := by
  simp only [staleGuard, decide_eq_true_eq] at h
  exact ⟨rfl, rfl, rfl, by rw [h.1]; rfl, rfl⟩

theorem claimRow_keeps (rowId token : Nat) (now : Instant) {r : PendingOrchestratedEvent}
    (h : claimGuard rowId r = true) : KeepsRow sha256 r (claimRow token now r) := by
  simp only [claimGuard, decide_eq_true_eq] at h
  exact ⟨rfl, rfl, rfl, by rw [h.2]; rfl, rfl⟩

theorem failedRow_keeps (now : Instant) (error : String) {claimed r : PendingOrchestratedEvent}
    (h : heldGuard claimed r = true) : KeepsRow sha256 r (failedRow cfg now error claimed r) := by
  simp only [heldGuard, decide_eq_true_eq] at h
  refine ⟨rfl, rfl, rfl, by rw [h.2.1]; rfl, ?_⟩
  -- exhausted or not, the row is waiting for something
  by_cases hmax : cfg.maxAttempts ≤ claimed.attempts + 1 <;> simp [failedRow, hmax, Status.active]

theorem retryRow_keeps (rowId : Nat) (now : Instant) {r : PendingOrchestratedEvent}
    (h : retryGuard rowId r = true) : KeepsRow sha256 r (retryRow now r) := by
  simp only [retryGuard, decide_eq_true_eq] at h
  exact ⟨rfl, rfl, rfl, by rw [h.2]; rfl, rfl⟩

theorem refresh_keeps (req : PauseRequest) {current r : PendingOrchestratedEvent}
    (h : req.refreshGuard sha256 current r = true) :
    KeepsRow sha256 r (req.refresh current r) := by
  simp only [PauseRequest.refreshGuard, decide_eq_true_eq] at h
  obtain ⟨-, -, hstatus⟩ := h
  by_cases hact : current.status = .activating
  · rw [if_pos hact] at hstatus
    have hr : r.status.active = true := by rw [hstatus.1]; rfl
    simp only [PauseRequest.refresh, if_pos hact]
    exact ⟨rfl, rfl, rfl, hr, hr⟩
  · rw [if_neg hact] at hstatus
    have hr : r.status.active = true := by rcases hstatus with h | h <;> rw [h] <;> rfl
    simp only [PauseRequest.refresh, if_neg hact]
    exact ⟨rfl, rfl, rfl, hr, rfl⟩

/-- An activation ends it. -/
theorem activatedRow_ends (now at_ : Instant) (a : Instant) (e : Bool) (alertData : Dict)
    {claimed r : PendingOrchestratedEvent} (h : heldGuard claimed r = true) :
    EndsRow (.activated at_ a e) r (activatedRow now alertData r) := by
  simp only [heldGuard, decide_eq_true_eq] at h
  exact ⟨rfl, rfl, by rw [h.2.1]; rfl, rfl⟩

theorem resolveRow_ends (key : String) (now : Instant) {current r : PendingOrchestratedEvent}
    (h : resolveGuard key current r = true) : EndsRow .resolved r (resolveRow now current r) := by
  simp only [resolveGuard, decide_eq_true_eq] at h
  exact ⟨rfl, rfl, h.2.2, rfl⟩

theorem cancelledRow_ends (scope : CancelScope) (now : Instant) (reason : String)
    {r : PendingOrchestratedEvent} (h : cancelGuard scope r = true) :
    EndsRow .cancelled r (cancelledRow now reason r) := by
  simp only [cancelGuard, Bool.and_eq_true] at h
  exact ⟨rfl, rfl, h.1, rfl⟩

/-! ### The steps -/

theorem findActive_eq_none {s : World} {key : String}
    (h : ¬ (s.findActive key).isSome = true) : ∀ r ∈ s.rows, r.activeKey ≠ some key := by
  have hnone : s.findActive key = none := by simpa using h
  simpa [World.findActive, List.find?_eq_none] using hnone

/-- **What a pause writes**: it refreshes a row, or inserts one. -/
theorem writePause_effect (s : World) (q : Nat) (req : PauseRequest) (attempt : Nat)
    (current : Option PendingOrchestratedEvent) :
    Effect sha256 s (s.writePause sha256 q req attempt current) := by
  cases current with
  | none =>
    by_cases htaken : (s.findActive (req.key sha256)).isSome = true
    · simp only [World.writePause, if_pos htaken]
      exact .none rfl rfl rfl
    · simp only [World.writePause, if_neg htaken]
      exact .inserted (req.newRow sha256 s.nextId) rfl rfl rfl (findActive_eq_none htaken)
        rfl rfl rfl
  | some current =>
    by_cases hone : Table.affected (req.refreshGuard sha256 current) s.rows = 1
    · simp only [World.writePause, if_pos hone]
      exact .kept _ _ (fun r h => refresh_keeps req h) rfl rfl rfl
    · simp only [World.writePause, if_neg hone]
      exact .none rfl rfl rfl

/-- What a claim writes. -/
theorem claim_effect (s : World) (w : Nat) (now : Instant) (d : DueRow) (rest : List DueRow) :
    Effect sha256 s (s.claim w now d rest) := by
  cases hfind : s.rows.find? (claimGuard d.rowId) with
  | none =>
    simp only [World.claim, hfind]
    exact .none rfl rfl rfl
  | some row =>
    simp only [World.claim, hfind]
    exact .kept _ _ (fun r h => claimRow_keeps d.rowId s.nextToken now h) rfl rfl rfl

/-- Every step has one of the four effects. -/
theorem step_effect {s t : World} {l : Label} (h : Step cfg sha256 s l t) :
    Effect sha256 s t := by
  cases h with
  | requeueStale h => exact .kept _ _ (fun r hr => requeueRow_keeps s.clock hr) rfl rfl rfl
  | claim h => exact claim_effect s _ _ _ _
  | activate alertData h hheld =>
    exact .ended _ _ _ (fun r hr => activatedRow_ends s.clock _ _ _ alertData hr) rfl rfl rfl
  | markFailed h => exact .kept _ _ (fun r hr => failedRow_keeps s.clock _ hr) rfl rfl rfl
  | writePause h => exact writePause_effect s _ _ _ _
  | writeResolve h => exact .ended _ _ _ (fun r hr => resolveRow_ends _ _ hr) rfl rfl rfl
  | retryFailed rowId => exact .kept _ _ (fun r hr => retryRow_keeps rowId s.clock hr) rfl rfl rfl
  | cancel scope reason =>
    exact .ended _ _ _ (fun r hr => cancelledRow_ends scope s.clock reason hr) rfl rfl rfl
  | _ => exact .none rfl rfl rfl

/-! ## The invariant -/

/-- What holds in every reachable world. -/
structure Coherent (sha256 : String → String) (s : World) : Prop where
  ids_nodup : (s.rows.map (·.id)).Nodup
  ids_lt : ∀ r ∈ s.rows, r.id < s.nextId
  activeKey_eq : ∀ r ∈ s.rows,
    r.activeKey = if r.status.active then some (r.key sha256) else none
  key_unique : ∀ r ∈ s.rows, ∀ r' ∈ s.rows, r.status.active = true → r'.status.active = true →
    r.key sha256 = r'.key sha256 → r = r'
  log_nodup : (s.log.map (·.rowId)).Nodup
  log_status : ∀ e ∈ s.log, ∃ r ∈ s.rows, r.id = e.rowId ∧ r.status = e.ending.status
  ended_logged : ∀ r ∈ s.rows, r.status.active = false → r.id ∈ s.log.map (·.rowId)

theorem coherent_init (sha256 : String → String) (clock : Instant) :
    Coherent sha256 (.init clock) := by
  constructor <;> simp [World.init]

/-- **An insertion** under a key that is free. -/
theorem coherent_inserted {s t : World} (hs : Coherent sha256 s) {row : PendingOrchestratedEvent}
    (id_eq : row.id = s.nextId) (active : row.status.active = true)
    (activeKey_eq : row.activeKey = some (row.key sha256))
    (free : ∀ r ∈ s.rows, r.activeKey ≠ some (row.key sha256))
    (rows : t.rows = s.rows ++ [row]) (nextId : t.nextId = s.nextId + 1) (log : t.log = s.log) :
    Coherent sha256 t := by
  -- no active row has the key of the new one
  have hfree : ∀ r ∈ s.rows, r.status.active = true → r.key sha256 ≠ row.key sha256 := by
    intro r hr hact heq
    apply free r hr
    rw [hs.activeKey_eq r hr, if_pos hact, heq]
  constructor
  · rw [rows, List.map_append, List.nodup_append]
    refine ⟨hs.ids_nodup, by simp, ?_⟩
    intro a ha b hb
    obtain ⟨r, hr, rfl⟩ := List.mem_map.mp ha
    have hlt := hs.ids_lt r hr
    simp only [List.map_cons, List.map_nil, List.mem_singleton] at hb
    omega
  · intro r hr
    rw [rows, List.mem_append, List.mem_singleton] at hr
    rcases hr with hr | rfl
    · have hlt := hs.ids_lt r hr
      omega
    · omega
  · intro r hr
    rw [rows, List.mem_append, List.mem_singleton] at hr
    rcases hr with hr | rfl
    · exact hs.activeKey_eq r hr
    · rw [activeKey_eq, if_pos active]
  · intro r hr r' hr' hact hact' heq
    rw [rows, List.mem_append, List.mem_singleton] at hr hr'
    rcases hr with hr | rfl
    · rcases hr' with hr' | rfl
      · exact hs.key_unique r hr r' hr' hact hact' heq
      · exact absurd heq (hfree r hr hact)
    · rcases hr' with hr' | rfl
      · exact absurd heq.symm (hfree r' hr' hact')
      · rfl
  · rw [log]
    exact hs.log_nodup
  · intro e he
    rw [log] at he
    obtain ⟨r, hr, hrest⟩ := hs.log_status e he
    exact ⟨r, by rw [rows]; exact List.mem_append_left _ hr, hrest⟩
  · intro r hr hend
    rw [rows, List.mem_append, List.mem_singleton] at hr
    rw [log]
    rcases hr with hr | rfl
    · exact hs.ended_logged r hr hend
    · rw [active] at hend
      exact absurd hend (by decide)

/-- **An update that keeps its rows waiting.** -/
theorem coherent_kept {s t : World} (hs : Coherent sha256 s)
    {guard : PendingOrchestratedEvent → Bool}
    {set : PendingOrchestratedEvent → PendingOrchestratedEvent}
    (keeps : ∀ r, guard r = true → KeepsRow sha256 r (set r))
    (rows : t.rows = Table.update guard set s.rows)
    (nextId : t.nextId = s.nextId) (log : t.log = s.log) : Coherent sha256 t := by
  -- a row of the new table is a row of the old one under the same id and key
  have hold : ∀ r' ∈ t.rows, ∃ r ∈ s.rows, r'.id = r.id ∧ r'.key sha256 = r.key sha256 ∧
      r'.activeKey = r.activeKey ∧ r'.status.active = r.status.active := by
    intro r' hr'
    rw [rows] at hr'
    obtain ⟨r, hr, ⟨hg, rfl⟩ | ⟨-, rfl⟩⟩ := Table.mem_update.mp hr'
    · have hk := keeps r hg
      exact ⟨r, hr, hk.id_eq, hk.key_eq, hk.activeKey_eq, by rw [hk.is_active, hk.was_active]⟩
    · exact ⟨r', hr, rfl, rfl, rfl, rfl⟩
  have hids : t.rows.map (·.id) = s.rows.map (·.id) := by
    rw [rows]
    exact Table.map_update_of_guard _ fun r hg => (keeps r hg).id_eq
  have hnodup : (t.rows.map (·.id)).Nodup := by rw [hids]; exact hs.ids_nodup
  constructor
  · exact hnodup
  · intro r' hr'
    obtain ⟨r, hr, hid, -⟩ := hold r' hr'
    rw [hid, nextId]
    exact hs.ids_lt r hr
  · intro r' hr'
    obtain ⟨r, hr, -, hkey, hactive, hstatus⟩ := hold r' hr'
    rw [hactive, hstatus, hkey]
    exact hs.activeKey_eq r hr
  · intro r₁ hr₁ r₂ hr₂ hact₁ hact₂ heq
    obtain ⟨o₁, ho₁, hid₁, hkey₁, -, hs₁⟩ := hold r₁ hr₁
    obtain ⟨o₂, ho₂, hid₂, hkey₂, -, hs₂⟩ := hold r₂ hr₂
    have ho : o₁ = o₂ := hs.key_unique o₁ ho₁ o₂ ho₂ (hs₁ ▸ hact₁) (hs₂ ▸ hact₂)
      (by rw [← hkey₁, ← hkey₂, heq])
    exact Table.eq_of_key_eq hnodup hr₁ hr₂ (by rw [hid₁, hid₂, ho])
  · rw [log]
    exact hs.log_nodup
  · intro e he
    rw [log] at he
    obtain ⟨r, hr, hid, hstatus⟩ := hs.log_status e he
    -- the row has ended, so no guard selects it
    have hg : guard r = false := by
      rw [Bool.eq_false_iff]
      intro hg
      have hact := (keeps r hg).was_active
      rw [hstatus, Ending.status_active] at hact
      exact absurd hact (by decide)
    exact ⟨r, by rw [rows]; exact Table.mem_update.mpr ⟨r, hr, .inr ⟨hg, rfl⟩⟩, hid, hstatus⟩
  · intro r' hr' hend
    obtain ⟨r, hr, hid, -, -, hstatus⟩ := hold r' hr'
    rw [log, hid]
    exact hs.ended_logged r hr (hstatus ▸ hend)

/-- **An update that ends its rows**, and notes that in the log. -/
theorem coherent_ended {s t : World} (hs : Coherent sha256 s)
    {guard : PendingOrchestratedEvent → Bool}
    {set : PendingOrchestratedEvent → PendingOrchestratedEvent} {ending : Ending}
    (ends : ∀ r, guard r = true → EndsRow ending r (set r))
    (rows : t.rows = Table.update guard set s.rows) (nextId : t.nextId = s.nextId)
    (log : t.log = s.log ++ (s.rows.filter guard).map fun r => ⟨r.id, ending⟩) :
    Coherent sha256 t := by
  have hids : t.rows.map (·.id) = s.rows.map (·.id) := by
    rw [rows]
    exact Table.map_update_of_guard _ fun r hg => (ends r hg).id_eq
  -- a row that is active after the statement was not selected by it
  have hactive : ∀ r' ∈ t.rows, r'.status.active = true → r' ∈ s.rows := by
    intro r' hr' hact
    rw [rows] at hr'
    obtain ⟨r, hr, ⟨hg, rfl⟩ | ⟨-, rfl⟩⟩ := Table.mem_update.mp hr'
    · rw [(ends r hg).status_eq, Ending.status_active] at hact
      exact absurd hact (by decide)
    · exact hr
  have hnew : ((s.rows.filter guard).map fun r => (⟨r.id, ending⟩ : LogEntry)).map (·.rowId) =
      (s.rows.filter guard).map (·.id) := by
    rw [List.map_map]
    rfl
  constructor
  · rw [hids]
    exact hs.ids_nodup
  · intro r' hr'
    have hmem : r'.id ∈ s.rows.map (·.id) := hids ▸ List.mem_map_of_mem hr'
    obtain ⟨r, hr, hid⟩ := List.mem_map.mp hmem
    rw [nextId, ← hid]
    exact hs.ids_lt r hr
  · intro r' hr'
    rw [rows] at hr'
    obtain ⟨r, hr, ⟨hg, rfl⟩ | ⟨-, rfl⟩⟩ := Table.mem_update.mp hr'
    · rw [(ends r hg).activeKey_eq, (ends r hg).status_eq, Ending.status_active]
      rfl
    · exact hs.activeKey_eq r' hr
  · intro r hr r' hr' hact hact' heq
    exact hs.key_unique r (hactive r hr hact) r' (hactive r' hr' hact') hact hact' heq
  · rw [log, List.map_append, hnew, List.nodup_append]
    refine ⟨hs.log_nodup, ?_, ?_⟩
    · exact hs.ids_nodup.sublist (List.filter_sublist.map _)
    · -- a row that is already logged has ended, a selected row has not
      intro a ha b hb hab
      obtain ⟨e, he, rfl⟩ := List.mem_map.mp ha
      obtain ⟨r, hr, rfl⟩ := List.mem_map.mp hb
      rw [List.mem_filter] at hr
      obtain ⟨r₀, hr₀, hid, hstatus⟩ := hs.log_status e he
      have hsame : r₀ = r := Table.eq_of_key_eq hs.ids_nodup hr₀ hr.1 (by rw [hid, hab])
      have hact := (ends r hr.2).was_active
      rw [← hsame, hstatus, Ending.status_active] at hact
      exact absurd hact (by decide)
  · intro e he
    rw [log, List.mem_append] at he
    rcases he with he | he
    · obtain ⟨r, hr, hid, hstatus⟩ := hs.log_status e he
      have hg : guard r = false := by
        rw [Bool.eq_false_iff]
        intro hg
        have hact := (ends r hg).was_active
        rw [hstatus, Ending.status_active] at hact
        exact absurd hact (by decide)
      exact ⟨r, by rw [rows]; exact Table.mem_update.mpr ⟨r, hr, .inr ⟨hg, rfl⟩⟩, hid, hstatus⟩
    · obtain ⟨r, hr, rfl⟩ := List.mem_map.mp he
      rw [List.mem_filter] at hr
      refine ⟨set r, ?_, (ends r hr.2).id_eq, (ends r hr.2).status_eq⟩
      rw [rows]
      exact Table.mem_update.mpr ⟨r, hr.1, .inl ⟨hr.2, rfl⟩⟩
  · intro r' hr' hend
    rw [log, List.map_append, List.mem_append, hnew]
    rw [rows] at hr'
    obtain ⟨r, hr, ⟨hg, rfl⟩ | ⟨-, rfl⟩⟩ := Table.mem_update.mp hr'
    · right
      rw [(ends r hg).id_eq]
      exact List.mem_map_of_mem (List.mem_filter.mpr ⟨hr, hg⟩)
    · exact .inl (hs.ended_logged r' hr hend)

/-- **Step lemma.** Whatever its label, a step keeps the table coherent. -/
theorem coherent_step {s t : World} {l : Label} (hs : Coherent sha256 s)
    (h : Step cfg sha256 s l t) : Coherent sha256 t := by
  cases step_effect h with
  | none rows nextId log =>
    obtain ⟨h₁, h₂, h₃, h₄, h₅, h₆, h₇⟩ := hs
    constructor <;> simpa only [rows, nextId, log]
  | inserted row id_eq active activeKey_eq free rows nextId log =>
    exact coherent_inserted hs id_eq active activeKey_eq free rows nextId log
  | kept guard set keeps rows nextId log => exact coherent_kept hs keeps rows nextId log
  | ended guard set ending ends rows nextId log => exact coherent_ended hs ends rows nextId log

/-- **Run lemma.** Every reachable world is coherent. -/
theorem coherent_of_reachable {s : World} (h : Reachable cfg sha256 s) : Coherent sha256 s := by
  obtain ⟨clock, labels, hrun⟩ := h
  exact hrun.invariant coherent_step (coherent_init sha256 clock)

/-! ## Exactly once -/

/-- In a coherent world the log speaks about each row once. -/
theorem Coherent.log_unique {s : World} (hs : Coherent sha256 s) {i j : Nat} {e e' : LogEntry}
    (hi : s.log[i]? = some e) (hj : s.log[j]? = some e') (hrow : e.rowId = e'.rowId) : i = j := by
  have hi' : (s.log.map (·.rowId))[i]? = some e.rowId := by rw [List.getElem?_map, hi]; rfl
  have hj' : (s.log.map (·.rowId))[j]? = some e.rowId := by rw [List.getElem?_map, hj, hrow]; rfl
  obtain ⟨hlt, -⟩ := List.getElem?_eq_some_iff.mp hi'
  exact (List.getElem?_inj hlt hs.log_nodup).mp (hi'.trans hj'.symm)

/-- In a coherent world one row at most is active under a key. -/
theorem Coherent.active_le_one {s : World} (hs : Coherent sha256 s) (key : String) :
    (s.rows.filter fun r => r.key sha256 = key ∧ r.status.active = true).length ≤ 1 := by
  apply Table.filter_length_le_one (hs.ids_nodup.of_map _)
  intro r hr r' hr' hsel hsel'
  simp only [decide_eq_true_eq] at hsel hsel'
  exact hs.key_unique r hr r' hr' hsel.2 hsel'.2 (hsel.1.trans hsel'.1.symm)

/-- The log and the table agree on what was activated. -/
theorem activated_iff_logged {s : World} (h : Reachable cfg sha256 s)
    {r : PendingOrchestratedEvent} (hr : r ∈ s.rows) :
    r.status = .activated ↔ ∃ e ∈ s.log, e.rowId = r.id ∧ e.ending.isActivation = true := by
  have hs := coherent_of_reachable h
  constructor
  -- an ended row has its entry in the log
  · intro hst
    have hlogged := hs.ended_logged r hr (by rw [hst]; rfl)
    obtain ⟨e, he, hid⟩ := List.mem_map.mp hlogged
    obtain ⟨r₀, hr₀, hid₀, hst₀⟩ := hs.log_status e he
    have hsame : r₀ = r := Table.eq_of_key_eq hs.ids_nodup hr₀ hr (by rw [hid₀, hid])
    rw [hsame, hst] at hst₀
    refine ⟨e, he, hid, ?_⟩
    -- the entry names the ending, and the status is the one it gives
    cases hend : e.ending with
    | activated => rfl
    | resolved => rw [hend] at hst₀; exact absurd hst₀ (by decide)
    | cancelled => rw [hend] at hst₀; exact absurd hst₀ (by decide)
  · rintro ⟨e, he, hid, hact⟩
    obtain ⟨r₀, hr₀, hid₀, hst₀⟩ := hs.log_status e he
    have hsame : r₀ = r := Table.eq_of_key_eq hs.ids_nodup hr₀ hr (by rw [hid₀, hid])
    rw [← hsame, hst₀]
    cases hend : e.ending with
    | activated => rfl
    | resolved => rw [hend] at hact; exact absurd hact (by decide)
    | cancelled => rw [hend] at hact; exact absurd hact (by decide)

/-- **Exactly-once activation.** In every world that some interleaving reaches,
the log has at most one activation of a row and none after the row was resolved
or cancelled; one row at most is not terminal under a key; and a row carries its
key exactly while it is pending, activating or failed. -/
theorem pending_activates_once {s : World} (h : Reachable cfg sha256 s) :
    (∀ (i j : Nat) (e e' : LogEntry), s.log[i]? = some e → s.log[j]? = some e' →
      e.rowId = e'.rowId → e.ending.isActivation = true → e'.ending.isActivation = true → i = j) ∧
    (∀ (i j : Nat) (e e' : LogEntry), s.log[i]? = some e → s.log[j]? = some e' →
      e.rowId = e'.rowId → (e.ending = .resolved ∨ e.ending = .cancelled) → i < j →
      e'.ending.isActivation = false) ∧
    (∀ key, (s.rows.filter fun r => r.key sha256 = key ∧ r.status.active = true).length ≤ 1) ∧
    (∀ r ∈ s.rows, r.activeKey.isSome = true ↔
      r.status = .pending ∨ r.status = .activating ∨ r.status = .failed) ∧
    (∀ r ∈ s.rows, ∀ key, r.activeKey = some key → key = r.key sha256) := by
  have hs := coherent_of_reachable h
  -- a row has one entry, so two of them are at one place
  refine ⟨?_, ?_, hs.active_le_one, ?_, ?_⟩
  · intro i j e e' hi hj hrow _ _
    exact hs.log_unique hi hj hrow
  · intro i j e e' hi hj hrow _ hlt
    have := hs.log_unique hi hj hrow
    omega
  · intro r hr
    rw [hs.activeKey_eq r hr]
    cases r.status <;> simp [Status.active]
  · intro r hr key hkey
    rw [hs.activeKey_eq r hr] at hkey
    by_cases hact : r.status.active = true
    · rw [if_pos hact] at hkey
      exact (Option.some.inj hkey).symm
    · rw [if_neg hact] at hkey
      exact absurd hkey (by simp)

/-- A firing that an orchestration pauses for ten seconds. -/
def samplePause : PauseArguments where
  runtimeGroupId := some 1
  routeGroupId := none
  source := "webhook"
  dedupKey := "disk"
  pauseSeconds := some 10
  retrigger := .reset
  provenance := some (1, 1)
  route := some 1
  service := none
  integrationName := "webhook"
  storedEvent := []
  runtimeContext := id

/-- A tick activates the paused firing; nothing activates it again. -/
theorem pending_activates_once_sample :
    ∃ s : World, s.log = [⟨1, .activated (seconds 10) (seconds 10) false⟩] ∧
      ∀ (i j : Nat) (e e' : LogEntry), s.log[i]? = some e → s.log[j]? = some e' →
        e.rowId = e'.rowId → e.ending.isActivation = true → e'.ending.isActivation = true →
          i = j := by
  refine ⟨_, ?_, (@pending_activates_once {} id _ ⟨0, _,
    .cons (.beginPause (q := 0) samplePause rfl rfl) <|
    .cons (.readPause (q := 0) rfl) <|
    .cons (.writePause (q := 0) rfl) <|
    .cons (.advance (t := seconds 10) (by decide)) <|
    .cons (.requeueStale (w := 0) rfl) <|
    .cons (.listDue (w := 0) 10 rfl) <|
    .cons (.claim (w := 0) rfl) <|
    .cons (.getClaimed (w := 0) rfl rfl) <|
    .cons (.activate (w := 0) [] rfl rfl) <|
    .nil _⟩).1⟩
  rfl

end IncidentRelay.Pending
