import IncidentRelay.Lib.Refresh
import IncidentRelay.Services.Correlation

/-!
# Whether the correlations settle

The refreshes are those of a `Refresher` over the keys of the records
(`activeKeys_refresh`). The two groups of a pair store it under different keys
(`pairKey_ne`), so each of them deactivates what the other has stored: the records settle
exactly where no open group is correlated with another (`refresh_stable_iff`).
-/

namespace IncidentRelay.Services

/-! ## One record -/

/-- The keys of the active records. -/
def Records.activeKeys (w : Records) : Set PairKey :=
  {key | ∃ r ∈ w.correlations.rows, r.key = key ∧ r.active = true}

section Refresh

variable {c : Catalog} {now : Instant} {group related : AlertGroup} {path : DependencyPath}
  {w : Records}

/-- What an upsert does to the rows: nothing below the least score, and else it puts an
active row in the place of the one with its key. -/
theorem upsertCorrelation_spec (c : Catalog) (now : Instant) (group related : AlertGroup)
    (path : DependencyPath) (w : Records) :
    (dependencyScore c group related path < minCorrelationScore ∧
        upsertCorrelation c now group related path w = (w, none)) ∨
      (minCorrelationScore ≤ dependencyScore c group related path ∧
        ∃ r, (upsertCorrelation c now group related path w).2 = some r ∧
          r.key = pairKey group related path ∧ r.active = true ∧
          ∀ r', r' ∈ (upsertCorrelation c now group related path w).1.correlations.rows ↔
            r' = r ∨ (r' ∈ w.correlations.rows ∧ r'.key ≠ pairKey group related path)) := by
  unfold upsertCorrelation
  split_ifs with hscore
  · exact .inl ⟨hscore, rfl⟩
  · refine .inr ⟨not_lt.mp hscore, ?_⟩
    dsimp only
    split
    · -- the row is new
      rename_i hnone
      exact ⟨_, rfl, rfl, rfl, fun r' => KeyTable.mem_create rfl (KeyTable.get_eq_none.mp hnone)⟩
    · -- the row is updated
      rename_i found hfound
      obtain ⟨hmem, hkey⟩ := KeyTable.get_spec hfound
      refine ⟨_, rfl, hkey, rfl, fun r' => ?_⟩
      rw [← hkey]
      exact KeyTable.mem_update_one hmem

/-! ## The loop -/

/-- The related groups with the least score. -/
def correlated (c : Catalog) (group : AlertGroup) : List (AlertGroup × DependencyPath) :=
  match group.isOpen, group.service with
  | true, some serviceId => (candidates c group serviceId).filter fun x =>
      minCorrelationScore ≤ dependencyScore c group x.1 x.2
  | _, _ => []

/-- The keys of a list of pairs, where the score is high enough. -/
def keysOf (c : Catalog) (group : AlertGroup) (xs : List (AlertGroup × DependencyPath)) :
    Set PairKey :=
  {key | ∃ x ∈ xs, minCorrelationScore ≤ dependencyScore c group x.1 x.2 ∧
    pairKey group x.1 x.2 = key}

/-- The loop has stored the keys, and has noted their rows. -/
structure Looped (start : Records) (keys : Set PairKey) (state : Records × List ℕ) : Prop where
  active : ∀ key, key ∈ state.1.activeKeys ↔ key ∈ start.activeKeys ∨ key ∈ keys
  ids : ∀ r ∈ state.1.correlations.rows, r.id ∈ state.2 ↔ r.key ∈ keys

/-- **One candidate more** makes its pair active and collects the id of its record. -/
theorem Looped.step {start : Records} {keys : Set PairKey} {state : Records × List ℕ}
    (h : Looped start keys state) (x : AlertGroup × DependencyPath) :
    Looped start (keys ∪ keysOf c group [x])
      ((upsertCorrelation c now group x.1 x.2 state.1).1,
        state.2 ++ ((upsertCorrelation c now group x.1 x.2 state.1).2.map (·.id)).toList) := by
  rcases upsertCorrelation_spec c now group x.1 x.2 state.1 with
    ⟨hscore, hsame⟩ | ⟨hscore, r, hr, hkey, hactive, hrows⟩
  · -- the score is too low
    have hnone : keysOf c group [x] = ∅ := by
      ext key
      simp [keysOf, not_le.mpr hscore]
    rw [hnone, Set.union_empty, hsame]
    exact ⟨h.active, by simpa using h.ids⟩
  -- the pair becomes active, under its own record
  · have hone : keysOf c group [x] = {pairKey group x.1 x.2} := by
      ext key
      simp [keysOf, hscore, eq_comm]
    rw [hone, hr]
    have hmem : r ∈ (upsertCorrelation c now group x.1 x.2 state.1).1.correlations.rows :=
      (hrows r).mpr (.inl rfl)
    refine ⟨?_, ?_⟩
    · intro key
      by_cases hsame : key = pairKey group x.1 x.2
      · subst hsame
        exact ⟨fun _ => .inr (.inr rfl), fun _ => ⟨r, hmem, hkey, hactive⟩⟩
      · have hkept : key ∈ (upsertCorrelation c now group x.1 x.2 state.1).1.activeKeys ↔
            key ∈ state.1.activeKeys := by
          constructor
          · rintro ⟨r', hr', rfl, hact⟩
            rcases (hrows r').mp hr' with rfl | ⟨hr', -⟩
            · exact absurd hkey hsame
            · exact ⟨r', hr', rfl, hact⟩
          · rintro ⟨r', hr', rfl, hact⟩
            exact ⟨r', (hrows r').mpr (.inr ⟨hr', hsame⟩), rfl, hact⟩
        rw [hkept, h.active key]
        simp [hsame]
    -- the other records keep their ids
    · intro r' hr'
      rw [List.mem_append]
      have hlast : r'.id ∈ ((some r).map (·.id)).toList ↔ r'.key = pairKey group x.1 x.2 := by
        rw [← hkey, ← KeyTable.id_eq_iff hr' hmem]
        simp
      rw [hlast]
      rcases (hrows r').mp hr' with rfl | ⟨hr'', hne⟩
      · simp [hkey]
      · rw [h.ids r' hr'']
        simp [hne]

/-- By induction, all of them do. -/
theorem upsertAll_looped (c : Catalog) (now : Instant) (group : AlertGroup) (w : Records)
    (xs : List (AlertGroup × DependencyPath)) :
    Looped w (keysOf c group xs) (upsertAll c now group xs w) := by
  -- the induction is on the pairs that the loop has behind it
  induction xs using List.reverseRecOn with
  | nil => exact ⟨by simp [upsertAll, keysOf], by simp [upsertAll, keysOf]⟩
  | append_singleton xs x ih =>
    have hkeys : keysOf c group (xs ++ [x]) = keysOf c group xs ∪ keysOf c group [x] := by
      ext key
      simp [keysOf, or_and_right, exists_or]
    have hloop : upsertAll c now group (xs ++ [x]) w =
        ((upsertCorrelation c now group x.1 x.2 (upsertAll c now group xs w).1).1,
          (upsertAll c now group xs w).2 ++
            ((upsertCorrelation c now group x.1 x.2
              (upsertAll c now group xs w).1).2.map (·.id)).toList) := by
      unfold upsertAll
      rw [List.foldl_append]
      rfl
    rw [hkeys, hloop]
    exact ih.step x

/-! ## The deactivation -/

/-- What a group looks at. -/
def touches (group : AlertGroup) (key : PairKey) : Prop :=
  key.rootGroup = group.id ∨ key.relatedGroup = group.id

theorem isOf_iff {r : Correlation} : r.isOf group.id = true ↔ touches group r.key := by
  simp [Correlation.isOf, touches]

/-- Deactivating takes away the pairs of the group that were not found again. -/
theorem deactivate_activeKeys {keys : Set PairKey} {ids : List ℕ}
    (hids : ∀ r ∈ w.correlations.rows, r.id ∈ ids ↔ r.key ∈ keys) (key : PairKey) :
    key ∈ (deactivateStaleCorrelations c now group ids w).activeKeys ↔
      key ∈ w.activeKeys ∧ (¬touches group key ∨ key ∈ keys) := by
  -- a row is stale where it is active, of the group and none of the keys
  have hstale : ∀ r ∈ w.correlations.rows,
      (decide (r.isOf group.id = true ∧ r.active = true ∧ r.id ∉ ids) = true ↔
        touches group r.key ∧ r.active = true ∧ r.key ∉ keys) := by
    intro r hr
    rw [decide_eq_true_iff, isOf_iff, hids r hr]
  unfold deactivateStaleCorrelations
  dsimp only
  split
  · rename_i hnil
    constructor
    · rintro ⟨r, hr, rfl, hactive⟩
      refine ⟨⟨r, hr, rfl, hactive⟩, ?_⟩
      by_contra hno
      push Not at hno
      have := List.filter_eq_nil_iff.mp hnil r hr
      exact this ((hstale r hr).mpr ⟨hno.1, hactive, hno.2⟩)
    · exact fun h => h.1
  · have hin : ∀ r ∈ w.correlations.rows,
        (decide (r.id ∈ (w.correlations.rows.filter fun r =>
            decide (r.isOf group.id = true ∧ r.active = true ∧ r.id ∉ ids)).map (·.id)) = true ↔
          touches group r.key ∧ r.active = true ∧ r.key ∉ keys) := by
      intro r hr
      rw [decide_eq_true_iff, ← hstale r hr, List.mem_map]
      constructor
      · rintro ⟨r', hr', hid⟩
        obtain ⟨hr'', hguard⟩ := List.mem_filter.mp hr'
        rwa [← KeyTable.eq_of_id hr'' hr hid]
      · exact fun h => ⟨r, List.mem_filter.mpr ⟨hr, h⟩, rfl⟩
    constructor
    · rintro ⟨r, hr, rfl, hactive⟩
      obtain ⟨r₀, hr₀, ⟨-, rfl⟩ | ⟨hguard, rfl⟩⟩ := KeyTable.mem_update.mp hr
      · cases hactive
      · refine ⟨⟨r, hr₀, rfl, hactive⟩, ?_⟩
        by_contra hno
        push Not at hno
        rw [(hin r hr₀).mpr ⟨hno.1, hactive, hno.2⟩] at hguard
        cases hguard
    · rintro ⟨⟨r, hr, rfl, hactive⟩, hkept⟩
      refine ⟨r, KeyTable.mem_update.mpr ⟨r, hr, .inr ⟨?_, rfl⟩⟩, rfl, hactive⟩
      rw [Bool.eq_false_iff]
      intro hguard
      obtain ⟨htouches, -, hkey⟩ := (hin r hr).mp hguard
      exact hkept.elim (· htouches) hkey

/-! ## The refresh -/

/-- A pair touches both its groups. -/
theorem pairKey_touches (group related : AlertGroup) (path : DependencyPath) :
    touches group (pairKey group related path) ∧ touches related (pairKey group related path) := by
  unfold touches pairKey rootAndRelatedGroups
  cases path.direction
  · exact ⟨.inr rfl, .inl rfl⟩
  · exact ⟨.inl rfl, .inr rfl⟩

/-- The groups as agents over the keys of the records. -/
def refresher (c : Catalog) : Refresher AlertGroup PairKey where
  touches := touches
  keys group := keysOf c group (correlated c group)
  sub := by
    rintro group key ⟨x, -, -, rfl⟩
    exact (pairKey_touches group x.1 x.2).1

/-- The pairs of a group are those of its candidates. -/
theorem keysOf_correlated {serviceId : Id} (hopen : group.isOpen = true)
    (hservice : group.service = some serviceId) :
    keysOf c group (correlated c group) = keysOf c group (candidates c group serviceId) := by
  ext key
  show (∃ x ∈ correlated c group, _) ↔ ∃ x ∈ candidates c group serviceId, _
  simp only [correlated, hopen, hservice, List.mem_filter, decide_eq_true_eq]
  constructor
  · rintro ⟨x, ⟨hx, -⟩, h⟩
    exact ⟨x, hx, h⟩
  · rintro ⟨x, hx, hscore, h⟩
    exact ⟨x, ⟨hx, hscore⟩, hscore, h⟩

/-- **A refresh is one of the refresher.** -/
theorem activeKeys_refresh (c : Catalog) (now : Instant) (group : AlertGroup) (w : Records) :
    (refreshAlertGroupCorrelations c now group w).activeKeys =
      (refresher c).refresh group w.activeKeys := by
  ext key
  rw [Refresher.mem_refresh]
  show _ ↔ key ∈ keysOf c group (correlated c group) ∨ (key ∈ w.activeKeys ∧ ¬touches group key)
  unfold refreshAlertGroupCorrelations
  -- what is open and has a service is searched, anything else only deactivated
  split
  · rename_i serviceId hopen hservice
    have hloop := upsertAll_looped c now group w (candidates c group serviceId)
    have hkeys := @keysOf_correlated c group serviceId hopen hservice
    dsimp only
    rw [deactivate_activeKeys hloop.ids key, hloop.active key, hkeys]
    constructor
    · rintro ⟨hactive | hkey, hkept⟩
      · exact hkept.elim (fun h => .inr ⟨hactive, h⟩) .inl
      · exact .inl hkey
    · rintro (hkey | ⟨hactive, htouches⟩)
      · exact ⟨.inr hkey, .inr hkey⟩
      · exact ⟨.inl hactive, .inl htouches⟩
  -- nothing is found for it
  · rename_i hno
    have hnone : keysOf c group (correlated c group) = ∅ := by
      have hcorrelated : correlated c group = [] := by
        unfold correlated
        split
        · rename_i serviceId hopen hservice
          exact absurd hservice (hno serviceId hopen)
        · rfl
      rw [hcorrelated]
      simp [keysOf]
    have hids : ∀ r ∈ w.correlations.rows, r.id ∈ ([] : List ℕ) ↔ r.key ∈ (∅ : Set PairKey) :=
      by simp
    rw [deactivate_activeKeys hids key, hnone]
    simp

/-- A group that is correlated with none leaves records without an active key of it. -/
theorem refresh_idle (hnone : correlated c group = [])
    (hidle : ∀ key ∈ w.activeKeys, ¬touches group key) (now : Instant) : refreshAlertGroupCorrelations c now group w = w := by
  -- no record of the group is active, so none is deactivated
  have hdeactivate : ∀ ids, deactivateStaleCorrelations c now group ids w = w := by
    intro ids
    unfold deactivateStaleCorrelations
    dsimp only
    have hnil : (w.correlations.rows.filter fun r =>
        decide (r.isOf group.id = true ∧ r.active = true ∧ r.id ∉ ids)) = [] := by
      rw [List.filter_eq_nil_iff]
      intro r hr
      rw [decide_eq_true_iff, isOf_iff]
      rintro ⟨htouches, hactive, -⟩
      exact hidle r.key ⟨r, hr, rfl, hactive⟩ htouches
    rw [hnil]
  unfold refreshAlertGroupCorrelations
  split
  · rename_i serviceId hopen hservice
    have hlow : ∀ x ∈ candidates c group serviceId,
        dependencyScore c group x.1 x.2 < minCorrelationScore := by
      intro x hx
      by_contra hscore
      have hmem : x ∈ correlated c group := by
        simp only [correlated, hopen, hservice]
        exact List.mem_filter.mpr ⟨hx, by simpa using hscore⟩
      rw [hnone] at hmem
      cases hmem
    -- and no candidate is scored high enough to be recorded
    have hloop : ∀ xs : List (AlertGroup × DependencyPath),
        (∀ x ∈ xs, dependencyScore c group x.1 x.2 < minCorrelationScore) →
        upsertAll c now group xs w = (w, []) := by
      intro xs
      induction xs with
      | nil => exact fun _ => rfl
      | cons x xs ih =>
        intro hxs
        have hskip : upsertCorrelation c now group x.1 x.2 w = (w, none) := by
          unfold upsertCorrelation
          rw [if_pos (hxs x List.mem_cons_self)]
        unfold upsertAll at ih ⊢
        rw [List.foldl_cons, hskip]
        exact ih fun y hy => hxs y (List.mem_cons_of_mem x hy)
    rw [hloop _ hlow]
    exact hdeactivate []
  · exact hdeactivate []

/-! ## Runs -/

/-- A call of `refresh_alert_group_correlations`. -/
structure RefreshCall where
  now : Instant
  group : AlertGroup

/-- The calls, with no other change between them. -/
def runCalls (c : Catalog) (calls : List RefreshCall) (w : Records) : Records :=
  calls.foldl (fun w call => refreshAlertGroupCorrelations c call.now call.group w) w

/-- The calls are for open groups. -/
def ForOpen (c : Catalog) (calls : List RefreshCall) : Prop :=
  ∀ call ∈ calls, call.group ∈ c.openGroups

/-- Calls for the same groups end in the same active records, and once every group was
refreshed nothing changes any more. -/
structure Stable (c : Catalog) (w : Records) : Prop where
  order_free : ∀ calls calls', ForOpen c calls →
    (∀ group, (∃ call ∈ calls, call.group = group) ↔ ∃ call ∈ calls', call.group = group) →
    (runCalls c calls w).activeKeys = (runCalls c calls' w).activeKeys
  settled : ∀ calls more, ForOpen c calls → ForOpen c more →
    (∀ group ∈ c.openGroups, ∃ call ∈ calls, call.group = group) →
    runCalls c (calls ++ more) w = runCalls c calls w

/-- **A run of refreshes** is one of the general refresher. -/
theorem activeKeys_runCalls (calls : List RefreshCall) (w : Records) :
    (runCalls c calls w).activeKeys = (refresher c).run (calls.map (·.group)) w.activeKeys := by
  induction calls generalizing w with
  | nil => rfl
  | cons call calls ih =>
    show (runCalls c calls (refreshAlertGroupCorrelations c call.now call.group w)).activeKeys = _
    rw [ih, activeKeys_refresh]
    rfl

/-- The other group of a pair does not store it under the same key. -/
theorem pairKey_ne {other : AlertGroup} {path' : DependencyPath} (hne : related.id ≠ group.id) :
    pairKey related other path' ≠ pairKey group related path := by
  intro h
  have htype := congrArg PairKey.relationType h
  have hroot := congrArg PairKey.rootGroup h
  have hrelated := congrArg PairKey.relatedGroup h
  unfold pairKey rootAndRelatedGroups at htype hroot hrelated
  cases hdirection : path.direction <;> cases hdirection' : path'.direction <;>
    rw [hdirection, hdirection'] at htype hroot hrelated
  · exact hne hrelated
  · cases htype
  · cases htype
  · exact hne hroot

/-- What is correlated is open, another group and scored high enough. -/
theorem correlated_spec {x : AlertGroup × DependencyPath} (h : x ∈ correlated c group) :
    x.1 ∈ c.openGroups ∧ x.1.id ≠ group.id ∧
      minCorrelationScore ≤ dependencyScore c group x.1 x.2 := by
  unfold correlated at h
  split at h
  · obtain ⟨hx, hscore⟩ := List.mem_filter.mp h
    obtain ⟨g, hg, hpath⟩ := List.mem_filterMap.mp hx
    obtain ⟨p, -, rfl⟩ := Option.map_eq_some_iff.mp hpath
    have hsorted := List.mem_of_mem_take hg
    rw [List.mem_insertionSort] at hsorted
    obtain ⟨hmem, hguard⟩ := List.mem_filter.mp hsorted
    rw [decide_eq_true_iff] at hguard
    exact ⟨List.mem_filter.mpr ⟨hmem, hguard.2.1⟩, hguard.2.2.1, by simpa using hscore⟩
  · cases h

/-- The open groups agree on their pairs exactly where there are none. -/
theorem agree_iff :
    (refresher c).Agree {g | g ∈ c.openGroups} ↔ ∀ g ∈ c.openGroups, correlated c g = [] := by
  constructor
  · intro hagree g hg
    rw [List.eq_nil_iff_forall_not_mem]
    intro x hx
    obtain ⟨hopen, hne, hscore⟩ := correlated_spec hx
    have htouches := pairKey_touches g x.1 x.2
    have hmem : pairKey g x.1 x.2 ∈ (refresher c).keys g := ⟨x, hx, hscore, rfl⟩
    obtain ⟨y, -, -, hy⟩ :=
      (hagree g hg x.1 hopen _ htouches.1 htouches.2).mp hmem
    exact pairKey_ne hne hy
  · intro hnone a ha b hb key _ _
    show key ∈ keysOf c a (correlated c a) ↔ key ∈ keysOf c b (correlated c b)
    rw [hnone a ha, hnone b hb]
    simp [keysOf]

/-- In a stable catalog the refreshes of two groups agree. -/
theorem Stable.agree (h : Stable c w) : (refresher c).Agree {g | g ∈ c.openGroups} := by
  refine @Refresher.OrderFree.agree _ _ _ _ w.activeKeys ?_
  intro as bs has hsame
  -- calls of these groups
  have hcalls : ∀ gs : List AlertGroup, (gs.map (RefreshCall.mk 0)).map (·.group) = gs := by
    intro gs
    rw [List.map_map]
    exact List.map_id gs
  have horder := h.order_free (as.map (RefreshCall.mk 0)) (bs.map (RefreshCall.mk 0))
    (by
      intro call hcall
      obtain ⟨g, hg, rfl⟩ := List.mem_map.mp hcall
      exact has g hg)
    (by simpa using hsame)
  rwa [activeKeys_runCalls, activeKeys_runCalls, hcalls, hcalls] at horder

/-- Once every open group was refreshed, no record of them is active, if none is
correlated with another. -/
theorem runCalls_idle (hnone : ∀ g ∈ c.openGroups, correlated c g = []) {calls : List RefreshCall}
    (hopen : ForOpen c calls) (hall : ∀ group ∈ c.openGroups, ∃ call ∈ calls, call.group = group) :
    ∀ g ∈ c.openGroups, ∀ key ∈ (runCalls c calls w).activeKeys, ¬touches g key := by
  intro g hg key hkey htouches
  obtain ⟨call, hcall, rfl⟩ := hall g hg
  rw [activeKeys_runCalls] at hkey
  have hcalls : ∀ a ∈ calls.map (·.group), a ∈ c.openGroups := by
    intro a ha
    obtain ⟨call', hcall', rfl⟩ := List.mem_map.mp ha
    exact hopen call' hcall'
  have hkeys : key ∈ keysOf c call.group (correlated c call.group) :=
    (Refresher.mem_run_of_touches (agree_iff.mpr hnone) hcalls
      (List.mem_map_of_mem hcall) htouches).mp hkey
  rw [hnone _ hg] at hkeys
  obtain ⟨x, hx, -⟩ := hkeys
  cases hx

/-- Where nothing is correlated and nothing recorded, refreshes do nothing. -/
theorem runCalls_of_idle (hnone : ∀ g ∈ c.openGroups, correlated c g = [])
    (hidle : ∀ g ∈ c.openGroups, ∀ key ∈ w.activeKeys, ¬touches g key) {calls : List RefreshCall}
    (hopen : ForOpen c calls) : runCalls c calls w = w := by
  induction calls with
  | nil => rfl
  | cons call calls ih =>
    have hg := hopen call List.mem_cons_self
    show runCalls c calls (refreshAlertGroupCorrelations c call.now call.group w) = w
    rw [refresh_idle (hnone _ hg) (hidle _ hg)]
    exact ih fun call' hcall' => hopen call' (List.mem_cons_of_mem call hcall')

/-- **The correlations settle** exactly where no open group is correlated with another. -/
theorem refresh_stable_iff (c : Catalog) (w : Records) :
    Stable c w ↔ ∀ g ∈ c.openGroups, correlated c g = [] := by
  constructor
  · exact fun h => agree_iff.mp h.agree
  · intro hnone
    refine ⟨?_, ?_⟩
    · intro calls calls' hopen hsame
      rw [activeKeys_runCalls, activeKeys_runCalls]
      refine (agree_iff.mpr hnone).orderFree w.activeKeys _ _ ?_ (by simpa using hsame)
      intro g hg
      obtain ⟨call, hcall, rfl⟩ := List.mem_map.mp hg
      exact hopen call hcall
    · intro calls more hopen hmore hall
      have happend : runCalls c (calls ++ more) w = runCalls c more (runCalls c calls w) :=
        List.foldl_append
      rw [happend]
      exact runCalls_of_idle hnone (runCalls_idle hnone hopen hall) hmore

end Refresh

/-! ## A symptom and its root -/

def webService : Service := ⟨1, 1, "web", "Web", "production", "operational", true, false⟩

def databaseService : Service := ⟨2, 1, "db", "Database", "production", "operational", true, false⟩

/-- The default priority. -/
def p3 : GroupPriority := ⟨none, "p3", 3, false⟩

def webAlerts : AlertGroup :=
  ⟨1, some 1, some 1, "Web is slow", some "critical", p3, .firing, none, 0⟩

def databaseAlerts : AlertGroup :=
  ⟨2, some 1, some 2, "Database is down", some "critical", p3, .firing, none, 0⟩

/-- The web service needs the database, and both have alerts. -/
def webAndDatabase : Catalog where
  teams := [⟨1, some 1, true, false⟩]
  services := [webService, databaseService]
  dependencies := [⟨1, 1, 2, "hard", "critical", true, 300, true, false⟩]
  groups := [webAlerts, databaseAlerts]
  businessServices := []
  components := []
  businessServices_key := List.nodup_nil

def noRecords : Records := ⟨KeyTable.empty, []⟩

/-- The refreshes of the two groups undo each other. -/
theorem refreshes_undo : ¬Stable webAndDatabase noRecords := by
  intro h
  have hnone := agree_iff.mp h.agree webAlerts (by decide)
  have hone : (correlated webAndDatabase webAlerts).length = 1 := by decide +kernel
  rw [hnone] at hone
  cases hone

end IncidentRelay.Services
