import IncidentRelay.Alerts.Effects
import IncidentRelay.Lib.Pairwise

/-!
# What writing an event does to the groups

The intake works on one group at a time. The rows of other groups and their children
stay as they are, no alert leaves its group, and the call ends with a recalculation.
`persistEvent_spec` says this once; what holds of counters and merged groups follows
from it.
-/

namespace IncidentRelay.Alerts

open Json

/-! ## Alerts -/

/-- What an alert keeps from its creation on. -/
def Alert.occurrence (a : Alert) : ℕ × String × Json × String × Instant :=
  (a.id, a.source, a.externalId, a.dedupKey, a.firstSeenAt)

/-- An alert that is not resolved has not been resolved before. -/
def Alert.Clean (a : Alert) : Prop := a.status ≠ .resolved → a.previousStatus ≠ some .resolved

/-- The same occurrence in the same group. -/
structure Rewritten (a a' : Alert) : Prop where
  occurrence : a'.occurrence = a.occurrence
  group : a'.group = a.group
  clean : a.Clean → a'.Clean

/-- It is as resolved as before. -/
structure Tended (a a' : Alert) : Prop extends Rewritten a a' where
  resolved : a.Clean → (a'.status = .resolved ↔ a.status = .resolved)

theorem Rewritten.trans {a b c : Alert} (h : Rewritten a b) (h' : Rewritten b c) :
    Rewritten a c :=
  ⟨h'.occurrence.trans h.occurrence, h'.group.trans h.group, h'.clean ∘ h.clean⟩

theorem Rewritten.id {a b : Alert} (h : Rewritten a b) : b.id = a.id :=
  congrArg Prod.fst h.occurrence

theorem Tended.trans {a b c : Alert} (h : Tended a b) (h' : Tended b c) : Tended a c :=
  ⟨h.toRewritten.trans h'.toRewritten,
    fun hclean => (h'.resolved (h.clean hclean)).trans (h.resolved hclean)⟩

/-- Only children of the group are changed, and as the relation allows. -/
def ChildrenOnly (R : Alert → Alert → Prop) (n : ℕ) : List Alert → List Alert → Prop :=
  List.Forall₂ fun a a' => a' = a ∨ (a.group = some n ∧ R a a')

namespace ChildrenOnly

variable {R R' : Alert → Alert → Prop} {n : ℕ} {as bs cs : List Alert}

theorem refl (as : List Alert) : ChildrenOnly R n as as :=
  List.forall₂_same.mpr fun _ _ => .inl rfl

theorem mono (hR : ∀ {a b}, R a b → R' a b) (h : ChildrenOnly R n as bs) :
    ChildrenOnly R' n as bs :=
  List.Forall₂.imp (fun _ _ hab => hab.imp_right fun hab => ⟨hab.1, hR hab.2⟩) h

theorem trans (hR : ∀ {a b c}, R a b → R b c → R a c) (h : ChildrenOnly R n as bs)
    (h' : ChildrenOnly R n bs cs) : ChildrenOnly R n as cs := by
  refine Rows.trans h h' ?_
  rintro a b c (rfl | ⟨hchild, hab⟩) hbc
  · exact hbc
  · rcases hbc with rfl | ⟨-, hbc⟩
    · exact .inr ⟨hchild, hab⟩
    · exact .inr ⟨hchild, hR hab hbc⟩

/-- An update that is confined to the children by its guard. -/
theorem update {guard : Alert → Bool} {set : Alert → Alert}
    (h : ∀ a ∈ as, guard a = true → a.group = some n ∧ R a (set a)) :
    ChildrenOnly R n as (Table.update guard set as) := by
  refine List.forall₂_map_right_iff.mpr (List.forall₂_same.mpr ?_)
  intro a ha
  split_ifs with hguard
  · exact .inr (h a ha hguard)
  · exact .inl rfl

/-- The pairs of two lists one behind the other. -/
theorem of_append (h : ChildrenOnly R n (as ++ bs) cs) :
    ∃ cs₁ cs₂, cs = cs₁ ++ cs₂ ∧ ChildrenOnly R n as cs₁ ∧ ChildrenOnly R n bs cs₂ := by
  induction as generalizing cs with
  | nil => exact ⟨[], cs, rfl, .nil, h⟩
  | cons a as ih =>
    cases h with
    | cons hab hrest =>
      obtain ⟨cs₁, cs₂, rfl, h₁, h₂⟩ := ih hrest
      exact ⟨_ :: cs₁, cs₂, rfl, .cons hab h₁, h₂⟩

/-- The alerts are told apart as before. -/
theorem map_occurrence (h : ChildrenOnly Rewritten n as bs) :
    bs.map Alert.occurrence = as.map Alert.occurrence := by
  refine Rows.map_eq h ?_
  rintro a b (rfl | ⟨-, hab⟩)
  · rfl
  · exact hab.occurrence

/-- The children of other groups are the same. -/
theorem filter_eq (hgroup : ∀ {a b}, R a b → b.group = a.group) (h : ChildrenOnly R n as bs)
    {m : ℕ} (hm : m ≠ n) : bs.filter (Store.childOf m) = as.filter (Store.childOf m) := by
  induction h with
  | nil => rfl
  | @cons a b _ _ hab _ ih =>
    rcases hab with rfl | ⟨hchild, hab⟩
    · rw [List.filter_cons, List.filter_cons, ih]
    · have hother : ∀ {c : Alert}, c.group = some n → Store.childOf m c = false := by
        intro c hc
        refine decide_eq_false fun hmc => hm ?_
        exact Option.some.inj (hmc.symm.trans hc)
      rw [List.filter_cons, List.filter_cons, hother hchild, hother ((hgroup hab).trans hchild)]
      exact ih

end ChildrenOnly

/-! ## Groups -/

/-- Only the row of the group is changed. -/
def RowOnly (n : ℕ) : List AlertGroup → List AlertGroup → Prop :=
  List.Forall₂ fun g g' => g'.id = g.id ∧ (g.id ≠ n → g' = g)

theorem RowOnly.refl (n : ℕ) (gs : List AlertGroup) : RowOnly n gs gs :=
  List.forall₂_same.mpr fun _ _ => ⟨rfl, fun _ => rfl⟩

theorem RowOnly.trans {n : ℕ} {gs hs ks : List AlertGroup} (h : RowOnly n gs hs)
    (h' : RowOnly n hs ks) : RowOnly n gs ks := by
  induction h generalizing ks with
  | nil => exact h'
  | cons hab _ ih =>
    cases h' with
    | cons hbc hrest =>
      refine .cons ⟨hbc.1.trans hab.1, fun hne => ?_⟩ (ih hrest)
      rw [hbc.2 (by rwa [hab.1]), hab.2 hne]

/-- Saving a group writes its own row. -/
theorem RowOnly.save (s : Store) (g : AlertGroup) :
    RowOnly g.id s.groups.rows (s.saveGroup g).groups.rows := by
  refine List.forall₂_map_right_iff.mpr (List.forall₂_same.mpr ?_)
  intro r _
  dsimp only
  by_cases hid : r.id = g.id
  · rw [if_pos (decide_eq_true hid), if_pos hid]
    exact ⟨hid.symm, fun hne => absurd hid hne⟩
  · rw [if_neg (by simpa using hid)]
    exact ⟨rfl, fun _ => rfl⟩

/-- The other rows are the same ones. -/
theorem RowOnly.mem_iff {n : ℕ} {gs hs : List AlertGroup} (h : RowOnly n gs hs) {r : AlertGroup}
    (hr : r.id ≠ n) : r ∈ hs ↔ r ∈ gs := by
  induction h with
  | nil => exact Iff.rfl
  | @cons a b _ _ hab _ ih =>
    rw [List.mem_cons, List.mem_cons, ih]
    by_cases ha : a.id = n
    · have hra : r ≠ a := fun heq => hr (heq ▸ ha)
      have hrb : r ≠ b := fun heq => hr (by rw [heq, hab.1, ha])
      simp only [hra, hrb, false_or]
    · rw [hab.2 ha]

/-- A group that is resolved has no other children. -/
def Honest (s : Store) (g : AlertGroup) : Prop :=
  g.status = .resolved → ∀ a ∈ s.children g.id, a.status = .resolved

/-- A group that is not resolved, and has a child that is not where it has any. -/
def Live (s : Store) (g : AlertGroup) : Prop :=
  g.status ≠ .resolved ∧ (s.children g.id = [] ∨ ∃ a ∈ s.children g.id, a.status ≠ .resolved)

/-- A group with children is resolved when they are. -/
def Faithful (s : Store) (g : AlertGroup) : Prop :=
  s.children g.id ≠ [] → (g.status = .resolved ↔ ∀ a ∈ s.children g.id, a.status = .resolved)

/-- The counters are those of the children. -/
structure Balanced (s : Store) (g : AlertGroup) : Prop where
  alertCount : g.alertCount = (s.children g.id).length
  firingCount : g.firingCount = Store.countStatus .firing (s.children g.id)
  acknowledgedCount : g.acknowledgedCount = Store.countStatus .acknowledged (s.children g.id)
  resolvedCount : g.resolvedCount = Store.countStatus .resolved (s.children g.id)
  silencedCount : g.silencedCount = Store.countStatus .silenced (s.children g.id)
  faithful : Faithful s g

/-- `_original_status_for_group(group, …)` is never one of a closed group. -/
def Services.RestoresOpen (env : Services) : Prop := ∀ s g, env.originalStatus s g ≠ .resolved

/-- The work on the row of a group and on its children. What it may rely on is `P`. -/
structure Works (P : Prop) (s : Store) (g : AlertGroup) (t : Store) (g' : AlertGroup) :
    Prop where
  stored : g ∈ s.groups.rows → g' ∈ t.groups.rows
  id : g'.id = g.id
  mergedInto : g'.mergedInto = g.mergedInto
  alerts : ChildrenOnly Tended g.id s.alerts.rows t.alerts.rows
  groups : RowOnly g.id s.groups.rows t.groups.rows
  honest : P → (∀ a ∈ s.alerts.rows, a.Clean) → Honest s g → Honest t g'
  live : P → (∀ a ∈ s.alerts.rows, a.Clean) → Live s g → g'.status ≠ .resolved

theorem mem_children {s : Store} {n : ℕ} {a : Alert} :
    a ∈ s.children n ↔ a ∈ s.alerts.rows ∧ a.group = some n := by
  unfold Store.children Store.childOf
  rw [List.mem_filter, decide_eq_true_iff]

/-- The alerts after an update: those the guard lets through are rewritten, the others stay. -/
theorem mem_updateAlerts {s : Store} {guard : Alert → Bool} {set : Alert → Alert}
    {hset : ∀ a, (set a).id = a.id} {a : Alert} :
    a ∈ (s.updateAlerts guard set hset).alerts.rows ↔ ∃ a₀ ∈ s.alerts.rows,
      (guard a₀ = true ∧ a = set a₀) ∨ (guard a₀ = false ∧ a = a₀) :=
  @IdTable.mem_update _ _ _ _ _ hset _

/-- An update that moves no alert rewrites the children of each group in place. -/
theorem children_updateAlerts {s : Store} {guard : Alert → Bool} {set : Alert → Alert}
    (hset : ∀ a, (set a).id = a.id) (hgroup : ∀ a, (set a).group = a.group) (n : ℕ) :
    (s.updateAlerts guard set hset).children n =
      (s.children n).map fun a => if guard a then set a else a := by
  show (s.alerts.rows.map _).filter _ = (s.alerts.rows.filter _).map _
  rw [List.filter_map]
  congr 1
  apply List.filter_congr
  intro a _
  show Store.childOf n (if guard a then set a else a) = _
  unfold Store.childOf
  split_ifs
  · rw [hgroup]
  · rfl

namespace Works

variable {P : Prop} {s t u : Store} {g g' g'' : AlertGroup}

/-- Work keeps what makes an alert clean. -/
theorem clean (h : Works P s g t g') (hclean : ∀ a ∈ s.alerts.rows, a.Clean) :
    ∀ a ∈ t.alerts.rows, a.Clean := by
  intro b hb
  obtain ⟨a, ha, rfl | ⟨-, hab⟩⟩ := Rows.exists_left h.alerts hb
  · exact hclean _ ha
  · exact hab.clean (hclean a ha)

theorem refl (s : Store) (g : AlertGroup) : Works P s g s g :=
  ⟨fun h => h, rfl, rfl, .refl _, .refl _ _, fun _ _ h => h, fun _ _ h => h.1⟩

/-- A child that is not resolved stays so, and a group without children has none. -/
theorem stays_live (h : Works P s g t g') (hP : P)
    (hclean : ∀ a ∈ s.alerts.rows, a.Clean) (hlive : Live s g) : Live t g' := by
  refine ⟨h.live hP hclean hlive, ?_⟩
  rcases hlive.2 with hempty | ⟨a, ha, hopen⟩
  · refine .inl (List.eq_nil_iff_forall_not_mem.mpr fun b hb => ?_)
    obtain ⟨hmem, hgroup⟩ := mem_children.mp hb
    obtain ⟨a, ha, hab⟩ := Rows.exists_left h.alerts hmem
    have hchild : a.group = some g.id := by
      rcases hab with rfl | ⟨hchild, -⟩
      · rw [hgroup, h.id]
      · exact hchild
    have hold := mem_children.mpr ⟨ha, hchild⟩
    rw [hempty] at hold
    cases hold
  · obtain ⟨hmem, hgroup⟩ := mem_children.mp ha
    obtain ⟨b, hb, rfl | ⟨-, hab⟩⟩ := Rows.exists_right h.alerts hmem
    · exact .inr ⟨b, mem_children.mpr ⟨hb, by rw [hgroup, h.id]⟩, hopen⟩
    · refine .inr ⟨b, mem_children.mpr ⟨hb, by rw [hab.group, hgroup, h.id]⟩, ?_⟩
      exact fun hresolved => hopen ((hab.resolved (hclean a hmem)).mp hresolved)

theorem trans (h : Works P s g t g') (h' : Works P t g' u g'') : Works P s g u g'' where
  stored hg := h'.stored (h.stored hg)
  id := h'.id.trans h.id
  mergedInto := h'.mergedInto.trans h.mergedInto
  alerts := h.alerts.trans Tended.trans (h.id ▸ h'.alerts)
  groups := h.groups.trans (h.id ▸ h'.groups)
  honest hP hclean hg := h'.honest hP (h.clean hclean) (h.honest hP hclean hg)
  live hP hclean hg := h'.live hP (h.clean hclean) (h.stays_live hP hclean hg)

/-- A group may write its own row, as long as it does not close while it has to stay open. -/
theorem saveGroup (hid : g'.id = g.id) (hmerged : g'.mergedInto = g.mergedInto)
    (hstatus : P → g'.status = .resolved → g.status = .resolved) :
    Works P s g (s.saveGroup g') g' where
  stored hg := IdTable.mem_save.mpr (.inr ⟨rfl, g, hg, hid.symm⟩)
  id := hid
  mergedInto := hmerged
  alerts := .refl _
  groups := hid ▸ .save s g'
  honest hP _ hg hresolved := by
    rw [hid]
    exact hg (hstatus hP hresolved)
  live hP _ hg hresolved := hg.1 (hstatus hP hresolved)

/-- A group may rewrite its own children. -/
theorem updateAlerts {guard : Alert → Bool} {set : Alert → Alert} (hset : ∀ a, (set a).id = a.id)
    (h : ∀ a, guard a = true → a.group = some g.id ∧ Tended a (set a)) :
    Works P s g (s.updateAlerts guard set hset) g where
  stored hg := hg
  id := rfl
  mergedInto := rfl
  alerts := .update fun a _ => h a
  groups := .refl _ _
  honest _ hclean hg hresolved a ha := by
    obtain ⟨hmem, hgroup⟩ := mem_children.mp ha
    obtain ⟨a₀, ha₀, ⟨hguard, rfl⟩ | ⟨-, rfl⟩⟩ := mem_updateAlerts.mp hmem
    · have hold := mem_children.mpr ⟨ha₀, (h a₀ hguard).1⟩
      exact ((h a₀ hguard).2.resolved (hclean a₀ ha₀)).mpr (hg hresolved a₀ hold)
    · exact hg hresolved a (mem_children.mpr ⟨ha₀, hgroup⟩)
  live _ _ hg := hg.1

end Works

/-! ## Recalculation -/

section Recalculation

variable (alerts : List Alert) (now : Instant) (g : AlertGroup)

/-- The status is all that a derived status changes, apart from what is stamped with it. -/
theorem effectiveStatus_keeps : (Store.effectiveStatus alerts now g).id = g.id ∧
    (Store.effectiveStatus alerts now g).mergedInto = g.mergedInto ∧
    (Store.effectiveStatus alerts now g).alertCount = g.alertCount ∧
    (Store.effectiveStatus alerts now g).firingCount = g.firingCount ∧
    (Store.effectiveStatus alerts now g).acknowledgedCount = g.acknowledgedCount ∧
    (Store.effectiveStatus alerts now g).resolvedCount = g.resolvedCount ∧
    (Store.effectiveStatus alerts now g).silencedCount = g.silencedCount := by
  unfold Store.effectiveStatus Store.reopenedFields
  split_ifs <;> exact ⟨rfl, rfl, rfl, rfl, rfl, rfl, rfl⟩

/-- The summary of a group leaves its identity and its status alone. -/
theorem summarize_keeps : (Store.summarize alerts g).id = g.id ∧
    (Store.summarize alerts g).mergedInto = g.mergedInto ∧
    (Store.summarize alerts g).status = g.status := by
  unfold Store.summarize
  split <;> exact ⟨rfl, rfl, rfl⟩

theorem recalculated_id : (Store.recalculated alerts now g).id = g.id :=
  (effectiveStatus_keeps alerts now _).1.trans (summarize_keeps alerts g).1

theorem recalculated_mergedInto : (Store.recalculated alerts now g).mergedInto = g.mergedInto :=
  (effectiveStatus_keeps alerts now _).2.1.trans (summarize_keeps alerts g).2.1

theorem allResolved_iff :
    Store.allResolved alerts = true ↔ alerts ≠ [] ∧ ∀ a ∈ alerts, a.status = .resolved := by
  simp [Store.allResolved]

/-- No child has a status that the recalculation looks for, but for `resolved`. -/
def Overlooked (alerts : List Alert) : Prop :=
  ∀ a ∈ alerts, a.status ≠ .firing ∧ a.status ≠ .silenced ∧ a.status ≠ .acknowledged

theorem countStatus_pos {status : Status} :
    0 < Store.countStatus status alerts ↔ ∃ a ∈ alerts, a.status = status := by
  simp [Store.countStatus, List.countP_pos_iff]

/-- The counts that the status is derived from miss the children exactly when none of them is
positive. -/
theorem overlooked_iff : Overlooked alerts ↔ ¬0 < Store.countStatus .firing alerts ∧
    ¬0 < Store.countStatus .silenced alerts ∧ ¬0 < Store.countStatus .acknowledged alerts := by
  simp only [countStatus_pos]
  unfold Overlooked
  constructor
  · intro h
    exact ⟨fun ⟨a, ha, hs⟩ => (h a ha).1 hs, fun ⟨a, ha, hs⟩ => (h a ha).2.1 hs,
      fun ⟨a, ha, hs⟩ => (h a ha).2.2 hs⟩
  · rintro ⟨hf, hs, hack⟩ a ha
    exact ⟨fun h => hf ⟨a, ha, h⟩, fun h => hs ⟨a, ha, h⟩, fun h => hack ⟨a, ha, h⟩⟩

/-- A group is resolved when its children are, and where it was resolved and no child has
a status that is looked for. -/
theorem recalculated_resolved_iff : (Store.recalculated alerts now g).status = .resolved ↔
    Store.allResolved alerts = true ∨ (g.status = .resolved ∧ Overlooked alerts) := by
  have hstatus := (summarize_keeps alerts g).2.2
  rw [overlooked_iff]
  show (Store.effectiveStatus alerts now _).status = .resolved ↔ _
  unfold Store.effectiveStatus Store.reopenedFields
  by_cases hempty : alerts.isEmpty
  · obtain rfl := List.isEmpty_iff.mp hempty
    simpa [Store.allResolved, Store.countStatus] using by rw [hstatus]
  · rw [if_neg hempty]
    by_cases hall : Store.allResolved alerts = true
    · simp [hall]
    · rw [if_neg hall]
      split_ifs with hf hack hs ha <;> simp_all

end Recalculation

theorem childOf_iff {n : ℕ} {a : Alert} : Store.childOf n a = true ↔ a.group = some n :=
  decide_eq_true_iff

section Group

variable {P : Prop} (env : Services) (s : Store) (g : AlertGroup) (now : Instant)

/-- **A recalculation works on its group**: it restamps the children that the status silences or
releases, and writes the row once. -/
theorem works_recalculate :
    Works P s g (s.recalculateAlertGroup g now).1 (s.recalculateAlertGroup g now).2 := by
  -- the group that is saved is the recounted one, whatever was done to its alerts before
  have hsave : ∀ t : Store, t.children g.id = s.children g.id ∨
      (Store.allResolved (s.children g.id) = true ∧ t.children g.id ≠ [] ∧
        ∀ a ∈ t.children g.id, a.status = .resolved) →
      Works P t g (t.saveGroup (Store.recalculated (s.children g.id) now g))
        (Store.recalculated (s.children g.id) now g) := by
    intro t ht
    refine
      { stored := fun hg => IdTable.mem_save.mpr
          (.inr ⟨rfl, g, hg, (recalculated_id _ now g).symm⟩)
        id := recalculated_id _ now g
        mergedInto := recalculated_mergedInto _ now g
        alerts := .refl _
        groups := ?_
        honest := ?_
        live := ?_ }
    · have hrow := RowOnly.save t (Store.recalculated (s.children g.id) now g)
      rwa [recalculated_id] at hrow
    -- it is resolved only when all its alerts are, or when it was
    · intro _ _ hg hresolved
      rw [recalculated_id]
      rcases ht with ht | ht
      · rcases (recalculated_resolved_iff _ now g).mp hresolved with hall | ⟨hstatus, -⟩
        · intro a ha
          have ha : a ∈ t.children g.id := ha
          rw [ht] at ha
          exact ((allResolved_iff _).mp hall).2 a ha
        · exact hg hstatus
      · exact ht.2.2
    · intro _ _ hg hresolved
      rcases (recalculated_resolved_iff _ now g).mp hresolved with hall | ⟨hstatus, -⟩
      · obtain ⟨hsome, hall⟩ := (allResolved_iff _).mp hall
        rcases ht with ht | ⟨-, hsome', hall'⟩
        · rw [← ht] at hsome hall
          rcases hg.2 with hempty | ⟨a, ha, hopen⟩
          · exact hsome hempty
          · exact hopen (hall a ha)
        · rcases hg.2 with hempty | ⟨a, ha, hopen⟩
          · exact hsome' hempty
          · exact hopen (hall' a ha)
      · exact hg.1 hstatus
  unfold Store.recalculateAlertGroup
  dsimp only
  -- where all alerts are resolved, those without an end are given one first
  split_ifs with hall
  · refine (Works.updateAlerts _ ?_).trans (hsave _ (.inr ⟨hall, ?_, ?_⟩))
    · intro a hguard
      exact ⟨childOf_iff.mp (Bool.and_eq_true_iff.mp hguard).1, ⟨rfl, rfl, fun h => h⟩,
        fun _ => Iff.rfl⟩
    · intro hempty
      rw [children_updateAlerts, List.map_eq_nil_iff] at hempty
      · exact ((allResolved_iff _).mp hall).1 hempty
      · exact fun _ => rfl
    · intro a ha
      obtain ⟨hmem, hgroup⟩ := mem_children.mp ha
      obtain ⟨a₀, ha₀, ⟨-, rfl⟩ | ⟨-, rfl⟩⟩ := mem_updateAlerts.mp hmem
      · exact ((allResolved_iff _).mp hall).2 a₀ (mem_children.mpr ⟨ha₀, hgroup⟩)
      · exact ((allResolved_iff _).mp hall).2 a (mem_children.mpr ⟨ha₀, hgroup⟩)
  · exact hsave s (.inl rfl)

/-- Restoring the children is work on them alone. -/
theorem works_restoreChildren : Works P s g (restoreChildren s g.id) g := by
  unfold restoreChildren
  dsimp only
  refine (Works.updateAlerts _ ?_).trans (Works.updateAlerts _ ?_)
  · intro a hguard
    obtain ⟨hguard, hprevious⟩ := Bool.and_eq_true_iff.mp hguard
    obtain ⟨hchild, hmaintenance⟩ := Bool.and_eq_true_iff.mp hguard
    have hstatus : a.status = .maintenance := of_decide_eq_true hmaintenance
    obtain ⟨previous, hprevious⟩ := Option.isSome_iff_exists.mp hprevious
    refine ⟨childOf_iff.mp hchild, ⟨rfl, rfl, fun _ _ => by simp⟩, ?_⟩
    intro hclean
    have hopen : a.status ≠ .resolved := by simp [hstatus]
    have hne := hclean hopen
    simpa [hprevious, hstatus] using hne
  · intro a hguard
    obtain ⟨hchild, hmaintenance⟩ := Bool.and_eq_true_iff.mp hguard
    have hstatus : a.status = .maintenance := of_decide_eq_true hmaintenance
    refine ⟨childOf_iff.mp hchild, ⟨rfl, rfl, fun hclean _ => hclean (by simp [hstatus])⟩, ?_⟩
    simp [hstatus]

/-- So is everything that maintenance does to a group; it resolves nothing as long as the
restored statuses are open ones. -/
theorem works_recompute (behaviors : List Behavior) :
    Works env.RestoresOpen s g (recomputeGroupEffects env s g behaviors now).1
      (recomputeGroupEffects env s g behaviors now).2 := by
  unfold recomputeGroupEffects
  dsimp only
  -- some behaviour holds the group: its open alerts are suppressed
  split
  · refine (Works.updateAlerts _ ?_).trans (Works.saveGroup rfl rfl ?_)
    · intro a hguard
      obtain ⟨hguard, -⟩ := Bool.and_eq_true_iff.mp hguard
      obtain ⟨hchild, hopen⟩ := Bool.and_eq_true_iff.mp hguard
      have hopen : a.status ≠ .resolved := of_decide_eq_true hopen
      refine ⟨childOf_iff.mp hchild, ⟨rfl, rfl, fun _ _ => ?_⟩, fun _ => ?_⟩
      · simpa using hopen
      · simpa using hopen
    · intro _ hresolved
      cases hresolved
  -- none does: what was suppressed is restored, and the group is counted again
  · split
    · have hrestored : Works env.RestoresOpen (restoreChildren s g.id) g ((restoreChildren s g.id).saveGroup
          { g with status := env.originalStatus s g, resolvedAt := none, resolvedBy := none })
          { g with status := env.originalStatus s g, resolvedAt := none, resolvedBy := none } :=
        Works.saveGroup rfl rfl fun henv hresolved => absurd hresolved (henv s g)
      refine (((works_restoreChildren s g).trans hrestored).trans
        (works_recalculate _ _ now)).trans (Works.saveGroup ?_ ?_ ?_)
      · split_ifs <;> rfl
      · split_ifs <;> rfl
      · intro _ hresolved
        split_ifs at hresolved
        exact hresolved
    · exact Works.saveGroup rfl rfl fun _ h => h

/-- A resolved group is left alone. -/
theorem recompute_of_resolved (behaviors : List Behavior) (h : g.status = .resolved) :
    (recomputeGroupEffects env s g behaviors now).1.alerts = s.alerts ∧
      (recomputeGroupEffects env s g behaviors now).2.status = .resolved := by
  unfold recomputeGroupEffects
  rw [if_neg (fun hb => hb.2 h), if_neg (by simp [h])]
  exact ⟨rfl, h⟩

/-- Maintenance has nothing to do with a group that is resolved. -/
theorem reconcile_of_resolved (h : g.status = .resolved) :
    (reconcileMaintenance env s g now).1.alerts = s.alerts ∧
      (reconcileMaintenance env s g now).2.status = .resolved := by
  unfold reconcileMaintenance
  generalize env.activeBehaviors s g now = windows
  induction windows generalizing s g with
  | nil => exact ⟨rfl, h⟩
  | cons behaviors windows ih =>
    rw [List.foldl_cons]
    obtain ⟨halerts, hstatus⟩ := recompute_of_resolved env s g now behaviors h
    obtain ⟨halerts', hstatus'⟩ := ih _ _ hstatus
    exact ⟨halerts'.trans halerts, hstatus'⟩

/-- By induction on the windows that apply. -/
theorem works_reconcile :
    Works env.RestoresOpen s g (reconcileMaintenance env s g now).1 (reconcileMaintenance env s g now).2 := by
  unfold reconcileMaintenance
  generalize env.activeBehaviors s g now = windows
  induction windows generalizing s g with
  | nil => exact .refl s g
  | cons behaviors windows ih =>
    rw [List.foldl_cons]
    exact (works_recompute env s g now behaviors).trans (ih _ _)

end Group

/-! ## Balance -/

section Balance

variable {s : Store} {g : AlertGroup}

/-- A count looks at the statuses only. -/
theorem countStatus_statuses {status : Status} {alerts : List Alert} :
    Store.countStatus status alerts = (alerts.map (·.status)).countP fun t => t = status := by
  unfold Store.countStatus
  rw [List.countP_map]
  rfl

theorem all_resolved_statuses {alerts : List Alert} :
    (∀ a ∈ alerts, a.status = .resolved) ↔ ∀ t ∈ alerts.map (·.status), t = .resolved := by
  simp

/-- The statuses of the children are all that counts. -/
theorem Balanced.of_statuses {t : Store}
    (hchildren : (t.children g.id).map (·.status) = (s.children g.id).map (·.status))
    (h : Balanced s g) : Balanced t g where
  alertCount := by
    have hlength := congrArg List.length hchildren
    rw [List.length_map, List.length_map] at hlength
    rw [h.alertCount, hlength]
  firingCount := by rw [h.firingCount, countStatus_statuses, countStatus_statuses, hchildren]
  acknowledgedCount := by
    rw [h.acknowledgedCount, countStatus_statuses, countStatus_statuses, hchildren]
  resolvedCount := by rw [h.resolvedCount, countStatus_statuses, countStatus_statuses, hchildren]
  silencedCount := by rw [h.silencedCount, countStatus_statuses, countStatus_statuses, hchildren]
  faithful hsome := by
    have hsome' : s.children g.id ≠ [] := by
      intro hempty
      rw [hempty, List.map_nil, List.map_eq_nil_iff] at hchildren
      exact hsome hchildren
    rw [all_resolved_statuses, hchildren, ← all_resolved_statuses]
    exact h.faithful hsome'

/-- A stamp of the resolved children shows in no counter. -/
theorem Balanced.of_map {t : Store} {f : Alert → Alert} (hf : ∀ a, (f a).status = a.status)
    (hchildren : t.children g.id = (s.children g.id).map f) (h : Balanced s g) : Balanced t g := by
  refine h.of_statuses ?_
  rw [hchildren, List.map_map]
  exact List.map_congr_left fun a _ => hf a

/-- **A recalculated group is balanced**, unless it was resolved and no child of it has a
status that the recalculation looks for. -/
theorem balanced_recalculate (now : Instant)
    (h : g.status = .resolved → Overlooked (s.children g.id) →
      ∀ a ∈ s.children g.id, a.status = .resolved) :
    Balanced (s.recalculateAlertGroup g now).1 (s.recalculateAlertGroup g now).2 := by
  have hid : (Store.recalculated (s.children g.id) now g).id = g.id := recalculated_id _ now g
  have hcounted : Balanced s (Store.recalculated (s.children g.id) now g) := by
    have hkeeps := effectiveStatus_keeps (s.children g.id) now
    -- the counts are those of the alerts, and the status is resolved when all are
    refine
      { alertCount := ?_, firingCount := ?_, acknowledgedCount := ?_, resolvedCount := ?_
        silencedCount := ?_, faithful := ?_ }
    · rw [hid]
      exact (hkeeps _).2.2.1
    · rw [hid]
      exact (hkeeps _).2.2.2.1
    · rw [hid]
      exact (hkeeps _).2.2.2.2.1
    · rw [hid]
      exact (hkeeps _).2.2.2.2.2.1
    · rw [hid]
      exact (hkeeps _).2.2.2.2.2.2
    · intro hsome
      rw [hid] at hsome ⊢
      rw [recalculated_resolved_iff, allResolved_iff]
      constructor
      · rintro (⟨-, hall⟩ | ⟨hstatus, hoverlooked⟩)
        · exact hall
        · exact h hstatus hoverlooked
      · exact fun hall => .inl ⟨hsome, hall⟩
  unfold Store.recalculateAlertGroup
  dsimp only
  split_ifs with hall
  -- giving an end to resolved alerts does not change what is counted
  · refine hcounted.of_map (f := fun a => if Store.childOf g.id a && a.resolvedAt.isNone then
      { a with resolvedAt := some now } else a) (fun a => ?_) ?_
    · split_ifs <;> rfl
    · refine children_updateAlerts ?_ ?_ _
      · exact fun _ => rfl
      · exact fun _ => rfl
  · exact hcounted.of_map (f := id) (fun _ => rfl) (List.map_id (s.children _)).symm

/-- The exception is one. -/
theorem balanced_recalculate_iff (now : Instant) :
    Balanced (s.recalculateAlertGroup g now).1 (s.recalculateAlertGroup g now).2 ↔
      (g.status = .resolved → Overlooked (s.children g.id) →
        ∀ a ∈ s.children g.id, a.status = .resolved) := by
  refine ⟨fun hbalanced hresolved hoverlooked => ?_, balanced_recalculate now⟩
  by_cases hall : Store.allResolved (s.children g.id) = true
  · exact ((allResolved_iff _).mp hall).2
  · have hfaithful := hbalanced.faithful
    unfold Store.recalculateAlertGroup Faithful at hfaithful
    dsimp only at hfaithful
    rw [if_neg hall, recalculated_id] at hfaithful
    change s.children g.id ≠ [] → _ at hfaithful
    intro a ha
    refine (hfaithful (List.ne_nil_of_mem ha)).mp ?_ a ha
    exact (recalculated_resolved_iff _ now g).mpr (.inr ⟨hresolved, hoverlooked⟩)

/-- A group that is faithful or open is one that a recalculation gets right. -/
theorem Faithful.honest (h : Faithful s g) : Honest s g := by
  intro hresolved a ha
  exact (h (List.ne_nil_of_mem ha)).mp hresolved a ha

/-- An open group with right columns has an open child. -/
theorem Faithful.live (h : Faithful s g) (hopen : g.status ≠ .resolved) : Live s g := by
  refine ⟨hopen, ?_⟩
  by_cases hempty : s.children g.id = []
  · exact .inl hempty
  · refine .inr ?_
    by_contra hnone
    push Not at hnone
    exact hopen ((h hempty).mpr hnone)

end Balance

/-! ## The event -/

/-- Every alert has a group. -/
def Grouped (s : Store) : Prop := ∀ a ∈ s.alerts.rows, ∃ g ∈ s.groups.rows, a.group = some g.id

/-- The alert that a call created. -/
def Outcome.createdAlerts : Outcome → List ℕ
  | .completed _ alert true => [alert]
  | _ => []

/-- One group and its children are worked on. -/
structure EventSpec (env : Services) (s t : Store) (n : ℕ) (created : List ℕ) : Prop where
  alerts : ∃ old new, t.alerts.rows = old ++ new ∧ ChildrenOnly Rewritten n s.alerts.rows old ∧
    new.map (·.id) = created ∧ ∀ a ∈ new, a.group = some n ∧ a.Clean
  others : ∀ r : AlertGroup, r.id ≠ n → (r ∈ t.groups.rows ↔ r ∈ s.groups.rows)
  owner : created = [] → ∃ a ∈ s.alerts.rows, a.group = some n
  group : ∃ g ∈ t.groups.rows, g.id = n ∧
    (∀ r ∈ s.groups.rows, r.id = n → g.mergedInto = r.mergedInto) ∧
    (created ≠ [] → g.mergedInto = none) ∧
    (env.RestoresOpen → (∀ a ∈ s.alerts.rows, a.Clean) →
      (∀ r ∈ s.groups.rows, r.id = n → Faithful s r) → Balanced t g)

namespace EventSpec

variable {env : Services} {s t : Store} {n : ℕ} {created : List ℕ}

/-- Where the alerts of an event come from: they were there, rewritten at most, or they are the
ones it created. -/
theorem mem_alerts (h : EventSpec env s t n created) {b : Alert} (hb : b ∈ t.alerts.rows) :
    (∃ a ∈ s.alerts.rows, b = a ∨ (a.group = some n ∧ Rewritten a b)) ∨
      (created ≠ [] ∧ b.group = some n ∧ b.Clean) := by
  obtain ⟨old, new, hrows, hold, rfl, hnew⟩ := h.alerts
  rw [hrows] at hb
  rcases List.mem_append.mp hb with hb | hb
  · exact .inl (Rows.exists_left hold hb)
  · refine .inr ⟨fun hnil => ?_, hnew b hb⟩
    rw [List.map_eq_nil_iff] at hnil
    rw [hnil] at hb
    cases hb

/-- An event leaves every alert clean. -/
theorem clean (h : EventSpec env s t n created) (hclean : ∀ a ∈ s.alerts.rows, a.Clean) :
    ∀ b ∈ t.alerts.rows, b.Clean := by
  intro b hb
  obtain ⟨a, ha, rfl | ⟨-, hab⟩⟩ | ⟨-, -, hb⟩ := h.mem_alerts hb
  · exact hclean _ ha
  · exact hab.clean (hclean a ha)
  · exact hb

/-- An alert of another group is one of before. -/
theorem mem_other (h : EventSpec env s t n created) {b : Alert} (hb : b ∈ t.alerts.rows)
    (hn : b.group ≠ some n) : b ∈ s.alerts.rows := by
  obtain ⟨a, ha, rfl | ⟨hchild, hab⟩⟩ | ⟨-, hgroup, -⟩ := h.mem_alerts hb
  · exact ha
  · exact absurd (hab.group.trans hchild) hn
  · exact absurd hgroup hn

/-- The children of another group are the same. -/
theorem children_other (h : EventSpec env s t n created) {m : ℕ} (hm : m ≠ n) :
    t.children m = s.children m := by
  obtain ⟨old, new, hrows, hold, -, hnew⟩ := h.alerts
  unfold Store.children
  rw [hrows, List.filter_append, hold.filter_eq (fun hab => hab.group) hm]
  refine (congrArg _ (List.filter_eq_nil_iff.mpr fun b hb hchild => hm ?_)).trans
    (List.append_nil _)
  exact Option.some.inj ((childOf_iff.mp hchild).symm.trans (hnew b hb).1)

theorem grouped (h : EventSpec env s t n created) (hgrouped : Grouped s) : Grouped t := by
  obtain ⟨g, hg, rfl, -⟩ := h.group
  intro b hb
  by_cases hgroup : b.group = some g.id
  · exact ⟨g, hg, hgroup⟩
  · obtain ⟨r, hr, hr_group⟩ := hgrouped b (h.mem_other hb hgroup)
    refine ⟨r, (h.others r fun hid => hgroup ?_).mpr hr, hr_group⟩
    rw [hr_group, hid]

end EventSpec

section Event

variable (env : Services) (a : Arrival) (now : Instant) (s : Store)

/-- What the choice of a group for a new alert gives. -/
structure Chosen (t : Store) (g : AlertGroup) (reopenEnabled : Bool) : Prop where
  stored : g ∈ t.groups.rows
  unmerged : g.mergedInto = none
  before : ∀ r ∈ s.groups.rows, r.id = g.id → r.mergedInto = none
  others : ∀ r : AlertGroup, r.id ≠ g.id → (r ∈ t.groups.rows ↔ r ∈ s.groups.rows)
  ready : (∀ r ∈ s.groups.rows, r.id = g.id → Faithful s r) → Live t g ∨ reopenEnabled = true

/-- A group that was found. -/
theorem chosen_found {g : AlertGroup} {reopenEnabled : Bool} (hmem : g ∈ s.groups.rows)
    (hmerged : g.mergedInto = none) (hopen : g.status ≠ .resolved) :
    Chosen s s g reopenEnabled where
  stored := hmem
  unmerged := hmerged
  before r hr hid := by rwa [IdTable.eq_of_id hr hmem hid]
  others _ _ := Iff.rfl
  ready hbalanced := .inl ((hbalanced g hmem rfl).live hopen)

/-- The row of the group is rewritten. -/
theorem Chosen.saveGroup {t : Store} {g g' : AlertGroup} {reopenEnabled : Bool}
    (h : Chosen s t g reopenEnabled) (hid : g'.id = g.id) (hmerged : g'.mergedInto = none)
    (hstatus : g'.status ≠ .resolved) : Chosen s (t.saveGroup g') g' reopenEnabled where
  stored := IdTable.mem_save.mpr (.inr ⟨rfl, g, h.stored, hid.symm⟩)
  unmerged := hmerged
  before r hr hrid := h.before r hr (hrid.trans hid)
  others r hr := by
    rw [(RowOnly.save t g').mem_iff hr]
    exact h.others r (by rwa [← hid])
  ready hbalanced := by
    refine (h.ready fun r hr hrid => hbalanced r hr (hrid.trans hid.symm)).imp_left fun hlive => ?_
    refine ⟨hstatus, ?_⟩
    rw [hid]
    exact hlive.2

variable {s}

/-- The group that is found is an open row that was not merged. -/
theorem findOpen_spec {sha256 : String → String} {i : Identity} {g : AlertGroup}
    (h : s.findOpenAlertGroup sha256 i = some g) :
    g ∈ s.groups.rows ∧ g.mergedInto = none ∧ g.status ≠ .resolved := by
  obtain ⟨hmem, hopen⟩ := IdTable.latest_spec h
  have hopen := of_decide_eq_true hopen
  exact ⟨hmem, hopen.2.2.2.2.1, hopen.2.2.1⟩

theorem matchesIdentity_unmerged {sha256 : String → String} {i : Identity} {g : AlertGroup}
    (h : Store.matchesIdentity sha256 i g = true) : g.mergedInto = none :=
  (of_decide_eq_true h).1

variable (s)

/-- A group that is created is a choice. -/
theorem chosen_createGroup {status : Status} (hstatus : status ≠ .resolved) (hgrouped : Grouped s)
    (firstSeenAt : Instant) (silenced reopenEnabled : Bool) :
    Chosen s (createGroup env a now s status firstSeenAt silenced).1
      (createGroup env a now s status firstSeenAt silenced).2 reopenEnabled where
  stored := (@IdTable.mem_insert _ _ s.groups _ rfl _).mpr (.inr rfl)
  unmerged := rfl
  before r hr hid := absurd (s.groups.lt r hr) (by rw [hid]; exact Nat.lt_irrefl _)
  others r hr := by
    refine (@IdTable.mem_insert _ _ s.groups _ rfl r).trans (or_iff_left fun heq => hr ?_)
    rw [heq]
    rfl
  ready _ := by
    refine .inl ⟨hstatus, .inl (List.eq_nil_iff_forall_not_mem.mpr fun alert halert => ?_)⟩
    -- the alerts that are there are in groups that are there
    obtain ⟨hmem, hgroup⟩ := mem_children.mp halert
    obtain ⟨r, hr, hr_id⟩ := hgrouped alert hmem
    have hid : r.id = s.groups.next := Option.some.inj (hr_id.symm.trans hgroup)
    exact absurd (s.groups.lt r hr) (by rw [hid]; exact Nat.lt_irrefl _)

/-- **Whichever way the group is chosen, it is a choice**: an open one, one that is reopened, or
a new one. -/
theorem chooseGroup_chosen {status : Status} (hstatus : status ≠ .resolved) (hgrouped : Grouped s)
    (silenced reopenEnabled : Bool) {openGroup : Option AlertGroup}
    (hopen : ∀ g ∈ openGroup, g ∈ s.groups.rows ∧ g.mergedInto = none ∧ g.status ≠ .resolved) :
    Chosen s (chooseGroup env a now s status silenced reopenEnabled openGroup).1
      (chooseGroup env a now s status silenced reopenEnabled openGroup).2 reopenEnabled := by
  refine chooseGroup_of env a now s (P := fun t g => Chosen s t g reopenEnabled)
    (chosen_createGroup env a now s hstatus hgrouped _ _ _) (fun g hfound => ?_)
    (fun candidate henabled hcandidate => ?_) (fun g hg => ?_) ?_
  · -- an open group with the identity of the event
    obtain ⟨hmem, hmatches⟩ := IdTable.latest_spec hfound
    have hboth := Bool.and_eq_true_iff.mp (Bool.and_eq_true_iff.mp hmatches).1
    exact chosen_found s hmem (matchesIdentity_unmerged hboth.1) (of_decide_eq_true hboth.2)
  · -- a resolved group that is started again
    obtain ⟨hmem, hmatches⟩ := List.mem_filter.mp (List.argmax_mem hcandidate)
    have hidentity := (Bool.and_eq_true_iff.mp (Bool.and_eq_true_iff.mp hmatches).1).1
    have hmerged : candidate.mergedInto = none := matchesIdentity_unmerged hidentity
    exact
      { stored := IdTable.mem_save.mpr (.inr ⟨rfl, candidate, hmem, rfl⟩)
        unmerged := hmerged
        before := fun r hr hid => by rwa [IdTable.eq_of_id hr hmem hid]
        others := fun r hr => (RowOnly.save s _).mem_iff hr
        ready := fun _ => .inr henabled }
  · obtain ⟨hmem, hmerged, hopen⟩ := hopen g hg
    exact chosen_found _ hmem hmerged hopen
  · rintro t g h g' rfl
    exact h.saveGroup s rfl h.unmerged (by simp)

/-- A status that a recalculation looks for. -/
def Noticed (status : Status) : Prop := status = .firing ∨ status = .silenced ∨ status = .acknowledged

/-- An alert is put in a group that is worked on before and after. -/
theorem spec_of_insert {t t₁ u : Store} {g g₁ g₂ : AlertGroup} {reopenEnabled : Bool}
    {alert : Alert} (h : Chosen s t g reopenEnabled) (halerts : t.alerts = s.alerts)
    (hfirst : Works env.RestoresOpen t g t₁ g₁) (hid : alert.id = t₁.alerts.next)
    (hgroup : alert.group = some g₁.id) (hclean : alert.Clean)
    (hsecond : Works env.RestoresOpen { t₁ with alerts := t₁.alerts.insert alert hid } g₁ u g₂)
    (hbalanced : env.RestoresOpen → (∀ a ∈ t.alerts.rows, a.Clean) →
      Live t g ∨ reopenEnabled = true → Balanced u g₂) :
    EventSpec env s u g.id [alert.id] := by
  have hsame := hfirst.id
  -- of the alerts there is one more, and those of before are as the work leaves them
  refine ⟨?_, ?_, nofun, ?_⟩
  · obtain ⟨old, new, hrows, hold, hnew⟩ := ChildrenOnly.of_append hsecond.alerts
    rw [hsame] at hold hnew
    have hfirst' : ChildrenOnly Tended g.id s.alerts.rows t₁.alerts.rows := halerts ▸ hfirst.alerts
    have hboth : ChildrenOnly Tended g.id s.alerts.rows old := hfirst'.trans Tended.trans hold
    refine ⟨old, new, hrows, hboth.mono Tended.toRewritten, ?_⟩
    cases hnew with
    -- the row at the end is the new alert, as the second round of work leaves it
    | cons hab hrest =>
      cases hrest
      rcases hab with rfl | ⟨-, hab⟩
      · refine ⟨rfl, fun b hb => ?_⟩
        obtain rfl := List.mem_singleton.mp hb
        exact ⟨by rw [hgroup, hsame], hclean⟩
      · refine ⟨congrArg (fun n => [n]) hab.toRewritten.id, fun b hb => ?_⟩
        obtain rfl := List.mem_singleton.mp hb
        exact ⟨by rw [hab.group, hgroup, hsame], hab.clean hclean⟩
  · intro r hr
    have hgroups := hsecond.groups
    rw [hsame] at hgroups
    exact ((hgroups.mem_iff hr).trans (hfirst.groups.mem_iff hr)).trans (h.others r hr)
  -- the group is the one that was chosen, not merged, with what was recounted
  · have hmerged : g₂.mergedInto = none := by
      rw [hsecond.mergedInto, hfirst.mergedInto, h.unmerged]
    refine ⟨g₂, hsecond.stored (hfirst.stored h.stored), hsecond.id.trans hsame, ?_,
      fun _ => hmerged, ?_⟩
    · intro r hr hrid
      rw [hmerged, h.before r hr hrid]
    · intro henv hcleans hbefore
      exact hbalanced henv (by rwa [halerts]) (h.ready hbefore)

theorem newAlert_clean (id groupId : ℕ) (status : Status) (silenced : Bool) :
    (newAlert env a now id groupId status silenced).Clean := by
  intro _ h
  cases h

variable {s}

/-- Maintenance and recalculation bring a group in balance that is honest, or that was
resolved and has a child that the recalculation sees. -/
theorem balanced_tended {g : AlertGroup} (henv : env.RestoresOpen)
    (hclean : ∀ b ∈ s.alerts.rows, b.Clean)
    (h : Honest s g ∨ (g.status = .resolved ∧ ∃ b ∈ s.children g.id, Noticed b.status)) :
    Balanced ((reconcileMaintenance env s g now).1.recalculateAlertGroup
        (reconcileMaintenance env s g now).2 now).1
      ((reconcileMaintenance env s g now).1.recalculateAlertGroup
        (reconcileMaintenance env s g now).2 now).2 := by
  have hwork := works_reconcile env s g now
  refine balanced_recalculate now fun hresolved hoverlooked => ?_
  rcases h with hhonest | ⟨hwas, b, hb, hseen⟩
  · exact hwork.honest henv hclean hhonest hresolved
  · obtain ⟨hmem, hgroup⟩ := mem_children.mp hb
    have hkept := (reconcile_of_resolved env s g now hwas).1
    obtain ⟨hf, hs, hack⟩ := hoverlooked b
      (mem_children.mpr ⟨by rwa [hkept], by rw [hgroup, hwork.id]⟩)
    rcases hseen with hb | hb | hb
    · exact absurd hb hf
    · exact absurd hb hs
    · exact absurd hb hack

variable (s)

/-- **A new alert of a chosen group**: it is inserted, and the group counts it. -/
theorem createAlertIn_spec {t : Store} {g : AlertGroup} {reopenEnabled silenced : Bool}
    {status : Status} (h : Chosen s t g reopenEnabled) (halerts : t.alerts = s.alerts)
    (hseen : reopenEnabled = true → Noticed status) :
    EventSpec env s (createAlertIn env a now t g status silenced).1 g.id
      (createAlertIn env a now t g status silenced).2.createdAlerts := by
  have hmark : Works env.RestoresOpen t g
      (t.saveGroup { g with
        orchestrationSuppressed := a.suppressed, orchestrationSuppressReason := a.suppressReason })
      { g with
        orchestrationSuppressed := a.suppressed
        orchestrationSuppressReason := a.suppressReason } :=
    Works.saveGroup rfl rfl fun _ h => h
  have hfirst := hmark.trans (works_reconcile env _ _ now)
  unfold createAlertIn
  dsimp only
  generalize reconcileMaintenance env (t.saveGroup _) _ now = first at hfirst ⊢
  obtain ⟨t₁, g₁⟩ := first
  dsimp only at hfirst ⊢
  refine spec_of_insert env s h halerts hfirst rfl rfl (newAlert_clean env a now _ _ _ _)
    ((works_reconcile env _ _ now).trans (works_recalculate _ _ now)) ?_
  intro henv hclean hready
  refine balanced_tended env now henv ?_ ?_
  -- the new alert and those of before are tended
  · intro b hb
    rcases (@IdTable.mem_insert _ _ t₁.alerts _ rfl b).mp hb with hb | rfl
    · exact hfirst.clean hclean b hb
    · exact newAlert_clean env a now _ _ _ _
  · by_cases hresolved : g₁.status = .resolved
    · -- it was to be started again, and the new alert is seen
      refine .inr ⟨hresolved, newAlert env a now t₁.alerts.next g₁.id status silenced, ?_, ?_⟩
      · exact mem_children.mpr ⟨(@IdTable.mem_insert _ _ t₁.alerts _ rfl _).mpr (.inr rfl), rfl⟩
      · exact hseen (hready.resolve_left fun hlive => hfirst.live henv hclean hlive hresolved)
    · exact .inl fun h => absurd h hresolved

/-- An alert that is there is rewritten in its group. -/
theorem handleExistingAlert_spec {existing : Alert} (hgrouped : Grouped s)
    (hexisting : existing ∈ s.alerts.rows) (hopen : existing.status ≠ .resolved) (status : Status)
    (openGroup : Option AlertGroup) :
    ∃ n, EventSpec env s (handleExistingAlert env a now s status existing openGroup).1 n [] := by
  obtain ⟨g, hg, hgroup⟩ := hgrouped existing hexisting
  -- an alert is in a group, so no group is looked up for it
  have hfound : groupForExisting env a now s status existing openGroup = (s, g) := by
    have hget : s.groupOf existing = some g := by
      unfold Store.groupOf
      rw [hgroup]
      exact IdTable.get_eq_some.mpr ⟨hg, rfl⟩
    unfold groupForExisting
    rw [hget]
    rfl
  unfold handleExistingAlert
  rw [hfound]
  dsimp only
  have hmark : Works env.RestoresOpen s g
      (s.saveGroup { g with
        orchestrationSuppressed := a.suppressed, orchestrationSuppressReason := a.suppressReason })
      { g with
        orchestrationSuppressed := a.suppressed
        orchestrationSuppressReason := a.suppressReason } :=
    Works.saveGroup rfl rfl fun _ h => h
  generalize hmarked : s.saveGroup { g with
    orchestrationSuppressed := a.suppressed
    orchestrationSuppressReason := a.suppressReason } = marked at hmark ⊢
  have hmarked_alerts : marked.alerts = s.alerts := by rw [← hmarked]; rfl
  -- the alert is refreshed, not resolved, in the same group
  have hrefreshed : Rewritten existing (refreshedAlert env a now existing status g.id) := by
    refine ⟨rfl, hgroup.symm, fun _ _ hprevious => hopen ?_⟩
    exact Option.some.inj hprevious
  have hwrite : ChildrenOnly Rewritten g.id s.alerts.rows
      (marked.saveAlert (refreshedAlert env a now existing status g.id)).alerts.rows := by
    show ChildrenOnly Rewritten g.id s.alerts.rows (marked.alerts.save _).rows
    rw [hmarked_alerts]
    refine .update fun b hb hid => ?_
    have hid : b.id = existing.id := of_decide_eq_true hid
    obtain rfl := IdTable.eq_of_id hb hexisting hid
    refine ⟨hgroup, ?_⟩
    dsimp only
    rwa [if_pos (show b.id = (refreshedAlert env a now b status g.id).id from rfl)]
  have hwork := (works_reconcile env
    (marked.saveAlert (refreshedAlert env a now existing status g.id)) { g with
      orchestrationSuppressed := a.suppressed
      orchestrationSuppressReason := a.suppressReason } now).trans (works_recalculate _ _ now)
  -- no alert is made
  refine ⟨g.id, ⟨_, [], (List.append_nil _).symm, ?_, rfl, ?_⟩, ?_,
    fun _ => ⟨existing, hexisting, hgroup⟩, ?_⟩
  · exact hwrite.trans Rewritten.trans (hwork.alerts.mono Tended.toRewritten)
  · intro b hb
    cases hb
  · intro r hr
    exact (hwork.groups.mem_iff hr).trans (hmark.groups.mem_iff hr)
  · refine ⟨_, hwork.stored (hmark.stored hg), hwork.id, ?_, fun h => absurd rfl h, ?_⟩
    · intro r hr hid
      rw [hwork.mergedInto, IdTable.eq_of_id hr hg hid]
    · intro henv hclean hbalanced
      -- what was read of the alert is seen in the group
      refine balanced_tended env now henv ?_ (.inl fun hresolved => ?_)
      · intro b hb
        obtain ⟨b₀, hb₀, rfl | ⟨-, hb⟩⟩ := Rows.exists_left hwrite hb
        · exact hclean _ hb₀
        · exact hb.clean (hclean b₀ hb₀)
      · -- the alert was a child that is not resolved
        have hchild := mem_children.mpr ⟨hexisting, hgroup⟩
        exact absurd ((hbalanced g hg rfl).honest hresolved existing hchild) hopen

/-- **Writing an event leaves the store, or works on one group and its children.** -/
theorem persistEvent_spec (hgrouped : Grouped s) :
    ((persistEvent env a now s).1 = s ∧ (persistEvent env a now s).2.createdAlerts = []) ∨
      ∃ n, EventSpec env s (persistEvent env a now s).1 n
        (persistEvent env a now s).2.createdAlerts := by
  unfold persistEvent
  dsimp only
  -- an event of a maintenance that drops is not taken further
  split
  · exact .inl ⟨rfl, rfl⟩
  · split
    · rename_i existing hexisting
      obtain ⟨hmem, -, -, hopen⟩ := lookupExisting_spec env a s hexisting
      exact .inr (handleExistingAlert_spec env a now s hgrouped hmem hopen _ _)
    -- a resolve for no alert is not either
    · split
      · exact .inl ⟨rfl, rfl⟩
      · rename_i hstatus
        unfold createForNew
        dsimp only
        split
        · exact .inl ⟨rfl, rfl⟩
        · refine .inr ⟨_, createAlertIn_spec env a now s
            (chooseGroup_chosen env a now s ?_ hgrouped _ _ fun g hg => findOpen_spec hg)
            (chooseGroup_alerts env a now s _ _ _ _) ?_⟩
          · split_ifs
            · simp
            · exact hstatus
          · intro hreopen
            have hseen := (of_decide_eq_true hreopen).2.2
            split_ifs
            · exact .inr (.inl rfl)
            · exact hseen.imp_right .inl

end Event

end IncidentRelay.Alerts
