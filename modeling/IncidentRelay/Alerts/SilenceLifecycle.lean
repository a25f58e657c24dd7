import IncidentRelay.Alerts.Balance
import IncidentRelay.Alerts.Silences
import Mathlib.Data.List.Dedup

/-!
# What holds a silenced alert

After a run of the lifecycle every silenced alert is held by an active application. An
alert that was silenced stays so while it is held, and a resolved alert stays resolved.
-/

namespace IncidentRelay.Alerts

open Json

/-! ## Applications -/

/-- An active application holds the alert. -/
def Desk.Holds (d : Desk) (alertId : ℕ) : Prop :=
  ∃ p ∈ d.applications.rows, p.alert = alertId ∧ p.active = true

/-- Every silenced alert is held. -/
def Desk.Held (d : Desk) : Prop :=
  ∀ a ∈ d.store.alerts.rows, a.status = .silenced → d.Holds a.id

/-- The alerts of the set are silenced while they are held. -/
def Desk.Quiet (d : Desk) (tracked : ℕ → Prop) : Prop :=
  ∀ a ∈ d.store.alerts.rows, tracked a.id → d.Holds a.id → a.status = .silenced

/-- The alert is resolved. -/
def Desk.Over (d : Desk) (alertId : ℕ) : Prop :=
  ∃ a ∈ d.store.alerts.rows, a.id = alertId ∧ a.status = .resolved

/-- No group has been merged. -/
def Desk.Plain (d : Desk) : Prop := ∀ g ∈ d.store.groups.rows, g.mergedInto = none

theorem hasOther_iff {d : Desk} {alertId : ℕ} :
    d.hasOtherActiveApplication alertId = true ↔ d.Holds alertId := by
  unfold Desk.hasOtherActiveApplication Desk.Holds
  simp [List.any_eq_true]

section GetOrCreate

variable (d : Desk) (silenceId alertId : ℕ) (group : Option ℕ) (previousStatus : Status)
  (source : ApplicationSource) (now : Instant)

/-- Applying a silence on paper touches no alert. -/
theorem getOrCreate_store : (d.getOrCreateApplication silenceId alertId group previousStatus source
    now).1.store = d.store ∧ (d.getOrCreateApplication silenceId alertId group previousStatus
    source now).1.silences = d.silences := by
  unfold Desk.getOrCreateApplication
  split
  · exact ⟨rfl, rfl⟩
  · split_ifs <;> exact ⟨rfl, rfl⟩

/-- The alert is held then, and no other alert is let go. -/
theorem getOrCreate_holds (n : ℕ) (h : d.Holds n ∨ n = alertId) :
    (d.getOrCreateApplication silenceId alertId group previousStatus source now).1.Holds n := by
  unfold Desk.getOrCreateApplication
  -- there is an application for the pair, or one is made
  split
  · rcases h with ⟨p, hp, hn, hactive⟩ | rfl
    · exact ⟨p, (@IdTable.mem_insert _ _ d.applications _ rfl p).mpr (.inl hp), hn, hactive⟩
    · exact ⟨_, (@IdTable.mem_insert _ _ d.applications _ rfl _).mpr (.inr rfl), rfl, rfl⟩
  · rename_i application hfound
    have hpair := List.find?_some hfound
    have hmem := List.mem_of_find?_eq_some hfound
    obtain ⟨-, halert⟩ := Bool.and_eq_true_iff.mp hpair
    have halert : application.alert = alertId := of_decide_eq_true halert
    split_ifs with hactive
    · rcases h with h | rfl
      · exact h
      · exact ⟨application, hmem, halert, hactive⟩
    -- an application that was closed is opened again
    · by_cases hn : n = alertId
      · subst hn
        exact ⟨_, IdTable.mem_save.mpr (.inr ⟨rfl, application, hmem, rfl⟩), halert, rfl⟩
      · obtain ⟨p, hp, hpn, hp_active⟩ := h.resolve_right hn
        refine ⟨p, IdTable.mem_save.mpr (.inl ⟨hp, fun hid => hn ?_⟩), hpn, hp_active⟩
        rw [IdTable.eq_of_id hp hmem hid, halert] at hpn
        exact hpn.symm

/-- No other alert is held then that was not. -/
theorem holds_of_getOrCreate {n : ℕ} (h : (d.getOrCreateApplication silenceId alertId group
    previousStatus source now).1.Holds n) : d.Holds n ∨ n = alertId := by
  unfold Desk.getOrCreateApplication at h
  split at h
  · obtain ⟨p, hp, hn, hactive⟩ := h
    rcases (@IdTable.mem_insert _ _ d.applications _ rfl p).mp hp with hp | rfl
    · exact .inl ⟨p, hp, hn, hactive⟩
    · exact .inr hn.symm
  · rename_i application hfound
    split_ifs at h
    · exact .inl h
    · obtain ⟨p, hp, hn, hactive⟩ := h
      rcases IdTable.mem_save.mp hp with ⟨hp, -⟩ | ⟨rfl, -⟩
      · exact .inl ⟨p, hp, hn, hactive⟩
      · have hpair := List.find?_some hfound
        obtain ⟨-, halert⟩ := Bool.and_eq_true_iff.mp hpair
        exact .inr (hn.symm.trans (of_decide_eq_true halert))

/-- Where the relation was there already, nothing has been written. -/
theorem getOrCreate_again (h : (d.getOrCreateApplication silenceId alertId group previousStatus
    source now).2 = false) : (d.getOrCreateApplication silenceId alertId group previousStatus
    source now).1 = d := by
  unfold Desk.getOrCreateApplication at h ⊢
  split at h
  · cases h
  · split_ifs at h
    · rename_i hactive
      exact if_pos hactive ▸ rfl

end GetOrCreate

/-- The rows of the silences play no part. -/
theorem record_spec (alertId : ℕ) (group : Option ℕ) (silences : List Silence) (now : Instant)
    (d : Desk) :
    (d.recordNewAlertSilences alertId group silences now).store = d.store ∧
      (d.recordNewAlertSilences alertId group silences now).silences = d.silences ∧
      (∀ n, d.Holds n → (d.recordNewAlertSilences alertId group silences now).Holds n) ∧
      (∀ n, (d.recordNewAlertSilences alertId group silences now).Holds n →
        d.Holds n ∨ n = alertId) ∧
      (silences ≠ [] → (d.recordNewAlertSilences alertId group silences now).Holds alertId) := by
  unfold Desk.recordNewAlertSilences
  -- by induction on the silences that match
  induction silences generalizing d with
  | nil => exact ⟨rfl, rfl, fun _ h => h, fun _ h => .inl h, fun h => absurd rfl h⟩
  | cons s silences ih =>
    rw [List.foldl_cons]
    obtain ⟨hstore, hsilences, hholds, hback, -⟩ :=
      ih (d.getOrCreateApplication s.id alertId group .firing .newAlert now).1
    refine ⟨hstore.trans (getOrCreate_store ..).1, hsilences.trans (getOrCreate_store ..).2,
      fun n hn => hholds n ?_, fun n hn => ?_,
      fun _ => hholds _ ?_⟩
    · exact getOrCreate_holds _ _ _ _ _ _ _ _ (.inl hn)
    · exact (hback n hn).elim (holds_of_getOrCreate _ _ _ _ _ _ _) .inr
    · exact getOrCreate_holds _ _ _ _ _ _ _ _ (.inr rfl)

/-! ## Recalculations -/

/-- The alerts have the statuses of before. -/
def SameStatuses (s t : Store) : Prop :=
  List.Forall₂ (fun a b => b.id = a.id ∧ b.status = a.status) s.alerts.rows t.alerts.rows

namespace SameStatuses

variable {s t u : Store}

theorem refl (s : Store) : SameStatuses s s := List.forall₂_same.mpr fun _ _ => ⟨rfl, rfl⟩

theorem trans (h : SameStatuses s t) (h' : SameStatuses t u) : SameStatuses s u :=
  Rows.trans h h' fun hab hbc => ⟨hbc.1.trans hab.1, hbc.2.trans hab.2⟩

/-- A recalculation changes no status of a child. -/
theorem recalculate (s : Store) (g : AlertGroup) (now : Instant) :
    SameStatuses s (s.recalculateAlertGroup g now).1 := by
  unfold Store.recalculateAlertGroup
  dsimp only
  split_ifs
  · refine List.forall₂_map_right_iff.mpr (List.forall₂_same.mpr fun a _ => ?_)
    split_ifs <;> exact ⟨rfl, rfl⟩
  · exact refl s

end SameStatuses

section Recalculate

variable (before after : Status) (now : Instant)

theorem recalculateGroup_columns (n : ℕ) (d : Desk) :
    SameStatuses d.store (d.recalculateGroup before after now n).store ∧
      (d.recalculateGroup before after now n).applications = d.applications := by
  unfold Desk.recalculateGroup
  split
  · exact ⟨.refl _, rfl⟩
  · dsimp only
    split_ifs <;> exact ⟨.recalculate _ _ _, rfl⟩

/-- A recalculation leaves the statuses and the applications. -/
theorem recalculateGroups_columns (groupIds : List ℕ) (d : Desk) :
    SameStatuses d.store (d.recalculateGroups before after now groupIds).store ∧
      (d.recalculateGroups before after now groupIds).applications = d.applications := by
  unfold Desk.recalculateGroups
  induction groupIds.dedup generalizing d with
  | nil => exact ⟨.refl _, rfl⟩
  | cons n ns ih =>
    rw [List.foldl_cons]
    obtain ⟨hstatus, happlications⟩ := recalculateGroup_columns before after now n d
    obtain ⟨hstatus', happlications'⟩ := ih (d.recalculateGroup before after now n)
    exact ⟨hstatus.trans hstatus', happlications'.trans happlications⟩

/-- **One group is recalculated**: it is not due any more. -/
theorem recalculateGroup_spec {due : ℕ → Prop} (n : ℕ) {d : Desk} (h : Tidy due d.store) :
    Tidy (fun m => due m ∧ m ≠ n) (d.recalculateGroup before after now n).store ∧
      (d.Plain → (d.recalculateGroup before after now n).Plain) := by
  unfold Desk.recalculateGroup
  -- a group that is gone is not counted
  split
  · rename_i hnone
    refine ⟨{ h with balanced := fun g hg hmerged hnot => h.balanced g hg hmerged fun hdue => ?_ },
      id⟩
    refine hnot ⟨hdue, fun hid => ?_⟩
    rw [IdTable.get_eq_some.mpr ⟨hg, hid⟩] at hnone
    cases hnone
  · rename_i group hgroup
    obtain ⟨hmem, rfl⟩ := IdTable.get_eq_some.mp hgroup
    -- counting it pays what was due for it
    have htidy := h.recalculate hmem now
    have hwork := works_recalculate (P := True) d.store group now
    have hplain : d.Plain → ∀ g ∈ (d.store.recalculateAlertGroup group now).1.groups.rows,
        g.mergedInto = none := by
      intro hplain g hg
      by_cases hid : g.id = group.id
      · rw [IdTable.eq_of_id hg (hwork.stored hmem) (hid.trans hwork.id.symm), hwork.mergedInto]
        exact hplain group hmem
      · exact hplain g ((hwork.groups.mem_iff hid).mp hg)
    dsimp only
    split_ifs
    · refine ⟨htidy.saveGroup (hwork.stored hmem) ⟨rfl, rfl, Iff.rfl, rfl, rfl, rfl, rfl, rfl⟩,
        fun h g hg => ?_⟩
      rcases IdTable.mem_save.mp hg with ⟨hg, -⟩ | ⟨rfl, -⟩
      · exact hplain h g hg
      · exact hplain h _ (hwork.stored hmem)
    · exact ⟨htidy, hplain⟩

/-- By induction on the groups: none of them is due any more. -/
theorem recalculateGroups_spec {due : ℕ → Prop} (groupIds : List ℕ) {d : Desk}
    (h : Tidy (fun n => due n ∨ n ∈ groupIds) d.store) :
    Tidy due (d.recalculateGroups before after now groupIds).store ∧
      (d.Plain → (d.recalculateGroups before after now groupIds).Plain) := by
  unfold Desk.recalculateGroups
  have hstart : Tidy (fun n => due n ∨ n ∈ groupIds.dedup) d.store :=
    h.mono fun n hn => hn.imp_right List.mem_dedup.mpr
  generalize groupIds.dedup = ns at hstart
  clear h
  -- by induction on the groups, each of which pays its own
  induction ns generalizing d with
  | nil =>
    exact ⟨hstart.mono fun n hn => hn.resolve_right List.not_mem_nil, id⟩
  | cons n ns ih =>
    rw [List.foldl_cons]
    obtain ⟨htidy, hplain⟩ := recalculateGroup_spec before after now n hstart
    obtain ⟨htidy', hplain'⟩ := ih (htidy.mono fun m hm => by
      -- the group that was counted is not due any more
      rcases hm with ⟨hdue | hmem, hne⟩
      · exact .inl hdue
      · exact .inr ((List.mem_cons.mp hmem).resolve_left hne))
    exact ⟨htidy', hplain' ∘ hplain⟩

end Recalculate

/-! ## A loop over alerts -/

/-- The alerts but for this one are there still. -/
def OthersKept (d d' : Desk) (n : ℕ) : Prop :=
  ∀ b ∈ d.store.alerts.rows, b.id ≠ n → b ∈ d'.store.alerts.rows

/-- A loop over rows, each round of which writes its own row only. The induction is on the
rows that are still to come. -/
theorem foldl_alerts {σ : Type} {f : Desk × σ → Alert → Desk × σ} {I : List Alert → Desk × σ → Prop}
    (hround : ∀ a rest state, I (a :: rest) state → a ∈ state.1.store.alerts.rows →
      I rest (f state a) ∧ OthersKept state.1 (f state a).1 a.id)
    {alerts : List Alert} (hnodup : (alerts.map (·.id)).Nodup) (state : Desk × σ)
    (hmem : ∀ a ∈ alerts, a ∈ state.1.store.alerts.rows) (h : I alerts state) :
    I [] (alerts.foldl f state) := by
  induction alerts generalizing state with
  | nil => exact h
  | cons a rest ih =>
    rw [List.map_cons, List.nodup_cons] at hnodup
    obtain ⟨hnext, hkept⟩ := hround a rest state h (hmem a List.mem_cons_self)
    refine ih hnodup.2 _ (fun b hb => hkept b (hmem b (List.mem_cons_of_mem a hb)) fun hid => ?_) hnext
    exact hnodup.1 (List.mem_map.mpr ⟨b, hb, hid⟩)

theorem othersKept_saveAlert {d : Desk} {a : Alert} : OthersKept d (d.saveAlert a) a.id :=
  fun _ hb hne => IdTable.mem_save.mpr (.inl ⟨hb, hne⟩)

/-- The alert of a store without a status. -/
theorem tended_of_open {a : Alert} {status : Status} (silenced : Bool) (hopen : a.status ≠ .resolved)
    (hstatus : status ≠ .resolved) :
    Tended a { a with previousStatus := some a.status, status := status, silenced := silenced } := by
  refine ⟨⟨rfl, rfl, fun _ _ h => hopen (Option.some.inj h)⟩, fun _ => ?_⟩
  exact iff_of_false hstatus hopen

/-- A tidy store, a group of which is due where one of its alerts was written. -/
def Working (due : ℕ → Prop) (state : Desk × List ℕ) : Prop :=
  Tidy (fun n => due n ∨ n ∈ state.2) state.1.store

/-- An alert that is rewritten makes its group due; that is noted among the changed ones. -/
theorem Working.saveAlert {due : ℕ → Prop} {d d' : Desk} {changed : List ℕ} {a a' : Alert}
    (h : Working due (d, changed)) (hstore : d'.store = d.store)
    (ha : a ∈ d.store.alerts.rows) (htended : Tended a a') :
    Working due (d'.saveAlert a', changed ++ a.group.toList) := by
  obtain ⟨g, -, hgroup⟩ := h.grouped a ha
  have htidy : Tidy (fun n => due n ∨ n ∈ changed ++ a.group.toList) d.store :=
    h.mono fun n hn => hn.imp_right fun hn => List.mem_append.mpr (.inl hn)
  show Tidy _ (d'.store.saveAlert a')
  rw [hstore]
  refine htidy.saveAlert ha hgroup htended (.inr (List.mem_append.mpr (.inr ?_)))
  rw [hgroup]
  exact List.mem_singleton.mpr rfl

theorem filter_nodup (t : IdTable Alert (·.id)) (p : Alert → Bool) :
    ((t.rows.filter p).map (·.id)).Nodup :=
  t.nodup.sublist (List.filter_sublist.map _)

/-- A desk is held when the alerts are: those that are silenced now are those that were,
but for one that is held. -/
theorem Held.of_saveAlert {d d' : Desk} {a : Alert} (h : d.Held)
    (hstore : d'.store = d.store) (hholds : ∀ n, d.Holds n → d'.Holds n)
    (ha : a.status = .silenced → d'.Holds a.id) : (d'.saveAlert a).Held := by
  intro b hb hsilenced
  have hb : b ∈ (d'.store.alerts.save a).rows := hb
  rw [hstore] at hb
  rcases IdTable.mem_save.mp hb with ⟨hb, -⟩ | ⟨rfl, -⟩
  · exact hholds _ (h b hb hsilenced)
  · exact ha hsilenced

/-- Silenced alerts stay held where statuses stay and no application is closed. -/
theorem Held.of_same {d d' : Desk} (h : d.Held) (hstatus : SameStatuses d.store d'.store)
    (hholds : ∀ n, d.Holds n → d'.Holds n) : d'.Held := by
  intro b hb hsilenced
  obtain ⟨a, ha, hid, hsame⟩ := Rows.exists_left hstatus hb
  rw [hid]
  exact hholds _ (h a ha (hsame ▸ hsilenced))

/-- The same of what is held is silenced: only the alert that was written may differ. -/
theorem Quiet.of_saveAlert {d d' : Desk} {a : Alert} {tracked : ℕ → Prop} (h : d.Quiet tracked)
    (hstore : d'.store = d.store) (hholds : ∀ n, d'.Holds n → d.Holds n ∨ n = a.id)
    (ha : d'.Holds a.id → a.status = .silenced) : (d'.saveAlert a).Quiet tracked := by
  intro b hb htracked hb_holds
  have hb : b ∈ (d'.store.alerts.save a).rows := hb
  rw [hstore] at hb
  rcases IdTable.mem_save.mp hb with ⟨hb, hne⟩ | ⟨rfl, -⟩
  · exact h b hb htracked ((hholds _ hb_holds).resolve_right hne)
  · exact ha hb_holds

/-- Alerts that are not held stay unsilenced where statuses stay and none is applied. -/
theorem Quiet.of_same {d d' : Desk} {tracked : ℕ → Prop} (h : d.Quiet tracked)
    (hstatus : SameStatuses d.store d'.store) (hholds : ∀ n, d'.Holds n → d.Holds n) :
    d'.Quiet tracked := by
  intro b hb htracked hb_holds
  obtain ⟨a, ha, hid, hsame⟩ := Rows.exists_left hstatus hb
  rw [hsame]
  rw [hid] at htracked hb_holds
  exact h a ha htracked (hholds _ hb_holds)

/-- A write to an alert that is not resolved leaves those that are. -/
theorem Over.of_saveAlert {d d' : Desk} {a a' : Alert} {n : ℕ} (h : d.Over n)
    (hstore : d'.store = d.store) (ha : a ∈ d.store.alerts.rows) (hid : a'.id = a.id)
    (hopen : a.status ≠ .resolved) : (d'.saveAlert a').Over n := by
  obtain ⟨b, hb, hn, hresolved⟩ := h
  refine ⟨b, ?_, hn, hresolved⟩
  show b ∈ (d'.store.alerts.save a').rows
  rw [hstore]
  refine IdTable.mem_save.mpr (.inl ⟨hb, fun hba => hopen ?_⟩)
  rw [← IdTable.eq_of_id hb ha (hba.trans hid), hresolved]

/-- An alert that is over with stays so. -/
theorem Over.of_same {d d' : Desk} {n : ℕ} (h : d.Over n)
    (hstatus : SameStatuses d.store d'.store) : d'.Over n := by
  obtain ⟨a, ha, hn, hresolved⟩ := h
  obtain ⟨b, hb, hid, hsame⟩ := Rows.exists_right hstatus ha
  exact ⟨b, hb, hid.trans hn, hsame.trans hresolved⟩

theorem holds_congr {d d' : Desk} {n : ℕ} (h : d'.applications = d.applications) :
    d'.Holds n ↔ d.Holds n := by
  unfold Desk.Holds
  rw [h]

/-! ## Steps of the lifecycle -/

/-- What the steps keep. -/
structure Steady (due : ℕ → Prop) (d d' : Desk) : Prop where
  tidy : Tidy due d'.store
  held : d.Held → d'.Held
  quiet : ∀ tracked, d.Quiet tracked → d'.Quiet tracked
  ended : ∀ n, d.Over n → d'.Over n
  plain : d.Plain → d'.Plain

theorem Steady.trans {due : ℕ → Prop} {d d' d'' : Desk} (h : Steady due d d')
    (h' : Steady due d' d'') : Steady due d d'' :=
  ⟨h'.tidy, h'.held ∘ h.held, fun _ hquiet => h'.quiet _ (h.quiet _ hquiet),
    fun n hn => h'.ended n (h.ended n hn), h'.plain ∘ h.plain⟩

theorem Steady.refl {due : ℕ → Prop} {d : Desk} (h : Tidy due d.store) : Steady due d d :=
  ⟨h, id, fun _ => id, fun _ => id, id⟩

/-- The rows of the silences play no part. -/
theorem Steady.saveSilence {due : ℕ → Prop} {d d' : Desk} (h : Steady due d d') (s : Silence) :
    Steady due d (d'.saveSilence s) := ⟨h.tidy, h.held, h.quiet, h.ended, h.plain⟩

/-- A step of a loop: the groups are those of before, and some are due. -/
structure Round (due : ℕ → Prop) (d : Desk) (state : Desk × List ℕ) : Prop where
  working : Working due state
  groups : state.1.store.groups = d.store.groups
  held : d.Held → state.1.Held
  quiet : ∀ tracked, d.Quiet tracked → state.1.Quiet tracked
  ended : ∀ n, d.Over n → state.1.Over n

theorem Round.refl {due : ℕ → Prop} {d : Desk} (h : Tidy due d.store) : Round due d (d, []) :=
  ⟨h.mono fun _ hn => .inl hn, rfl, id, fun _ => id, fun _ => id⟩

/-- The groups that changed are recalculated. -/
theorem Round.recalculate {due : ℕ → Prop} {d : Desk} {state : Desk × List ℕ}
    (h : Round due d state) (before after : Status) (now : Instant) :
    Steady due d (state.1.recalculateGroups before after now state.2) := by
  obtain ⟨htidy, hplain⟩ := recalculateGroups_spec before after now state.2 h.working
  obtain ⟨hstatus, happlications⟩ := recalculateGroups_columns before after now state.2 state.1
  have hholds := fun n => holds_congr (n := n) happlications
  refine ⟨htidy, fun hheld => ?_, fun tracked hquiet => ?_, fun n hn => ?_, fun hd => ?_⟩
  · exact Held.of_same (h.held hheld) hstatus fun n => (hholds n).mpr
  · exact Quiet.of_same (h.quiet tracked hquiet) hstatus fun n => (hholds n).mp
  · exact Over.of_same (h.ended n hn) hstatus
  · refine hplain fun g hg => hd g ?_
    rw [← h.groups]
    exact hg

section Apply

variable {due : ℕ → Prop} {d : Desk} (rules : Matchers) (silence : Silence) (now : Instant)

/-- **One alert of the loop**: it is silenced and held, or left alone. -/
theorem silenceAlert_round {state : Desk × List ℕ} {a : Alert} (h : Round due d state)
    (ha : a ∈ state.1.store.alerts.rows) (hopen : a.status ≠ .resolved) :
    Round due d (Desk.silenceAlert rules silence now state a) ∧
      OthersKept state.1 (Desk.silenceAlert rules silence now state a).1 a.id := by
  have hstore := (getOrCreate_store state.1 silence.id a.id a.group (previousStatusOf a)
    .retroactive now).1
  have hholds := getOrCreate_holds state.1 silence.id a.id a.group (previousStatusOf a)
    .retroactive now
  have hback : ∀ {n}, _ := @holds_of_getOrCreate state.1 silence.id a.id a.group
    (previousStatusOf a) .retroactive now
  have hagain := getOrCreate_again state.1 silence.id a.id a.group (previousStatusOf a)
    .retroactive now
  unfold Desk.silenceAlert
  -- an alert with an active application of this silence is left alone
  split_ifs
  · generalize state.1.getOrCreateApplication silence.id a.id a.group (previousStatusOf a)
      .retroactive now = result at hstore hholds hback hagain
    obtain ⟨d', created⟩ := result
    dsimp only at hstore hholds hback hagain ⊢
    split_ifs with hleft
    · -- the alert is silenced already, or it was held before
      have hquiet : ∀ tracked, d.Quiet tracked → d'.Quiet tracked := by
        intro tracked hd b hb htracked hb_holds
        rw [hstore] at hb
        rcases Bool.or_eq_true_iff.mp hleft with hcreated | hsilenced
        · rw [hagain (by simpa using hcreated)] at hb_holds
          exact h.quiet tracked hd b hb htracked hb_holds
        · rcases hback hb_holds with hb_holds | hid
          · exact h.quiet tracked hd b hb htracked hb_holds
          · rw [IdTable.eq_of_id hb ha hid]
            exact of_decide_eq_true hsilenced
      refine ⟨⟨?_, hstore ▸ h.groups, fun hheld b hb hsilenced => ?_, hquiet, fun n hn => ?_⟩,
        fun b hb _ => hstore ▸ hb⟩
      · show Tidy _ d'.store
        rw [hstore]
        exact h.working
      · have hb : b ∈ d'.store.alerts.rows := hb
        rw [hstore] at hb
        exact hholds _ (.inl (h.held hheld b hb hsilenced))
      · obtain ⟨b, hb, hb_over⟩ := h.ended n hn
        exact ⟨b, hstore ▸ hb, hb_over⟩
    · refine ⟨⟨?_, (congrArg Store.groups hstore).trans h.groups, fun hheld => ?_,
        fun tracked hquiet => ?_, fun n hn => ?_⟩, fun b hb hne => ?_⟩
      -- the alert is silenced and saved; it is open before and behind
      · exact Working.saveAlert h.working hstore ha (tended_of_open _ hopen (by simp))
      · exact Held.of_saveAlert (h.held hheld) hstore (fun n hn => hholds n (.inl hn))
          fun _ => hholds _ (.inr rfl)
      · exact Quiet.of_saveAlert (h.quiet tracked hquiet) hstore (fun n => hback) fun _ => rfl
      · refine Over.of_saveAlert (h.ended n hn) hstore ha ?_ hopen
        rfl
      · exact othersKept_saveAlert b (hstore ▸ hb) hne
  · exact ⟨h, fun b hb _ => hb⟩

/-- Applying a silence to the alerts that are there keeps the desk steady. -/
theorem applySilence_steady (h : Tidy due d.store) :
    Steady due d (d.applySilenceToExistingAlerts rules silence now) := by
  unfold Desk.applySilenceToExistingAlerts
  split_ifs
  · have hloop : Round due d ((d.silenceable silence).foldl
        (Desk.silenceAlert rules silence now) (d, [])) := by
      refine (foldl_alerts (I := fun rest state => Round due d state ∧
        ∀ a ∈ rest, a.status ≠ .resolved) ?_ (filter_nodup _ _) _ ?_ ⟨.refl h, ?_⟩).1
      · intro a rest state hI ha
        obtain ⟨hround, hkept⟩ := silenceAlert_round rules silence now hI.1 ha
          (hI.2 a List.mem_cons_self)
        exact ⟨⟨hround, fun b hb => hI.2 b (List.mem_cons_of_mem a hb)⟩, hkept⟩
      · exact fun a ha => (List.mem_filter.mp ha).1
      · intro a ha hresolved
        have hstatus := (List.mem_filter.mp ha).2
        simp [hresolved] at hstatus
    exact (hloop.recalculate .firing .silenced now).saveSilence _
  · exact .refl h

end Apply

/-! ## Releasing -/

section Release

variable {due : ℕ → Prop} {d : Desk} (reason : ReleaseReason) (now : Instant)

/-- The relation of the application is there, of the same silence and alert. -/
def Desk.Relates (d : Desk) (application : Application) : Prop :=
  ∃ p ∈ d.applications.rows, p.id = application.id ∧ p.silence = application.silence ∧
    p.alert = application.alert

/-- The alerts of others are held as before a release. -/
theorem holds_released {application p : Application} (h : d.Relates application)
    (hp : p.id = application.id) {n : ℕ} (hn : n ≠ application.alert) (hholds : d.Holds n) :
    (d.saveApplication p).Holds n := by
  obtain ⟨q, hq, hqn, hactive⟩ := hholds
  obtain ⟨r, hr, hr_id, -, hr_alert⟩ := h
  refine ⟨q, IdTable.mem_save.mpr (.inl ⟨hq, fun hid => hn ?_⟩), hqn, hactive⟩
  rw [← hqn, ← hr_alert, IdTable.eq_of_id hq hr (hid.trans (hp.trans hr_id.symm))]

/-- A release keeps the relations. -/
theorem relates_released {application p x : Application} (h : d.Relates application)
    (hp : p.id = application.id ∧ p.silence = application.silence ∧ p.alert = application.alert)
    (hx : d.Relates x) : (d.saveApplication p).Relates x := by
  obtain ⟨q, hq, hq_id, hq_silence, hq_alert⟩ := hx
  obtain ⟨r, hr, hr_id, hr_silence, hr_alert⟩ := h
  by_cases hid : q.id = p.id
  · have hqr := IdTable.eq_of_id hq hr (hid.trans (hp.1.trans hr_id.symm))
    refine ⟨p, IdTable.mem_save.mpr (.inr ⟨rfl, q, hq, hid⟩), ?_, ?_, ?_⟩
    · rw [← hid, hq_id]
    · rw [hp.2.1, ← hr_silence, ← hqr, hq_silence]
    · rw [hp.2.2, ← hr_alert, ← hqr, hq_alert]
  · exact ⟨q, IdTable.mem_save.mpr (.inl ⟨hq, hid⟩), hq_id, hq_silence, hq_alert⟩

/-- A release lets nothing be held that was not. -/
theorem holds_of_released {application : Application} {n : ℕ}
    (h : (d.saveApplication (application.released reason now)).Holds n) : d.Holds n := by
  obtain ⟨p, hp, hn, hactive⟩ := h
  rcases IdTable.mem_save.mp hp with ⟨hp, -⟩ | ⟨rfl, -⟩
  · exact ⟨p, hp, hn, hactive⟩
  · cases hactive

/-- An application restores an open status that is not the silence. -/
theorem restoredStatus_open (application : Application) :
    application.restoredStatus ≠ .resolved ∧ application.restoredStatus ≠ .silenced := by
  unfold Application.restoredStatus
  split_ifs with h
  · rcases h with h | h <;> simp [h]
  · simp

/-- The application is let go, and the alert where nothing else holds it. -/
theorem releaseApplicationAlert_cases (application : Application) :
    ∃ released : Desk, released = d.saveApplication (application.released reason now) ∧
      ((d.releaseApplicationAlert reason now application = (released, none) ∧
          ∀ a ∈ d.store.alerts.rows, a.id = application.alert → a.status = .silenced →
            released.Holds a.id) ∨
        ∃ a ∈ d.store.alerts.rows, a.id = application.alert ∧ a.status = .silenced ∧
          ¬released.Holds a.id ∧
          d.releaseApplicationAlert reason now application =
            (released.saveAlert { a with
              previousStatus := some a.status
              status := application.restoredStatus
              silenced := false }, a.group)) := by
  refine ⟨_, rfl, ?_⟩
  unfold Desk.releaseApplicationAlert
  dsimp only
  -- the application is closed; its alert is gone, or is looked at
  split
  · rename_i hnone
    refine .inl ⟨rfl, fun a ha hid _ => ?_⟩
    rw [IdTable.get_eq_some.mpr ⟨ha, hid⟩] at hnone
    cases hnone
  · rename_i alert hfound
    obtain ⟨halert, halert_id⟩ := IdTable.get_eq_some.mp hfound
    have hsame : ∀ a ∈ d.store.alerts.rows, a.id = application.alert → a = alert :=
      fun a ha hid => IdTable.eq_of_id ha halert (hid.trans halert_id.symm)
    -- the alert stays when it is resolved, held by another application, or not silenced
    split_ifs with hresolved hother hsilenced
    · refine .inl ⟨rfl, fun a ha hid hs => ?_⟩
      rw [hsame a ha hid, hresolved] at hs
      cases hs
    · refine .inl ⟨rfl, fun a ha hid _ => ?_⟩
      rw [hsame a ha hid]
      exact hasOther_iff.mp hother
    · refine .inl ⟨rfl, fun a ha hid hs => absurd ?_ hsilenced⟩
      rw [← hsame a ha hid, hs]
    · exact .inr ⟨alert, halert, halert_id, not_not.mp hsilenced,
        fun h => hother (hasOther_iff.mpr h), rfl⟩

/-- **One application of the loop**: the alert is freed, unless another one holds it. -/
theorem release_round {changed : List ℕ} {d₀ : Desk} {application : Application}
    (h : Round due d₀ (d, changed)) (hrelates : d.Relates application) :
    Round due d₀ ((d.releaseApplicationAlert reason now application).1,
        changed ++ (d.releaseApplicationAlert reason now application).2.toList) ∧
      ∀ x, d.Relates x → (d.releaseApplicationAlert reason now application).1.Relates x := by
  obtain ⟨released, hreleased, ⟨hresult, hheld⟩ | ⟨a, ha, hid, hsilenced, hfree, hresult⟩⟩ :=
    releaseApplicationAlert_cases (d := d) reason now application
  -- only the application has changed
  · have hstore : released.store = d.store := by rw [hreleased]; rfl
    rw [hresult]
    refine ⟨⟨?_, (congrArg Store.groups hstore).trans h.groups, fun hd b hb hs => ?_,
      fun tracked hquiet b hb htracked hb_holds => ?_, fun n hn => ?_⟩, ?_⟩
    · show Tidy _ released.store
      rw [hstore, Option.toList_none, List.append_nil]
      exact h.working
    · have hb : b ∈ released.store.alerts.rows := hb
      rw [hstore] at hb
      by_cases hb_id : b.id = application.alert
      · exact hheld b hb hb_id hs
      · show released.Holds b.id
        rw [hreleased]
        refine holds_released hrelates ?_ hb_id (h.held hd b hb hs)
        rfl
    · have hb : b ∈ released.store.alerts.rows := hb
      rw [hstore] at hb
      have hb_holds : released.Holds b.id := hb_holds
      rw [hreleased] at hb_holds
      exact h.quiet tracked hquiet b hb htracked (holds_of_released reason now hb_holds)
    · obtain ⟨b, hb, hb_over⟩ := h.ended n hn
      refine ⟨b, ?_, hb_over⟩
      show b ∈ released.store.alerts.rows
      rwa [hstore]
    · intro x hx
      show released.Relates x
      rw [hreleased]
      exact relates_released hrelates ⟨rfl, rfl, rfl⟩ hx
  -- the alert gets its status of before, which is an open one
  · have hstore : released.store = d.store := by rw [hreleased]; rfl
    obtain ⟨hopen, hactive⟩ := restoredStatus_open application
    have ha_open : a.status ≠ .resolved := by simp [hsilenced]
    rw [hresult]
    refine ⟨⟨?_, (congrArg Store.groups hstore).trans h.groups, fun hd b hb hs => ?_,
      fun tracked hquiet => ?_, fun n hn => ?_⟩, ?_⟩
    -- its group is due to be counted
    · exact Working.saveAlert h.working hstore ha (tended_of_open _ ha_open hopen)
    · have hb : b ∈ (released.store.alerts.save _).rows := hb
      rw [hstore] at hb
      rcases IdTable.mem_save.mp hb with ⟨hb, hne⟩ | ⟨rfl, -⟩
      · show released.Holds b.id
        rw [hreleased]
        refine holds_released hrelates ?_ (fun hb_id => hne (hb_id.trans hid.symm))
          (h.held hd b hb hs)
        rfl
      · exact absurd hs hactive
    · refine Quiet.of_saveAlert (h.quiet tracked hquiet) hstore (fun n hn => .inl ?_) fun hn => ?_
      · rw [hreleased] at hn
        exact holds_of_released reason now hn
      · exact absurd hn hfree
    · refine Over.of_saveAlert (h.ended n hn) hstore ha ?_ ha_open
      rfl
    · intro x hx
      show released.Relates x
      rw [hreleased]
      exact relates_released hrelates ⟨rfl, rfl, rfl⟩ hx

/-- By induction on the applications. -/
theorem releaseApplications_round {d₀ : Desk} (applications : List Application)
    {state : Desk × List ℕ} (h : Round due d₀ state)
    (hrelates : ∀ x ∈ applications, state.1.Relates x) :
    Round due d₀ (applications.foldl
      (fun state application =>
        let (d, group) := state.1.releaseApplicationAlert reason now application
        (d, state.2 ++ group.toList)) state) := by
  induction applications generalizing state with
  | nil => exact h
  | cons x rest ih =>
    rw [List.foldl_cons]
    obtain ⟨hround, hkept⟩ := release_round reason now h (hrelates x List.mem_cons_self)
    exact ih hround fun y hy => hkept y (hrelates y (List.mem_cons_of_mem x hy))

/-- Releasing the applications of a silence keeps the desk steady. -/
theorem releaseSilence_steady (h : Tidy due d.store) (silence : Silence)
    (applications : List Application) (hrelates : ∀ x ∈ applications, d.Relates x)
    (respect : Bool) :
    Steady due d (d.releaseSilenceApplications silence reason now applications respect) := by
  unfold Desk.releaseSilenceApplications Desk.releaseApplications
  dsimp only
  split_ifs
  · exact (Steady.refl h).saveSilence _
  · exact ((releaseApplications_round reason now applications (.refl h) hrelates).recalculate
      .silenced .firing now).saveSilence _

theorem relates_of_mem {d : Desk} {p : Application} (hp : p ∈ d.applications.rows) :
    d.Relates p := ⟨p, hp, rfl, rfl, rfl⟩

end Release

/-! ## Reconciling -/

section Reconcile

variable {due : ℕ → Prop} {d : Desk} (rules : Matchers) (now : Instant)

theorem reconcileSilence_steady (h : Tidy due d.store) (silence : Silence) :
    Steady due d (d.reconcileSilence rules silence now) := by
  have hactive : ∀ x ∈ d.listActiveApplicationsForSilence silence.id, d.Relates x :=
    fun x hx => relates_of_mem (List.mem_filter.mp hx).1
  unfold Desk.reconcileSilence
  dsimp only
  split_ifs
  · exact (releaseSilence_steady .updated now h silence _ hactive false).saveSilence _
  · exact releaseSilence_steady _ now h silence _ hactive true
  · exact applySilence_steady rules silence now h
  · have hrelease := releaseSilence_steady .updated now h silence
      ((d.listActiveApplicationsForSilence silence.id).filter fun a =>
        !d.keepsApplication rules silence a)
      (fun x hx => hactive x (List.mem_filter.mp hx).1) false
    exact hrelease.trans (applySilence_steady rules silence now hrelease.tidy)

/-- The alerts that are still to come are the only ones that nothing holds. -/
def HeldBut (rest : List Alert) (d : Desk) : Prop :=
  ∀ a ∈ d.store.alerts.rows, a.status = .silenced → d.Holds a.id ∨ a ∈ rest

/-- The alert behind the first step has the status of before, or it is firing since
nothing held it and no active silence matches it. -/
def Desk.Backfilled (d : Desk) (a b : Alert) : Prop :=
  b.id = a.id ∧ (b.status = a.status ∨ (a.status = .silenced ∧ ¬d.Holds a.id ∧
    d.findActiveSilences a.team (fun s => rules.alert s a) now = [] ∧ b.status = .firing))

/-- What a round keeps: the alerts to come are silenced, and nothing holds them. -/
structure OrphanRound (due : ℕ → Prop) (d : Desk) (rest : List Alert) (state : Desk × List ℕ) :
    Prop where
  working : Working due state
  groups : state.1.store.groups = d.store.groups
  silences : state.1.silences = d.silences
  held : d.Plain → HeldBut rest state.1
  orphan : ∀ a ∈ rest, a ∈ d.orphans
  backfilled : ∀ b ∈ state.1.store.alerts.rows, ∃ a ∈ d.store.alerts.rows,
    d.Backfilled rules now a b
  free : ∀ a ∈ rest, ¬state.1.Holds a.id
  nodup : (rest.map (·.id)).Nodup
  quiet : ∀ tracked, d.Quiet tracked → state.1.Quiet tracked
  ended : ∀ n, d.Over n → state.1.Over n

/-- An orphan is silenced, and nothing holds it. -/
theorem mem_orphans {a : Alert} (ha : a ∈ d.orphans) :
    a ∈ d.store.alerts.rows ∧ a.status = .silenced ∧ ¬d.Holds a.id := by
  obtain ⟨hmem, hs⟩ := List.mem_filter.mp ha
  simp only [Bool.and_eq_true, decide_eq_true_eq, Bool.not_eq_true'] at hs
  refine ⟨hmem, hs.1.1, fun hholds => ?_⟩
  rw [hasOther_iff.mpr hholds] at hs
  cases hs.2

/-- **One orphan of the loop**: it is taken over by a silence that matches, or released. -/
theorem reconcileOrphan_round {d₀ : Desk} {state : Desk × List ℕ} {a : Alert} {rest : List Alert}
    (h : OrphanRound rules now due d₀ (a :: rest) state) (ha : a ∈ state.1.store.alerts.rows) :
    OrphanRound rules now due d₀ rest (Desk.reconcileOrphan rules now state a) ∧
      OthersKept state.1 (Desk.reconcileOrphan rules now state a).1 a.id := by
  obtain ⟨hbefore, hsilenced, hfree⟩ := mem_orphans (h.orphan a List.mem_cons_self)
  have hopen : a.status ≠ .resolved := by simp [hsilenced]
  obtain ⟨hnotin, hnodup⟩ := List.nodup_cons.mp h.nodup
  have hrest : ∀ b ∈ rest, b ∈ d₀.orphans :=
    fun b hb => h.orphan b (List.mem_cons_of_mem a hb)
  unfold Desk.reconcileOrphan
  -- no silence matches any more: the orphan is released
  split
  · rename_i hnone
    refine ⟨⟨?_, h.groups, h.silences, fun hplain b hb hs => ?_, hrest, fun b hb => ?_, fun b hb => ?_,
      hnodup, fun tracked hquiet => ?_, fun n hn => ?_⟩, othersKept_saveAlert⟩
    · exact Working.saveAlert h.working rfl ha (tended_of_open _ hopen (by simp))
    -- it is not silenced behind that, so nothing has to hold it
    · rcases IdTable.mem_save.mp hb with ⟨hb, hne⟩ | ⟨rfl, -⟩
      · refine (h.held hplain b hb hs).imp_right fun hmem => (List.mem_cons.mp hmem).resolve_left ?_
        rintro rfl
        exact hne rfl
      · cases hs
    · rcases IdTable.mem_save.mp hb with ⟨hb, -⟩ | ⟨rfl, -⟩
      · exact h.backfilled b hb
      · refine ⟨a, hbefore, rfl, .inr ⟨hsilenced, hfree, ?_, rfl⟩⟩
        unfold Desk.findActiveSilences at hnone ⊢
        rwa [h.silences] at hnone
    · exact h.free b (List.mem_cons_of_mem a hb)
    · exact Quiet.of_saveAlert (h.quiet tracked hquiet) rfl (fun _ hn => .inl hn) fun hn =>
        absurd hn (h.free a List.mem_cons_self)
    · refine Over.of_saveAlert (h.ended n hn) rfl ha ?_ hopen
      rfl
  -- some do, and hold it from now on
  · rename_i silences hnonempty
    obtain ⟨hstore, hsilences, hkept, hback, hholds⟩ :=
      record_spec a.id a.group (state.1.findActiveSilences a.team (fun s => rules.alert s a) now)
        now state.1
    refine ⟨⟨?_, (congrArg Store.groups hstore).trans h.groups, hsilences.trans h.silences,
      fun hplain b hb hs => ?_, hrest, fun b hb => h.backfilled b (hstore ▸ hb), fun b hb hn => ?_, hnodup, fun tracked hquiet b hb htracked hb_holds => ?_, fun n hn => ?_⟩,
      fun b hb _ => hstore ▸ hb⟩
    · show Tidy _ (state.1.recordNewAlertSilences a.id a.group _ now).store
      rw [hstore]
      exact h.working
    · rw [hstore] at hb
      rcases h.held hplain b hb hs with hb_held | hmem
      · exact .inl (hkept _ hb_held)
      · rcases List.mem_cons.mp hmem with rfl | hmem
        · exact .inl (hholds hnonempty)
        · exact .inr hmem
    -- the other orphans are not touched
    · rcases hback _ hn with hn | hid
      · exact h.free b (List.mem_cons_of_mem a hb) hn
      · exact hnotin (List.mem_map.mpr ⟨b, hb, hid⟩)
    · rw [hstore] at hb
      rcases hback _ hb_holds with hb_holds | hid
      · exact h.quiet tracked hquiet b hb htracked hb_holds
      · rw [IdTable.eq_of_id hb ha hid, hsilenced]
    · obtain ⟨b, hb, hb_over⟩ := h.ended n hn
      exact ⟨b, hstore ▸ hb, hb_over⟩

/-- In a store without merged groups the loop begins with all that nothing holds. -/
theorem orphans_round (h : Tidy due d.store) :
    OrphanRound rules now due d d.orphans (d, []) where
  working := h.mono fun _ hn => .inl hn
  groups := rfl
  silences := rfl
  orphan _ ha := ha
  backfilled b hb := ⟨b, hb, rfl, .inl rfl⟩
  held := by
    intro hplain a ha hs
    by_cases hheld : d.Holds a.id
    · exact .inl hheld
    · refine .inr (List.mem_filter.mpr ⟨ha, ?_⟩)
      -- the group of an alert that is not resolved is not resolved
      obtain ⟨g, hg, hgroup⟩ := h.grouped a ha
      have hopen : g.status ≠ .resolved := fun hresolved => by
        have hall := (h.faithful g hg (hplain g hg)).honest hresolved a
          (mem_children.mpr ⟨ha, hgroup⟩)
        rw [hs] at hall
        cases hall
      have hfound : d.store.groupOf a = some g := by
        unfold Store.groupOf
        rw [hgroup]
        exact IdTable.get_eq_some.mpr ⟨hg, rfl⟩
      have hother : d.hasOtherActiveApplication a.id = false :=
        Bool.eq_false_iff.mpr fun hother => hheld (hasOther_iff.mp hother)
      simp [hs, hfound, hopen, hother]
  free a ha := (mem_orphans ha).2.2
  nodup := filter_nodup d.store.alerts _
  quiet _ := id
  ended _ := id

/-- **Behind the first step of the lifecycle every silenced alert is held**, where no group
has been merged. -/
theorem reconcileOrphans_spec (h : Tidy due d.store) :
    Steady due d (d.reconcileOrphanSilencedAlerts rules now) ∧
      (d.Plain → (d.reconcileOrphanSilencedAlerts rules now).Held) ∧
      ∀ b ∈ (d.reconcileOrphanSilencedAlerts rules now).store.alerts.rows,
        ∃ a ∈ d.store.alerts.rows, d.Backfilled rules now a b := by
  have hloop := foldl_alerts (I := OrphanRound rules now due d)
    (fun a rest state hround ha => reconcileOrphan_round rules now hround ha)
    (filter_nodup d.store.alerts _) (d, []) (fun a ha => (List.mem_filter.mp ha).1)
    (orphans_round rules now h)
  -- where all are held there is nothing to do
  have hkept : d.Held → (d.orphans.foldl (Desk.reconcileOrphan rules now) (d, [])).1.Held := by
    intro hd
    have hempty : d.orphans = [] := List.eq_nil_iff_forall_not_mem.mpr fun a ha =>
      (mem_orphans ha).2.2 (hd a (mem_orphans ha).1 (mem_orphans ha).2.1)
    rw [hempty]
    exact hd
  unfold Desk.reconcileOrphanSilencedAlerts
  change OrphanRound rules now due d [] (d.orphans.foldl (Desk.reconcileOrphan rules now) (d, [])) at hloop
  generalize d.orphans.foldl (Desk.reconcileOrphan rules now) (d, []) = state at hloop hkept ⊢
  have hround : Round due d state :=
    ⟨hloop.working, hloop.groups, hkept, hloop.quiet, hloop.ended⟩
  obtain ⟨hstatus, happlications⟩ :=
    recalculateGroups_columns .silenced .firing now state.2 state.1
  refine ⟨hround.recalculate .silenced .firing now, fun hplain => ?_, fun c hc => ?_⟩
  · have hheld : state.1.Held :=
      fun a ha hs => (hloop.held hplain a ha hs).resolve_right List.not_mem_nil
    exact Held.of_same hheld hstatus fun n => (holds_congr happlications).mpr
  · obtain ⟨b, hb, hid, hsame⟩ := Rows.exists_left hstatus hc
    obtain ⟨a, ha, hid', hcases⟩ := hloop.backfilled b hb
    exact ⟨a, ha, hid.trans hid', by rwa [hsame]⟩

/-- By induction on the silences. -/
theorem foldl_steady {f : Desk → Silence → Desk}
    (hf : ∀ {d s}, Tidy due d.store → Steady due d (f d s)) (silences : List Silence) {d : Desk}
    (h : Tidy due d.store) : Steady due d (silences.foldl f d) := by
  induction silences generalizing d with
  | nil => exact .refl h
  | cons s silences ih =>
    rw [List.foldl_cons]
    exact (hf h).trans (ih (hf h).tidy)

/-- The other steps of the lifecycle keep what the first one brings about. -/
theorem lifecycle_steady (h : Tidy due d.store) :
    Steady due d (d.processSilenceLifecycle rules now) ∧
      (d.Plain → (d.processSilenceLifecycle rules now).Held) := by
  obtain ⟨horphans, hheld, -⟩ := reconcileOrphans_spec rules now h
  have htidy := horphans.tidy
  unfold Desk.processSilenceLifecycle
  dsimp only
  generalize d.reconcileOrphanSilencedAlerts rules now = d₁ at htidy horphans hheld ⊢
  have happlied := foldl_steady (f := fun d s => d.applySilenceToExistingAlerts rules s now)
    (fun h => applySilence_steady rules _ now h) (d₁.listDueRetroactiveSilences now) htidy
  generalize (d₁.listDueRetroactiveSilences now).foldl
    (fun d s => d.applySilenceToExistingAlerts rules s now) d₁ = d₂ at happlied ⊢
  have hreleased := foldl_steady (f := fun d s => d.releaseEnded now s)
    (fun {d s} h => releaseSilence_steady _ now h s _
      (fun x hx => relates_of_mem (List.mem_filter.mp hx).1) true)
    (d₂.listSilencesWithDueReleases now) happlied.tidy
  exact ⟨(horphans.trans happlied).trans hreleased,
    fun hplain => hreleased.held (happlied.held (hheld hplain))⟩

end Reconcile

end IncidentRelay.Alerts
