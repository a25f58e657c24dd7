import IncidentRelay.Alerts.SilenceLifecycle

/-!
# The order of releases

A release frees a silenced alert when it was the last application of it, gives it the
status that the application remembers, and leaves every other alert. Applications that
remember the same status can be released in any order.
-/

namespace IncidentRelay.Alerts

/-! ## Rows of releases -/

section Order

/-- The releases of these applications let the alert go: it is silenced, one of them is of
it, and nothing else holds it. -/
def Freed (d : Desk) (released : List Application) (a : Alert) : Prop :=
  a.status = .silenced ∧ (∃ x ∈ released, x.alert = a.id) ∧
    ∀ p ∈ d.applications.rows, p.active = true → p.alert = a.id → ∃ x ∈ released, x.id = p.id

/-- Applications are released one behind the other; in between groups are recalculated. -/
inductive Releases : Desk → List Application → Desk → Prop where
  | done (d : Desk) : Releases d [] d
  | settle {d d₁ d' : Desk} {released : List Application} :
      SameStatuses d.store d₁.store → d₁.applications = d.applications → Releases d₁ released d' →
      Releases d released d'
  | release {d d' : Desk} {released : List Application} {reason : ReleaseReason} {now : Instant}
      {x : Application} : Releases (d.releaseApplicationAlert reason now x).1 released d' →
      Releases d (x :: released) d'

/-- Two releases after another. -/
theorem Releases.append {d d' d'' : Desk} {xs ys : List Application} (h : Releases d xs d')
    (h' : Releases d' ys d'') : Releases d (xs ++ ys) d'' := by
  induction h with
  | done => exact h'
  | settle hstatus happlications _ ih => exact .settle hstatus happlications (ih h')
  | release _ ih => exact .release (ih h')

/-- The status of an alert behind the releases. -/
def FreedTo (d : Desk) (released : List Application) (restored : ℕ → Status) (a b : Alert) : Prop :=
  b.id = a.id ∧ (Freed d released a → b.status = restored a.id) ∧
    (¬Freed d released a → b.status = a.status)

/-- A release frees the alert of the application, and sets it to the status that was kept. -/
theorem releaseApplicationAlert_statuses {d : Desk} (reason : ReleaseReason) (now : Instant)
    {x : Application} (hrelates : d.Relates x) :
    List.Forall₂ (FreedTo d [x] fun _ => x.restoredStatus) d.store.alerts.rows
      (d.releaseApplicationAlert reason now x).1.store.alerts.rows := by
  obtain ⟨released, hreleased, hcases⟩ := releaseApplicationAlert_cases (d := d) reason now x
  -- what holds the alert behind the release is another application
  have hfreed : ∀ a : Alert, a.id = x.alert → a.status = .silenced →
      (Freed d [x] a ↔ ¬released.Holds a.id) := by
    intro a hid hsilenced
    constructor
    · rintro ⟨-, -, hall⟩ ⟨p, hp, hpn, hactive⟩
      rw [hreleased] at hp
      rcases IdTable.mem_save.mp hp with ⟨hp, hne⟩ | ⟨rfl, -⟩
      · obtain ⟨y, hy, hy_id⟩ := hall p hp hactive hpn
        obtain rfl := List.mem_singleton.mp hy
        exact hne hy_id.symm
      · cases hactive
    · intro hholds
      refine ⟨hsilenced, ⟨x, List.mem_singleton.mpr rfl, hid.symm⟩, fun p hp hactive hpn => ?_⟩
      refine ⟨x, List.mem_singleton.mpr rfl, ?_⟩
      by_contra hne
      refine hholds ⟨p, ?_, hpn, hactive⟩
      rw [hreleased]
      exact IdTable.mem_save.mpr (.inl ⟨hp, fun h => hne h.symm⟩)
  have hnot : ∀ a : Alert, a.id ≠ x.alert → ¬Freed d [x] a := by
    rintro a hne ⟨-, ⟨y, hy, hy_alert⟩, -⟩
    obtain rfl := List.mem_singleton.mp hy
    exact hne hy_alert.symm
  have hstore : released.store = d.store := by rw [hreleased]; rfl
  rcases hcases with ⟨hresult, hheld⟩ | ⟨a, ha, hid, hsilenced, hfree, hresult⟩
  · rw [hresult]
    show List.Forall₂ _ _ released.store.alerts.rows
    rw [hstore]
    refine List.forall₂_same.mpr fun b hb => ⟨rfl, fun hb_freed => ?_, fun _ => rfl⟩
    by_cases hb_id : b.id = x.alert
    · exact absurd (hheld b hb hb_id hb_freed.1) ((hfreed b hb_id hb_freed.1).mp hb_freed)
    · exact absurd hb_freed (hnot b hb_id)
  · rw [hresult]
    show List.Forall₂ _ _ (released.store.alerts.save _).rows
    rw [hstore]
    refine List.forall₂_map_right_iff.mpr (List.forall₂_same.mpr fun b hb => ?_)
    dsimp only
    by_cases hb_id : b.id = a.id
    · obtain rfl := IdTable.eq_of_id hb ha hb_id
      rw [if_pos (decide_eq_true rfl), if_pos rfl]
      exact ⟨rfl, fun _ => rfl, fun hb_not => absurd ((hfreed b hid hsilenced).mpr hfree) hb_not⟩
    · rw [if_neg (by simpa using hb_id)]
      exact ⟨rfl, fun hb_freed => absurd hb_freed (hnot b fun h => hb_id (h.trans hid.symm)),
        fun _ => rfl⟩

theorem releaseApplicationAlert_applications {d : Desk} (reason : ReleaseReason) (now : Instant)
    (x : Application) : (d.releaseApplicationAlert reason now x).1.applications =
      (d.saveApplication (x.released reason now)).applications := by
  obtain ⟨released, rfl, ⟨hresult, -⟩ | ⟨a, -, -, -, -, hresult⟩⟩ :=
    releaseApplicationAlert_cases (d := d) reason now x
  · rw [hresult]
  · rw [hresult]
    rfl

/-- The alert is silenced. -/
def Desk.Silenced (d : Desk) (n : ℕ) : Prop :=
  ∃ a ∈ d.store.alerts.rows, a.id = n ∧ a.status = .silenced

/-- A release silences no alert. -/
theorem silenced_of_release {d : Desk} {reason : ReleaseReason} {now : Instant} {x : Application}
    (hrelates : d.Relates x) {n : ℕ} (h : (d.releaseApplicationAlert reason now x).1.Silenced n) :
    d.Silenced n := by
  obtain ⟨b, hb, hid, hsilenced⟩ := h
  obtain ⟨a, ha, hab_id, hfreed, hnot⟩ :=
    Rows.exists_left (releaseApplicationAlert_statuses reason now hrelates) hb
  by_cases hgone : Freed d [x] a
  · exact absurd ((hfreed hgone).symm.trans hsilenced) (restoredStatus_open x).2
  · exact ⟨a, ha, hab_id.symm.trans hid, (hnot hgone).symm.trans hsilenced⟩

/-- **What a row of releases lets go.** The induction is on the releases; an alert that is
let go is not silenced any more, and one that is not is looked at again by the rest. -/
theorem Releases.statuses {restored : ℕ → Status} {d d' : Desk} {released : List Application}
    (h : Releases d released d') (hrelates : ∀ x ∈ released, d.Relates x)
    (hagree : ∀ x ∈ released, d.Silenced x.alert → x.restoredStatus = restored x.alert) :
    List.Forall₂ (FreedTo d released restored) d.store.alerts.rows d'.store.alerts.rows := by
  induction h with
  | done d =>
    refine List.forall₂_same.mpr fun a _ => ⟨rfl, fun hfreed => ?_, fun _ => rfl⟩
    obtain ⟨x, hx, -⟩ := hfreed.2.1
    exact absurd hx List.not_mem_nil
  | @settle d d₁ d' released hstatus happlications _ ih =>
    have hrest := ih (fun x hx => by
      obtain ⟨p, hp, hpx⟩ := hrelates x hx
      exact ⟨p, happlications ▸ hp, hpx⟩) fun x hx hsilenced => by
        obtain ⟨b, hb, hid, hb_status⟩ := hsilenced
        obtain ⟨a, ha, hab⟩ := Rows.exists_left hstatus hb
        exact hagree x hx ⟨a, ha, hab.1.symm.trans hid, hab.2.symm.trans hb_status⟩
    refine Rows.trans hstatus hrest ?_
    rintro a b c ⟨hid, hsame⟩ ⟨hid', hfreed, hnot⟩
    have hiff : Freed d₁ released b ↔ Freed d released a := by
      unfold Freed
      rw [hsame, hid, happlications]
    exact ⟨hid'.trans hid, fun h => by rw [hfreed (hiff.mpr h), hid],
      fun h => by rw [hnot fun hb => h (hiff.mp hb), hsame]⟩
  | @release d d' released reason now x _ ih =>
    have hx := hrelates x List.mem_cons_self
    have hstep := releaseApplicationAlert_statuses reason now hx
    have happlications := releaseApplicationAlert_applications (d := d) reason now x
    have hrest := ih (fun y hy => by
      obtain ⟨p, hp, hpy⟩ := @relates_released d x (x.released reason now) y hx ⟨rfl, rfl, rfl⟩
        (hrelates y (List.mem_cons_of_mem x hy))
      exact ⟨p, happlications ▸ hp, hpy⟩) fun y hy hsilenced =>
        hagree y (List.mem_cons_of_mem x hy) (silenced_of_release hx hsilenced)
    -- the rows are those of the desk
    have hstored := (List.forall₂_and_left _ _).mpr ⟨fun a ha => ha, hstep⟩
    refine Rows.trans hstored hrest ?_
    rintro a b c ⟨hstored, hid, hfirst, hfirst_not⟩ ⟨hid', hfreed, hnot⟩
    by_cases ha : Freed d [x] a
    · -- the first release lets it go
      have hb : b.status = x.restoredStatus := hfirst ha
      have hx_alert : x.alert = a.id := by
        obtain ⟨y, hy, hy_alert⟩ := ha.2.1
        rwa [List.mem_singleton.mp hy] at hy_alert
      have hc : c.status = x.restoredStatus := by
        rw [hnot fun hb' => (restoredStatus_open x).2 (hb ▸ hb'.1), hb]
      have hall : Freed d (x :: released) a := by
        refine ⟨ha.1, ⟨x, List.mem_cons_self, hx_alert⟩, fun p hp hactive hpn => ?_⟩
        obtain ⟨y, hy, hy_id⟩ := ha.2.2 p hp hactive hpn
        rw [List.mem_singleton.mp hy] at hy_id
        exact ⟨x, List.mem_cons_self, hy_id⟩
      refine ⟨hid'.trans hid, fun _ => ?_, fun h => absurd hall h⟩
      rw [hc, hagree x List.mem_cons_self ⟨a, hstored, hx_alert.symm, ha.1⟩, hx_alert]
    · have hb := hfirst_not ha
      have hiff : Freed (d.releaseApplicationAlert reason now x).1 released b ↔
          Freed d (x :: released) a := by
        unfold Freed
        rw [hb, hid, happlications]
        constructor
        · rintro ⟨hsilenced, ⟨y, hy, hy_alert⟩, hall⟩
          refine ⟨hsilenced, ⟨y, List.mem_cons_of_mem x hy, hy_alert⟩, fun p hp hactive hpn => ?_⟩
          by_cases hpx : p.id = x.id
          · exact ⟨x, List.mem_cons_self, hpx.symm⟩
          · obtain ⟨z, hz, hz_id⟩ := hall p (IdTable.mem_save.mpr (.inl ⟨hp, hpx⟩)) hactive hpn
            exact ⟨z, List.mem_cons_of_mem x hz, hz_id⟩
        · rintro ⟨hsilenced, hsome, hall⟩
          have hothers : ∀ p ∈ d.applications.rows, p.active = true → p.alert = a.id →
              p.id ≠ x.id → ∃ y ∈ released, y.id = p.id := by
            intro p hp hactive hpn hne
            obtain ⟨y, hy, hy_id⟩ := hall p hp hactive hpn
            rcases List.mem_cons.mp hy with rfl | hy
            · exact absurd hy_id.symm hne
            · exact ⟨y, hy, hy_id⟩
          refine ⟨hsilenced, ?_, fun p hp hactive hpn => ?_⟩
          · obtain ⟨y, hy, hy_alert⟩ := hsome
            rcases List.mem_cons.mp hy with rfl | hy
            · -- the first release is of it, so another application holds it
              by_contra hnone
              refine ha ⟨hsilenced, ⟨y, List.mem_singleton.mpr rfl, hy_alert⟩,
                fun p hp hactive hpn => ⟨y, List.mem_singleton.mpr rfl, ?_⟩⟩
              by_contra hne
              obtain ⟨z, hz, hz_id⟩ := hothers p hp hactive hpn fun h => hne h.symm
              obtain ⟨q, hq, hq_id, -, hq_alert⟩ := hrelates z (List.mem_cons_of_mem y hz)
              refine hnone ⟨z, hz, ?_⟩
              rw [← hq_alert, IdTable.eq_of_id hq hp (hq_id.trans hz_id), hpn]
            · exact ⟨y, hy, hy_alert⟩
          · rcases IdTable.mem_save.mp hp with ⟨hp, hne⟩ | ⟨rfl, -⟩
            · exact hothers p hp hactive hpn hne
            · cases hactive
      exact ⟨hid'.trans hid, fun h => by rw [hfreed (hiff.mpr h), hid],
        fun h => by rw [hnot fun hb' => h (hiff.mp hb'), hb]⟩

/-- **Applications that agree on the status of a silenced alert can be released in any order.** -/
theorem releases_ordered {d d₁ d₂ : Desk} {xs ys : List Application} (hperm : xs.Perm ys)
    (h₁ : Releases d xs d₁) (h₂ : Releases d ys d₂) (hrelates : ∀ x ∈ xs, d.Relates x)
    (hagree : ∀ x ∈ xs, ∀ y ∈ xs, x.alert = y.alert → d.Silenced x.alert →
      x.restoredStatus = y.restoredStatus) :
    SameStatuses d₁.store d₂.store := by
  classical
  -- the status that an alert gets back does not depend on which of its applications is released
  let restored : ℕ → Status := fun n =>
    if h : ∃ x ∈ xs, x.alert = n then h.choose.restoredStatus else .firing
  have hrestored : ∀ x ∈ xs, d.Silenced x.alert → x.restoredStatus = restored x.alert := by
    intro x hx hsilenced
    have hsome : ∃ y ∈ xs, y.alert = x.alert := ⟨x, hx, rfl⟩
    show _ = dite _ _ _
    rw [dif_pos hsome]
    exact hagree x hx _ hsome.choose_spec.1 hsome.choose_spec.2.symm hsilenced
  have hfirst := h₁.statuses hrelates hrestored
  have hsecond := h₂.statuses (fun y hy => hrelates y (hperm.mem_iff.mpr hy))
    fun y hy => hrestored y (hperm.mem_iff.mpr hy)
  refine Rows.trans hfirst.flip hsecond ?_
  rintro b a c ⟨hid, hfreed, hnot⟩ ⟨hid', hfreed', hnot'⟩
  have hiff : Freed d ys a ↔ Freed d xs a := by
    unfold Freed
    simp only [hperm.mem_iff]
  refine ⟨hid'.trans hid.symm, ?_⟩
  -- an alert is free in both orders, or in none
  by_cases ha : Freed d xs a
  · rw [hfreed ha, hfreed' (hiff.mpr ha)]
  · rw [hnot ha, hnot' fun h => ha (hiff.mp h)]

end Order

/-! ## Silences that end -/

section Ends

/-- The relations of another silence are those of before. -/
theorem listActive_released {d : Desk} (reason : ReleaseReason) (now : Instant) {x : Application}
    {silenceId : ℕ} (hrelates : d.Relates x) (hother : x.silence ≠ silenceId) :
    (d.saveApplication (x.released reason now)).listActiveApplicationsForSilence silenceId =
      d.listActiveApplicationsForSilence silenceId := by
  obtain ⟨r, hr, hr_id, hr_silence, -⟩ := hrelates
  have hrow : ∀ p ∈ d.applications.rows, p.id = x.id → p.silence ≠ silenceId := by
    intro p hp hid
    rwa [IdTable.eq_of_id hp hr (hid.trans hr_id.symm), hr_silence]
  -- the release closes one row, of another silence
  unfold Desk.listActiveApplicationsForSilence Desk.saveApplication IdTable.save IdTable.update
    Table.update
  dsimp only
  clear hr
  generalize d.applications.rows = rows at hrow
  induction rows with
  | nil => rfl
  | cons p rest ih =>
    have hrest := ih fun q hq => hrow q (List.mem_cons_of_mem p hq)
    rw [List.map_cons, List.filter_cons, List.filter_cons, hrest]
    by_cases hid : p.id = x.id
    · have hp := hrow p List.mem_cons_self hid
      simp [Application.released, hid, hp, hother]
    · simp [Application.released, hid]

/-- What a release closes is no application of another silence. -/
theorem Releases.listActive {d d' : Desk} {released : List Application} (h : Releases d released d')
    (hrelates : ∀ x ∈ released, d.Relates x) {silenceId : ℕ}
    (hother : ∀ x ∈ released, x.silence ≠ silenceId) :
    d'.listActiveApplicationsForSilence silenceId =
      d.listActiveApplicationsForSilence silenceId := by
  induction h with
  -- neither settling nor releasing an application of another silence is seen here
  | done => rfl
  | @settle d d₁ d' released _ happlications _ ih =>
    have hsame : d₁.listActiveApplicationsForSilence silenceId =
        d.listActiveApplicationsForSilence silenceId := by
      unfold Desk.listActiveApplicationsForSilence
      rw [happlications]
    refine (ih (fun x hx => ?_) hother).trans hsame
    obtain ⟨p, hp, hpx⟩ := hrelates x hx
    exact ⟨p, happlications ▸ hp, hpx⟩
  | @release d d' released reason now x _ ih =>
    have hx := hrelates x List.mem_cons_self
    have happlications := releaseApplicationAlert_applications (d := d) reason now x
    have hsame : (d.releaseApplicationAlert reason now x).1.listActiveApplicationsForSilence
        silenceId = d.listActiveApplicationsForSilence silenceId := by
      refine Eq.trans ?_ (listActive_released reason now hx (hother x List.mem_cons_self))
      unfold Desk.listActiveApplicationsForSilence
      rw [happlications]
    refine (ih (fun y hy => ?_) fun y hy => hother y (List.mem_cons_of_mem x hy)).trans hsame
    obtain ⟨p, hp, hpy⟩ := @relates_released d x (x.released reason now) y hx ⟨rfl, rfl, rfl⟩
      (hrelates y (List.mem_cons_of_mem x hy))
    exact ⟨p, happlications ▸ hp, hpy⟩

/-- By induction on the applications that the loop goes through. -/
theorem releases_of_loop (reason : ReleaseReason) (now : Instant) (applications : List Application)
    (state : Desk × List ℕ) : Releases state.1 applications (applications.foldl
      (fun state application =>
        let (d, group) := state.1.releaseApplicationAlert reason now application
        (d, state.2 ++ group.toList)) state).1 := by
  induction applications generalizing state with
  | nil => exact .done _
  | cons x rest ih =>
    rw [List.foldl_cons]
    exact @Releases.release _ _ _ reason now x (ih (_, _))

/-- Groups are recalculated behind the last release. -/
theorem Releases.settled {d d₁ d' : Desk} {released : List Application} (h : Releases d released d₁)
    (hstatus : SameStatuses d₁.store d'.store) (happlications : d'.applications = d₁.applications) :
    Releases d released d' := by
  have hboth := h.append (.settle hstatus happlications (.done d'))
  rwa [List.append_nil] at hboth

/-- The applications of a silence are released, unless they are retained. -/
theorem releaseSilence_releases (d : Desk) (silence : Silence) (reason : ReleaseReason)
    (now : Instant) (applications : List Application) (respect : Bool)
    (hreleased : ¬(respect = true ∧ silence.reactivateOnEnd = false)) :
    Releases d applications
      (d.releaseSilenceApplications silence reason now applications respect) := by
  unfold Desk.releaseSilenceApplications Desk.releaseApplications
  rw [if_neg (by simpa using hreleased)]
  obtain ⟨hstatus, happlications⟩ := recalculateGroups_columns .silenced .firing now _ _
  exact ((releases_of_loop reason now applications (d, [])).settled hstatus happlications).settled
    (.refl _) rfl

/-- A silence that has ended, and lets go what it holds. -/
def Ends (silence : Silence) (now : Instant) : Prop :=
  silence.isActive now = false ∧ (silence.reactivateOnEnd = true ∨
    (silence.enabled = true ∧ silence.deleted = false ∧ now < silence.startsAt))

/-- A silence that ends releases what it applies to. -/
theorem reconcileSilence_releases (d : Desk) (rules : Matchers) {silence : Silence} {now : Instant}
    (hends : Ends silence now) :
    Releases d (d.listActiveApplicationsForSilence silence.id)
      (d.reconcileSilence rules silence now) := by
  unfold Desk.reconcileSilence
  dsimp only
  rw [if_pos (by simp [hends.1])]
  split_ifs with hwaits
  · exact (releaseSilence_releases d silence .updated now _ false (by simp)).settled (.refl _) rfl
  · refine releaseSilence_releases d silence _ now _ true ?_
    rintro ⟨-, hretained⟩
    rcases hends.2 with hreactivates | ⟨henabled, hdeleted, hstart⟩
    · rw [hreactivates] at hretained
      cases hretained
    · exact hwaits (by simp [henabled, hdeleted, hstart])

/-- Silences that end one behind the other release what each of them held at the start. -/
theorem foldl_releases {κ : Type} {f : Desk → κ → Desk} {silenceId : κ → ℕ}
    {ks : List κ}
    (hf : ∀ k ∈ ks, ∀ d, Releases d (d.listActiveApplicationsForSilence (silenceId k)) (f d k))
    (hnodup : (ks.map silenceId).Nodup) (d : Desk) :
    Releases d (ks.flatMap fun k => d.listActiveApplicationsForSilence (silenceId k))
      (ks.foldl f d) := by
  -- by induction on the silences, each of which finds its own applications as they were
  induction ks generalizing d with
  | nil => exact .done d
  | cons k ks ih =>
    rw [List.map_cons, List.nodup_cons] at hnodup
    rw [List.foldl_cons, List.flatMap_cons]
    have hfirst := hf k List.mem_cons_self d
    refine hfirst.append ?_
    have hrest := ih (fun k' hk' => hf k' (List.mem_cons_of_mem k hk')) hnodup.2 (f d k)
    have hsame : ∀ k' ∈ ks, (f d k).listActiveApplicationsForSilence (silenceId k') =
        d.listActiveApplicationsForSilence (silenceId k') := by
      intro k' hk'
      refine hfirst.listActive (fun x hx => relates_of_mem (List.mem_filter.mp hx).1)
        fun x hx hid => hnodup.1 ?_
      have hk := (Bool.and_eq_true_iff.mp (List.mem_filter.mp hx).2).1
      rw [← (of_decide_eq_true hk : x.silence = silenceId k), hid]
      exact List.mem_map_of_mem hk'
    rwa [List.flatMap_congr hsame] at hrest

/-- The active applications of a silenced alert remember the same status. -/
def Desk.Agrees (d : Desk) : Prop :=
  ∀ p ∈ d.applications.rows, ∀ q ∈ d.applications.rows, p.active = true → q.active = true →
    p.alert = q.alert → d.Silenced p.alert → p.restoredStatus = q.restoredStatus

/-- **Silences can end in any order** where the applications of a silenced alert agree. -/
theorem ends_ordered {κ : Type} {f : Desk → κ → Desk} {silenceId : κ → ℕ}
    {ks ks' : List κ}
    (hf : ∀ k ∈ ks, ∀ d, Releases d (d.listActiveApplicationsForSilence (silenceId k)) (f d k))
    (hperm : ks.Perm ks') (hnodup : (ks.map silenceId).Nodup) {d : Desk} (hagrees : d.Agrees) :
    SameStatuses (ks.foldl f d).store (ks'.foldl f d).store := by
  have hnodup' : (ks'.map silenceId).Nodup := ((hperm.map silenceId).nodup_iff).mp hnodup
  have hactive : ∀ x ∈ ks.flatMap fun k => d.listActiveApplicationsForSilence (silenceId k),
      x ∈ d.applications.rows ∧ x.active = true := by
    intro x hx
    obtain ⟨k, -, hx⟩ := List.mem_flatMap.mp hx
    obtain ⟨hmem, hx⟩ := List.mem_filter.mp hx
    exact ⟨hmem, (Bool.and_eq_true_iff.mp hx).2⟩
  refine releases_ordered (hperm.flatMap_right _) (foldl_releases hf hnodup d)
    (foldl_releases (fun k hk => hf k (hperm.mem_iff.mpr hk)) hnodup' d) (fun x hx => relates_of_mem (hactive x hx).1) ?_
  intro x hx y hy
  exact hagrees x (hactive x hx).1 y (hactive y hy).1 (hactive x hx).2 (hactive y hy).2

end Ends

end IncidentRelay.Alerts
