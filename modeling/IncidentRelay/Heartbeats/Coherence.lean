import IncidentRelay.Heartbeats.Detection
import IncidentRelay.Heartbeats.Instances
import IncidentRelay.Lib.Result
import IncidentRelay.Lib.Run

/-!
# Statuses and alerts of heartbeats

Whether the status of a heartbeat or an instance, the start of its overdue period
and the alert opened for it stay together. A check and a ping write all three. A
pause writes the status only, and the resume after it gives back `ok` or `new`:
a pause that begins in an overdue period leaves `overdue_since` and the alert
behind (`pause_loses_period`). An overdue event that orchestration pauses opens its
alert later, whatever the heartbeat does meanwhile, and a group that other alerts
share is resolved for all of them.

 * `coherent_step`: what each operation preserves.
 * `heartbeat_run`: with none of these, the state of every run is coherent and a
   ping that ends an overdue period resolves exactly the alerts of that period.
-/

namespace IncidentRelay.Heartbeats

/-- The columns of a row that go together. -/
structure Row where
  status : Status
  overdueSince : Option Int
  currentAlertGroup : Option Id
  deriving DecidableEq

def Heartbeat.row (h : Heartbeat) : Row := ⟨h.status, h.overdueSince, h.currentAlertGroup⟩

def Instance.row (i : Instance) : Row := ⟨i.status, i.overdueSince, i.currentAlertGroup⟩

/-- The rows of the heartbeat and of its instances, with the owners of their alerts. -/
def World.rows (w : World) : List (Owner × Row) :=
  (.heartbeat, w.monitor.heartbeat.row) ::
    w.monitor.instances.map fun i => (.instance i.key, i.row)

/-- A row with status `ok` or `new` has no overdue period and no alert of its own is
left open. -/
def Calm (w : World) : Prop :=
  ∀ p ∈ w.rows, p.2.status = .ok ∨ p.2.status = .new →
    p.2.overdueSince = none ∧ w.board.hasOpen p.1 = false

/-- The row a ping is for. -/
def pinged (w : World) (key : Option String) : Option (Owner × Row) :=
  let h := w.monitor.heartbeat
  if h.deleted = true ∨ h.enabled = false then none
  else if h.instanceTrackingEnabled then
    ((key.bind w.monitor.getInstance).filter (·.enabled)).map fun i => (.instance i.key, i.row)
  else some (.heartbeat, h.row)

/-- The row whose overdue period the event ends. -/
def recovering (w : World) : Event → Option (Owner × Row)
  | .ping key _ => (pinged w key).filter (·.2.status = .overdue)
  | _ => none

/-- The alerts of the owner, resolved. -/
def Board.resolvedFor (b : Board) (x : Owner) : List Alert :=
  b.alerts.map fun a => if a.owner = x then { a with unresolved := false } else a

/-- A ping that ends an overdue period resolves the alerts opened for it, and no
other one. -/
def ResolvesOwn (w : World) (e : Event) : Prop :=
  ∀ p, recovering w e = some p → (step w e).board.alerts = w.board.resolvedFor p.1

/-! ## The alert store -/

namespace Board

variable {b : Board} {x y : Owner} {group : Id}

theorem hasOpen_iff : b.hasOpen x = true ↔
    ∃ a ∈ b.alerts, a.owner = x ∧ a.unresolved = true := by
  simp [hasOpen]

/-- What fires for another row is no alert of this one. -/
theorem hasOpen_fire_of_ne (hne : x ≠ y) : (b.fire y group).hasOpen x = b.hasOpen x := by
  unfold fire hasOpen
  dsimp only
  split
  · rfl
  · simp [hne.symm]

theorem hasOpen_upsert_of_ne (hne : x ≠ y) (answer : Answer) :
    (b.upsert y answer).hasOpen x = b.hasOpen x := by
  cases answer with
  | group id => exact hasOpen_fire_of_ne hne
  | paused | stopped | failed => rfl

theorem hasOpen_activate_of_ne (hne : x ≠ y) :
    (b.activate y group).hasOpen x = b.hasOpen x := by
  unfold activate
  split
  · rw [hasOpen_fire_of_ne hne]
    rfl
  · rfl

/-- The owner has no open alert in the one store that is not in the other. -/
def Less (b' b : Board) (x : Owner) : Prop :=
  ∀ a ∈ b'.alerts, a.owner = x → a.unresolved = true → a ∈ b.alerts

theorem Less.hasOpen {b' : Board} (hless : Less b' b x) (h : b'.hasOpen x = true) :
    b.hasOpen x = true := by
  obtain ⟨a, ha, howner, hopen⟩ := hasOpen_iff.mp h
  exact hasOpen_iff.mpr ⟨a, hless a ha howner hopen, howner, hopen⟩

/-- Resolving a group opens nothing. -/
theorem less_resolve : Less (b.resolve group) b x := by
  unfold resolve
  split
  · intro a ha _ hopen
    obtain ⟨a₀, ha₀, rfl⟩ := List.mem_map.mp ha
    by_cases hgroup : a₀.group = group
    · simp [hgroup] at hopen
    · rw [if_neg hgroup]
      exact ha₀
  · exact fun a ha _ _ => ha

theorem less_resolveCurrent (current : Option Id) : Less (b.resolveCurrent current) b x := by
  cases current with
  | none => exact fun a ha _ _ => ha
  | some group => exact less_resolve

end Board

/-! ## Coherence -/

/-- An open alert is in an open group. -/
def Board.Consistent (b : Board) : Prop :=
  ∀ a ∈ b.alerts, a.unresolved = true → a.group ∈ b.openGroups

/-- A row outside overdue periods says so, and outside of them has no open alert. -/
structure RowCoherent (b : Board) (x : Owner) (r : Row) : Prop where
  calm : r.status = .ok ∨ r.status = .new → r.overdueSince = none
  closed : r.overdueSince = none → b.hasOpen x = false

/-- The invariant of the runs. -/
structure Coherent (w : World) : Prop where
  heartbeat : RowCoherent w.board .heartbeat w.monitor.heartbeat.row
  instances : ∀ i ∈ w.monitor.instances, RowCoherent w.board (.instance i.key) i.row
  /-- Instances that have no row have no alert. -/
  unknown : ∀ key, key ∉ w.monitor.instances.map (·.key) →
    w.board.hasOpen (.instance key) = false
  /-- The heartbeat of a tracking one only sums up its instances. -/
  tracking : w.monitor.heartbeat.instanceTrackingEnabled = true →
    w.monitor.heartbeat.overdueSince = none
  board : w.board.Consistent
  autoResolve : w.monitor.autoResolve = true

/-- In a coherent world no row that is up has an open alert. -/
theorem Coherent.calm {w : World} (hw : Coherent w) : Calm w := by
  intro p hp hstatus
  have hrow : RowCoherent w.board p.1 p.2 := by
    rcases List.mem_cons.mp hp with rfl | hp
    · exact hw.heartbeat
    · obtain ⟨i, hi, rfl⟩ := List.mem_map.mp hp
      exact hw.instances i hi
  have hnone := hrow.calm hstatus
  exact ⟨hnone, hrow.closed hnone⟩

section Rows

variable {b b' : Board} {x : Owner} {r r' : Row}

/-- A store with no more open alerts. -/
theorem RowCoherent.mono (hr : RowCoherent b x r)
    (hless : b'.hasOpen x = true → b.hasOpen x = true) : RowCoherent b' x r where
  calm := hr.calm
  closed := by
    intro hnone
    rw [Bool.eq_false_iff]
    intro hopen
    have hclosed := hr.closed hnone
    rw [hless hopen] at hclosed
    exact Bool.noConfusion hclosed

/-- In an overdue period nothing is asked of a row. -/
theorem rowCoherent_of_overdue (hstatus : r.status = .overdue)
    (hsince : r.overdueSince ≠ none) : RowCoherent b x r where
  calm := by simp [hstatus]
  closed := fun h => absurd h hsince

/-- A row that keeps its period, with a status that is not `ok` or `new`. -/
theorem RowCoherent.keep (hr : RowCoherent b x r) (hsince : r'.overdueSince = r.overdueSince)
    (hcalm : r'.status = .ok ∨ r'.status = .new → r.overdueSince = none) :
    RowCoherent b x r' where
  calm := fun h => hsince.trans (hcalm h)
  closed := fun h => hr.closed (hsince.symm.trans h)

end Rows

/-! ## What the operations do to a row -/

/-- A check that upserts leaves the row overdue; any other one leaves it as it was. -/
def Checked (upserts : Prop) (r r' : Row) : Prop :=
  (upserts ∧ r'.status = .overdue ∧ r'.overdueSince ≠ none) ∨ (¬ upserts ∧ r' = r)

/-- A check sees the heartbeat as a row. -/
theorem processHeartbeat_row (alerts : AlertService) (now : Int) (h : Heartbeat) :
    Checked (heartbeatIsOverdue h now = true ∧
        ¬ (h.status = .overdue ∧ h.currentAlertGroup.any alerts.groupOpen = true))
      h.row (processHeartbeat alerts now h).row := by
  unfold processHeartbeat
  by_cases hover : heartbeatIsOverdue h now = true
  · rw [if_pos hover]
    unfold markHeartbeatOverdue
    by_cases hkeeps : h.status = .overdue ∧ h.currentAlertGroup.any alerts.groupOpen = true
    · rw [if_pos hkeeps]
      exact .inr ⟨fun hups => hups.2 hkeeps, rfl⟩
    · rw [if_neg hkeeps]
      refine .inl ⟨⟨hover, hkeeps⟩, ?_⟩
      dsimp only
      split <;> exact ⟨rfl, Option.some_ne_none _⟩
  · rw [if_neg hover]
    exact .inr ⟨fun hups => hover hups.1, rfl⟩

theorem processHeartbeat_tracking (alerts : AlertService) (now : Int) (h : Heartbeat) :
    (processHeartbeat alerts now h).instanceTrackingEnabled = h.instanceTrackingEnabled := by
  unfold processHeartbeat
  split
  · unfold markHeartbeatOverdue
    split
    · rfl
    · dsimp only
      split <;> rfl
  · rfl

theorem processInstance_row (b : Board) (h : Heartbeat) (answer : Answer) (now : Int)
    (i : Instance) :
    Checked (heartbeatInstanceIsOverdue h i now = true ∧
        ¬ (i.status = .overdue ∧ i.currentAlertGroup.any b.isOpen = true))
      i.row (processInstance b h answer now i).row := by
  unfold processInstance
  by_cases hover : heartbeatInstanceIsOverdue h i now = true
  · rw [if_pos hover]
    unfold markHeartbeatInstanceOverdue
    by_cases hkeeps : i.status = .overdue ∧ i.currentAlertGroup.any b.isOpen = true
    · rw [if_pos hkeeps]
      exact .inr ⟨fun hups => hups.2 hkeeps, rfl⟩
    · rw [if_neg hkeeps]
      refine .inl ⟨⟨hover, hkeeps⟩, ?_⟩
      dsimp only
      split <;> exact ⟨rfl, Option.some_ne_none _⟩
  · rw [if_neg hover]
    exact .inr ⟨fun hups => hover hups.1, rfl⟩

/-- A ping ends an overdue period, or keeps the period of a row and whether it is
paused. -/
def Pinged (r r' : Row) : Prop :=
  (r.status = .overdue ∧ r'.overdueSince = none) ∨
    (r.status ≠ .overdue ∧ r'.overdueSince = r.overdueSince ∧
      (r'.status = .ok ∨ r'.status = .new → r.status = .ok ∨ r.status = .new))

theorem pingHeartbeat_row (now : Int) (h : Heartbeat) : Pinged h.row (pingHeartbeat now h).row := by
  unfold Pinged pingHeartbeat Heartbeat.row
  cases h.status <;> simp

theorem pingInstance_row (h : Heartbeat) (now : Int) (i : Instance) :
    Pinged i.row (pingInstance h now i).row := by
  unfold Pinged pingInstance Instance.row
  cases i.status <;> simp

section Rows

variable {b b' : Board} {x : Owner} {r r' : Row}

/-- A row that is checked stays coherent. -/
theorem RowCoherent.checked {upserts : Prop} (hr : RowCoherent b x r)
    (hrow : Checked upserts r r') (hsame : ¬ upserts → b' = b) : RowCoherent b' x r' := by
  rcases hrow with ⟨-, hstatus, hsince⟩ | ⟨hno, rfl⟩
  · exact rowCoherent_of_overdue hstatus hsince
  · rw [hsame hno]
    exact hr

/-- A row that is pinged stays coherent, if its outage ends with its alerts. -/
theorem RowCoherent.pinged (hr : RowCoherent b x r) (hrow : Pinged r r')
    (hless : b'.hasOpen x = true → b.hasOpen x = true)
    (hends : r.status = .overdue → b'.hasOpen x = false) : RowCoherent b' x r' := by
  rcases hrow with ⟨hover, hnone⟩ | ⟨-, hsince, hstatus⟩
  · exact ⟨fun _ => hnone, fun _ => hends hover⟩
  · exact (hr.mono hless).keep hsince fun h => hr.calm (hstatus h)

end Rows

/-! ## The condition -/

/-- The open alerts of the owner are in the group the row remembers. -/
def Linked (b : Board) (p : Owner × Row) : Prop :=
  ∀ a ∈ b.alerts, a.owner = p.1 → a.unresolved = true → p.2.currentAlertGroup = some a.group

/-- That group has no open alert of another owner. -/
def Unshared (b : Board) (p : Owner × Row) : Prop :=
  ∀ a ∈ b.alerts, p.2.currentAlertGroup = some a.group → a.unresolved = true → a.owner = p.1

/-- The rows a resume gives a status. -/
def resumed (m : Monitor) : List Row :=
  if m.heartbeat.status ≠ .paused then []
  else if m.heartbeat.instanceTrackingEnabled then (m.instances.filter (·.enabled)).map (·.row)
  else [m.heartbeat.row]

/-- The steps that keep the alert with its period.
 * A ping that ends an overdue period finds its alerts in the current group, and
   only them: none was activated since the last check, and no other alert shares
   the group.
 * A resume ends no pause that began in an overdue period.
 * A paused event is activated in the overdue period it is about. -/
def Clean (w : World) : Event → Prop
  | .ping key now => ∀ p, recovering w (.ping key now) = some p →
      Linked w.board p ∧ Unshared w.board p
  | .resume _ => ∀ r ∈ resumed w.monitor, r.overdueSince = none
  | .activate owner _ => owner ∈ w.board.pending →
      (∃ n, owner = .other n) ∨ ∃ p ∈ w.rows, p.1 = owner ∧ p.2.overdueSince ≠ none
  | _ => True

namespace Board

variable {b : Board} {x : Owner} {group : Id}

/-- Firing keeps the board consistent: an alert opens its group. -/
theorem Consistent.fire (hb : b.Consistent) : (b.fire x group).Consistent := by
  intro a ha hopen
  have hold : a.group = group ∨ a.group ∈ b.openGroups := by
    unfold Board.fire at ha
    dsimp only at ha
    split at ha
    · exact .inr (hb a ha hopen)
    · rcases List.mem_append.mp ha with ha | ha
      · exact .inr (hb a ha hopen)
      · rw [List.mem_singleton.mp ha]
        exact .inl rfl
  unfold Board.fire
  dsimp only
  split
  · rename_i hin
    exact hold.elim (fun h => h ▸ hin) id
  · exact List.mem_append.mpr (hold.symm.imp id fun h => List.mem_singleton.mpr h)

theorem Consistent.upsert (hb : b.Consistent) (answer : Answer) :
    (b.upsert x answer).Consistent := by
  cases answer with
  | group id => exact hb.fire
  | paused | stopped | failed => exact hb

theorem Consistent.activate (hb : b.Consistent) : (b.activate x group).Consistent := by
  unfold Board.activate
  split
  · have hpending : Consistent { b with pending := b.pending.filter (· ≠ x) } := hb
    exact hpending.fire
  · exact hb

/-- Resolving a group resolves its alerts. -/
theorem Consistent.resolve (hb : b.Consistent) : (b.resolve group).Consistent := by
  unfold Board.resolve
  split
  · intro a ha hopen
    obtain ⟨a₀, ha₀, rfl⟩ := List.mem_map.mp ha
    by_cases hgroup : a₀.group = group
    · simp [hgroup] at hopen
    · rw [if_neg hgroup] at hopen ⊢
      exact List.mem_filter.mpr ⟨hb a₀ ha₀ hopen, by simpa using hgroup⟩
  · exact hb

theorem Consistent.resolveCurrent (hb : b.Consistent) (current : Option Id) :
    (b.resolveCurrent current).Consistent := by
  cases current with
  | none => exact hb
  | some group => exact hb.resolve

/-- **Recovery.** Resolving the current group resolves exactly the alerts of the
owner, when they are in it and nothing else is. -/
theorem resolveCurrent_alerts (hb : b.Consistent) {p : Owner × Row} (hlinked : Linked b p)
    (hunshared : Unshared b p) :
    (b.resolveCurrent p.2.currentAlertGroup).alerts = b.resolvedFor p.1 := by
  have hsame : ∀ a ∈ b.alerts, a.unresolved = true →
      (p.2.currentAlertGroup = some a.group ↔ a.owner = p.1) := fun a ha hopen =>
    ⟨fun h => hunshared a ha h hopen, fun h => hlinked a ha h hopen⟩
  -- an alert that is resolved stays as it is either way
  have hresolved : ∀ a : Alert, a.unresolved = false → { a with unresolved := false } = a := by
    rintro ⟨owner, group, unresolved⟩ rfl
    rfl
  unfold resolvedFor
  cases hcurrent : p.2.currentAlertGroup with
  | none =>
    refine (List.map_id _).symm.trans (List.map_congr_left fun a ha => ?_)
    cases hopen : a.unresolved with
    | false => rw [hresolved a hopen, ite_self]; rfl
    | true =>
      have hnot : a.owner ≠ p.1 := by
        rw [ne_eq, ← hsame a ha hopen, hcurrent]
        simp
      rw [if_neg hnot]
      rfl
  | some group =>
    show (b.resolve group).alerts = _
    unfold resolve
    split
    · refine List.map_congr_left fun a ha => ?_
      cases hopen : a.unresolved with
      | false => rw [hresolved a hopen, ite_self, ite_self]
      | true =>
        have hiff := hsame a ha hopen
        rw [hcurrent, Option.some_inj] at hiff
        simp only [eq_comm (a := group)] at hiff
        simp only [hiff]
    · rename_i hclosed
      refine (List.map_id _).symm.trans (List.map_congr_left fun a ha => ?_)
      cases hopen : a.unresolved with
      | false => rw [hresolved a hopen, ite_self]; rfl
      | true =>
        have hnot : a.owner ≠ p.1 := by
          rw [ne_eq, ← hsame a ha hopen, hcurrent, Option.some_inj]
          intro hgroup
          apply hclosed
          simp only [isOpen, decide_eq_true_eq]
          exact hgroup ▸ hb a ha hopen
        rw [if_neg hnot]
        rfl

/-- What was resolved for a row is not open. -/
theorem hasOpen_of_alerts_eq {b' : Board} (h : b'.alerts = b.resolvedFor x) :
    b'.hasOpen x = false := by
  rw [Bool.eq_false_iff]
  intro hopen
  obtain ⟨a, ha, howner, hunresolved⟩ := hasOpen_iff.mp hopen
  rw [h] at ha
  obtain ⟨a₀, ha₀, rfl⟩ := List.mem_map.mp ha
  by_cases hx : a₀.owner = x
  · simp [hx] at hunresolved
  · rw [if_neg hx] at howner
    exact hx howner

end Board

/-! ## Steps -/

section Steps

variable {m m' : Monitor} {b b' : Board}

/-- A store in which no owner the monitor knows has more open alerts. -/
theorem Coherent.mono (hw : Coherent ⟨m, b⟩)
    (hless : ∀ x, (∀ n, x ≠ .other n) → b'.hasOpen x = true → b.hasOpen x = true)
    (hb' : b'.Consistent) : Coherent ⟨m, b'⟩ where
  heartbeat := hw.heartbeat.mono (hless _ (by simp))
  instances := fun i hi => (hw.instances i hi).mono (hless _ (by simp))
  unknown := by
    intro key hkey
    rw [Bool.eq_false_iff]
    intro hopen
    have hclosed := hw.unknown key hkey
    rw [hless _ (by simp) hopen] at hclosed
    exact Bool.noConfusion hclosed
  tracking := hw.tracking
  board := hb'
  autoResolve := hw.autoResolve

/-- The rollup writes the heartbeat of a tracking one, which has no period. -/
theorem Coherent.refreshRollup (hw : Coherent ⟨m, b⟩) (now : Int) :
    Coherent ⟨m.refreshRollup now, b⟩ := by
  unfold Monitor.refreshRollup
  dsimp only
  split
  · exact hw
  · rename_i htracks
    split
    · exact hw
    · have hnone := hw.tracking (by simpa using htracks)
      exact
        { heartbeat := hw.heartbeat.keep rfl fun _ => hnone
          instances := hw.instances
          unknown := hw.unknown
          tracking := fun _ => hnone
          board := hw.board
          autoResolve := hw.autoResolve }

/-- An update of the instances, with what it does to the store. -/
theorem Coherent.updateInstances (hw : Coherent ⟨m, b⟩) {guard : Instance → Bool}
    {set : Instance → Instance} (hkey : ∀ i, (set i).key = i.key)
    (hless : ∀ x, (∀ i ∈ m.instances, guard i = true → x ≠ .instance i.key) →
      b'.hasOpen x = true → b.hasOpen x = true)
    (hset : ∀ i ∈ m.instances, guard i = true → RowCoherent b' (.instance i.key) (set i).row)
    (hb' : b'.Consistent) : Coherent ⟨m.updateInstances guard set hkey, b'⟩ where
  heartbeat := hw.heartbeat.mono (hless _ (by simp))
  instances := by
    intro i hi
    obtain ⟨i₀, hi₀, ⟨hguard, rfl⟩ | ⟨hguard, rfl⟩⟩ := Table.mem_update.mp hi
    · rw [hkey]
      exact hset i₀ hi₀ hguard
    · refine (hw.instances i hi₀).mono (hless _ ?_)
      -- the row of another key
      intro j hj hjguard heq
      have hsame : i = j := Table.eq_of_key_eq m.keys_nodup hi₀ hj (Owner.instance.inj heq)
      rw [hsame, hjguard] at hguard
      exact Bool.noConfusion hguard
  unknown := by
    intro key hnone
    have hkeys : (m.updateInstances guard set hkey).instances.map (·.key) =
        m.instances.map (·.key) := Table.map_update_of_guard _ fun i _ => hkey i
    have hnot : key ∉ m.instances.map (·.key) := hkeys ▸ hnone
    rw [Bool.eq_false_iff]
    intro hopen
    have hclosed := hw.unknown key hnot
    rw [hless _ ?_ hopen] at hclosed
    · exact Bool.noConfusion hclosed
    · intro i hi _ heq
      exact hnot (Owner.instance.inj heq ▸ List.mem_map_of_mem hi)
  tracking := hw.tracking
  board := hb'
  autoResolve := hw.autoResolve

theorem getInstance_spec {key : String} {i : Instance} (h : m.getInstance key = some i) :
    i ∈ m.instances ∧ i.key = key :=
  ⟨List.mem_of_find?_eq_some h, by simpa using List.find?_some h⟩

theorem eq_of_getInstance {key : String} {i j : Instance} (h : m.getInstance key = some i)
    (hj : j ∈ m.instances) (hkey : (j.key == key) = true) : j = i := by
  obtain ⟨hi, rfl⟩ := getInstance_spec h
  exact Table.eq_of_key_eq m.keys_nodup hj hi (by simpa using hkey)

/-- An update of the instance with the key. -/
theorem Coherent.updateInstance (hw : Coherent ⟨m, b⟩) {key : String} {i : Instance}
    {set : Instance → Instance} (hget : m.getInstance key = some i)
    (hkey : ∀ i, (set i).key = i.key)
    (hless : ∀ x ≠ .instance key, b'.hasOpen x = true → b.hasOpen x = true)
    (hset : RowCoherent b' (.instance i.key) (set i).row) (hb' : b'.Consistent) :
    Coherent ⟨m.updateInstances (·.key == key) set hkey, b'⟩ := by
  obtain ⟨hi, hikey⟩ := getInstance_spec hget
  refine hw.updateInstances hkey ?_ ?_ hb'
  · intro x hx
    refine hless x ?_
    rw [← hikey]
    exact hx i hi (by simpa using hikey)
  · intro j hj hjkey
    rw [eq_of_getInstance hget hj hjkey]
    exact hset

/-- A check upserts for its own row only. -/
theorem Coherent.checkHeartbeat {w : World} (hw : Coherent w) (answer : Answer) (now : Int) :
    Coherent (checkHeartbeat w answer now) := by
  unfold Heartbeats.checkHeartbeat
  dsimp only
  -- a heartbeat that is overdue and tracks itself fires
  split
  · rename_i hdue
    simp only [heartbeatDue, decide_eq_true_eq] at hdue
    have htracks := hdue.2.2.2.1
    have hrow := processHeartbeat_row (w.board.service answer) now w.monitor.heartbeat
    have htracks' : (processHeartbeat (w.board.service answer) now
        w.monitor.heartbeat).instanceTrackingEnabled = false := by
      rw [(processHeartbeat_tracking _ _ _), htracks]
    split
    · rename_i hups
      have hless : ∀ x ≠ .heartbeat,
          (w.board.upsert .heartbeat answer).hasOpen x = true → w.board.hasOpen x = true :=
        fun x hx h => (Board.hasOpen_upsert_of_ne hx answer) ▸ h
      exact
        { heartbeat := hw.heartbeat.checked hrow fun hno => absurd hups hno
          instances := fun i hi => (hw.instances i hi).mono (hless _ (by simp))
          unknown := fun key hkey =>
            (Board.hasOpen_upsert_of_ne (by simp) answer).trans (hw.unknown key hkey)
          tracking := fun h => by simp [htracks'] at h
          board := hw.board.upsert answer
          autoResolve := hw.autoResolve }
    · exact
        { heartbeat := hw.heartbeat.checked hrow fun _ => rfl
          instances := hw.instances
          unknown := hw.unknown
          tracking := fun h => by simp [htracks'] at h
          board := hw.board
          autoResolve := hw.autoResolve }
  -- nothing is due, so nothing changes
  · exact hw

/-- The check of an instance keeps the world coherent. -/
theorem Coherent.checkInstance {w : World} (hw : Coherent w) (key : String) (answer : Answer)
    (now : Int) : Coherent (checkInstance w key answer now) := by
  unfold Heartbeats.checkInstance
  dsimp only
  split
  · exact hw
  · rename_i i hget
    obtain ⟨hi, hikey⟩ := getInstance_spec hget
    -- the instance is overdue and fires, or it only gets the time of the check
    split
    · have hrow := processInstance_row w.board w.monitor.heartbeat answer now i
      have hcoherent := hw.instances i hi
      by_cases hups : heartbeatInstanceIsOverdue w.monitor.heartbeat i now = true ∧
          ¬ (i.status = .overdue ∧ i.currentAlertGroup.any w.board.isOpen = true)
      · have hnext := hw.updateInstance hget
          (processInstance_key w.board w.monitor.heartbeat answer now)
          (fun x hx h => (Board.hasOpen_upsert_of_ne hx answer) ▸ h)
          (hcoherent.checked hrow fun hno => absurd hups hno) (hw.board.upsert answer)
        rw [if_pos hups]
        split
        · exact hnext
        · exact hnext.refreshRollup now
      · have hnext := hw.updateInstance hget
          (processInstance_key w.board w.monitor.heartbeat answer now) (fun x _ h => h)
          (hcoherent.checked hrow fun _ => rfl) hw.board
        rw [if_neg hups, if_neg fun h => hups h.1]
        exact hnext.refreshRollup now
    -- it is not checked
    · exact hw

/-- A row that is paused keeps its period. -/
theorem Coherent.expire (hw : Coherent ⟨m, b⟩) (now : Int) :
    Coherent ⟨expireAutoDiscoveredInstances m now, b⟩ := by
  unfold expireAutoDiscoveredInstances
  dsimp only
  split
  · exact hw
  · exact hw
  · split
    · exact hw
    · split
      · refine Coherent.refreshRollup (hw.updateInstances _ (fun x _ h => h) ?_ hw.board) now
        intro i hi _
        exact (hw.instances i hi).keep rfl (by simp [Instance.row])
      · exact hw

theorem Coherent.pause (hw : Coherent ⟨m, b⟩) (now : Int) :
    Coherent ⟨pauseHeartbeat m now, b⟩ := by
  unfold pauseHeartbeat
  dsimp only
  split
  · exact hw
  · have hpaused : Coherent
        ⟨{ m with heartbeat := { m.heartbeat with status := .paused, updatedAt := now } }, b⟩ :=
      { heartbeat := hw.heartbeat.keep rfl (by simp [Heartbeat.row])
        instances := hw.instances
        unknown := hw.unknown
        tracking := hw.tracking
        board := hw.board
        autoResolve := hw.autoResolve }
    split
    · refine hpaused.updateInstances _ (fun x _ h => h) ?_ hw.board
      intro i hi _
      exact (hw.instances i hi).keep rfl (by simp [Instance.row])
    · exact hpaused

/-- A resume that ends no pause of an overdue period. -/
theorem Coherent.resume (hw : Coherent ⟨m, b⟩) {now : Int}
    (hclean : ∀ r ∈ resumed m, r.overdueSince = none) :
    Coherent ⟨resumeHeartbeat m now, b⟩ := by
  unfold resumed at hclean
  unfold resumeHeartbeat
  dsimp only
  split
  · exact hw
  · rename_i hstatus
    rw [if_neg hstatus] at hclean
    -- by whether the instances are tracked, each with a period of its own
    split
    · rename_i htracks
      rw [if_pos htracks] at hclean
      refine Coherent.refreshRollup (hw.updateInstances _ (fun x _ h => h) ?_ hw.board) now
      intro i hi henabled
      have hnone : i.overdueSince = none :=
        hclean i.row (List.mem_map_of_mem (List.mem_filter.mpr ⟨hi, henabled⟩))
      exact (hw.instances i hi).keep rfl fun _ => hnone
    · rename_i htracks
      rw [if_neg htracks] at hclean
      have hnone : m.heartbeat.overdueSince = none := hclean m.heartbeat.row (by simp)
      exact
        { heartbeat := hw.heartbeat.keep rfl fun _ => hnone
          instances := hw.instances
          unknown := hw.unknown
          tracking := hw.tracking
          board := hw.board
          autoResolve := hw.autoResolve }

/-- An alert that is activated in the overdue period it is about. -/
theorem Coherent.activate (hw : Coherent ⟨m, b⟩) {x : Owner} {group : Id}
    (hclean : x ∈ b.pending → (∃ n, x = .other n) ∨
      ∃ p ∈ World.rows ⟨m, b⟩, p.1 = x ∧ p.2.overdueSince ≠ none) :
    Coherent ⟨m, b.activate x group⟩ := by
  by_cases hpending : x ∈ b.pending
  · rcases hclean hpending with ⟨n, rfl⟩ | ⟨p, hp, rfl, hsince⟩
    · refine hw.mono (fun y hy h => ?_) hw.board.activate
      exact (Board.hasOpen_activate_of_ne (hy n)) ▸ h
    · have hless : ∀ y ≠ p.1, (b.activate p.1 group).hasOpen y = true → b.hasOpen y = true :=
        fun y hy h => (Board.hasOpen_activate_of_ne hy) ▸ h
      -- the row of the period has nothing to keep; the others are not the owner
      have hrow : ∀ q ∈ World.rows ⟨m, b⟩, RowCoherent b q.1 q.2 →
          (q.1 = p.1 → q = p) → RowCoherent (b.activate p.1 group) q.1 q.2 := by
        intro q hq hcoherent hsame
        by_cases hne : q.1 = p.1
        · refine ⟨hcoherent.calm, fun hnone => ?_⟩
          rw [hsame hne] at hnone
          exact absurd hnone hsince
        · exact hcoherent.mono (hless _ hne)
      have hunique : ∀ q ∈ World.rows ⟨m, b⟩, q.1 = p.1 → q = p := by
        intro q hq heq
        rcases List.mem_cons.mp hq with rfl | hq <;> rcases List.mem_cons.mp hp with rfl | hp
        · rfl
        · obtain ⟨i, -, rfl⟩ := List.mem_map.mp hp
          simp at heq
        · obtain ⟨i, -, rfl⟩ := List.mem_map.mp hq
          simp at heq
        · obtain ⟨i, hi, rfl⟩ := List.mem_map.mp hq
          obtain ⟨j, hj, rfl⟩ := List.mem_map.mp hp
          have hij : i = j := Table.eq_of_key_eq m.keys_nodup hi hj (Owner.instance.inj heq)
          rw [hij]
      have hheart : (Owner.heartbeat, m.heartbeat.row) ∈ World.rows ⟨m, b⟩ :=
        List.mem_cons_self
      have hinst : ∀ i ∈ m.instances, (Owner.instance i.key, i.row) ∈ World.rows ⟨m, b⟩ :=
        fun i hi => List.mem_cons_of_mem _ (List.mem_map_of_mem hi)
      exact
        { heartbeat := hrow _ hheart hw.heartbeat (hunique _ hheart)
          instances := fun i hi =>
            hrow _ (hinst i hi) (hw.instances i hi) (hunique _ (hinst i hi))
          unknown := by
            intro key hkey
            have hne : Owner.instance key ≠ p.1 := by
              intro heq
              rcases List.mem_cons.mp hp with rfl | hp
              · simp at heq
              · obtain ⟨i, hi, rfl⟩ := List.mem_map.mp hp
                rw [Owner.instance.inj heq] at hkey
                exact hkey (List.mem_map_of_mem hi)
            exact (Board.hasOpen_activate_of_ne hne).trans (hw.unknown key hkey)
          tracking := hw.tracking
          board := hw.board.activate
          autoResolve := hw.autoResolve }
  · unfold Board.activate
    rw [if_neg hpending]
    exact hw

/-- A ping may create the row of its instance. -/
theorem ensureInstance_cases {key : String} {now : Int} (h : ensureInstance m key now = .ok m') :
    m' = m ∨ ∃ i hnew, i.key = key ∧ i.status = .new ∧ i.overdueSince = none ∧
      m' = m.createInstance i hnew := by
  unfold ensureInstance at h
  split at h
  · exact .inl (Except.ok.inj h).symm
  · rename_i hnew
    split at h
    · split at h
      · exact .inr ⟨newInstance key false none now, hnew, rfl, rfl, rfl, (Except.ok.inj h).symm⟩
      · cases h
    · exact .inr ⟨newInstance key true (some now) now, hnew, rfl, rfl, rfl,
        (Except.ok.inj h).symm⟩
    · cases h

theorem Coherent.createInstance (hw : Coherent ⟨m, b⟩) {i : Instance}
    (hnew : i.key ∉ m.instances.map (·.key)) (hsince : i.overdueSince = none) :
    Coherent ⟨m.createInstance i hnew, b⟩ where
  heartbeat := hw.heartbeat
  instances := by
    intro j hj
    rcases List.mem_append.mp hj with hj | hj
    · exact hw.instances j hj
    · rw [List.mem_singleton.mp hj]
      exact ⟨fun _ => hsince, fun _ => hw.unknown i.key hnew⟩
  unknown := by
    intro key hkey
    refine hw.unknown key fun hin => hkey ?_
    show key ∈ (m.instances ++ [i]).map (·.key)
    rw [List.map_append]
    exact List.mem_append_left _ hin
  tracking := hw.tracking
  board := hw.board
  autoResolve := hw.autoResolve

theorem recovering_ping {w : World} {key : Option String} {now : Int} {p : Owner × Row} :
    recovering w (.ping key now) = some p ↔ pinged w key = some p ∧ p.2.status = .overdue := by
  simp [recovering, Option.filter_eq_some_iff]

/-- The store after the ping for a row. -/
def Board.afterPing (b : Board) (autoResolve : Bool) (r : Row) : Board :=
  if r.status = .overdue ∧ autoResolve = true then b.resolveCurrent r.currentAlertGroup else b

/-- **After a clean ping** nothing is open for the row whose outage it ends. -/
theorem Board.afterPing_spec (hb : b.Consistent) {p : Owner × Row}
    (hclean : p.2.status = .overdue → Linked b p ∧ Unshared b p) :
    (b.afterPing true p.2).Consistent ∧
      (∀ x, (b.afterPing true p.2).hasOpen x = true → b.hasOpen x = true) ∧
      (p.2.status = .overdue → (b.afterPing true p.2).alerts = b.resolvedFor p.1) := by
  unfold Board.afterPing
  by_cases hover : p.2.status = .overdue
  · rw [if_pos ⟨hover, rfl⟩]
    obtain ⟨hlinked, hunshared⟩ := hclean hover
    exact ⟨hb.resolveCurrent _, fun _ => (Board.less_resolveCurrent _).hasOpen,
      fun _ => Board.resolveCurrent_alerts hb hlinked hunshared⟩
  · rw [if_neg fun h => hover h.1]
    exact ⟨hb, fun _ => id, fun h => absurd h hover⟩

/-- The ping of an instance. -/
theorem Coherent.pingInstance (hw : Coherent ⟨m, b⟩) {key : String} {now : Int} {i : Instance}
    (hget : m.getInstance key = some i)
    (hclean : i.status = .overdue →
      Linked b (.instance i.key, i.row) ∧ Unshared b (.instance i.key, i.row)) :
    Coherent
      ⟨(m.updateInstances (·.key == key) (pingInstance m.heartbeat now)
        (pingInstance_key m.heartbeat now)).refreshRollup now, b.afterPing true i.row⟩ := by
  obtain ⟨hboard, hless, hends⟩ :=
    Board.afterPing_spec (p := (.instance i.key, i.row)) hw.board hclean
  refine Coherent.refreshRollup (hw.updateInstance hget _ (fun x _ => hless x) ?_ hboard) now
  exact (hw.instances i (getInstance_spec hget).1).pinged (pingInstance_row m.heartbeat now i)
    (hless _) fun hover => Board.hasOpen_of_alerts_eq (hends hover)

/-- What an accepted ping is for, and what it does. -/
theorem receiveHeartbeatPing_cases {w w' : World} {key : Option String} {now : Int}
    (h : receiveHeartbeatPing w key now = .ok w') :
    (pinged w key = some (.heartbeat, w.monitor.heartbeat.row) ∧
      w.monitor.heartbeat.instanceTrackingEnabled = false ∧
      w' = ⟨{ w.monitor with
          heartbeat := pingHeartbeat now w.monitor.heartbeat
          lastRecoveredAt :=
            if w.monitor.heartbeat.status = .overdue then some now
            else w.monitor.lastRecoveredAt },
        w.board.afterPing w.monitor.autoResolve w.monitor.heartbeat.row⟩) ∨
    ∃ k m i, m.getInstance k = some i ∧
      ((m = w.monitor ∧ pinged w key = some (.instance i.key, i.row)) ∨
        (pinged w key = none ∧ i.status = .new ∧ i.overdueSince = none ∧
          ∃ hnew, m = w.monitor.createInstance i hnew)) ∧
      w' = ⟨(m.updateInstances (·.key == k) (Heartbeats.pingInstance w.monitor.heartbeat now)
          (pingInstance_key w.monitor.heartbeat now)).refreshRollup now,
        w.board.afterPing m.autoResolve i.row⟩ := by
  unfold receiveHeartbeatPing at h
  dsimp only at h
  by_cases hoff : w.monitor.heartbeat.deleted = true ∨ w.monitor.heartbeat.enabled = false
  · rw [if_pos hoff] at h
    cases h
  -- the key names an instance where instances are tracked
  rw [if_neg hoff] at h
  by_cases htracks : w.monitor.heartbeat.instanceTrackingEnabled = true
  · rw [if_pos htracks] at h
    cases key with
    | none => cases h
    | some k =>
      obtain ⟨m, hensure, h⟩ := bind_eq_ok.mp h
      cases hget : m.getInstance k with
      | none =>
        rw [hget] at h
        cases h
      | some i =>
        rw [hget] at h
        dsimp only at h
        by_cases hdisabled : i.enabled = false
        · rw [if_pos hdisabled] at h
          cases h
        rw [if_neg hdisabled] at h
        refine .inr ⟨k, m, i, hget, ?_, (Except.ok.inj h).symm⟩
        rcases ensureInstance_cases hensure with rfl | ⟨j, hnew, hjkey, hstatus, hsince, rfl⟩
        · refine .inl ⟨rfl, ?_⟩
          unfold pinged
          rw [if_neg hoff, if_pos htracks]
          simp [hget, Option.filter_eq_some_iff, hdisabled]
        · -- the ping created the row it found
          have hj : j ∈ (w.monitor.createInstance j hnew).instances :=
            List.mem_append_right _ (List.mem_singleton.mpr rfl)
          obtain rfl : j = i := eq_of_getInstance hget hj (by simpa using hjkey)
          refine .inr ⟨?_, hstatus, hsince, hnew, rfl⟩
          have hmissing : w.monitor.getInstance k = none := by
            unfold Monitor.getInstance
            rw [List.find?_eq_none]
            intro r hr hrkey
            have hrk : r.key = k := by simpa using hrkey
            apply hnew
            rw [hjkey, ← hrk]
            exact List.mem_map_of_mem hr
          unfold pinged
          rw [if_neg hoff, if_pos htracks]
          simp [hmissing]
  -- where they are not it is the heartbeat that is pinged
  · rw [if_neg htracks] at h
    refine .inl ⟨?_, by simpa using htracks, (Except.ok.inj h).symm⟩
    unfold pinged
    rw [if_neg hoff, if_neg htracks]

theorem pingHeartbeat_tracking (now : Int) (h : Heartbeat) :
    (pingHeartbeat now h).instanceTrackingEnabled = h.instanceTrackingEnabled := by
  unfold pingHeartbeat
  cases h.status <;> rfl

/-- **Pings.** A ping keeps the state coherent, and one that ends an overdue period
resolves its alerts. -/
theorem ping_spec {w w' : World} (hw : Coherent w) {key : Option String} {now : Int}
    (hping : receiveHeartbeatPing w key now = .ok w') (hclean : Clean w (.ping key now)) :
    Coherent w' ∧ ∀ p, recovering w (.ping key now) = some p →
      w'.board.alerts = w.board.resolvedFor p.1 := by
  have hclean' : ∀ p, pinged w key = some p → p.2.status = .overdue →
      Linked w.board p ∧ Unshared w.board p :=
    fun p hp hover => hclean p (recovering_ping.mpr ⟨hp, hover⟩)
  -- the ping is for the heartbeat, for an instance that was there, or for a new one
  rcases receiveHeartbeatPing_cases hping with ⟨hpinged, htracks, rfl⟩ | ⟨k, m, i, hget, hrow, rfl⟩
  · rw [hw.autoResolve]
    obtain ⟨hboard, hless, hends⟩ := Board.afterPing_spec hw.board (hclean' _ hpinged)
    refine ⟨?_, fun p hp => ?_⟩
    · have hmono : Coherent ⟨w.monitor, _⟩ := Coherent.mono hw (fun x _ => hless x) hboard
      exact
        { heartbeat := hw.heartbeat.pinged (pingHeartbeat_row now w.monitor.heartbeat) (hless _)
            fun hover => Board.hasOpen_of_alerts_eq (hends hover)
          instances := hmono.instances
          unknown := hmono.unknown
          tracking := fun h => by simp [pingHeartbeat_tracking, htracks] at h
          board := hboard
          autoResolve := hw.autoResolve }
    -- the alert of a period that ends is resolved
    · obtain ⟨hp, hover⟩ := recovering_ping.mp hp
      obtain rfl := Option.some.inj (hpinged.symm.trans hp)
      exact hends hover
  · rcases hrow with ⟨rfl, hpinged⟩ | ⟨hpinged, hstatus, hsince, hnew, rfl⟩
    · rw [hw.autoResolve]
      refine ⟨Coherent.pingInstance hw hget (hclean' _ hpinged), fun p hp => ?_⟩
      obtain ⟨hp, hover⟩ := recovering_ping.mp hp
      obtain rfl := Option.some.inj (hpinged.symm.trans hp)
      exact (Board.afterPing_spec hw.board (hclean' _ hpinged)).2.2 hover
    · -- a new row ends no period
      have hauto : (w.monitor.createInstance i hnew).autoResolve = true := hw.autoResolve
      rw [hauto]
      refine ⟨(hw.createInstance hnew hsince).pingInstance hget fun hover => ?_, fun p hp => ?_⟩
      · rw [hstatus] at hover
        cases hover
      · have hp := (recovering_ping.mp hp).1
        rw [hpinged] at hp
        cases hp

/-- A ping that is for a row is accepted. -/
theorem receiveHeartbeatPing_of_pinged {w : World} {key : Option String} {p : Owner × Row}
    (now : Int) (hpinged : pinged w key = some p) :
    ∃ w', receiveHeartbeatPing w key now = .ok w' := by
  cases hping : receiveHeartbeatPing w key now with
  | ok w' => exact ⟨w', rfl⟩
  -- the ping is refused only where the monitor is off or the key does not fit the tracking
  | error e =>
    exfalso
    unfold pinged at hpinged
    unfold receiveHeartbeatPing at hping
    dsimp only at hpinged hping
    split at hpinged
    · cases hpinged
    · rename_i hoff
      rw [if_neg hoff] at hping
      split at hpinged
      · rename_i htracks
        obtain ⟨i, hi, -⟩ := Option.map_eq_some_iff.mp hpinged
        obtain ⟨hfound, henabled⟩ := Option.filter_eq_some_iff.mp hi
        obtain ⟨k, rfl, hget⟩ := Option.bind_eq_some_iff.mp hfound
        have hensure : ensureInstance w.monitor k now = .ok w.monitor := by
          obtain ⟨hmem, hkey⟩ := getInstance_spec hget
          unfold ensureInstance
          rw [dif_pos (hkey ▸ List.mem_map_of_mem hmem)]
        rw [if_pos htracks] at hping
        simp only [hensure, bind, Except.bind] at hping
        rw [hget] at hping
        dsimp only at hping
        rw [if_neg (by simp [henabled])] at hping
        cases hping
      · rename_i htracks
        rw [if_neg htracks] at hping
        cases hping

theorem step_ping_ok {w w' : World} {key : Option String} {now : Int}
    (h : receiveHeartbeatPing w key now = .ok w') : step w (.ping key now) = w' := by
  simp only [step, h]

theorem step_ping_error {w : World} {key : Option String} {now : Int} {e : PingError}
    (h : receiveHeartbeatPing w key now = .error e) : step w (.ping key now) = w := by
  simp only [step, h]

/-- **Step lemma.** A clean step keeps the state coherent. -/
theorem coherent_step {w : World} {e : Event} (hw : Coherent w) (hclean : Clean w e) :
    Coherent (step w e) := by
  -- each event is one of the operations; what fires elsewhere opens no alert of a row here
  cases e with
  | ping key now =>
    cases hping : receiveHeartbeatPing w key now with
    | error e =>
      rw [step_ping_error hping]
      exact hw
    | ok w' =>
      rw [step_ping_ok hping]
      exact (ping_spec hw hping hclean).1
  | check answer now => exact hw.checkHeartbeat answer now
  | checkInstance key answer now => exact hw.checkInstance key answer now
  | expire now => exact Coherent.expire hw now
  | pause now => exact Coherent.pause hw now
  | resume now => exact Coherent.resume hw hclean
  | activate x group => exact Coherent.activate hw hclean
  | resolve group =>
    exact Coherent.mono hw (fun _ _ => Board.less_resolve.hasOpen) hw.board.resolve
  | otherFires n group =>
    refine Coherent.mono hw (fun x hx h => ?_) hw.board.fire
    exact (Board.hasOpen_fire_of_ne (hx n)) ▸ h

/-- A clean ping that ends an overdue period resolves the alerts of the period. -/
theorem resolvesOwn_step {w : World} {e : Event} (hw : Coherent w) (hclean : Clean w e) :
    ResolvesOwn w e := by
  intro p hp
  cases e with
  | ping key now =>
    obtain ⟨w', hping⟩ := receiveHeartbeatPing_of_pinged now (recovering_ping.mp hp).1
    rw [step_ping_ok hping]
    exact (ping_spec hw hping hclean).2 p hp
  | check | checkInstance | expire | pause | resume | activate | resolve | otherFires =>
    cases hp

end Steps

/-! ## Runs -/

/-- **Run lemma.** Along a clean run every state is coherent, and every ping that
ends an overdue period resolves its alerts. -/
theorem coherent_run {w : World} {events : List Event} (hw : Coherent w)
    (hclean : Along step Clean w events) :
    Along step (fun w e => Calm (step w e) ∧ ResolvesOwn w e) w events := by
  induction events generalizing w with
  | nil => trivial
  | cons e events ih =>
    obtain ⟨hstep, hrest⟩ := hclean
    have hnext := coherent_step hw hstep
    exact ⟨⟨hnext.calm, resolvesOwn_step hw hstep⟩, ih hnext hrest⟩

/-- A heartbeat with `auto_resolve` that nothing has happened to yet. -/
structure Created (w : World) : Prop where
  autoResolve : w.monitor.autoResolve = true
  heartbeat : w.monitor.heartbeat.overdueSince = none
  instances : ∀ i ∈ w.monitor.instances, i.overdueSince = none
  own : w.board.hasOpen .heartbeat = false
  ownInstances : ∀ key, w.board.hasOpen (.instance key) = false
  board : w.board.Consistent

/-- A world that was just created is coherent. -/
theorem Created.coherent {w : World} (hw : Created w) : Coherent w where
  heartbeat := ⟨fun _ => hw.heartbeat, fun _ => hw.own⟩
  instances := fun i hi => ⟨fun _ => hw.instances i hi, fun _ => hw.ownInstances i.key⟩
  unknown := fun key _ => hw.ownInstances key
  tracking := fun _ => hw.heartbeat
  board := hw.board
  autoResolve := hw.autoResolve

/-- **Statuses and alerts.** In every run of pings, checks, expiries, pauses, resumes
and whatever happens to the alerts meanwhile, all of it clean, a heartbeat or
instance that is `ok` or `new` has no overdue period and no open alert of its own,
and the ping that ends an overdue period resolves exactly the alerts of it. -/
theorem heartbeat_run {w : World} {events : List Event} (hw : Created w)
    (hclean : Along step Clean w events) :
    Calm w ∧ Along step (fun w e => Calm (step w e) ∧ ResolvesOwn w e) w events :=
  ⟨hw.coherent.calm, coherent_run hw.coherent hclean⟩

/-- A new heartbeat with no alert. -/
def sampleWorld : World where
  monitor :=
    { heartbeat :=
        { sampleHeartbeat with
          mode := .interval
          expectedIntervalSeconds := some 60
          gracePeriodSeconds := 0
          status := .new
          lastSeenAt := none
          nextExpectedAt := some 60 }
      autoResolve := true
      lastRecoveredAt := none
      instanceKey := "instance"
      expectedInstancesMode := .none
      expectedInstances := []
      autoDiscoveryTtlDays := none
      instances := []
      keys_nodup := by decide }
  board := ⟨[], [], []⟩

theorem sampleWorld_created : Created sampleWorld where
  autoResolve := rfl
  heartbeat := rfl
  instances := by decide
  own := rfl
  ownInstances := fun _ => rfl
  board := by
    intro a ha
    cases ha

/-- An overdue period that a ping ends, and a pause after it. -/
def sampleRun : List Event :=
  [.check (.group 1) 60, .ping none 70, .pause 80, .resume 90]

theorem heartbeat_run_sample : Calm (run sampleWorld [.check (.group 1) 60, .ping none 70]) ∧
    Along step (fun w e => Calm (step w e) ∧ ResolvesOwn w e) sampleWorld sampleRun := by
  have hping : Clean (step sampleWorld (.check (.group 1) 60)) (.ping none 70) := by
    intro p hp
    have hrow : recovering (step sampleWorld (.check (.group 1) 60)) (.ping none 70) =
        some (.heartbeat, ⟨.overdue, some 60, some 1⟩) := by decide
    obtain rfl := Option.some.inj (hrow.symm.trans hp)
    unfold Linked Unshared
    decide
  have hresume : Clean (run sampleWorld [.check (.group 1) 60, .ping none 70, .pause 80])
      (.resume 90) := by
    show ∀ r ∈ resumed _, _
    decide
  have hclean : Along step Clean sampleWorld sampleRun :=
    ⟨trivial, hping, trivial, hresume, trivial⟩
  have hrun := (heartbeat_run sampleWorld_created hclean).2
  exact ⟨hrun.2.1.1, hrun⟩

/-- A pause in an overdue period, and the resume after it: the heartbeat is new again,
with the period and the alert of before. -/
theorem pause_loses_period : Created sampleWorld ∧
    ¬ Calm (run sampleWorld [.check (.group 1) 60, .pause 70, .resume 80]) := by
  refine ⟨sampleWorld_created, ?_⟩
  unfold Calm
  decide

end IncidentRelay.Heartbeats
