import IncidentRelay.Incidents.Core
import IncidentRelay.Lib.Result
import IncidentRelay.Lib.Run
import IncidentRelay.Lib.Versioned

/-!
# The workflow under concurrent clients

A call reads the incident and is then an attempt, whose compare-and-swap commits at any
later time or not at all. A client passes a version that it was given before, so that an
attempt commits only over the row that it was planned from (`Attempt.Sound`): each commit
is a step of the workflow, and the timestamps follow the status.
-/

namespace IncidentRelay.Incidents

open Json

/-! ## The system -/

/-- A call behind its checks, with the row it read. -/
structure Attempt where
  incident : Id
  expected : ℕ
  read : Incident
  write : Write
  user : Option Id

structure Desk where
  incidents : Id → Option Incident
  events : List IncidentEvent
  /-- the versions that clients were given -/
  returned : List (Id × ℕ)
  attempts : List Attempt

def Desk.init : Desk := { incidents := fun _ => none, events := [], returned := [], attempts := [] }

/-- The row of an incident is written. -/
def Desk.put (s : Desk) (id : Id) (i : Incident) : Desk :=
  { s with
    incidents := Function.update s.incidents id (some i)
    returned := (id, i.rowVersion) :: s.returned }

def Desk.log (s : Desk) (id : Id) (eventType : String) (user : Option Id) (data : Json) : Desk :=
  { s with events := s.events ++ [{ incident := id, eventType, user, data }] }

def Desk.begin (s : Desk) (a : Attempt) : Desk := { s with attempts := a :: s.attempts }

/-- The attempt is over. -/
def Desk.finish (s : Desk) (rest : List Attempt) : Desk := { s with attempts := rest }

/-- The compare-and-swap of an attempt, with its event, in one transaction. -/
def Desk.commit (s : Desk) (a : Attempt) (i : Incident) (now : Instant) : Desk :=
  (s.put a.incident (a.write.changes.apply now i)).log a.incident a.write.eventType a.user
    a.write.data

inductive Label where
  | declare (id : Id)
  | read (id : Id)
  | call (id : Id) (expected : ℕ) (op : Operation)
  | reopen (id : Id)
  | commit (a : Attempt)
  | drop (a : Attempt)

/-- A step of the system. -/
inductive Step : Desk → Label → Desk → Prop where
  /-- `create_incident(…)` -/
  | declare {s : Desk} (dir : Directory) {id team : Id} {title : String}
      {user service assignee : Option Id} {slug description : Option String} {now : Instant}
      {i : Incident} : s.incidents id = none →
      createIncident dir team title user service slug assignee description now = .ok i →
      Step s (.declare id)
        ((s.put id i).log id "incident_declared" user (.obj [("status", .str "declared")]))
  /-- a client is given the incident, also by a call that changes nothing -/
  | read {s : Desk} {id : Id} {i : Incident} : s.incidents id = some i →
      Step s (.read id) { s with returned := (id, i.rowVersion) :: s.returned }
  /-- a client calls an operation with a version that it was given -/
  | call {s : Desk} (dir : Directory) {id : Id} {expected : ℕ} {op : Operation} {i : Incident}
      {now : Instant} {user : Option Id} {w : Write} : s.incidents id = some i →
      (id, expected) ∈ s.returned → op.plan dir i now user = .ok (some w) →
      Step s (.call id expected op)
        (s.begin { incident := id, expected, read := i, write := w, user })
  /-- a group of alerts that is linked to the incident is reopened -/
  | reopen {s : Desk} {id group alert : Id} {i : Incident} {now : Instant} {w : Write} :
      s.incidents id = some i → resumeLinkedIncident i group alert now = some w →
      Step s (.reopen id)
        (s.begin { incident := id, expected := i.rowVersion, read := i, write := w, user := none })
  | commit {s : Desk} {a : Attempt} {before behind : List Attempt} {i : Incident} {now : Instant} :
      s.attempts = before ++ a :: behind → s.incidents a.incident = some i →
      i.rowVersion = a.expected →
      Step s (.commit a) ((s.commit a i now).finish (before ++ behind))
  /-- the version is another one, or the transaction is rolled back -/
  | drop {s : Desk} {a : Attempt} {before behind : List Attempt} :
      s.attempts = before ++ a :: behind → Step s (.drop a) (s.finish (before ++ behind))

/-! ## What an attempt writes -/

/-- The timestamps of an incident follow its status. -/
structure Stamped (i : Incident) : Prop where
  resolved : i.resolvedAt.isSome ↔ i.workflowStatus = .resolved ∨ i.workflowStatus = .closed
  closed : i.closedAt.isSome ↔ i.workflowStatus = .closed

/-- What a write does to the row it was planned from. -/
structure Follows (i : Incident) (w : Write) : Prop where
  edge : ∀ now, (w.changes.apply now i).workflowStatus = i.workflowStatus ∨
    (w.changes.apply now i).workflowStatus ∈ statusTransitions i.workflowStatus
  stamped : Stamped i → ∀ now, Stamped (w.changes.apply now i)

/-- A write without columns of the workflow. -/
theorem Follows.aside {i : Incident} {w : Write} (hstatus : w.changes.workflowStatus = none)
    (hresolved : w.changes.resolvedAt = none) (hclosed : w.changes.closedAt = none) :
    Follows i w where
  edge := fun now => .inl (by
    show w.changes.workflowStatus.getD _ = _
    rw [hstatus]
    rfl)
  stamped := fun h now => by
    constructor
    · show (w.changes.resolvedAt.getD _).isSome ↔ w.changes.workflowStatus.getD _ = _ ∨
        w.changes.workflowStatus.getD _ = _
      rw [hstatus, hresolved]
      exact h.resolved
    · show (w.changes.closedAt.getD _).isSome ↔ w.changes.workflowStatus.getD _ = _
      rw [hstatus, hclosed]
      exact h.closed

/-- Editing keeps the incident at its status. -/
theorem updateIncident_follows {dir : Directory} {i : Incident} {title description : Option String}
    {service : Option Id} {slug : Option String} {w : Write}
    (h : updateIncident dir i title description service slug = .ok (some w)) : Follows i w := by
  unfold updateIncident at h
  obtain ⟨team, -, h⟩ := bind_eq_ok.mp h
  obtain ⟨newTitle, -, h⟩ := bind_eq_ok.mp h
  obtain ⟨newService, -, h⟩ := bind_eq_ok.mp h
  obtain ⟨priority, -, h⟩ := bind_eq_ok.mp h
  dsimp only at h
  split at h
  · cases h
  · cases h
    exact .aside rfl rfl rfl

theorem assignIncident_follows {dir : Directory} {i : Incident} {assignee : Option Id} {w : Write}
    (h : assignIncident dir i assignee = .ok (some w)) : Follows i w := by
  unfold assignIncident at h
  obtain ⟨team, -, h⟩ := bind_eq_ok.mp h
  obtain ⟨user, -, h⟩ := bind_eq_ok.mp h
  cases h
  exact .aside rfl rfl rfl

/-- A transition along an edge keeps the timestamps with the status. -/
theorem transition_stamped {i : Incident} {status : WorkflowStatus} {at_ now : Instant}
    {user : Option Id} (hedge : status ∈ statusTransitions i.workflowStatus) (h : Stamped i) :
    Stamped ((transitionChanges i status at_ user).apply now i) := by
  obtain ⟨hresolved, hclosed⟩ := h
  -- one case for each edge
  revert hedge hresolved hclosed
  unfold transitionChanges Changes.apply
  cases hstatus : i.workflowStatus <;> cases status <;> intro hedge hresolved hclosed <;>
    first
    | exact absurd hedge (by decide)
    | exact ⟨by simp_all, by simp_all⟩

/-- A transition takes an edge, and sets the timestamps that belong to it. -/
theorem transitionIncident_follows {i : Incident} {text : String} {now : Instant} {user : Option Id}
    {w : Write} (h : transitionIncident i text now user = .ok (some w)) : Follows i w := by
  unfold transitionIncident at h
  split at h
  · cases h
  · rename_i status hstatus
    split at h
    · cases h
    · split at h
      · cases h
      · rename_i hedge
        cases h
        have hedge := not_not.mp hedge
        exact ⟨fun _ => .inr hedge, fun hi _ => transition_stamped hedge hi⟩

/-- **Whatever an operation plans** follows the workflow. -/
theorem plan_follows {dir : Directory} {op : Operation} {i : Incident} {now : Instant}
    {user : Option Id} {w : Write} (h : op.plan dir i now user = .ok (some w)) : Follows i w := by
  cases op with
  | update title description service slug =>
    rw [Operation.plan] at h
    exact updateIncident_follows h
  | assign assignee =>
    rw [Operation.plan] at h
    exact assignIncident_follows h
  | transition status =>
    rw [Operation.plan] at h
    exact transitionIncident_follows h

theorem resume_follows {i : Incident} {group alert : Id} {now : Instant} {w : Write}
    (h : resumeLinkedIncident i group alert now = some w) : Follows i w := by
  unfold resumeLinkedIncident at h
  -- only a resolved or closed incident is resumed
  split at h
  · rename_i hstatus
    cases h
    refine ⟨fun _ => .inr ?_, fun hi _ => ⟨?_, ?_⟩⟩
    · show WorkflowStatus.investigating ∈ _
      rcases hstatus with hstatus | hstatus
      · rw [hstatus]
        decide
      · rw [hstatus]
        decide
    · show (none : Option Instant).isSome = true ↔ WorkflowStatus.investigating = .resolved ∨
        WorkflowStatus.investigating = .closed
      simp
    · show i.closedAt.isSome = true ↔ WorkflowStatus.investigating = .closed
      have hopen : i.workflowStatus ≠ .closed := by
        intro hclosed
        rw [hclosed] at hstatus
        simp at hstatus
      have hnone : ¬i.closedAt.isSome = true := fun h => hopen (hi.closed.mp h)
      simp [hnone]
  · cases h

/-! ## The invariant -/

/-- An attempt was planned from a row that it read when its version was an old one. -/
structure Attempt.Sound (rows : Id → Option Incident) (a : Attempt) : Prop where
  read : Versioned.ReadOf Incident.rowVersion rows a.incident a.read
  expected : a.expected ≤ a.read.rowVersion
  follows : Follows a.read a.write

structure Desk.Inv (s : Desk) : Prop where
  returned : ∀ q ∈ s.returned, Versioned.Returned Incident.rowVersion s.incidents q.1 q.2
  stamped : ∀ id i, s.incidents id = some i → Stamped i
  sound : ∀ a ∈ s.attempts, a.Sound s.incidents

theorem init_inv : Desk.init.Inv where
  returned := fun _ h => absurd h (List.not_mem_nil)
  stamped := fun _ _ h => by cases h
  sound := fun _ h => absurd h (List.not_mem_nil)

theorem Attempt.Sound.grow {rows rows' : Id → Option Incident} {a : Attempt}
    (hgrow : Versioned.Grows Incident.rowVersion rows rows') (h : a.Sound rows) : a.Sound rows' :=
  { h with read := h.read.grow hgrow }

/-- A stamped row that is newer than the one in its place keeps the invariant. -/
theorem Desk.Inv.put {s : Desk} (h : s.Inv) {id : Id} {i : Incident} (hi : Stamped i)
    (hnewer : ∀ old, s.incidents id = some old → old.rowVersion < i.rowVersion) :
    (s.put id i).Inv := by
  have hgrow : Versioned.Grows Incident.rowVersion s.incidents (s.put id i).incidents :=
    Versioned.Grows.update hnewer
  refine ⟨?_, ?_, fun a ha => (h.sound a ha).grow hgrow⟩
  · intro q hq
    rcases List.mem_cons.mp hq with rfl | hq
    · exact ⟨i, Function.update_self .., le_rfl⟩
    · exact (h.returned q hq).grow hgrow
  · intro other j hj
    by_cases hother : other = id
    · subst hother
      change Function.update s.incidents other (some i) other = some j at hj
      rw [Function.update_self] at hj
      obtain rfl : i = j := Option.some.inj hj
      exact hi
    · refine h.stamped other j ?_
      rwa [← Function.update_of_ne hother (some i) s.incidents]

theorem Desk.Inv.log {s : Desk} (h : s.Inv) (id : Id) (eventType : String) (user : Option Id)
    (data : Json) : (s.log id eventType user data).Inv := ⟨h.returned, h.stamped, h.sound⟩

/-- An attempt may begin. -/
theorem Desk.Inv.begin {s : Desk} (h : s.Inv) {a : Attempt} (ha : a.Sound s.incidents) :
    (s.begin a).Inv := by
  refine ⟨h.returned, h.stamped, fun b hb => ?_⟩
  rcases List.mem_cons.mp hb with rfl | hb
  · exact ha
  · exact h.sound b hb

theorem Desk.Inv.finish {s : Desk} (h : s.Inv) {rest : List Attempt}
    (hrest : ∀ a ∈ rest, a ∈ s.attempts) : (s.finish rest).Inv :=
  ⟨h.returned, h.stamped, fun a ha => h.sound a (hrest a ha)⟩

/-- A new incident is stamped as open. -/
theorem createIncident_stamped {dir : Directory} {team : Id} {title : String}
    {user service assignee : Option Id} {slug description : Option String} {now : Instant}
    {i : Incident}
    (h : createIncident dir team title user service slug assignee description now = .ok i) :
    Stamped i := by
  unfold createIncident at h
  obtain ⟨owner, -, h⟩ := bind_eq_ok.mp h
  obtain ⟨checked, -, h⟩ := bind_eq_ok.mp h
  obtain ⟨member, -, h⟩ := bind_eq_ok.mp h
  dsimp only at h
  split at h
  · cases h
  · split at h
    · cases h
    · split at h
      · cases h
      · cases h
        constructor <;> simp

/-- **An attempt commits over the row that it was planned from.** -/
theorem commit_current {s : Desk} (h : s.Inv) {a : Attempt} (ha : a ∈ s.attempts) {i : Incident}
    (hrow : s.incidents a.incident = some i) (hversion : i.rowVersion = a.expected) :
    a.read = i :=
  (h.sound a ha).read.current (h.sound a ha).expected hrow hversion

theorem mem_middle {α : Type} {a : α} {all before behind : List α}
    (h : all = before ++ a :: behind) : a ∈ all := by
  rw [h]
  simp

theorem mem_rest {α : Type} {a : α} {all before behind : List α}
    (h : all = before ++ a :: behind) : ∀ b ∈ before ++ behind, b ∈ all := by
  rw [h]
  intro b hb
  rcases List.mem_append.mp hb with hb | hb
  · simp [hb]
  · simp [hb]

/-- **Every step keeps the invariant.** -/
theorem step_inv {s t : Desk} {l : Label} (h : s.Inv) (hstep : Step s l t) : t.Inv := by
  -- only a commit writes a row that is there
  cases hstep with
  | declare dir hnew hcreate =>
    refine (h.put (createIncident_stamped hcreate) fun old hold => ?_).log _ _ _ _
    rw [hnew] at hold
    cases hold
  | read hrow =>
    refine ⟨fun q hq => ?_, h.stamped, h.sound⟩
    rcases List.mem_cons.mp hq with rfl | hq
    · exact ⟨_, hrow, le_rfl⟩
    · exact h.returned q hq
  | call dir hrow hgiven hplan =>
    obtain ⟨row, hsame, hle⟩ := h.returned _ hgiven
    obtain rfl := Option.some.inj (hrow.symm.trans hsame)
    exact h.begin ⟨Versioned.ReadOf.self hrow, hle, plan_follows hplan⟩
  | reopen hrow hresume =>
    exact h.begin ⟨Versioned.ReadOf.self hrow, le_rfl, resume_follows hresume⟩
  -- the row is the one that was read, as its version says
  | @commit a before behind i now hattempts hrow hversion =>
    have hmem := mem_middle hattempts
    have hread := commit_current h hmem hrow hversion
    have hfollows := (h.sound a hmem).follows
    rw [hread] at hfollows
    have hput : (s.put a.incident (a.write.changes.apply now i)).Inv := by
      refine h.put (hfollows.stamped (h.stamped _ _ hrow) now) fun old hold => ?_
      obtain rfl := Option.some.inj (hrow.symm.trans hold)
      exact Nat.lt_succ_self _
    exact (hput.log _ _ _ _).finish (mem_rest hattempts)
  | drop hattempts => exact h.finish (mem_rest hattempts)

/-! ## The claim about runs -/

/-- The row became another one by the commit of an attempt that had read it. -/
structure Committed (s : Desk) (l : Label) (id : Id) (i j : Incident) : Prop where
  byAttempt : ∃ a ∈ s.attempts, l = .commit a ∧ a.incident = id ∧ a.expected = i.rowVersion ∧
    a.read = i
  version : j.rowVersion = i.rowVersion + 1
  edge : j.workflowStatus = i.workflowStatus ∨
    j.workflowStatus ∈ statusTransitions i.workflowStatus

/-- **The workflow is kept by every run**: in every state that is reached the timestamps
follow the status, and a step changes a row only by a commit over the row that was read,
along an edge of the workflow and to the next version. -/
theorem workflow_kept {ls : List Label} {s : Desk} (hrun : Run Step Desk.init ls s) :
    (∀ id i, s.incidents id = some i → Stamped i) ∧
    ∀ l t, Step s l t → ∀ id i, s.incidents id = some i →
      ∃ j, t.incidents id = some j ∧ (j = i ∨ Committed s l id i j) := by
  have hinv : s.Inv := hrun.invariant step_inv init_inv
  refine ⟨hinv.stamped, fun l t hstep id i hrow => ?_⟩
  -- every row stays, and only a commit changes one
  cases hstep with
  | @declare _ new _ _ _ _ _ _ _ _ k hnew _ =>
    have hne : id ≠ new := by
      rintro rfl
      rw [hnew] at hrow
      cases hrow
    exact ⟨i, (Function.update_of_ne hne ..).trans hrow, .inl rfl⟩
  | read _ => exact ⟨i, hrow, .inl rfl⟩
  | call _ _ _ _ => exact ⟨i, hrow, .inl rfl⟩
  | reopen _ _ => exact ⟨i, hrow, .inl rfl⟩
  | drop _ => exact ⟨i, hrow, .inl rfl⟩
  | @commit a before behind k now hattempts hk hversion =>
    by_cases hid : id = a.incident
    · subst hid
      obtain rfl : i = k := Option.some.inj (hrow.symm.trans hk)
      have hmem := mem_middle hattempts
      have hread := commit_current hinv hmem hrow hversion
      have hfollows := (hinv.sound a hmem).follows
      rw [hread] at hfollows
      exact ⟨_, Function.update_self .., .inr
        ⟨⟨a, hmem, rfl, rfl, hversion.symm, hread⟩, rfl, hfollows.edge now⟩⟩
    · exact ⟨i, (Function.update_of_ne hid ..).trans hrow, .inl rfl⟩

/-! ## An incident that is investigated -/

def opsDirectory : Directory where
  teams := [{ id := 1, group := none, active := true, deleted := false }]
  services := []
  users := []
  memberships := []
  priorities := [("p3", 3)]
  defaultPriority := some 3

def declaredIncident : Incident where
  team := some 1
  service := none
  priority := some 3
  assignee := none
  workflowStatus := .declared
  title := "Disk full"
  description := none
  declaredBy := none
  declaredAt := 0
  updatedAt := 0

theorem declaredIncident_created :
    createIncident opsDirectory 1 "Disk full" none none none none none 0 = .ok declaredIncident := by
  decide +kernel

/-- The transition of the incident, as it is planned. -/
def investigation (now : Instant) : Write where
  changes := transitionChanges declaredIncident .investigating now none
  eventType := "incident_status_changed"
  data := .obj [("from", .str "declared"), ("to", .str "investigating")]

theorem investigation_planned (now : Instant) :
    (Operation.transition "investigating").plan opsDirectory declaredIncident now none =
      .ok (some (investigation now)) := by
  have hstatus : WorkflowStatus.ofText (lower (strip "investigating")) = some .investigating := by
    decide +kernel
  rw [Operation.plan, transitionIncident, hstatus]
  rfl

def investigationAttempt (now : Instant) : Attempt where
  incident := 1
  expected := 1
  read := declaredIncident
  write := investigation now
  user := none

/-- Two clients investigate the incident that both have read: the first attempt wins, the other
one is dropped. -/
theorem workflow_kept_sample :
    ∃ s, Run Step Desk.init
        [.declare 1, .call 1 1 (.transition "investigating"),
          .call 1 1 (.transition "investigating"), .commit (investigationAttempt 1),
          .drop (investigationAttempt 2)] s ∧
      (s.incidents 1).map Incident.workflowStatus = some .investigating ∧
      (s.incidents 1).map Incident.rowVersion = some 2 ∧
      (∀ id i, s.incidents id = some i → Stamped i) ∧
      ∀ l t, Step s l t → ∀ id i, s.incidents id = some i →
        ∃ j, t.incidents id = some j ∧ (j = i ∨ Committed s l id i j) := by
  have hrun : Run Step Desk.init _ _ :=
    .cons (.declare opsDirectory rfl declaredIncident_created)
      (.cons (.call opsDirectory rfl (by exact .head _) (investigation_planned 1))
        (.cons (.call opsDirectory rfl (by exact .head _) (investigation_planned 2))
          (.cons (@Step.commit _ (investigationAttempt 1) [investigationAttempt 2] []
              declaredIncident 1 rfl rfl rfl)
            (.cons (@Step.drop _ (investigationAttempt 2) [] [] rfl) (.nil _)))))
  exact ⟨_, hrun, rfl, rfl, workflow_kept hrun⟩

end IncidentRelay.Incidents
