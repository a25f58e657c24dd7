import IncidentRelay.Heartbeats.Monitor

/-!
# Pings, pauses and instances

The rest of the heartbeat service, for one heartbeat: pings, pause and resume, the
rows of the instances it tracks, and the alerts the overdue checks open. A row goes
through `new`, `ok`, `overdue` and `paused`; beside its status it keeps the start of
its overdue period and the group of the alert opened for it, and every operation
writes these on its own.

The alerts are kept as the alert store has them: each child alert with its owner,
its group and whether it is resolved. `Answer` says what `upsert_alert` made of an
overdue event; an event that orchestration paused opens its alert later.
-/

namespace IncidentRelay.Heartbeats

/-! ## Alerts -/

/-- Whose alert it is: the `dedup_key` of the event. -/
inductive Owner where
  | heartbeat
  | instance (key : String)
  | other (n : Nat)
  deriving DecidableEq

structure Alert where
  owner : Owner
  group : Id
  unresolved : Bool
  deriving DecidableEq

/-- The alert store, and the events orchestration has paused. -/
structure Board where
  alerts : List Alert
  /-- The groups that are not resolved. -/
  openGroups : List Id
  pending : List Owner

/-- What `upsert_alert` made of an event. -/
inductive Answer where
  /-- The event is an alert of this group. -/
  | group (id : Id)
  /-- Orchestration paused it. -/
  | paused
  /-- Processing stopped, and there is no group. -/
  | stopped
  /-- An exception. -/
  | failed
  deriving DecidableEq

def Answer.result : Answer → Except String (Option Id)
  | .group id => .ok (some id)
  | .paused | .stopped => .ok none
  | .failed => .error "upsert_alert"

namespace Board

def isOpen (b : Board) (group : Id) : Bool :=
  group ∈ b.openGroups

/-- The owner has an alert that is not resolved. -/
def hasOpen (b : Board) (x : Owner) : Bool :=
  b.alerts.any fun a => a.owner == x && a.unresolved

/-- A firing alert of the owner in the group. -/
def fire (b : Board) (x : Owner) (group : Id) : Board :=
  { b with
    alerts := if ⟨x, group, true⟩ ∈ b.alerts then b.alerts else b.alerts ++ [⟨x, group, true⟩]
    openGroups := if group ∈ b.openGroups then b.openGroups else b.openGroups ++ [group] }

/-- What an upsert does to the store. -/
def upsert (b : Board) (x : Owner) : Answer → Board
  | .group id => b.fire x id
  | .paused => { b with pending := if x ∈ b.pending then b.pending else b.pending ++ [x] }
  | .stopped | .failed => b

/-- `resolve_alert`. -/
def resolve (b : Board) (group : Id) : Board :=
  if b.isOpen group then
    { b with
      alerts := b.alerts.map fun a => if a.group = group then { a with unresolved := false } else a
      openGroups := b.openGroups.filter (· ≠ group) }
  else b

/-- `_resolve_current_overdue_alert`, and the same for an instance. -/
def resolveCurrent (b : Board) : Option Id → Board
  | none => b
  | some group => b.resolve group

/-- The paused event of the owner becomes an alert of the group. -/
def activate (b : Board) (x : Owner) (group : Id) : Board :=
  if x ∈ b.pending then { b with pending := b.pending.filter (· ≠ x) }.fire x group else b

end Board

/-! ## Instances -/

inductive ExpectedInstancesMode where
  | none
  | static
  | auto
  deriving DecidableEq

structure Instance where
  key : String
  status : Status
  enabled : Bool
  autoDiscovered : Bool
  firstSeenAt : Option Int
  lastSeenAt : Option Int
  nextExpectedAt : Option Int
  overdueSince : Option Int
  lastOverdueAt : Option Int
  lastRecoveredAt : Option Int
  currentAlertGroup : Option Id
  createdAt : Int
  updatedAt : Int
  deriving DecidableEq

/-- A heartbeat with its instances. -/
structure Monitor where
  heartbeat : Heartbeat
  autoResolve : Bool
  lastRecoveredAt : Option Int
  instanceKey : String
  expectedInstancesMode : ExpectedInstancesMode
  expectedInstances : List String
  autoDiscoveryTtlDays : Option Nat
  instances : List Instance
  keys_nodup : (instances.map (·.key)).Nodup

/-- `compute_instance_next_expected_at`. -/
def computeInstanceNextExpectedAt (h : Heartbeat) (i : Instance) (now : Int) : Int :=
  match h.mode with
  | .scheduled => computeNextExpectedAt h now
  | .interval => i.lastSeenAt.getD i.createdAt + h.interval

/-- `heartbeat_instance_is_overdue`. -/
def heartbeatInstanceIsOverdue (h : Heartbeat) (i : Instance) (now : Int) : Bool :=
  if h.status = .paused ∨ h.enabled = false ∨ h.deleted = true then false
  else if i.status = .paused ∨ i.enabled = false then false
  else
    match h.mode with
    | .scheduled =>
      let due := scheduledDue h.schedule now
      if now < due + h.gracePeriodSeconds then false
      else i.lastSeenAt.all (· < due)
    | .interval =>
      let expectedAt := i.nextExpectedAt.getD (computeInstanceNextExpectedAt h i now)
      expectedAt + h.gracePeriodSeconds ≤ now

namespace Monitor

/-- An update of the instances that keeps their keys. -/
def updateInstances (m : Monitor) (guard : Instance → Bool) (set : Instance → Instance)
    (hkey : ∀ i, (set i).key = i.key) : Monitor :=
  { m with
    instances := Table.update guard set m.instances
    keys_nodup := by
      rw [Table.map_update_of_guard _ fun i _ => hkey i]
      exact m.keys_nodup }

/-- `create_heartbeat_instance`. -/
def createInstance (m : Monitor) (i : Instance) (hnew : i.key ∉ m.instances.map (·.key)) :
    Monitor :=
  { m with
    instances := m.instances ++ [i]
    keys_nodup := by
      rw [List.map_append, List.nodup_append]
      refine ⟨m.keys_nodup, List.nodup_singleton _, ?_⟩
      intro k hk k' hk' heq
      rw [List.map_singleton, List.mem_singleton] at hk'
      exact hnew (hk' ▸ heq ▸ hk) }

/-- `get_heartbeat_instance`. -/
def getInstance (m : Monitor) (key : String) : Option Instance :=
  m.instances.find? (·.key == key)

/-- `refresh_heartbeat_instance_rollup`. -/
def refreshRollup (m : Monitor) (now : Int) : Monitor :=
  let h := m.heartbeat
  let instances := m.instances.filter (·.enabled)
  if h.instanceTrackingEnabled = false then m
  else if h.status = .paused ∨ h.enabled = false then m
  else
    { m with
      heartbeat :=
        { h with
          status :=
            if instances.any (·.status = .overdue) then .overdue
            else if instances.any (·.lastSeenAt.isSome) then .ok else .new
          lastSeenAt := (instances.filterMap (·.lastSeenAt)).max?
          nextExpectedAt := (instances.filterMap (·.nextExpectedAt)).min?
          updatedAt := now } }

end Monitor

/-- `mark_heartbeat_instance_overdue`, down to the row of the instance. -/
def markHeartbeatInstanceOverdue (b : Board) (h : Heartbeat) (answer : Answer) (now : Int)
    (i : Instance) : Instance :=
  if i.status = .overdue ∧ i.currentAlertGroup.any b.isOpen = true then i
  else
    let saved :=
      { i with
        status := .overdue
        overdueSince := some (i.overdueSince.getD now)
        lastOverdueAt := if i.status = .overdue then i.lastOverdueAt else some now
        nextExpectedAt := some (computeInstanceNextExpectedAt h i now)
        updatedAt := now }
    match answer with
    | .group id => { saved with currentAlertGroup := some id }
    | .paused | .stopped | .failed => saved

/-! ## The operations -/

/-- The heartbeat with its instances and the alert store. -/
structure World where
  monitor : Monitor
  board : Board

/-- The answer of a ping that is turned down. -/
structure PingError where
  error : String
  message : String
  deriving DecidableEq

def heartbeatNotFound : PingError :=
  ⟨"heartbeat_not_found", "Heartbeat token was not found or is disabled."⟩

/-- `heartbeat_instance_key_name`; the column is not empty. -/
def heartbeatInstanceRequired (keyName : String) : PingError :=
  ⟨"heartbeat_instance_required",
    "Heartbeat expects instance tracking. Add '" ++ keyName ++ "' to the ping JSON."⟩

def heartbeatInstanceNotExpected (key : String) : PingError :=
  ⟨"heartbeat_instance_not_expected",
    "Instance '" ++ key ++ "' is not expected for this heartbeat."⟩

def heartbeatInstanceDisabled (key : String) : PingError :=
  ⟨"heartbeat_instance_disabled", "Instance '" ++ key ++ "' is disabled for this heartbeat."⟩

/-- The row a first ping creates. -/
def newInstance (key : String) (autoDiscovered : Bool) (firstSeenAt : Option Int) (now : Int) :
    Instance where
  key := key
  status := .new
  enabled := true
  autoDiscovered := autoDiscovered
  firstSeenAt := firstSeenAt
  lastSeenAt := none
  nextExpectedAt := none
  overdueSince := none
  lastOverdueAt := none
  lastRecoveredAt := none
  currentAlertGroup := none
  createdAt := now
  updatedAt := now

/-- The instance of a ping is looked up, or created when it is expected. -/
def ensureInstance (m : Monitor) (key : String) (now : Int) : Except PingError Monitor :=
  if hnew : key ∈ m.instances.map (·.key) then .ok m
  else
    match m.expectedInstancesMode with
    | .static =>
      if key ∈ m.expectedInstances then .ok (m.createInstance (newInstance key false none now) hnew)
      else .error (heartbeatInstanceNotExpected key)
    | .auto => .ok (m.createInstance (newInstance key true (some now) now) hnew)
    | .none => .error (heartbeatInstanceNotExpected key)

/-- The row of an instance after its ping. -/
def pingInstance (h : Heartbeat) (now : Int) (i : Instance) : Instance :=
  let seen := { i with lastSeenAt := some now }
  let pinged :=
    { seen with
      nextExpectedAt := some (computeInstanceNextExpectedAt h seen now)
      updatedAt := now }
  match i.status with
  | .overdue =>
    { pinged with
      status := .ok
      overdueSince := none
      lastRecoveredAt := some now
      currentAlertGroup := none }
  | .paused => pinged
  | .new | .ok => { pinged with status := .ok }

theorem pingInstance_key (h : Heartbeat) (now : Int) (i : Instance) :
    (pingInstance h now i).key = i.key := by
  unfold pingInstance
  split <;> rfl

/-- The row of a heartbeat without instances after its ping. -/
def pingHeartbeat (now : Int) (h : Heartbeat) : Heartbeat :=
  let seen := { h with lastSeenAt := some now }
  let pinged :=
    { seen with
      nextExpectedAt := some (computeNextExpectedAt seen now)
      updatedAt := now }
  match h.status with
  | .overdue => { pinged with status := .ok, overdueSince := none, currentAlertGroup := none }
  | .paused => pinged
  | .new | .ok => { pinged with status := .ok }

/-- `receive_heartbeat_ping`, with the instance key read from the payload. -/
def receiveHeartbeatPing (w : World) (key : Option String) (now : Int) : Except PingError World :=
  let h := w.monitor.heartbeat
  if h.deleted = true ∨ h.enabled = false then .error heartbeatNotFound
  else if h.instanceTrackingEnabled then
    match key with
    | none => .error (heartbeatInstanceRequired w.monitor.instanceKey)
    | some key => do
      let m ← ensureInstance w.monitor key now
      match m.getInstance key with
      | none => .error (heartbeatInstanceNotExpected key)
      | some i =>
        if i.enabled = false then .error (heartbeatInstanceDisabled key)
        else
          let recovers := i.status = .overdue ∧ m.autoResolve = true
          .ok
            { monitor := (m.updateInstances (·.key == key) (pingInstance h now)
                (pingInstance_key h now)).refreshRollup now
              board := if recovers then w.board.resolveCurrent i.currentAlertGroup else w.board }
  else
    let recovers := h.status = .overdue ∧ w.monitor.autoResolve = true
    .ok
      { monitor :=
          { w.monitor with
            heartbeat := pingHeartbeat now h
            lastRecoveredAt :=
              if h.status = .overdue then some now else w.monitor.lastRecoveredAt }
        board := if recovers then w.board.resolveCurrent h.currentAlertGroup else w.board }

/-- The row waits for a check: the conditions of the candidate queries. -/
def heartbeatDue (h : Heartbeat) (now : Int) : Bool :=
  h.deleted = false ∧ h.enabled = true ∧ h.status ≠ .paused ∧ h.instanceTrackingEnabled = false ∧
    h.nextExpectedAt.all (· ≤ now) = true

def instanceDue (h : Heartbeat) (i : Instance) (now : Int) : Bool :=
  h.deleted = false ∧ h.enabled = true ∧ h.status ≠ .paused ∧ h.instanceTrackingEnabled = true ∧
    i.enabled = true ∧ i.status ≠ .paused ∧ i.nextExpectedAt.all (· ≤ now) = true

/-- The alert service as a check meets it. -/
def Board.service (b : Board) (answer : Answer) : AlertService :=
  ⟨b.isOpen, fun _ => answer.result⟩

/-- A check of the heartbeat by `process_overdue_heartbeats`. -/
def checkHeartbeat (w : World) (answer : Answer) (now : Int) : World :=
  let h := w.monitor.heartbeat
  let keeps := h.status = .overdue ∧ h.currentAlertGroup.any w.board.isOpen = true
  if heartbeatDue h now then
    { monitor :=
        { w.monitor with heartbeat := processHeartbeat (w.board.service answer) now h }
      board :=
        if heartbeatIsOverdue h now = true ∧ ¬ keeps then w.board.upsert .heartbeat answer
        else w.board }
  else w

/-- The row of an instance after a check. -/
def processInstance (b : Board) (h : Heartbeat) (answer : Answer) (now : Int) (i : Instance) :
    Instance :=
  if heartbeatInstanceIsOverdue h i now then markHeartbeatInstanceOverdue b h answer now i
  else { i with nextExpectedAt := some (computeInstanceNextExpectedAt h i now) }

theorem processInstance_key (b : Board) (h : Heartbeat) (answer : Answer) (now : Int)
    (i : Instance) : (processInstance b h answer now i).key = i.key := by
  unfold processInstance
  split
  · unfold markHeartbeatInstanceOverdue
    split
    · rfl
    · dsimp only
      split <;> rfl
  · rfl

/-- A check of an instance by `process_overdue_heartbeats`. An exception leaves the
rollup as it was. -/
def checkInstance (w : World) (key : String) (answer : Answer) (now : Int) : World :=
  let h := w.monitor.heartbeat
  match w.monitor.getInstance key with
  | none => w
  | some i =>
    let keeps := i.status = .overdue ∧ i.currentAlertGroup.any w.board.isOpen = true
    let upserts := heartbeatInstanceIsOverdue h i now = true ∧ ¬ keeps
    if instanceDue h i now then
      let m := w.monitor.updateInstances (·.key == key) (processInstance w.board h answer now)
        (processInstance_key w.board h answer now)
      { monitor := if upserts ∧ answer = .failed then m else m.refreshRollup now
        board := if upserts then w.board.upsert (.instance key) answer else w.board }
    else w

/-- The instance has not been seen for the time an auto-discovered one is kept. -/
def instanceExpired (i : Instance) (cutoff : Int) : Bool :=
  i.enabled = true ∧ i.autoDiscovered = true ∧ i.currentAlertGroup = none ∧
    i.status ≠ .overdue ∧ (i.lastSeenAt.orElse fun _ => i.firstSeenAt).getD i.createdAt < cutoff

/-- `expire_auto_discovered_instances`. -/
def expireAutoDiscoveredInstances (m : Monitor) (now : Int) : Monitor :=
  let h := m.heartbeat
  match m.autoDiscoveryTtlDays with
  | none | some 0 => m
  | some ttlDays =>
    let cutoff := now - days ttlDays
    if h.enabled = false ∨ h.deleted = true ∨ h.instanceTrackingEnabled = false then m
    else if m.instances.any (instanceExpired · cutoff) then
      (m.updateInstances (instanceExpired · cutoff)
        (fun i => { i with enabled := false, status := .paused, updatedAt := now })
        fun _ => rfl).refreshRollup now
    else m

/-- `pause_heartbeat`. -/
def pauseHeartbeat (m : Monitor) (now : Int) : Monitor :=
  let h := m.heartbeat
  if h.status = .paused then m
  else
    let paused := { m with heartbeat := { h with status := .paused, updatedAt := now } }
    if h.instanceTrackingEnabled then
      paused.updateInstances (·.enabled) (fun i => { i with status := .paused, updatedAt := now })
        fun _ => rfl
    else paused

/-- The status a resume gives back. -/
def resumedStatus (lastSeenAt : Option Int) : Status :=
  if lastSeenAt.isSome then .ok else .new

/-- `resume_heartbeat`. -/
def resumeHeartbeat (m : Monitor) (now : Int) : Monitor :=
  let h := m.heartbeat
  if h.status ≠ .paused then m
  else if h.instanceTrackingEnabled then
    (m.updateInstances (·.enabled)
      (fun i =>
        { i with
          status := resumedStatus i.lastSeenAt
          nextExpectedAt := some (computeInstanceNextExpectedAt h i now)
          updatedAt := now })
      fun _ => rfl).refreshRollup now
  else
    { m with
      heartbeat :=
        { h with
          status := resumedStatus h.lastSeenAt
          nextExpectedAt := some (computeNextExpectedAt h now)
          updatedAt := now } }

/-! ## Runs -/

inductive Event where
  | ping (key : Option String) (now : Int)
  | check (answer : Answer) (now : Int)
  | checkInstance (key : String) (answer : Answer) (now : Int)
  | expire (now : Int)
  | pause (now : Int)
  | resume (now : Int)
  /-- The scheduler activates a paused event. -/
  | activate (owner : Owner) (group : Id)
  /-- An operator resolves a group. -/
  | resolve (group : Id)
  /-- Another source fires an alert of the group. -/
  | otherFires (n : Nat) (group : Id)
  deriving DecidableEq

def step (w : World) : Event → World
  | .ping key now =>
    match receiveHeartbeatPing w key now with
    | .ok w' => w'
    | .error _ => w
  | .check answer now => checkHeartbeat w answer now
  | .checkInstance key answer now => checkInstance w key answer now
  | .expire now => { w with monitor := expireAutoDiscoveredInstances w.monitor now }
  | .pause now => { w with monitor := pauseHeartbeat w.monitor now }
  | .resume now => { w with monitor := resumeHeartbeat w.monitor now }
  | .activate owner group => { w with board := w.board.activate owner group }
  | .resolve group => { w with board := w.board.resolve group }
  | .otherFires n group => { w with board := w.board.fire (.other n) group }

/-- The world after a run. -/
def run (w : World) (events : List Event) : World :=
  events.foldl step w

end IncidentRelay.Heartbeats
