import IncidentRelay.Lib.Json
import IncidentRelay.Lib.Table
import Mathlib.Algebra.Order.Ring.Int
import Mathlib.Data.List.Sort

/-!
# Paused events: the row and its statements

`PendingOrchestratedEvent` is the row of a paused event. Every write to the
table is one guarded `UPDATE` or one `INSERT`; each is a function on the table
here, under the name of the source function it stands in, with its guard and
its assignment apart so that a proof can speak about either.

Instants count microseconds. A claim token stands for a fresh `uuid4`.
-/

namespace IncidentRelay

/-- A naive UTC datetime, in microseconds. -/
abbrev Instant := Int

/-- `timedelta(seconds=n)`. -/
def seconds (n : Int) : Int := n * 1000000

namespace Pending

inductive Status where
  | pending
  | activating
  | failed
  | activated
  | resolved
  | cancelled
  deriving DecidableEq, Repr

/-- `status not in TERMINAL_STATUSES`. -/
def Status.active : Status → Bool
  | .pending | .activating | .failed => true
  | .activated | .resolved | .cancelled => false

/-- `runtime.pause_retrigger`. -/
inductive Retrigger where
  | preserve
  | reset
  deriving DecidableEq, Repr

structure PendingOrchestratedEvent where
  id : Nat
  group : Nat
  orchestration : Nat
  version : Nat
  route : Option Nat
  service : Option Nat
  source : String
  integrationName : String
  dedupKey : String
  activeKey : Option String
  normalizedEventJson : Dict
  contextJson : Json
  activationAt : Instant
  status : Status
  attempts : Nat
  lastError : Option String
  claimToken : Option Nat
  claimedAt : Option Instant
  nextAttemptAt : Option Instant
  createdAt : Instant
  updatedAt : Instant
  resolvedAt : Option Instant
  activatedAt : Option Instant
  deriving DecidableEq, Repr

/-- The settings the workflow reads from `Config`. -/
structure Settings where
  /-- `ORCHESTRATION_PENDING_CLAIM_TTL_SECONDS` -/
  claimTtlSeconds : Nat := 300
  /-- `ORCHESTRATION_PENDING_MAX_ATTEMPTS` -/
  maxAttempts : Nat := 5
  /-- `ORCHESTRATION_PENDING_RETRY_BASE_SECONDS` -/
  retryBaseSeconds : Nat := 30

/-- The text that `pending_active_key` hashes. -/
def activeKeyMaterial (groupId : Nat) (source dedupKey : String) : String :=
  toString groupId ++ "\x1f" ++ source ++ "\x1f" ++ dedupKey

/-- `pending_active_key`, over the digest it uses. -/
def pendingActiveKey (sha256 : String → String) (groupId : Nat) (source dedupKey : String) :
    String :=
  sha256 (activeKeyMaterial groupId source dedupKey)

/-- The keys `_terminal_event_snapshot` keeps. -/
def terminalSnapshotKeys : List String :=
  ["source", "external_id", "dedup_key", "group_key", "title", "severity", "status", "labels"]

/-- `_terminal_event_snapshot`. -/
def terminalEventSnapshot (event : Dict) : Dict :=
  terminalSnapshotKeys.filterMap fun key => (event.get key).map (key, ·)

/-! ## `store_paused_event` -/

/-- The arguments of `store_paused_event`, as read off the runtime result, the
alert data and the route. -/
structure PauseArguments where
  runtimeGroupId : Option Nat
  routeGroupId : Option Nat
  source : String
  dedupKey : String
  pauseSeconds : Option Int
  retrigger : Retrigger
  provenance : Option (Nat × Nat)
  route : Option Nat
  service : Option Nat
  integrationName : String
  storedEvent : Dict
  /-- `_runtime_context(runtime, previous)` as a function of `previous` -/
  runtimeContext : Json → Json

/-- A call of `store_paused_event` whose arguments passed its checks. -/
structure PauseRequest where
  now : Instant
  groupId : Nat
  source : String
  dedupKey : String
  seconds : Nat
  retrigger : Retrigger
  orchestration : Nat
  version : Nat
  route : Option Nat
  service : Option Nat
  integrationName : String
  storedEvent : Dict
  runtimeContext : Json → Json
  source_ne : source ≠ ""
  dedupKey_ne : dedupKey ≠ ""
  seconds_pos : 0 < seconds

/-- The checks at the head of `store_paused_event`. -/
def PauseArguments.check (a : PauseArguments) (now : Instant) : Except String PauseRequest :=
  match a.runtimeGroupId <|> a.routeGroupId with
  | none => .error "paused event requires a group"
  | some groupId =>
    if hkeys : a.source ≠ "" ∧ a.dedupKey ≠ "" then
      let seconds := (a.pauseSeconds.getD 0).toNat
      if hpos : 0 < seconds then
        match a.provenance with
        | none => .error "pause disposition is missing orchestration provenance"
        | some (orchestration, version) =>
          .ok { now, groupId, source := a.source, dedupKey := a.dedupKey, seconds,
                retrigger := a.retrigger, orchestration, version, route := a.route,
                service := a.service, integrationName := a.integrationName,
                storedEvent := a.storedEvent, runtimeContext := a.runtimeContext,
                source_ne := hkeys.1, dedupKey_ne := hkeys.2, seconds_pos := hpos }
      else .error "paused event requires a positive pause duration"
    else .error "paused event requires source and dedup_key"

/-- `requested_activation_at`. -/
def PauseRequest.requestedActivationAt (r : PauseRequest) : Instant :=
  r.now + IncidentRelay.seconds r.seconds

def PauseRequest.key (sha256 : String → String) (r : PauseRequest) : String :=
  pendingActiveKey sha256 r.groupId r.source r.dedupKey

/-- The row `PendingOrchestratedEvent.create` inserts. -/
def PauseRequest.newRow (sha256 : String → String) (r : PauseRequest) (id : Nat) :
    PendingOrchestratedEvent where
  id
  group := r.groupId
  orchestration := r.orchestration
  version := r.version
  route := r.route
  service := r.service
  source := r.source
  integrationName := r.integrationName
  dedupKey := r.dedupKey
  activeKey := some (r.key sha256)
  normalizedEventJson := r.storedEvent
  contextJson := r.runtimeContext (.obj [])
  activationAt := r.requestedActivationAt
  status := .pending
  attempts := 0
  lastError := none
  claimToken := none
  claimedAt := none
  nextAttemptAt := none
  createdAt := r.now
  updatedAt := r.now
  resolvedAt := none
  activatedAt := none

/-- The columns both refreshing statements assign. -/
def PauseRequest.refreshPayload (r : PauseRequest) (current row : PendingOrchestratedEvent) :
    PendingOrchestratedEvent :=
  { row with
    orchestration := r.orchestration
    version := r.version
    route := r.route
    service := r.service
    integrationName := r.integrationName
    normalizedEventJson := r.storedEvent
    contextJson := r.runtimeContext current.contextJson
    updatedAt := r.now }

/-- The `activation_at` the refreshing statement stores: what the read saw,
unless the pause asks for a reset. -/
def PauseRequest.refreshedActivationAt (r : PauseRequest) (current : PendingOrchestratedEvent) :
    Instant :=
  match r.retrigger with
  | .reset => r.requestedActivationAt
  | .preserve => current.activationAt

/-- The guard of the refreshing statement, by the status the read saw. -/
def PauseRequest.refreshGuard (sha256 : String → String) (r : PauseRequest)
    (current row : PendingOrchestratedEvent) : Bool :=
  row.id = current.id ∧ row.activeKey = some (r.key sha256) ∧
    if current.status = .activating then
      row.status = .activating ∧ row.claimToken = current.claimToken
    else row.status = .pending ∨ row.status = .failed

/-- What the refreshing statement writes. A live claim keeps its row's status,
claim and due time; otherwise the pause starts over. -/
def PauseRequest.refresh (r : PauseRequest) (current row : PendingOrchestratedEvent) :
    PendingOrchestratedEvent :=
  if current.status = .activating then r.refreshPayload current row
  else
    { r.refreshPayload current row with
      activationAt := r.refreshedActivationAt current
      status := .pending
      attempts := 0
      lastError := none
      claimToken := none
      claimedAt := none
      nextAttemptAt := none
      resolvedAt := none
      activatedAt := none }

/-! ## `resolve_pending_event` -/

def resolveGuard (key : String) (current row : PendingOrchestratedEvent) : Bool :=
  row.id = current.id ∧ row.activeKey = some key ∧ row.status.active

def resolveRow (now : Instant) (current row : PendingOrchestratedEvent) :
    PendingOrchestratedEvent :=
  { row with
    status := .resolved
    activeKey := none
    resolvedAt := some now
    updatedAt := now
    claimToken := none
    claimedAt := none
    nextAttemptAt := none
    normalizedEventJson := terminalEventSnapshot current.normalizedEventJson }

/-! ## `process_due_pending_events` -/

/-- `_requeue_stale_claims`. -/
def staleGuard (cfg : Settings) (now : Instant) (row : PendingOrchestratedEvent) : Bool :=
  row.status = .activating ∧ row.claimedAt.any (· ≤ now - seconds cfg.claimTtlSeconds)

def requeueRow (now : Instant) (row : PendingOrchestratedEvent) : PendingOrchestratedEvent :=
  { row with status := .pending, claimToken := none, claimedAt := none, updatedAt := now }

/-- The condition of the due list. -/
def isDue (now : Instant) (row : PendingOrchestratedEvent) : Bool :=
  row.status = .pending ∧ row.activationAt ≤ now ∧ row.nextAttemptAt.all (· ≤ now)

/-- The due ids, oldest due time first. -/
def dueIds (limit : Nat) (now : Instant) (rows : List PendingOrchestratedEvent) : List Nat :=
  (((rows.filter (isDue now)).insertionSort fun a b =>
    a.activationAt < b.activationAt ∨ (a.activationAt = b.activationAt ∧ a.id ≤ b.id)).take
      limit).map (·.id)

/-- `_claim_one`: the guard names the row and its status, nothing else. -/
def claimGuard (rowId : Nat) (row : PendingOrchestratedEvent) : Bool :=
  row.id = rowId ∧ row.status = .pending

def claimRow (token : Nat) (now : Instant) (row : PendingOrchestratedEvent) :
    PendingOrchestratedEvent :=
  { row with status := .activating, claimToken := some token, claimedAt := some now,
             updatedAt := now }

/-- The guard of the locking, the finishing and the failing statement: the row
still carries the claim the worker took. -/
def heldGuard (claimed row : PendingOrchestratedEvent) : Bool :=
  row.id = claimed.id ∧ row.status = .activating ∧ row.claimToken = claimed.claimToken

/-- The finishing statement of `_activate_claimed`; `alertData` is the stored
event as the upsert left it. -/
def activatedRow (now : Instant) (alertData : Dict) (row : PendingOrchestratedEvent) :
    PendingOrchestratedEvent :=
  { row with
    status := .activated
    activeKey := none
    activatedAt := some now
    normalizedEventJson := terminalEventSnapshot alertData
    claimToken := none
    claimedAt := none
    nextAttemptAt := none
    lastError := none
    updatedAt := now }

/-- `_mark_activation_failed`. -/
def failedRow (cfg : Settings) (now : Instant) (error : String)
    (claimed row : PendingOrchestratedEvent) : PendingOrchestratedEvent :=
  let attempts := claimed.attempts + 1
  let exhausted := cfg.maxAttempts ≤ attempts
  { row with
    status := if exhausted then .failed else .pending
    attempts := attempts
    lastError := some error
    claimToken := none
    claimedAt := none
    nextAttemptAt :=
      if exhausted then none
      else some (now + seconds (min (cfg.retryBaseSeconds * 2 ^ (attempts - 1)) 3600))
    updatedAt := now }

/-! ## Operator steps -/

/-- `retry_failed_pending_event`. -/
def retryGuard (rowId : Nat) (row : PendingOrchestratedEvent) : Bool :=
  row.id = rowId ∧ row.status = .failed

def retryRow (now : Instant) (row : PendingOrchestratedEvent) : PendingOrchestratedEvent :=
  { row with
    status := .pending
    attempts := 0
    lastError := none
    claimToken := none
    claimedAt := none
    nextAttemptAt := some now
    activationAt := now
    updatedAt := now }

/-- The scope of `cancel_pending_orchestration_work`. -/
structure CancelScope where
  groupId : Option Nat := none
  serviceId : Option Nat := none
  routeId : Option Nat := none
  orchestrationIds : List Nat := []

/-- The union of the scopes that were given. -/
def CancelScope.covers (c : CancelScope) (row : PendingOrchestratedEvent) : Bool :=
  (c.groupId.any (· = row.group)) || (c.serviceId.isSome && row.service = c.serviceId) ||
    (c.routeId.isSome && row.route = c.routeId) || c.orchestrationIds.contains row.orchestration

def cancelGuard (c : CancelScope) (row : PendingOrchestratedEvent) : Bool :=
  row.status.active && c.covers row

def cancelledRow (now : Instant) (reason : String) (row : PendingOrchestratedEvent) :
    PendingOrchestratedEvent :=
  { row with
    status := .cancelled
    activeKey := none
    lastError := some reason
    claimToken := none
    claimedAt := none
    nextAttemptAt := none
    resolvedAt := some now
    updatedAt := now }

end Pending

end IncidentRelay
