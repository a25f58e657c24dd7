import IncidentRelay.Lib.IdTable
import IncidentRelay.Pending.Row
import IncidentRelay.Tenant

/-!
# Responder requests

A responder request asks a target to help with an incident. It is made, answered, and expired
by the scheduler. Each of the three operations reads the table first and writes later; what
was read stands in the operation until it is written, and other operations may write in
between.
-/

namespace IncidentRelay.Responders

/-! ## Rows -/

inductive ResponderStatus where
  | requested | accepted | declined | expired | resolved
  deriving DecidableEq

namespace ResponderStatus

def text : ResponderStatus → String
  | .requested => "requested"
  | .accepted => "accepted"
  | .declined => "declined"
  | .expired => "expired"
  | .resolved => "resolved"

/-- `RESPONDER_STATUS_TRANSITIONS` -/
def transitions : ResponderStatus → List ResponderStatus
  | .requested => [.accepted, .declined, .expired]
  | .accepted => [.resolved]
  | .declined => []
  | .expired => []
  | .resolved => []

/-- `VALID_RESPONDER_UPDATE_STATUSES` -/
def validUpdates : List ResponderStatus := [.accepted, .declined, .expired, .resolved]

/-- `OPEN_RESPONDER_STATUSES` -/
def openStatuses : List ResponderStatus := [.requested, .accepted]

end ResponderStatus

inductive TargetType where
  | user | team | rotation | escalationPolicy
  deriving DecidableEq

/-- The type of a target and the column that it fills. -/
structure Target where
  targetType : TargetType
  targetId : Id
  deriving DecidableEq

structure Responder where
  id : ℕ
  group : ℕ
  target : Target
  requestedBy : Option Id
  acceptedBy : Option Id
  declinedBy : Option Id
  status : ResponderStatus
  message : Option String
  responseMessage : Option String
  requestedAt : Instant
  respondedAt : Option Instant
  expiresAt : Option Instant
  createdAt : Instant
  updatedAt : Instant
  deriving DecidableEq

abbrev ResponderTable := IdTable Responder (·.id)

/-! ## Repository -/

/-- A row that `find_open_incident_responder` selects. -/
def Responder.openFor (group : ℕ) (target : Target) (r : Responder) : Bool :=
  r.group = group && r.target = target && r.status ∈ ResponderStatus.openStatuses

/-- `find_open_incident_responder` -/
def findOpenIncidentResponder (rows : List Responder) (group : ℕ) (target : Target) :
    Option Responder :=
  ((rows.filter (Responder.openFor group target)).insertionSort
    fun r r' => r'.createdAt ≤ r.createdAt).head?

/-- What a request asks for. -/
structure ResponderOrder where
  group : ℕ
  target : Target
  requestedBy : Option Id
  message : Option String
  expiresAfterMinutes : ℤ

/-- `create_incident_responder` of the repository. -/
def insertResponder (t : ResponderTable) (order : ResponderOrder) (now : Instant) : ResponderTable :=
  t.insert
    { id := t.next, group := order.group, target := order.target, requestedBy := order.requestedBy,
      acceptedBy := none, declinedBy := none, status := .requested, message := order.message,
      responseMessage := none, requestedAt := now, respondedAt := none,
      expiresAt := if order.expiresAfterMinutes = 0 then none
        else some (now + seconds (60 * order.expiresAfterMinutes)),
      createdAt := now, updatedAt := now } rfl

/-- What an answer changes. -/
structure StatusChange where
  responder : ℕ
  status : ResponderStatus
  user : Option Id
  responseMessage : Option String

/-- The row behind `update_incident_responder_status`. -/
def StatusChange.apply (change : StatusChange) (now : Instant) (r : Responder) : Responder :=
  { r with
    status := change.status
    responseMessage := change.responseMessage
    respondedAt := some now
    updatedAt := now
    acceptedBy := if change.status = .accepted then change.user else r.acceptedBy
    declinedBy := if change.status = .declined then change.user else r.declinedBy }

/-- `update_incident_responder_status`: the row is written whatever its status is. -/
def updateIncidentResponderStatus (t : ResponderTable) (change : StatusChange) (now : Instant) :
    ResponderTable :=
  t.update (fun r => r.id = change.responder) (change.apply now) fun _ => rfl

/-- The rows that `list_expired_requested_responders` and `expire_incident_responder` select. -/
def Responder.due (now : Instant) (r : Responder) : Bool :=
  r.status = .requested && r.expiresAt.any (· ≤ now)

/-- `expired_at.asc(), id.asc()` -/
def dueBefore (r r' : Responder) : Prop :=
  r.expiresAt.getD 0 < r'.expiresAt.getD 0 ∨ (r.expiresAt.getD 0 = r'.expiresAt.getD 0 ∧ r.id ≤ r'.id)

instance : DecidableRel dueBefore := fun r r' => inferInstanceAs
  (Decidable (r.expiresAt.getD 0 < r'.expiresAt.getD 0 ∨
    (r.expiresAt.getD 0 = r'.expiresAt.getD 0 ∧ r.id ≤ r'.id)))

/-- `list_expired_requested_responders` -/
def listExpiredRequestedResponders (t : ResponderTable) (now : Instant) (limit : ℕ) : List ℕ :=
  (((t.rows.filter (Responder.due now)).insertionSort dueBefore).take limit).map (·.id)

/-- `expire_incident_responder`: the row is written only where it is still due. -/
def expireIncidentResponder (t : ResponderTable) (id : ℕ) (now : Instant) : ResponderTable :=
  t.update (fun r => r.id = id && r.due now)
    (fun r => { r with
      status := .expired, responseMessage := some "Responder request expired",
      respondedAt := some now, updatedAt := now }) fun _ => rfl

/-! ## Operations -/

inductive ResponderError where
  | lookup (message : String)
  | value (message : String)
  | permission (message : String)
  deriving DecidableEq

/-- What the other tables say: which groups there are, what is wrong with a target, and who
may answer. -/
structure Directory where
  hasGroup : ℕ → Bool
  /-- The check of the target by its type. -/
  targetError : ℕ → Target → Option String
  /-- `_can_operate_incident_responders` or `_can_act_as_responder_target` -/
  mayUpdate : Option Id → ℕ → Responder → ResponderStatus → Bool

/-- `create_incident_responder` up to its insert. -/
def checkOrder (dir : Directory) (rows : List Responder) (order : ResponderOrder) :
    Except ResponderError Unit :=
  if !dir.hasGroup order.group then .error (.lookup "incident not found")
  else
    match dir.targetError order.group order.target with
    | some message => .error (.value message)
    | none =>
      if (findOpenIncidentResponder rows order.group order.target).isSome then
        .error (.value "active responder request already exists for this target")
      else .ok ()

/-- `_validate_responder_status_transition` -/
def validateResponderStatusTransition (current next : ResponderStatus) : Except ResponderError Unit :=
  if current = next then .ok ()
  else if next ∉ current.transitions then
    .error (.value ("cannot change responder status from " ++ current.text ++ " to " ++ next.text))
  else .ok ()

/-- `set_incident_responder_status` up to its write: the row that was read. -/
def checkChange (dir : Directory) (t : ResponderTable) (group : ℕ) (change : StatusChange) :
    Except ResponderError Responder :=
  if !dir.hasGroup group then .error (.lookup "incident not found")
  else if change.status ∉ ResponderStatus.validUpdates then
    .error (.value "status must be one of: accepted, declined, expired, resolved")
  else
    match (t.get change.responder).filter (·.group = group) with
    | none => .error (.lookup "responder not found in this incident")
    | some responder =>
      if !dir.mayUpdate change.user group responder change.status then
        .error (.permission ("Only incident responders or the requested responder target " ++
          "can update this responder request"))
      else (validateResponderStatusTransition responder.status change.status).map fun _ => responder

/-- An operation between its reads and its writes. -/
inductive Operation where
  /-- A request that was checked against these rows. -/
  | create (order : ResponderOrder) (checked : List Responder)
  /-- An answer to the row that was read. -/
  | setStatus (change : StatusChange) (read : Responder)
  /-- The rows that the scheduler still has to expire. -/
  | expire (due : List ℕ)

/-- The table and the operations under way. -/
structure Desk where
  responders : ResponderTable
  operations : List Operation

inductive Action where
  | beginCreate (order : ResponderOrder)
  | beginStatus (group : ℕ) (change : StatusChange)
  | beginExpiry (now : Instant) (limit : ℕ)
  /-- The next write of an operation. -/
  | proceed (index : ℕ) (now : Instant)

namespace Desk

variable (dir : Directory) (d : Desk)

def start (operation : Operation) : Desk := { d with operations := d.operations ++ [operation] }

/-- The write of the operation at the index. -/
def write (index : ℕ) (now : Instant) : Operation → Desk
  | .create order _ =>
    { responders := insertResponder d.responders order now, operations := d.operations.eraseIdx index }
  | .setStatus change _ =>
    { responders := updateIncidentResponderStatus d.responders change now
      operations := d.operations.eraseIdx index }
  | .expire [] => { d with operations := d.operations.eraseIdx index }
  | .expire (id :: due) =>
    { responders := expireIncidentResponder d.responders id now
      operations := d.operations.set index (.expire due) }

/-- An operation that is refused leaves nothing behind. -/
def next (action : Action) : Desk :=
  match action with
  | .beginCreate order =>
    match checkOrder dir d.responders.rows order with
    | .error _ => d
    | .ok () => d.start (.create order d.responders.rows)
  | .beginStatus group change =>
    match checkChange dir d.responders group change with
    | .error _ => d
    | .ok read => d.start (.setStatus change read)
  | .beginExpiry now limit =>
    d.start (.expire (listExpiredRequestedResponders d.responders now limit))
  | .proceed index now =>
    match d.operations[index]? with
    | none => d
    | some operation => d.write index now operation

end Desk

end IncidentRelay.Responders
