import IncidentRelay.Lib.Run
import IncidentRelay.Pending.Row

/-!
# Paused events: workers and requests interleaved

The world holds the table, one clock that every process reads, and the local
state of each process: a scheduler worker inside `process_due_pending_events`
or an intake request inside `store_paused_event` or `resolve_pending_event`. A
step is one database statement of one process; the activation, which the source
wraps in one transaction that starts with the locking statement, is one step
that commits or rolls back. So a run is any interleaving of any number of
workers and requests at the grain of statements.

Two things are recorded that the code does not store. The log has an entry for
every row that became terminal. A worker remembers, for each row of its due
list and for the row it holds, whether a pause moved the due time later after
the list was read.
-/

namespace IncidentRelay.Pending

/-- How a row became terminal. -/
inductive Ending where
  /-- A committed activation: its instant, the `activation_at` of the row when
  the claim was taken, and whether the pause was extended after the worker read
  its due list. -/
  | activated (at_ claimedActivationAt : Instant) (extended : Bool)
  | resolved
  | cancelled
  deriving DecidableEq, Repr

structure LogEntry where
  rowId : Nat
  ending : Ending
  deriving DecidableEq, Repr

/-- A row of a due list, and whether its pause was extended since the read. -/
structure DueRow where
  rowId : Nat
  extended : Bool
  deriving DecidableEq, Repr

/-- The point a worker has reached in `process_due_pending_events`. -/
inductive Worker where
  | idle
  /-- Stale claims are requeued. -/
  | requeued (now : Instant)
  /-- The due list is read; its head is claimed next. -/
  | scanning (now : Instant) (due : List DueRow)
  /-- The claim is committed and not read back yet. -/
  | claiming (now : Instant) (due : List DueRow) (rowId token : Nat)
      (activationAt : Instant) (extended : Bool)
  /-- The claimed row is in hand. -/
  | claimed (now : Instant) (due : List DueRow) (row : PendingOrchestratedEvent)
      (activationAt : Instant) (extended : Bool)
  /-- The activation raised and was rolled back. -/
  | failing (now : Instant) (due : List DueRow) (row : PendingOrchestratedEvent) (error : String)

/-- The rows a worker has listed and not claimed yet. -/
def Worker.due : Worker → List DueRow
  | .idle | .requeued _ => []
  | .scanning _ due | .claiming _ due .. | .claimed _ due .. | .failing _ due .. => due

/-- Marks a row of the due list whose pause was extended. -/
def markDue (rowId : Nat) (due : List DueRow) : List DueRow :=
  due.map fun d => if d.rowId = rowId then { d with extended := true } else d

/-- Marks the row wherever the tick of a worker still holds it. -/
def Worker.markExtended (rowId : Nat) : Worker → Worker
  | .scanning now due => .scanning now (markDue rowId due)
  | .claiming now due id token a e =>
    .claiming now (markDue rowId due) id token a (e || id == rowId)
  | .claimed now due row a e => .claimed now (markDue rowId due) row a (e || row.id == rowId)
  | .failing now due row error => .failing now (markDue rowId due) row error
  | w => w

/-- The point a request has reached. -/
inductive Request where
  | idle
  /-- `store_paused_event` is about to read the active row. -/
  | pausing (req : PauseRequest) (attempt : Nat)
  | pauseRead (req : PauseRequest) (attempt : Nat) (current : Option PendingOrchestratedEvent)
  /-- `resolve_pending_event` is about to read the active row. -/
  | resolving (key : String) (now : Instant)
  | resolveRead (key : String) (now : Instant) (current : PendingOrchestratedEvent)

structure World where
  clock : Instant
  rows : List PendingOrchestratedEvent
  nextId : Nat
  nextToken : Nat
  worker : Nat → Worker
  request : Nat → Request
  log : List LogEntry

/-- The world before the first request. -/
def World.init (clock : Instant) : World where
  clock
  rows := []
  nextId := 1
  nextToken := 1
  worker := fun _ => .idle
  request := fun _ => .idle
  log := []

namespace World

/-- The row that carries an active key. -/
def findActive (s : World) (key : String) : Option PendingOrchestratedEvent :=
  s.rows.find? fun r => r.activeKey = some key

def setWorker (s : World) (w : Nat) (state : Worker) : World :=
  { s with worker := Function.update s.worker w state }

def setRequest (s : World) (q : Nat) (state : Request) : World :=
  { s with request := Function.update s.request q state }

/-- A guarded update of the table. -/
def updateRows (s : World) (guard : PendingOrchestratedEvent → Bool)
    (set : PendingOrchestratedEvent → PendingOrchestratedEvent) : World :=
  { s with rows := Table.update guard set s.rows }

/-- A guarded update that makes the rows it selects terminal. -/
def finishRows (s : World) (guard : PendingOrchestratedEvent → Bool)
    (set : PendingOrchestratedEvent → PendingOrchestratedEvent) (ending : Ending) : World :=
  { s.updateRows guard set with
    log := s.log ++ (s.rows.filter guard).map fun r => ⟨r.id, ending⟩ }

/-- The rows the refreshing statement of a request selects and moves later. -/
def extends_ (s : World) (sha256 : String → String) (req : PauseRequest)
    (current : PendingOrchestratedEvent) : Bool :=
  s.rows.any fun r => req.refreshGuard sha256 current r ∧
    r.activationAt < (req.refresh current r).activationAt

/-- The writing statement of `store_paused_event`. An insert that finds the key
taken and an update that selects no row send the loop to its next attempt; the
fourth failure raises. -/
def writePause (sha256 : String → String) (s : World) (q : Nat) (req : PauseRequest)
    (attempt : Nat) (current : Option PendingOrchestratedEvent) : World :=
  let again := s.setRequest q (if attempt + 1 < 4 then .pausing req (attempt + 1) else .idle)
  match current with
  | none =>
    if (s.findActive (req.key sha256)).isSome then again
    else
      { s.setRequest q .idle with
        rows := s.rows ++ [req.newRow sha256 s.nextId]
        nextId := s.nextId + 1 }
  | some current =>
    if Table.affected (req.refreshGuard sha256 current) s.rows = 1 then
      { (s.updateRows (req.refreshGuard sha256 current) (req.refresh current)).setRequest q .idle
        with worker :=
          if s.extends_ sha256 req current then
            fun w => (s.worker w).markExtended current.id
          else s.worker }
    else again

/-- `_claim_one` up to the read of the claimed row. -/
def claim (s : World) (w : Nat) (now : Instant) (d : DueRow) (rest : List DueRow) : World :=
  match s.rows.find? (claimGuard d.rowId) with
  | some row =>
    { (s.updateRows (claimGuard d.rowId) (claimRow s.nextToken now)).setWorker w
        (.claiming now rest d.rowId s.nextToken row.activationAt d.extended)
      with nextToken := s.nextToken + 1 }
  | none => { s.setWorker w (.scanning now rest) with nextToken := s.nextToken + 1 }

end World

/-- What happens in a step. -/
inductive Label where
  | advance (clock : Instant)
  | requeueStale (w : Nat)
  | listDue (w limit : Nat)
  | claim (w : Nat)
  | getClaimed (w : Nat)
  | activate (w : Nat)
  | activationRaises (w : Nat)
  | markFailed (w : Nat)
  | endTick (w : Nat)
  | beginPause (q : Nat)
  | readPause (q : Nat)
  | writePause (q : Nat)
  | beginResolve (q : Nat)
  | readResolve (q : Nat)
  | writeResolve (q : Nat)
  | retryFailed (rowId : Nat)
  | cancel (scope : CancelScope)

open World in
/-- One statement of one process. -/
inductive Step (cfg : Settings) (sha256 : String → String) : World → Label → World → Prop where
  | advance {s t} (h : s.clock ≤ t) : Step cfg sha256 s (.advance t) { s with clock := t }
  | requeueStale {s w} (h : s.worker w = .idle) :
      Step cfg sha256 s (.requeueStale w)
        ((s.updateRows (staleGuard cfg s.clock) (requeueRow s.clock)).setWorker w
          (.requeued s.clock))
  | listDue {s w now} (limit : Nat) (h : s.worker w = .requeued now) :
      Step cfg sha256 s (.listDue w limit)
        (s.setWorker w (.scanning now ((dueIds limit now s.rows).map fun id => ⟨id, false⟩)))
  | claim {s w now d rest} (h : s.worker w = .scanning now (d :: rest)) :
      Step cfg sha256 s (.claim w) (s.claim w now d rest)
  | getClaimed {s w now due rowId token a e row}
      (h : s.worker w = .claiming now due rowId token a e)
      (hrow : s.rows.find? (fun r => r.id = rowId ∧ r.claimToken = some token) = some row) :
      Step cfg sha256 s (.getClaimed w) (s.setWorker w (.claimed now due row a e))
  /-- The row lost its claim before it was read back: `DoesNotExist` ends the tick. -/
  | claimGone {s w now due rowId token a e}
      (h : s.worker w = .claiming now due rowId token a e)
      (hrow : s.rows.find? (fun r => r.id = rowId ∧ r.claimToken = some token) = none) :
      Step cfg sha256 s (.getClaimed w) (s.setWorker w .idle)
  /-- The transaction of `_activate_claimed` commits. -/
  | activate {s w now due row a e} (alertData : Dict)
      (h : s.worker w = .claimed now due row a e)
      (hheld : Table.affected (heldGuard row) s.rows = 1) :
      Step cfg sha256 s (.activate w)
        ((s.finishRows (heldGuard row) (activatedRow s.clock alertData)
          (.activated s.clock a e)).setWorker w (.scanning now due))
  /-- The locking statement selects no row: the activation returns `None`. -/
  | claimLost {s w now due row a e} (h : s.worker w = .claimed now due row a e)
      (hheld : Table.affected (heldGuard row) s.rows ≠ 1) :
      Step cfg sha256 s (.activate w) (s.setWorker w (.scanning now due))
  /-- The upsert raises, or it ends without an alert and the caller raises; the
  transaction rolls back whatever it wrote. -/
  | activationRaises {s w now due row a e} (error : String)
      (h : s.worker w = .claimed now due row a e) :
      Step cfg sha256 s (.activationRaises w) (s.setWorker w (.failing now due row error))
  | markFailed {s w now due row error} (h : s.worker w = .failing now due row error) :
      Step cfg sha256 s (.markFailed w)
        ((s.updateRows (heldGuard row) (failedRow cfg s.clock error row)).setWorker w
          (.scanning now due))
  | endTick {s w now} (h : s.worker w = .scanning now []) :
      Step cfg sha256 s (.endTick w) (s.setWorker w .idle)
  | beginPause {s q req} (args : PauseArguments) (h : s.request q = .idle)
      (hok : args.check s.clock = .ok req) :
      Step cfg sha256 s (.beginPause q) (s.setRequest q (.pausing req 0))
  | readPause {s q req attempt} (h : s.request q = .pausing req attempt) :
      Step cfg sha256 s (.readPause q)
        (s.setRequest q (.pauseRead req attempt (s.findActive (req.key sha256))))
  | writePause {s q req attempt current} (h : s.request q = .pauseRead req attempt current) :
      Step cfg sha256 s (.writePause q) (s.writePause sha256 q req attempt current)
  | beginResolve {s q} (groupId : Nat) (source dedupKey : String) (h : s.request q = .idle) :
      Step cfg sha256 s (.beginResolve q)
        (s.setRequest q (.resolving (pendingActiveKey sha256 groupId source dedupKey) s.clock))
  | readResolve {s q key now} (h : s.request q = .resolving key now) :
      Step cfg sha256 s (.readResolve q)
        (s.setRequest q (match s.findActive key with
          | none => .idle
          | some current => .resolveRead key now current))
  | writeResolve {s q key now current} (h : s.request q = .resolveRead key now current) :
      Step cfg sha256 s (.writeResolve q)
        ((s.finishRows (resolveGuard key current) (resolveRow now current) .resolved).setRequest q
          .idle)
  | retryFailed {s} (rowId : Nat) :
      Step cfg sha256 s (.retryFailed rowId) (s.updateRows (retryGuard rowId) (retryRow s.clock))
  | cancel {s} (scope : CancelScope) (reason : String) :
      Step cfg sha256 s (.cancel scope)
        (s.finishRows (cancelGuard scope) (cancelledRow s.clock reason) .cancelled)

/-- Reached from the empty table by some interleaving. -/
def Reachable (cfg : Settings) (sha256 : String → String) (s : World) : Prop :=
  ∃ clock labels, Run (Step cfg sha256) (.init clock) labels s

end IncidentRelay.Pending
