import IncidentRelay.Lib.IdTable
import Mathlib.Algebra.Group.Nat.Defs
import Mathlib.Data.List.Sort
import Mathlib.Logic.Function.Basic

/-!
# The workers of the webhook queue

`process_due_webhooks` as its database statements: stale claims are requeued, the due rows
selected, and for each the row is read, the two counts of `_group_capacity` taken, the claim
written with a fresh token, the claimed row read back, the claim looked at once more, the
action looked up, the request sent, and its result written. Several workers run at once, and
any of them may stop for good between two statements (`Label.crash`); work is cancelled,
queued and put back by an operator meanwhile.

The history of what was sent, what was closed and what an operator put back is kept beside
the tables. Nothing reads it.
-/

namespace IncidentRelay.Orchestration.Worker

/-! ## Rows -/

inductive ExecutionStatus where
  | pending
  | running
  | succeeded
  | failed
  | cancelled
  deriving DecidableEq, Repr

/-- An `AutomationExecution`. `retryCount` is the one of `request_metadata_json`, which the
queue writes for every row. -/
structure Execution where
  id : ℕ
  group : ℕ
  action : ℕ
  retryCount : ℕ
  createdAt : ℕ
  status : ExecutionStatus
  attempts : ℕ
  claimToken : Option ℕ
  claimedAt : Option ℕ
  startedAt : Option ℕ
  nextAttemptAt : Option ℕ
  finishedAt : Option ℕ
  deriving DecidableEq, Repr

abbrev Executions := IdTable Execution (·.id)

/-- The `ORCHESTRATION_WEBHOOK_…` settings, times in seconds. -/
structure Config where
  claimTtl : ℕ
  perGroupConcurrency : ℤ
  perGroupRate : ℤ
  retryBase : ℕ

/-- What a worker has in its hands after the claim: the columns of the row that it reads
later. -/
structure Claim where
  id : ℕ
  token : ℕ
  attempts : ℕ
  retryCount : ℕ
  action : ℕ
  deriving DecidableEq, Repr

/-! ## Statements -/

namespace Execution

def stale (c : Config) (now : ℕ) (e : Execution) : Bool :=
  e.status = .running && e.claimedAt.any (· + c.claimTtl ≤ now)

def due (now : ℕ) (e : Execution) : Bool :=
  e.status = .pending && e.nextAttemptAt.all (· ≤ now)

/-- The claim of a worker still stands. -/
def ownedBy (claim : Claim) (e : Execution) : Bool :=
  e.id = claim.id && e.status = .running && e.claimToken = some claim.token

def requeued (now : ℕ) (e : Execution) : Execution :=
  { e with status := .pending, claimToken := none, claimedAt := none, nextAttemptAt := some now }

def claimed (now token : ℕ) (e : Execution) : Execution :=
  { e with
    status := .running
    claimToken := some token
    claimedAt := some now
    startedAt := some now
    attempts := e.attempts + 1 }

def succeeded (now : ℕ) (e : Execution) : Execution :=
  { e with
    status := .succeeded
    claimToken := none
    claimedAt := none
    nextAttemptAt := none
    finishedAt := some now }

/-- The delay before the next attempt. -/
def backoff (c : Config) (attempts : ℕ) : ℕ := min (c.retryBase * 2 ^ (attempts - 1)) 3600

/-- `_mark_failed`, from the attempts that the worker has read. -/
def failed (c : Config) (now : ℕ) (claim : Claim) (retryable : Bool) (e : Execution) : Execution :=
  if retryable && claim.attempts < 1 + claim.retryCount then
    { e with
      status := .pending
      claimToken := none
      claimedAt := none
      nextAttemptAt := some (now + backoff c claim.attempts)
      finishedAt := none }
  else
    { e with
      status := .failed
      claimToken := none
      claimedAt := none
      nextAttemptAt := none
      finishedAt := some now }

def cancelled (now : ℕ) (e : Execution) : Execution :=
  { e with
    status := .cancelled
    claimToken := none
    claimedAt := none
    nextAttemptAt := none
    finishedAt := some now }

/-- The update for a disabled action leaves `next_attempt_at` alone. -/
def disabled (now : ℕ) (e : Execution) : Execution :=
  { e with status := .cancelled, claimToken := none, claimedAt := none, finishedAt := some now }

/-- `retry_failed_webhook` -/
def retried (now : ℕ) (e : Execution) : Execution :=
  { e with
    status := .pending
    attempts := 0
    nextAttemptAt := some now
    claimToken := none
    claimedAt := none
    startedAt := none
    finishedAt := none }

end Execution

open Execution (stale due ownedBy requeued claimed succeeded failed cancelled disabled retried)

/-- `ORDER BY created_at, id` -/
def Older (e f : Execution) : Prop :=
  e.createdAt < f.createdAt ∨ e.createdAt = f.createdAt ∧ e.id ≤ f.id

instance : DecidableRel Older := fun e f =>
  inferInstanceAs (Decidable (e.createdAt < f.createdAt ∨ e.createdAt = f.createdAt ∧ e.id ≤ f.id))

def selectDue (now limit : ℕ) (rows : Executions) : List ℕ :=
  (((rows.rows.filter (due now)).insertionSort Older).map (·.id)).take limit

/-- The rows of a group in status running. -/
def running (group : ℕ) (rows : Executions) : ℕ :=
  rows.rows.countP fun e => e.group = group && e.status = .running

/-- The first test of `_group_capacity`. -/
def roomLeft (c : Config) (group : ℕ) (rows : Executions) : Bool :=
  !(0 < c.perGroupConcurrency && c.perGroupConcurrency ≤ running group rows)

def startedSince (group since : ℕ) (rows : Executions) : ℕ :=
  rows.rows.countP fun e => e.group = group && e.startedAt.any (since ≤ ·)

/-- The second test of `_group_capacity`. -/
def rateLeft (c : Config) (group now : ℕ) (rows : Executions) : Bool :=
  c.perGroupRate ≤ 0 || (startedSince group (now - 60) rows : ℤ) < c.perGroupRate

/-! ## Workers -/

/-- What came of a request: an answer of the 2xx kind, another answer or a failure after the
request was sent, or a failure before that. -/
inductive Delivery where
  | succeeded
  | rejected (retryable : Bool)
  | refused (retryable : Bool)
  deriving DecidableEq, Repr

def Delivery.sent : Delivery → Bool
  | .refused _ => false
  | _ => true

/-- Where a worker stands in `process_due_webhooks`: the statement it runs next. `now` is the
time it took at the start, `rest` the candidates it has still to look at. -/
inductive Phase where
  | idle
  | selecting (now limit : ℕ)
  | looping (now : ℕ) (rest : List ℕ)
  | counting (now : ℕ) (rest : List ℕ) (id group : ℕ)
  | rating (now : ℕ) (rest : List ℕ) (id group : ℕ)
  | claiming (now : ℕ) (rest : List ℕ) (id group : ℕ)
  | reading (now : ℕ) (rest : List ℕ) (id token : ℕ)
  | holding (now : ℕ) (rest : List ℕ) (claim : Claim)
  | checked (now : ℕ) (rest : List ℕ) (claim : Claim)
  | disabling (now : ℕ) (rest : List ℕ) (claim : Claim)
  | sending (now : ℕ) (rest : List ℕ) (claim : Claim)
  | marking (now : ℕ) (rest : List ℕ) (claim : Claim) (delivery : Delivery)
  deriving DecidableEq, Repr

inductive Event where
  | sent (id token : ℕ)
  /-- cancelled, or recorded as succeeded -/
  | closed (id : ℕ)
  /-- put back by an operator -/
  | retried (id : ℕ)
  deriving DecidableEq, Repr

structure System where
  rows : Executions
  /-- the actions that are enabled and not deleted -/
  enabled : ℕ → Bool
  phase : ℕ → Phase
  /-- the tokens from here on are unused -/
  nextToken : ℕ
  /-- newest first -/
  history : List Event

namespace System

def goto (s : System) (w : ℕ) (p : Phase) : System := { s with phase := Function.update s.phase w p }

/-- An update of the rows that closes the ones it selects. -/
def close (s : System) (guard : Execution → Bool) (set : Execution → Execution)
    (hset : ∀ e, (set e).id = e.id) : System :=
  { s with
    rows := s.rows.update guard set hset
    history := (s.rows.rows.filter guard).map (Event.closed ·.id) ++ s.history }

theorem id_failed (c : Config) (now : ℕ) (claim : Claim) (retryable : Bool) (e : Execution) :
    (failed c now claim retryable e).id = e.id := by
  unfold failed
  split <;> rfl

def markFailed (s : System) (c : Config) (now : ℕ) (claim : Claim) (retryable : Bool) : System :=
  { s with
    rows := s.rows.update (ownedBy claim) (failed c now claim retryable) (id_failed c now claim retryable) }

def mark (s : System) (c : Config) (now : ℕ) (claim : Claim) : Delivery → System
  | .succeeded => s.close (ownedBy claim) (succeeded now) fun _ => rfl
  | .rejected retryable => s.markFailed c now claim retryable
  | .refused retryable => s.markFailed c now claim retryable

/-- The claim of a row: `UPDATE … WHERE id = … AND status = 'pending' AND …`. -/
def claim (s : System) (now id : ℕ) : System :=
  { s with
    rows := s.rows.update (fun e => e.id = id && due now e) (claimed now s.nextToken) fun _ => rfl
    nextToken := s.nextToken + 1 }

def send (s : System) (claim : Claim) : System :=
  { s with history := .sent claim.id claim.token :: s.history }

/-- The next statement of a worker, at a time, with what a request would come to. -/
def work (c : Config) (s : System) (w now : ℕ) (delivery : Delivery) : System :=
  match s.phase w with
  | .idle => s
  | .selecting start limit => s.goto w (.looping start (selectDue start limit s.rows))
  | .looping _ [] => s.goto w .idle
  | .looping start (id :: rest) =>
    match s.rows.get id with
    | none => s.goto w (.looping start rest)
    | some e => s.goto w (.counting start rest id e.group)
  | .counting start rest id group =>
    if roomLeft c group s.rows then s.goto w (.rating start rest id group)
    else s.goto w (.looping start rest)
  | .rating start rest id group =>
    if rateLeft c group start s.rows then s.goto w (.claiming start rest id group)
    else s.goto w (.looping start rest)
  | .claiming start rest id _ =>
    if Table.affected (fun e => e.id = id && due start e) s.rows.rows = 1 then
      (s.claim start id).goto w (.reading start rest id s.nextToken)
    else s.goto w (.looping start rest)
  | .reading start rest id token =>
    -- the claimed row is gone: the exception ends the run of the worker
    match (s.rows.get id).filter (·.claimToken = some token) with
    | none => s.goto w .idle
    | some e => s.goto w (.holding start rest ⟨id, token, e.attempts, e.retryCount, e.action⟩)
  | .holding start rest claim =>
    if s.rows.rows.any (ownedBy claim) then s.goto w (.checked start rest claim)
    else s.goto w (.looping start rest)
  | .checked start rest claim =>
    if s.enabled claim.action then s.goto w (.sending start rest claim)
    else s.goto w (.disabling start rest claim)
  | .disabling start rest claim =>
    (s.close (fun e => e.id = claim.id && e.claimToken = some claim.token) (disabled now)
      fun _ => rfl).goto w (.looping start rest)
  | .sending start rest claim =>
    (if delivery.sent then s.send claim else s).goto w (.marking start rest claim delivery)
  | .marking start rest claim delivery => (s.mark c now claim delivery).goto w (.looping start rest)

end System

/-! ## Everything that happens -/

inductive Label where
  /-- an idle worker starts: `_requeue_stale_claims` -/
  | start (w now limit : ℕ)
  | work (w now : ℕ) (delivery : Delivery)
  | crash (w : ℕ)
  /-- `cancel_pending_orchestration_work`, for the rows of some scope -/
  | cancel (scope : Execution → Bool) (now : ℕ)
  | retry (id now : ℕ)
  | enqueue (group action retryCount now : ℕ)
  /-- an action is edited -/
  | edit (action : ℕ) (enabled : Bool)

namespace System

def requeueStale (c : Config) (s : System) (now : ℕ) : System :=
  { s with rows := s.rows.update (stale c now) (requeued now) fun _ => rfl }

/-- The rows that `cancel_pending_orchestration_work` selects. -/
def cancellable (scope : Execution → Bool) (e : Execution) : Bool :=
  (e.status = .pending || e.status = .running) && scope e

def retry (s : System) (id now : ℕ) : System :=
  { s with
    rows := s.rows.update (fun e => e.id = id && e.status = .failed) (retried now) fun _ => rfl
    history := (s.rows.rows.filter fun e => e.id = id && e.status = .failed).map
      (Event.retried ·.id) ++ s.history }

def newExecution (s : System) (group action retryCount now : ℕ) : Execution :=
  { id := s.rows.next
    group := group
    action := action
    retryCount := retryCount
    createdAt := now
    status := .pending
    attempts := 0
    claimToken := none
    claimedAt := none
    startedAt := none
    nextAttemptAt := some now
    finishedAt := none }

def next (c : Config) (s : System) : Label → System
  | .start w now limit =>
    if s.phase w = .idle then (s.requeueStale c now).goto w (.selecting now limit) else s
  | .work w now delivery => s.work c w now delivery
  | .crash w => s.goto w .idle
  | .cancel scope now => s.close (cancellable scope) (cancelled now) fun _ => rfl
  | .retry id now => s.retry id now
  | .enqueue group action retryCount now =>
    { s with rows := s.rows.insert (s.newExecution group action retryCount now) rfl }
  | .edit action enabled => { s with enabled := Function.update s.enabled action enabled }

end System

end IncidentRelay.Orchestration.Worker
