import IncidentRelay.Lib.PyText
import IncidentRelay.Lib.Run
import Mathlib.Logic.Function.Basic

/-!
# Login requests and their throttle

`login` and `auth_throttle.py` as what they are on the database: a request is a sequence of
single statements on the rows of its two keys, and any number of requests take their
statements in any order. The hash of a key stands for the key. Times are seconds.

Three things are kept for the record and read by no request: until when a key was announced
to be blocked, how many failures were counted into its window since it was last blocked, and
whether every one of them could be counted.
-/

namespace IncidentRelay.Auth

/-! ## Keys and policies -/

inductive Scope where
  | ip | account
  deriving DecidableEq

/-- The row of the throttle that a value belongs to. -/
structure Key where
  scope : Scope
  value : String
  deriving DecidableEq

/-- `_normalize(scope, value)` -/
def normalize (value : String) : String :=
  let text := lower (strip value)
  if text = "" then "unknown" else text

/-- The settings of a scope; no failure is counted where `maxFailures` is zero. -/
structure Policy where
  maxFailures : ℕ
  windowSeconds : ℕ
  blockSeconds : ℕ
  deriving DecidableEq

/-- A row of `LoginThrottle`. -/
structure Row where
  id : ℕ
  failureCount : ℕ
  windowStartedAt : ℕ
  blockedUntil : Option ℕ
  updatedAt : ℕ
  deriving DecidableEq

/-- `row.blocked_until and row.blocked_until > now` -/
def Row.blocks (row : Row) (now : ℕ) : Bool := row.blockedUntil.any (now < ·)

/-- The window of the row is over: `row.window_started_at <= now - timedelta(…)`. -/
def Row.isOver (p : Policy) (row : Row) (now : ℕ) : Bool :=
  row.windowStartedAt + p.windowSeconds ≤ now

/-- The end of a block that begins. -/
def Policy.blockEnd (p : Policy) (now : ℕ) : ℕ := now + max p.blockSeconds 1

/-- The row that `get_or_create` creates. -/
def newRow (p : Policy) (id now : ℕ) : Row where
  id := id
  failureCount := 1
  windowStartedAt := now
  blockedUntil := if p.maxFailures ≤ 1 then some (p.blockEnd now) else none
  updatedAt := now

/-- One more failure, in the window of the row or in a new one. -/
def Row.nextWindow (p : Policy) (row : Row) (now : ℕ) : Row :=
  if row.isOver p now then { row with failureCount := 1, windowStartedAt := now, blockedUntil := none }
  else { row with failureCount := row.failureCount + 1 }

/-- What `_record_failure` makes of the row that it has read. -/
def Row.countFailure (p : Policy) (row : Row) (now : ℕ) : Row :=
  let next := row.nextWindow p now
  { next with
    blockedUntil :=
      if p.maxFailures ≤ next.failureCount then some (p.blockEnd now) else next.blockedUntil
    updatedAt := now }

/-! ## Requests -/

/-- Where `_record_failure` is with a key. -/
inductive Phase where
  /-- it looks for the row -/
  | lookup
  /-- there was none: it creates it -/
  | insert
  /-- somebody else has created it meanwhile: `get_or_create` looks for it once more, and after
  it `_record_failure` does -/
  | fetch (again : Bool)
  /-- it reads the row with the id -/
  | read (id : ℕ)
  /-- it writes the row that it has read, with one more failure -/
  | save (copy : Row)
  deriving DecidableEq

inductive Pc where
  /-- `login_retry_after`, in front of the row of a scope -/
  | checking (now : ℕ) (scope : Scope) (retry : Bool)
  /-- the password is verified -/
  | verifying
  /-- the password was wrong -/
  | failed
  /-- `record_login_failure`, at the row of a scope -/
  | recording (now : ℕ) (scope : Scope) (phase : Phase)
  /-- old rows are deleted -/
  | purging (now : ℕ)
  /-- `clear_login_account_failures` -/
  | clearing
  | done
  deriving DecidableEq

structure Request where
  username : String
  address : String
  pc : Pc
  deriving DecidableEq

def Request.key (r : Request) : Scope → Key
  | .ip => ⟨.ip, normalize r.address⟩
  | .account => ⟨.account, normalize r.username⟩

@[simp] theorem Request.key_scope (r : Request) (scope : Scope) : (r.key scope).scope = scope := by
  cases scope <;> rfl

/-- `timedelta(days=7)` -/
def retentionSeconds : ℕ := 604800

structure State where
  clock : ℕ
  table : Key → Option Row
  nextId : ℕ
  requests : List Request
  /-- until when the key was announced to be blocked -/
  blockedUntil : Key → ℕ
  /-- the failures counted into the window of the row since the key was blocked -/
  counted : Key → ℕ

namespace State

variable (s : State)

def setRow (k : Key) (row : Option Row) : State :=
  { s with table := Function.update s.table k row }

/-- The request is somewhere else. -/
def setPc (i : ℕ) (r : Request) (pc : Pc) : State :=
  { s with requests := s.requests.set i { r with pc } }

/-- What is kept for the record when a failure has been written: a window that begins, or one
more failure, and a block that begins. -/
def note (p : Policy) (k : Key) (opened : Bool) (now : ℕ) (row : Row) : State :=
  let blocked : Bool := p.maxFailures ≤ row.failureCount
  { s with
    blockedUntil :=
      Function.update s.blockedUntil k (if blocked then p.blockEnd now else s.blockedUntil k)
    counted := Function.update s.counted k
      (if blocked then 0 else if opened then 1 else s.counted k + 1) }

/-- Nothing is counted for the key. -/
def forget (k : Key) : State :=
  { (s.setRow k none) with counted := Function.update s.counted k 0 }

end State

/-- What comes behind the row of a scope. -/
def Pc.nextRecord (now : ℕ) : Scope → Pc
  | .ip => .recording now .account .lookup
  | .account => .purging now

/-! ## Statements -/

section Steps

variable (policy : Scope → Policy) (s : State) (i : ℕ) (r : Request)

/-- One statement of `_record_failure`. -/
def recordStep (now : ℕ) (scope : Scope) (phase : Phase) : State :=
  let p := policy scope
  let k := r.key scope
  match phase with
  | .lookup =>
    if p.maxFailures = 0 then s.setPc i r (.nextRecord now scope)
    else
      match s.table k with
      | some row => s.setPc i r (.recording now scope (.read row.id))
      | none => s.setPc i r (.recording now scope .insert)
  | .insert =>
    match s.table k with
    -- `IntegrityError`
    | some _ => s.setPc i r (.recording now scope (.fetch false))
    | none =>
      let row := newRow p s.nextId now
      { ((s.setRow k (some row)).note p k true now row).setPc i r (.nextRecord now scope) with
        nextId := s.nextId + 1 }
  | .fetch again =>
    match s.table k with
    | some row => s.setPc i r (.recording now scope (.read row.id))
    -- it is gone again; the second `DoesNotExist` ends the request
    | none => s.setPc i r (if again then .done else .recording now scope (.fetch true))
  | .read id =>
    match s.table k with
    | some row =>
      if row.id = id then s.setPc i r (.recording now scope (.save row))
      -- `DoesNotExist` ends the request
      else s.setPc i r .done
    | none => s.setPc i r .done
  | .save copy =>
    let row := copy.countFailure p now
    let noted := s.note p k (copy.isOver p now) now row
    -- `UPDATE … WHERE id = …`
    if (s.table k).any (·.id = copy.id) then (noted.setRow k (some row)).setPc i r (.nextRecord now scope)
    else noted.setPc i r (.nextRecord now scope)

/-- The rows that nobody has written for seven days are deleted. -/
def purge (now : ℕ) : State :=
  let old (k : Key) : Bool := (s.table k).any fun row => row.updatedAt + retentionSeconds < now
  { s with
    table := fun k => if old k then none else s.table k
    counted := fun k => if old k then 0 else s.counted k }

/-- The next statement of a request. -/
def advance (correct : Bool) : State :=
  match r.pc with
  | .checking now .ip retry =>
    s.setPc i r (.checking now .account (retry || (s.table (r.key .ip)).any (·.blocks now)))
  | .checking now .account retry =>
    s.setPc i r
      (if retry || (s.table (r.key .account)).any (·.blocks now) then .done else .verifying)
  | .verifying => s.setPc i r (if correct then .clearing else .failed)
  | .failed => s.setPc i r (.recording s.clock .ip .lookup)
  | .recording now scope phase => recordStep policy s i r now scope phase
  | .purging now => (purge s now).setPc i r .done
  | .clearing => (s.forget (r.key .account)).setPc i r .done
  | .done => s

end Steps

inductive Label where
  /-- time passes -/
  | tick (seconds : ℕ)
  /-- a login request comes in -/
  | start (username address : String)
  /-- a request takes its next statement; `correct` says whether its password is -/
  | advance (i : ℕ) (correct : Bool)
  deriving DecidableEq

def step (policy : Scope → Policy) (s : State) : Label → State
  | .tick seconds => { s with clock := s.clock + seconds }
  | .start username address =>
    { s with requests := s.requests ++ [⟨username, address, .checking s.clock .ip false⟩] }
  | .advance i correct =>
    match s.requests[i]? with
    | some r => advance policy s i r correct
    | none => s

/-- No row and no request. -/
def State.initial (clock : ℕ) : State where
  clock := clock
  table _ := none
  nextId := 1
  requests := []
  blockedUntil _ := 0
  counted _ := 0

end IncidentRelay.Auth
