import IncidentRelay.Pending.Row
import Mathlib.Logic.Function.Basic

/-!
# The lock of the scheduler jobs

`acquire_lock` and `release_lock` as their database statements, for any number of jobs
that share the table and one clock. A job acquires under an owner of its own, so an
owner stands for one run; its run may stop for good between two statements.

 * `inv_run`: an owner that has not released has its row, or its lock is expired.
 * `lock_excludes`: at most one unexpired lock of a name is held, a release leaves the
   locks of others, and two runs overlap only when the lock of the earlier one was
   expired as the later one acquired.

The time to live counts from the reading of the clock at the start of `acquire_lock`, not
from the statement that takes the lock: a run that stalls in between gets a lock that is
already old (`overlap_before_ttl`).
-/

namespace IncidentRelay.Scheduler

/-! ## The table -/

/-- `AppLock`; its name, which is unique, is the key of the table. -/
structure AppLock (Owner : Type) where
  owner : Owner
  expiresAt : Instant
  updatedAt : Instant
  deriving DecidableEq

/-- What a call of `acquire_lock` has in its hands: its arguments and `now`. -/
structure Attempt where
  name : String
  ttl : Int
  now : Instant
  deriving DecidableEq

def Attempt.expiresAt (a : Attempt) : Instant := a.now + seconds a.ttl

/-- A lock that an attempt took. The turn counts the locks taken before. -/
structure Lease where
  attempt : Attempt
  acquiredAt : Instant
  turn : ℕ
  deriving DecidableEq

inductive Phase where
  | idle
  | called (name : String) (ttl : Int)
  | creating (a : Attempt)
  | looking (a : Attempt)
  | updating (a : Attempt)
  | holding (l : Lease)
  | done
  deriving DecidableEq

def Phase.attempt? : Phase → Option Attempt
  | .creating a | .looking a | .updating a => some a
  | .idle | .called _ _ | .holding _ | .done => none

def Phase.lease? : Phase → Option Lease
  | .holding l => some l
  | .idle | .called _ _ | .creating _ | .looking _ | .updating _ | .done => none

structure State (Owner : Type) where
  clock : Instant
  locks : String → Option (AppLock Owner)
  phase : Owner → Phase
  turns : ℕ

variable {Owner : Type} [DecidableEq Owner]

namespace State

variable (s : State Owner) (o : Owner)

def goto (p : Phase) : State Owner :=
  { s with phase := Function.update s.phase o p }

/-- The row of the attempt is written, as a new one or in the place of an expired one. -/
def acquire (a : Attempt) : State Owner where
  clock := s.clock
  locks := Function.update s.locks a.name (some ⟨o, a.expiresAt, a.now⟩)
  phase := Function.update s.phase o (.holding ⟨a, s.clock, s.turns⟩)
  turns := s.turns + 1

/-- `release_lock` -/
def release (name : String) : State Owner where
  clock := s.clock
  locks := Function.update s.locks name ((s.locks name).filter (·.owner ≠ o))
  phase := Function.update s.phase o .done
  turns := s.turns

/-- The owner holds the lock: it was acquired and not released. -/
def Holds (l : Lease) : Prop := (s.phase o).lease? = some l

theorem goto_phase (p : Phase) (o' : Owner) :
    (s.goto o p).phase o' = if o' = o then p else s.phase o' :=
  Function.update_apply ..

theorem acquire_phase (a : Attempt) (o' : Owner) :
    (s.acquire o a).phase o' = if o' = o then .holding ⟨a, s.clock, s.turns⟩ else s.phase o' :=
  Function.update_apply ..

theorem acquire_locks (a : Attempt) (name : String) :
    (s.acquire o a).locks name =
      if name = a.name then some ⟨o, a.expiresAt, a.now⟩ else s.locks name :=
  Function.update_apply ..

theorem release_phase (name : String) (o' : Owner) :
    (s.release o name).phase o' = if o' = o then .done else s.phase o' :=
  Function.update_apply ..

/-- A release removes the row of its owner only. -/
theorem release_locks (name name' : String) :
    (s.release o name).locks name' =
      if name' = name then (s.locks name').filter (·.owner ≠ o) else s.locks name' := by
  show Function.update _ _ _ _ = _
  rw [Function.update_apply]
  split
  · rename_i heq
    rw [heq]
  · rfl

end State

/-! ## Runs -/

inductive Label (Owner : Type) where
  | tick (elapsed : ℕ)
  /-- `acquire_db_lock(name, ttl_seconds)`, with a new owner -/
  | call (o : Owner) (name : String) (ttlSeconds : Option Int)
  /-- `now = utc_now()` -/
  | readClock (o : Owner)
  /-- `AppLock.create(…)` -/
  | create (o : Owner)
  /-- `AppLock.get_or_none(AppLock.name == name)` -/
  | get (o : Owner)
  /-- `AppLock.update(…).where((name == …) & (expires_at <= now))` -/
  | update (o : Owner)
  /-- `release_db_lock(name, owner)` -/
  | release (o : Owner)

/-- `ttl_seconds or Config.SCHEDULER_LOCK_TTL_SECONDS` -/
def ttlOr (config : Int) (ttlSeconds : Option Int) : Int :=
  (ttlSeconds.filter (· ≠ 0)).getD config

/-- A statement of a call that is elsewhere changes nothing. -/
def next (config : Int) (s : State Owner) : Label Owner → State Owner
  | .tick elapsed => { s with clock := s.clock + elapsed }
  | .call o name ttlSeconds =>
    match s.phase o with
    | .idle => s.goto o (.called name (ttlOr config ttlSeconds))
    | _ => s
  | .readClock o =>
    match s.phase o with
    | .called name ttl => s.goto o (.creating ⟨name, ttl, s.clock⟩)
    | _ => s
  | .create o =>
    match s.phase o with
    | .creating a =>
      -- the name is unique
      if s.locks a.name = none then s.acquire o a else s.goto o (.looking a)
    | _ => s
  | .get o =>
    match s.phase o with
    | .looking a =>
      if (s.locks a.name).all (a.now < ·.expiresAt) then s.goto o .done
      else s.goto o (.updating a)
    | _ => s
  | .update o =>
    match s.phase o with
    | .updating a =>
      if (s.locks a.name).any (·.expiresAt ≤ a.now) then s.acquire o a else s.goto o .done
    | _ => s
  | .release o =>
    match s.phase o with
    | .holding l => s.release o l.attempt.name
    | _ => s

/-- Nothing was called yet. -/
def initial (clock : Instant) : State Owner where
  clock := clock
  locks := fun _ => none
  phase := fun _ => .idle
  turns := 0

/-! ## The invariant -/

structure Inv (s : State Owner) : Prop where
  read : ∀ o, ∀ a ∈ (s.phase o).attempt?, a.now ≤ s.clock
  taken : ∀ o l, s.Holds o l → l.acquiredAt ≤ s.clock ∧ l.turn < s.turns
  /-- A row is the one of a lease that is held. -/
  row : ∀ name, ∀ lock ∈ s.locks name,
    ∃ l, s.Holds lock.owner l ∧ l.attempt.name = name ∧ lock.expiresAt = l.attempt.expiresAt
  /-- A lease has its row or is expired. -/
  held : ∀ o l, s.Holds o l →
    (∃ lock ∈ s.locks l.attempt.name, lock.owner = o) ∨ l.attempt.expiresAt ≤ s.clock
  turn : ∀ o o' l l', s.Holds o l → s.Holds o' l' → l.turn = l'.turn → o = o'
  /-- A lease that is held while another one of its name is taken was expired. -/
  order : ∀ o o' l l', s.Holds o l → s.Holds o' l' → l.attempt.name = l'.attempt.name →
    l.turn < l'.turn → l.attempt.expiresAt ≤ l'.acquiredAt

section Invariant

variable {s : State Owner} {o : Owner}

omit [DecidableEq Owner] in
theorem inv_initial (clock : Instant) : Inv (initial clock : State Owner) := by
  constructor <;> simp [initial, State.Holds, Phase.attempt?, Phase.lease?]

omit [DecidableEq Owner] in
/-- Time passes without harm: the lease was read from an earlier clock. -/
theorem inv_tick (h : Inv s) (elapsed : ℕ) : Inv { s with clock := s.clock + elapsed } where
  read o a ha := (h.read o a ha).trans (Int.le_add_of_nonneg_right (Int.natCast_nonneg _))
  taken o l hl :=
    (h.taken o l hl).imp_left
      fun hpast => hpast.trans (Int.le_add_of_nonneg_right (Int.natCast_nonneg _))
  row := h.row
  held o l hl :=
    (h.held o l hl).imp_right
      fun hexpired => hexpired.trans (Int.le_add_of_nonneg_right (Int.natCast_nonneg _))
  turn := h.turn
  order := h.order

/-- A step that gives up the lease leaves those of the others. -/
theorem holds_goto {p : Phase} (hp : p.lease? = none) {o' : Owner} {l : Lease}
    (hl : (s.goto o p).Holds o' l) : o' ≠ o ∧ s.Holds o' l := by
  rw [State.Holds, State.goto_phase] at hl
  split at hl
  · rw [hp] at hl
    cases hl
  · rename_i hne
    exact ⟨hne, hl⟩

/-- A call that neither takes nor gives back a lock. -/
theorem inv_goto (h : Inv s) {p : Phase} (hold : (s.phase o).lease? = none)
    (hp : p.lease? = none) (hread : ∀ a ∈ p.attempt?, a.now ≤ s.clock) : Inv (s.goto o p) where
  read o' a ha := by
    rw [State.goto_phase] at ha
    split at ha
    · exact hread a ha
    · exact h.read o' a ha
  taken o' l hl := h.taken o' l (holds_goto hp hl).2
  row name lock hlock := by
    obtain ⟨l, hl, hname, hexpires⟩ := h.row name lock hlock
    refine ⟨l, ?_, hname, hexpires⟩
    -- the owner of a row holds, so it is another one
    have hne : lock.owner ≠ o := by
      rintro rfl
      rw [State.Holds, hold] at hl
      cases hl
    rw [State.Holds, State.goto_phase, if_neg hne]
    exact hl
  held o' l hl := h.held o' l (holds_goto hp hl).2
  turn o₁ o₂ l l' hl hl' := h.turn o₁ o₂ l l' (holds_goto hp hl).2 (holds_goto hp hl').2
  order o₁ o₂ l l' hl hl' := h.order o₁ o₂ l l' (holds_goto hp hl).2 (holds_goto hp hl').2

/-- A lease is the new one or an old one of another owner. -/
theorem holds_acquire {a : Attempt} {o' : Owner} {l : Lease} (hl : (s.acquire o a).Holds o' l) :
    (o' = o ∧ l = ⟨a, s.clock, s.turns⟩) ∨ (o' ≠ o ∧ s.Holds o' l) := by
  rw [State.Holds, State.acquire_phase] at hl
  split at hl
  · rename_i heq
    exact .inl ⟨heq, (Option.some.inj hl).symm⟩
  · rename_i hne
    exact .inr ⟨hne, hl⟩

/-- **Step lemma.** A lock is taken where the row is missing or expired for the attempt. -/
theorem inv_acquire (h : Inv s) {a : Attempt} (hold : (s.phase o).lease? = none)
    (hread : a.now ≤ s.clock) (hfree : ∀ lock ∈ s.locks a.name, lock.expiresAt ≤ a.now) :
    Inv (s.acquire o a) := by
  -- whoever holds the name at this moment is expired
  have hothers : ∀ o' l, s.Holds o' l → l.attempt.name = a.name → l.attempt.expiresAt ≤ s.clock := by
    intro o' l hl hname
    rcases h.held o' l hl with ⟨lock, hlock, howner⟩ | hexpired
    · obtain ⟨l', hl', -, hexpires⟩ := h.row _ lock hlock
      rw [howner, State.Holds, hl] at hl'
      obtain rfl := Option.some.inj hl'
      rw [← hexpires]
      exact (hfree lock (hname ▸ hlock)).trans hread
    · exact hexpired
  refine ⟨?_, ?_, ?_, ?_, ?_, ?_⟩
  · intro o' b hb
    rw [State.acquire_phase] at hb
    split at hb
    · cases hb
    · exact h.read o' b hb
  · intro o' l hl
    rcases holds_acquire hl with ⟨-, rfl⟩ | ⟨-, hl⟩
    · exact ⟨le_refl _, Nat.lt_succ_self _⟩
    · have := h.taken o' l hl
      exact ⟨this.1, Nat.lt_succ_of_lt this.2⟩
  · intro name lock hlock
    rw [State.acquire_locks] at hlock
    split at hlock
    · rename_i heq
      obtain rfl := Option.some.inj hlock
      refine ⟨⟨a, s.clock, s.turns⟩, ?_, heq.symm, rfl⟩
      rw [State.Holds, State.acquire_phase, if_pos rfl]
      rfl
    · obtain ⟨l, hl, hname, hexpires⟩ := h.row name lock hlock
      refine ⟨l, ?_, hname, hexpires⟩
      have hne : lock.owner ≠ o := by
        rintro rfl
        rw [State.Holds, hold] at hl
        cases hl
      rw [State.Holds, State.acquire_phase, if_neg hne]
      exact hl
  · intro o' l hl
    rcases holds_acquire hl with ⟨rfl, rfl⟩ | ⟨hne, hl⟩
    · exact .inl ⟨⟨o', a.expiresAt, a.now⟩, by simp [State.acquire_locks], rfl⟩
    · by_cases heq : l.attempt.name = a.name
      · exact .inr (hothers o' l hl heq)
      · refine (h.held o' l hl).imp_left fun ⟨lock, hlock, howner⟩ => ⟨lock, ?_, howner⟩
        rw [State.acquire_locks, if_neg heq]
        exact hlock
  · intro o₁ o₂ l l' hl hl' hturn
    rcases holds_acquire hl with ⟨rfl, rfl⟩ | ⟨-, hold₁⟩ <;>
      rcases holds_acquire hl' with ⟨rfl, rfl⟩ | ⟨-, hold₂⟩
    · rfl
    · have := (h.taken o₂ l' hold₂).2
      dsimp only at hturn
      omega
    · have := (h.taken o₁ l hold₁).2
      dsimp only at hturn
      omega
    · exact h.turn o₁ o₂ l l' hold₁ hold₂ hturn
  · intro o₁ o₂ l l' hl hl' hname hturn
    rcases holds_acquire hl with ⟨rfl, rfl⟩ | ⟨-, hold₁⟩ <;>
      rcases holds_acquire hl' with ⟨rfl, rfl⟩ | ⟨-, hold₂⟩
    · exact absurd hturn (lt_irrefl _)
    · -- the turn of the new lease is the last one
      have := (h.taken o₂ l' hold₂).2
      dsimp only at hturn
      omega
    · exact hothers o₁ l hold₁ hname
    · exact h.order o₁ o₂ l l' hold₁ hold₂ hname hturn

/-- A release leaves the locks of others. -/
theorem release_keeps {name name' : String} {lock : AppLock Owner}
    (hlock : s.locks name' = some lock) (howner : lock.owner ≠ o) :
    (s.release o name).locks name' = some lock := by
  rw [State.release_locks, hlock]
  simp [howner]

/-- **A release** takes the row of its own lease, or none when another owner has taken the lock
over. -/
theorem inv_release (h : Inv s) {l : Lease} (hl : s.Holds o l) :
    Inv (s.release o l.attempt.name) := by
  have hholds : ∀ {o' l'}, (s.release o l.attempt.name).Holds o' l' → o' ≠ o ∧ s.Holds o' l' :=
    fun hl' => holds_goto (s := s) (p := .done) rfl hl'
  refine ⟨?_, fun o' l' hl' => h.taken o' l' (hholds hl').2, ?_, ?_,
    fun o₁ o₂ l₁ l₂ h₁ h₂ => h.turn o₁ o₂ l₁ l₂ (hholds h₁).2 (hholds h₂).2,
    fun o₁ o₂ l₁ l₂ h₁ h₂ => h.order o₁ o₂ l₁ l₂ (hholds h₁).2 (hholds h₂).2⟩
  · intro o' a ha
    rw [State.release_phase] at ha
    split at ha
    · cases ha
    · exact h.read o' a ha
  · intro name lock hlock
    rw [State.release_locks] at hlock
    have hbefore : lock ∈ s.locks name ∧ lock.owner ≠ o := by
      split at hlock
      · rw [Option.mem_def, Option.filter_eq_some_iff] at hlock
        exact ⟨hlock.1, by simpa using hlock.2⟩
      · rename_i hother
        refine ⟨hlock, ?_⟩
        -- the owner holds one name
        rintro rfl
        obtain ⟨l', hl', hname, -⟩ := h.row name lock hlock
        rw [State.Holds, hl] at hl'
        obtain rfl := Option.some.inj hl'
        exact hother hname.symm
    obtain ⟨l', hl', hname, hexpires⟩ := h.row name lock hbefore.1
    refine ⟨l', ?_, hname, hexpires⟩
    rw [State.Holds, State.release_phase, if_neg hbefore.2]
    exact hl'
  · intro o' l' hl'
    obtain ⟨hne, hbefore⟩ := hholds hl'
    refine (h.held o' l' hbefore).imp_left fun ⟨lock, hlock, howner⟩ => ⟨lock, ?_, howner⟩
    exact release_keeps hlock (howner ▸ hne)

/-- **Step lemma.** -/
theorem inv_next (config : Int) (h : Inv s) (label : Label Owner) : Inv (next config s label) := by
  unfold next
  -- the clock, then the phases of one attempt in their order
  split
  · exact inv_tick h _
  · split
    · rename_i hphase
      exact inv_goto h (by rw [hphase]; rfl) rfl (by simp [Phase.attempt?])
    · exact h
  · split
    · rename_i hphase
      refine inv_goto h (by rw [hphase]; rfl) rfl fun a ha => ?_
      obtain rfl := Option.some.inj ha
      exact le_refl _
    · exact h
  · split
    · rename_i a hphase
      -- the instant that was read is behind the clock
      have hread := h.read _ a (by rw [hphase]; rfl)
      split
      · rename_i hnone
        exact inv_acquire h (by rw [hphase]; rfl) hread (by simp [hnone])
      · refine inv_goto h (by rw [hphase]; rfl) rfl fun b hb => ?_
        obtain rfl := Option.some.inj hb
        exact hread
    · exact h
  · split
    · rename_i a hphase
      have hread := h.read _ a (by rw [hphase]; rfl)
      split
      · exact inv_goto h (by rw [hphase]; rfl) rfl (by simp [Phase.attempt?])
      · refine inv_goto h (by rw [hphase]; rfl) rfl fun b hb => ?_
        obtain rfl := Option.some.inj hb
        exact hread
    · exact h
  · split
    · rename_i a hphase
      have hread := h.read _ a (by rw [hphase]; rfl)
      split
      · rename_i hexpired
        refine inv_acquire h (by rw [hphase]; rfl) hread fun lock hlock => ?_
        rw [Option.mem_def] at hlock
        simpa [hlock] using hexpired
      · exact inv_goto h (by rw [hphase]; rfl) rfl (by simp [Phase.attempt?])
    · exact h
  · split
    -- only the holder lets go
    · rename_i l hphase
      exact inv_release h (by rw [State.Holds, hphase]; rfl)
    · exact h

/-- **Run lemma.** -/
theorem inv_run (config : Int) (clock : Instant) (labels : List (Label Owner)) :
    Inv (labels.foldl (next config) (initial clock)) := by
  have hfrom : ∀ s : State Owner, Inv s → Inv (labels.foldl (next config) s) := by
    induction labels with
    | nil => exact fun s h => h
    | cons label labels ih => exact fun s h => ih _ (inv_next config h label)
  exact hfrom _ (inv_initial clock)

end Invariant

/-- **The lock excludes.** In every state that is reached: at most one owner that has not
released holds an unexpired lock of a name; a release leaves the row of another owner; and
of two owners that hold one name, the lock of the earlier one was expired when the later
one acquired it. -/
theorem lock_excludes (config : Int) (clock : Instant) (labels : List (Label Owner)) :
    let s := labels.foldl (next config) (initial clock)
    (∀ o o' l l', s.Holds o l → s.Holds o' l' → l.attempt.name = l'.attempt.name →
      s.clock < l.attempt.expiresAt → s.clock < l'.attempt.expiresAt → o = o') ∧
    (∀ o name, ∀ lock ∈ s.locks name, lock.owner ≠ o →
      (next config s (.release o)).locks name = some lock) ∧
    ∀ o o' l l', s.Holds o l → s.Holds o' l' → l.attempt.name = l'.attempt.name → o ≠ o' →
      l.turn ≠ l'.turn ∧
      (l.turn < l'.turn →
        l.attempt.now + seconds l.attempt.ttl ≤ l'.acquiredAt ∧ l'.acquiredAt ≤ s.clock) := by
  intro s
  have h : Inv s := inv_run config clock labels
  refine ⟨fun o o' l l' hl hl' hname hlive hlive' => ?_, fun o name lock hlock howner => ?_,
    fun o o' l l' hl hl' hname hne => ⟨fun hturn => hne (h.turn o o' l l' hl hl' hturn),
      fun hturn => ⟨h.order o o' l l' hl hl' hname hturn, (h.taken o' l' hl').1⟩⟩⟩
  · -- an unexpired lock has its row, and there is one
    obtain ⟨lock, hlock, howner⟩ := (h.held o l hl).resolve_right (not_le.mpr hlive)
    obtain ⟨lock', hlock', howner'⟩ := (h.held o' l' hl').resolve_right (not_le.mpr hlive')
    rw [hname, Option.mem_def, hlock'] at hlock
    obtain rfl := Option.some.inj hlock
    exact howner.symm.trans howner'
  · unfold next
    dsimp only
    split
    · exact release_keeps hlock howner
    · exact hlock

/-! ## The clock of an attempt is older than its lock -/

/-- The run `1` reads the clock, and its row is written after a while. Later the run `2`
acquires. -/
def stalledRun (stall later : ℕ) : State ℕ :=
  [.call 1 "reminder_job" (some 90), .readClock 1, .tick stall, .create 1, .tick later,
    .call 2 "reminder_job" (some 90), .readClock 2, .create 2, .get 2, .update 2].foldl
    (next 120) (initial 0)

/-- A run that stalled for 100 seconds before its row was written is overlapped at once; one
that did not is overlapped when its 90 seconds are over, not later. -/
theorem overlap_before_ttl :
    ((stalledRun 100000000 0).Holds 1 ⟨⟨"reminder_job", 90, 0⟩, 100000000, 0⟩ ∧
      (stalledRun 100000000 0).Holds 2 ⟨⟨"reminder_job", 90, 100000000⟩, 100000000, 1⟩ ∧
      (stalledRun 100000000 0).clock - 100000000 < seconds 90) ∧
    (stalledRun 0 90000000).Holds 1 ⟨⟨"reminder_job", 90, 0⟩, 0, 0⟩ ∧
      (stalledRun 0 90000000).Holds 2 ⟨⟨"reminder_job", 90, 90000000⟩, 90000000, 1⟩ ∧
      ¬seconds 90 < (stalledRun 0 90000000).clock - 0 := by
  unfold State.Holds
  decide +kernel

end IncidentRelay.Scheduler
