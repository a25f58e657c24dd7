import IncidentRelay.Lib.IdTable
import IncidentRelay.Lib.Run
import IncidentRelay.Pending.Row
import IncidentRelay.Tenant

/-!
# The members of a layer

A membership is a period that is closed and opened again, never rewritten. The calls that edit
the periods keep this in exactly the runs in which each of them fits into the stored ones
(`membership_kept_iff`): they look at one instant, and an update closes before it adds.
-/

namespace IncidentRelay.Rotations

structure RotationLayerMember where
  id : ℕ
  layer : Id
  user : Id
  position : ℤ
  active : Bool
  startsAt : Instant
  endsAt : Option Instant
  deriving DecidableEq

namespace RotationLayerMember

/-- `_rotation_layer_member_effective_at(member, at)` -/
def effectiveAt (m : RotationLayerMember) (at' : Instant) : Bool :=
  m.startsAt ≤ at' && m.endsAt.all fun stop => at' < stop

/-- Closed, from an instant on. -/
def closed (m : RotationLayerMember) (at' : Instant) : RotationLayerMember :=
  { m with active := false, endsAt := some at' }

/-- A row is in force from its start to its end. -/
theorem effectiveAt_iff {m : RotationLayerMember} {at' : Instant} :
    m.effectiveAt at' = true ↔ m.startsAt ≤ at' ∧ ∀ stop ∈ m.endsAt, at' < stop := by
  unfold effectiveAt
  cases m.endsAt with
  | none => simp
  | some stop => simp

end RotationLayerMember

abbrev Members := IdTable RotationLayerMember (·.id)

/-! ## The calls -/

section Calls

variable (t : Members) (now : Instant)

/-- The open periods of the user in the layer. -/
def isOpenOf (layer user : Id) (m : RotationLayerMember) : Bool :=
  m.layer = layer && m.user = user && m.endsAt.isNone

/-- The first statement of `add_rotation_layer_member`. -/
def closeOpen (layer user : Id) (at' : Instant) : Members :=
  t.update (isOpenOf layer user) (fun m => m.closed at') fun _ => rfl

/-- `position_conflict` -/
def positionConflict (layer : Id) (position : ℤ) (at' : Instant) : Bool :=
  t.rows.any fun m => m.layer = layer && m.position = position && m.active && m.effectiveAt at'

def newMember (id : ℕ) (layer user : Id) (position : ℤ) (startsAt : Instant) :
    RotationLayerMember :=
  { id, layer, user, position, active := true, startsAt, endsAt := none }

/-- `add_rotation_layer_member(layer_id, user_id, position, starts_at)`; a conflict rolls the
first statement back. -/
def addRotationLayerMember (layer user : Id) (position : ℤ) (startsAt : Option Instant) :
    Except String ℕ × Members :=
  let startsAt := startsAt.getD now
  let closed := closeOpen t layer user startsAt
  if positionConflict closed layer position startsAt then
    (.error "rotation layer position is already occupied", t)
  else
    (.ok closed.next, closed.insert (newMember closed.next layer user position startsAt) rfl)

/-- The end of a period that is closed. -/
def closeMember (m : RotationLayerMember) : Members :=
  t.save { m with active := false, endsAt := m.endsAt <|> some now }

/-- `update_rotation_layer_member(member_id, position, active)` -/
def updateRotationLayerMember (memberId : ℕ) (position : ℤ) (active : Bool) :
    Except String ℕ × Members :=
  match t.get memberId with
  | none => (.error "RotationLayerMemberDoesNotExist", t)
  | some member =>
    if !active then (.ok member.id, closeMember t now member)
    else if member.endsAt.isSome || !member.active then
      addRotationLayerMember t now member.layer member.user position (some now)
    else if position ≠ member.position then
      -- the member is closed by a statement of its own, before the transaction of the addition
      addRotationLayerMember (t.save (member.closed now)) now member.layer member.user position
        (some now)
    else (.ok member.id, t)

/-- `delete_rotation_layer_member(member_id)` -/
def deleteRotationLayerMember (memberId : ℕ) : Except String ℕ × Members :=
  match t.get memberId with
  | none => (.error "RotationLayerMemberDoesNotExist", t)
  | some member => (.ok member.id, closeMember t now member)

end Calls

inductive MembershipCall where
  | add (layer user : Id) (position : ℤ) (startsAt : Option Instant)
  | update (memberId : ℕ) (position : ℤ) (active : Bool)
  | delete (memberId : ℕ)

/-- A call some time after the one before it. -/
structure TimedCall where
  after : ℕ
  call : MembershipCall

structure Roster where
  members : Members
  clock : Instant

namespace Roster

variable (s : Roster)

def run (l : TimedCall) : Except String ℕ × Members :=
  let now := s.clock + l.after
  match l.call with
  | .add layer user position startsAt =>
    addRotationLayerMember s.members now layer user position startsAt
  | .update memberId position active =>
    updateRotationLayerMember s.members now memberId position active
  | .delete memberId => deleteRotationLayerMember s.members now memberId

def next (l : TimedCall) : Roster := { members := (s.run l).2, clock := s.clock + l.after }

end Roster

/-! ## What is kept -/

/-- At every instant a position is held once, and a user is a member once; a member is on call
until its end. -/
structure Sound (t : Members) (clock : Instant) : Prop where
  positions : ∀ at', ∀ m ∈ t.rows, ∀ m' ∈ t.rows, m.layer = m'.layer → m.position = m'.position →
    m.active = true → m'.active = true → m.effectiveAt at' = true → m'.effectiveAt at' = true →
    m = m'
  periods : ∀ at', ∀ m ∈ t.rows, ∀ m' ∈ t.rows, m.layer = m'.layer → m.user = m'.user →
    m.effectiveAt at' = true → m'.effectiveAt at' = true → m = m'
  onCall : ∀ m ∈ t.rows, ∀ at', clock ≤ at' → m.effectiveAt at' = true → m.active = true

/-- A call keeps the periods that have ended, and all of them if it raises. -/
structure KeepsHistory (t : Members) (now : Instant) (result : Except String ℕ × Members) :
    Prop where
  ended : ∀ m ∈ t.rows, ∀ stop ∈ m.endsAt, stop ≤ now → m ∈ result.2.rows
  raised : ∀ error, result.1 = .error error → result.2 = t

/-- The open periods are the active ones. -/
def OpenActive (t : Members) : Prop := ∀ m ∈ t.rows, m.active = m.endsAt.isNone

/-! ## What fits -/

/-- An addition that is not refused fits when nobody else has the position later, no closed
period of the user reaches beyond its start, and none is open that would be cut off in the
future. -/
structure AddFits (t : Members) (now : Instant) (layer user : Id) (position : ℤ)
    (startsAt : Instant) : Prop where
  laterFree : ∀ m ∈ t.rows, m.layer = layer → m.position = position → m.active = true →
    m.user ≠ user → m.startsAt ≤ startsAt
  closedBefore : ∀ m ∈ t.rows, m.layer = layer → m.user = user → ∀ stop ∈ m.endsAt,
    stop ≤ startsAt ∨ stop ≤ m.startsAt
  notCut : ∀ m ∈ t.rows, isOpenOf layer user m = true → startsAt ≤ now ∨ startsAt ≤ m.startsAt

instance decidableAddFits (t : Members) (now : Instant) (layer user : Id) (position : ℤ)
    (startsAt : Instant) : Decidable (AddFits t now layer user position startsAt) :=
  decidable_of_iff ((∀ m ∈ t.rows, m.layer = layer → m.position = position → m.active = true →
      m.user ≠ user → m.startsAt ≤ startsAt) ∧
    (∀ m ∈ t.rows, m.layer = layer → m.user = user → ∀ stop ∈ m.endsAt,
      stop ≤ startsAt ∨ stop ≤ m.startsAt) ∧
    ∀ m ∈ t.rows, isOpenOf layer user m = true → startsAt ≤ now ∨ startsAt ≤ m.startsAt)
    ⟨fun ⟨hlater, hclosed, hcut⟩ => ⟨hlater, hclosed, hcut⟩,
      fun h => ⟨h.laterFree, h.closedBefore, h.notCut⟩⟩

/-- The position is held by somebody else at the instant. -/
def Occupied (t : Members) (layer user : Id) (position : ℤ) (at' : Instant) : Prop :=
  ∃ m ∈ t.rows, m.layer = layer ∧ m.position = position ∧ m.active = true ∧ m.user ≠ user ∧
    m.startsAt ≤ at'

instance decidableOccupied (t : Members) (layer user : Id) (position : ℤ) (at' : Instant) :
    Decidable (Occupied t layer user position at') :=
  inferInstanceAs (Decidable (∃ m ∈ t.rows, m.layer = layer ∧ m.position = position ∧
    m.active = true ∧ m.user ≠ user ∧ m.startsAt ≤ at'))

/-! ## Statements -/

section Statements

variable {t : Members} {clock now at' : Instant} {layer user : Id} {position : ℤ}
  {m : RotationLayerMember}

theorem mem_closeOpen : m ∈ (closeOpen t layer user at').rows ↔
    ∃ m₀ ∈ t.rows, (isOpenOf layer user m₀ = true ∧ m = m₀.closed at') ∨
      (isOpenOf layer user m₀ = false ∧ m = m₀) :=
  @IdTable.mem_update _ _ t (isOpenOf layer user) (fun m => m.closed at') (fun _ => rfl) m

theorem isOpenOf_iff : isOpenOf layer user m = true ↔
    (m.layer = layer ∧ m.user = user) ∧ m.endsAt = none := by
  unfold isOpenOf
  rw [Bool.and_eq_true, Bool.and_eq_true, decide_eq_true_eq, decide_eq_true_eq, Option.isNone_iff_eq_none]

/-- A row that is closed is in force until then. -/
theorem closed_effectiveAt {u : Instant} :
    (m.closed at').effectiveAt u = true ↔ m.startsAt ≤ u ∧ u < at' := by
  rw [RotationLayerMember.effectiveAt_iff]
  unfold RotationLayerMember.closed
  simp only [Option.mem_some, forall_eq']

theorem open_effectiveAt (h : m.endsAt = none) {u : Instant} :
    m.effectiveAt u = true ↔ m.startsAt ≤ u := by
  rw [RotationLayerMember.effectiveAt_iff, h]
  exact and_iff_left nofun

theorem OpenActive.endsAt (h : OpenActive t) (hm : m ∈ t.rows) (hactive : m.active = true) :
    m.endsAt = none := by
  rw [h m hm] at hactive
  exact Option.isNone_iff_eq_none.mp hactive

/-- Closing keeps that so. -/
theorem OpenActive.closeOpen (h : OpenActive t) : OpenActive (closeOpen t layer user at') := by
  intro m hm
  obtain ⟨m₀, hm₀, ⟨-, rfl⟩ | ⟨-, rfl⟩⟩ := mem_closeOpen.mp hm
  · rfl
  · exact h _ hm₀

/-- The check sees the position held by somebody else at one instant. -/
theorem positionConflict_iff (h : OpenActive t) :
    positionConflict (closeOpen t layer user at') layer position at' = true ↔
      Occupied t layer user position at' := by
  unfold positionConflict Occupied
  rw [List.any_eq_true]
  simp only [Bool.and_eq_true, decide_eq_true_eq]
  constructor
  · rintro ⟨m, hm, ⟨⟨hlayer, hposition⟩, hactive⟩, heffective⟩
    obtain ⟨m₀, hm₀, ⟨-, rfl⟩ | ⟨hother, rfl⟩⟩ := mem_closeOpen.mp hm
    · cases hactive
    · have hopen := h.endsAt hm₀ hactive
      refine ⟨_, hm₀, hlayer, hposition, hactive, fun huser => ?_, (open_effectiveAt hopen).mp heffective⟩
      rw [isOpenOf_iff.mpr ⟨⟨hlayer, huser⟩, hopen⟩] at hother
      cases hother
  · rintro ⟨m, hm, hlayer, hposition, hactive, huser, hstart⟩
    have hopen := h.endsAt hm hactive
    refine ⟨m, mem_closeOpen.mpr ⟨m, hm, .inr ⟨?_, rfl⟩⟩, ⟨⟨hlayer, hposition⟩, hactive⟩,
      (open_effectiveAt hopen).mpr hstart⟩
    exact Bool.eq_false_iff.mpr fun hclosed => huser (isOpenOf_iff.mp hclosed).1.2

/-- A period of the closed table is one of the table, or it ends at the instant. -/
theorem effective_of_closeOpen {u : Instant} (hm : m ∈ (closeOpen t layer user at').rows)
    (heffective : m.effectiveAt u = true) : ∃ m₀ ∈ t.rows, m₀.effectiveAt u = true ∧
      m₀.id = m.id ∧ m₀.layer = m.layer ∧ m₀.user = m.user ∧ m₀.position = m.position ∧
      (m = m₀ ∨ (isOpenOf layer user m₀ = true ∧ m = m₀.closed at' ∧ u < at')) := by
  obtain ⟨m₀, hm₀, ⟨hopen, rfl⟩ | ⟨-, rfl⟩⟩ := mem_closeOpen.mp hm
  · obtain ⟨hstart, hstop⟩ := closed_effectiveAt.mp heffective
    exact ⟨m₀, hm₀, (open_effectiveAt (isOpenOf_iff.mp hopen).2).mpr hstart, rfl, rfl, rfl, rfl,
      .inr ⟨hopen, rfl, hstop⟩⟩
  · exact ⟨_, hm₀, heffective, rfl, rfl, rfl, rfl, .inl rfl⟩

end Statements

/-! ## An addition -/

section Add

variable {t : Members} {clock now startsAt : Instant} {layer user : Id} {position : ℤ}

/-- The table behind an addition that is not refused. -/
def added (t : Members) (layer user : Id) (position : ℤ) (startsAt : Instant) : Members :=
  (closeOpen t layer user startsAt).insert
    (newMember (closeOpen t layer user startsAt).next layer user position startsAt) rfl

theorem mem_added {m : RotationLayerMember} : m ∈ (added t layer user position startsAt).rows ↔
    m ∈ (closeOpen t layer user startsAt).rows ∨
      m = newMember (closeOpen t layer user startsAt).next layer user position startsAt :=
  @IdTable.mem_insert _ _ (closeOpen t layer user startsAt) _ rfl m

theorem newMember_effectiveAt {id : ℕ} {u : Instant} :
    (newMember id layer user position startsAt).effectiveAt u = true ↔ startsAt ≤ u :=
  open_effectiveAt rfl

/-- The new row is none of the others. -/
theorem not_newMember {m : RotationLayerMember} (hm : m ∈ (closeOpen t layer user startsAt).rows) :
    m ≠ newMember (closeOpen t layer user startsAt).next layer user position startsAt := by
  intro heq
  have hlt := (closeOpen t layer user startsAt).lt m hm
  rw [heq] at hlt
  exact lt_irrefl _ hlt

theorem OpenActive.added (h : OpenActive t) : OpenActive (added t layer user position startsAt) := by
  intro m hm
  rcases mem_added.mp hm with hm | rfl
  · exact h.closeOpen m hm
  · rfl

/-- Two rows of the closed table that come from one row are one. -/
theorem closeOpen_injective {m m' : RotationLayerMember}
    (hm : m ∈ (closeOpen t layer user startsAt).rows)
    (hm' : m' ∈ (closeOpen t layer user startsAt).rows) (hid : m.id = m'.id) : m = m' :=
  IdTable.eq_of_id hm hm' hid

/-- If the roster is sound after an addition, nobody else takes the position later. -/
theorem laterFree_of_sound (h : OpenActive t)
    (hsound : Sound (added t layer user position startsAt) clock) :
    ∀ m ∈ t.rows, m.layer = layer → m.position = position → m.active = true → m.user ≠ user →
      m.startsAt ≤ startsAt := by
  intro m hm hlayer hposition hactive huser
  by_contra hlater
  have hopen := h.endsAt hm hactive
  -- at its start both hold the position
  have hkept : m ∈ (closeOpen t layer user startsAt).rows :=
    mem_closeOpen.mpr ⟨m, hm, .inr ⟨Bool.eq_false_iff.mpr fun hown =>
      huser (isOpenOf_iff.mp hown).1.2, rfl⟩⟩
  refine not_newMember hkept (hsound.positions m.startsAt m (mem_added.mpr (.inl hkept)) _
    (mem_added.mpr (.inr rfl)) hlayer hposition hactive rfl ?_ ?_)
  · exact (open_effectiveAt hopen).mpr le_rfl
  · exact newMember_effectiveAt.mpr (le_of_not_ge hlater)

theorem closedBefore_of_sound (hsound : Sound (added t layer user position startsAt) clock) :
    ∀ m ∈ t.rows, m.layer = layer → m.user = user → ∀ stop ∈ m.endsAt,
      stop ≤ startsAt ∨ stop ≤ m.startsAt := by
  intro m hm hlayer huser stop hstop
  by_contra! hbeyond
  have hkept : m ∈ (closeOpen t layer user startsAt).rows := by
    refine mem_closeOpen.mpr ⟨m, hm, .inr ⟨Bool.eq_false_iff.mpr fun hopen => ?_, rfl⟩⟩
    rw [(isOpenOf_iff.mp hopen).2] at hstop
    cases hstop
  -- from the later of the two starts on, the user is a member twice
  refine not_newMember hkept (hsound.periods (max startsAt m.startsAt) m
    (mem_added.mpr (.inl hkept)) _ (mem_added.mpr (.inr rfl)) hlayer huser ?_ ?_)
  · refine RotationLayerMember.effectiveAt_iff.mpr ⟨le_max_right _ _, fun stop' hstop' => ?_⟩
    obtain rfl := Option.some.inj (hstop.symm.trans hstop')
    exact max_lt hbeyond.1 hbeyond.2
  · exact newMember_effectiveAt.mpr (le_max_left _ _)

theorem notCut_of_sound (hsound : Sound (added t layer user position startsAt) now) :
    ∀ m ∈ t.rows, isOpenOf layer user m = true → startsAt ≤ now ∨ startsAt ≤ m.startsAt := by
  intro m hm hopen
  by_contra! hcut
  have hclosed : m.closed startsAt ∈ (added t layer user position startsAt).rows :=
    mem_added.mpr (.inl (mem_closeOpen.mpr ⟨m, hm, .inl ⟨hopen, rfl⟩⟩))
  have heffective : (m.closed startsAt).effectiveAt (max now m.startsAt) = true :=
    closed_effectiveAt.mpr ⟨le_max_right _ _, max_lt hcut.1 hcut.2⟩
  have hactive := hsound.onCall _ hclosed _ (le_max_left _ _) heffective
  cases hactive

/-- **An addition that fits** leaves the roster sound: two rows of one member or one position
never meet. -/
theorem sound_added (h : OpenActive t) (hsound : Sound t clock) (hclock : clock ≤ now)
    (hnot : ¬Occupied t layer user position startsAt)
    (hfits : AddFits t now layer user position startsAt) :
    Sound (added t layer user position startsAt) now := by
  -- nobody else holds the position from the start on
  have hposition : ∀ u, startsAt ≤ u → ∀ m ∈ (closeOpen t layer user startsAt).rows,
      m.layer = layer → m.position = position → m.active = true → m.effectiveAt u = true → False := by
    intro u _ m hm hlayer hposition hactive heffective
    obtain ⟨m₀, hm₀, -, -, -, -, -, rfl | ⟨-, rfl, -⟩⟩ := effective_of_closeOpen hm heffective
    · by_cases huser : m.user = user
      · obtain ⟨m₁, -, ⟨-, rfl⟩ | ⟨hother, rfl⟩⟩ := mem_closeOpen.mp hm
        · cases hactive
        · rw [isOpenOf_iff.mpr ⟨⟨hlayer, huser⟩, h.endsAt hm₀ hactive⟩] at hother
          cases hother
      · exact hnot ⟨m, hm₀, hlayer, hposition, hactive, huser,
          hfits.laterFree m hm₀ hlayer hposition hactive huser⟩
    · cases hactive
  -- the user has no other period from the start on
  have hperiod : ∀ u, startsAt ≤ u → ∀ m ∈ (closeOpen t layer user startsAt).rows,
      m.layer = layer → m.user = user → m.effectiveAt u = true → False := by
    intro u hu m hm hlayer huser heffective
    obtain ⟨m₀, hm₀, ⟨-, rfl⟩ | ⟨hother, rfl⟩⟩ := mem_closeOpen.mp hm
    · exact absurd (closed_effectiveAt.mp heffective).2 (not_lt_of_ge hu)
    · obtain ⟨hstart, hstops⟩ := RotationLayerMember.effectiveAt_iff.mp heffective
      cases hends : m.endsAt with
      | none =>
        rw [isOpenOf_iff.mpr ⟨⟨hlayer, huser⟩, hends⟩] at hother
        cases hother
      | some stop =>
        have hstop := hstops stop hends
        rcases hfits.closedBefore m hm₀ hlayer huser stop hends with hbefore | hempty
        · exact absurd (hbefore.trans hu) (not_le_of_gt hstop)
        · exact absurd (hempty.trans hstart) (not_le_of_gt hstop)
  constructor
  · intro u m hm m' hm' hlayer hpos hactive hactive' heffective heffective'
    rcases mem_added.mp hm with hm | rfl <;> rcases mem_added.mp hm' with hm' | rfl
    · obtain ⟨m₀, hm₀, -, -, -, -, -, rfl | ⟨-, rfl, -⟩⟩ := effective_of_closeOpen hm heffective
      · obtain ⟨m₁, hm₁, -, -, -, -, -, rfl | ⟨-, rfl, -⟩⟩ := effective_of_closeOpen hm' heffective'
        · exact hsound.positions u _ hm₀ _ hm₁ hlayer hpos hactive hactive' heffective heffective'
        · cases hactive'
      · cases hactive
    · exact (hposition u (newMember_effectiveAt.mp heffective') m hm hlayer hpos hactive heffective).elim
    · exact (hposition u (newMember_effectiveAt.mp heffective) m' hm' hlayer.symm hpos.symm hactive'
        heffective').elim
    · rfl
  · intro u m hm m' hm' hlayer huser heffective heffective'
    rcases mem_added.mp hm with hm | rfl <;> rcases mem_added.mp hm' with hm' | rfl
    · obtain ⟨m₀, hm₀, heff₀, hid₀, hlayer₀, huser₀, -, -⟩ := effective_of_closeOpen hm heffective
      obtain ⟨m₁, hm₁, heff₁, hid₁, hlayer₁, huser₁, -, -⟩ := effective_of_closeOpen hm' heffective'
      have hsame := hsound.periods u m₀ hm₀ m₁ hm₁ (by rw [hlayer₀, hlayer₁, hlayer])
        (by rw [huser₀, huser₁, huser]) heff₀ heff₁
      exact closeOpen_injective hm hm' (by rw [← hid₀, ← hid₁, hsame])
    · exact (hperiod u (newMember_effectiveAt.mp heffective') m hm hlayer huser heffective).elim
    · exact (hperiod u (newMember_effectiveAt.mp heffective) m' hm' hlayer.symm huser.symm
        heffective').elim
    · rfl
  · intro m hm u hu heffective
    rcases mem_added.mp hm with hm | rfl
    · obtain ⟨m₀, hm₀, -, -, -, -, -, rfl | ⟨hopen, rfl, hbefore⟩⟩ :=
        effective_of_closeOpen hm heffective
      · exact hsound.onCall m hm₀ u (hclock.trans hu) heffective
      · -- a period that is cut off ends now or before it starts
        have hstart := (closed_effectiveAt.mp heffective).1
        rcases hfits.notCut m₀ hm₀ hopen with hnow | hempty
        · exact absurd (hnow.trans hu) (not_le_of_gt hbefore)
        · exact absurd (hempty.trans hstart) (not_le_of_gt hbefore)
    · rfl

/-- **An addition that is not refused keeps the history iff it fits.** -/
theorem sound_added_iff (h : OpenActive t) (hsound : Sound t clock) (hclock : clock ≤ now)
    (hnot : ¬Occupied t layer user position startsAt) :
    Sound (added t layer user position startsAt) now ↔
      AddFits t now layer user position startsAt :=
  ⟨fun hafter => ⟨laterFree_of_sound h hafter, closedBefore_of_sound hafter,
    notCut_of_sound hafter⟩, sound_added h hsound hclock hnot⟩

/-- Rows that have ended stay. -/
theorem ended_added (clock : Instant) : ∀ m ∈ t.rows, ∀ stop ∈ m.endsAt, stop ≤ clock →
    m ∈ (added t layer user position startsAt).rows := by
  intro m hm stop hstop _
  refine mem_added.mpr (.inl (mem_closeOpen.mpr ⟨m, hm, .inr ⟨?_, rfl⟩⟩))
  refine Bool.eq_false_iff.mpr fun hopen => ?_
  rw [(isOpenOf_iff.mp hopen).2] at hstop
  cases hstop

/-- An addition is refused when the position is occupied, and adds a row otherwise. -/
theorem addRotationLayerMember_cases (h : OpenActive t) (startsAt : Option Instant) :
    (Occupied t layer user position (startsAt.getD now) ∧
      (addRotationLayerMember t now layer user position startsAt).2 = t ∧
      ∃ error, (addRotationLayerMember t now layer user position startsAt).1 = .error error) ∨
    (¬Occupied t layer user position (startsAt.getD now) ∧
      (addRotationLayerMember t now layer user position startsAt).2 =
        added t layer user position (startsAt.getD now) ∧
      ∃ id, (addRotationLayerMember t now layer user position startsAt).1 = .ok id) := by
  unfold addRotationLayerMember
  dsimp only
  split_ifs with hconflict
  · exact .inl ⟨(positionConflict_iff h).mp hconflict, rfl, _, rfl⟩
  · exact .inr ⟨fun hoccupied => hconflict ((positionConflict_iff h).mpr hoccupied), rfl, _, rfl⟩

end Add

/-! ## A closing -/

section Close

variable {t : Members} {clock now at' : Instant} {layer user : Id} {position : ℤ}
  {m : RotationLayerMember}

/-- A closed member is left, an open one is closed. -/
theorem closeMember_eq (h : OpenActive t) (hm : m ∈ t.rows) :
    closeMember t now m = t.save (if m.endsAt = none then m.closed now else m) := by
  unfold closeMember
  cases hends : m.endsAt with
  | none => rfl
  | some stop =>
    have hactive := h m hm
    rw [hends] at hactive
    rw [if_neg nofun]
    refine congrArg t.save ?_
    obtain ⟨_, _, _, _, active, _, _⟩ := m
    cases hends
    cases hactive
    rfl

theorem mem_saveClosed (hm : m ∈ t.rows) {r : RotationLayerMember} :
    r ∈ (t.save (m.closed now)).rows ↔ (r ∈ t.rows ∧ r.id ≠ m.id) ∨ r = m.closed now := by
  rw [IdTable.mem_save]
  exact or_congr_right (and_iff_left ⟨m, hm, rfl⟩)

/-- An active row is open as before. -/
theorem OpenActive.saveClosed (h : OpenActive t) (hm : m ∈ t.rows) :
    OpenActive (t.save (m.closed now)) := by
  intro r hr
  rcases (mem_saveClosed hm).mp hr with ⟨hr, -⟩ | rfl
  · exact h r hr
  · rfl

/-- A member that is closed now keeps the history. -/
theorem sound_saveClosed (hsound : Sound t clock) (hclock : clock ≤ now) (hm : m ∈ t.rows)
    (hopen : m.endsAt = none) : Sound (t.save (m.closed now)) now := by
  -- each row comes from one that covers what it covers
  have hfrom : ∀ r ∈ (t.save (m.closed now)).rows, ∀ u, r.effectiveAt u = true → ∃ r₀ ∈ t.rows,
      r₀.effectiveAt u = true ∧ r₀.id = r.id ∧ r₀.layer = r.layer ∧ r₀.user = r.user ∧
      r₀.position = r.position ∧ (r = r₀ ∨ (r.active = false ∧ u < now)) := by
    intro r hr u heffective
    rcases (mem_saveClosed hm).mp hr with ⟨hr, -⟩ | rfl
    · exact ⟨r, hr, heffective, rfl, rfl, rfl, rfl, .inl rfl⟩
    · obtain ⟨hstart, hstop⟩ := closed_effectiveAt.mp heffective
      exact ⟨m, hm, (open_effectiveAt hopen).mpr hstart, rfl, rfl, rfl, rfl, .inr ⟨rfl, hstop⟩⟩
  constructor
  · intro u r hr r' hr' hlayer hpos hactive hactive' heffective heffective'
    obtain ⟨r₀, hr₀, -, -, -, -, -, rfl | ⟨hclosed, -⟩⟩ := hfrom r hr u heffective
    · obtain ⟨r₁, hr₁, -, -, -, -, -, rfl | ⟨hclosed, -⟩⟩ := hfrom r' hr' u heffective'
      · exact hsound.positions u _ hr₀ _ hr₁ hlayer hpos hactive hactive' heffective heffective'
      · rw [hclosed] at hactive'
        cases hactive'
    · rw [hclosed] at hactive
      cases hactive
  · intro u r hr r' hr' hlayer huser heffective heffective'
    obtain ⟨r₀, hr₀, heff₀, hid₀, hlayer₀, huser₀, -, -⟩ := hfrom r hr u heffective
    obtain ⟨r₁, hr₁, heff₁, hid₁, hlayer₁, huser₁, -, -⟩ := hfrom r' hr' u heffective'
    have hsame := hsound.periods u r₀ hr₀ r₁ hr₁ (by rw [hlayer₀, hlayer₁, hlayer])
      (by rw [huser₀, huser₁, huser]) heff₀ heff₁
    exact IdTable.eq_of_id hr hr' (by rw [← hid₀, ← hid₁, hsame])
  · intro r hr u hu heffective
    obtain ⟨r₀, hr₀, -, -, -, -, -, rfl | ⟨-, hbefore⟩⟩ := hfrom r hr u heffective
    · exact hsound.onCall _ hr₀ u (hclock.trans hu) heffective
    · exact absurd hu (not_le_of_gt hbefore)

/-- Time that passes takes nothing back. -/
theorem Sound.later (hsound : Sound t clock) (hclock : clock ≤ now) : Sound t now :=
  ⟨hsound.positions, hsound.periods, fun m hm u hu => hsound.onCall m hm u (hclock.trans hu)⟩

/-- Rows that have ended stay. -/
theorem ended_saveClosed (hm : m ∈ t.rows) (hopen : m.endsAt = none) : ∀ r ∈ t.rows,
    ∀ stop ∈ r.endsAt, stop ≤ now → r ∈ (t.save (m.closed now)).rows := by
  intro r hr stop hstop _
  refine (mem_saveClosed hm).mpr (.inl ⟨hr, fun hid => ?_⟩)
  rw [IdTable.eq_of_id hr hm hid, hopen] at hstop
  cases hstop

/-- The closed member itself is no obstacle to the addition that follows. -/
theorem occupied_saveClosed_iff (hm : m ∈ t.rows) :
    Occupied (t.save (m.closed now)) layer m.user position at' ↔
      Occupied t layer m.user position at' := by
  unfold Occupied
  constructor
  · rintro ⟨r, hr, hlayer, hposition, hactive, huser, hstart⟩
    rcases (mem_saveClosed hm).mp hr with ⟨hr, -⟩ | rfl
    · exact ⟨r, hr, hlayer, hposition, hactive, huser, hstart⟩
    · cases hactive
  · rintro ⟨r, hr, hlayer, hposition, hactive, huser, hstart⟩
    refine ⟨r, (mem_saveClosed hm).mpr (.inl ⟨hr, fun hid => huser ?_⟩), hlayer, hposition, hactive,
      huser, hstart⟩
    rw [IdTable.eq_of_id hr hm hid]

/-- Whether an addition fits does not depend on the row that the update has closed. -/
theorem addFits_saveClosed_iff (hm : m ∈ t.rows) (hopen : m.endsAt = none) :
    AddFits (t.save (m.closed now)) now layer m.user position now ↔
      AddFits t now layer m.user position now := by
  -- the row that is closed is of the member itself, and ends now
  constructor
  · rintro ⟨hlater, hbefore, -⟩
    refine ⟨?_, ?_, fun _ _ _ => .inl le_rfl⟩
    · intro r hr hlayer hposition hactive huser
      refine hlater r ((mem_saveClosed hm).mpr (.inl ⟨hr, fun hid => huser ?_⟩)) hlayer hposition
        hactive huser
      rw [IdTable.eq_of_id hr hm hid]
    · intro r hr hlayer huser stop hstop
      refine hbefore r ((mem_saveClosed hm).mpr (.inl ⟨hr, fun hid => ?_⟩)) hlayer huser stop hstop
      rw [IdTable.eq_of_id hr hm hid, hopen] at hstop
      cases hstop
  · rintro ⟨hlater, hbefore, -⟩
    refine ⟨?_, ?_, fun _ _ _ => .inl le_rfl⟩
    · intro r hr hlayer hposition hactive huser
      rcases (mem_saveClosed hm).mp hr with ⟨hr, -⟩ | rfl
      · exact hlater r hr hlayer hposition hactive huser
      · exact absurd rfl huser
    · intro r hr hlayer huser stop hstop
      rcases (mem_saveClosed hm).mp hr with ⟨hr, -⟩ | rfl
      · exact hbefore r hr hlayer huser stop hstop
      · obtain rfl := Option.some.inj hstop
        exact .inl le_rfl

end Close

/-! ## Calls -/

section Kept

variable {t : Members} {clock now : Instant}

/-- The call leaves a sound table of open periods, and the history as it was. -/
structure Kept (t : Members) (now : Instant) (result : Except String ℕ × Members) : Prop where
  sound : Sound result.2 now
  history : KeepsHistory t now result

theorem kept_unchanged (hsound : Sound t clock) (hclock : clock ≤ now) (outcome : Except String ℕ) :
    Kept t now (outcome, t) where
  sound := hsound.later hclock
  history := ⟨fun _ hm _ _ _ => hm, fun _ _ => rfl⟩

/-- An addition is refused, or it fits. -/
theorem kept_add_iff (h : OpenActive t) (hsound : Sound t clock) (hclock : clock ≤ now)
    {layer user : Id} {position : ℤ} (startsAt : Option Instant) :
    Kept t now (addRotationLayerMember t now layer user position startsAt) ↔
      (¬Occupied t layer user position (startsAt.getD now) →
        AddFits t now layer user position (startsAt.getD now)) := by
  rcases @addRotationLayerMember_cases t now layer user position h startsAt with
    ⟨hoccupied, htable, -⟩ | ⟨hfree, htable, id, hok⟩
  · refine iff_of_true ?_ fun hfree => absurd hoccupied hfree
    rw [show addRotationLayerMember t now layer user position startsAt =
      ((addRotationLayerMember t now layer user position startsAt).1, t) from
        Prod.ext rfl htable]
    exact kept_unchanged hsound hclock _
  · rw [forall_prop_of_true hfree, ← sound_added_iff h hsound hclock hfree]
    refine ⟨fun hkept => htable ▸ hkept.sound, fun hafter => ⟨htable ▸ hafter, ?_, ?_⟩⟩
    · rw [htable]
      exact ended_added now
    · intro error herror
      rw [hok] at herror
      cases herror

/-- After an addition active rows are open, whether it was refused or not. -/
theorem openActive_add (h : OpenActive t) {layer user : Id} {position : ℤ}
    (startsAt : Option Instant) :
    OpenActive (addRotationLayerMember t now layer user position startsAt).2 := by
  rcases @addRotationLayerMember_cases t now layer user position h startsAt with ⟨-, htable, -⟩ | ⟨-, htable, -⟩
  · rwa [htable]
  · rw [htable]
    exact h.added

/-- Writing a row as it is changes nothing. -/
theorem save_self {m : RotationLayerMember} (hm : m ∈ t.rows) : (t.save m).rows = t.rows := by
  refine (List.map_congr_left fun r hr => ?_).trans (List.map_id _)
  by_cases hid : r.id = m.id
  · simp only [hid, decide_true, if_true]
    exact IdTable.eq_of_id hm hr hid.symm
  · simp only [hid, decide_false, Bool.false_eq_true, if_false]
    rfl

/-- **Closing a row now** keeps what has ended and makes no overlap. -/
theorem kept_close (h : OpenActive t) (hsound : Sound t clock) (hclock : clock ≤ now)
    {m : RotationLayerMember} (hm : m ∈ t.rows) (id : ℕ) :
    OpenActive (closeMember t now m) ∧ Kept t now (.ok id, closeMember t now m) := by
  rw [closeMember_eq h hm]
  -- an open row is closed now
  by_cases hopen : m.endsAt = none
  · rw [if_pos hopen]
    exact ⟨h.saveClosed hm, sound_saveClosed hsound hclock hm hopen, ended_saveClosed hm hopen,
      nofun⟩
  -- one that has ended is written as it was
  · rw [if_neg hopen]
    have hrows := save_self hm
    refine ⟨fun r hr => h r (hrows ▸ hr), ?_, ?_, nofun⟩
    · obtain ⟨hpositions, hperiods, honCall⟩ := hsound.later hclock
      refine ⟨?_, ?_, ?_⟩
      · show ∀ _, ∀ m' ∈ (t.save m).rows, ∀ m'' ∈ (t.save m).rows, _
        rwa [hrows]
      · show ∀ _, ∀ m' ∈ (t.save m).rows, ∀ m'' ∈ (t.save m).rows, _
        rwa [hrows]
      · show ∀ m' ∈ (t.save m).rows, _
        rwa [hrows]
    · intro r hr stop _ _
      show r ∈ (t.save m).rows
      rwa [hrows]

/-- A change of position is not refused, and fits. -/
theorem kept_move_iff (h : OpenActive t) (hsound : Sound t clock) (hclock : clock ≤ now)
    {m : RotationLayerMember} (hm : m ∈ t.rows) (hopen : m.endsAt = none) {position : ℤ} :
    Kept t now (addRotationLayerMember (t.save (m.closed now)) now m.layer m.user position (some now)) ↔
      ¬Occupied t m.layer m.user position now ∧ AddFits t now m.layer m.user position now := by
  have hclosed : OpenActive (t.save (m.closed now)) := h.saveClosed hm
  have hkept := @kept_add_iff _ now now hclosed
    (sound_saveClosed hsound hclock hm hopen) le_rfl m.layer m.user position (some now)
  rw [Option.getD_some, occupied_saveClosed_iff hm, addFits_saveClosed_iff hm hopen] at hkept
  -- the position is occupied, or the member is added again
  rcases @addRotationLayerMember_cases _ now m.layer m.user position hclosed (some now) with ⟨hoccupied, htable, error, herror⟩ | ⟨hfree, htable, id, hok⟩
  · -- refused: the member stays closed
    rw [Option.getD_some, occupied_saveClosed_iff hm] at hoccupied
    refine iff_of_false (fun hafter => ?_) fun hboth => hboth.1 hoccupied
    have hsame := hafter.history.raised error herror
    rw [htable] at hsame
    have hmember : m.closed now ∈ t.rows := hsame ▸ (mem_saveClosed hm).mpr (.inr rfl)
    have heq := IdTable.eq_of_id hmember hm rfl
    rw [← heq] at hopen
    cases hopen
  -- the addition is what the request leaves
  · rw [Option.getD_some, occupied_saveClosed_iff hm] at hfree
    rw [and_iff_right hfree, ← forall_prop_of_true (q := fun _ => AddFits t now _ _ _ _) hfree, ← hkept]
    refine ⟨fun hafter => ⟨hafter.sound, ?_, ?_⟩, fun hafter => ⟨hafter.sound, ?_, ?_⟩⟩
    · rw [htable]
      exact ended_added now
    · intro error herror
      rw [hok] at herror
      cases herror
    · intro r hr stop hstop hle
      exact hafter.history.ended r (ended_saveClosed hm hopen r hr stop hstop hle) stop hstop hle
    · intro error herror
      rw [hok] at herror
      cases herror

end Kept

/-! ## Runs -/

namespace Roster

/-- The table and the history behind a call. -/
def StepKept (s : Roster) (l : TimedCall) : Prop := Kept s.members (s.clock + l.after) (s.run l)

/-- An addition that is not refused fits; a change of position is not refused either. -/
def Fits (s : Roster) (l : TimedCall) : Prop :=
  let now := s.clock + l.after
  match l.call with
  | .add layer user position startsAt =>
    ¬Occupied s.members layer user position (startsAt.getD now) →
      AddFits s.members now layer user position (startsAt.getD now)
  | .update memberId position active => ∀ m ∈ s.members.get memberId, active = true →
      if m.endsAt.isSome then ¬Occupied s.members m.layer m.user position now →
        AddFits s.members now m.layer m.user position now
      else position ≠ m.position →
        ¬Occupied s.members m.layer m.user position now ∧
          AddFits s.members now m.layer m.user position now
  | .delete _ => True

instance decidableFits (s : Roster) : (l : TimedCall) → Decidable (s.Fits l)
  | ⟨after, .add layer user position startsAt⟩ =>
    inferInstanceAs (Decidable (¬Occupied s.members layer user position
      (startsAt.getD (s.clock + after)) → AddFits s.members (s.clock + after) layer user position
        (startsAt.getD (s.clock + after))))
  | ⟨after, .update memberId position active⟩ =>
    inferInstanceAs (Decidable (∀ m ∈ s.members.get memberId, active = true →
      if m.endsAt.isSome then ¬Occupied s.members m.layer m.user position (s.clock + after) →
        AddFits s.members (s.clock + after) m.layer m.user position (s.clock + after)
      else position ≠ m.position →
        ¬Occupied s.members m.layer m.user position (s.clock + after) ∧
          AddFits s.members (s.clock + after) m.layer m.user position (s.clock + after)))
  | ⟨_, .delete _⟩ => inferInstanceAs (Decidable True)

/-- What holds between the calls. -/
structure Orderly (s : Roster) : Prop where
  openActive : OpenActive s.members
  sound : Sound s.members s.clock

variable {s : Roster} {l : TimedCall}

theorem clock_le (s : Roster) (n : ℕ) : s.clock ≤ s.clock + n :=
  le_add_of_nonneg_right (Int.natCast_nonneg n)

/-- **An update** closes the row and adds it anew: it is kept exactly when that addition fits.
-/
theorem update_spec (h : s.Orderly) (after : ℕ) (memberId : ℕ) (position : ℤ) (active : Bool) :
    OpenActive (s.run ⟨after, .update memberId position active⟩).2 ∧
      (s.StepKept ⟨after, .update memberId position active⟩ ↔
        s.Fits ⟨after, .update memberId position active⟩) := by
  obtain ⟨hactive, hsound⟩ := h
  have hclock := clock_le s after
  unfold StepKept Fits run
  dsimp only
  generalize s.clock + (after : ℤ) = now at hclock ⊢
  unfold updateRotationLayerMember
  cases hget : s.members.get memberId with
  -- without the row nothing is done
  | none => exact ⟨hactive, iff_of_true (kept_unchanged hsound hclock _) nofun⟩
  | some m =>
    obtain ⟨hm, -⟩ := IdTable.get_eq_some.mp hget
    simp only [Option.mem_some, forall_eq']
    cases active with
    | false =>
      obtain ⟨hopen, hkept⟩ := kept_close hactive hsound hclock hm m.id
      exact ⟨hopen, iff_of_true hkept nofun⟩
    | true =>
      rw [forall_prop_of_true rfl, hactive m hm, Bool.not_true, if_neg Bool.false_ne_true]
      -- a row that has ended is not closed again
      cases hends : m.endsAt with
      | some stop =>
        exact ⟨openActive_add hactive _, kept_add_iff hactive hsound hclock (some now)⟩
      | none =>
        simp only [Option.isSome_none, Option.isNone_none, Bool.not_true, Bool.or_self,
          Bool.false_eq_true, if_false]
        by_cases hposition : position = m.position
        · rw [if_neg (not_not_intro hposition)]
          exact ⟨hactive, iff_of_true (kept_unchanged hsound hclock _)
            fun hother => absurd hposition hother⟩
        · rw [if_pos hposition, forall_prop_of_true hposition]
          exact ⟨openActive_add (hactive.saveClosed hm) _,
            kept_move_iff hactive hsound hclock hm hends⟩

/-- A call keeps what it should exactly when it fits. -/
theorem step_spec (h : s.Orderly) :
    OpenActive (s.run l).2 ∧ (s.StepKept l ↔ s.Fits l) := by
  obtain ⟨after, call⟩ := l
  have hclock := clock_le s after
  cases call with
  | add layer user position startsAt =>
    exact ⟨openActive_add h.openActive startsAt,
      kept_add_iff h.openActive h.sound hclock startsAt⟩
  | update memberId position active => exact update_spec h after memberId position active
  | delete memberId =>
    unfold StepKept Fits run deleteRotationLayerMember
    dsimp only
    cases hget : s.members.get memberId with
    | none => exact ⟨h.openActive, iff_of_true (kept_unchanged h.sound hclock _) trivial⟩
    | some m =>
      obtain ⟨hm, -⟩ := IdTable.get_eq_some.mp hget
      obtain ⟨hopen, hkept⟩ := kept_close h.openActive h.sound hclock hm m.id
      exact ⟨hopen, iff_of_true hkept trivial⟩

theorem orderly_next (h : s.Orderly) (hfits : s.Fits l) : (s.next l).Orderly :=
  ⟨(step_spec h).1, ((step_spec h).2.mpr hfits).sound⟩

/-- **Over a run the membership history is kept exactly when every call fits.** -/
theorem membership_kept_iff (h : s.Orderly) (ls : List TimedCall) :
    Along next StepKept s ls ↔ Along next Fits s ls :=
  along_iff (I := Orderly) (fun _ _ h => (step_spec h).2) (fun _ _ h hfits => orderly_next h hfits) h ls

/-- Nobody is a member yet. -/
def empty : Roster := { members := .empty, clock := 0 }

theorem empty_orderly : empty.Orderly where
  openActive := nofun
  sound := ⟨nofun, nofun, nofun⟩

/-- Two members, one of whom wants the position of the other. -/
def takeover : List TimedCall :=
  [⟨0, .add 1 1 0 none⟩, ⟨0, .add 1 2 1 none⟩, ⟨60, .update 1 1 true⟩]

/-- **The refused change of position has closed the member.** -/
theorem refused_update_closes : ¬∀ (s : Roster) (ls : List TimedCall), s.Orderly →
    Along next StepKept s ls := by
  intro h
  obtain ⟨-, -, hkept, -⟩ := h empty takeover empty_orderly
  have hraised := congrArg IdTable.rows (hkept.history.raised _ rfl)
  exact absurd hraised (by decide +kernel)

/-- One member moves to a free position and is put back, the other one leaves. -/
def moves : List TimedCall :=
  [⟨0, .add 1 1 0 none⟩, ⟨0, .add 1 2 1 none⟩, ⟨60, .update 1 2 true⟩, ⟨60, .delete 2⟩,
    ⟨60, .update 3 1 true⟩]

/-- A move to a position that nobody holds fits. -/
theorem membership_kept_sample :
    (moves.foldl next empty).members.rows.length = 4 ∧ Along next StepKept empty moves :=
  ⟨by decide +kernel, (membership_kept_iff empty_orderly moves).mpr (by decide +kernel)⟩

end Roster

end IncidentRelay.Rotations
