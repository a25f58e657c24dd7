import IncidentRelay.Lib.Sweep
import IncidentRelay.Tenant
import Mathlib.Data.Prod.Lex

/-!
# The final events of a rotation

`collapse_calendar_candidates` makes one schedule of the candidates of all layers and
overrides: at each instant of the range the candidate with the greatest priority and order is
on call (`collapseCalendarCandidates_exact`). Times are those of any line, since the code
only compares them.
-/

namespace IncidentRelay.Rotations

open Sweep (Covers)

inductive CalendarEventType where
  | layer
  | override
  deriving DecidableEq

/-- The event of a candidate; its start and end are those of its span. -/
structure CalendarEvent where
  type : CalendarEventType
  rotationId : Id
  rotationName : String
  teamId : Id
  teamSlug : String
  teamName : String
  layerId : Option Id
  layerName : Option String
  layerPriority : Option ℤ
  overrideId : Option Id
  userId : Id
  username : String
  displayName : Option String
  timezone : String
  reason : Option String
  deriving DecidableEq

/-- `calendar_event_identity(event)` -/
def calendarEventIdentity (event : CalendarEvent) :
    CalendarEventType × Id × Option Id × Option Id × Id :=
  (event.type, event.rotationId, event.layerId, event.overrideId, event.userId)

/-- What a candidate brings along. -/
structure CandidateEvent where
  priority : ℤ
  order : ℤ
  event : CalendarEvent
  deriving DecidableEq

/-- The key of `max` for a time slice. -/
def CandidateEvent.rank (c : CandidateEvent) : ℤ ×ₗ ℤ := toLex (c.priority, c.order)

variable {T : Type*} [LinearOrder T]

/-- `collapse_calendar_candidates(candidates, start_at, end_at)` -/
def collapseCalendarCandidates (candidates : List (Span T CandidateEvent)) (startAt endAt : T) :
    List (Span T CalendarEvent) :=
  (Sweep.sweep CandidateEvent.rank (fun c => calendarEventIdentity c.event) startAt endAt
    candidates).map fun s => ⟨s.start, s.stop, s.value.event⟩

/-- The candidate is the one with the greatest priority and order among those that cover the
instant. -/
structure OnCall (candidates : List (Span T CandidateEvent)) (t : T) (c : Span T CandidateEvent) :
    Prop where
  mem : c ∈ candidates
  covers : Covers c t
  greatest : ∀ d ∈ candidates, Covers d t → d.value.rank ≤ c.value.rank

/-- One schedule of the candidates in a range. -/
structure Collapsed (candidates : List (Span T CandidateEvent)) (startAt endAt : T)
    (events : List (Span T CalendarEvent)) : Prop where
  ordered : events.Pairwise fun a b => a.stop ≤ b.start
  proper : ∀ e ∈ events, e.start < e.stop
  joined : events.IsChain fun a b =>
    ¬(a.stop = b.start ∧ calendarEventIdentity a.value = calendarEventIdentity b.value)
  covered : ∀ t, (∃ e ∈ events, Covers e t) ↔
    (startAt ≤ t ∧ t < endAt) ∧ ∃ c ∈ candidates, Covers c t
  attributed : ∀ e ∈ events, ∀ t, Covers e t → ∃ c, OnCall candidates t c ∧
    calendarEventIdentity c.value.event = calendarEventIdentity e.value
  begins : ∀ e ∈ events, ∃ c, OnCall candidates e.start c ∧ c.value.event = e.value
  /-- candidates of one identity, when they bring the same event, bring that of the schedule -/
  brought : (∀ c ∈ candidates, ∀ d ∈ candidates, calendarEventIdentity c.value.event =
      calendarEventIdentity d.value.event → c.value.event = d.value.event) →
    ∀ e ∈ events, ∀ t, Covers e t → ∃ c, OnCall candidates t c ∧ c.value.event = e.value

/-- The winner of the sweep is on call. -/
theorem onCall_of_best {candidates : List (Span T CandidateEvent)} {t : T}
    {c : Span T CandidateEvent} (h : Sweep.best CandidateEvent.rank candidates t = some c) :
    OnCall candidates t c := by
  obtain ⟨hmem, hcovers, hgreatest⟩ := Sweep.best_eq_some h
  exact ⟨hmem, hcovers, hgreatest⟩

/-- What the schedule says at an instant. -/
theorem collapse_winner {candidates : List (Span T CandidateEvent)} {startAt endAt t : T}
    (i : CalendarEventType × Id × Option Id × Option Id × Id) :
    Sweep.Says calendarEventIdentity (collapseCalendarCandidates candidates startAt endAt) t i ↔
      (startAt ≤ t ∧ t < endAt) ∧ ∃ c, Sweep.best CandidateEvent.rank candidates t = some c ∧
        calendarEventIdentity c.value.event = i := by
  have hsays := @Sweep.sweep_winner T CandidateEvent _ _ _ _ _ CandidateEvent.rank
    (fun c => calendarEventIdentity c.event) startAt endAt candidates t i
  refine Iff.trans ⟨?_, ?_⟩ hsays
  · rintro ⟨e, he, hcovers, hidentity⟩
    obtain ⟨s, hs, rfl⟩ := List.mem_map.mp he
    exact ⟨s, hs, hcovers, hidentity⟩
  · rintro ⟨s, hs, hcovers, hidentity⟩
    exact ⟨_, List.mem_map.mpr ⟨s, hs, rfl⟩, hcovers, hidentity⟩

/-- An event of the result covers an instant at which someone of that identity is on call. -/
theorem collapse_attributed {candidates : List (Span T CandidateEvent)} {startAt endAt t : T}
    {e : Span T CalendarEvent} (he : e ∈ collapseCalendarCandidates candidates startAt endAt)
    (hcovers : Covers e t) : (startAt ≤ t ∧ t < endAt) ∧ ∃ c, OnCall candidates t c ∧
      calendarEventIdentity c.value.event = calendarEventIdentity e.value := by
  obtain ⟨hrange, c, hbest, hidentity⟩ := (collapse_winner _).mp ⟨e, he, hcovers, rfl⟩
  exact ⟨hrange, c, onCall_of_best hbest, hidentity⟩

/-- An event is that of the candidate on call when it starts. -/
theorem collapse_begins {candidates : List (Span T CandidateEvent)} {startAt endAt : T}
    {e : Span T CalendarEvent} (he : e ∈ collapseCalendarCandidates candidates startAt endAt) :
    ∃ c, OnCall candidates e.start c ∧ c.value.event = e.value := by
  obtain ⟨s, hs, rfl⟩ := List.mem_map.mp he
  obtain ⟨c, hbest, hvalue⟩ := Sweep.sweep_start hs
  exact ⟨c, onCall_of_best hbest, congrArg CandidateEvent.event hvalue⟩

/-- **The candidates are collapsed to one schedule.** -/
theorem collapseCalendarCandidates_exact (candidates : List (Span T CandidateEvent))
    (startAt endAt : T) :
    Collapsed candidates startAt endAt (collapseCalendarCandidates candidates startAt endAt) := by
  obtain ⟨hordered, hproper, hjoined⟩ := @Sweep.sweep_lined T CandidateEvent _ _ _ _ _
    CandidateEvent.rank (fun c => calendarEventIdentity c.event) startAt endAt candidates
  refine ⟨List.pairwise_map.mpr hordered, ?_, (List.isChain_map _).mpr hjoined, ?_,
    fun e he t hcovers => (collapse_attributed he hcovers).2, fun e he => collapse_begins he, ?_⟩
  · intro e he
    obtain ⟨s, hs, rfl⟩ := List.mem_map.mp he
    exact hproper s hs
  · intro t
    constructor
    · rintro ⟨e, he, hcovers⟩
      obtain ⟨hrange, c, honCall, -⟩ := collapse_attributed he hcovers
      exact ⟨hrange, c, honCall.mem, honCall.covers⟩
    · rintro ⟨hrange, hcovered⟩
      -- somebody is on call, and so the schedule says who
      obtain ⟨c, hbest⟩ :=
        (@Sweep.exists_best T CandidateEvent (ℤ ×ₗ ℤ) _ _ CandidateEvent.rank candidates t).mpr
          hcovered
      obtain ⟨e, he, hcovers, -⟩ := (collapse_winner _).mpr ⟨hrange, c, hbest, rfl⟩
      exact ⟨e, he, hcovers⟩
  · intro hsame e he t hcovers
    obtain ⟨-, c, honCall, hidentity⟩ := collapse_attributed he hcovers
    obtain ⟨d, hbegin, hvalue⟩ := collapse_begins he
    rw [← hvalue] at hidentity
    exact ⟨c, honCall, (hsame c honCall.mem d hbegin.mem hidentity).trans hvalue⟩

end IncidentRelay.Rotations
