import Mathlib.Data.PNat.Basic
import Mathlib.Tactic.Common

/-!
# Groups and teams

A group is a tenant and a team works inside one. Row ids come from a sequence
that starts at one, so the truth value of an optional id is whether it is there.
-/

namespace IncidentRelay

/-- A primary key. -/
abbrev Id := ℕ+

instance (n : ℕ) : OfNat Id (n + 1) := ⟨n.succPNat⟩

structure Group where
  id : Id
  active : Bool
  deleted : Bool
  deriving DecidableEq

structure Team where
  id : Id
  group : Option Id
  active : Bool
  deleted : Bool
  deriving DecidableEq

/-- The group is there, active and not deleted. -/
def groupLive (groups : List Group) (groupId : Id) : Bool :=
  groups.any fun g => g.id = groupId ∧ g.active = true ∧ g.deleted = false

/-- The team is there, active and not deleted. -/
def teamLive (teams : List Team) (teamId : Id) : Bool :=
  teams.any fun t => t.id = teamId ∧ t.active = true ∧ t.deleted = false

end IncidentRelay
