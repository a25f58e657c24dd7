import Mathlib.Data.List.Basic
import Mathlib.Tactic.Common

/-!
# Token scopes

The scope lists of the service, the effective scopes of a token, and the rule by
which a token grants scopes to another one. The rule is sound: what a granted
set allows, the granting set allows (`tokenHasScopes_of_grant`).
-/

namespace IncidentRelay.Rbac

def readWriteScopeDomains : List String :=
  ["alerts", "incidents", "services", "teams", "groups", "users", "rotations", "calendar",
   "routes", "channels", "maintenance", "heartbeats", "policies", "orchestrations", "sso",
   "profile"]

def readOnlyScopeDomains : List String := ["audit"]

def granularReadScopes : List String :=
  (readWriteScopeDomains ++ readOnlyScopeDomains).map (· ++ ":read")

def granularWriteScopes : List String := readWriteScopeDomains.map (· ++ ":write")

def legacyAggregateScopes : List String := ["resources:read", "resources:write"]

/-- `ALLOWED_PROFILE_TOKEN_SCOPES`. -/
def allowedProfileTokenScopes : List String :=
  granularReadScopes ++ granularWriteScopes ++ legacyAggregateScopes ++ ["*"]

def legacyResourceDomains : List String :=
  ["incidents", "services", "teams", "groups", "users", "rotations", "calendar", "routes",
   "channels", "maintenance", "heartbeats", "policies", "orchestrations", "audit", "sso"]

/-- What an aggregate scope stands for. -/
def aggregateScopes (suffix : String) : List String :=
  (legacyResourceDomains.map (· ++ suffix)).filter (· ∈ allowedProfileTokenScopes)

/-- `expand_token_scopes`. -/
def expandTokenScopes (scopes : List String) : List String :=
  if "*" ∈ scopes then scopes ++ allowedProfileTokenScopes
  else
    scopes ++ (if "resources:read" ∈ scopes then aggregateScopes ":read" else []) ++
      (if "resources:write" ∈ scopes then aggregateScopes ":write" else [])

/-- `token_has_scopes`. -/
def tokenHasScopes (tokenScopes requiredScopes : List String) : Bool :=
  if requiredScopes.isEmpty then true
  else if "*" ∈ tokenScopes then true
  else requiredScopes.all (· ∈ expandTokenScopes tokenScopes)

/-- `token_can_grant_scopes`. -/
def tokenCanGrantScopes (currentScopes requestedScopes : List String) : Bool :=
  if "*" ∈ currentScopes then true
  else requestedScopes.all fun scope =>
    if scope = "*" then false
    else if scope ∈ legacyAggregateScopes then scope ∈ currentScopes
    else tokenHasScopes currentScopes [scope]

/-- The first set allows whatever the second one does. -/
def Allows (scopes granted : List String) : Prop :=
  ∀ scope, tokenHasScopes granted [scope] = true → tokenHasScopes scopes [scope] = true

theorem Allows.trans {a b c : List String} (hab : Allows a b) (hbc : Allows b c) : Allows a c := by
  intro scope h
  exact hab scope (hbc scope h)

theorem Allows.refl (a : List String) : Allows a a := fun _ h => h

theorem tokenHasScopes_singleton {scopes : List String} {scope : String} :
    tokenHasScopes scopes [scope] = true ↔ "*" ∈ scopes ∨ scope ∈ expandTokenScopes scopes := by
  by_cases hstar : "*" ∈ scopes <;> simp [tokenHasScopes, hstar]

/-- Without the wildcard, an effective scope is named or comes from an aggregate. -/
theorem mem_expandTokenScopes {scopes : List String} {scope : String} (hstar : "*" ∉ scopes) :
    scope ∈ expandTokenScopes scopes ↔
      scope ∈ scopes ∨ ("resources:read" ∈ scopes ∧ scope ∈ aggregateScopes ":read") ∨
        ("resources:write" ∈ scopes ∧ scope ∈ aggregateScopes ":write") := by
  unfold expandTokenScopes
  rw [if_neg hstar]
  by_cases hr : "resources:read" ∈ scopes <;> by_cases hw : "resources:write" ∈ scopes <;>
    simp [hr, hw]

/-- **A grant is an attenuation.** -/
theorem tokenHasScopes_of_grant {current requested : List String}
    (h : tokenCanGrantScopes current requested = true) : Allows current requested := by
  intro scope hscope
  by_cases hcurrent : "*" ∈ current
  · rw [tokenHasScopes_singleton]
    exact .inl hcurrent
  unfold tokenCanGrantScopes at h
  rw [if_neg hcurrent, List.all_eq_true] at h
  -- the wildcard is never granted, an aggregate only by itself
  have hnostar : "*" ∉ requested := by
    intro hmem
    simpa using h "*" hmem
  have hagg : ∀ s ∈ legacyAggregateScopes, s ∈ requested → s ∈ current := by
    intro s hs hmem
    have hne : s ≠ "*" := by
      rintro rfl
      exact absurd hs (by decide)
    have := h s hmem
    rw [if_neg hne, if_pos hs] at this
    simpa using this
  rw [tokenHasScopes_singleton] at hscope
  rcases hscope with hscope | hscope
  · exact absurd hscope hnostar
  rw [mem_expandTokenScopes hnostar] at hscope
  rw [tokenHasScopes_singleton]
  right
  rw [mem_expandTokenScopes hcurrent]
  rcases hscope with hmem | ⟨hmem, hin⟩ | ⟨hmem, hin⟩
  · by_cases hs : scope ∈ legacyAggregateScopes
    · exact .inl (hagg scope hs hmem)
    · have hgrant := h scope hmem
      have hne : scope ≠ "*" := by
        rintro rfl
        exact hnostar hmem
      rw [if_neg hne, if_neg hs, tokenHasScopes_singleton] at hgrant
      rcases hgrant with hgrant | hgrant
      · exact absurd hgrant hcurrent
      · exact (mem_expandTokenScopes hcurrent).mp hgrant
  · exact .inr (.inl ⟨hagg _ (by decide) hmem, hin⟩)
  · exact .inr (.inr ⟨hagg _ (by decide) hmem, hin⟩)

end IncidentRelay.Rbac
