import IncidentRelay.Lib.Result
import IncidentRelay.Rbac.Authorization
import IncidentRelay.Rbac.Scopes
import Mathlib.Data.String.Basic

/-!
# Personal API tokens

`create_profile_token` mints a token for the user of the request. The scopes of
the new token are checked against the token of the request; its group is what
the payload names, and nothing compares it with the group of that token.
-/

namespace IncidentRelay.Rbac

/-- How a view ends without its result. -/
inductive Failure where
  | response (r : Response)
  | raised (exception : String)
  deriving DecidableEq

/-- `ProfileTokenCreateSchema`. -/
structure ProfileTokenCreate where
  name : String := "personal-api-token"
  groupId : Option Id := none
  scopes : List String := ["alerts:read"]
  days : Nat := 0

/-- `sorted(scopes)`. -/
def sortedScopes (scopes : List String) : List String :=
  scopes.insertionSort (· ≤ ·)

def scopeList (scopes : List String) : Json :=
  .list ((sortedScopes scopes).map .str)

/-- The requested set: the payload's scopes, or the default. -/
def requestedScopeSet (scopes : List String) : List String :=
  (if scopes.isEmpty then ["alerts:read"] else scopes).dedup

/-- Unknown scopes are rejected. -/
def rejectUnknown (requested : List String) : Except Failure Unit :=
  let unknown := requested.filter (· ∉ allowedProfileTokenScopes)
  reject (!unknown.isEmpty) (.response ⟨[
    ("error", .str "Unknown token scopes"),
    ("unknown_scopes", scopeList unknown)], 400⟩)

/-- The wildcard is for administrators. -/
def rejectWildcard (req : Request) (requested : List String) : Except Failure Unit :=
  if "*" ∈ requested then
    match req.currentUser with
    | none => .error (.raised "AttributeError")
    | some user => reject (!user.isAdmin)
        (.response ⟨[("error", .str "Wildcard scope is allowed for admin users only")], 403⟩)
  else .ok ()

/-- A token creates no token with broader scopes than its own. -/
def rejectBroader (req : Request) (requested : List String) : Except Failure Unit :=
  match req.currentApiToken with
  | none => .ok ()
  | some token => reject (!tokenCanGrantScopes token.scopes requested) (.response ⟨[
      ("error", .str "Cannot create a token with broader scopes than the current token"),
      ("allowed_scopes", scopeList token.scopes.dedup),
      ("requested_scopes", scopeList requested)], 403⟩)

/-- `validate_profile_token_scopes`. -/
def validateProfileTokenScopes (req : Request) (requestedScopes : List String) :
    Except Failure (List String) := do
  let requested := requestedScopeSet requestedScopes
  rejectUnknown requested
  rejectWildcard req requested
  rejectBroader req requested
  .ok (sortedScopes requested)

/-- The group check of `create_profile_token`. -/
def profileTokenGroup (db : Db) (req : Request) (groupId : Option Id) :
    Except Failure (Option Id) :=
  match groupId with
  | none => .ok none
  | some group => do
    reject (!canReadGroup db req.currentUser group)
      (.response ⟨[("error", .str "Access to this group is denied")], 403⟩)
    .ok (some group)

/-- `create_profile_token`, for a fresh raw token; `hash` is `hash_token` and
`now` counts days. -/
def createProfileToken (hash : String → String) (db : Db) (req : Request)
    (payload : ProfileTokenCreate) (rawToken : String) (now : Int) : Except Failure ApiToken := do
  let scopes ← validateProfileTokenScopes req payload.scopes
  let group ← profileTokenGroup db req payload.groupId
  match req.currentUser with
  | none => .error (.raised "AttributeError")
  | some user =>
    .ok { name := payload.name
          tokenPrefix := (rawToken.take 12).toString
          tokenHash := hash rawToken
          scopes
          user := some user.id
          group
          expiresAt := if payload.days = 0 then none else some (now + payload.days) }

/-! ## What a minted token carries -/

theorem mem_sortedScopes {scopes : List String} {scope : String} :
    scope ∈ sortedScopes scopes ↔ scope ∈ scopes :=
  (List.perm_insertionSort _ _).mem_iff

/-- Scope sets with the same members allow the same. -/
theorem allows_of_subset {a b : List String} (h : ∀ s ∈ b, s ∈ a) : Allows a b := by
  intro scope hscope
  rw [tokenHasScopes_singleton] at hscope ⊢
  by_cases hstar : "*" ∈ a
  · exact .inl hstar
  have hstar' : "*" ∉ b := fun hmem => hstar (h _ hmem)
  rcases hscope with hscope | hscope
  · exact absurd hscope hstar'
  right
  rw [mem_expandTokenScopes hstar'] at hscope
  rw [mem_expandTokenScopes hstar]
  rcases hscope with hm | ⟨hm, hin⟩ | ⟨hm, hin⟩
  · exact .inl (h _ hm)
  · exact .inr (.inl ⟨h _ hm, hin⟩)
  · exact .inr (.inr ⟨h _ hm, hin⟩)

/-- Accepted scopes are within those of the token of the request. -/
theorem validateProfileTokenScopes_allows {req : Request} {token : ApiToken}
    {requested scopes : List String} (htoken : req.currentApiToken = some token)
    (h : validateProfileTokenScopes req requested = .ok scopes) :
    Allows token.scopes scopes := by
  unfold validateProfileTokenScopes at h
  obtain ⟨_, -, h⟩ := bind_eq_ok.mp h
  obtain ⟨_, -, h⟩ := bind_eq_ok.mp h
  obtain ⟨_, hbroader, h⟩ := bind_eq_ok.mp h
  obtain rfl := Except.ok.inj h
  simp only [rejectBroader, htoken, reject_eq_ok, Bool.not_eq_false'] at hbroader
  exact (tokenHasScopes_of_grant hbroader).trans
    (allows_of_subset fun s hs => mem_sortedScopes.mp hs)

/-- **A mint.** The new token has the group the payload names, if any, and
scopes within those of the token it was minted with. -/
theorem createProfileToken_spec {hash : String → String} {db : Db} {req : Request}
    {payload : ProfileTokenCreate} {rawToken : String} {now : Int} {token minted : ApiToken}
    (htoken : req.currentApiToken = some token)
    (h : createProfileToken hash db req payload rawToken now = .ok minted) :
    minted.group = payload.groupId ∧ Allows token.scopes minted.scopes := by
  unfold createProfileToken at h
  obtain ⟨scopes, hscopes, h⟩ := bind_eq_ok.mp h
  obtain ⟨group, hgroup, h⟩ := bind_eq_ok.mp h
  have hpayload : group = payload.groupId := by
    cases hp : payload.groupId with
    | none =>
      rw [hp] at hgroup
      exact (Except.ok.inj hgroup).symm
    | some g =>
      rw [hp] at hgroup
      obtain ⟨_, -, hgroup⟩ := bind_eq_ok.mp hgroup
      exact (Except.ok.inj hgroup).symm
  cases huser : req.currentUser with
  | none =>
    rw [huser] at h
    exact absurd h (by simp)
  | some user =>
    rw [huser] at h
    obtain rfl := Except.ok.inj h
    exact ⟨hpayload, validateProfileTokenScopes_allows htoken hscopes⟩

end IncidentRelay.Rbac
