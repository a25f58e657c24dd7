import IncidentRelay.Lib.IdTable
import IncidentRelay.Lib.Result
import IncidentRelay.Orchestration.Definitions

/-!
# Versions of an orchestration

Drafts are created, edited, archived and published, and an earlier version is published
again by a rollback, which copies its rules into a new draft. Every operation runs in one
transaction under the lock of its orchestration or its version, so an error leaves nothing
behind (`next`).
-/

namespace IncidentRelay.Orchestration

open Json

/-! ## Tables -/

inductive VersionStatus where
  | draft
  | published
  | archived
  deriving DecidableEq, Repr

structure EventOrchestration where
  id : ℕ
  group : ℕ
  scope : Scope
  service : Option ℕ
  activeVersionId : Option ℕ
  /-- `deleted` is set, or `deleted_at` -/
  deleted : Bool
  deriving DecidableEq, Repr

structure EventOrchestrationVersion where
  id : ℕ
  orchestration : ℕ
  versionNumber : ℕ
  status : VersionStatus
  definitionJson : Dict
  comment : Option String
  publishedAt : Option ℕ
  deriving DecidableEq, Repr

/-- The three tables, and the groups of the services. -/
structure Repository where
  orchestrations : IdTable EventOrchestration (·.id)
  versions : IdTable EventOrchestrationVersion (·.id)
  rules : TreeTable ℕ RuleColumns
  serviceGroupId : ℕ → Option ℕ

/-- The messages of `validate_rule_definition`, errors and warnings, and those of
`_validate_action_references`. -/
structure Validators where
  ruleDefinition : Json → Json → String → List String × List String
  actionReferences : Json → ℕ → String → List String

abbrev RuleRow := TreeRow ℕ RuleColumns

namespace Repository

/-! ## Lookups -/

def lockedOrchestration (s : Repository) (id : ℕ) : Except RepoError EventOrchestration :=
  match s.orchestrations.get id with
  | some o => if o.deleted then .error (.notFound "Orchestration not found") else .ok o
  | none => .error (.notFound "Orchestration not found")

/-- `_get_version` and `_locked_version` -/
def getVersion (s : Repository) (id : ℕ) : Except RepoError EventOrchestrationVersion :=
  match s.versions.get id with
  | some v => .ok v
  | none => .error (.notFound "Orchestration version not found")

def versionsOf (s : Repository) (o : ℕ) : List EventOrchestrationVersion :=
  s.versions.rows.filter fun v => v.orchestration = o

def nextVersionNumber (s : Repository) (o : ℕ) : ℕ :=
  ((s.versionsOf o).map (·.versionNumber)).foldr max 0 + 1

/-- The draft with the highest version number. -/
def getDraft (s : Repository) (o : ℕ) : Option EventOrchestrationVersion :=
  ((s.versionsOf o).filter fun v => v.status = .draft).argmax (·.versionNumber)

def assertDraft (v : EventOrchestrationVersion) : Except RepoError Unit :=
  reject (v.status ≠ .draft) (.conflict "Only draft versions can be edited")

/-! ## Rules -/

/-- `_create_rule_tree` -/
def createRuleTree (s : Repository) (version : ℕ) (rules : List Json) :
    Except RepoError Repository := do
  let trees ← readRules 0 rules
  return { s with rules := s.rules.create version trees }

/-- `export_version` -/
def exportVersion (s : Repository) (o : EventOrchestration) (version : ℕ) : Dict :=
  [("schema_version", .int 1), ("scope", .str o.scope.text),
    ("service_id", match o.service with | none => .null | some id => .int id),
    ("rules", .list (serializeRules (s.rules.forest version)))]

/-- `definition.get("rules") or []` of an exported definition -/
def definitionRules (definition : Dict) : List Json :=
  match definition.getD "rules" with
  | .list rules => rules
  | _ => []

def cloneVersionRules (s : Repository) (source : EventOrchestrationVersion) (o : EventOrchestration)
    (target : ℕ) : Except RepoError Repository :=
  s.createRuleTree target (definitionRules (s.exportVersion o source.id))

/-! ## Validation -/

def rulePath (r : RuleRow) : String := "rule " ++ toString r.id ++ " (" ++ r.label.name ++ ")"

/-- What `validate_version` says about one rule, after the rules in front of it. -/
def ruleMessages (s : Repository) (checks : Validators) (o : EventOrchestration) (version : ℕ)
    (earlier : List RuleRow) (r : RuleRow) : List String × List String :=
  let path := rulePath r
  let isDict := match r.label.conditionTree with | .obj _ => true | _ => false
  let isList := match r.label.actions with | .list _ => true | _ => false
  let shape := (if isDict then [] else [path ++ ": condition_tree must be an object"]) ++
    (if isList then [] else [path ++ ": actions must be a list"])
  let verdict := if isDict && isList then
    checks.ruleDefinition r.label.conditionTree r.label.actions path else ([], [])
  let traceLevel := if isDict && isList && o.scope = .service &&
      (actionList r.label.actions).any (hasType "set_trace_level") then
    [path ++ ": set_trace_level is only supported in global orchestrations"] else []
  let parent := match r.parent with
    | none => []
    | some id =>
      if (s.rules.rows.find? (·.id = id)).map (·.owner) = some version then []
      else [path ++ ": parent belongs to another version"]
  let position := if earlier.any (fun e => e.parent = r.parent && e.position = r.position) then
    [path ++ ": duplicate sibling position " ++ toString r.position] else []
  (shape ++ verdict.1 ++ traceLevel ++ parent ++ position ++
    checks.actionReferences r.label.actions o.group path, verdict.2)

/-- The loop over the rules, in the order of their ids. -/
def rulesMessages (s : Repository) (checks : Validators) (o : EventOrchestration) (version : ℕ)
    (earlier : List RuleRow) : List RuleRow → List String × List String
  | [] => ([], [])
  | r :: rest =>
    let messages := s.ruleMessages checks o version earlier r
    let others := rulesMessages s checks o version (earlier ++ [r]) rest
    (messages.1 ++ others.1, messages.2 ++ others.2)

def scopeErrors (s : Repository) (o : EventOrchestration) : List String :=
  match o.scope, o.service with
  | .global, some _ => ["global orchestration cannot reference a service"]
  | .global, none => []
  | .service, none => ["service-scoped orchestration requires a service"]
  | .service, some id =>
    if s.serviceGroupId id = some o.group then []
    else ["service-scoped orchestration references another group"]

/-- `validate_version`, errors and warnings. -/
def validateVersion (s : Repository) (checks : Validators) (o : EventOrchestration) (version : ℕ) :
    List String × List String :=
  let rows := s.rules.rowsOf version
  let messages := s.rulesMessages checks o version [] rows
  (s.scopeErrors o ++ messages.1,
    (if rows.isEmpty then ["orchestration version has no rules"] else []) ++ messages.2)

/-! ## Operations -/

/-- A new draft: `EventOrchestrationVersion.create(…)`. -/
def createDraft (s : Repository) (o : ℕ) (comment : Option String) :
    Repository × EventOrchestrationVersion :=
  let draft : EventOrchestrationVersion :=
    { id := s.versions.next, orchestration := o, versionNumber := s.nextVersionNumber o,
      status := .draft, definitionJson := [], comment := comment, publishedAt := none }
  ({ s with versions := s.versions.insert draft rfl }, draft)

/-- Under the lock of the orchestration no other creator takes the version number, so the
insert succeeds. -/
def getOrCreateDraft (s : Repository) (o : ℕ) (comment : Option String) :
    Except RepoError (Repository × EventOrchestrationVersion) := do
  let orchestration ← s.lockedOrchestration o
  match s.getDraft o with
  | some draft => return (s, draft)
  | none =>
    let (s, draft) := s.createDraft o comment
    match orchestration.activeVersionId with
    | none => return (s, draft)
    | some id =>
      let active ← s.getVersion id
      reject (active.orchestration ≠ o)
        (.conflict "Active version does not belong to the orchestration")
      let s ← s.cloneVersionRules active orchestration draft.id
      return (s, draft)

def replaceDraftRules (s : Repository) (version : ℕ) (rules : List Json) :
    Except RepoError (Repository × EventOrchestrationVersion) := do
  let v ← s.getVersion version
  assertDraft v
  let s ← { s with rules := s.rules.clear version }.createRuleTree version rules
  return (s, v)

def setComment (s : Repository) (version : ℕ) (comment : String) : Repository :=
  { s with
    versions := s.versions.update (fun v => v.id = version) (fun v => { v with comment := comment })
      fun _ => rfl }

def saveDraftDefinition (s : Repository) (o : ℕ) (rules : List Json) (comment : Option String) :
    Except RepoError (Repository × EventOrchestrationVersion) := do
  let (s, draft) ← s.getOrCreateDraft o comment
  let (s, draft) ← s.replaceDraftRules draft.id rules
  match comment with
  | none => return (s, draft)
  | some text =>
    let s := s.setComment draft.id text
    let draft ← s.getVersion draft.id
    return (s, draft)

/-- The rules of the draft go, and the draft is archived. -/
def discard (s : Repository) (version : ℕ) : Repository :=
  { s with
    rules := s.rules.clear version
    versions := s.versions.update (fun v => v.id = version && v.status = .draft)
      (fun v => { v with status := .archived }) fun _ => rfl }

def archiveDraft (s : Repository) (version : ℕ) :
    Except RepoError (Repository × EventOrchestrationVersion) := do
  let v ← s.getVersion version
  assertDraft v
  let s := s.discard version
  let v ← s.getVersion version
  return (s, v)

/-- The statements of a publication: the version in production is archived, the draft
published, and the orchestration points to it. -/
def activate (s : Repository) (o : EventOrchestration) (draft : ℕ) (comment : Option String)
    (now : ℕ) : Repository :=
  let definition := s.exportVersion o draft
  let archived := s.versions.update
    (fun v => v.orchestration = o.id && v.status = .published && v.id ≠ draft)
    (fun v => { v with status := .archived }) fun _ => rfl
  { s with
    versions := archived.update (fun v => v.id = draft && v.status = .draft)
      (fun v => { v with
        status := .published
        definitionJson := definition
        publishedAt := some now
        comment := comment.or v.comment }) fun _ => rfl
    orchestrations := s.orchestrations.update (fun row => row.id = o.id)
      (fun row => { row with activeVersionId := some draft }) fun _ => rfl }

def publishVersionLocked (s : Repository) (checks : Validators) (o : EventOrchestration)
    (draft : EventOrchestrationVersion) (comment : Option String) (confirmCatchAllDrop : Bool)
    (now : ℕ) : Except RepoError (Repository × EventOrchestrationVersion) := do
  reject (draft.orchestration ≠ o.id) (.conflict "Draft belongs to another orchestration")
  assertDraft draft
  let (errors, warnings) := s.validateVersion checks o draft.id
  reject (!errors.isEmpty) (.validation errors warnings)
  reject (rulesDropAll (s.rules.forest draft.id) && !confirmCatchAllDrop)
    (.validation ["catch-all drop requires explicit publish confirmation"] warnings)
  reject (Table.affected (fun v => v.id = draft.id && v.status = .draft) s.versions.rows ≠ 1)
    (.conflict "Draft changed while it was being published")
  let s := s.activate o draft.id comment now
  let v ← s.getVersion draft.id
  return (s, v)

def publishDraft (s : Repository) (checks : Validators) (o : ℕ) (comment : Option String)
    (confirmCatchAllDrop : Bool) (now : ℕ) :
    Except RepoError (Repository × EventOrchestrationVersion) := do
  let orchestration ← s.lockedOrchestration o
  match s.getDraft o with
  | none => throw (.conflict "Orchestration has no draft to publish")
  | some draft => s.publishVersionLocked checks orchestration draft comment confirmCatchAllDrop now

def rollbackToVersion (s : Repository) (checks : Validators) (o source : ℕ)
    (comment : Option String) (confirmCatchAllDrop : Bool) (now : ℕ) :
    Except RepoError (Repository × EventOrchestrationVersion) := do
  let orchestration ← s.lockedOrchestration o
  let source ← s.getVersion source
  reject (source.orchestration ≠ o)
    (.validation ["rollback source belongs to another orchestration"] [])
  reject (source.status = .draft)
    (.validation ["rollback source must be published or archived"] [])
  reject (s.getDraft o).isSome
    (.conflict "Archive or publish the existing draft before rollback")
  -- an empty comment counts as none
  let text := match comment with
    | some text => if text = "" then none else some text
    | none => none
  let (s, draft) := s.createDraft o
    (some (text.getD ("Rollback to version " ++ toString source.versionNumber)))
  let s ← s.cloneVersionRules source orchestration draft.id
  s.publishVersionLocked checks orchestration draft draft.comment confirmCatchAllDrop now

/-! ## Requests -/

inductive Request where
  | getOrCreateDraft (o : ℕ) (comment : Option String)
  | replaceDraftRules (version : ℕ) (rules : List Json)
  | saveDraftDefinition (o : ℕ) (rules : List Json) (comment : Option String)
  | archiveDraft (version : ℕ)
  | publishDraft (o : ℕ) (comment : Option String) (confirmCatchAllDrop : Bool) (now : ℕ)
  | rollbackToVersion (o source : ℕ) (comment : Option String) (confirmCatchAllDrop : Bool)
      (now : ℕ)

def handle (checks : Validators) (s : Repository) :
    Request → Except RepoError (Repository × EventOrchestrationVersion)
  | .getOrCreateDraft o comment => s.getOrCreateDraft o comment
  | .replaceDraftRules version rules => s.replaceDraftRules version rules
  | .saveDraftDefinition o rules comment => s.saveDraftDefinition o rules comment
  | .archiveDraft version => s.archiveDraft version
  | .publishDraft o comment confirm now => s.publishDraft checks o comment confirm now
  | .rollbackToVersion o source comment confirm now =>
    s.rollbackToVersion checks o source comment confirm now

/-- The transaction of a request that raises is rolled back. -/
def next (checks : Validators) (s : Repository) (request : Request) : Repository :=
  match s.handle checks request with
  | .ok (t, _) => t
  | .error _ => s

end Repository

end IncidentRelay.Orchestration
