import IncidentRelay.Alerts.Accepted
import IncidentRelay.Alerts.Actions
import IncidentRelay.Alerts.Balance
import IncidentRelay.Alerts.Counters
import IncidentRelay.Alerts.Disposition
import IncidentRelay.Alerts.Effects
import IncidentRelay.Alerts.EventRun
import IncidentRelay.Alerts.FollowUps
import IncidentRelay.Alerts.GroupWork
import IncidentRelay.Alerts.Intake
import IncidentRelay.Alerts.Isolation
import IncidentRelay.Alerts.Merge
import IncidentRelay.Alerts.OpenLookup
import IncidentRelay.Alerts.PausedResolves
import IncidentRelay.Alerts.PriorityRuns
import IncidentRelay.Alerts.Recovery
import IncidentRelay.Alerts.RecoveryEnds
import IncidentRelay.Alerts.RecoveryRounds
import IncidentRelay.Alerts.RecoveryRuns
import IncidentRelay.Alerts.ReleaseOrder
import IncidentRelay.Alerts.Retention
import IncidentRelay.Alerts.Scheduler
import IncidentRelay.Alerts.Selection
import IncidentRelay.Alerts.SilenceLifecycle
import IncidentRelay.Alerts.SilenceRuns
import IncidentRelay.Alerts.Silences
import IncidentRelay.Alerts.StaleWrites
import IncidentRelay.Alerts.Store
import IncidentRelay.Alerts.Upsert
import IncidentRelay.Auth.ThrottleBounds
import IncidentRelay.Caldav.Ics
import IncidentRelay.Caldav.IcsFaithful
import IncidentRelay.Escalation.Intake
import IncidentRelay.Escalation.Suppression
import IncidentRelay.Escalation.Traversal
import IncidentRelay.Heartbeats.Coherence
import IncidentRelay.Heartbeats.Detection
import IncidentRelay.Heartbeats.DueInstants
import IncidentRelay.Heartbeats.Instances
import IncidentRelay.Heartbeats.Starvation
import IncidentRelay.Incidents.Core
import IncidentRelay.Incidents.Links
import IncidentRelay.Incidents.ResponderRuns
import IncidentRelay.Incidents.Responders
import IncidentRelay.Incidents.Workflow
import IncidentRelay.Integrations.RecoveryKey
import IncidentRelay.Integrations.SignedText
import IncidentRelay.Lib.Batch
import IncidentRelay.Lib.Bfs
import IncidentRelay.Lib.Checks
import IncidentRelay.Lib.ContentLines
import IncidentRelay.Lib.DateText
import IncidentRelay.Lib.DepthFirst
import IncidentRelay.Lib.Forest
import IncidentRelay.Lib.KeyTable
import IncidentRelay.Lib.LineText
import IncidentRelay.Lib.Pairwise
import IncidentRelay.Lib.Places
import IncidentRelay.Lib.Refresh
import IncidentRelay.Lib.Rounds
import IncidentRelay.Lib.Samples
import IncidentRelay.Lib.SimpleWays
import IncidentRelay.Lib.TreeRows
import IncidentRelay.Lib.UnicodeEscape
import IncidentRelay.Lib.Versioned
import IncidentRelay.Maintenance.Occurrences
import IncidentRelay.Maintenance.Ownership
import IncidentRelay.Maintenance.Windows
import IncidentRelay.Orchestration.ActionChecks
import IncidentRelay.Orchestration.ActionSteps
import IncidentRelay.Orchestration.Applied
import IncidentRelay.Orchestration.CatchAll
import IncidentRelay.Orchestration.Conditions
import IncidentRelay.Orchestration.Containment
import IncidentRelay.Orchestration.ControlLaw
import IncidentRelay.Orchestration.Definitions
import IncidentRelay.Orchestration.Deliveries
import IncidentRelay.Orchestration.Fields
import IncidentRelay.Orchestration.Handoffs
import IncidentRelay.Orchestration.IntakeContexts
import IncidentRelay.Orchestration.JsonPaths
import IncidentRelay.Orchestration.PauseRestore
import IncidentRelay.Orchestration.Provenance
import IncidentRelay.Orchestration.Replay
import IncidentRelay.Orchestration.Reproduction
import IncidentRelay.Orchestration.RuleChecks
import IncidentRelay.Orchestration.Safety
import IncidentRelay.Orchestration.Shadow
import IncidentRelay.Orchestration.ShadowDifferences
import IncidentRelay.Orchestration.ShadowMetrics
import IncidentRelay.Orchestration.Templates
import IncidentRelay.Orchestration.Trace
import IncidentRelay.Orchestration.Validated
import IncidentRelay.Orchestration.VersionHistory
import IncidentRelay.Orchestration.VersionLaws
import IncidentRelay.Orchestration.Versions
import IncidentRelay.Orchestration.WebhookBounds
import IncidentRelay.Orchestration.WebhookRuns
import IncidentRelay.Orchestration.WebhookWorkers
import IncidentRelay.Outbound.Client
import IncidentRelay.Outbound.Confinement
import IncidentRelay.Pending.DueTime
import IncidentRelay.Policies.Requests
import IncidentRelay.Policies.RuleOrder
import IncidentRelay.Policies.RuleRuns
import IncidentRelay.Policies.Rules
import IncidentRelay.Rbac.AccessLists
import IncidentRelay.Rbac.GroupTokens
import IncidentRelay.References.Integrity
import IncidentRelay.Rotations.CalendarEvents
import IncidentRelay.Rotations.Membership
import IncidentRelay.Rotations.OnCall
import IncidentRelay.Rotations.Schedule
import IncidentRelay.Rotations.ScheduleGaps
import IncidentRelay.Routing.GroupKey
import IncidentRelay.Routing.MatcherEntries
import IncidentRelay.Routing.Matchers
import IncidentRelay.Scheduler.Lock
import IncidentRelay.Schema.Migrations
import IncidentRelay.Services.BlastRadius
import IncidentRelay.Services.BusinessImpact
import IncidentRelay.Services.BusinessStatus
import IncidentRelay.Services.Catalog
import IncidentRelay.Services.Correlation
import IncidentRelay.Services.CorrelationStability
import IncidentRelay.Services.DependencyPaths
import IncidentRelay.Services.ImpactSnapshots
import IncidentRelay.Services.Reach
import IncidentRelay.Services.ServiceImpact
import IncidentRelay.Services.SloDowntime
import IncidentRelay.Services.SloEvaluation
import IncidentRelay.Services.SloIntervals
import IncidentRelay.Services.SloVerdict
