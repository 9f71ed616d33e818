import ForgePilot.TeamSpace
import ForgePilot.HarnessRuns
import ForgePilot.BatchAuthorisation
import ForgePilot.ConversationOwnership
import ForgePilot.BillingRuns
import ForgePilot.ToolCallRecords
import ForgePilot.CondenserPipelines
import ForgePilot.ToolCallCompletion
import ForgePilot.SecretReplacement
import ForgePilot.DeliveryArtifact
import ForgePilot.SingleRelease
import ForgePilot.NestedEvents
import ForgePilot.ConversationDeletion
import ForgePilot.ConversationUpdates
import ForgePilot.SandboxLimits
import ForgePilot.EventRoundTrips
import ForgePilot.AuthTokenStore
import ForgePilot.DeviceCodes
import ForgePilot.ClusterMessages
import ForgePilot.CurrentOrganization
import ForgePilot.InvitationAdmission
import ForgePilot.OwnerAuthority
import ForgePilot.SessionLeaks
import ForgePilot.OrgAtomicity
import ForgePilot.SingleAgentLoop
import ForgePilot.SingleStarter
import ForgePilot.CompleteListings
import ForgePilot.BatchReplays
import ForgePilot.PromptRoundTrip
import ForgePilot.SharedSettings
import ForgePilot.ArrivalOrders
import ForgePilot.SetupCommands
import ForgePilot.EditDrift
import ForgePilot.MetricsDeltas
import ForgePilot.MetricsRestarts
import ForgePilot.EventSearches
import ForgePilot.ConversationPages
import ForgePilot.NestedRepositories
import ForgePilot.StatusLines
import ForgePilot.EventHandovers
import ForgePilot.JsonObjects
import ForgePilot.CommandPieces
import ForgePilot.DelegateLimits
import ForgePilot.EndingLoops
import ForgePilot.LoopStarts
import ForgePilot.CachedViews
import ForgePilot.TagRepair
import ForgePilot.ParsingFailures
import ForgePilot.EscapedCommands
import ForgePilot.PrunedGates
import ForgePilot.ConfirmationSubjects
import ForgePilot.SensitivePaths
import ForgePilot.ShellWrapping
import ForgePilot.ReplaySummaries
import ForgePilot.BudgetPolicy
import ForgePilot.Orchestration
import ForgePilot.TaskProtocol
import ForgePilot.AuditStreams
import ForgePilot.WorkspaceContainment
import ForgePilot.SplitCalls
import ForgePilot.CondenserQuotas
import ForgePilot.ForgottenRanges
import ForgePilot.AuditCsv
import ForgePilot.RepeatedKnowledge
