import ManagedAgents.Library.LabelledRuns
import ManagedAgents.Library.SequencedLog
import ManagedAgents.Library.SnapshotHistory
import ManagedAgents.Library.PendingKeys
import ManagedAgents.Python
import ManagedAgents.SessionState
import ManagedAgents.Database
import ManagedAgents.AgentContract
import ManagedAgents.EventValidation
import ManagedAgents.Metadata
import ManagedAgents.Runtime.Errors
import ManagedAgents.Runtime.History
import ManagedAgents.Sessions
import ManagedAgents.Runtime.LocalBackend
import ManagedAgents.Runtime.OpenAI
import ManagedAgents.Runtime.Turn
import ManagedAgents.WorkQueue
import ManagedAgents.Transactions
import ManagedAgents.Effects
import ManagedAgents.TurnEffects
import ManagedAgents.CommittedStates
import ManagedAgents.EventLog
import ManagedAgents.StatusLog
import ManagedAgents.RequiredActions
import ManagedAgents.SessionSystem
import ManagedAgents.SystemRuns
import ManagedAgents.TerminatedSessions
import ManagedAgents.InterruptedSessions
import ManagedAgents.Executions
import ManagedAgents.RunOwnership
import ManagedAgents.WorkRows
import ManagedAgents.DetailsWriters
import ManagedAgents.InputDelivery
import ManagedAgents.SerialDetails
import ManagedAgents.ActionResults
import ManagedAgents.ActionBatches
import ManagedAgents.ActionProtocol
import ManagedAgents.LatestInput
import ManagedAgents.Writes
import ManagedAgents.ClientEvents
import ManagedAgents.Library.CursorPaging
import ManagedAgents.EventStream
import ManagedAgents.JsonText
import ManagedAgents.Library.EventSource
import ManagedAgents.EventFrames
import ManagedAgents.Library.JsonString
import ManagedAgents.ArchivedSessions
import ManagedAgents.WorkStarts
import ManagedAgents.RetryDelays
import ManagedAgents.RetryAccounting
import ManagedAgents.RuntimeFailures
import ManagedAgents.FinishedItems
import ManagedAgents.LiveExecutions
import ManagedAgents.Library.NewestPage
import ManagedAgents.Resources
import ManagedAgents.WorkPolls
import ManagedAgents.FreshLeases
import ManagedAgents.LeaseOwners
import ManagedAgents.Library.ReadCommitted
import ManagedAgents.Library.Sha256
import ManagedAgents.Library.Fallible
import ManagedAgents.JsonEquality
import ManagedAgents.MemoryPaths
import ManagedAgents.ResourceWrites
import ManagedAgents.Memories
import ManagedAgents.MemoryRequests
import ManagedAgents.MemoryData
import ManagedAgents.MemorySystem
import ManagedAgents.MemoryHistory
import ManagedAgents.MemoryCommits
import ManagedAgents.MemoryVersions
import ManagedAgents.MemoryPathKeys
import ManagedAgents.MemoryPointers
import ManagedAgents.MemoryDigests
import ManagedAgents.MemoryReads
import ManagedAgents.ArchivedStores
import ManagedAgents.Runtime.Context
import ManagedAgents.Runtime.HostedTools
import ManagedAgents.LiveContainers
import ManagedAgents.Credentials
import ManagedAgents.ChildRequests
import ManagedAgents.ErrorCodes
import ManagedAgents.DeletedParents
import ManagedAgents.DictAgreement
import ManagedAgents.Responses
import ManagedAgents.HiddenContent
import ManagedAgents.MemoryRecords
import ManagedAgents.RedactedContent
import ManagedAgents.Agents
import ManagedAgents.AgentRequests
import ManagedAgents.RosterEntries
import ManagedAgents.AgentSystem
import ManagedAgents.AgentHistory
import ManagedAgents.AgentCommits
import ManagedAgents.AgentVersions
import ManagedAgents.Rosters
import ManagedAgents.ToolContracts
import ManagedAgents.Installations
import ManagedAgents.EffectiveTools
import ManagedAgents.Library.OffsetPages
import ManagedAgents.Pagination
import ManagedAgents.PageCursors
import ManagedAgents.ListWalks
import ManagedAgents.CivilDates
import ManagedAgents.Cron
import ManagedAgents.Library.Segments
import ManagedAgents.Storage
import ManagedAgents.ObjectKeys
import ManagedAgents.Library.SharedPrograms
import ManagedAgents.Files
import ManagedAgents.SessionOpenings
import ManagedAgents.FileMetadata
import ManagedAgents.FileObjects
import ManagedAgents.Skills
import ManagedAgents.LatestVersions
import ManagedAgents.DictEquality
import ManagedAgents.NormalizedPaths
import ManagedAgents.MemoryChanges
import ManagedAgents.ValidMetadata
import ManagedAgents.SecretFields
import ManagedAgents.CredentialSystem
import ManagedAgents.SealedSecrets
import ManagedAgents.PurgedSecrets
import ManagedAgents.CredentialResponses
import ManagedAgents.SecretRoundTrips
import ManagedAgents.Environments
import ManagedAgents.EnvironmentNames
import ManagedAgents.EnvironmentScopes
import ManagedAgents.Deployments
import ManagedAgents.DeploymentRuns
import ManagedAgents.DeploymentSystem
import ManagedAgents.DeploymentWrites
import ManagedAgents.DeploymentStatuses
import ManagedAgents.MemoryUpdates
import ManagedAgents.StalePreconditions
import ManagedAgents.BackendInputs
import ManagedAgents.ResourceLimits
import ManagedAgents.TickIsolation
import ManagedAgents.TickUniqueness
import ManagedAgents.TickProgress
import ManagedAgents.AuthFields
import ManagedAgents.CredentialPatches
import ManagedAgents.PageWalks
import ManagedAgents.IdPages
import ManagedAgents.MetadataPatches
import ManagedAgents.EnvironmentPolicies
import ManagedAgents.Webhooks
import ManagedAgents.MemoryPathRules
import ManagedAgents.PathPrefixes
import ManagedAgents.DepthListings
import ManagedAgents.VersionNumbers
import ManagedAgents.ArchiveContents
import ManagedAgents.CronItems
import ManagedAgents.PurgedValues
import ManagedAgents.CronSearches
import ManagedAgents.MetadataMerges
import ManagedAgents.AgentValues
import ManagedAgents.RepeatedRosters
import ManagedAgents.RepeatedUpdates
import ManagedAgents.MetadataSystem
import ManagedAgents.MetadataWrites
import ManagedAgents.MetadataRuns
import ManagedAgents.Library.Projection
import ManagedAgents.WorkspaceIsolation
import ManagedAgents.ApiAccess
import ManagedAgents.RepositoryTokens
import ManagedAgents.Library.Turns
import ManagedAgents.RuntimeSecrets
import ManagedAgents.TurnProtocol
import ManagedAgents.Delegations
import ManagedAgents.SessionThreads
import ManagedAgents.DelegatedThreads
import ManagedAgents.Library.Partitions
import ManagedAgents.ThreadListings
import ManagedAgents.OutcomeLedger
