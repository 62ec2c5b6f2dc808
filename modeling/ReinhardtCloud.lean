import ReinhardtCloud.Agent.Commands
import ReinhardtCloud.Agent.Rollback
import ReinhardtCloud.Base.Affixes
import ReinhardtCloud.Base.Broadcast
import ReinhardtCloud.Base.Characters
import ReinhardtCloud.Base.Dockerfiles
import ReinhardtCloud.Base.DottedNames
import ReinhardtCloud.Base.Encoding
import ReinhardtCloud.Base.Expansion
import ReinhardtCloud.Base.FileSystem
import ReinhardtCloud.Base.Hcl
import ReinhardtCloud.Base.HostNames
import ReinhardtCloud.Base.IpBlocks
import ReinhardtCloud.Base.Json
import ReinhardtCloud.Base.Keyed
import ReinhardtCloud.Base.Logql
import ReinhardtCloud.Base.LogqlBytes
import ReinhardtCloud.Base.Names
import ReinhardtCloud.Base.Numerals
import ReinhardtCloud.Base.Overwrite
import ReinhardtCloud.Base.Paging
import ReinhardtCloud.Base.PathPrefixes
import ReinhardtCloud.Base.Paths
import ReinhardtCloud.Base.Pool
import ReinhardtCloud.Base.Program
import ReinhardtCloud.Base.References
import ReinhardtCloud.Base.Retries
import ReinhardtCloud.Base.Run
import ReinhardtCloud.Base.Saturation
import ReinhardtCloud.Base.Search
import ReinhardtCloud.Base.ServerSideApply
import ReinhardtCloud.Base.SortedMap
import ReinhardtCloud.Base.StrategicMerge
import ReinhardtCloud.Base.Table
import ReinhardtCloud.Base.TomlText
import ReinhardtCloud.Base.TomlValues
import ReinhardtCloud.Cli.CargoLock
import ReinhardtCloud.Cli.CloudToml
import ReinhardtCloud.Cli.CloudTomlGenerator
import ReinhardtCloud.Cli.CloudTomlText
import ReinhardtCloud.Cli.CrdVersions
import ReinhardtCloud.Cli.Deploy
import ReinhardtCloud.Cli.DockerfileReading
import ReinhardtCloud.Cli.DockerfileText
import ReinhardtCloud.Cli.FeatureDetection
import ReinhardtCloud.Cli.GeneratedDockerfiles
import ReinhardtCloud.Cli.Infrastructure
import ReinhardtCloud.Cli.InfrastructureBlock
import ReinhardtCloud.Cli.InitDeploys
import ReinhardtCloud.Cli.PagesImages
import ReinhardtCloud.Cli.ProjectFiles
import ReinhardtCloud.Cli.ProjectReplacement
import ReinhardtCloud.Cli.SavedCredentials
import ReinhardtCloud.Cli.StaticRoots
import ReinhardtCloud.Cli.Sync
import ReinhardtCloud.Cli.Terraform
import ReinhardtCloud.Cli.TerraformDocuments
import ReinhardtCloud.Cli.TerraformModules
import ReinhardtCloud.Core.BuildScripts
import ReinhardtCloud.Core.LocalBuilds
import ReinhardtCloud.Core.LogTails
import ReinhardtCloud.Core.PluginRegistry
import ReinhardtCloud.Dashboard.AccountActivity
import ReinhardtCloud.Dashboard.Accounts
import ReinhardtCloud.Dashboard.AuthTokens
import ReinhardtCloud.Dashboard.Base64
import ReinhardtCloud.Dashboard.Broadcaster
import ReinhardtCloud.Dashboard.ChainOfTrust
import ReinhardtCloud.Dashboard.ClusterTokens
import ReinhardtCloud.Dashboard.Delivery
import ReinhardtCloud.Dashboard.DeploymentObjects
import ReinhardtCloud.Dashboard.GitCredentials
import ReinhardtCloud.Dashboard.GitHubAuthority
import ReinhardtCloud.Dashboard.GrpcServer
import ReinhardtCloud.Dashboard.IdentityLinks
import ReinhardtCloud.Dashboard.ImportCleanup
import ReinhardtCloud.Dashboard.ImportLease
import ReinhardtCloud.Dashboard.ImportNames
import ReinhardtCloud.Dashboard.ImportSpec
import ReinhardtCloud.Dashboard.LogAccess
import ReinhardtCloud.Dashboard.LogStream
import ReinhardtCloud.Dashboard.Manifest
import ReinhardtCloud.Dashboard.ManifestColumns
import ReinhardtCloud.Dashboard.ManifestWrites
import ReinhardtCloud.Dashboard.NotificationClient
import ReinhardtCloud.Dashboard.OAuthFlow
import ReinhardtCloud.Dashboard.OauthSignups
import ReinhardtCloud.Dashboard.Onboarding
import ReinhardtCloud.Dashboard.OrgSlugs
import ReinhardtCloud.Dashboard.Ownership
import ReinhardtCloud.Dashboard.Permissions
import ReinhardtCloud.Dashboard.Records
import ReinhardtCloud.Dashboard.Requests
import ReinhardtCloud.Dashboard.Service
import ReinhardtCloud.Dashboard.SetupStates
import ReinhardtCloud.Dashboard.SpecChecks
import ReinhardtCloud.Dashboard.SpecSettings
import ReinhardtCloud.Dashboard.Submissions
import ReinhardtCloud.Dashboard.Subscriptions
import ReinhardtCloud.Dashboard.TokenRotation
import ReinhardtCloud.Dashboard.WebhookApply
import ReinhardtCloud.Dashboard.WebhookReading
import ReinhardtCloud.Grpc.AgentStream
import ReinhardtCloud.Grpc.BuildWire
import ReinhardtCloud.Grpc.Heartbeat
import ReinhardtCloud.Grpc.Ownership
import ReinhardtCloud.Grpc.Reconnect
import ReinhardtCloud.Grpc.Registry
import ReinhardtCloud.Grpc.Routing
import ReinhardtCloud.Operator.ArtifactNames
import ReinhardtCloud.Operator.Autoscaler
import ReinhardtCloud.Operator.Backoff
import ReinhardtCloud.Operator.BuildRequests
import ReinhardtCloud.Operator.BuildRuns
import ReinhardtCloud.Operator.BuildSlot
import ReinhardtCloud.Operator.BuildStore
import ReinhardtCloud.Operator.BuildTriggers
import ReinhardtCloud.Operator.Conditions
import ReinhardtCloud.Operator.ControlRuns
import ReinhardtCloud.Operator.DatabaseIdentity
import ReinhardtCloud.Operator.DatabaseRuns
import ReinhardtCloud.Operator.DatabaseUrls
import ReinhardtCloud.Operator.EgressPolicy
import ReinhardtCloud.Operator.ImageReferences
import ReinhardtCloud.Operator.IngressHosts
import ReinhardtCloud.Operator.IngressRoutes
import ReinhardtCloud.Operator.IsolationOrder
import ReinhardtCloud.Operator.JobNames
import ReinhardtCloud.Operator.LegacyPreviews
import ReinhardtCloud.Operator.Migration
import ReinhardtCloud.Operator.MigrationRuns
import ReinhardtCloud.Operator.Operations
import ReinhardtCloud.Operator.PhaseGauge
import ReinhardtCloud.Operator.PluginMounts
import ReinhardtCloud.Operator.Plugins
import ReinhardtCloud.Operator.PodTemplates
import ReinhardtCloud.Operator.Ports
import ReinhardtCloud.Operator.PreviewCleanup
import ReinhardtCloud.Operator.PreviewIsolation
import ReinhardtCloud.Operator.PreviewNames
import ReinhardtCloud.Operator.PreviewNamespaces
import ReinhardtCloud.Operator.PreviewRuns
import ReinhardtCloud.Operator.PreviewSpecs
import ReinhardtCloud.Operator.PreviewTtl
import ReinhardtCloud.Operator.PullSecrets
import ReinhardtCloud.Operator.RedisCredentials
import ReinhardtCloud.Operator.RedisProvenance
import ReinhardtCloud.Operator.RedisReconcile
import ReinhardtCloud.Operator.RedisStore
import ReinhardtCloud.Operator.Rollout
import ReinhardtCloud.Operator.RolloutRuns
import ReinhardtCloud.Operator.Separation
import ReinhardtCloud.Operator.ServiceNames
import ReinhardtCloud.Operator.SourceBuild
import ReinhardtCloud.Operator.SpecHistory
import ReinhardtCloud.Operator.Teardown
import ReinhardtCloud.Operator.TeardownRuns
import ReinhardtCloud.Operator.TenantGuardrails
import ReinhardtCloud.Operator.Tenants
import ReinhardtCloud.Operator.Types
import ReinhardtCloud.Operator.Workloads
import ReinhardtCloud.Telemetry.InMemoryLogs
import ReinhardtCloud.Telemetry.LogBackends
import ReinhardtCloud.Telemetry.LogPages
import ReinhardtCloud.Telemetry.LogqlText
