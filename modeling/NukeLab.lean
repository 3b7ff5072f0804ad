import NukeLab.Machine
import NukeLab.Program
import NukeLab.Tables
import NukeLab.Quantities
import NukeLab.Double
import NukeLab.Records
import NukeLab.State
import NukeLab.Ledger
import NukeLab.GpuAllocator
import NukeLab.Quota
import NukeLab.DockerNames
import NukeLab.Spawner
import NukeLab.Billing
import NukeLab.Lifecycle
import NukeLab.Frames
import NukeLab.Users
import NukeLab.Settlement
import NukeLab.Exits
import NukeLab.Conservation
import NukeLab.LedgerAudit
import NukeLab.BillingLifetime
import NukeLab.Creation
import NukeLab.CreationAtomicity
import NukeLab.Administration
import NukeLab.BalanceBounds
import NukeLab.ContainerNames
import NukeLab.BalanceSessions
import NukeLab.DailyAllowance
import NukeLab.FinalReconciliation
import NukeLab.GpuReservation
import NukeLab.Privileges
import NukeLab.QueueCharges
import NukeLab.ServerUpdate
import NukeLab.SessionRevocation
import NukeLab.UpdateAtomicity
import NukeLab.UsageCounters
import NukeLab.TokenCutoffs
import NukeLab.TokenOwners
import NukeLab.RefreshRotation
import NukeLab.RefreshLimit
import NukeLab.EntryPoints
import NukeLab.SidecarValidation
import NukeLab.SidecarRateLimit
import NukeLab.CacheRebuild
import NukeLab.CircuitBreaker
import NukeLab.ClientAddress
import NukeLab.ExpiringCounters
import NukeLab.RateLimiting
import NukeLab.MaintenanceWindows
import NukeLab.ListFreshness
import NukeLab.ServerAccess
import NukeLab.LedgerRetention
import NukeLab.XfsQuota
import NukeLab.VolumeQuota
import NukeLab.MaintenanceMode
import NukeLab.VolumeAccess
import NukeLab.ScheduledStarts
import NukeLab.ServerRecords
import NukeLab.HealthChecks
import NukeLab.AlertLifecycle
import NukeLab.PlanVisibility
import NukeLab.WorkspaceOwners
import NukeLab.Invitations
import NukeLab.OAuthIdentity
import NukeLab.DepletionTicks
import NukeLab.ToolchainVolume
import NukeLab.ToolchainPopulation
import NukeLab.Routes
import NukeLab.TokenScopes
import NukeLab.BulkActions
import NukeLab.BulkGrants
import NukeLab.Texts
import NukeLab.UuidTexts
import NukeLab.QueuePositions
import NukeLab.BulkUsers
import NukeLab.RetentionPolicy
import NukeLab.AuditTrail
import NukeLab.QueueLoop
import NukeLab.DailyRollups
import NukeLab.HashSets
import NukeLab.Broadcasts
import NukeLab.TabRefresh
import NukeLab.MetricsBuffer
import NukeLab.EnsuredDevices
import NukeLab.Least
import NukeLab.VolumeCeiling
import NukeLab.VolumeListing
import NukeLab.Profiles
import NukeLab.Notifications
import NukeLab.LowBalance
import NukeLab.StaleReminders
import NukeLab.Binary64
import NukeLab.NumberTexts
import NukeLab.SizeParsers
import NukeLab.DiskLimits
import NukeLab.IdleShutdown
import NukeLab.Sha256
import NukeLab.JsonTexts
import NukeLab.Webhooks
import NukeLab.Dictionaries
import NukeLab.LogSubscriptions
import NukeLab.RequestSizeLimit
import NukeLab.Closures
import NukeLab.RolePermissions
import NukeLab.VolumeNames
import NukeLab.CostTrends
import NukeLab.CpuViews
import NukeLab.MonthlyPartitions
import NukeLab.MaintenanceNotices
import NukeLab.GroupMeans
import NukeLab.UsageRollups
import NukeLab.SpawnBinds
import NukeLab.CronSchedules
import NukeLab.KeyedRuns
import NukeLab.LimiterWindows
import NukeLab.CgroupTexts
import NukeLab.CpusetLists
import NukeLab.ProcStat
import NukeLab.ProjectsFile
import NukeLab.QueryStrings
import NukeLab.TokenSources
import NukeLab.RequestReviews
import NukeLab.IpRestrictions
import NukeLab.RestrictionCaches
import NukeLab.CsvExport
import NukeLab.VolumeFiles
import NukeLab.TokenIssuance
import NukeLab.KeyRotation
import NukeLab.AllowanceOverrides
