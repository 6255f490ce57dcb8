import MacSftp.Edit.Authorization
import MacSftp.Lib.Ordered
import MacSftp.Transfer.Data
import MacSftp.Transfer.Store
import MacSftp.Transfer.Reachable
import MacSftp.Transfer.PlanOutcome
import MacSftp.Transfer.Completion
import MacSftp.Edit.Requests
import MacSftp.Edit.Uniqueness
import MacSftp.Transfer.Endings
import MacSftp.Edit.Correlation
import MacSftp.Edit.Baseline
import MacSftp.Edit.Invariant
import MacSftp.App.EventPath
import MacSftp.Lib.Table
import MacSftp.Manager.Model
import MacSftp.Manager.System
import MacSftp.Manager.Channels
import MacSftp.Manager.Bookkeeping
import MacSftp.Manager.Roots
import MacSftp.Manager.Cancellation
import MacSftp.Transfer.CancelOrder
import MacSftp.App.CancelRace
import MacSftp.Runtime.Planning
import MacSftp.Manager.Homes
import MacSftp.Runtime.Steps
import MacSftp.Runtime.Ledger
import MacSftp.Runtime.Handoff
import MacSftp.Manager.Queue
import MacSftp.Manager.EarlyCancel
import MacSftp.Transfer.Representation
import MacSftp.Transfer.Replay
import MacSftp.Transfer.Finished
import MacSftp.Transfer.Planned
import MacSftp.Transfer.Confluence
import MacSftp.Transfer.Clearing
import MacSftp.Edit.TempDirs
import MacSftp.Lib.Ranges
import MacSftp.Pipeline.Reader
import MacSftp.Pipeline.Replies
import MacSftp.Pipeline.Download
import MacSftp.Pipeline.Honest
import MacSftp.Pipeline.Wrapping
import MacSftp.Pipeline.Exactness
import MacSftp.Pipeline.Writer
import MacSftp.Pipeline.Upload
import MacSftp.Jobs.Paths
import MacSftp.Lib.Programs
import MacSftp.Jobs.Operations
import MacSftp.Jobs.Download
import MacSftp.Jobs.Conflict
import MacSftp.Jobs.Frames
import MacSftp.Jobs.Replacing
import MacSftp.Jobs.Server
import MacSftp.Jobs.Residuals
import MacSftp.App.Covered
import MacSftp.App.LiveTransfers
import MacSftp.App.LiveEndings
import MacSftp.App.Healing
import MacSftp.App.Retries
import MacSftp.Storage.ProfileFile
import MacSftp.Storage.Profiles
import MacSftp.Lib.Pools
import MacSftp.Storage.Commits
import MacSftp.Storage.SharedStore
import MacSftp.Storage.Calls
import MacSftp.Storage.Consistency
import MacSftp.Storage.ProfileIds
import MacSftp.Storage.Instances
import MacSftp.Hosts.KnownHosts
import MacSftp.Hosts.Trusting
import MacSftp.Hosts.Pinning
import MacSftp.Connect.Pool
import MacSftp.Connect.Steps
import MacSftp.Connect.Moves
import MacSftp.Connect.Ownership
import MacSftp.Connect.HandOut
import MacSftp.Connect.Answers
import MacSftp.Connect.Answered
import MacSftp.Connect.Rejections
import MacSftp.Edit.Listings
import MacSftp.Lib.Recency
import MacSftp.Tabs.Activation
import MacSftp.Tabs.Sessions
import MacSftp.Tabs.Stale
import MacSftp.Jobs.Siblings
import MacSftp.Jobs.LinkFilter
import MacSftp.Forms.ConnectForm
import MacSftp.Forms.Session
import MacSftp.Forms.Secrets
import MacSftp.Core.Paths
import MacSftp.Lib.Trees
import MacSftp.Planner.LocalUpload
import MacSftp.Planner.Batches
import MacSftp.Planner.Traversal
import MacSftp.Planner.ExactPlan
import MacSftp.Panes.Visible
import MacSftp.Panes.Workspace
import MacSftp.Panes.Selection
import MacSftp.Lib.SharedCell
import MacSftp.Storage.FileWrites
import MacSftp.Storage.Recents
import MacSftp.Storage.RecentEntries
import MacSftp.Storage.RecentsRuns
import MacSftp.Storage.Config
import MacSftp.Storage.ConfigWrites
import MacSftp.Storage.ConfigRuns
import MacSftp.Edit.Comparison
import MacSftp.App.Reloads
import MacSftp.Connect.AgentKeys
import MacSftp.Hosts.Precedence
import MacSftp.Connect.Attempt
import MacSftp.Connect.Budget
import MacSftp.Lib.Filtering
import MacSftp.Panes.Rows
import MacSftp.Connect.ProxyCommand
import MacSftp.Lib.SymbolicLinks
import MacSftp.Session.Operations
import MacSftp.Session.LinkPaths
import MacSftp.Session.WriteThrough
import MacSftp.Session.Delete
import MacSftp.Session.ServerTree
import MacSftp.Session.Joining
import MacSftp.Session.Removal
import MacSftp.Session.DeleteExact
import MacSftp.Tabs.NavHistory
import MacSftp.Lib.Halving
import MacSftp.Transfer.IdMatching
import MacSftp.Session.PathAlgebra
import MacSftp.Lib.CaseMapping
import MacSftp.Panes.Matching
import MacSftp.Panes.ListingOrder
import MacSftp.Edit.EditorRules
import MacSftp.Panes.RangeSelection
import MacSftp.Hosts.PinnedKeys
import MacSftp.Forms.Connecting
import MacSftp.Lib.Revisions
import MacSftp.Storage.Revisions
import MacSftp.Forms.Reuse
import MacSftp.Lib.Protocols
import MacSftp.Manager.Decisions
import MacSftp.Manager.ApplyToAll
import MacSftp.App.EditPlanning
import MacSftp.App.EditAccounts
import MacSftp.Planner.ExactDownload
import MacSftp.Manager.Overtaking
import MacSftp.Lib.Adversaries
import MacSftp.Planner.DownloadSafety
import MacSftp.Checks.Settling
import MacSftp.App.ConflictPrompts
import MacSftp.Storage.AtomicFile
