import FlareIm.Lib.Prog
import FlareIm.Lib.KeyedMap
import FlareIm.Lib.Run
import FlareIm.Message.Model
import FlareIm.Message.Delivery
import FlareIm.Store.PendingSend
import FlareIm.Store.Messages
import FlareIm.Outbox.State
import FlareIm.Outbox.Actor
import FlareIm.Outbox.Handlers
import FlareIm.Outbox.System
import FlareIm.Outbox.Protocol
import FlareIm.Outbox.Calls
import FlareIm.Outbox.Dispatch
import FlareIm.Outbox.Acks
import FlareIm.Outbox.Timers
import FlareIm.Outbox.Recovery
import FlareIm.Outbox.Refinement
import FlareIm.Outbox.Standing
import FlareIm.Outbox.Places
import FlareIm.Outbox.Handover
import FlareIm.Outbox.Order
import FlareIm.Outbox.Ownership
import FlareIm.Outbox.StaleResults
import FlareIm.Lib.Serve
import FlareIm.Outbox.Serving
import FlareIm.Outbox.Outage
import FlareIm.Outbox.Endings
import FlareIm.Outbox.Window
import FlareIm.Dispatcher.TypingPresence
import FlareIm.Message.Timeline
import FlareIm.Dispatcher.SeqRepair
import FlareIm.Lib.Decimal
import FlareIm.Store.Attributes
import FlareIm.Store.Rows
import FlareIm.Store.Edits
import FlareIm.Dispatcher.Waterline
import FlareIm.Dispatcher.Coalescing
import FlareIm.Events.Apply
import FlareIm.Events.Deduper
import FlareIm.Events.Agreement
import FlareIm.Dispatcher.Operations
import FlareIm.Dispatcher.Persist
import FlareIm.Store.NewRows
import FlareIm.Dispatcher.Converger
import FlareIm.Dispatcher.Envelope
import FlareIm.Sync.Page
import FlareIm.Sync.State
import FlareIm.Sync.Pull
import FlareIm.Sync.CursorSafety
import FlareIm.Sync.SkippedEvents
import FlareIm.Store.ReadState
import FlareIm.Sync.CursorStores
import FlareIm.Store.LayeredPending
import FlareIm.Lib.NumberedWrites
import FlareIm.Store.Marks
import FlareIm.Store.Reactions
import FlareIm.Lib.Newest
import FlareIm.Store.Retention
import FlareIm.Store.Versions
import FlareIm.Store.VersionRuns
import FlareIm.Store.MemoryStore
import FlareIm.Store.StoresAgree
import FlareIm.Store.StoreRuns
import FlareIm.Sync.PageRows
import FlareIm.Sync.Progress
import FlareIm.Lib.Spans
import FlareIm.Timeline.Coverage
import FlareIm.Timeline.Stores
import FlareIm.Conversations.Model
import FlareIm.Conversations.SummaryMerge
import FlareIm.Conversations.MemoryStore
import FlareIm.Conversations.Floor
import FlareIm.Conversations.Projection
import FlareIm.Conversations.Unread
import FlareIm.Access.Trust
import FlareIm.Access.Acceptance
import FlareIm.Access.Manifests
import FlareIm.Access.Commits
import FlareIm.Access.Kernel
import FlareIm.Access.Calls
import FlareIm.Access.Releases
import FlareIm.Store.KeptSeqs
import FlareIm.Sync.StoredMessages
import FlareIm.Timeline.Recording
import FlareIm.Timeline.Accounts
import FlareIm.Timeline.Soundness
import FlareIm.Access.Download
import FlareIm.Release.Evaluate
import FlareIm.Release.Updates
import FlareIm.Access.Bootstrap
import FlareIm.Link.Refresher
import FlareIm.Access.Selection
import FlareIm.Access.ProbeBudget
import FlareIm.Access.HealthBook
import FlareIm.Sync.CriticalEvents
import FlareIm.Dispatcher.SeqGaps
import FlareIm.Views.Lists
import FlareIm.Access.Urls
import FlareIm.Conversations.IdentityRewrite
import FlareIm.Link.Failback
import FlareIm.Link.ServerClock
import FlareIm.Conversations.SummaryStores
