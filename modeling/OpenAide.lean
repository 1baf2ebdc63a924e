import OpenAide.Agent.BackgroundWork
import OpenAide.Agent.ReplayIdentity
import OpenAide.Agent.ReplayProjection
import OpenAide.Agent.ReplayRows
import OpenAide.Agent.ReplayStability
import OpenAide.Agent.ReplayUpdates
import OpenAide.Agent.ShellCommands
import OpenAide.Client.ChatReplica
import OpenAide.Client.SubagentReplica
import OpenAide.Client.TaskReplica
import OpenAide.Library.Bytes
import OpenAide.Library.Checksum
import OpenAide.Library.Fallible
import OpenAide.Library.Files
import OpenAide.Library.Keyed
import OpenAide.Library.Maps
import OpenAide.Library.Numbered
import OpenAide.Library.Programs
import OpenAide.Library.Text
import OpenAide.NativeSessions.Catalog
import OpenAide.NativeSessions.CatalogRuns
import OpenAide.Protocol.Json
import OpenAide.Protocol.Model
import OpenAide.Requests.Broker
import OpenAide.Session.Channel
import OpenAide.Session.Consistent
import OpenAide.Session.Delivery
import OpenAide.Session.Polls
import OpenAide.Session.Registry
import OpenAide.Session.System
import OpenAide.Session.Uploads
import OpenAide.Session.WebSocket
import OpenAide.Snapshots.Chat
import OpenAide.Snapshots.Paging
import OpenAide.Snapshots.TaskChanges
import OpenAide.Snapshots.TaskSnapshot
import OpenAide.StateSync.ChangeLog
import OpenAide.StateSync.ChangeLogRuns
import OpenAide.StateSync.Resume
import OpenAide.StateSync.Stream
import OpenAide.StateSync.UpdateQueue
import OpenAide.Storage.ChatImages
import OpenAide.Storage.Frame
import OpenAide.Storage.HistoryVersion
import OpenAide.Storage.Model
import OpenAide.Storage.Projection
import OpenAide.Storage.Records
import OpenAide.Storage.RowIdentity
import OpenAide.Storage.Rows
import OpenAide.Storage.Scheduler
import OpenAide.Storage.SchedulerAccounting
import OpenAide.Storage.SchedulerOrder
import OpenAide.Storage.SchedulerWakeups
import OpenAide.Storage.SemanticNoops
import OpenAide.Storage.SerdeTexts
import OpenAide.Storage.Split
import OpenAide.Storage.SplitCommit
import OpenAide.Storage.SplitFiles
import OpenAide.Storage.SplitRecovery
import OpenAide.Storage.SplitReplay
import OpenAide.Storage.SplitStore
import OpenAide.Storage.SubagentHistories
import OpenAide.Storage.SubagentWrites
import OpenAide.Storage.ToolArtifacts
import OpenAide.Tasks.JournalOperations
import OpenAide.Tasks.MessageQueue
import OpenAide.Tasks.Mutation
import OpenAide.Tasks.PreparedPool
import OpenAide.Tasks.PreparedPoolBound
import OpenAide.Tasks.PreparedTasks
import OpenAide.Tasks.QueueDelivery
import OpenAide.Tasks.Snapshot
import OpenAide.Tasks.TurnStatus
import OpenAide.Tasks.Turns
import OpenAide.NativeSessions.ArchivedPins
import OpenAide.ProjectFiles.Git
import OpenAide.Snapshots.DraftedItems
import OpenAide.Tasks.ComposerHistory
