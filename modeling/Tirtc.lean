import Tirtc.Errors
import Tirtc.Lib.Counting
import Tirtc.Lib.Datetime
import Tirtc.Lib.Logs
import Tirtc.Lib.Machine
import Tirtc.Lib.Programs
import Tirtc.Lib.Replace
import Tirtc.Lib.Results
import Tirtc.Lib.Worklist
import Tirtc.Lib.Search
import Tirtc.Lib.RefCounts
import Tirtc.Lib.Selections
import Tirtc.Lib.Threads
import Tirtc.Lib.Waiting
import Tirtc.Util.Times
import Tirtc.Util.Arguments
import Tirtc.Util.Retry
import Tirtc.Native.Handles
import Tirtc.Native.Frames
import Tirtc.Lifecycle
import Tirtc.Following
import Tirtc.Runtime.Options
import Tirtc.Runtime.Registry
import Tirtc.Runtime.Consistency
import Tirtc.Runtime.Fork
import Tirtc.Dispatch.Dispatcher
import Tirtc.Dispatch.Delivery
import Tirtc.Dispatch.NewestState
import Tirtc.Dispatch.Discontinuity
import Tirtc.Dispatch.Executor
import Tirtc.Dispatch.Service
import Tirtc.Dispatch.Fates
import Tirtc.Dispatch.Barriers
import Tirtc.Dispatch.Handing
import Tirtc.Dispatch.Accounts
import Tirtc.Dispatch.Hearing
import Tirtc.Dispatch.Overtaking
import Tirtc.Dispatch.QueueShape
import Tirtc.Dispatch.NativeTasks
import Tirtc.Dispatch.TaskLife
import Tirtc.Dispatch.TaskOrder
import Tirtc.Dispatch.TaskCallbacks
import Tirtc.Dispatch.PoolCalls
import Tirtc.Dispatch.PoolInvariant
import Tirtc.Dispatch.PoolWaits
import Tirtc.Core.Connection
import Tirtc.Core.Calls
import Tirtc.Core.Steps
import Tirtc.Core.Attempts
import Tirtc.Core.AttemptSteps
import Tirtc.Core.AttemptWrites
import Tirtc.Core.Waits
import Tirtc.Core.Outcome
import Tirtc.Core.FailedStart
import Tirtc.Core.Events
import Tirtc.Core.ErrorEvents
import Tirtc.Core.Isolation
import Tirtc.Core.NativeLink
import Tirtc.Core.LinkAgreement
import Tirtc.Core.ReportedState
import Tirtc.Core.ReceivedMessages
import Tirtc.Outputs.Bindings
import Tirtc.Outputs.Control
import Tirtc.Outputs.Pairing
import Tirtc.Outputs.Agreement
import Tirtc.Outputs.FrameValues
import Tirtc.Outputs.ReceivedFrames
import Tirtc.Storage.TimeRanges
import Tirtc.Native.Requests
import Tirtc.Native.HandleOrder
import Tirtc.Native.Submitted
import Tirtc.Storage.ExportReports
import Tirtc.Storage.NativeResults
import Tirtc.Storage.ReportsRead
import Tirtc.Storage.ListRequests
import Tirtc.Storage.ListSlot
import Tirtc.Storage.LateCancel
import Tirtc.Storage.Playback
import Tirtc.Storage.PlaybackControl
import Tirtc.Storage.PlaybackRuns
import Tirtc.Teardown.Objects
import Tirtc.Storage.Exports
import Tirtc.Storage.ExportOutcome
import Tirtc.Storage.FinishedExports
import Tirtc.Storage.ExportYields
import Tirtc.Storage.ExportProgress
import Tirtc.Storage.ExportHandle
import Tirtc.Teardown.Frames
import Tirtc.Teardown.ChildrenFirst
import Tirtc.Teardown.CloseCalls
import Tirtc.Teardown.MediaErrors
import Tirtc.Teardown.MediaTasks
import Tirtc.Teardown.KeptFiles
import Tirtc.Teardown.HandleUse
import Tirtc.Teardown.HandleControl
import Tirtc.Teardown.LateUse
import Tirtc.Teardown.Coordinators
import Tirtc.Teardown.ExportClose
import Tirtc.Teardown.RawDumps
import Tirtc.Teardown.Recordings
import Tirtc.Teardown.Owners
import Tirtc.Teardown.Ancestry
import Tirtc.Teardown.BlockingCalls
import Tirtc.Teardown.SelfWait
import Tirtc.Teardown.TreeWaits
