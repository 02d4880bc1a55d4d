import Xdb.Model.Api
import Xdb.Model.Uuid
import Xdb.Model.SequenceMaps
import Xdb.Model.Rows
import Xdb.Model.WaitingQueues
import Xdb.Store.Basic
import Xdb.Persistence.Common
import Xdb.Persistence.LocalQueue
import Xdb.Persistence.WaitUntil
import Xdb.Persistence.CompleteExecute
import Xdb.Persistence.Backoff
import Xdb.Persistence.TaskPages
import Xdb.Engine.StartProcess
import Xdb.Engine.Backoff
import Xdb.Engine.Processor
import Xdb.Engine.Describe
import Xdb.Theory.Steps
import Xdb.Theory.ProcessRows
import Xdb.Theory.StartState
import Xdb.Theory.RoundTrip
import Xdb.Theory.StateRows
import Xdb.Theory.VersionGate
import Xdb.Theory.Waiting
import Xdb.Theory.LocalQueueOrder
import Xdb.Theory.ProcessLock
import Xdb.Theory.CommandResults
import Xdb.Theory.Retry
import Xdb.Theory.StateConfig
import Xdb.Theory.Deadlock
import Xdb.Theory.StartUnique
import Xdb.Theory.Describe
import Xdb.Theory.Dedup
import Xdb.Theory.DecisionTable
import Xdb.Theory.TaskTables
import Xdb.Theory.Coverage
import Xdb.Theory.TaskPages
import Xdb.Theory.TaskCommits
import Xdb.Theory.TaskRows
import Xdb.Theory.Attempts
import Xdb.Theory.UuidText
import Xdb.Theory.Consume
