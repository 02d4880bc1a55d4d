import Xdb.Model.Api
import Xdb.Model.Uuid
import Xdb.Model.SequenceMaps

/-!
# Rows and Persisted Blobs

The row types of the six tables, with the columns the queries in the sources read and
write, and the JSON blobs the engine stores in them. A blob is kept decoded: the codecs
are not among the sources and the spec states them to round-trip
(`BytesToStateExecutionSequenceMaps ∘ ToBytes` is the identity), so a column holds the
value its writer encoded.

The phase statuses are the spec's byte-exact encodings, and the batch abort reads them as
numbers (`wait_until_status=1`); `StateExecutionStatus.toNat` is that encoding.

The callers of the state-row updates name the status they write by the state machine's
names (`StateExecutionStatusWaitUntilWaiting`, `...ExecuteRunning`, `...Completed`), not by
the two phase columns. `StatusWrite` is that name, and `StatusWrite.apply` says which
columns it sets: each sets the phase it moves and leaves the other column alone, so a
skipped wait-until stays skipped when its execute phase completes. The column mapping is
not among the sources; it is modelled from the spec's per-phase progressions.

## Main definitions

* `StateExecutionStatus`: A phase status, `Undefined=0` to `Failed=6`.
* `StatusWrite`: The status an update of a state row writes.
* `AsyncStateExecutionRow`: A row of `xdb_sys_async_state_executions`.
* `ProcessExecutionRow`: A row of `xdb_sys_process_executions`.
* `ImmediateTaskRow`, `TimerTaskRow`, `LocalQueueRow`: Task and queue rows.
-/

namespace Xdb

/-- The status of one phase of a state execution; `toNat` is the stored byte. -/
inductive StateExecutionStatus
  | undefined
  | running
  | waiting
  | completed
  | skipped
  | aborted
  | failed
  deriving DecidableEq, Repr

/-- The byte-exact encoding of a phase status. -/
def StateExecutionStatus.toNat : StateExecutionStatus → Nat
  | .undefined => 0
  | .running => 1
  | .waiting => 2
  | .completed => 3
  | .skipped => 4
  | .aborted => 5
  | .failed => 6

/-- The status of a process execution. -/
inductive ProcessExecutionStatus
  | running
  | completed
  | failed
  | terminated
  | timeout
  deriving DecidableEq, Repr

/-- The status the callers of an `UpdateAsyncStateExecution...` write; `unchanged` is the
    snapshot's own status, written back by a backoff. -/
inductive StatusWrite
  | waitUntilWaiting
  | executeRunning
  | completed
  | unchanged
  deriving DecidableEq, Repr

/-- The phase columns after a status write.
    Modelled from the spec: each write sets the phase it names, per §3's progressions. -/
def StatusWrite.apply : StatusWrite → StateExecutionStatus × StateExecutionStatus →
    StateExecutionStatus × StateExecutionStatus
  | .waitUntilWaiting, (_, e) => (.waiting, e)
  | .executeRunning, _ => (.completed, .running)
  | .completed, (w, _) => (w, .completed)
  | .unchanged, p => p

/-- `persistence.ImmediateTaskType`. -/
inductive ImmediateTaskType
  | waitUntil
  | execute
  | newLocalQueueMessage
  deriving DecidableEq, Repr

/-- The attempt state a worker task carries across retries. -/
structure WorkerTaskBackoffInfoJson where
  completedAttempts : Int
  firstAttemptTimestampSeconds : Int
  deriving DecidableEq, Repr

/-- What a `NewLocalQueueMessage` task carries about its message. -/
structure LocalQueueMessageInfoJson where
  queueName : String
  dedupId : Uuid
  payload : Option EncodedObject := none
  deriving DecidableEq, Repr

/-- The info blob of an immediate or timer task. -/
structure ImmediateTaskInfoJson where
  workerTaskBackoffInfo : Option WorkerTaskBackoffInfoJson := none
  localQueueMessageInfo : Option LocalQueueMessageInfoJson := none
  deriving DecidableEq, Repr

/-- The static info of a state execution, copied into every row it starts. -/
structure AsyncStateExecutionInfoJson where
  namespaceName : String := ""
  processId : String := ""
  processType : String
  workerURL : String
  stateConfig : Option AsyncStateConfig := none
  deriving DecidableEq, Repr

/-- The static info of a process execution. -/
structure ProcessExecutionInfoJson where
  processType : String
  workerURL : String
  deriving DecidableEq, Repr

/-- The last failed worker attempt recorded on a state row. -/
structure StateExecutionFailureJson where
  statusCode : Int
  details : List UInt8
  deriving DecidableEq, Repr

/-- One consumed message as a local-queue command result. -/
structure LocalQueueMessageResult where
  dedupId : Uuid
  payload : Option EncodedObject
  deriving DecidableEq, Repr

/-- The stored command results, keyed by command index as the JSON object is. -/
structure CommandResultsJson where
  timerResults : List (Nat × Bool) := []
  localQueueResults : List (Nat × List LocalQueueMessageResult) := []
  deriving DecidableEq, Repr

/-- The key of a state execution: process execution, state id and sequence. -/
structure AsyncStateExecutionKey where
  processExecutionId : Uuid
  stateId : String
  stateIdSequence : Nat
  deriving DecidableEq, Repr

/-- A row of `xdb_sys_async_state_executions`; `version` is the row's `PreviousVersion`. -/
structure AsyncStateExecutionRow where
  waitUntilStatus : StateExecutionStatus
  executeStatus : StateExecutionStatus
  version : Nat
  waitUntilCommands : CommandRequest := {}
  waitUntilCommandResults : CommandResultsJson := {}
  lastFailure : Option StateExecutionFailureJson := none
  info : AsyncStateExecutionInfoJson
  input : Option EncodedObject := none
  deriving DecidableEq, Repr

/-- A row of `xdb_sys_process_executions`, with the columns the queries in the sources name.
    No query there reads or writes a waiting-queue column. -/
structure ProcessExecutionRow where
  namespaceName : String
  processId : String
  status : ProcessExecutionStatus
  startTime : Int
  timeoutSeconds : Int
  historyEventIdSequence : Nat
  stateExecutionSequenceMaps : StateExecutionSequenceMaps
  waitToComplete : Bool
  info : ProcessExecutionInfoJson

/-- A row of `xdb_sys_latest_process_executions`. -/
structure LatestProcessExecutionRow where
  namespaceName : String
  processId : String
  processExecutionId : Uuid
  deriving DecidableEq, Repr

/-- A row of `xdb_sys_immediate_tasks`, which is also the in-memory `ImmediateTask`. -/
structure ImmediateTaskRow where
  shardId : Nat
  taskSequence : Nat
  processExecutionId : Uuid
  stateId : String
  stateIdSequence : Nat
  taskType : ImmediateTaskType
  info : ImmediateTaskInfoJson := {}
  deriving DecidableEq, Repr

/-- A row of `xdb_sys_timer_tasks`. -/
structure TimerTaskRow where
  shardId : Nat
  fireTimeUnixSeconds : Int
  taskSequence : Nat
  processExecutionId : Uuid
  stateId : String
  stateIdSequence : Nat
  taskType : ImmediateTaskType
  info : ImmediateTaskInfoJson := {}
  deriving DecidableEq, Repr

/-- A row of `xdb_sys_local_queue`. -/
structure LocalQueueRow where
  processExecutionId : Uuid
  queueName : String
  dedupId : Uuid
  payload : Option EncodedObject
  deriving DecidableEq, Repr

/-- `persistence.DefaultShardId`. -/
def defaultShardId : Nat := 0

namespace AsyncStateExecutionRow

/-- The two phase columns. -/
def phases (r : AsyncStateExecutionRow) : StateExecutionStatus × StateExecutionStatus :=
  (r.waitUntilStatus, r.executeStatus)

end AsyncStateExecutionRow

namespace ImmediateTaskRow

/-- The state execution the task names. -/
def key (t : ImmediateTaskRow) : AsyncStateExecutionKey :=
  ⟨t.processExecutionId, t.stateId, t.stateIdSequence⟩

end ImmediateTaskRow

namespace TimerTaskRow

/-- The state execution the task names. -/
def key (t : TimerTaskRow) : AsyncStateExecutionKey :=
  ⟨t.processExecutionId, t.stateId, t.stateIdSequence⟩

end TimerTaskRow

end Xdb
