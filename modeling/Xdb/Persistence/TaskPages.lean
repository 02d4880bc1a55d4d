import Xdb.Store.Basic

/-!
# Task Pages

The task queues read the task tables a page at a time. `BatchSelectTimerTasks` reads a shard's
timer tasks that are due by a given time, in fire-time and sequence order, at most a page of
them. `createGetTimerTaskResponse` turns those rows into the response the timer queue reads:
the tasks, the first and last fire times, the least and greatest sequences, and whether the
page came back full. `SelectTimerTasksForTimestamps` reads the timer tasks at given fire times
from a sequence on. `BatchSelectWorkerTasks` reads a shard's immediate tasks from a sequence on,
in sequence order, and `BatchDeleteWorkerTask` deletes a shard's tasks in a range of sequences.
The last two read the table the older revision calls `xdb_sys_worker_tasks`, which is the
immediate-task table.

A query's `ORDER BY` is a `mergeSort` under the same order and its `LIMIT` is a `take`; rows
that tie on every ordered column come back in table order. The info column holds the JSON value
that `InsertTimerTask` wrote, so `BytesToTimerTaskInfo` cannot fail on it here. Go's `int64`
sequences are `Nat`s here, and the loop over a page starts from `math.MaxInt64` and
`math.MinInt64` as in the source.

## Main definitions

* `timerOrder`, `sequenceOrder`: The orders the queries sort by.
* `batchSelectTimerTasks`, `selectTimerTasksForTimestamps`: The timer-task reads.
* `batchSelectWorkerTasks`, `batchDeleteWorkerTask`: The immediate-task page and range delete.
* `createGetTimerTaskResponse`: The timer queue's response for a page of rows.

## Theorems

* `createGetTimerTaskResponse_tasks`, `createGetTimerTaskResponse_fullPage`,
  `createGetTimerTaskResponse_of_getLast?`: What the response holds.
-/

namespace Xdb

/-- `extensions.TimerTaskRangeSelectFilter`. -/
structure TimerTaskRangeSelectFilter where
  shardId : Nat
  maxFireTimeUnixSecondsInclusive : Int
  pageSize : Nat
  deriving DecidableEq, Repr

/-- `extensions.TimerTaskSelectByTimestampsFilter`. -/
structure TimerTaskSelectByTimestampsFilter where
  shardId : Nat
  fireTimeUnixSeconds : List Int
  minTaskSequenceInclusive : Int
  deriving DecidableEq, Repr

/-- `extensions.WorkerTaskRangeDeleteFilter`. -/
structure WorkerTaskRangeDeleteFilter where
  shardId : Nat
  minTaskSequenceInclusive : Int
  maxTaskSequenceInclusive : Int
  deriving DecidableEq, Repr

/-- `ORDER BY fire_time_unix_seconds, task_sequence ASC`. -/
def timerOrder (a b : TimerTaskRow) : Bool :=
  a.fireTimeUnixSeconds < b.fireTimeUnixSeconds ||
    a.fireTimeUnixSeconds = b.fireTimeUnixSeconds && a.taskSequence ≤ b.taskSequence

/-- `ORDER BY task_sequence ASC`. -/
def sequenceOrder (a b : ImmediateTaskRow) : Bool :=
  a.taskSequence ≤ b.taskSequence

/-- `BatchSelectTimerTasks`: `WHERE shard_id = $1 AND fire_time_unix_seconds <= $2
    ORDER BY fire_time_unix_seconds, task_sequence ASC LIMIT $3`. -/
def batchSelectTimerTasks (s : Store) (filter : TimerTaskRangeSelectFilter) :
    List TimerTaskRow :=
  ((s.timerTasks.filter fun t => t.shardId = filter.shardId ∧
      t.fireTimeUnixSeconds ≤ filter.maxFireTimeUnixSecondsInclusive).mergeSort timerOrder).take
    filter.pageSize

/-- `SelectTimerTasksForTimestamps`: `WHERE shard_id = ? AND fire_time_unix_seconds IN (?) AND
    task_sequence >= ? ORDER BY fire_time_unix_seconds, task_sequence ASC`; `none` is the error
    `sqlx.In` returns for an empty list of fire times. -/
def selectTimerTasksForTimestamps (s : Store) (filter : TimerTaskSelectByTimestampsFilter) :
    Option (List TimerTaskRow) :=
  if filter.fireTimeUnixSeconds = [] then none
  else some ((s.timerTasks.filter fun t => t.shardId = filter.shardId ∧
    t.fireTimeUnixSeconds ∈ filter.fireTimeUnixSeconds ∧
    filter.minTaskSequenceInclusive ≤ t.taskSequence).mergeSort timerOrder)

/-- `BatchSelectWorkerTasks`: `WHERE shard_id = $1 AND task_sequence>= $2
    ORDER BY task_sequence ASC LIMIT $3`. -/
def batchSelectWorkerTasks (s : Store) (shardId : Nat) (startSequenceInclusive : Int)
    (pageSize : Nat) : List ImmediateTaskRow :=
  ((s.immediateTasks.filter fun t => t.shardId = shardId ∧
      startSequenceInclusive ≤ t.taskSequence).mergeSort sequenceOrder).take pageSize

/-- `BatchDeleteWorkerTask`: `WHERE shard_id = $1 AND task_sequence>= $2 AND
    task_sequence <= $3`. -/
def batchDeleteWorkerTask (s : Store) (filter : WorkerTaskRangeDeleteFilter) : Store :=
  { s with immediateTasks := s.immediateTasks.filter fun t => ¬(t.shardId = filter.shardId ∧
      filter.minTaskSequenceInclusive ≤ t.taskSequence ∧
      t.taskSequence ≤ filter.maxTaskSequenceInclusive) }

/-- `persistence.TimerTask`. -/
structure TimerTask where
  shardId : Nat
  fireTimestampSeconds : Int
  taskSequence : Option Nat
  taskType : ImmediateTaskType
  processExecutionId : Uuid
  stateId : String
  stateIdSequence : Nat
  timerTaskInfo : ImmediateTaskInfoJson
  deriving DecidableEq, Repr

/-- `persistence.GetTimerTasksResponse`; a field the response builder leaves unset keeps Go's
    zero value. -/
structure GetTimerTasksResponse where
  tasks : List TimerTask
  minFireTimestampSecondsInclusive : Int := 0
  maxFireTimestampSecondsInclusive : Int := 0
  minSequenceInclusive : Int := 0
  maxSequenceInclusive : Int := 0
  fullPage : Bool := false
  deriving DecidableEq, Repr

/-- `math.MaxInt64`. -/
def maxInt64 : Int := 9223372036854775807

/-- `math.MinInt64`. -/
def minInt64 : Int := -9223372036854775808

/-- The `persistence.TimerTask` built from one row. -/
def toTimerTask (shardId : Nat) (t : TimerTaskRow) : TimerTask :=
  ⟨shardId, t.fireTimeUnixSeconds, some t.taskSequence, t.taskType, t.processExecutionId,
    t.stateId, t.stateIdSequence, t.info⟩

/-- One pass of the loop over the rows: the least and the greatest sequence so far. -/
def sequenceBoundsStep (b : Int × Int) (t : TimerTaskRow) : Int × Int :=
  (if (t.taskSequence : Int) < b.1 then t.taskSequence else b.1,
    if (t.taskSequence : Int) > b.2 then t.taskSequence else b.2)

/-- `createGetTimerTaskResponse`. -/
def createGetTimerTaskResponse (shardId : Nat) (dbTimerTasks : List TimerTaskRow)
    (reqPageSize : Option Nat) : GetTimerTasksResponse :=
  let resp : GetTimerTasksResponse := { tasks := dbTimerTasks.map (toTimerTask shardId) }
  let resp := match dbTimerTasks.head?, dbTimerTasks.getLast? with
    | some firstTask, some lastTask =>
      let bounds := dbTimerTasks.foldl sequenceBoundsStep (maxInt64, minInt64)
      { resp with
        minFireTimestampSecondsInclusive := firstTask.fireTimeUnixSeconds
        maxFireTimestampSecondsInclusive := lastTask.fireTimeUnixSeconds
        minSequenceInclusive := bounds.1
        maxSequenceInclusive := bounds.2 }
    | _, _ => resp
  match reqPageSize with
  | some pageSize =>
    if dbTimerTasks.length = pageSize then { resp with fullPage := true } else resp
  | none => resp

@[simp] theorem createGetTimerTaskResponse_tasks (shardId : Nat) (rows : List TimerTaskRow)
    (reqPageSize : Option Nat) :
    (createGetTimerTaskResponse shardId rows reqPageSize).tasks =
      rows.map (toTimerTask shardId) := by
  unfold createGetTimerTaskResponse
  cases reqPageSize <;> dsimp only <;> repeat' split
  all_goals rfl

theorem createGetTimerTaskResponse_fullPage (shardId : Nat) (rows : List TimerTaskRow)
    (reqPageSize : Option Nat) :
    (createGetTimerTaskResponse shardId rows reqPageSize).fullPage = true ↔
      reqPageSize = some rows.length := by
  unfold createGetTimerTaskResponse
  cases reqPageSize with
  | none => split <;> simp
  | some n =>
    simp only [Option.some.injEq]
    split <;> split <;> simp_all [eq_comm]

/-- A page with a first and a last row reports their fire times and the loop's bounds. -/
theorem createGetTimerTaskResponse_of_getLast? {shardId : Nat} {rows : List TimerTaskRow}
    {first last : TimerTaskRow} (reqPageSize : Option Nat) (hf : rows.head? = some first)
    (hl : rows.getLast? = some last) :
    let resp := createGetTimerTaskResponse shardId rows reqPageSize
    resp.minFireTimestampSecondsInclusive = first.fireTimeUnixSeconds ∧
      resp.maxFireTimestampSecondsInclusive = last.fireTimeUnixSeconds ∧
      resp.minSequenceInclusive = (rows.foldl sequenceBoundsStep (maxInt64, minInt64)).1 ∧
      resp.maxSequenceInclusive = (rows.foldl sequenceBoundsStep (maxInt64, minInt64)).2 := by
  unfold createGetTimerTaskResponse
  simp only [hf, hl]
  cases reqPageSize with
  | none => exact ⟨rfl, rfl, rfl, rfl⟩
  | some n => by_cases hn : rows.length = n <;> simp [hn]

end Xdb
