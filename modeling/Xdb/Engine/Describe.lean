import Xdb.Store.Basic

/-!
# Describing the Latest Execution

`DescribeLatestProcess` (`api_engine_sql_impl.go`) reads one row of
`SelectCurrentProcessExecution`: the latest-process pointer of `(namespace, processId)`
joined with the process-execution table. The join condition is
`e.process_id = ce.process_id` alone, so every process row with that process id matches,
whatever its namespace and execution id, and `GetContext` keeps the first row the database
returns. Which row that is, the database's scan order decides; the model takes it as an
argument, `order`, the execution ids of the process table in the order the database returns
their rows.

The response carries the execution id of the pointer, and the type, worker URL and start
time of the row the join returned, the start time as `int32(StartTime.Unix())`. No pointer,
or no row to join it with, is not found: `describeLatestProcess` returns `none`.

## Main definitions

* `int32Of`: Go's conversion of an integer to `int32`.
* `selectCurrentProcessExecution`: The pointer joined with the process rows.
* `describeLatestProcess`: `DescribeLatestProcess`.
-/

namespace Xdb

/-- Go's `int32(x)` of an `int64`: the low 32 bits, read as a signed number. -/
def int32Of (x : Int) : Int :=
  (x + 2147483648) % 4294967296 - 2147483648

/-- `xdbapi.ProcessExecutionDescribeResponse`, with the fields `DescribeLatestProcess`
    sets. -/
structure ProcessExecutionDescribeResponse where
  processExecutionId : Uuid
  processType : String
  workerUrl : String
  startTimestamp : Int
  deriving DecidableEq, Repr

/-- `SelectCurrentProcessExecution`: the pointer's execution id, with the first process row
    in the database's `order` whose process id matches; not found without a pointer or a
    matching row. -/
def selectCurrentProcessExecution (s : Store) (order : List Uuid)
    (namespaceName processId : String) : Except TxError (Uuid × ProcessExecutionRow) :=
  match s.latestProcessExecutions namespaceName processId with
  | none => .error .notFound
  | some id =>
    match order.filterMap fun i => (s.processExecutions i).filter (·.processId == processId) with
    | [] => .error .notFound
    | row :: _ => .ok (id, row)

/-- `DescribeLatestProcess`: the response, or `none` when not found. -/
def describeLatestProcess (s : Store) (order : List Uuid) (namespaceName processId : String) :
    Except TxError (Option ProcessExecutionDescribeResponse) :=
  match selectCurrentProcessExecution s order namespaceName processId with
  | .ok (id, row) =>
    .ok (some ⟨id, row.info.processType, row.info.workerURL, int32Of row.startTime⟩)
  | .error .notFound => .ok none
  | .error e => .error e

end Xdb
