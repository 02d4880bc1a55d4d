import Xdb.Model.WaitingQueues

/-!
# The Store and its Queries

The database as the engine sees it: six tables and the two task sequence generators, and
one function per query of the Postgres extension (`transactional.go`,
`non_transactional.go`). A query either fails with the error class the session reports
(`IsDupEntryError`, `IsNotFoundError`, `IsConditionalUpdateFailure`) or returns the new
store. A transaction is a function of the store built from these queries; its rollback is
returning the store it started from, which is faithful because every query the
transactions issue goes through their `tx` handle.

Each query touches exactly the columns its SQL names. Two of the omissions matter:
`UpdateProcessExecution` and `SelectProcessExecutionForUpdate` do not name the process
row's waiting-queue column, and `UpdateAsyncStateExecution` does not name the command
columns. The model carries the omitted fields in the Go structs and drops them in the
query, as the SQL does.

`UpdateAsyncStateExecutionWithoutCommands` has no SQL among the sources; it is modelled
from the spec as the version-gated update of the status and the last failure.

Minted UUIDs come from `nextUuid`, a counter that only goes up, standing for the random
generator.

## Main definitions

* `Store`: The tables.
* `ProcessExecutionRowForUpdate`: The Go struct the process-row queries read and write.
* `Store.updateAsyncStateExecution`: The version-gated update of a state row.
* `Store.batchUpdateAsyncStateExecutionsToAbortRunning`: The batch abort.
* `Store.insertImmediateTask`: Insert a task under the next sequence.

## Theorems

* `bind_eq_ok`: Inverting a step of a transaction that succeeded.
* `conditionalUpdate_eq_ok`: A version-gated update succeeds exactly at the given version,
  and writes the status and bumps the version by one.
* `abortRunning_*`: What the batch abort's `CASE` expressions do to one row.
-/

namespace Xdb

/-- The error classes of the session's `ErrorChecker`, and the data-corruption error. -/
inductive TxError
  | dupEntry
  | notFound
  | conditionalUpdateFailure
  | dataCorruption (stateId : String) (stateIdSequence : Nat)
  deriving DecidableEq, Repr

theorem bind_eq_ok {ε α β : Type} {x : Except ε α} {f : α → Except ε β} {b : β} :
    x >>= f = .ok b ↔ ∃ a, x = .ok a ∧ f a = .ok b := by
  cases x <;> simp [bind, Except.bind]

/-- `extensions.ProcessExecutionRowForUpdate`: what the process-row queries exchange. -/
structure ProcessExecutionRowForUpdate where
  processExecutionId : Uuid
  status : ProcessExecutionStatus
  historyEventIdSequence : Nat
  stateExecutionSequenceMaps : StateExecutionSequenceMaps
  waitToComplete : Bool
  stateExecutionWaitingQueues : StateExecutionWaitingQueues := {}

/-- `extensions.AsyncStateExecutionRowForUpdate`: the update that also carries commands. -/
structure AsyncStateExecutionRowForUpdate where
  processExecutionId : Uuid
  stateId : String
  stateIdSequence : Nat
  status : StatusWrite
  waitUntilCommands : CommandRequest
  waitUntilCommandResults : CommandResultsJson
  lastFailure : Option StateExecutionFailureJson
  previousVersion : Nat

/-- `extensions.AsyncStateExecutionRowForUpdateWithoutCommands`. -/
structure AsyncStateExecutionRowForUpdateWithoutCommands where
  processExecutionId : Uuid
  stateId : String
  stateIdSequence : Nat
  status : StatusWrite
  lastFailure : Option StateExecutionFailureJson
  previousVersion : Nat

/-- The database: the six tables and the sequence generators. -/
structure Store where
  latestProcessExecutions : String → String → Option Uuid
  processExecutions : Uuid → Option ProcessExecutionRow
  asyncStateExecutions : AsyncStateExecutionKey → Option AsyncStateExecutionRow
  immediateTasks : List ImmediateTaskRow
  timerTasks : List TimerTaskRow
  localQueue : List LocalQueueRow
  nextImmediateTaskSequence : Nat
  nextTimerTaskSequence : Nat
  nextUuid : Nat

/-- The row after a version-gated write of a status and a last failure. -/
def AsyncStateExecutionRow.written (r : AsyncStateExecutionRow) (w : StatusWrite)
    (lastFailure : Option StateExecutionFailureJson) : AsyncStateExecutionRow :=
  { r with waitUntilStatus := (w.apply r.phases).1, executeStatus := (w.apply r.phases).2,
           version := r.version + 1, lastFailure := lastFailure }

/-- The columns `SelectProcessExecutionForUpdate` reads, into the Go row struct. -/
def ProcessExecutionRow.forUpdate (r : ProcessExecutionRow) (id : Uuid) :
    ProcessExecutionRowForUpdate :=
  ⟨id, r.status, r.historyEventIdSequence, r.stateExecutionSequenceMaps, r.waitToComplete, {}⟩

/-- The row with the four columns `UpdateProcessExecution` sets. -/
def ProcessExecutionRow.updatedBy (r : ProcessExecutionRow) (row : ProcessExecutionRowForUpdate) :
    ProcessExecutionRow :=
  { r with status := row.status, historyEventIdSequence := row.historyEventIdSequence,
           stateExecutionSequenceMaps := row.stateExecutionSequenceMaps,
           waitToComplete := row.waitToComplete }

namespace Store

/-- The empty database. -/
def empty : Store :=
  ⟨fun _ _ => none, fun _ => none, fun _ => none, [], [], [], 0, 0, 0⟩

/-- The store with the state row at `k` replaced. -/
def setAsyncStateExecution (s : Store) (k : AsyncStateExecutionKey)
    (r : AsyncStateExecutionRow) : Store :=
  { s with asyncStateExecutions := fun k' => if k' = k then some r else s.asyncStateExecutions k' }

/-- `uuid.MustNewUUID()`: a fresh id and the advanced generator. -/
def mustNewUUID (s : Store) : Uuid × Store :=
  (.minted s.nextUuid, { s with nextUuid := s.nextUuid + 1 })

/-- `InsertLatestProcessExecution`: the primary key is `(namespace, process_id)`. -/
def insertLatestProcessExecution (s : Store) (row : LatestProcessExecutionRow) :
    Except TxError Store :=
  match s.latestProcessExecutions row.namespaceName row.processId with
  | some _ => .error .dupEntry
  | none => .ok { s with latestProcessExecutions := fun ns p =>
      if ns = row.namespaceName ∧ p = row.processId then some row.processExecutionId
      else s.latestProcessExecutions ns p }

/-- The store with the process row at `id` replaced. -/
def setProcessExecution (s : Store) (id : Uuid) (row : ProcessExecutionRow) : Store :=
  { s with processExecutions := fun i => if i = id then some row else s.processExecutions i }

/-- `InsertProcessExecution`; `wait_to_complete` is left to its default, false. -/
def insertProcessExecution (s : Store) (id : Uuid) (row : ProcessExecutionRow) :
    Except TxError Store :=
  match s.processExecutions id with
  | some _ => .error .dupEntry
  | none => .ok (s.setProcessExecution id { row with waitToComplete := false })

/-- `SelectProcessExecutionForUpdate`: the selected columns, no waiting-queue column. -/
def selectProcessExecutionForUpdate (s : Store) (id : Uuid) :
    Except TxError ProcessExecutionRowForUpdate :=
  match s.processExecutions id with
  | none => .error .notFound
  | some r => .ok (r.forUpdate id)

/-- The store after `UpdateProcessExecution`. -/
def writeProcessExecution (s : Store) (row : ProcessExecutionRowForUpdate) : Store :=
  { s with processExecutions := fun i =>
    if i = row.processExecutionId then (s.processExecutions i).map (·.updatedBy row)
    else s.processExecutions i }

/-- `UpdateProcessExecution`: sets the four columns the query names, by id; an absent row
    is no error, since the affected-row count is not checked. -/
def updateProcessExecution (s : Store) (row : ProcessExecutionRowForUpdate) :
    Except TxError Store :=
  .ok (s.writeProcessExecution row)

/-- `InsertAsyncStateExecution`: the primary key is the state execution's key. -/
def insertAsyncStateExecution (s : Store) (k : AsyncStateExecutionKey)
    (row : AsyncStateExecutionRow) : Except TxError Store :=
  match s.asyncStateExecutions k with
  | some _ => .error .dupEntry
  | none => .ok (s.setAsyncStateExecution k row)

/-- `UPDATE ... SET version = :previous_version + 1, <status>, last_failure WHERE <key> AND
    version = :previous_version`, failing unless exactly one row is affected. -/
def conditionalUpdate (s : Store) (k : AsyncStateExecutionKey) (previousVersion : Nat)
    (w : StatusWrite) (lastFailure : Option StateExecutionFailureJson) : Except TxError Store :=
  match s.asyncStateExecutions k with
  | some r =>
    if r.version = previousVersion then
      .ok (s.setAsyncStateExecution k (r.written w lastFailure))
    else .error .conditionalUpdateFailure
  | none => .error .conditionalUpdateFailure

/-- `UpdateAsyncStateExecution`: the query names no command column, so the commands and
    results the row carries are not written. -/
def updateAsyncStateExecution (s : Store) (row : AsyncStateExecutionRowForUpdate) :
    Except TxError Store :=
  s.conditionalUpdate ⟨row.processExecutionId, row.stateId, row.stateIdSequence⟩
    row.previousVersion row.status row.lastFailure

/-- `UpdateAsyncStateExecutionWithoutCommands`.
    Modelled from the spec: its query is not among the sources. -/
def updateAsyncStateExecutionWithoutCommands (s : Store)
    (row : AsyncStateExecutionRowForUpdateWithoutCommands) : Except TxError Store :=
  s.conditionalUpdate ⟨row.processExecutionId, row.stateId, row.stateIdSequence⟩
    row.previousVersion row.status row.lastFailure

/-- One row under the batch abort's `CASE` expressions: a phase at `1` (running) becomes
    `5` (aborted), and the version goes up when either phase was running. -/
def abortRunning (r : AsyncStateExecutionRow) : AsyncStateExecutionRow :=
  { r with
    version := if r.waitUntilStatus.toNat = 1 ∨ r.executeStatus.toNat = 1 then r.version + 1
      else r.version
    waitUntilStatus := if r.waitUntilStatus.toNat = 1 then .aborted else r.waitUntilStatus
    executeStatus := if r.executeStatus.toNat = 1 then .aborted else r.executeStatus }

/-- The store after the batch abort of the process's rows. -/
def abortRunningOf (s : Store) (id : Uuid) : Store :=
  { s with asyncStateExecutions := fun k =>
    if k.processExecutionId = id then (s.asyncStateExecutions k).map abortRunning
    else s.asyncStateExecutions k }

/-- `BatchUpdateAsyncStateExecutionsToAbortRunning`: every row of the process. -/
def batchUpdateAsyncStateExecutionsToAbortRunning (s : Store) (id : Uuid) :
    Except TxError Store :=
  .ok (s.abortRunningOf id)

/-- The store with one more immediate task, under the next sequence. -/
def appendImmediateTask (s : Store) (shardId : Nat) (id : Uuid) (stateId : String)
    (stateIdSequence : Nat) (taskType : ImmediateTaskType) (info : ImmediateTaskInfoJson) :
    Store :=
  { s with
    immediateTasks := s.immediateTasks ++
      [⟨shardId, s.nextImmediateTaskSequence, id, stateId, stateIdSequence, taskType, info⟩]
    nextImmediateTaskSequence := s.nextImmediateTaskSequence + 1 }

/-- `InsertImmediateTask`: the row takes the next value of the table's sequence. The database
    draws that value when the INSERT runs and shows the row when its transaction commits; this
    store, whose transactions run one at a time, draws it with the commit, which is the case
    of one transaction in flight (`Theory.TaskCommits` interleaves the draws). -/
def insertImmediateTask (s : Store) (shardId : Nat) (id : Uuid) (stateId : String)
    (stateIdSequence : Nat) (taskType : ImmediateTaskType) (info : ImmediateTaskInfoJson) :
    Except TxError Store :=
  .ok (s.appendImmediateTask shardId id stateId stateIdSequence taskType info)

/-- The store with one more timer task, under the next sequence. -/
def appendTimerTask (s : Store) (shardId : Nat) (fireTime : Int) (id : Uuid)
    (stateId : String) (stateIdSequence : Nat) (taskType : ImmediateTaskType)
    (info : ImmediateTaskInfoJson) : Store :=
  { s with
    timerTasks := s.timerTasks ++ [⟨shardId, fireTime, s.nextTimerTaskSequence, id, stateId,
      stateIdSequence, taskType, info⟩]
    nextTimerTaskSequence := s.nextTimerTaskSequence + 1 }

/-- `InsertTimerTask`: the row takes the next value of the table's sequence. -/
def insertTimerTask (s : Store) (shardId : Nat) (fireTime : Int) (id : Uuid)
    (stateId : String) (stateIdSequence : Nat) (taskType : ImmediateTaskType)
    (info : ImmediateTaskInfoJson) : Except TxError Store :=
  .ok (s.appendTimerTask shardId fireTime id stateId stateIdSequence taskType info)

/-- The store without the immediate task of that shard and sequence. -/
def removeImmediateTask (s : Store) (shardId taskSequence : Nat) : Store :=
  { s with immediateTasks := s.immediateTasks.filter fun t =>
    ¬(t.shardId = shardId ∧ t.taskSequence = taskSequence) }

/-- `DeleteImmediateTask`: by shard and sequence. -/
def deleteImmediateTask (s : Store) (shardId taskSequence : Nat) : Except TxError Store :=
  .ok (s.removeImmediateTask shardId taskSequence)

/-- `DeleteTimerTask`: by shard, fire time and sequence. -/
def deleteTimerTask (s : Store) (shardId : Nat) (fireTime : Int) (taskSequence : Nat) :
    Except TxError Store :=
  .ok { s with timerTasks := s.timerTasks.filter fun t =>
    ¬(t.shardId = shardId ∧ t.fireTimeUnixSeconds = fireTime ∧ t.taskSequence = taskSequence) }

/-- `InsertLocalQueue`: a dedup id may appear once per process and queue.
    Modelled from the spec: the table's keys are not among the sources. -/
def insertLocalQueue (s : Store) (row : LocalQueueRow) : Except TxError Store :=
  if s.localQueue.any fun r => r.processExecutionId = row.processExecutionId ∧
      r.queueName = row.queueName ∧ r.dedupId = row.dedupId then .error .dupEntry
  else .ok { s with localQueue := s.localQueue ++ [row] }

/-- `SelectAsyncStateExecution`, outside any transaction. -/
def selectAsyncStateExecution (s : Store) (k : AsyncStateExecutionKey) :
    Except TxError AsyncStateExecutionRow :=
  match s.asyncStateExecutions k with
  | some r => .ok r
  | none => .error .notFound

theorem conditionalUpdate_eq_ok {s s' : Store} {k : AsyncStateExecutionKey} {v : Nat}
    {w : StatusWrite} {f : Option StateExecutionFailureJson}
    (h : s.conditionalUpdate k v w f = .ok s') :
    ∃ r, s.asyncStateExecutions k = some r ∧ r.version = v ∧
      s' = s.setAsyncStateExecution k (r.written w f) := by
  unfold conditionalUpdate at h
  split at h
  · rename_i r hr
    split at h
    · exact ⟨r, hr, ‹_›, (Except.ok.inj h).symm⟩
    · cases h
  · cases h

theorem conditionalUpdate_of_version {s : Store} {k : AsyncStateExecutionKey}
    {r : AsyncStateExecutionRow} (hr : s.asyncStateExecutions k = some r) (w : StatusWrite)
    (f : Option StateExecutionFailureJson) :
    s.conditionalUpdate k r.version w f = .ok (s.setAsyncStateExecution k (r.written w f)) := by
  simp [conditionalUpdate, hr]

theorem conditionalUpdate_error {s : Store} {k : AsyncStateExecutionKey} {v : Nat}
    (h : ∀ r, s.asyncStateExecutions k = some r → r.version ≠ v) (w : StatusWrite)
    (f : Option StateExecutionFailureJson) :
    s.conditionalUpdate k v w f = .error .conditionalUpdateFailure := by
  unfold conditionalUpdate
  split
  · rename_i r hr
    simp [h r hr]
  · rfl

@[simp] theorem setAsyncStateExecution_asyncStateExecutions (s : Store)
    (k k' : AsyncStateExecutionKey) (r : AsyncStateExecutionRow) :
    (s.setAsyncStateExecution k r).asyncStateExecutions k' =
      if k' = k then some r else s.asyncStateExecutions k' := rfl

@[simp] theorem written_version (r : AsyncStateExecutionRow) (w : StatusWrite)
    (f : Option StateExecutionFailureJson) : (r.written w f).version = r.version + 1 := rfl

@[simp] theorem written_phases (r : AsyncStateExecutionRow) (w : StatusWrite)
    (f : Option StateExecutionFailureJson) : (r.written w f).phases = w.apply r.phases := rfl

theorem abortRunning_waitUntilStatus (r : AsyncStateExecutionRow) :
    (abortRunning r).waitUntilStatus =
      if r.waitUntilStatus = .running then .aborted else r.waitUntilStatus := by
  cases h : r.waitUntilStatus <;> simp [abortRunning, h, StateExecutionStatus.toNat]

theorem abortRunning_executeStatus (r : AsyncStateExecutionRow) :
    (abortRunning r).executeStatus =
      if r.executeStatus = .running then .aborted else r.executeStatus := by
  cases h : r.executeStatus <;> simp [abortRunning, h, StateExecutionStatus.toNat]

theorem abortRunning_version (r : AsyncStateExecutionRow) :
    (abortRunning r).version = if r.waitUntilStatus = .running ∨ r.executeStatus = .running
      then r.version + 1 else r.version := by
  have hw : r.waitUntilStatus.toNat = 1 ↔ r.waitUntilStatus = .running := by
    cases r.waitUntilStatus <;> simp [StateExecutionStatus.toNat]
  have he : r.executeStatus.toNat = 1 ↔ r.executeStatus = .running := by
    cases r.executeStatus <;> simp [StateExecutionStatus.toNat]
  simp only [abortRunning, hw, he]

/-- A row with no running phase is left exactly as it was. -/
theorem abortRunning_of_not_running {r : AsyncStateExecutionRow}
    (hw : r.waitUntilStatus ≠ .running) (he : r.executeStatus ≠ .running) :
    abortRunning r = r := by
  have hw' : ¬r.waitUntilStatus.toNat = 1 := by
    cases h : r.waitUntilStatus <;> simp_all [StateExecutionStatus.toNat]
  have he' : ¬r.executeStatus.toNat = 1 := by
    cases h : r.executeStatus <;> simp_all [StateExecutionStatus.toNat]
  simp [abortRunning, hw', he']

theorem insertLatestProcessExecution_eq_ok {s s' : Store} {row : LatestProcessExecutionRow}
    (h : s.insertLatestProcessExecution row = .ok s') :
    s.latestProcessExecutions row.namespaceName row.processId = none ∧
      s' = { s with latestProcessExecutions := fun ns p =>
        if ns = row.namespaceName ∧ p = row.processId then some row.processExecutionId
        else s.latestProcessExecutions ns p } := by
  unfold insertLatestProcessExecution at h
  split at h
  · cases h
  · exact ⟨‹_›, (Except.ok.inj h).symm⟩

theorem insertProcessExecution_eq_ok {s s' : Store} {id : Uuid} {row : ProcessExecutionRow}
    (h : s.insertProcessExecution id row = .ok s') :
    s.processExecutions id = none ∧
      s' = s.setProcessExecution id { row with waitToComplete := false } := by
  unfold insertProcessExecution at h
  split at h
  · cases h
  · exact ⟨‹_›, (Except.ok.inj h).symm⟩

theorem selectProcessExecutionForUpdate_eq_ok {s : Store} {id : Uuid}
    {row : ProcessExecutionRowForUpdate} :
    s.selectProcessExecutionForUpdate id = .ok row ↔
      ∃ r, s.processExecutions id = some r ∧ row = r.forUpdate id := by
  unfold selectProcessExecutionForUpdate
  cases s.processExecutions id <;> simp [eq_comm]

@[simp] theorem writeProcessExecution_processExecutions (s : Store)
    (row : ProcessExecutionRowForUpdate) (i : Uuid) :
    (s.writeProcessExecution row).processExecutions i =
      if i = row.processExecutionId then (s.processExecutions i).map (·.updatedBy row)
      else s.processExecutions i := rfl

/-- Writing back the locked row, whatever its waiting-queue field holds, changes nothing:
    the query sets only columns the lock read. -/
theorem writeProcessExecution_forUpdate {s : Store} {id : Uuid} {r : ProcessExecutionRow}
    (h : s.processExecutions id = some r) (q : StateExecutionWaitingQueues) :
    s.writeProcessExecution { r.forUpdate id with stateExecutionWaitingQueues := q } = s := by
  cases s
  simp only [writeProcessExecution, Store.mk.injEq, and_true, true_and]
  funext i
  split
  · subst i
    simp_all [ProcessExecutionRow.updatedBy, ProcessExecutionRow.forUpdate]
  · rfl

end Store

end Xdb
