import Xdb.Persistence.Common

/-!
# Backoff and Timer Firing

A failed worker call that may be retried leaves the immediate-task table for the
timer-task table. `BackoffImmediateTask` is not among the sources, so it is modelled from
the spec: "delete the current immediate task, insert a timer task at
`FireTimestampSeconds` carrying the updated attempt count, first-attempt timestamp, and
last-failure metadata. Conditional update of the state-execution row records the last
failure but does not bump its phase status."

The timer side is not among the sources either. Following the spec's "identical
lifecycle", a due timer task is moved back to the immediate-task table in one transaction,
keeping its type and info.

## Main definitions

* `backoffImmediateTask`: The backoff transaction, with its rollback.
* `convertTimerTaskToImmediateTask`: A due timer task becomes an immediate task again.

## Theorems

* `doBackoffImmediateTaskTx_eq_ok`: What a committed backoff writes.
-/

namespace Xdb

/-- `persistence.BackoffImmediateTaskRequest`. -/
structure BackoffImmediateTaskRequest where
  lastFailureStatus : Int
  lastFailureDetails : List UInt8
  prep : PrepareStateExecutionResponse
  fireTimestampSeconds : Int
  task : ImmediateTaskRow

/-- The backoff transaction body. Modelled from the spec. -/
def doBackoffImmediateTaskTx (s : Store) (request : BackoffImmediateTaskRequest) :
    Except TxError Store := do
  let t := request.task
  let s ← s.conditionalUpdate t.key request.prep.previousVersion .unchanged
    (some ⟨request.lastFailureStatus, request.lastFailureDetails⟩)
  let s ← s.deleteImmediateTask t.shardId t.taskSequence
  s.insertTimerTask t.shardId request.fireTimestampSeconds t.processExecutionId t.stateId
    t.stateIdSequence t.taskType t.info

/-- `BackoffImmediateTask`: the transaction, rolled back on error. Modelled from the spec. -/
def backoffImmediateTask (s : Store) (request : BackoffImmediateTaskRequest) :
    Except TxError Unit × Store :=
  match doBackoffImmediateTaskTx s request with
  | .ok s' => (.ok (), s')
  | .error e => (.error e, s)

/-- A committed backoff: the row rewritten under the snapshot's version, then the task moved
    from the immediate-task table to the end of the timer-task table. -/
theorem doBackoffImmediateTaskTx_eq_ok {s s' : Store} {request : BackoffImmediateTaskRequest}
    (h : doBackoffImmediateTaskTx s request = .ok s') :
    ∃ s₁, s.conditionalUpdate request.task.key request.prep.previousVersion .unchanged
        (some ⟨request.lastFailureStatus, request.lastFailureDetails⟩) = .ok s₁ ∧
      s' = (s₁.removeImmediateTask request.task.shardId request.task.taskSequence).appendTimerTask
        request.task.shardId request.fireTimestampSeconds request.task.processExecutionId
        request.task.stateId request.task.stateIdSequence request.task.taskType
        request.task.info := by
  simp only [doBackoffImmediateTaskTx, bind_eq_ok, Store.deleteImmediateTask,
    Store.insertTimerTask, Except.ok.injEq] at h
  obtain ⟨s₁, h₁, _, rfl, rfl⟩ := h
  exact ⟨s₁, h₁, rfl⟩

/-- A due timer task back in the immediate-task table. Modelled from the spec. -/
def convertTimerTaskToImmediateTask (s : Store) (t : TimerTaskRow) : Store :=
  { s with
    timerTasks := s.timerTasks.filter fun u =>
      ¬(u.shardId = t.shardId ∧ u.fireTimeUnixSeconds = t.fireTimeUnixSeconds ∧
        u.taskSequence = t.taskSequence)
    immediateTasks := s.immediateTasks ++ [⟨t.shardId, s.nextImmediateTaskSequence,
      t.processExecutionId, t.stateId, t.stateIdSequence, t.taskType, t.info⟩]
    nextImmediateTaskSequence := s.nextImmediateTaskSequence + 1 }

end Xdb
