import Xdb.Theory.StartState

/-!
# Writing a Row and Reading It Back

What a query reads back after a committed update, decided by the columns the SQL names.
`UpdateProcessExecution` sets status, history sequence, sequence maps and
`wait_to_complete`, and `SelectProcessExecutionForUpdate` selects those; neither names the
waiting-queue column, so the blob the caller wrote is lost and the field reads back as its
zero value. `UpdateAsyncStateExecution` sets the version, the statuses and the last
failure, not the command columns, so the commands and results a wait-until result carries
are never stored: the row keeps the ones it had.

## Theorems

* `update_then_select_drops_waiting_queues_and_commands`: Both round trips, for every row
  and update.
-/

namespace Xdb

/-- Updating a process row and selecting it for update returns the row written with an empty
    waiting-queue blob; updating a state row and selecting it returns the new statuses,
    failure and version with the commands and results the row had before. -/
theorem update_then_select_drops_waiting_queues_and_commands {s : Store}
    {row : ProcessExecutionRowForUpdate} {p : ProcessExecutionRow}
    (hp : s.processExecutions row.processExecutionId = some p)
    {u : AsyncStateExecutionRowForUpdate} {r : AsyncStateExecutionRow}
    (hr : s.asyncStateExecutions ⟨u.processExecutionId, u.stateId, u.stateIdSequence⟩ = some r)
    (hv : r.version = u.previousVersion) :
    (s.updateProcessExecution row >>= fun s' =>
      s'.selectProcessExecutionForUpdate row.processExecutionId) =
        .ok { row with stateExecutionWaitingQueues := {} } ∧
    (s.updateAsyncStateExecution u >>= fun s' =>
      s'.selectAsyncStateExecution ⟨u.processExecutionId, u.stateId, u.stateIdSequence⟩) =
        .ok { r with waitUntilStatus := (u.status.apply r.phases).1,
                     executeStatus := (u.status.apply r.phases).2,
                     version := u.previousVersion + 1, lastFailure := u.lastFailure } := by
  constructor
  · simp [Store.updateProcessExecution, Store.selectProcessExecutionForUpdate, hp, bind,
      Except.bind, ProcessExecutionRow.updatedBy, ProcessExecutionRow.forUpdate]
  · rw [Store.updateAsyncStateExecution, ← hv, Store.conditionalUpdate_of_version hr]
    simp [bind, Except.bind, Store.selectAsyncStateExecution, AsyncStateExecutionRow.written]

theorem update_then_select_drops_registered_command :
    let p := startProcessRow ⟨"ns", "p", "t", "u", some "S", none, none, none⟩ 0
    let row : ProcessExecutionRowForUpdate := { p.forUpdate (.minted 0) with
      stateExecutionWaitingQueues := ⟨[⟨"S", 1, ⟨"q", none⟩, true, none⟩], []⟩ }
    let r := initialRow none none ⟨"", "", "t", "u", none⟩
    let u : AsyncStateExecutionRowForUpdate := ⟨.minted 0, "S", 1, .waitUntilWaiting,
      ⟨some .anyOfCompletion, [], [⟨"q", none⟩]⟩, {}, none, 1⟩
    let s := (Store.empty.setProcessExecution (.minted 0) p).setAsyncStateExecution
      ⟨.minted 0, "S", 1⟩ r
    ((s.updateProcessExecution row >>= fun s' =>
      s'.selectProcessExecutionForUpdate row.processExecutionId) =
        .ok { row with stateExecutionWaitingQueues := {} } ∧
    (s.updateAsyncStateExecution u >>= fun s' =>
      s'.selectAsyncStateExecution ⟨u.processExecutionId, u.stateId, u.stateIdSequence⟩) =
        .ok { r with waitUntilStatus := (u.status.apply r.phases).1,
                     executeStatus := (u.status.apply r.phases).2,
                     version := u.previousVersion + 1, lastFailure := u.lastFailure }) ∧
      row.stateExecutionWaitingQueues ≠ {} ∧ r.waitUntilCommands ≠ u.waitUntilCommands :=
  ⟨update_then_select_drops_waiting_queues_and_commands rfl rfl rfl, by decide, by decide⟩

end Xdb
