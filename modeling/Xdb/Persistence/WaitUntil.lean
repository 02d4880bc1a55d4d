import Xdb.Persistence.LocalQueue

/-!
# Recording a Wait-Until Result

`ProcessWaitUntilExecution` (`wait_until.go`) records what a `WaitUntil` call returned. A
command request whose waiting type is `EMPTY_COMMAND` completes the phase at once
(`CompleteWaitUntilExecution`: `ExecuteRunning` under the snapshot's version, and an
`Execute` task). Any other request, including one with no waiting type and one with no
commands, takes `updateWaitUntilExecution`: the local-queue commands are registered on the
locked process row, the state row moves to `WaitUntilWaiting`, and unconsumed messages are
consumed in the same transaction. No timer task is created for the timer commands. The
request's messages are published last, and an error anywhere rolls everything back.

## Main definitions

* `completeWaitUntilExecution`: `CompleteWaitUntilExecution`.
* `updateWaitUntilExecution`: The command path.
* `doProcessWaitUntilExecutionTx`: The transaction body.
* `processWaitUntilExecution`: The transaction, with its rollback.
-/

namespace Xdb

/-- `persistence.CompleteWaitUntilExecutionRequest`. -/
structure CompleteWaitUntilExecutionRequest where
  taskShardId : Nat
  processExecutionId : Uuid
  stateId : String
  stateIdSequence : Nat
  previousVersion : Nat

/-- `CompleteWaitUntilExecution`: `ExecuteRunning` under the version, then an `Execute` task. -/
def completeWaitUntilExecution (s : Store) (request : CompleteWaitUntilExecutionRequest) :
    Except TxError Store := do
  let s ← s.updateAsyncStateExecutionWithoutCommands ⟨request.processExecutionId,
    request.stateId, request.stateIdSequence, .executeRunning, none, request.previousVersion⟩
  s.insertImmediateTask request.taskShardId request.processExecutionId request.stateId
    request.stateIdSequence .execute {}

/-- The waiting-queue blob with the request's local-queue commands registered. -/
def registerLocalQueueCommands (q : StateExecutionWaitingQueues)
    (request : ProcessWaitUntilExecutionRequest) : StateExecutionWaitingQueues :=
  request.commandRequest.localQueueCommands.foldl
    (fun q c => q.addNewLocalQueueCommandForStateExecution request.stateId
      request.stateIdSequence c (request.commandRequest.waitingType = some .anyOfCompletion)) q

/-- Step 1 of `updateWaitUntilExecution`: with local-queue commands, register them on the
    locked process row; the flag says whether unconsumed messages are waiting. -/
def registerOnProcessRow (s : Store) (request : ProcessWaitUntilExecutionRequest) :
    Except TxError (Bool × Store) :=
  if request.commandRequest.localQueueCommands.isEmpty then .ok (false, s)
  else do
    let prcRow ← s.selectProcessExecutionForUpdate request.processExecutionId
    let waitingQueues := registerLocalQueueCommands prcRow.stateExecutionWaitingQueues request
    let s ← s.updateProcessExecution { prcRow with stateExecutionWaitingQueues := waitingQueues }
    pure (!waitingQueues.unconsumedMessages.isEmpty, s)

/-- `updateWaitUntilExecution`. -/
def updateWaitUntilExecution (s : Store) (request : ProcessWaitUntilExecutionRequest) :
    Except TxError (Bool × Store) := do
  let (toConsumeUnconsumedMessages, s) ← registerOnProcessRow s request
  let s ← s.updateAsyncStateExecution ⟨request.processExecutionId, request.stateId,
    request.stateIdSequence, .waitUntilWaiting, request.commandRequest, {}, none,
    request.prepare.previousVersion⟩
  if toConsumeUnconsumedMessages then
    doProcessLocalQueueMessageTx s ⟨request.taskShardId, 0, request.processExecutionId, []⟩
  else pure (false, s)

/-- `doProcessWaitUntilExecutionTx`; the flag is `HasNewImmediateTask`. -/
def doProcessWaitUntilExecutionTx (s : Store) (request : ProcessWaitUntilExecutionRequest) :
    Except TxError (Bool × Store) := do
  let (hasNewImmediateTask, s) ←
    if request.commandRequest.waitingType = some .emptyCommand then do
      let s ← completeWaitUntilExecution s ⟨request.taskShardId, request.processExecutionId,
        request.stateId, request.stateIdSequence, request.prepare.previousVersion⟩
      pure (true, s)
    else updateWaitUntilExecution s request
  let s ← publishToLocalQueue s request.processExecutionId request.publishToLocalQueue
  pure (hasNewImmediateTask || !request.publishToLocalQueue.isEmpty, s)

/-- The status a wait-until result writes: `ExecuteRunning` for `EMPTY_COMMAND`, else
    `WaitUntilWaiting`. -/
def waitUntilStatusWrite (c : CommandRequest) : StatusWrite :=
  if c.waitingType = some .emptyCommand then .executeRunning else .waitUntilWaiting

theorem unconsumedMessages_registerLocalQueueCommands (q : StateExecutionWaitingQueues)
    (request : ProcessWaitUntilExecutionRequest) :
    (registerLocalQueueCommands q request).unconsumedMessages = q.unconsumedMessages := by
  unfold registerLocalQueueCommands
  induction request.commandRequest.localQueueCommands generalizing q with
  | nil => rfl
  | cons c cs ih => exact ih _

/-- Registering on the locked row finds no unconsumed message and writes the row back
    unchanged: the blob the lock reads is always empty, and its column is not written. -/
theorem registerOnProcessRow_eq_ok {s s' : Store} {request : ProcessWaitUntilExecutionRequest}
    {b : Bool} (h : registerOnProcessRow s request = .ok (b, s')) : b = false ∧ s' = s := by
  unfold registerOnProcessRow at h
  split at h
  · cases h
    exact ⟨rfl, rfl⟩
  · simp only [bind_eq_ok, Store.selectProcessExecutionForUpdate_eq_ok] at h
    obtain ⟨_, ⟨r, hr, rfl⟩, s₁, h₁, h⟩ := h
    simp only [Store.updateProcessExecution, Store.writeProcessExecution_forUpdate hr,
      Except.ok.injEq] at h₁
    subst h₁
    simp [unconsumedMessages_registerLocalQueueCommands, ProcessExecutionRow.forUpdate, pure,
      Except.pure] at h
    obtain ⟨rfl, rfl⟩ := h
    exact ⟨rfl, rfl⟩

/-- The command path writes `WaitUntilWaiting` under the snapshot's version and nothing
    else: the chained consumption never runs. -/
theorem updateWaitUntilExecution_eq_ok {s s' : Store}
    {request : ProcessWaitUntilExecutionRequest} {b : Bool}
    (h : updateWaitUntilExecution s request = .ok (b, s')) :
    b = false ∧ s.conditionalUpdate request.key request.prepare.previousVersion
      .waitUntilWaiting none = .ok s' := by
  simp only [updateWaitUntilExecution, bind_eq_ok] at h
  obtain ⟨⟨flag, s₁⟩, h₁, s₂, h₂, h⟩ := h
  obtain ⟨rfl, rfl⟩ := registerOnProcessRow_eq_ok h₁
  simp only [Bool.false_eq_true, ↓reduceIte, pure, Except.pure, Except.ok.injEq,
    Prod.mk.injEq] at h
  obtain ⟨rfl, rfl⟩ := h
  exact ⟨rfl, h₂⟩

/-- A committed wait-until result: the version-gated status write, the `Execute` task of an
    empty command, then the published messages. -/
theorem doProcessWaitUntilExecutionTx_eq_ok {s s' : Store}
    {request : ProcessWaitUntilExecutionRequest} {b : Bool}
    (h : doProcessWaitUntilExecutionTx s request = .ok (b, s')) :
    ∃ s₁, s.conditionalUpdate request.key request.prepare.previousVersion
        (waitUntilStatusWrite request.commandRequest) none = .ok s₁ ∧
      publishToLocalQueue (if request.commandRequest.waitingType = some .emptyCommand then
          s₁.appendImmediateTask request.taskShardId request.processExecutionId request.stateId
            request.stateIdSequence .execute {}
        else s₁) request.processExecutionId request.publishToLocalQueue = .ok s' := by
  unfold doProcessWaitUntilExecutionTx at h
  unfold waitUntilStatusWrite
  split at h <;> rename_i hc <;> simp only [hc, ↓reduceIte]
  · simp only [completeWaitUntilExecution, Store.insertImmediateTask, bind_eq_ok, pure,
      Except.pure, Except.ok.injEq] at h
    obtain ⟨_, ⟨s₁, h₁, rfl⟩, _, rfl, s₃, h₃, h⟩ := h
    obtain ⟨-, rfl⟩ := Prod.mk.inj h
    exact ⟨s₁, h₁, h₃⟩
  · simp only [bind_eq_ok, pure, Except.pure, Except.ok.injEq] at h
    obtain ⟨⟨_, s₂⟩, h₂, s₃, h₃, h⟩ := h
    obtain ⟨-, rfl⟩ := Prod.mk.inj h
    exact ⟨s₂, (updateWaitUntilExecution_eq_ok h₂).2, h₃⟩

/-- `ProcessWaitUntilExecution`: the transaction, rolled back on error. -/
def processWaitUntilExecution (s : Store) (request : ProcessWaitUntilExecutionRequest) :
    Except TxError Bool × Store :=
  commitOrRollback s (doProcessWaitUntilExecutionTx s request)

end Xdb
