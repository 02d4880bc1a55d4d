import Xdb.Persistence.Common

/-!
# Local Queues

Publishing messages and consuming them. `publishToLocalQueue` is in the sources: for each
message, in list order, it reads the worker's dedup id with `uuid.ParseUUID`, mints a
fresh one where that gives nil, inserts the local-queue row and then a
`NewLocalQueueMessage` task on the default shard carrying the queue name and dedup id.
Every effect goes through the transaction, so a failure anywhere rolls back the
messages before it too.

`ProcessLocalQueueMessage` and `doProcessLocalQueueMessageTx` are not in the sources and
are modelled from the spec: lock the process row, consume the messages against the
waiting-queue blob, write the row back, and move every satisfied state execution to
`ExecuteRunning` under its current version, with its command results and an `Execute`
task. The blob is read from the row struct the locking query fills, whose waiting-queue
field that query never selects.

## Main definitions

* `publishToLocalQueue`: Insert the messages and their tasks.
* `doProcessLocalQueueMessageTx`: Consume messages inside a transaction.
* `processLocalQueueMessage`: The consuming transaction, with its rollback.

## Theorems

* `publishToLocalQueue_eq_ok`: A publish appends the rows and their tasks, in message order.
-/

namespace Xdb

/-- The dedup id a published message is stored under, and the generator after minting. -/
def dedupIdOf (s : Store) (m : LocalQueueMessage) : Uuid × Store :=
  match Uuid.parse (m.dedupId.getD "") with
  | some u => (u, s)
  | none => s.mustNewUUID

/-- `publishToLocalQueue`. -/
def publishToLocalQueue (s : Store) (processExecutionId : Uuid) :
    List LocalQueueMessage → Except TxError Store
  | [] => .ok s
  | m :: ms => do
    let (dedupId, s) := dedupIdOf s m
    let s ← s.insertLocalQueue ⟨processExecutionId, m.queueName, dedupId, m.payload⟩
    let s ← s.insertImmediateTask defaultShardId processExecutionId "" 0
      .newLocalQueueMessage { localQueueMessageInfo := some ⟨m.queueName, dedupId, none⟩ }
    publishToLocalQueue s processExecutionId ms

/-- `persistence.ProcessLocalQueueMessagesRequest`. -/
structure ProcessLocalQueueMessagesRequest where
  taskShardId : Nat
  taskSequence : Nat
  processExecutionId : Uuid
  messages : List LocalQueueMessageInfoJson

/-- The command results of a satisfied state execution, keyed by command index. -/
def satisfiedResults (r : SatisfiedStateExecution) : CommandResultsJson :=
  { localQueueResults := r.results.enum.filterMap fun (idx, m) =>
      m.map fun m => (idx, [⟨m.dedupId, m.payload⟩]) }

/-- Move each satisfied state execution to `ExecuteRunning` and give it an `Execute` task.
    Modelled from the spec. -/
def executeSatisfied (s : Store) (processExecutionId : Uuid) (shardId : Nat) :
    List SatisfiedStateExecution → Except TxError Store
  | [] => .ok s
  | r :: rs => do
    let k : AsyncStateExecutionKey := ⟨processExecutionId, r.stateId, r.stateIdSequence⟩
    let row ← s.selectAsyncStateExecution k
    let s ← s.updateAsyncStateExecution ⟨processExecutionId, r.stateId, r.stateIdSequence,
      .executeRunning, row.waitUntilCommands, satisfiedResults r, none, row.version⟩
    let s ← s.insertImmediateTask shardId processExecutionId r.stateId r.stateIdSequence
      .execute {}
    executeSatisfied s processExecutionId shardId rs

/-- `doProcessLocalQueueMessageTx`. Modelled from the spec. -/
def doProcessLocalQueueMessageTx (s : Store) (request : ProcessLocalQueueMessagesRequest) :
    Except TxError (Bool × Store) := do
  let prcRow ← s.selectProcessExecutionForUpdate request.processExecutionId
  let (waitingQueues, satisfied) :=
    prcRow.stateExecutionWaitingQueues.consumeMessages request.messages
  let s ← s.updateProcessExecution { prcRow with stateExecutionWaitingQueues := waitingQueues }
  let s ← executeSatisfied s request.processExecutionId request.taskShardId satisfied
  pure (!satisfied.isEmpty, s)

/-- `persistence.ProcessLocalQueueMessageRequest`: one message, as its task carries it. -/
structure ProcessLocalQueueMessageRequest where
  taskShardId : Nat
  taskSequence : Nat
  processExecutionId : Uuid
  queueName : String
  dedupId : Uuid
  payload : Option EncodedObject

/-- `ProcessLocalQueueMessage`: one transaction, rolled back on error.
    Modelled from the spec. -/
def processLocalQueueMessage (s : Store) (request : ProcessLocalQueueMessageRequest) :
    Except TxError Bool × Store :=
  commitOrRollback s (doProcessLocalQueueMessageTx s ⟨request.taskShardId, request.taskSequence,
    request.processExecutionId, [⟨request.queueName, request.dedupId, request.payload⟩]⟩)

/-- Consuming against the locked row never satisfies a state execution, since the blob the
    lock reads is always empty, and the row is written back unchanged. -/
theorem doProcessLocalQueueMessageTx_eq_ok {s s' : Store}
    {request : ProcessLocalQueueMessagesRequest} {b : Bool}
    (h : doProcessLocalQueueMessageTx s request = .ok (b, s')) : b = false ∧ s' = s := by
  simp only [doProcessLocalQueueMessageTx, bind_eq_ok,
    Store.selectProcessExecutionForUpdate_eq_ok] at h
  obtain ⟨_, ⟨r, hr, rfl⟩, s₁, h₁, h⟩ := h
  have hsat := StateExecutionWaitingQueues.consumeMessages_snd_of_waiting_nil
    (q := (r.forUpdate request.processExecutionId).stateExecutionWaitingQueues) rfl
    request.messages
  simp only [hsat, Store.updateProcessExecution, Store.writeProcessExecution_forUpdate hr,
    Except.ok.injEq] at h₁ h
  subst h₁
  simp [executeSatisfied, pure, Except.pure] at h
  exact ⟨h.1, h.2.symm⟩

/-- `ProcessLocalQueueMessage` leaves the store as it was, committed or not. -/
theorem processLocalQueueMessage_snd (s : Store) (request : ProcessLocalQueueMessageRequest) :
    (processLocalQueueMessage s request).2 = s := by
  unfold processLocalQueueMessage commitOrRollback
  split
  · exact (doProcessLocalQueueMessageTx_eq_ok ‹_›).2
  · rfl

/-- The `NewLocalQueueMessage` task of one published message. -/
def localQueueTask (processExecutionId : Uuid) (seq : Nat) (row : LocalQueueRow) :
    ImmediateTaskRow :=
  ⟨defaultShardId, seq, processExecutionId, "", 0, .newLocalQueueMessage,
    { localQueueMessageInfo := some ⟨row.queueName, row.dedupId, none⟩ }⟩

/-- The tasks of published rows, under consecutive sequences from `seq`. -/
def localQueueTasks (processExecutionId : Uuid) (seq : Nat) : List LocalQueueRow →
    List ImmediateTaskRow
  | [] => []
  | r :: rs =>
    localQueueTask processExecutionId seq r :: localQueueTasks processExecutionId (seq + 1) rs

/-- A stored row is the published message under the process and its dedup id. -/
def PublishedAs (processExecutionId : Uuid) (r : LocalQueueRow) (m : LocalQueueMessage) : Prop :=
  r.processExecutionId = processExecutionId ∧ r.queueName = m.queueName ∧ r.payload = m.payload

theorem dedupIdOf_snd (s : Store) (m : LocalQueueMessage) :
    ∃ n, (dedupIdOf s m).2 = { s with nextUuid := n } := by
  unfold dedupIdOf
  split
  · exact ⟨s.nextUuid, rfl⟩
  · exact ⟨_, rfl⟩

/-- A publish that succeeds appends one row per message and its task, in message order,
    under consecutive task sequences, and touches nothing else but the id generator. -/
theorem publishToLocalQueue_eq_ok {s s' : Store} {pid : Uuid} {ms : List LocalQueueMessage}
    (h : publishToLocalQueue s pid ms = .ok s') :
    ∃ rows n, List.Forall₂ (PublishedAs pid) rows ms ∧
      s' = { s with localQueue := s.localQueue ++ rows,
                    immediateTasks := s.immediateTasks ++
                      localQueueTasks pid s.nextImmediateTaskSequence rows,
                    nextImmediateTaskSequence := s.nextImmediateTaskSequence + ms.length,
                    nextUuid := n } := by
  induction ms generalizing s with
  | nil =>
    cases h
    exact ⟨[], _, .nil, by simp [localQueueTasks]; rfl⟩
  | cons m ms ih =>
    simp only [publishToLocalQueue, bind_eq_ok] at h
    obtain ⟨s₂, h₂, s₃, h₃, h⟩ := h
    obtain ⟨n₁, hn₁⟩ := dedupIdOf_snd s m
    rw [hn₁] at h₂
    unfold Store.insertLocalQueue at h₂
    split at h₂
    · cases h₂
    cases h₂
    cases h₃
    obtain ⟨rows, n, hrows, rfl⟩ := ih h
    refine ⟨⟨pid, m.queueName, (dedupIdOf s m).1, m.payload⟩ :: rows, n,
      .cons ⟨rfl, rfl, rfl⟩ hrows, ?_⟩
    simp [Store.appendImmediateTask, localQueueTasks, localQueueTask, Nat.add_assoc,
      Nat.add_comm 1]

end Xdb
