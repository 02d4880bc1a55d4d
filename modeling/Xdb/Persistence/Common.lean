import Xdb.Store.Basic

/-!
# Requests and Shared Helpers of the Process Store

The request records the processor hands to the process store, `PrepareStateExecution`
with the command results it materialises, and the two helpers every path that starts a
state execution uses: `insertAsyncStateExecution` and `insertImmediateTask`. Both decide
by `SkipWaitUntil` alone: a state that skips its wait-until phase starts with
`(Skipped, Running)` and an `Execute` task, any other with `(Running, Undefined)` and a
`WaitUntil` task.

## Main definitions

* `PrepareStateExecutionResponse`: The snapshot a worker call is made from.
* `prepareStateExecution`: `PrepareStateExecution`.
* `commitOrRollback`: The commit-or-rollback shell of every process-store method.
* `insertAsyncStateExecution`, `insertImmediateTask`: Start one state execution.

## Theorems

* `commitOrRollback_eq_error`: A method that fails leaves the store as it was.
* `commitOrRollback_eq_ok`: A method that succeeds returns what its body wrote.
* `insertAsyncStateExecution_eq_ok`: The new row, its statuses and version.
* `insertImmediateTask_eq`: The new task and its type.
-/

namespace Xdb

/-- `xdbapi.CommandStatus`. -/
inductive CommandStatus
  | waitingCommand
  | completedCommand
  | skippedCommand
  deriving DecidableEq, Repr

/-- `xdbapi.LocalQueueResult`. -/
structure LocalQueueResult where
  status : CommandStatus
  queueName : String
  messages : List LocalQueueMessageResult
  deriving DecidableEq, Repr

/-- `xdbapi.CommandResults`. -/
structure CommandResults where
  timerResults : List CommandStatus := []
  localQueueResults : List LocalQueueResult := []
  deriving DecidableEq, Repr

/-- `persistence.PrepareStateExecutionResponse`. -/
structure PrepareStateExecutionResponse where
  waitUntilStatus : StateExecutionStatus
  executeStatus : StateExecutionStatus
  previousVersion : Nat
  info : AsyncStateExecutionInfoJson
  input : Option EncodedObject
  waitUntilCommandResults : CommandResults
  deriving DecidableEq, Repr

/-- `prepareWaitUntilCommandResults`: zip the stored commands with the stored results. -/
def prepareWaitUntilCommandResults (results : CommandResultsJson) (request : CommandRequest) :
    CommandResults :=
  ⟨(List.range request.timerCommands.length).map fun idx =>
      match results.timerResults.lookup idx with
      | some true => .completedCommand
      | some false => .skippedCommand
      | none => .waitingCommand,
    request.localQueueCommands.enum.map fun (idx, c) =>
      match results.localQueueResults.lookup idx with
      | some ms => ⟨.completedCommand, c.queueName, ms⟩
      | none => ⟨.waitingCommand, c.queueName, []⟩⟩

/-- `PrepareStateExecution`: read the state row outside any transaction. -/
def prepareStateExecution (s : Store) (k : AsyncStateExecutionKey) :
    Except TxError PrepareStateExecutionResponse := do
  let r ← s.selectAsyncStateExecution k
  pure ⟨r.waitUntilStatus, r.executeStatus, r.version, r.info, r.input,
    prepareWaitUntilCommandResults r.waitUntilCommandResults r.waitUntilCommands⟩

/-- The shell of a process-store method: start a transaction, run its body, commit on
    success and roll back on error. The caller gets the body's result and the store it wrote,
    or its error and the store as it was. -/
def commitOrRollback {α : Type} (s : Store) :
    Except TxError (α × Store) → Except TxError α × Store
  | .ok (a, s') => (.ok a, s')
  | .error e => (.error e, s)

/-- A method whose body fails returns the body's error and leaves the store as it was. -/
theorem commitOrRollback_eq_error {α : Type} {s : Store} {x : Except TxError (α × Store)}
    {e : TxError} (h : (commitOrRollback s x).1 = .error e) :
    x = .error e ∧ (commitOrRollback s x).2 = s := by
  rcases x with _ | ⟨a, s'⟩
  · cases h
    exact ⟨rfl, rfl⟩
  · cases h

/-- A method that succeeds returns the body's result and the store the body wrote. -/
theorem commitOrRollback_eq_ok {α : Type} {s : Store} {x : Except TxError (α × Store)} {a : α}
    (h : (commitOrRollback s x).1 = .ok a) : x = .ok (a, (commitOrRollback s x).2) := by
  rcases x with _ | ⟨a', s'⟩
  · cases h
  · cases h
    rfl

/-- `persistence.CompleteExecuteExecutionRequest`. -/
structure CompleteExecuteExecutionRequest where
  processExecutionId : Uuid
  stateId : String
  stateIdSequence : Nat
  prepare : PrepareStateExecutionResponse
  stateDecision : StateDecision
  publishToLocalQueue : List LocalQueueMessage
  taskShardId : Nat

/-- `persistence.ProcessWaitUntilExecutionRequest`. -/
structure ProcessWaitUntilExecutionRequest where
  processExecutionId : Uuid
  stateId : String
  stateIdSequence : Nat
  prepare : PrepareStateExecutionResponse
  commandRequest : CommandRequest
  publishToLocalQueue : List LocalQueueMessage
  taskShardId : Nat

/-- The state execution a request is about. -/
def CompleteExecuteExecutionRequest.key (r : CompleteExecuteExecutionRequest) :
    AsyncStateExecutionKey :=
  ⟨r.processExecutionId, r.stateId, r.stateIdSequence⟩

/-- The state execution a request is about. -/
def ProcessWaitUntilExecutionRequest.key (r : ProcessWaitUntilExecutionRequest) :
    AsyncStateExecutionKey :=
  ⟨r.processExecutionId, r.stateId, r.stateIdSequence⟩

/-- The initial phase statuses of a state execution. -/
def initialStatuses (stateConfig : Option AsyncStateConfig) :
    StateExecutionStatus × StateExecutionStatus :=
  if getSkipWaitUntil stateConfig then (.skipped, .running) else (.running, .undefined)

/-- The type of the first task of a state execution. -/
def initialTaskType (stateConfig : Option AsyncStateConfig) : ImmediateTaskType :=
  if getSkipWaitUntil stateConfig then .execute else .waitUntil

/-- The row a state execution starts with: version 1 and the initial statuses. -/
def initialRow (stateConfig : Option AsyncStateConfig) (stateInput : Option EncodedObject)
    (stateInfo : AsyncStateExecutionInfoJson) : AsyncStateExecutionRow :=
  { waitUntilStatus := (initialStatuses stateConfig).1,
    executeStatus := (initialStatuses stateConfig).2,
    version := 1, info := stateInfo, input := stateInput }

/-- `insertAsyncStateExecution`: a new row at version 1 with the initial statuses. -/
def insertAsyncStateExecution (s : Store) (processExecutionId : Uuid) (stateId : String)
    (stateIdSeq : Nat) (stateConfig : Option AsyncStateConfig) (stateInput : Option EncodedObject)
    (stateInfo : AsyncStateExecutionInfoJson) : Except TxError Store :=
  s.insertAsyncStateExecution ⟨processExecutionId, stateId, stateIdSeq⟩
    (initialRow stateConfig stateInput stateInfo)

/-- `insertImmediateTask`: the first task of a state execution. -/
def insertImmediateTask (s : Store) (processExecutionId : Uuid) (stateId : String)
    (stateIdSeq : Nat) (stateConfig : Option AsyncStateConfig) (shardId : Nat) :
    Except TxError Store :=
  s.insertImmediateTask shardId processExecutionId stateId stateIdSeq
    (initialTaskType stateConfig) {}

theorem insertAsyncStateExecution_eq_ok {s s' : Store} {pid : Uuid} {stateId : String}
    {seq : Nat} {c : Option AsyncStateConfig} {input : Option EncodedObject}
    {info : AsyncStateExecutionInfoJson}
    (h : insertAsyncStateExecution s pid stateId seq c input info = .ok s') :
    s.asyncStateExecutions ⟨pid, stateId, seq⟩ = none ∧
      s' = s.setAsyncStateExecution ⟨pid, stateId, seq⟩ (initialRow c input info) := by
  unfold insertAsyncStateExecution Store.insertAsyncStateExecution at h
  split at h
  · cases h
  · exact ⟨‹_›, (Except.ok.inj h).symm⟩

theorem insertImmediateTask_eq (s : Store) (pid : Uuid) (stateId : String) (seq : Nat)
    (c : Option AsyncStateConfig) (shardId : Nat) :
    insertImmediateTask s pid stateId seq c shardId = .ok { s with
      immediateTasks := s.immediateTasks ++
        [⟨shardId, s.nextImmediateTaskSequence, pid, stateId, seq, initialTaskType c, {}⟩]
      nextImmediateTaskSequence := s.nextImmediateTaskSequence + 1 } := rfl

@[simp] theorem initialRow_version (c : Option AsyncStateConfig) (input : Option EncodedObject)
    (info : AsyncStateExecutionInfoJson) : (initialRow c input info).version = 1 := rfl

@[simp] theorem initialRow_phases (c : Option AsyncStateConfig) (input : Option EncodedObject)
    (info : AsyncStateExecutionInfoJson) : (initialRow c input info).phases = initialStatuses c :=
  rfl

theorem initialStatuses_cases (c : Option AsyncStateConfig) :
    initialStatuses c = (.skipped, .running) ∨ initialStatuses c = (.running, .undefined) := by
  unfold initialStatuses
  split <;> simp

end Xdb
