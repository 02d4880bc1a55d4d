import Xdb.Persistence.WaitUntil
import Xdb.Persistence.CompleteExecute
import Xdb.Persistence.Backoff
import Xdb.Engine.StartProcess
import Xdb.Engine.Backoff

/-!
# The Immediate-Task Processor

The engine as one state machine: the store, the processor's channel `taskToProcessChan`
with its bounded buffer, its `ProcessorConcurrency` workers, the tasks sent on the commit
channels and not yet deleted, and the clock. Every step the system can take is an
`Action`, and `step` is a function of the state and the action, so a run is a list of
actions and can be evaluated.

The workers follow `immediateTaskConcurrentProcessor.Start` and `processImmediateTask`. A
worker receives a task, drops it if its shard is not owned, and otherwise prepares it: a
`NewLocalQueueMessage` task goes to `ProcessLocalQueueMessage`; any other task reads its
state row and calls the worker's `WaitUntil` when the wait-until phase is running, its
`Execute` when the execute phase is running, and nothing otherwise. The reply of the
worker API is the action's input. Its result is committed through the process store; a
failed call goes through `checkRetry` to `BackoffImmediateTask`, or returns its error. A
task whose processing returned an error is sent back into `taskToProcessChan`, a blocking
send; one that returned nil is sent to the commit channel, and the poller deletes it.

The poller, the timer poller and the notifier are not among the sources. The poller is
modelled from the spec as sending any stored task of an owned shard at any time, which
covers redelivery after a restart and duplicate reads. A due timer task is moved back to
the immediate table. A panic in a worker goroutine (a nil `StateConfig` reaching
`checkRetry`) takes the server down; `restart` is that, and any other crash: the store
survives and everything in memory is lost.

An unbuffered channel hands a value over only to a waiting receiver; `take` from a
`Source` other than the buffer is that hand-over, allowed when the buffer is empty.

## Main definitions

* `ProcessorConfig`: The configuration the processor reads.
* `WorkerState`: Where one worker goroutine is.
* `Engine`: The whole system.
* `Action`: One step of the system.
* `createApiContext`: The attempt a worker call reports.
* `step`: What a step does.
-/

namespace Xdb

/-- The processor's configuration and the shards it owns. -/
structure ProcessorConfig where
  processorConcurrency : Nat
  processorBufferSize : Nat
  currentShards : List Nat
  defaultAsyncStateAPITimeout : Int
  maxAsyncStateAPITimeout : Int
  maxStateAPIFailureDetailSize : Nat

/-- The response to a failed worker call: its status code, and the bytes `ioutil.ReadAll`
    read from its body, `none` where the read failed. -/
structure HttpResponse where
  statusCode : Int
  body : Option (List UInt8)
  deriving DecidableEq, Repr

/-- A failed worker call: the error text, and the response if there was one. -/
structure WorkerFailure where
  errMsg : String
  httpResponse : Option HttpResponse := none
  deriving DecidableEq, Repr

/-- Where a worker goroutine is. A call holds the task as received, the task as the call
    sees it (one more attempt), and the snapshot it was prepared from. -/
inductive WorkerState
  | idle
  | waitUntilCall (task current : ImmediateTaskRow) (prep : PrepareStateExecutionResponse)
  | executeCall (task current : ImmediateTaskRow) (prep : PrepareStateExecutionResponse)
  | localQueueCall (task : ImmediateTaskRow)
  | putBack (task : ImmediateTaskRow)
  | commit (task : ImmediateTaskRow)
  deriving DecidableEq, Repr

/-- The whole system: the store, the processor, and the clock. -/
structure Engine where
  store : Store
  taskToProcessChan : List ImmediateTaskRow
  workers : List WorkerState
  committed : List ImmediateTaskRow
  now : Int

/-- Where a worker receives from: the buffer, or a sender blocked on an empty buffer. -/
inductive Source
  | buffer
  | worker (i : Nat)
  | poller (t : ImmediateTaskRow)
  deriving DecidableEq, Repr

/-- One step of the system. -/
inductive Action
  | startProcess (request : ProcessExecutionStartRequest)
  | poll (t : ImmediateTaskRow)
  | fireTimer (t : TimerTaskRow)
  | take (j : Nat) (src : Source) (dbUp : Bool)
  | waitUntilReturned (i : Nat) (r : Except WorkerFailure AsyncStateWaitUntilResponse)
  | executeReturned (i : Nat) (r : Except WorkerFailure AsyncStateExecuteResponse)
  | localQueueReturned (i : Nat)
  | dbFailure (i : Nat)
  | send (i : Nat)
  | commit (i : Nat)
  | delete (t : ImmediateTaskRow)
  | tick
  | restart

/-- The engine before anything happened. -/
def Engine.init (cfg : ProcessorConfig) (now : Int) : Engine :=
  ⟨Store.empty, [], List.replicate cfg.processorConcurrency .idle, [], now⟩

namespace Engine

/-- Worker `i` moved to `w`. -/
def setWorker (e : Engine) (i : Nat) (w : WorkerState) : Engine :=
  { e with workers := e.workers.set i w }

/-- Everything in memory lost; the store and the clock survive. -/
def restart (e : Engine) : Engine :=
  { e with taskToProcessChan := [], workers := e.workers.map fun _ => .idle, committed := [] }

end Engine

/-- The task as a worker call sees it: backoff info created if absent, one more attempt. -/
def withAttempt (t : ImmediateTaskRow) (now : Int) : ImmediateTaskRow :=
  let b := t.info.workerTaskBackoffInfo.getD ⟨0, now⟩
  let b' : WorkerTaskBackoffInfoJson := { b with completedAttempts := b.completedAttempts + 1 }
  { t with info := { t.info with workerTaskBackoffInfo := some b' } }

/-- The task the receiving loop holds after the call: the attempt count is shared through
    the backoff info's pointer only when the task already had one. -/
def sharedView (task current : ImmediateTaskRow) : ImmediateTaskRow :=
  if task.info.workerTaskBackoffInfo.isSome then current else task

/-- `xdbapi.Context`, the attempt a worker call reports. The state execution id is kept as
    the state id and sequence that `GetStateExecutionId` (not among the sources) formats. -/
structure ApiContext where
  processId : String
  processExecutionId : Uuid
  stateExecutionId : String × Nat
  attempt : Int
  firstAttemptTimestamp : Int
  deriving DecidableEq, Repr

/-- `createApiContext`: the attempt fields are read through the task's backoff-info pointer;
    `none` is the nil-pointer panic of a task without one. -/
def createApiContext (prep : PrepareStateExecutionResponse) (task : ImmediateTaskRow) :
    Option ApiContext :=
  task.info.workerTaskBackoffInfo.map fun b =>
    ⟨prep.info.processId, task.processExecutionId, (task.stateId, task.stateIdSequence),
      b.completedAttempts, b.firstAttemptTimestampSeconds⟩

/-- `createContextWithTimeout`: the worker call's timeout, `none` where it panics. -/
def createContextWithTimeout (cfg : ProcessorConfig) (taskType : ImmediateTaskType)
    (stateConfig : Option AsyncStateConfig) : Option Int :=
  match stateConfig with
  | none => some cfg.defaultAsyncStateAPITimeout
  | some c =>
    let timeout? : Option Int := match taskType with
      | .waitUntil => some (if c.waitUntilApiTimeoutSeconds.getD 0 > 0 then
          c.waitUntilApiTimeoutSeconds.getD 0 else cfg.defaultAsyncStateAPITimeout)
      | .execute => some (if c.executeApiTimeoutSeconds.getD 0 > 0 then
          c.executeApiTimeoutSeconds.getD 0 else cfg.defaultAsyncStateAPITimeout)
      | .newLocalQueueMessage => none
    timeout?.map fun t => min t cfg.maxAsyncStateAPITimeout

/-- `processImmediateTask` up to the worker call; `none` is a panic. -/
def beginProcessImmediateTask (cfg : ProcessorConfig) (s : Store) (now : Int)
    (task : ImmediateTaskRow) (dbUp : Bool) : Option WorkerState :=
  if task.taskType = .newLocalQueueMessage then some (.localQueueCall task)
  else if dbUp = false then some (.putBack task)
  else match prepareStateExecution s task.key with
    | .error _ => some (.putBack task)
    | .ok prep =>
      if prep.waitUntilStatus = .running then
        (createContextWithTimeout cfg task.taskType prep.info.stateConfig).map fun _ =>
          .waitUntilCall task (withAttempt task now) prep
      else if prep.executeStatus = .running then
        (createContextWithTimeout cfg task.taskType prep.info.stateConfig).map fun _ =>
          .executeCall task (withAttempt task now) prep
      else some (.commit task)

/-- The loop's handling of `processImmediateTask`'s result, after checking the shard again. -/
def finishTask (cfg : ProcessorConfig) (task : ImmediateTaskRow) (ok : Bool) : WorkerState :=
  if task.shardId ∈ cfg.currentShards then (if ok then .commit task else .putBack task)
  else .idle

/-- The bytes of a Go string literal. -/
def utf8Bytes (s : String) : List UInt8 :=
  s.toUTF8.data.toList

/-- `composeHttpError`: the failure's status code and its details. A Go string is its bytes,
    and `len` and the slice `details[:maxDetailSize]` count bytes, so the cut can fall inside
    a character. -/
def composeHttpError (cfg : ProcessorConfig) (f : WorkerFailure) : Int × List UInt8 :=
  let responseBody := match f.httpResponse with
    | none => utf8Bytes "None"
    | some r => r.body.getD (utf8Bytes "cannot read body from http response")
  let details := utf8Bytes ("errMsg: " ++ f.errMsg ++ ", responseBody: ") ++ responseBody
  ((f.httpResponse.map (·.statusCode)).getD 0,
   if details.length > cfg.maxStateAPIFailureDetailSize then
     details.take cfg.maxStateAPIFailureDetailSize ++ utf8Bytes "...(truncated)" else details)

/-- The details are at most `MaxStateAPIFailureDetailSize` bytes and the marker's fourteen. -/
theorem composeHttpError_details_length (cfg : ProcessorConfig) (f : WorkerFailure) :
    (composeHttpError cfg f).2.length ≤ cfg.maxStateAPIFailureDetailSize + 14 := by
  have hmarker : (utf8Bytes "...(truncated)").length = 14 := rfl
  unfold composeHttpError
  dsimp only
  split
  · rw [List.length_append, List.length_take, hmarker]
    omega
  · omega

/-- `checkRetry`: `GetNextBackoff` under the wait-until retry policy of the state's config;
    `none` is the nil-pointer panic of a state whose info has no config. -/
def checkRetry (task : ImmediateTaskRow) (info : AsyncStateExecutionInfoJson) (now : Int) :
    Option (Int × Bool) :=
  info.stateConfig.map fun c =>
    let b := task.info.workerTaskBackoffInfo.getD ⟨0, 0⟩
    getNextBackoff b.completedAttempts b.firstAttemptTimestampSeconds now c.waitUntilApiRetryPolicy

/-- `checkDecision`: a decision may not both close the thread and move to next states. -/
def checkDecision (d : StateDecision) : Bool :=
  !(d.threadCloseDecision.isSome && !d.nextStates.isEmpty)

/-- The request `processWaitUntilTask` commits a wait-until result with. -/
def waitUntilRequest (task : ImmediateTaskRow) (prep : PrepareStateExecutionResponse)
    (resp : AsyncStateWaitUntilResponse) : ProcessWaitUntilExecutionRequest :=
  ⟨task.processExecutionId, task.stateId, task.stateIdSequence, prep, resp.commandRequest,
    resp.publishToLocalQueue, task.shardId⟩

/-- The request `processExecuteTask` commits a decision with. -/
def executeRequest (task : ImmediateTaskRow) (prep : PrepareStateExecutionResponse)
    (resp : AsyncStateExecuteResponse) : CompleteExecuteExecutionRequest :=
  ⟨task.processExecutionId, task.stateId, task.stateIdSequence, prep, resp.stateDecision,
    resp.publishToLocalQueue, task.shardId⟩

/-- The request `processLocalQueueMessageTask` consumes a message with. -/
def localQueueRequest (task : ImmediateTaskRow) (m : LocalQueueMessageInfoJson) :
    ProcessLocalQueueMessageRequest :=
  ⟨task.shardId, task.taskSequence, task.processExecutionId, m.queueName, m.dedupId, m.payload⟩

/-- A failed worker call: retry through a backoff, or return the error; `none` is a panic. -/
def onWorkerFailure (cfg : ProcessorConfig) (e : Engine) (i : Nat)
    (task current : ImmediateTaskRow) (prep : PrepareStateExecutionResponse)
    (f : WorkerFailure) : Option Engine :=
  let (status, details) := composeHttpError cfg f
  (checkRetry current prep.info e.now).map fun (interval, shouldRetry) =>
    if shouldRetry then
      match backoffImmediateTask e.store ⟨status, details, prep, e.now + interval, current⟩ with
      | (.ok (), s') => { e with store := s' }.setWorker i
          (finishTask cfg (sharedView task current) true)
      | (.error _, _) => e.setWorker i (finishTask cfg (sharedView task current) false)
    else e.setWorker i (finishTask cfg (sharedView task current) false)

/-- Commit a result through the store: the new store, and the worker's next state. -/
def commitResult {α : Type} (cfg : ProcessorConfig) (e : Engine) (i : Nat)
    (task : ImmediateTaskRow) (r : Except TxError α × Store) : Engine :=
  { e with store := r.2 }.setWorker i (finishTask cfg task (r.1 matches .ok _))

/-- Receive one task: from the buffer's head, or handed over while the buffer is empty. -/
def receive (cfg : ProcessorConfig) (e : Engine) : Source → Option (ImmediateTaskRow × Engine)
  | .buffer => match e.taskToProcessChan with
    | t :: rest => some (t, { e with taskToProcessChan := rest })
    | [] => none
  | .worker i =>
    match e.taskToProcessChan, e.workers.get? i with
    | [], some (.putBack t) => some (t, e.setWorker i .idle)
    | _, _ => none
  | .poller t =>
    if e.taskToProcessChan = [] ∧ t ∈ e.store.immediateTasks ∧ t.shardId ∈ cfg.currentShards
    then some (t, e) else none

/-- One step of the system; `none` where the action is not enabled. -/
def step (cfg : ProcessorConfig) (e : Engine) : Action → Option Engine
  | .startProcess request => some { e with store := (startProcess e.store request e.now).2 }
  | .poll t =>
    if t ∈ e.store.immediateTasks ∧ t.shardId ∈ cfg.currentShards ∧
      e.taskToProcessChan.length < cfg.processorBufferSize
    then some { e with taskToProcessChan := e.taskToProcessChan ++ [t] } else none
  | .fireTimer t =>
    if t ∈ e.store.timerTasks ∧ t.fireTimeUnixSeconds ≤ e.now
    then some { e with store := convertTimerTaskToImmediateTask e.store t } else none
  | .take j src dbUp =>
    match e.workers.get? j with
    | some .idle =>
      (receive cfg e src).bind fun (task, e') =>
        if task.shardId ∈ cfg.currentShards then
          match beginProcessImmediateTask cfg e'.store e'.now task dbUp with
          | some w => some (e'.setWorker j w)
          | none => some e'.restart
        else some e'
    | _ => none
  | .waitUntilReturned i r =>
    match e.workers.get? i with
    | some (.waitUntilCall task current prep) =>
      match r with
      | .error f => (onWorkerFailure cfg e i task current prep f).getD e.restart
      | .ok resp => some (commitResult cfg e i (sharedView task current)
          (processWaitUntilExecution e.store (waitUntilRequest task prep resp)))
    | _ => none
  | .executeReturned i r =>
    match e.workers.get? i with
    | some (.executeCall task current prep) =>
      match r with
      | .error f => (onWorkerFailure cfg e i task current prep f).getD e.restart
      | .ok resp =>
        if checkDecision resp.stateDecision then
          some (commitResult cfg e i (sharedView task current)
            (completeExecuteExecution e.store (executeRequest task prep resp)))
        else (onWorkerFailure cfg e i task current prep
          ⟨"cannot have both thread decision and next states", some ⟨200, some []⟩⟩).getD
            e.restart
    | _ => none
  | .localQueueReturned i =>
    match e.workers.get? i with
    | some (.localQueueCall task) =>
      match task.info.localQueueMessageInfo with
      | some m => some (commitResult cfg e i task
          (processLocalQueueMessage e.store (localQueueRequest task m)))
      | none => some e.restart
    | _ => none
  | .dbFailure i =>
    match e.workers.get? i with
    | some (.waitUntilCall task current _) => some (e.setWorker i
        (finishTask cfg (sharedView task current) false))
    | some (.executeCall task current _) => some (e.setWorker i
        (finishTask cfg (sharedView task current) false))
    | some (.localQueueCall task) => some (e.setWorker i (finishTask cfg task false))
    | _ => none
  | .send i =>
    match e.workers.get? i with
    | some (.putBack t) =>
      if e.taskToProcessChan.length < cfg.processorBufferSize then
        some { e.setWorker i .idle with taskToProcessChan := e.taskToProcessChan ++ [t] }
      else none
    | _ => none
  | .commit i =>
    match e.workers.get? i with
    | some (.commit t) => some { e.setWorker i .idle with committed := e.committed ++ [t] }
    | _ => none
  | .delete t =>
    if t ∈ e.committed then
      some { e with committed := e.committed.erase t,
                    store := e.store.removeImmediateTask t.shardId t.taskSequence }
    else none
  | .tick => some { e with now := e.now + 1 }
  | .restart => some e.restart

/-- Run a list of actions, stopping at the first that is not enabled. -/
def run (cfg : ProcessorConfig) : Engine → List Action → Option Engine
  | e, [] => some e
  | e, a :: as => (step cfg e a).bind fun e' => run cfg e' as

/-- The states the engine reaches from its initial state. -/
inductive Reachable (cfg : ProcessorConfig) : Engine → Prop
  | init (now : Int) : Reachable cfg (Engine.init cfg now)
  | step {e e' : Engine} (a : Action) : Reachable cfg e → step cfg e a = some e' →
      Reachable cfg e'

end Xdb
