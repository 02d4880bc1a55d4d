import Mathlib.Data.Rat.Defs

/-!
# Worker and Service API Types

The records the engine exchanges with user workers and API callers, as the generated
`xdbapi` Go package declares them and the engine reads them. Optional Go fields are
`Option`s, and each getter the engine calls (`GetSkipWaitUntil`, `GetWaitingType`,
`GetCloseType`, ...) is a function returning the Go zero value on an absent field, since
that zero value is what the engine then acts on.

The waiting type is kept as an `Option`: a worker response without one reads as the empty
string, which is none of the three enum constants, so `GetWaitingType() == EMPTY_COMMAND`
is false for it and the state goes down the command path with whatever commands the
request holds.

## Main definitions

* `AsyncStateConfig`: Per-state options; only `skipWaitUntil`, the timeouts and the retry
  policies are read by the engine.
* `CommandRequest`: What a `WaitUntil` call asks the engine to wait for.
* `StateDecision`: What an `Execute` call decides: next states or a thread close.
* `LocalQueueMessage`: A message a worker publishes to a local queue.
* `ProcessExecutionStartRequest`: The start API's request.
-/

namespace Xdb

/-- An opaque encoded payload, as the worker sends it. -/
structure EncodedObject where
  encoding : String
  data : String
  deriving DecidableEq, Repr

/-- `xdbapi.RetryPolicy`; every field may be unset. -/
structure RetryPolicy where
  initialIntervalSeconds : Option Int := none
  backoffCoefficient : Option ℚ := none
  maximumIntervalSeconds : Option Int := none
  maximumAttempts : Option Int := none
  maximumAttemptsDurationSeconds : Option Int := none
  deriving DecidableEq, Repr

/-- `xdbapi.AsyncStateConfig`. -/
structure AsyncStateConfig where
  skipWaitUntil : Option Bool := none
  waitUntilApiTimeoutSeconds : Option Int := none
  executeApiTimeoutSeconds : Option Int := none
  waitUntilApiRetryPolicy : Option RetryPolicy := none
  executeApiRetryPolicy : Option RetryPolicy := none
  deriving DecidableEq, Repr

/-- `stateConfig.GetSkipWaitUntil()`: false on a nil config or an unset field. -/
def getSkipWaitUntil : Option AsyncStateConfig → Bool
  | some c => c.skipWaitUntil.getD false
  | none => false

/-- `xdbapi.CommandWaitingType`. -/
inductive CommandWaitingType
  | emptyCommand
  | anyOfCompletion
  | allOfCompletion
  deriving DecidableEq, Repr

/-- `xdbapi.TimerCommand`. -/
structure TimerCommand where
  delayInSeconds : Int
  deriving DecidableEq, Repr

/-- `xdbapi.LocalQueueCommand`. -/
structure LocalQueueCommand where
  queueName : String
  count : Option Int := none
  deriving DecidableEq, Repr

/-- `xdbapi.CommandRequest`. -/
structure CommandRequest where
  waitingType : Option CommandWaitingType := none
  timerCommands : List TimerCommand := []
  localQueueCommands : List LocalQueueCommand := []
  deriving DecidableEq, Repr

/-- `xdbapi.LocalQueueMessage`: the dedup id is free text supplied by the worker. -/
structure LocalQueueMessage where
  queueName : String
  dedupId : Option String := none
  payload : Option EncodedObject := none
  deriving DecidableEq, Repr

/-- `xdbapi.StateMovement`: one next state of a decision. -/
structure StateMovement where
  stateId : String
  stateInput : Option EncodedObject := none
  stateConfig : Option AsyncStateConfig := none
  deriving DecidableEq, Repr

/-- `xdbapi.ThreadCloseType`. -/
inductive ThreadCloseType
  | gracefulCompleteProcess
  | forceCompleteProcess
  | forceFailProcess
  | deadEnd
  deriving DecidableEq, Repr

/-- `xdbapi.StateDecision`; the thread close decision holds only its close type. -/
structure StateDecision where
  nextStates : List StateMovement := []
  threadCloseDecision : Option ThreadCloseType := none
  deriving DecidableEq, Repr

/-- `xdbapi.AsyncStateWaitUntilResponse`. -/
structure AsyncStateWaitUntilResponse where
  commandRequest : CommandRequest := {}
  publishToLocalQueue : List LocalQueueMessage := []
  deriving DecidableEq, Repr

/-- `xdbapi.AsyncStateExecuteResponse`. -/
structure AsyncStateExecuteResponse where
  stateDecision : StateDecision := {}
  publishToLocalQueue : List LocalQueueMessage := []
  deriving DecidableEq, Repr

/-- `xdbapi.ProcessExecutionStartRequest`; `ProcessStartConfig` carries only its timeout. -/
structure ProcessExecutionStartRequest where
  namespaceName : String
  processId : String
  processType : String := ""
  workerUrl : String := ""
  startStateId : Option String := none
  startStateInput : Option EncodedObject := none
  startStateConfig : Option AsyncStateConfig := none
  processStartTimeoutSeconds : Option Int := none
  deriving DecidableEq, Repr

end Xdb
