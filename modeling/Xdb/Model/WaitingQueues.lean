import Xdb.Model.Rows

/-!
# Waiting Queues

The per-process blob that pairs local-queue commands of waiting state executions with
the messages published to their queues: the commands registered by
`updateWaitUntilExecution` and the messages no command has taken yet.

Neither the blob's type nor `ProcessLocalQueueMessage` is among the sources, so both are
modelled from the spec: "for each inbound message pop it into the waiting-queue map
against the first state-execution whose command is satisfied (`AnyOfCompletion` → first
match; `AllOfCompletion` → only when all its local-queue commands have at least one
match)". A message goes to the first registered command of its queue that has none yet; a
state execution is satisfied once any (any-of) or all (all-of) of its commands hold a
message, and it then leaves the blob with its results. A message no command takes is kept
as unconsumed.

The blob reaches the engine through the `StateExecutionWaitingQueues` field of the Go row
struct, and the query that fills that struct does not select the column, so the field
holds its zero value. Its decoding is modelled as the empty blob.

## Main definitions

* `StateExecutionWaitingQueues`: The decoded blob.
* `StateExecutionWaitingQueues.addNewLocalQueueCommandForStateExecution`: Register a command.
* `StateExecutionWaitingQueues.consumeMessages`: Match messages against the commands.
-/

namespace Xdb

/-- A local-queue command of a waiting state execution, with the message it took. -/
structure WaitingCommand where
  stateId : String
  stateIdSequence : Nat
  command : LocalQueueCommand
  anyOfCompletion : Bool
  consumed : Option LocalQueueMessageInfoJson := none
  deriving DecidableEq, Repr

/-- The waiting-queue blob: registered commands in order, and unconsumed messages. -/
structure StateExecutionWaitingQueues where
  waiting : List WaitingCommand := []
  unconsumedMessages : List LocalQueueMessageInfoJson := []
  deriving DecidableEq, Repr

/-- A state execution whose commands are satisfied, with the messages its commands took. -/
structure SatisfiedStateExecution where
  stateId : String
  stateIdSequence : Nat
  results : List (Option LocalQueueMessageInfoJson)
  deriving DecidableEq, Repr

namespace StateExecutionWaitingQueues

/-- `AddNewLocalQueueCommandForStateExecution`: register one command of a waiting state.
    Modelled from the spec. -/
def addNewLocalQueueCommandForStateExecution (q : StateExecutionWaitingQueues)
    (stateId : String) (stateIdSequence : Nat) (command : LocalQueueCommand)
    (anyOfCompletion : Bool) : StateExecutionWaitingQueues :=
  { q with waiting := q.waiting ++ [⟨stateId, stateIdSequence, command, anyOfCompletion, none⟩] }

/-- Give a message to the first command of its queue that holds none. -/
def assign (m : LocalQueueMessageInfoJson) : List WaitingCommand → Option (List WaitingCommand)
  | [] => none
  | c :: cs =>
    if c.command.queueName = m.queueName ∧ c.consumed = none then
      some ({ c with consumed := some m } :: cs)
    else (assign m cs).map (c :: ·)

/-- The commands of one state execution. -/
def commandsOf (cs : List WaitingCommand) (stateId : String) (seq : Nat) :
    List WaitingCommand :=
  cs.filter fun c => c.stateId = stateId ∧ c.stateIdSequence = seq

/-- A state execution is satisfied: any-of with one message, all-of with all. -/
def isSatisfied (cs : List WaitingCommand) (c : WaitingCommand) : Bool :=
  let own := commandsOf cs c.stateId c.stateIdSequence
  if c.anyOfCompletion then own.any (·.consumed.isSome) else own.all (·.consumed.isSome)

/-- Consume one message: assign it, and release the state execution it satisfies.
    Modelled from the spec. -/
def consumeMessage (q : StateExecutionWaitingQueues) (m : LocalQueueMessageInfoJson) :
    StateExecutionWaitingQueues × List SatisfiedStateExecution :=
  match assign m q.waiting with
  | none => ({ q with unconsumedMessages := q.unconsumedMessages ++ [m] }, [])
  | some cs =>
    match cs.find? (isSatisfied cs) with
    | none => ({ q with waiting := cs }, [])
    | some c =>
      let own := commandsOf cs c.stateId c.stateIdSequence
      ({ q with waiting := cs.filter fun d => ¬(d.stateId = c.stateId ∧
          d.stateIdSequence = c.stateIdSequence) },
        [⟨c.stateId, c.stateIdSequence, own.map (·.consumed)⟩])

/-- Consume the unconsumed messages and then the inbound ones, in order. -/
def consumeMessages (q : StateExecutionWaitingQueues) (inbound : List LocalQueueMessageInfoJson) :
    StateExecutionWaitingQueues × List SatisfiedStateExecution :=
  (q.unconsumedMessages ++ inbound).foldl
    (fun acc m => let r := consumeMessage acc.1 m; (r.1, acc.2 ++ r.2))
    ({ q with unconsumedMessages := [] }, [])

/-- With no registered command, consuming satisfies no state execution. -/
theorem consumeMessages_snd_of_waiting_nil {q : StateExecutionWaitingQueues}
    (h : q.waiting = []) (inbound : List LocalQueueMessageInfoJson) :
    (q.consumeMessages inbound).2 = [] := by
  unfold consumeMessages
  suffices ∀ (ms : List LocalQueueMessageInfoJson)
      (acc : StateExecutionWaitingQueues × List SatisfiedStateExecution),
      acc.1.waiting = [] → acc.2 = [] → (ms.foldl (fun acc m =>
        let r := consumeMessage acc.1 m; (r.1, acc.2 ++ r.2)) acc).2 = [] from
    this _ (_, []) h rfl
  intro ms
  induction ms with
  | nil => exact fun _ _ h₂ => h₂
  | cons m ms ih =>
    intro acc h₁ h₂
    apply ih <;> simp [consumeMessage, assign, h₁, h₂]

end StateExecutionWaitingQueues

end Xdb
