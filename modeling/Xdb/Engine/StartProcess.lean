import Xdb.Persistence.Common

/-!
# Starting a Process

`APIEngineSQLImpl.StartProcess`. In one transaction it mints the execution id, inserts the
latest-process pointer (a duplicate key answers `alreadyStarted` and rolls back), and,
when a start state is given, inserts its row at sequence 1 and version 1 and its first
task on the default shard. The process row goes in last, with status `Running`.

The sequence blob it writes is `StateExecutionIdSequenceJson{SequenceMap: sequenceMap}`:
the counter of the start state is 1, and no field of the blob names the start state as
pending. The pending-execution map that `CompleteExecuteExecution` later decodes from it
is therefore empty, which `startProcess_start_state_not_pending` (`Theory.StartState`)
records.

The deferred closure commits only when the call returns neither `alreadyStarted` nor an
error, and rolls back otherwise.

## Main definitions

* `StartProcessResult`: What a committed or refused start returns.
* `doStartProcessTx`: The body of the transaction.
* `startProcess`: The transaction, with the deferred commit or rollback.
-/

namespace Xdb

/-- The outcome of a start: a new execution id, or `alreadyStarted`. -/
inductive StartProcessResult
  | started (processExecutionId : Uuid)
  | alreadyStarted
  deriving DecidableEq, Repr

/-- The sequence blob `StartProcess` writes: the start state's counter at 1, nothing
    pending. -/
def startSequenceMaps (startStateId : Option String) : StateExecutionSequenceMaps :=
  ⟨fun s => if startStateId = some s then 1 else 0, ∅⟩

/-- The start state's row, its first task, or nothing without a start state. -/
def insertStartState (s : Store) (request : ProcessExecutionStartRequest) (prcExeId : Uuid) :
    Except TxError Store :=
  match request.startStateId with
  | none => .ok s
  | some startStateId => do
    let s ← insertAsyncStateExecution s prcExeId startStateId 1 request.startStateConfig
      request.startStateInput ⟨"", "", request.processType, request.workerUrl, none⟩
    insertImmediateTask s prcExeId startStateId 1 request.startStateConfig defaultShardId

/-- The process row `StartProcess` inserts: running, at history event 0. -/
def startProcessRow (request : ProcessExecutionStartRequest) (now : Int) : ProcessExecutionRow :=
  ⟨request.namespaceName, request.processId, .running, now,
    request.processStartTimeoutSeconds.getD 0, 0, startSequenceMaps request.startStateId, false,
    ⟨request.processType, request.workerUrl⟩⟩

/-- The body of `StartProcess`, up to the deferred commit. -/
def doStartProcessTx (s : Store) (request : ProcessExecutionStartRequest) (now : Int) :
    Except TxError (StartProcessResult × Store) :=
  let (prcExeId, s) := s.mustNewUUID
  match s.insertLatestProcessExecution ⟨request.namespaceName, request.processId, prcExeId⟩ with
  | .error .dupEntry => .ok (.alreadyStarted, s)
  | .error e => .error e
  | .ok s => do
    let s ← insertStartState s request prcExeId
    let s ← s.insertProcessExecution prcExeId (startProcessRow request now)
    pure (.started prcExeId, s)

/-- `StartProcess`: commit on a start, roll back on `alreadyStarted` or an error. -/
def startProcess (s : Store) (request : ProcessExecutionStartRequest) (now : Int) :
    Except TxError StartProcessResult × Store :=
  match doStartProcessTx s request now with
  | .ok (.started id, s') => (.ok (.started id), s')
  | .ok (.alreadyStarted, _) => (.ok .alreadyStarted, s)
  | .error e => (.error e, s)

/-- The start state: its row at sequence 1 and its first task, or nothing. -/
theorem insertStartState_eq_ok {s s' : Store} {request : ProcessExecutionStartRequest}
    {id : Uuid} (h : insertStartState s request id = .ok s') :
    request.startStateId = none ∧ s' = s ∨ ∃ sid, request.startStateId = some sid ∧
      s.asyncStateExecutions ⟨id, sid, 1⟩ = none ∧
      s' = Store.appendImmediateTask (s.setAsyncStateExecution ⟨id, sid, 1⟩
        (initialRow request.startStateConfig request.startStateInput
          ⟨"", "", request.processType, request.workerUrl, none⟩))
        defaultShardId id sid 1 (initialTaskType request.startStateConfig) {} := by
  unfold insertStartState at h
  split at h
  · exact .inl ⟨‹_›, (Except.ok.inj h).symm⟩
  · rename_i sid hsid
    simp only [bind_eq_ok] at h
    obtain ⟨s₁, h₁, h₂⟩ := h
    obtain ⟨hn, rfl⟩ := insertAsyncStateExecution_eq_ok h₁
    exact .inr ⟨sid, hsid, hn, (Except.ok.inj h₂).symm⟩

/-- A start that commits: a fresh id, the latest pointer, the start state, the process row. -/
theorem doStartProcessTx_eq_started {s s' : Store} {request : ProcessExecutionStartRequest}
    {now : Int} {id : Uuid} (h : doStartProcessTx s request now = .ok (.started id, s')) :
    id = .minted s.nextUuid ∧ ∃ s₁ s₂,
      s.mustNewUUID.2.insertLatestProcessExecution
        ⟨request.namespaceName, request.processId, id⟩ = .ok s₁ ∧
      insertStartState s₁ request id = .ok s₂ ∧
      s₂.insertProcessExecution id (startProcessRow request now) = .ok s' := by
  unfold doStartProcessTx Store.mustNewUUID at h
  simp only at h
  split at h
  · cases h
  · cases h
  · rename_i s₁ h₁
    simp only [bind_eq_ok, pure, Except.pure, Except.ok.injEq, Prod.mk.injEq] at h
    obtain ⟨s₂, h₂, s₃, h₃, h, rfl⟩ := h
    cases h
    exact ⟨rfl, s₁, s₂, h₁, h₂, h₃⟩

/-- `StartProcess` commits exactly its started transactions and otherwise leaves the store. -/
theorem startProcess_snd (s : Store) (request : ProcessExecutionStartRequest) (now : Int) :
    (startProcess s request now).2 = s ∨ ∃ id, doStartProcessTx s request now =
      .ok (.started id, (startProcess s request now).2) := by
  unfold startProcess
  split
  · exact .inr ⟨_, ‹_›⟩
  · exact .inl rfl
  · exact .inl rfl

end Xdb
