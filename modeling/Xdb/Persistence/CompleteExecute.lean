import Xdb.Persistence.LocalQueue

/-!
# Completing an Execute Phase

`CompleteExecuteExecution` (`complete_execute.go`), the engine's central transaction. It
locks the process row, completes the current state execution under the snapshot's
version, removes it from the pending-execution map (failing with data corruption if it is
not there), starts every next state under a fresh sequence with the previous state's info
blob reused verbatim, applies the thread close decision, batch-aborts the running state
executions after a force close of a non-empty map, writes the process row back and
publishes the messages.

The thread close logic is `closeProcessExecution`, a function of the locked row's status
and `WaitToComplete`, the pending map after the next states, and the decision. It keeps
the order of the source: graceful completion already armed wins over any decision of
this state, and only otherwise does the decision apply.

## Main definitions

* `startNextStates`: The next-state loop.
* `ProcessClose`: What the thread close logic decides.
* `closeProcessExecution`: Step 2-3 of the transaction.
* `doCompleteExecuteExecutionTx`: The transaction body.
* `completeExecuteExecution`: The transaction, with its rollback.
-/

namespace Xdb

/-- The next-state loop: a fresh sequence, a row and a task per next state, in order. -/
def startNextStates (s : Store) (processExecutionId : Uuid)
    (stateInfo : AsyncStateExecutionInfoJson) (shardId : Nat) :
      List StateMovement → StateExecutionSequenceMaps →
        Except TxError (StateExecutionSequenceMaps × Store)
  | [], m => .ok (m, s)
  | next :: rest, m => do
    let (stateIdSeq, m) := m.startNewStateExecution next.stateId
    let s ← insertAsyncStateExecution s processExecutionId next.stateId stateIdSeq
      next.stateConfig next.stateInput stateInfo
    let s ← insertImmediateTask s processExecutionId next.stateId stateIdSeq next.stateConfig
      shardId
    startNextStates s processExecutionId stateInfo shardId rest m

/-- What the thread close logic writes back, and whether running states are aborted. -/
structure ProcessClose where
  status : ProcessExecutionStatus
  waitToComplete : Bool
  sequenceMaps : StateExecutionSequenceMaps
  toAbortRunningAsyncStates : Bool

/-- The locked process row with the close written into it. -/
def ProcessClose.applyTo (c : ProcessClose) (prcRow : ProcessExecutionRowForUpdate) :
    ProcessExecutionRowForUpdate :=
  { prcRow with status := c.status, waitToComplete := c.waitToComplete,
                stateExecutionSequenceMaps := c.sequenceMaps }

/-- Step 2-3: `toGracefullyComplete` is computed first; only when it is false does the
    decision's close type apply, and a graceful close recomputes it. -/
def closeProcessExecution (status : ProcessExecutionStatus) (waitToComplete : Bool)
    (m : StateExecutionSequenceMaps) (decision : Option ThreadCloseType) : ProcessClose :=
  if waitToComplete && m.isPendingEmpty then ⟨.completed, waitToComplete, m, false⟩
  else match decision with
    | some .gracefulCompleteProcess =>
      ⟨if m.isPendingEmpty then .completed else status, true, m, false⟩
    | some .forceCompleteProcess => ⟨.completed, waitToComplete, m.clearPending, !m.isPendingEmpty⟩
    | some .forceFailProcess => ⟨.failed, waitToComplete, m.clearPending, !m.isPendingEmpty⟩
    | some .deadEnd => ⟨status, waitToComplete, m, false⟩
    | none => ⟨status, waitToComplete, m, false⟩

/-- `doCompleteExecuteExecutionTx`; the flag is `HasNewImmediateTask`. -/
def doCompleteExecuteExecutionTx (s : Store) (request : CompleteExecuteExecutionRequest) :
    Except TxError (Bool × Store) := do
  let prcRow ← s.selectProcessExecutionForUpdate request.processExecutionId
  let s ← s.updateAsyncStateExecutionWithoutCommands ⟨request.processExecutionId,
    request.stateId, request.stateIdSequence, .completed, none, request.prepare.previousVersion⟩
  let some sequenceMaps := prcRow.stateExecutionSequenceMaps.completeNewStateExecution
      request.stateId request.stateIdSequence
    | .error (.dataCorruption request.stateId request.stateIdSequence)
  let (sequenceMaps, s) ← startNextStates s request.processExecutionId request.prepare.info
    request.taskShardId request.stateDecision.nextStates sequenceMaps
  let c := closeProcessExecution prcRow.status prcRow.waitToComplete sequenceMaps
    request.stateDecision.threadCloseDecision
  let s ← if c.toAbortRunningAsyncStates then
      s.batchUpdateAsyncStateExecutionsToAbortRunning request.processExecutionId
    else pure s
  let s ← s.updateProcessExecution (c.applyTo prcRow)
  let s ← publishToLocalQueue s request.processExecutionId request.publishToLocalQueue
  pure (!request.stateDecision.nextStates.isEmpty || !request.publishToLocalQueue.isEmpty, s)

/-- The sequence maps the next-state loop leaves. -/
def startNextStatesMaps : List StateMovement → StateExecutionSequenceMaps →
    StateExecutionSequenceMaps
  | [], m => m
  | next :: rest, m => startNextStatesMaps rest (m.startNewStateExecution next.stateId).2

/-- Steps 4-5 on the store: the batch abort when the close asks for it, then the locked row
    written back with the close. -/
def ProcessClose.write (c : ProcessClose) (s : Store) (processExecutionId : Uuid)
    (p : ProcessExecutionRow) : Store :=
  (if c.toAbortRunningAsyncStates then s.abortRunningOf processExecutionId else s)
    |>.writeProcessExecution (c.applyTo (p.forUpdate processExecutionId))

/-- What the next-state loop does to the store: state rows added at version 1 with initial
    statuses where there was none, and tasks appended under fresh sequences. -/
structure StartsStates (s s' : Store) : Prop where
  processExecutions : s'.processExecutions = s.processExecutions
  timerTasks : s'.timerTasks = s.timerTasks
  localQueue : s'.localQueue = s.localQueue
  row : ∀ k, s'.asyncStateExecutions k = s.asyncStateExecutions k ∨
    s.asyncStateExecutions k = none ∧ ∃ r c, s'.asyncStateExecutions k = some r ∧
      r.version = 1 ∧ r.phases = initialStatuses c
  tasks : ∃ ts, s'.immediateTasks = s.immediateTasks ++ ts ∧
    ts.Pairwise (fun a b => a.taskSequence < b.taskSequence) ∧ ∀ t ∈ ts,
      s.nextImmediateTaskSequence ≤ t.taskSequence ∧
        t.taskSequence < s'.nextImmediateTaskSequence ∧ t.taskType ≠ .newLocalQueueMessage
  next : s.nextImmediateTaskSequence ≤ s'.nextImmediateTaskSequence

theorem StartsStates.refl (s : Store) : StartsStates s s :=
  ⟨rfl, rfl, rfl, fun _ => .inl rfl, ⟨[], by simp, .nil, by simp⟩, le_rfl⟩

theorem StartsStates.trans {s₁ s₂ s₃ : Store} (h₁ : StartsStates s₁ s₂) (h₂ : StartsStates s₂ s₃) :
    StartsStates s₁ s₃ := by
  obtain ⟨p₁, t₁, l₁, r₁, ⟨ts₁, e₁, o₁, h₁⟩, n₁⟩ := h₁
  obtain ⟨p₂, t₂, l₂, r₂, ⟨ts₂, e₂, o₂, h₂⟩, n₂⟩ := h₂
  refine ⟨p₂.trans p₁, t₂.trans t₁, l₂.trans l₁, fun k => ?_, ⟨ts₁ ++ ts₂, by simp [e₁, e₂],
    List.pairwise_append.2 ⟨o₁, o₂, fun a ha b hb => ?_⟩, ?_⟩, n₁.trans n₂⟩
  · rcases r₁ k with e | ⟨hn, hr⟩ <;> rcases r₂ k with e' | ⟨hn', hr'⟩
    · exact .inl (e'.trans e)
    · exact .inr ⟨e ▸ hn', hr'⟩
    · exact .inr ⟨hn, e' ▸ hr⟩
    · obtain ⟨r, -, hr, -⟩ := hr
      simp [hr] at hn'
  · exact Nat.lt_of_lt_of_le (h₁ a ha).2.1 (h₂ b hb).1
  · intro t ht
    rcases List.mem_append.1 ht with ht | ht
    · obtain ⟨a, b, c⟩ := h₁ t ht
      exact ⟨a, by omega, c⟩
    · obtain ⟨a, b, c⟩ := h₂ t ht
      exact ⟨by omega, b, c⟩

/-- One next state: its row where there was none, and its first task. -/
theorem startsStates_insert {s s₁ s₂ : Store} {pid : Uuid} {stateId : String} {seq : Nat}
    {c : Option AsyncStateConfig} {input : Option EncodedObject}
    {info : AsyncStateExecutionInfoJson} {shardId : Nat}
    (h₁ : insertAsyncStateExecution s pid stateId seq c input info = .ok s₁)
    (h₂ : insertImmediateTask s₁ pid stateId seq c shardId = .ok s₂) : StartsStates s s₂ := by
  obtain ⟨hn, rfl⟩ := insertAsyncStateExecution_eq_ok h₁
  cases h₂
  refine ⟨rfl, rfl, rfl, fun k => ?_, ⟨[_], rfl, List.pairwise_singleton _ _, ?_⟩,
    Nat.le_succ _⟩
  · by_cases hk : k = ⟨pid, stateId, seq⟩
    · subst hk
      exact .inr ⟨hn, initialRow c input info, c, by simp [Store.appendImmediateTask], rfl, rfl⟩
    · exact .inl (by simp [Store.appendImmediateTask, hk])
  · intro t ht
    simp only [List.mem_singleton] at ht
    subst ht
    refine ⟨le_rfl, Nat.lt_succ_self _, ?_⟩
    unfold initialTaskType
    split <;> simp

/-- The next-state loop: the maps it leaves, and what it does to the store. -/
theorem startNextStates_eq_ok {s s' : Store} {pid : Uuid} {info : AsyncStateExecutionInfoJson}
    {shardId : Nat} {nexts : List StateMovement} {m m' : StateExecutionSequenceMaps}
    (h : startNextStates s pid info shardId nexts m = .ok (m', s')) :
    m' = startNextStatesMaps nexts m ∧ StartsStates s s' := by
  induction nexts generalizing s m with
  | nil =>
    cases h
    exact ⟨rfl, .refl _⟩
  | cons next rest ih =>
    simp only [startNextStates, bind_eq_ok] at h
    obtain ⟨s₁, h₁, s₂, h₂, h⟩ := h
    obtain ⟨rfl, h₃⟩ := ih h
    exact ⟨rfl, (startsStates_insert h₁ h₂).trans h₃⟩

/-- A committed completion: the version-gated write, the pending pair removed, the next
    states started, the close written, and the messages published. -/
theorem doCompleteExecuteExecutionTx_eq_ok {s s' : Store}
    {request : CompleteExecuteExecutionRequest} {b : Bool}
    (h : doCompleteExecuteExecutionTx s request = .ok (b, s')) :
    ∃ p s₁ m m' s₂, s.processExecutions request.processExecutionId = some p ∧
      s.conditionalUpdate request.key request.prepare.previousVersion .completed none = .ok s₁ ∧
      p.stateExecutionSequenceMaps.completeNewStateExecution request.stateId
        request.stateIdSequence = some m ∧
      startNextStates s₁ request.processExecutionId request.prepare.info request.taskShardId
        request.stateDecision.nextStates m = .ok (m', s₂) ∧
      publishToLocalQueue ((closeProcessExecution p.status p.waitToComplete m'
          request.stateDecision.threadCloseDecision).write s₂ request.processExecutionId p)
        request.processExecutionId request.publishToLocalQueue = .ok s' := by
  simp only [doCompleteExecuteExecutionTx, bind_eq_ok,
    Store.selectProcessExecutionForUpdate_eq_ok] at h
  obtain ⟨_, ⟨p, hp, rfl⟩, s₁, h₁, h⟩ := h
  split at h
  · rename_i m hm
    simp only [bind_eq_ok] at h
    obtain ⟨⟨m', s₂⟩, h₂, h⟩ := h
    refine ⟨p, s₁, m, m', s₂, hp, h₁, hm, h₂, ?_⟩
    simp only [ProcessClose.write]
    split at h <;> rename_i hc <;> simp only [ProcessExecutionRow.forUpdate] at hc h <;>
      simp only [hc, ↓reduceIte] <;>
      simp only [Store.batchUpdateAsyncStateExecutionsToAbortRunning,
        Store.updateProcessExecution, bind_eq_ok, pure, Except.pure, Except.ok.injEq] at h <;>
      obtain ⟨_, rfl, _, rfl, s₃, h₃, h⟩ := h <;>
      obtain ⟨-, rfl⟩ := Prod.mk.inj h
    all_goals exact h₃
  · cases h

/-- `CompleteExecuteExecution`: the transaction, rolled back on error. -/
def completeExecuteExecution (s : Store) (request : CompleteExecuteExecutionRequest) :
    Except TxError Bool × Store :=
  commitOrRollback s (doCompleteExecuteExecutionTx s request)

end Xdb
