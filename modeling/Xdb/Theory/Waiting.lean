import Xdb.Theory.StateRows
import Xdb.Theory.StartState

/-!
# Waiting State Executions

What becomes of a state execution whose wait-until call returned commands.

`updateWaitUntilExecution` moves the row to `WaitUntilWaiting`, and that is all it does to
make the state progress. It inserts no timer task for the timer commands, the commands
themselves are not stored (`UpdateAsyncStateExecution` names no command column), and the
local-queue commands it registers on the process row are lost with the waiting-queue column
no query writes (`processWaitUntilExecution_waits_without_timer`).

A force close does not clear such a state either. `BatchUpdateAsyncStateExecutionsToAbortRunning`
rewrites status 1, running, to aborted and leaves every other status, so a sibling in
`WaitUntilWaiting`, status 2, keeps it through the close of its process
(`completeExecuteExecution_keeps_waiting_rows`). Both are facts of the transactions on every
store; the example after them runs them on `twoStateStore`, whose pending siblings no run of
this revision reaches, since `StartProcess` records no pending pair.

Over whole runs the engine never resumes a waiting state (`waiting_states_never_resume`). The
only writes to a state row are gated on the version of a worker's snapshot in which a phase
runs (a wait-until result, a backoff), and a waiting row is at no such version; the third
writer, `CompleteExecuteExecution`, never commits from a reachable state, since every pending
map there is empty. So from the moment a row waits, it keeps its value in every later state.

## Theorems

* `processWaitUntilExecution_waits_without_timer`: A committed command result leaves its row
  waiting with no timer task, no stored command and no registration.
* `completeExecuteExecution_keeps_waiting_rows`: A committed decision, a force close included,
  leaves every other waiting row waiting.
* `transition_keeps_waiting_row`: No transaction from a reachable state changes a waiting row.
* `waiting_states_never_resume`: No run from a reachable state changes a waiting row.
-/

namespace Xdb

/-- A committed wait-until result with commands moves its row to `WaitUntilWaiting` with the
    commands it had before, and leaves the timer tasks and the process rows as they were. -/
theorem processWaitUntilExecution_waits_without_timer {s s' : Store}
    {request : ProcessWaitUntilExecutionRequest} {b : Bool}
    (h : doProcessWaitUntilExecutionTx s request = .ok (b, s'))
    (hc : request.commandRequest.waitingType ≠ some .emptyCommand) :
    ∃ r r', s.asyncStateExecutions request.key = some r ∧
      s'.asyncStateExecutions request.key = some r' ∧ r'.waitUntilStatus = .waiting ∧
      r'.waitUntilCommands = r.waitUntilCommands ∧ s'.timerTasks = s.timerTasks ∧
      s'.processExecutions = s.processExecutions := by
  obtain ⟨s₁, h₁, h₂⟩ := doProcessWaitUntilExecutionTx_eq_ok h
  rw [waitUntilStatusWrite, if_neg hc] at h₁
  rw [if_neg hc] at h₂
  obtain ⟨r, hr, -, rfl⟩ := Store.conditionalUpdate_eq_ok h₁
  obtain ⟨_, _, -, rfl⟩ := publishToLocalQueue_eq_ok h₂
  exact ⟨r, r.written .waitUntilWaiting none, hr, by simp, rfl, rfl, rfl, rfl⟩

/-- A committed decision leaves every other waiting row waiting, through the batch abort of a
    force close. -/
theorem completeExecuteExecution_keeps_waiting_rows {s s' : Store}
    {request : CompleteExecuteExecutionRequest} {b : Bool}
    (h : doCompleteExecuteExecutionTx s request = .ok (b, s')) {k : AsyncStateExecutionKey}
    (hk : k ≠ request.key) {r : AsyncStateExecutionRow} (hr : s.asyncStateExecutions k = some r)
    (hw : r.waitUntilStatus = .waiting) :
    ∃ r', s'.asyncStateExecutions k = some r' ∧ r'.waitUntilStatus = .waiting := by
  obtain ⟨_, s₂, _, -, -, hs, -, -, he⟩ := doCompleteExecuteExecutionTx_asyncStateExecutions h
  have h₂ : s₂.asyncStateExecutions k = some r := by
    rcases hs.row k with h' | ⟨hn, -⟩
    · simpa [hk, hr] using h'
    · simp [hk, hr] at hn
  rw [he, h₂]
  split
  · exact ⟨_, rfl, by rw [Store.abortRunning_waitUntilStatus, hw]; rfl⟩
  · exact ⟨r, rfl, hw⟩

/-- "S2"'s wait-until call returns: wait for any of one timer of five seconds. -/
def waitOnTimerRequest : ProcessWaitUntilExecutionRequest :=
  ⟨.minted 0, "S2", 1, ⟨.running, .undefined, 1, exampleStateInfo, none, {}⟩,
    ⟨some .anyOfCompletion, [⟨5⟩], []⟩, [], 0⟩

/-- "S2" waits on a timer that no task will fire; "S1"'s force complete then closes the
    process and leaves "S2" waiting. -/
example :
    (processWaitUntilExecution twoStateStore waitOnTimerRequest).2.timerTasks = [] ∧
      ((completeExecuteExecution (processWaitUntilExecution twoStateStore
        waitOnTimerRequest).2 forceCompleteRequest).2.processExecutions (.minted 0)).map
          (·.status) = some .completed ∧
      ((completeExecuteExecution (processWaitUntilExecution twoStateStore
        waitOnTimerRequest).2 forceCompleteRequest).2.asyncStateExecutions
          ⟨.minted 0, "S2", 1⟩).map (·.waitUntilStatus) = some .waiting :=
  ⟨rfl, rfl, rfl⟩

/-! ### No run wakes a waiting state -/

theorem phasesOk_waiting {p : StateExecutionStatus × StateExecutionStatus} (h : phasesOk p = true)
    (hw : p.1 = .waiting) : p.2 = .undefined := by
  obtain ⟨w, e⟩ := p
  subst hw
  cases e <;> simp_all [phasesOk]

/-- A waiting row is at no version a call's snapshot holds, since the snapshot has a phase
    running and a waiting row has none. -/
theorem SnapshotOf.version_ne_of_waiting {s : Store} {k : AsyncStateExecutionKey}
    {prep : PrepareStateExecutionResponse} (h : SnapshotOf s k prep)
    (hrun : prep.waitUntilStatus = .running ∨ prep.executeStatus = .running) (hp : PhasesInv s)
    {r : AsyncStateExecutionRow} (hr : s.asyncStateExecutions k = some r)
    (hw : r.waitUntilStatus = .waiting) : r.version ≠ prep.previousVersion := fun hv => by
  obtain ⟨h₁, h₂⟩ := h.statuses r hr hv
  have he := phasesOk_waiting (hp k r hr) hw
  rcases hrun with hrun | hrun
  · rw [hw, hrun] at h₁
    cases h₁
  · exact absurd ((h₂.trans hrun).symm.trans he) (by decide)

/-- A worker in a call holds a copy of its task's row key. -/
theorem RowsInv.call_key {e : Engine} (hi : RowsInv e) {i : Nat}
    {task current : ImmediateTaskRow} {prep : PrepareStateExecutionResponse}
    (hwk : e.workers.get? i = some (.waitUntilCall task current prep) ∨
      e.workers.get? i = some (.executeCall task current prep)) :
    current.key = task.key := by
  rcases hwk with hwk | hwk
  · exact (snapshotOk_of_get? hi hwk).1
  · exact (snapshotOk_of_get? hi hwk).1

/-- A worker in a call holds a snapshot of its row at a version a waiting row has left. -/
theorem RowsInv.version_ne_of_waiting {e : Engine} (hi : RowsInv e) {i : Nat}
    {task current : ImmediateTaskRow} {prep : PrepareStateExecutionResponse}
    (hwk : e.workers.get? i = some (.waitUntilCall task current prep) ∨
      e.workers.get? i = some (.executeCall task current prep))
    {r : AsyncStateExecutionRow} (hr : e.store.asyncStateExecutions task.key = some r)
    (hw : r.waitUntilStatus = .waiting) : r.version ≠ prep.previousVersion := by
  rcases hwk with hwk | hwk
  · have h := snapshotOk_of_get? hi hwk
    exact h.2.2.version_ne_of_waiting (.inl h.2.1) hi.phases hr hw
  · have h := snapshotOk_of_get? hi hwk
    exact h.2.2.2.version_ne_of_waiting (.inr h.2.2.1) hi.phases hr hw

/-- A write gated at a version the row at `k` is not at leaves that row where it was. -/
theorem setAsyncStateExecution_of_version_ne {s : Store} {k k' : AsyncStateExecutionKey}
    {r r' : AsyncStateExecutionRow} {v : Nat} (hr : s.asyncStateExecutions k = some r)
    (hr' : s.asyncStateExecutions k' = some r') (hv : r'.version = v)
    (hne : k = k' → r.version ≠ v) (row : AsyncStateExecutionRow) :
    (s.setAsyncStateExecution k' row).asyncStateExecutions k = some r := by
  by_cases hk : k = k'
  · subst hk
    rw [hr] at hr'
    cases hr'
    exact absurd hv (hne rfl)
  · simp only [Store.setAsyncStateExecution, if_neg hk, hr]

/-- No transaction from a state where snapshots are valid and pending maps empty changes a
    waiting row. -/
theorem transition_keeps_waiting_row {e : Engine} {s' : Store} (hi : RowsInv e)
    (hpe : PendingEmpty e.store) (h : Transition e s') {k : AsyncStateExecutionKey}
    {r : AsyncStateExecutionRow} (hr : e.store.asyncStateExecutions k = some r)
    (hw : r.waitUntilStatus = .waiting) : s'.asyncStateExecutions k = some r := by
  cases h with
  | stay => exact hr
  | startProcess request =>
    -- a start inserts only rows that were not there
    refine (startProcess_asyncStateExecutions e.store request e.now k).elim (·.trans hr) ?_
    rintro ⟨hn, -⟩
    rw [hr] at hn
    cases hn
  | fireTimer => exact hr
  | waitUntil resp hwk =>
    -- the write is gated on a snapshot whose wait-until phase runs, so not this row's version
    unfold processWaitUntilExecution commitOrRollback
    split
    · rename_i hok
      obtain ⟨r', hr', hv, he⟩ := doProcessWaitUntilExecutionTx_asyncStateExecutions hok
      rw [he]
      exact setAsyncStateExecution_of_version_ne hr hr' hv
        (fun hk => hi.version_ne_of_waiting (.inl hwk) (by rwa [hk] at hr) hw) _
    · exact hr
  | execute =>
    -- with every pending map empty no completion commits
    obtain ⟨err, he⟩ := completeExecuteExecution_of_pendingEmpty hpe _
    rw [he]
    exact hr
  | backoff request hwk hprep hcur =>
    -- a backoff is gated on the version of a call's snapshot, likewise
    unfold backoffImmediateTask
    split
    · rename_i hok
      obtain ⟨r', hr', hv, he⟩ := doBackoffImmediateTaskTx_asyncStateExecutions hok
      rw [he]
      refine setAsyncStateExecution_of_version_ne hr hr' hv (fun hk => ?_) _
      subst hprep hcur
      exact hi.version_ne_of_waiting hwk (by rwa [hk, hi.call_key hwk] at hr) hw
    · exact hr
  | delete => exact hr

/-- No run from a reachable state wakes a waiting state execution: its row keeps its value,
    statuses and version alike, in every later state. -/
theorem waiting_states_never_resume {cfg : ProcessorConfig} {e : Engine} (hr : Reachable cfg e)
    {k : AsyncStateExecutionKey} {r : AsyncStateExecutionRow}
    (hk : e.store.asyncStateExecutions k = some r) (hw : r.waitUntilStatus = .waiting) :
    ∀ {as : List Action} {e' : Engine}, run cfg e as = some e' →
      e'.store.asyncStateExecutions k = some r := by
  intro as
  induction as generalizing e with
  | nil =>
    intro e' h
    cases h
    exact hk
  | cons a as ih =>
    intro e' h
    simp only [run, Option.bind_eq_some] at h
    obtain ⟨e₁, hs, h⟩ := h
    exact ih (hr.step a hs) (transition_keeps_waiting_row (reachable_rowsInv hr)
      (reachable_pendingEmpty hr) (step_transition hs) hk hw) h

/-- Start "p", hand the wait-until task of "S" to worker 0, and return a timer wait. -/
def exampleWaitRun : List Action :=
  exampleStartRun ++ [.waitUntilReturned 0 (.ok exampleTimerWait)]

/-- Commit and delete the task of the returned call, and let a second pass. -/
def exampleAfterWait : List Action :=
  [.commit 0, .delete ⟨0, 0, .minted 0, "S", 1, .waitUntil, {}⟩, .tick]

theorem timer_wait_stays_waiting :
    ∃ e e' r, run exampleConfig (Engine.init exampleConfig 0) exampleWaitRun = some e ∧
      e.store.asyncStateExecutions ⟨.minted 0, "S", 1⟩ = some r ∧ r.waitUntilStatus = .waiting ∧
      run exampleConfig e exampleAfterWait = some e' ∧
      e'.store.asyncStateExecutions ⟨.minted 0, "S", 1⟩ = some r :=
  ⟨_, _, _, rfl, rfl, rfl, rfl, @waiting_states_never_resume exampleConfig _
    (@reachable_of_run exampleConfig _ _ (.init 0) exampleWaitRun rfl) ⟨.minted 0, "S", 1⟩ _ rfl
    rfl exampleAfterWait _ rfl⟩

end Xdb
