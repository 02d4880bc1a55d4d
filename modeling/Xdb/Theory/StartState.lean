import Xdb.Theory.ProcessRows

/-!
# The Start State and the Pending Map

`StartProcess` inserts the start state's row at sequence 1 with its first task, and writes
the process row's sequence blob as `StateExecutionIdSequenceJson{SequenceMap: sequenceMap}`.
That struct has no pending-execution field, so the map `CompleteExecuteExecution` decodes
from the blob is empty: the start state runs, but it is not pending
(`startProcess_start_state_not_pending`).

Its consequence is global. `CompleteExecuteExecution` commits only when the finishing pair
is pending, the start state is the only way a process gets a first pair, and every other
transaction writes the map back as it read it. So in every reachable state every pending
map is empty and no completion ever commits (`reachable_no_completion_commits`): an execute
phase that returns is retried through the processor for ever, failing with data
corruption.

## Theorems

* `startProcess_start_state_not_pending`: The start state's row is unfinished and its pair
  is not pending.
* `reachable_no_completion_commits`: No pending pair and no committed completion in any
  reachable state.
-/

namespace Xdb

/-- The start state's row exists with its execute phase unfinished, while the running
    process row StartProcess writes has no pending pair for it. -/
theorem startProcess_start_state_not_pending {s s' : Store}
    {request : ProcessExecutionStartRequest} {now : Int} {id : Uuid} {sid : String}
    (h : startProcess s request now = (.ok (.started id), s'))
    (hs : request.startStateId = some sid) :
    (∃ r, s'.asyncStateExecutions ⟨id, sid, 1⟩ = some r ∧ r.executeStatus ≠ .completed) ∧
      ∃ p, s'.processExecutions id = some p ∧ p.status = .running ∧
        ¬p.stateExecutionSequenceMaps.IsPending sid 1 := by
  unfold startProcess at h
  split at h <;> cases h
  rename_i h
  obtain ⟨-, s₁, s₂, -, h₂, h₃⟩ := doStartProcessTx_eq_started h
  obtain ⟨-, rfl⟩ := Store.insertProcessExecution_eq_ok h₃
  refine ⟨?_, { startProcessRow request now with waitToComplete := false },
    by simp [Store.setProcessExecution], rfl,
    by simp [startProcessRow, startSequenceMaps, StateExecutionSequenceMaps.IsPending]⟩
  rcases insertStartState_eq_ok h₂ with ⟨hn, -⟩ | ⟨sid', hs', -, rfl⟩
  · rw [hs] at hn
    cases hn
  · rw [hs] at hs'
    cases hs'
    refine ⟨initialRow request.startStateConfig request.startStateInput
      ⟨"", "", request.processType, request.workerUrl, none⟩,
      by simp [Store.setProcessExecution, Store.appendImmediateTask], ?_⟩
    unfold initialRow initialStatuses
    split <;> simp

theorem startProcess_start_state_not_pending_on_empty_store :
    ∃ s', startProcess Store.empty ⟨"ns", "p", "t", "u", some "S", none, none, none⟩ 0 =
      (.ok (.started (.minted 0)), s') ∧
    (∃ r, s'.asyncStateExecutions ⟨.minted 0, "S", 1⟩ = some r ∧ r.executeStatus ≠ .completed) ∧
      ∃ p, s'.processExecutions (.minted 0) = some p ∧ p.status = .running ∧
        ¬p.stateExecutionSequenceMaps.IsPending "S" 1 :=
  ⟨_, rfl, @startProcess_start_state_not_pending Store.empty _
    ⟨"ns", "p", "t", "u", some "S", none, none, none⟩ 0 _ _ rfl rfl⟩

/-- Every pending map is empty. -/
def PendingEmpty (s : Store) : Prop :=
  ∀ id p, s.processExecutions id = some p → p.stateExecutionSequenceMaps.isPendingEmpty = true

theorem completeNewStateExecution_of_isPendingEmpty {m : StateExecutionSequenceMaps}
    (h : m.isPendingEmpty = true) (stateId : String) (seq : Nat) :
    m.completeNewStateExecution stateId seq = none := by
  unfold StateExecutionSequenceMaps.completeNewStateExecution
  rw [(StateExecutionSequenceMaps.isPendingEmpty_iff m).1 h stateId]

theorem transition_pendingEmpty {e : Engine} {s' : Store} (h : Transition e s')
    (hi : PendingEmpty e.store) : PendingEmpty s' := by
  cases h with
  | stay => exact hi
  | startProcess request =>
    -- the row a start adds has the empty pending map it serialises
    intro id p hp
    rcases startProcess_processExecutions e.store request e.now id with he | ⟨-, p', hp', -, -, hm⟩
    · exact hi id p (he ▸ hp)
    · rw [hp'] at hp
      cases hp
      rw [hm]
      rfl
  | fireTimer => exact hi
  | waitUntil =>
    -- a wait-until result and a backoff write no process row
    unfold PendingEmpty
    rw [processWaitUntilExecution_processExecutions]
    exact hi
  | execute =>
    -- no completion commits against an empty pending map
    intro id p hp
    rcases completeExecuteExecution_processExecutions e.store _ id with he | ⟨-, p₀, m, hp₀, hm, -⟩
    · exact hi id p (he ▸ hp)
    · rw [completeNewStateExecution_of_isPendingEmpty (hi _ _ hp₀)] at hm
      cases hm
  | backoff =>
    unfold PendingEmpty
    rw [backoffImmediateTask_processExecutions]
    exact hi
  | delete => exact hi

theorem reachable_pendingEmpty {cfg : ProcessorConfig} {e : Engine} (hr : Reachable cfg e) :
    PendingEmpty e.store := by
  induction hr with
  | init => intro _ _ h; cases h
  | step _ _ hs ih => exact transition_pendingEmpty (step_transition hs) ih

/-- Where every pending map is empty, `CompleteExecuteExecution` fails and rolls back. -/
theorem completeExecuteExecution_of_pendingEmpty {s : Store} (hi : PendingEmpty s)
    (request : CompleteExecuteExecutionRequest) :
    ∃ err, completeExecuteExecution s request = (.error err, s) := by
  unfold completeExecuteExecution commitOrRollback
  split
  · obtain ⟨p, -, m, -, -, hp, -, hm, -⟩ := doCompleteExecuteExecutionTx_eq_ok ‹_›
    rw [completeNewStateExecution_of_isPendingEmpty (hi _ _ hp)] at hm
    cases hm
  · exact ⟨_, rfl⟩

/-- In every reachable state every pending map is empty, and no `CompleteExecuteExecution`
    commits, whatever its request. -/
theorem reachable_no_completion_commits {cfg : ProcessorConfig} {e : Engine}
    (hr : Reachable cfg e) :
    (∀ id p, e.store.processExecutions id = some p →
      p.stateExecutionSequenceMaps.isPendingEmpty = true) ∧
    ∀ request b, (completeExecuteExecution e.store request).1 ≠ .ok b := by
  have hi := reachable_pendingEmpty hr
  refine ⟨hi, fun request b hb => ?_⟩
  obtain ⟨err, he⟩ := completeExecuteExecution_of_pendingEmpty hi request
  rw [he] at hb
  cases hb

theorem started_process_has_no_pending_pair :
    ∃ e, run exampleConfig (Engine.init exampleConfig 0) exampleStartRun = some e ∧
      (∀ id p, e.store.processExecutions id = some p →
        p.stateExecutionSequenceMaps.isPendingEmpty = true) ∧
      ∀ request b, (completeExecuteExecution e.store request).1 ≠ .ok b := by
  refine ⟨_, rfl, ?_⟩
  exact reachable_no_completion_commits
    (@reachable_of_run exampleConfig _ _ (.init 0) exampleStartRun rfl)

end Xdb
