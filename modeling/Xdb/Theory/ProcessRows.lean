import Xdb.Theory.Steps

/-!
# Process Rows: Status, Graceful Completion and the Pending Map

The invariant of every process row. No state id of the pending-execution map holds an
empty set (`NoEmptyEntry`); a process that is no longer running has an empty map; and a
running process whose `WaitToComplete` is set still has a pending execution. The first
makes `len(PendingExecutionMap) == 0` mean "no pending pair", the second and third are
what the spec asks of closed and gracefully completing processes.

Only `CompleteExecuteExecution` changes a process row's status, flag or map:
`ProcessWaitUntilExecution` and the local-queue consumption write the locked row back
with the columns they read. The transaction can commit only when the finishing pair is
pending, so only for a running process, and `closeProcessExecution_processInv` shows
that the close it writes keeps the invariant whatever the decision: a force close empties
the map it closes, and a completion that leaves no pending pair under `WaitToComplete`, or
under a graceful close, writes the process completed. A status that left running is never
written again, and no transaction clears `WaitToComplete`.

The invariant is inductive over the transactions themselves, not only over the runs the
engine reaches from an empty store. Every start, completion and wait-until result, on any
store whose rows keep it and for any request, keeps it (`ProcessRowTx.processRows`); this
covers stores with pending pairs and closes of every kind, although in the revision of
`StartProcess` among the sources no reachable process ever gets a pending pair
(`Theory.StartState`). The example store `twoStateStore` holds such a process: two state
executions pending, with their rows and first tasks, as the next-state loop of a completion
leaves them.

Each transaction's effect on the process table is stated once (`*_processExecutions`,
`*_processRows`), and `transition_processRows` and `ProcessRowTx.processRows` dispatch on the
step.

## Main definitions

* `ProcessInv`: The invariant of one row's status, flag and map.
* `ProcessRowsInv`: Every process row keeps `ProcessInv`.
* `ProcessRowStep`, `ProcessRowsStep`: What a step may change in a process row.
* `ProcessRowTx`: A start, a completion or a wait-until result, on any request.
* `twoStateStore`: A running process with two pending state executions.

## Theorems

* `closeProcessExecution_processInv`: Every close of a running process keeps the
  invariant.
* `closeProcessExecution_completes`: A close that leaves no pending pair under the flag or a
  graceful close completes the process.
* `transition_processRows`, `ProcessRowTx.processRows`: Every transaction keeps the invariant
  and changes no closed status and no set flag.
* `closed_process_empty_pending_and_final`: Closed rows have empty maps and keep their status.
* `graceful_process_pending_and_flag_kept`: A gracefully completing process has a pending
  pair, keeps its flag, and completes with its last pending pair.
-/

namespace Xdb

/-- The invariant of a process row's status, graceful flag and sequence maps. -/
structure ProcessInv (status : ProcessExecutionStatus) (waitToComplete : Bool)
    (m : StateExecutionSequenceMaps) : Prop where
  noEmptyEntry : m.NoEmptyEntry
  closed_isPendingEmpty : status ≠ .running → m.isPendingEmpty = true
  graceful_pending : status = .running → waitToComplete = true → m.isPendingEmpty = false

/-- Every process row keeps `ProcessInv`. -/
def ProcessRowsInv (s : Store) : Prop :=
  ∀ id p, s.processExecutions id = some p →
    ProcessInv p.status p.waitToComplete p.stateExecutionSequenceMaps

/-- What one step may do to a process row: a closed status stays, the flag stays set. -/
def ProcessRowStep (p p' : ProcessExecutionRow) : Prop :=
  (p.status ≠ .running → p'.status = p.status) ∧
    (p.waitToComplete = true → p'.waitToComplete = true)

theorem ProcessRowStep.refl (p : ProcessExecutionRow) : ProcessRowStep p p :=
  ⟨fun _ => rfl, id⟩

/-- What one step may do to the process table: every row stays, moved by a
    `ProcessRowStep`. -/
def ProcessRowsStep (s s' : Store) : Prop :=
  ∀ id p, s.processExecutions id = some p →
    ∃ p', s'.processExecutions id = some p' ∧ ProcessRowStep p p'

/-- A running row with its flag set has a pending pair. -/
theorem ProcessInv.isPending_of_graceful {w : Bool} {m : StateExecutionSequenceMaps}
    (hp : ProcessInv .running w m) (hw : w = true) : ∃ stateId seq, m.IsPending stateId seq := by
  by_contra hno
  push_neg at hno
  have hne := hp.graceful_pending rfl hw
  rw [(StateExecutionSequenceMaps.isEmpty_iff_forall_not_isPending hp.noEmptyEntry).2 hno]
    at hne
  cases hne

/-! ### The close of `CompleteExecuteExecution` -/

theorem noEmptyEntry_startNextStatesMaps {m : StateExecutionSequenceMaps} (hm : m.NoEmptyEntry)
    (nexts : List StateMovement) : (startNextStatesMaps nexts m).NoEmptyEntry := by
  induction nexts generalizing m with
  | nil => exact hm
  | cons next rest ih => exact ih (m.noEmptyEntry_startNewStateExecution hm next.stateId)

/-- Every close of a running process, whatever the decision, keeps the invariant. -/
theorem closeProcessExecution_processInv {w : Bool} {m : StateExecutionSequenceMaps}
    (hm : m.NoEmptyEntry) (decision : Option ThreadCloseType) :
    ProcessInv (closeProcessExecution .running w m decision).status
      (closeProcessExecution .running w m decision).waitToComplete
      (closeProcessExecution .running w m decision).sequenceMaps := by
  unfold closeProcessExecution
  split
  · rename_i hg
    simp only [Bool.and_eq_true] at hg
    exact ⟨hm, fun _ => hg.2, fun h => by cases h⟩
  · rename_i hg
    simp only [Bool.and_eq_true, not_and] at hg
    split
    · split <;> rename_i he
      · exact ⟨hm, fun _ => he, fun h => by cases h⟩
      · exact ⟨hm, fun h => absurd rfl h, fun _ _ => by simpa using he⟩
    · exact ⟨m.noEmptyEntry_clearPending, fun _ => rfl, fun h => by cases h⟩
    · exact ⟨m.noEmptyEntry_clearPending, fun _ => rfl, fun h => by cases h⟩
    all_goals exact ⟨hm, fun h => absurd rfl h, fun _ hw => by simpa using hg hw⟩

theorem closeProcessExecution_waitToComplete {status : ProcessExecutionStatus} {w : Bool}
    {m : StateExecutionSequenceMaps} (decision : Option ThreadCloseType) (hw : w = true) :
    (closeProcessExecution status w m decision).waitToComplete = true := by
  unfold closeProcessExecution
  split
  · exact hw
  · split <;> first | rfl | exact hw

/-- A close that leaves no pending pair completes the process when the flag was set or the
    decision is a graceful close, and leaves the flag set. -/
theorem closeProcessExecution_completes {status : ProcessExecutionStatus} {w : Bool}
    {m : StateExecutionSequenceMaps} {decision : Option ThreadCloseType}
    (hw : w = true ∨ decision = some .gracefulCompleteProcess) (he : m.isPendingEmpty = true) :
    (closeProcessExecution status w m decision).status = .completed ∧
      (closeProcessExecution status w m decision).waitToComplete = true := by
  rcases hw with rfl | rfl
  · simp [closeProcessExecution, he]
  · cases w <;> simp [closeProcessExecution, he]

/-- A completion commits only for a pending pair, so only for a running process. -/
theorem status_running_of_completeNewStateExecution {p : ProcessExecutionRow}
    (hp : ProcessInv p.status p.waitToComplete p.stateExecutionSequenceMaps) {stateId : String}
    {seq : Nat} {m : StateExecutionSequenceMaps}
    (hm : p.stateExecutionSequenceMaps.completeNewStateExecution stateId seq = some m) :
    p.status = .running := by
  by_contra hs
  have hpend := (StateExecutionSequenceMaps.isSome_completeNewStateExecution _ _ _).1
    (Option.isSome_iff_exists.2 ⟨m, hm⟩)
  exact (StateExecutionSequenceMaps.isEmpty_iff_forall_not_isPending hp.noEmptyEntry).1
    (hp.closed_isPendingEmpty hs) _ _ hpend

/-! ### Each transaction's effect on the process table -/

theorem conditionalUpdate_processExecutions {s s' : Store} {k : AsyncStateExecutionKey}
    {v : Nat} {w : StatusWrite} {f : Option StateExecutionFailureJson}
    (h : s.conditionalUpdate k v w f = .ok s') : s'.processExecutions = s.processExecutions := by
  obtain ⟨_, -, -, rfl⟩ := Store.conditionalUpdate_eq_ok h
  rfl

theorem publishToLocalQueue_processExecutions {s s' : Store} {pid : Uuid}
    {ms : List LocalQueueMessage} (h : publishToLocalQueue s pid ms = .ok s') :
    s'.processExecutions = s.processExecutions := by
  obtain ⟨_, _, -, rfl⟩ := publishToLocalQueue_eq_ok h
  rfl

/-- A wait-until result rewrites no process row: the row it locks to register local-queue
    commands is written back as it was read. -/
theorem doProcessWaitUntilExecutionTx_processExecutions {s s' : Store}
    {request : ProcessWaitUntilExecutionRequest} {b : Bool}
    (h : doProcessWaitUntilExecutionTx s request = .ok (b, s')) :
    s'.processExecutions = s.processExecutions := by
  obtain ⟨s₁, h₁, h₂⟩ := doProcessWaitUntilExecutionTx_eq_ok h
  rw [publishToLocalQueue_processExecutions h₂, ← conditionalUpdate_processExecutions h₁]
  split <;> rfl

theorem processWaitUntilExecution_processExecutions (s : Store)
    (request : ProcessWaitUntilExecutionRequest) :
    (processWaitUntilExecution s request).2.processExecutions = s.processExecutions := by
  unfold processWaitUntilExecution commitOrRollback
  split
  · exact doProcessWaitUntilExecutionTx_processExecutions ‹_›
  · rfl

theorem backoffImmediateTask_processExecutions (s : Store)
    (request : BackoffImmediateTaskRequest) :
    (backoffImmediateTask s request).2.processExecutions = s.processExecutions := by
  unfold backoffImmediateTask
  split
  · obtain ⟨s₁, h₁, rfl⟩ := doBackoffImmediateTaskTx_eq_ok ‹_›
    simpa [Store.appendTimerTask, Store.removeImmediateTask] using
      conditionalUpdate_processExecutions h₁
  · rfl

/-- A committed completion rewrites the row it locked with the close, and no other row. -/
theorem doCompleteExecuteExecutionTx_processExecutions {s s' : Store}
    {request : CompleteExecuteExecutionRequest} {b : Bool}
    (h : doCompleteExecuteExecutionTx s request = .ok (b, s')) :
    ∃ p m, s.processExecutions request.processExecutionId = some p ∧
      p.stateExecutionSequenceMaps.completeNewStateExecution request.stateId
        request.stateIdSequence = some m ∧
      ∀ id, s'.processExecutions id = if id = request.processExecutionId then
        some (p.updatedBy ((closeProcessExecution p.status p.waitToComplete
          (startNextStatesMaps request.stateDecision.nextStates m)
          request.stateDecision.threadCloseDecision).applyTo (p.forUpdate id)))
      else s.processExecutions id := by
  obtain ⟨p, s₁, m, m', s₂, hp, h₁, hm, h₂, h₃⟩ := doCompleteExecuteExecutionTx_eq_ok h
  obtain ⟨rfl, hs⟩ := startNextStates_eq_ok h₂
  have hpe : s₂.processExecutions = s.processExecutions := by
    rw [hs.processExecutions, conditionalUpdate_processExecutions h₁]
  refine ⟨p, m, hp, hm, fun id => ?_⟩
  simp only [publishToLocalQueue_processExecutions h₃, ProcessClose.write]
  by_cases hid : id = request.processExecutionId <;> split <;>
    simp [Store.abortRunningOf, ProcessClose.applyTo, ProcessExecutionRow.forUpdate, hpe, hp, hid]

/-- A committed completion rewrites the locked row with the close and nothing else. -/
theorem completeExecuteExecution_processExecutions (s : Store)
    (request : CompleteExecuteExecutionRequest) (id : Uuid) :
    (completeExecuteExecution s request).2.processExecutions id = s.processExecutions id ∨
      id = request.processExecutionId ∧ ∃ p m, s.processExecutions id = some p ∧
        p.stateExecutionSequenceMaps.completeNewStateExecution request.stateId
          request.stateIdSequence = some m ∧
        (completeExecuteExecution s request).2.processExecutions id =
          some (p.updatedBy ((closeProcessExecution p.status p.waitToComplete
            (startNextStatesMaps request.stateDecision.nextStates m)
            request.stateDecision.threadCloseDecision).applyTo (p.forUpdate id))) := by
  unfold completeExecuteExecution commitOrRollback
  split
  · obtain ⟨p, m, hp, hm, he⟩ := doCompleteExecuteExecutionTx_processExecutions ‹_›
    rw [he id]
    split
    · subst id
      exact .inr ⟨rfl, p, m, hp, hm, rfl⟩
    · exact .inl rfl
  · exact .inl rfl

/-- A committed start adds one running row, with an unset flag and no pending pair. -/
theorem startProcess_processExecutions (s : Store) (request : ProcessExecutionStartRequest)
    (now : Int) (id : Uuid) :
    (startProcess s request now).2.processExecutions id = s.processExecutions id ∨
      s.processExecutions id = none ∧ ∃ p, (startProcess s request now).2.processExecutions id =
        some p ∧ p.status = .running ∧ p.waitToComplete = false ∧
        p.stateExecutionSequenceMaps = startSequenceMaps request.startStateId := by
  unfold startProcess
  split
  · rename_i h
    obtain ⟨rfl, s₁, s₂, h₁, h₂, h₃⟩ := doStartProcessTx_eq_started h
    obtain ⟨-, rfl⟩ := Store.insertLatestProcessExecution_eq_ok h₁
    obtain ⟨hn, rfl⟩ := Store.insertProcessExecution_eq_ok h₃
    have hpe : s₂.processExecutions = s.processExecutions := by
      rcases insertStartState_eq_ok h₂ with ⟨-, rfl⟩ | ⟨sid, -, -, rfl⟩ <;> rfl
    by_cases hid : id = .minted s.nextUuid
    · subst hid
      exact .inr ⟨hpe ▸ hn, { startProcessRow request now with waitToComplete := false },
        by simp [Store.setProcessExecution], rfl, rfl, rfl⟩
    · exact .inl (by simp [Store.setProcessExecution, hid, hpe])
  · exact .inl rfl
  · exact .inl rfl

/-! ### Every step keeps the invariant -/

theorem processInv_startProcessRow (request : ProcessExecutionStartRequest) :
    ProcessInv .running false (startSequenceMaps request.startStateId) :=
  ⟨fun _ _ h => by simp [startSequenceMaps] at h, fun h => absurd rfl h, fun _ h => by cases h⟩

/-- The process row a committed completion writes keeps the invariant and moves by a
    `ProcessRowStep`. -/
theorem processInv_completeExecuteExecution {p : ProcessExecutionRow} {id : Uuid}
    (hp : ProcessInv p.status p.waitToComplete p.stateExecutionSequenceMaps)
    {request : CompleteExecuteExecutionRequest} {m : StateExecutionSequenceMaps}
    (hm : p.stateExecutionSequenceMaps.completeNewStateExecution request.stateId
      request.stateIdSequence = some m) :
    let p' := p.updatedBy ((closeProcessExecution p.status p.waitToComplete
      (startNextStatesMaps request.stateDecision.nextStates m)
      request.stateDecision.threadCloseDecision).applyTo (p.forUpdate id))
    ProcessInv p'.status p'.waitToComplete p'.stateExecutionSequenceMaps ∧ ProcessRowStep p p' := by
  have hrun := status_running_of_completeNewStateExecution hp hm
  have hinv := closeProcessExecution_processInv (w := p.waitToComplete)
    (noEmptyEntry_startNextStatesMaps
      (StateExecutionSequenceMaps.noEmptyEntry_completeNewStateExecution hp.noEmptyEntry hm)
      request.stateDecision.nextStates)
    request.stateDecision.threadCloseDecision
  rw [← hrun] at hinv
  exact ⟨hinv, fun h => absurd hrun h,
    closeProcessExecution_waitToComplete request.stateDecision.threadCloseDecision⟩

/-- A transaction that leaves the process table as it was keeps the invariant. -/
theorem processRows_of_eq {s s' : Store} (hi : ProcessRowsInv s)
    (h : s'.processExecutions = s.processExecutions) :
    ProcessRowsInv s' ∧ ProcessRowsStep s s' :=
  ⟨fun id p hp => hi id p (h ▸ hp), fun _ p hp => ⟨p, h ▸ hp, .refl p⟩⟩

/-- A start adds a row that keeps the invariant and changes no other. -/
theorem startProcess_processRows {s : Store} (hi : ProcessRowsInv s)
    (request : ProcessExecutionStartRequest) (now : Int) :
    ProcessRowsInv (startProcess s request now).2 ∧
      ProcessRowsStep s (startProcess s request now).2 := by
  refine ⟨fun id p hp => ?_, fun id p hp => ?_⟩ <;>
    rcases startProcess_processExecutions s request now id with he | ⟨hn, p', hp', hs, hw, hm⟩
  · exact hi id p (he ▸ hp)
  -- the new row: running, flag unset, the start blob
  · rw [hp'] at hp
    cases hp
    rw [hs, hw, hm]
    exact processInv_startProcessRow request
  · exact ⟨p, he ▸ hp, .refl p⟩
  -- the new row's id was free
  · rw [hp] at hn
    cases hn

/-- A completion rewrites its locked row with a close that keeps the invariant. -/
theorem completeExecuteExecution_processRows {s : Store} (hi : ProcessRowsInv s)
    (request : CompleteExecuteExecutionRequest) :
    ProcessRowsInv (completeExecuteExecution s request).2 ∧
      ProcessRowsStep s (completeExecuteExecution s request).2 := by
  refine ⟨fun id p hp => ?_, fun id p hp => ?_⟩ <;>
    rcases completeExecuteExecution_processExecutions s request id with
      he | ⟨-, p₀, m, hp₀, hm, he⟩
  · exact hi id p (he ▸ hp)
  -- the locked row, closed
  · rw [he] at hp
    cases hp
    exact (processInv_completeExecuteExecution (hi _ _ hp₀) hm).1
  · exact ⟨p, he ▸ hp, .refl p⟩
  · rw [hp] at hp₀
    cases hp₀
    exact ⟨_, he, (processInv_completeExecuteExecution (hi _ _ hp) hm).2⟩

/-! ### Every transaction, on any store and along the engine -/

/-- A transaction that writes a process row, on any request: a start, a completion, or a
    wait-until result. -/
inductive ProcessRowTx (s : Store) : Store → Prop
  | startProcess (request : ProcessExecutionStartRequest) (now : Int) :
      ProcessRowTx s (startProcess s request now).2
  | completeExecute (request : CompleteExecuteExecutionRequest) :
      ProcessRowTx s (completeExecuteExecution s request).2
  | waitUntil (request : ProcessWaitUntilExecutionRequest) :
      ProcessRowTx s (processWaitUntilExecution s request).2

/-- On every store that keeps the invariant, every such transaction keeps it. -/
theorem ProcessRowTx.processRows {s s' : Store} (h : ProcessRowTx s s')
    (hi : ProcessRowsInv s) : ProcessRowsInv s' ∧ ProcessRowsStep s s' := by
  cases h with
  | startProcess request now => exact startProcess_processRows hi request now
  | completeExecute request => exact completeExecuteExecution_processRows hi request
  | waitUntil request =>
    exact processRows_of_eq hi (processWaitUntilExecution_processExecutions s request)

/-- Every engine transaction keeps the invariant and changes no closed status and no set
    flag. -/
theorem transition_processRows {e : Engine} {s' : Store} (h : Transition e s')
    (hi : ProcessRowsInv e.store) : ProcessRowsInv s' ∧ ProcessRowsStep e.store s' := by
  cases h with
  | startProcess request => exact (ProcessRowTx.startProcess request e.now).processRows hi
  | execute => exact (ProcessRowTx.completeExecute _).processRows hi
  | waitUntil => exact (ProcessRowTx.waitUntil _).processRows hi
  | backoff => exact processRows_of_eq hi (backoffImmediateTask_processExecutions _ _)
  | stay | fireTimer | delete => exact processRows_of_eq hi rfl

/-- Every reachable state keeps the invariant of every process row. -/
theorem reachable_processRowsInv {cfg : ProcessorConfig} {e : Engine} (hr : Reachable cfg e) :
    ProcessRowsInv e.store := by
  induction hr with
  | init => intro _ _ h; cases h
  | step _ _ hs ih => exact (transition_processRows (step_transition hs) ih).1

/-- A committed completion whose finishing pair was the last pending one, under the flag or a
    graceful close, writes the process completed with the flag set. -/
theorem completeExecuteExecution_completes {s : Store}
    {request : CompleteExecuteExecutionRequest} {b : Bool}
    (h : (completeExecuteExecution s request).1 = .ok b) :
    ∃ p m, s.processExecutions request.processExecutionId = some p ∧
      p.stateExecutionSequenceMaps.completeNewStateExecution request.stateId
        request.stateIdSequence = some m ∧
      ((p.waitToComplete = true ∨
          request.stateDecision.threadCloseDecision = some .gracefulCompleteProcess) →
        (startNextStatesMaps request.stateDecision.nextStates m).isPendingEmpty = true →
        ∃ p', (completeExecuteExecution s request).2.processExecutions
            request.processExecutionId = some p' ∧
          p'.status = .completed ∧ p'.waitToComplete = true) := by
  obtain ⟨p, m, hp, hm, he⟩ :=
    doCompleteExecuteExecutionTx_processExecutions (commitOrRollback_eq_ok h)
  exact ⟨p, m, hp, hm, fun hw hempty =>
    ⟨_, (he _).trans (if_pos rfl), closeProcessExecution_completes hw hempty⟩⟩

/-! ### A process with two pending state executions -/

/-- The info blob of the example's state executions. -/
def exampleStateInfo : AsyncStateExecutionInfoJson := ⟨"", "", "t", "u", none⟩

/-- A running process with "S1" and "S2" pending at sequence 1. -/
def twoStateProcessRow : ProcessExecutionRow :=
  { startProcessRow ⟨"ns", "p", "t", "u", none, none, none, none⟩ 0 with
    stateExecutionSequenceMaps := ((StateExecutionSequenceMaps.empty.startNewStateExecution
      "S1").2.startNewStateExecution "S2").2 }

/-- The process `.minted 0` of "p" in "ns" with its two state executions as the next-state
    loop inserts them, each with its first task: "S1" skips its wait-until phase and
    executes, "S2" runs its wait-until phase. The id generator is past the process's id. -/
def twoStateStore : Store :=
  { ((Store.empty.setProcessExecution (.minted 0) twoStateProcessRow).setAsyncStateExecution
      ⟨.minted 0, "S1", 1⟩ (initialRow (some { skipWaitUntil := some true }) none
        exampleStateInfo)).setAsyncStateExecution ⟨.minted 0, "S2", 1⟩
      (initialRow none none exampleStateInfo) with
    latestProcessExecutions := fun ns p => if ns = "ns" ∧ p = "p" then some (.minted 0) else none
    immediateTasks := [⟨0, 0, .minted 0, "S1", 1, .execute, {}⟩,
      ⟨0, 1, .minted 0, "S2", 1, .waitUntil, {}⟩]
    nextImmediateTaskSequence := 2
    nextUuid := 1 }

theorem processRowsInv_twoStateStore : ProcessRowsInv twoStateStore := by
  intro id p hp
  simp only [twoStateStore, Store.setAsyncStateExecution, Store.setProcessExecution,
    Store.empty] at hp
  split at hp
  · cases hp
    refine ⟨?_, fun h => absurd rfl h, fun _ h => by cases h⟩
    exact StateExecutionSequenceMaps.noEmptyEntry_startNewStateExecution
      (StateExecutionSequenceMaps.noEmptyEntry_startNewStateExecution
        (fun _ _ h => by cases h) _) _
  · cases hp

/-- "S1"'s execute call returns a force complete. -/
def forceCompleteRequest : CompleteExecuteExecutionRequest :=
  ⟨.minted 0, "S1", 1, ⟨.skipped, .running, 1, exampleStateInfo, none, {}⟩,
    ⟨[], some .forceCompleteProcess⟩, [], 0⟩

/-- "S1"'s execute call returns a graceful complete. -/
def gracefulCompleteRequest : CompleteExecuteExecutionRequest :=
  ⟨.minted 0, "S1", 1, ⟨.skipped, .running, 1, exampleStateInfo, none, {}⟩,
    ⟨[], some .gracefulCompleteProcess⟩, [], 0⟩

/-- "S2"'s wait-until call returns no command. -/
def emptyWaitRequest : ProcessWaitUntilExecutionRequest :=
  ⟨.minted 0, "S2", 1, ⟨.running, .undefined, 1, exampleStateInfo, none, {}⟩,
    ⟨some .emptyCommand, [], []⟩, [], 0⟩

/-- "S2"'s execute call returns no decision. -/
def lastCompleteRequest : CompleteExecuteExecutionRequest :=
  ⟨.minted 0, "S2", 1, ⟨.completed, .running, 2, exampleStateInfo, none, {}⟩, ⟨[], none⟩, [], 0⟩

/-! ### Closed and gracefully completing processes -/

/-- A process that left `Running` has an empty pending-execution map and keeps its status:
    every reachable state keeps the invariant, and so does every start, completion and
    wait-until result on any store that keeps it, whatever its request. -/
theorem closed_process_empty_pending_and_final :
    (∀ {cfg : ProcessorConfig} {e : Engine}, Reachable cfg e → ProcessRowsInv e.store) ∧
    ∀ {s s' : Store}, ProcessRowsInv s → ProcessRowTx s s' → ProcessRowsInv s' ∧
      (∀ id p, s'.processExecutions id = some p → p.status ≠ .running →
        p.stateExecutionSequenceMaps.isPendingEmpty = true) ∧
      ∀ id p, s.processExecutions id = some p → p.status ≠ .running →
        ∃ p', s'.processExecutions id = some p' ∧ p'.status = p.status :=
  ⟨reachable_processRowsInv, fun hi h =>
    have h' := h.processRows hi
    ⟨h'.1, fun id p hp => (h'.1 id p hp).closed_isPendingEmpty,
      fun id p hp hc => (h'.2 id p hp).imp fun _ hp' => ⟨hp'.1, hp'.2.1 hc⟩⟩⟩

/-- "S1"'s force complete closes the process with "S2" still pending, and empties the map. -/
theorem force_close_empties_pending_map :
    ProcessRowsInv twoStateStore ∧
      ((completeExecuteExecution twoStateStore forceCompleteRequest).2.processExecutions
        (.minted 0)).map (fun p => p.status) = some .completed ∧
      ∀ id p, (completeExecuteExecution twoStateStore forceCompleteRequest).2.processExecutions
        id = some p → p.status ≠ .running → p.stateExecutionSequenceMaps.isPendingEmpty = true :=
  ⟨processRowsInv_twoStateStore, rfl,
    (closed_process_empty_pending_and_final.2 processRowsInv_twoStateStore
      (.completeExecute forceCompleteRequest)).2.1⟩

/-- A running process with `WaitToComplete` set has a pending pair and keeps the flag: every
    reachable state keeps the invariant, and so does every start, completion and wait-until
    result on any store that keeps it. The completion whose finishing pair was the last
    pending one, under the flag or a graceful close, commits the process as completed. -/
theorem graceful_process_pending_and_flag_kept :
    (∀ {cfg : ProcessorConfig} {e : Engine}, Reachable cfg e → ProcessRowsInv e.store) ∧
    (∀ {s s' : Store}, ProcessRowsInv s → ProcessRowTx s s' →
      (∀ id p, s'.processExecutions id = some p → p.status = .running →
        p.waitToComplete = true →
          ∃ stateId seq, p.stateExecutionSequenceMaps.IsPending stateId seq) ∧
      ∀ id p, s.processExecutions id = some p → p.waitToComplete = true →
        ∃ p', s'.processExecutions id = some p' ∧ p'.waitToComplete = true) ∧
    ∀ (s : Store) (request : CompleteExecuteExecutionRequest) (b : Bool),
      (completeExecuteExecution s request).1 = .ok b →
      ∃ p m, s.processExecutions request.processExecutionId = some p ∧
        p.stateExecutionSequenceMaps.completeNewStateExecution request.stateId
          request.stateIdSequence = some m ∧
        ((p.waitToComplete = true ∨
            request.stateDecision.threadCloseDecision = some .gracefulCompleteProcess) →
          (startNextStatesMaps request.stateDecision.nextStates m).isPendingEmpty = true →
          ∃ p', (completeExecuteExecution s request).2.processExecutions
              request.processExecutionId = some p' ∧
            p'.status = .completed ∧ p'.waitToComplete = true) :=
  ⟨reachable_processRowsInv, fun hi h =>
    have h' := h.processRows hi
    ⟨fun id p hp hs hw => (hs ▸ h'.1 id p hp).isPending_of_graceful hw,
      fun id p hp hw => (h'.2 id p hp).imp fun _ hp' => ⟨hp'.1, hp'.2.2 hw⟩⟩,
    fun _ _ _ => completeExecuteExecution_completes⟩

/-- "S1"'s graceful complete leaves the process running with the flag set and "S2" pending;
    once "S2" has run its wait-until phase, its completion commits the process as
    completed. -/
theorem graceful_close_completes_with_last_sibling :
    ((completeExecuteExecution twoStateStore gracefulCompleteRequest).2.processExecutions
        (.minted 0)).map (fun p => (p.status, p.waitToComplete)) = some (.running, true) ∧
      (∀ id p, (completeExecuteExecution twoStateStore gracefulCompleteRequest).2.processExecutions
        id = some p → p.status = .running → p.waitToComplete = true →
          ∃ stateId seq, p.stateExecutionSequenceMaps.IsPending stateId seq) ∧
      (completeExecuteExecution (processWaitUntilExecution (completeExecuteExecution twoStateStore
        gracefulCompleteRequest).2 emptyWaitRequest).2 lastCompleteRequest).1 = .ok false ∧
      ((completeExecuteExecution (processWaitUntilExecution (completeExecuteExecution
        twoStateStore gracefulCompleteRequest).2 emptyWaitRequest).2
          lastCompleteRequest).2.processExecutions (.minted 0)).map
        (fun p => (p.status, p.waitToComplete)) = some (.completed, true) :=
  ⟨rfl, (graceful_process_pending_and_flag_kept.2.1 processRowsInv_twoStateStore
    (.completeExecute gracefulCompleteRequest)).1, rfl, rfl⟩

end Xdb
