import Xdb.Engine.Processor

/-!
# What One Engine Step Does

Inversion lemmas over `step`, so that no invariant proof unfolds it again. The first,
`step_cases`, says two things, used apart.

`step_transition` says what a step does to the store: nothing, or one transaction, together
with what the engine held when it ran it. A wait-until or execute result is committed from
the snapshot of the worker that made the call, a decision only once `checkDecision`
passed, a backoff for the task that worker holds, and a delete only for a task sent on the
commit channel. A local-queue consumption leaves the store as it was
(`processLocalQueueMessage_snd`), so it is a `stay`.

`step_worker_call` says where a worker in a call comes from: it was in that call before the
step, or `beginProcessImmediateTask` just put it there, from the store the step leaves.

`step_memoryStep` says what a step does to the rest of the processor's memory: the clock only
moves forward, the pool keeps its size, and the buffer grows only by a send into a buffer
with room.

## Main definitions

* `Transition`: The store transactions of one step.
* `WorkerState.isCall`: A worker waits on a wait-until or execute call.
* `WorkersKept`: No worker is in a call it was not in before.
* `MemoryStep`: The clock, the pool's size and the buffer's length across a step.

## Theorems

* `step_cases`: What one step does to the store and to the workers.
* `step_transition`: Every step is a `Transition` of the store.
* `step_worker_call`: Every worker in a call after a step was in it before, or was just
  prepared.
* `step_memoryStep`: Every step keeps to `MemoryStep`.
* `reachable_of_run`: A run from a reachable state ends in a reachable state.
-/

namespace Xdb

/-- The store one engine step leaves, and what the engine held when it ran the transaction. -/
inductive Transition (e : Engine) : Store → Prop
  | stay : Transition e e.store
  | startProcess (request : ProcessExecutionStartRequest) :
      Transition e (startProcess e.store request e.now).2
  | fireTimer (t : TimerTaskRow) : t ∈ e.store.timerTasks →
      Transition e (convertTimerTaskToImmediateTask e.store t)
  | waitUntil {i : Nat} {task current : ImmediateTaskRow} {prep : PrepareStateExecutionResponse}
      (resp : AsyncStateWaitUntilResponse) :
      e.workers.get? i = some (.waitUntilCall task current prep) →
      Transition e (processWaitUntilExecution e.store (waitUntilRequest task prep resp)).2
  | execute {i : Nat} {task current : ImmediateTaskRow} {prep : PrepareStateExecutionResponse}
      (resp : AsyncStateExecuteResponse) :
      e.workers.get? i = some (.executeCall task current prep) →
      checkDecision resp.stateDecision = true →
      Transition e (completeExecuteExecution e.store (executeRequest task prep resp)).2
  | backoff {i : Nat} {task current : ImmediateTaskRow} {prep : PrepareStateExecutionResponse}
      (request : BackoffImmediateTaskRequest) :
      (e.workers.get? i = some (.waitUntilCall task current prep) ∨
        e.workers.get? i = some (.executeCall task current prep)) →
      request.prep = prep → request.task = current →
      Transition e (backoffImmediateTask e.store request).2
  | delete (t : ImmediateTaskRow) : t ∈ e.committed →
      Transition e (e.store.removeImmediateTask t.shardId t.taskSequence)

/-- The worker waits on a wait-until or execute call, holding a snapshot. -/
def WorkerState.isCall : WorkerState → Bool
  | .waitUntilCall .. => true
  | .executeCall .. => true
  | _ => false

@[simp] theorem Engine.setWorker_store (e : Engine) (i : Nat) (w : WorkerState) :
    (e.setWorker i w).store = e.store := rfl

@[simp] theorem Engine.restart_store (e : Engine) : e.restart.store = e.store := rfl

@[simp] theorem Engine.setWorker_now (e : Engine) (i : Nat) (w : WorkerState) :
    (e.setWorker i w).now = e.now := rfl

@[simp] theorem commitResult_store {α : Type} (cfg : ProcessorConfig) (e : Engine) (i : Nat)
    (task : ImmediateTaskRow) (r : Except TxError α × Store) :
    (commitResult cfg e i task r).store = r.2 := rfl

@[simp] theorem finishTask_isCall (cfg : ProcessorConfig) (task : ImmediateTaskRow) (ok : Bool) :
    (finishTask cfg task ok).isCall = false := by
  unfold finishTask
  split
  · split <;> rfl
  · rfl

theorem mem_setWorker {e : Engine} {i : Nat} {x w : WorkerState}
    (h : w ∈ (e.setWorker i x).workers) : w ∈ e.workers ∨ w = x :=
  List.mem_or_eq_of_mem_set h

/-- The workers after a step: in place, or moved to a state that holds no call. -/
def WorkersKept (e e' : Engine) : Prop :=
  ∀ w ∈ e'.workers, w.isCall = true → w ∈ e.workers

theorem workersKept_setWorker {e : Engine} {i : Nat} {x : WorkerState} (hx : x.isCall = false) :
    WorkersKept e (e.setWorker i x) := by
  intro w hw hc
  rcases mem_setWorker hw with hw | rfl
  · exact hw
  · rw [hx] at hc
    cases hc

theorem workersKept_restart (e : Engine) : WorkersKept e e.restart := by
  intro w hw hc
  simp only [Engine.restart, List.mem_map] at hw
  obtain ⟨_, -, rfl⟩ := hw
  cases hc

/-- Receiving a task leaves the store and the clock alone and puts no worker into a call. -/
theorem receive_spec {cfg : ProcessorConfig} {e e' : Engine} {src : Source}
    {t : ImmediateTaskRow} (h : receive cfg e src = some (t, e')) :
    e'.store = e.store ∧ e'.now = e.now ∧ WorkersKept e e' := by
  unfold receive at h
  split at h
  · split at h <;> cases h
    exact ⟨rfl, rfl, fun _ hw _ => hw⟩
  · split at h <;> cases h
    exact ⟨rfl, rfl, workersKept_setWorker rfl⟩
  · split at h <;> cases h
    exact ⟨rfl, rfl, fun _ hw _ => hw⟩

/-- A worker's failed call: the store backed off or untouched, and no worker left in a call
    it was not in. -/
theorem onWorkerFailure_getD_spec {cfg : ProcessorConfig} {e e' : Engine} {i : Nat}
    {task current : ImmediateTaskRow} {prep : PrepareStateExecutionResponse} {f : WorkerFailure}
    (hi : e.workers.get? i = some (.waitUntilCall task current prep) ∨
      e.workers.get? i = some (.executeCall task current prep))
    (h : some ((onWorkerFailure cfg e i task current prep f).getD e.restart) = some e') :
    Transition e e'.store ∧ WorkersKept e e' := by
  cases hf : onWorkerFailure cfg e i task current prep f with
  | none =>
    simp only [hf, Option.getD_none, Option.some.injEq] at h
    subst h
    exact ⟨.stay, workersKept_restart e⟩
  | some e₁ =>
    simp only [hf, Option.getD_some, Option.some.injEq] at h
    subst h
    simp only [onWorkerFailure, Option.map_eq_some'] at hf
    obtain ⟨⟨interval, shouldRetry⟩, -, rfl⟩ := hf
    split
    · split
      · rename_i s' hb
        refine ⟨?_, workersKept_setWorker (e := { e with store := _ }) (finishTask_isCall ..)⟩
        simp only [Engine.setWorker_store]
        rw [show s' = (backoffImmediateTask e.store _).2 by rw [hb]]
        exact .backoff _ hi rfl rfl
      · exact ⟨.stay, workersKept_setWorker (finishTask_isCall ..)⟩
    · exact ⟨.stay, workersKept_setWorker (finishTask_isCall ..)⟩

/-- What `beginProcessImmediateTask` puts a worker into when it is a call: the snapshot is
    the row as `PrepareStateExecution` read it, and the phase it calls is running. -/
theorem beginProcessImmediateTask_call {cfg : ProcessorConfig} {s : Store} {now : Int}
    {task : ImmediateTaskRow} {dbUp : Bool} {w : WorkerState}
    (h : beginProcessImmediateTask cfg s now task dbUp = some w) (hc : w.isCall = true) :
    task.taskType ≠ .newLocalQueueMessage ∧ ∃ prep, prepareStateExecution s task.key = .ok prep ∧
      (w = .waitUntilCall task (withAttempt task now) prep ∧ prep.waitUntilStatus = .running ∨
        w = .executeCall task (withAttempt task now) prep ∧ prep.waitUntilStatus ≠ .running ∧
          prep.executeStatus = .running) := by
  unfold beginProcessImmediateTask at h
  split at h
  · cases h
    cases hc
  refine ⟨‹_›, ?_⟩
  split at h
  · cases h
    cases hc
  split at h
  · cases h
    cases hc
  rename_i prep hp
  refine ⟨prep, hp, ?_⟩
  split at h
  · obtain ⟨_, -, rfl⟩ := Option.map_eq_some'.1 h
    exact .inl ⟨rfl, ‹_›⟩
  split at h
  · obtain ⟨_, -, rfl⟩ := Option.map_eq_some'.1 h
    exact .inr ⟨rfl, ‹_›, ‹_›⟩
  · cases h
    cases hc

/-- What one step does: a `Transition` of the store, and either every worker in a call was in
    it before, or the step left the store alone and `beginProcessImmediateTask` just put the
    worker there. -/
theorem step_cases {cfg : ProcessorConfig} {e e' : Engine} {a : Action}
    (h : step cfg e a = some e') :
    Transition e e'.store ∧ (WorkersKept e e' ∨ e'.store = e.store ∧
      ∀ w ∈ e'.workers, w.isCall = true → w ∈ e.workers ∨
        ∃ task dbUp, beginProcessImmediateTask cfg e.store e.now task dbUp = some w) := by
  cases a with
  | startProcess request =>
    cases h
    exact ⟨.startProcess request, .inl fun _ hw _ => hw⟩
  | poll t =>
    simp only [step] at h
    split at h <;> cases h
    exact ⟨.stay, .inl fun _ hw _ => hw⟩
  | fireTimer t =>
    simp only [step] at h
    split at h <;> cases h
    exact ⟨.fireTimer t ‹_ ∧ _›.1, .inl fun _ hw _ => hw⟩
  | take j src dbUp =>
    simp only [step] at h
    split at h
    · obtain ⟨⟨t, e''⟩, hr, h⟩ := Option.bind_eq_some.1 h
      obtain ⟨hs, hn, hk⟩ := receive_spec hr
      have ht : Transition e e''.store := hs ▸ .stay
      simp only at h
      split at h
      -- the task goes to worker `j`, or its preparation fails and the engine restarts
      · split at h <;> cases h
        · refine ⟨ht, .inr ⟨hs, fun w hw hc => ?_⟩⟩
          rcases mem_setWorker hw with hw | rfl
          · exact .inl (hk w hw hc)
          · exact .inr ⟨t, dbUp, by rwa [hs, hn] at *⟩
        · exact ⟨ht, .inl fun w hw hc => hk w (workersKept_restart _ w hw hc) hc⟩
      -- a task of a shard the processor does not own is dropped
      · cases h
        exact ⟨ht, .inl hk⟩
    · cases h
  | waitUntilReturned i r =>
    simp only [step] at h
    split at h
    · rename_i task current prep hi
      split at h
      · exact (onWorkerFailure_getD_spec (.inl hi) h).imp_right .inl
      · cases h
        exact ⟨.waitUntil _ hi, .inl (workersKept_setWorker (finishTask_isCall ..))⟩
    · cases h
  | executeReturned i r =>
    simp only [step] at h
    split at h
    · rename_i task current prep hi
      split at h
      · exact (onWorkerFailure_getD_spec (.inr hi) h).imp_right .inl
      · split at h
        · cases h
          exact ⟨.execute _ hi ‹_›, .inl (workersKept_setWorker (finishTask_isCall ..))⟩
        · exact (onWorkerFailure_getD_spec (.inr hi) h).imp_right .inl
    · cases h
  | localQueueReturned i =>
    simp only [step] at h
    split at h
    · split at h <;> cases h
      · refine ⟨?_, .inl (workersKept_setWorker (finishTask_isCall ..))⟩
        simp only [commitResult_store, processLocalQueueMessage_snd]
        exact .stay
      · exact ⟨.stay, .inl (workersKept_restart e)⟩
    · cases h
  | dbFailure i =>
    simp only [step] at h
    split at h <;> cases h <;> exact ⟨.stay, .inl (workersKept_setWorker (finishTask_isCall ..))⟩
  | send i =>
    simp only [step] at h
    split at h
    · split at h <;> cases h
      exact ⟨.stay, .inl (workersKept_setWorker (x := .idle) rfl)⟩
    · cases h
  | commit i =>
    simp only [step] at h
    split at h <;> cases h
    exact ⟨.stay, .inl (workersKept_setWorker (x := .idle) rfl)⟩
  | delete t =>
    simp only [step] at h
    split at h <;> cases h
    exact ⟨.delete t ‹_›, .inl fun _ hw _ => hw⟩
  | tick =>
    cases h
    exact ⟨.stay, .inl fun _ hw _ => hw⟩
  | restart =>
    cases h
    exact ⟨.stay, .inl (workersKept_restart e)⟩

/-- Every step leaves the store as it was or runs one `Transition`. -/
theorem step_transition {cfg : ProcessorConfig} {e e' : Engine} {a : Action}
    (h : step cfg e a = some e') : Transition e e'.store :=
  (step_cases h).1

/-- Every worker in a call after a step was in it before, or was just prepared by
    `beginProcessImmediateTask` in a step that left the store alone. -/
theorem step_worker_call {cfg : ProcessorConfig} {e e' : Engine} {a : Action}
    (h : step cfg e a = some e') {w : WorkerState} (hw : w ∈ e'.workers) (hc : w.isCall = true) :
    w ∈ e.workers ∨ e'.store = e.store ∧
      ∃ task dbUp, beginProcessImmediateTask cfg e.store e.now task dbUp = some w := by
  rcases (step_cases h).2 with hk | ⟨hs, hk⟩
  · exact .inl (hk w hw hc)
  · exact (hk w hw hc).imp_right fun hb => ⟨hs, hb⟩

/-! ### The processor's memory -/

/-- What a step may do to the processor's memory: the clock does not go back, the pool keeps
    its size, and the buffer grows only by a send within its capacity. -/
structure MemoryStep (cfg : ProcessorConfig) (e e' : Engine) : Prop where
  now : e.now ≤ e'.now
  workers : e'.workers.length = e.workers.length
  buffer : e'.taskToProcessChan.length ≤ e.taskToProcessChan.length ∨
    e'.taskToProcessChan.length ≤ cfg.processorBufferSize

namespace MemoryStep

variable {cfg : ProcessorConfig}

theorem trans {e₁ e₂ e₃ : Engine} (h₁ : MemoryStep cfg e₁ e₂) (h₂ : MemoryStep cfg e₂ e₃) :
    MemoryStep cfg e₁ e₃ :=
  ⟨h₁.now.trans h₂.now, h₂.workers.trans h₁.workers, by have := h₁.buffer; have := h₂.buffer; omega⟩

theorem of_store (e : Engine) (s : Store) : MemoryStep cfg e { e with store := s } :=
  ⟨le_rfl, rfl, .inl le_rfl⟩

theorem setWorker (e : Engine) (i : Nat) (w : WorkerState) : MemoryStep cfg e (e.setWorker i w) :=
  ⟨le_rfl, List.length_set .., .inl le_rfl⟩

theorem restart (e : Engine) : MemoryStep cfg e e.restart :=
  ⟨le_rfl, List.length_map .., .inl (Nat.zero_le _)⟩

/-- A task sent into a buffer that had room. -/
theorem send (e : Engine) (t : ImmediateTaskRow)
    (h : e.taskToProcessChan.length < cfg.processorBufferSize) :
    MemoryStep cfg e { e with taskToProcessChan := e.taskToProcessChan ++ [t] } :=
  ⟨le_rfl, rfl, .inr (by rw [List.length_append, List.length_singleton]; omega)⟩

theorem commitResult {α : Type} (e : Engine) (i : Nat) (task : ImmediateTaskRow)
    (r : Except TxError α × Store) : MemoryStep cfg e (Xdb.commitResult cfg e i task r) :=
  (of_store e r.2).trans (setWorker _ i _)

end MemoryStep

theorem receive_memoryStep {cfg : ProcessorConfig} {e e₁ : Engine} {src : Source}
    {t : ImmediateTaskRow} (h : receive cfg e src = some (t, e₁)) : MemoryStep cfg e e₁ := by
  unfold receive at h
  split at h
  · split at h <;> cases h
    exact ⟨le_rfl, rfl, .inl (by simp_all)⟩
  · split at h <;> cases h
    exact .setWorker ..
  · split at h <;> cases h
    exact ⟨le_rfl, rfl, .inl le_rfl⟩

theorem onWorkerFailure_memoryStep (cfg : ProcessorConfig) (e : Engine) (i : Nat)
    (task current : ImmediateTaskRow) (prep : PrepareStateExecutionResponse) (f : WorkerFailure) :
    MemoryStep cfg e ((onWorkerFailure cfg e i task current prep f).getD e.restart) := by
  cases hf : onWorkerFailure cfg e i task current prep f with
  | none => exact .restart e
  | some e₁ =>
    simp only [onWorkerFailure, Option.map_eq_some'] at hf
    obtain ⟨_, -, rfl⟩ := hf
    split
    · split
      · exact (MemoryStep.of_store _ _).trans (.setWorker ..)
      · exact .setWorker ..
    · exact .setWorker ..

/-- Every step keeps to `MemoryStep`. -/
theorem step_memoryStep {cfg : ProcessorConfig} {e e' : Engine} {a : Action}
    (h : step cfg e a = some e') : MemoryStep cfg e e' := by
  cases a with
  | take j src dbUp =>
    -- a receive, then the worker's new state or a restart
    simp only [step] at h
    split at h
    · obtain ⟨⟨t, e₁⟩, hr, h⟩ := Option.bind_eq_some.1 h
      have h₁ := receive_memoryStep hr
      simp only at h
      split at h
      · split at h <;> cases h
        · exact h₁.trans (.setWorker ..)
        · exact h₁.trans (.restart _)
      · cases h
        exact h₁
    · cases h
  | poll t =>
    -- the poller sends into a buffer with room
    simp only [step] at h
    split at h <;> cases h
    rename_i hcond
    exact .send _ _ hcond.2.2
  | send i =>
    -- a put-back frees its worker and sends into a buffer with room
    simp only [step] at h
    split at h
    · split at h <;> cases h
      exact (MemoryStep.setWorker ..).trans (.send _ _ ‹_›)
    · cases h
  | tick =>
    -- the clock advances by one second
    cases h
    exact ⟨Int.le_add_one le_rfl, rfl, .inl le_rfl⟩
  | commit i =>
    -- a worker hands its finished task to the commit channel
    simp only [step] at h
    split at h <;> cases h
    exact (MemoryStep.setWorker ..).trans ⟨le_rfl, rfl, .inl le_rfl⟩
  | _ =>
    -- the rest move the store, a worker, or the commit channel, or restart
    simp only [step] at h
    repeat' split at h
    all_goals cases h <;> first
      | exact .of_store ..
      | exact .setWorker ..
      | exact .restart _
      | exact .commitResult ..
      | exact onWorkerFailure_memoryStep ..
      | exact ⟨le_rfl, rfl, .inl le_rfl⟩

/-- A run from a reachable state ends in a reachable state. -/
theorem reachable_of_run {cfg : ProcessorConfig} {e e' : Engine} (hr : Reachable cfg e) :
    ∀ {as : List Action}, run cfg e as = some e' → Reachable cfg e'
  | [], h => by cases h; exact hr
  | a :: as, h => by
    simp only [run, Option.bind_eq_some] at h
    obtain ⟨e₁, h₁, h⟩ := h
    exact reachable_of_run (hr.step a h₁) h

/-- A processor with two workers, a buffer of two, and shard 0. -/
def exampleConfig : ProcessorConfig := ⟨2, 2, [0], 10, 60, 100⟩

/-- Start process "p" at state "S", poll its wait-until task, and hand it to worker 0. -/
def exampleStartRun : List Action :=
  [.startProcess ⟨"ns", "p", "t", "u", some "S", none, none, none⟩,
    .poll ⟨0, 0, .minted 0, "S", 1, .waitUntil, {}⟩, .take 0 .buffer true]

/-- A wait-until result that waits for any of one timer. -/
def exampleTimerWait : AsyncStateWaitUntilResponse := ⟨⟨some .anyOfCompletion, [⟨5⟩], []⟩, []⟩

end Xdb
