import Xdb.Theory.StateRows

/-!
# Where a State's Config Goes

A state's config reaches its row only through the row's info blob, and the processor reads
it from there twice: `createContextWithTimeout` for the call's timeout, and `checkRetry` for
the retry policy after a failure. No transaction ever puts a config into the blob.
`StartProcess` writes the start state's info with no config, whatever `StartStateConfig`
says; `CompleteExecuteExecution` copies the current state's snapshot info into every next
state, and `NextState.StateConfig` decides only whether the wait-until phase is skipped; every
other transaction keeps the info of the rows it writes. So in every reachable state no row
and no worker's snapshot carries a config (`reachable_configInv`).

Two consequences follow for every call. Its timeout is the configured default, unclamped,
whatever the state was created with (`worker_calls_ignore_created_state_config`). A failure
of it makes `checkRetry` dereference the missing config: the worker goroutine panics and the
server goes down (`failed_calls_panic_in_checkRetry`). The other panic of
`processImmediateTask`, the invalid task type of `createContextWithTimeout`, is never
reached: a local-queue task is handed to `ProcessLocalQueueMessage` before it.

## Main definitions

* `NoConfig`: No state row's info carries a config.
* `WorkerState.snapshot?`: The snapshot a worker's call was prepared from.
* `ConfigInv`: The engine invariant of the info blobs.

## Theorems

* `startNextStates_noConfig`: The next-state loop copies a config-free info.
* `transition_noConfig`: Every transaction keeps `NoConfig`.
* `reachable_configInv`: Every reachable state keeps `ConfigInv`.
* `beginProcessImmediateTask_isSome`: `processImmediateTask` never panics before the call.
* `worker_calls_ignore_created_state_config`: Every call uses the default timeout, and every
  failure reaches `checkRetry` with no config.
* `failed_calls_panic_in_checkRetry`: Every failed call of a reachable state panics.
-/

namespace Xdb

/-- No state row's info carries a state config. -/
def NoConfig (s : Store) : Prop :=
  ∀ k r, s.asyncStateExecutions k = some r → r.info.stateConfig = none

@[simp] theorem AsyncStateExecutionRow.written_info (r : AsyncStateExecutionRow) (w : StatusWrite)
    (f : Option StateExecutionFailureJson) : (r.written w f).info = r.info := rfl

@[simp] theorem Store.abortRunning_info (r : AsyncStateExecutionRow) :
    (Store.abortRunning r).info = r.info := rfl

section

variable {s s' : Store}

theorem NoConfig.of_eq (h : NoConfig s) (he : s'.asyncStateExecutions = s.asyncStateExecutions) :
    NoConfig s' :=
  fun k r hr => h k r (he ▸ hr)

theorem NoConfig.set (h : NoConfig s) {k : AsyncStateExecutionKey} {r : AsyncStateExecutionRow}
    (hr : r.info.stateConfig = none) : NoConfig (s.setAsyncStateExecution k r) := by
  intro k' r' hr'
  by_cases hk : k' = k
  · simp only [hk, Store.setAsyncStateExecution_asyncStateExecutions, ite_true,
      Option.some.injEq] at hr'
    exact hr' ▸ hr
  · simp only [Store.setAsyncStateExecution_asyncStateExecutions, hk, ite_false] at hr'
    exact h k' r' hr'

/-- A version-gated write keeps the info of the row it writes. -/
theorem NoConfig.conditionalUpdate (h : NoConfig s) {k : AsyncStateExecutionKey} {v : Nat}
    {w : StatusWrite} {f : Option StateExecutionFailureJson}
    (hu : s.conditionalUpdate k v w f = .ok s') : NoConfig s' := by
  obtain ⟨r, hr, -, rfl⟩ := Store.conditionalUpdate_eq_ok hu
  exact h.set (h k r hr)

/-- The next-state loop inserts rows with the info it is given. -/
theorem startNextStates_noConfig {pid : Uuid} {info : AsyncStateExecutionInfoJson}
    {shardId : Nat} (hi : info.stateConfig = none) :
    ∀ {s s' : Store} {nexts : List StateMovement} {m m' : StateExecutionSequenceMaps},
      NoConfig s → startNextStates s pid info shardId nexts m = .ok (m', s') → NoConfig s'
  | _, _, [], _, _, h, hs => by
    cases hs
    exact h
  | _, _, next :: rest, _, _, h, hs => by
    simp only [startNextStates, bind_eq_ok] at hs
    obtain ⟨s₁, h₁, s₂, h₂, hs⟩ := hs
    obtain ⟨-, rfl⟩ := insertAsyncStateExecution_eq_ok h₁
    rw [insertImmediateTask_eq] at h₂
    cases h₂
    refine startNextStates_noConfig hi ?_ hs
    exact (h.set hi).of_eq rfl

theorem startProcess_noConfig (h : NoConfig s) (request : ProcessExecutionStartRequest)
    (now : Int) : NoConfig (startProcess s request now).2 := by
  rcases startProcess_snd s request now with he | ⟨id, hs⟩
  · rw [he]
    exact h
  obtain ⟨-, s₁, s₂, h₁, h₂, h₃⟩ := doStartProcessTx_eq_started hs
  obtain ⟨-, rfl⟩ := Store.insertLatestProcessExecution_eq_ok h₁
  rw [(Store.insertProcessExecution_eq_ok h₃).2]
  refine NoConfig.of_eq (s := s₂) ?_ rfl
  rcases insertStartState_eq_ok h₂ with ⟨-, rfl⟩ | ⟨sid, -, -, rfl⟩
  · exact h.of_eq rfl
  · exact (h.of_eq rfl).set rfl

theorem processWaitUntilExecution_noConfig (h : NoConfig s)
    (request : ProcessWaitUntilExecutionRequest) :
    NoConfig (processWaitUntilExecution s request).2 := by
  unfold processWaitUntilExecution commitOrRollback
  split
  · rename_i hs
    obtain ⟨r, hr, -, he⟩ := doProcessWaitUntilExecutionTx_asyncStateExecutions hs
    refine NoConfig.of_eq ?_ he
    exact h.set (h _ r hr)
  · exact h

/-- A committed completion writes its row, copies the snapshot's info into the next states,
    and aborts rows in place. -/
theorem completeExecuteExecution_noConfig (h : NoConfig s)
    {request : CompleteExecuteExecutionRequest} (hi : request.prepare.info.stateConfig = none) :
    NoConfig (completeExecuteExecution s request).2 := by
  unfold completeExecuteExecution commitOrRollback
  split
  · rename_i hs
    obtain ⟨p, s₁, m, m', s₂, -, h₁, -, h₂, h₃⟩ := doCompleteExecuteExecutionTx_eq_ok hs
    have h₂' := startNextStates_noConfig hi (h.conditionalUpdate h₁) h₂
    intro k r hr
    rw [publishToLocalQueue_asyncStateExecutions h₃,
      ProcessClose.write_asyncStateExecutions] at hr
    split at hr
    · obtain ⟨r₀, hr₀, rfl⟩ := Option.map_eq_some'.1 hr
      exact h₂' k r₀ hr₀
    · exact h₂' k r hr
  · exact h

theorem backoffImmediateTask_noConfig (h : NoConfig s) (request : BackoffImmediateTaskRequest) :
    NoConfig (backoffImmediateTask s request).2 := by
  unfold backoffImmediateTask
  split
  · rename_i hs
    obtain ⟨r, hr, -, he⟩ := doBackoffImmediateTaskTx_asyncStateExecutions hs
    refine NoConfig.of_eq ?_ he
    exact h.set (h _ r hr)
  · exact h

end

/-- The snapshot a worker's call was prepared from. -/
def WorkerState.snapshot? : WorkerState → Option PrepareStateExecutionResponse
  | .waitUntilCall _ _ prep => some prep
  | .executeCall _ _ prep => some prep
  | _ => none

/-- The engine invariant of the info blobs: no row and no worker's snapshot carries a
    config. -/
structure ConfigInv (e : Engine) : Prop where
  rows : NoConfig e.store
  snapshots : ∀ w ∈ e.workers, ∀ prep ∈ w.snapshot?, prep.info.stateConfig = none

theorem ConfigInv.of_get? {e : Engine} (hi : ConfigInv e) {i : Nat}
    {task current : ImmediateTaskRow} {prep : PrepareStateExecutionResponse}
    (h : e.workers.get? i = some (.waitUntilCall task current prep) ∨
      e.workers.get? i = some (.executeCall task current prep)) :
    prep.info.stateConfig = none := by
  rcases h with h | h <;> exact hi.snapshots _ (List.get?_mem h) prep rfl

/-- A snapshot carries the info of the row it was read from. -/
theorem prepareStateExecution_info {s : Store} {k : AsyncStateExecutionKey}
    {prep : PrepareStateExecutionResponse} (h : prepareStateExecution s k = .ok prep) :
    ∃ r, s.asyncStateExecutions k = some r ∧ prep.info = r.info := by
  simp only [prepareStateExecution, bind_eq_ok, Store.selectAsyncStateExecution] at h
  obtain ⟨r, hr, h⟩ := h
  split at hr <;> cases hr
  cases h
  exact ⟨r, ‹_›, rfl⟩

/-- Every transaction keeps `NoConfig`. -/
theorem transition_noConfig {e : Engine} {s' : Store} (hi : ConfigInv e)
    (h : Transition e s') : NoConfig s' := by
  cases h with
  | stay => exact hi.rows
  | startProcess request => exact startProcess_noConfig hi.rows request e.now
  | fireTimer => exact hi.rows.of_eq rfl
  | waitUntil resp _ => exact processWaitUntilExecution_noConfig hi.rows _
  | execute resp hw _ => exact completeExecuteExecution_noConfig hi.rows (hi.of_get? (.inr hw))
  | backoff request _ _ _ => exact backoffImmediateTask_noConfig hi.rows request
  | delete => exact hi.rows.of_eq rfl

theorem step_configInv {cfg : ProcessorConfig} {e e' : Engine} {a : Action} (hi : ConfigInv e)
    (h : step cfg e a = some e') : ConfigInv e' := by
  refine ⟨transition_noConfig hi (step_transition h), fun w hw prep hp => ?_⟩
  cases hc : w.isCall
  · cases w <;> simp_all [WorkerState.snapshot?, WorkerState.isCall]
  · rcases step_worker_call h hw hc with hw' | ⟨-, task, dbUp, hb⟩
    · exact hi.snapshots w hw' prep hp
    · obtain ⟨-, prep', hp', ⟨rfl, -⟩ | ⟨rfl, -⟩⟩ := beginProcessImmediateTask_call hb hc <;>
        cases hp <;>
        obtain ⟨r, hr, he⟩ := prepareStateExecution_info hp' <;>
        exact he ▸ hi.rows _ r hr

theorem reachable_configInv {cfg : ProcessorConfig} {e : Engine} (hr : Reachable cfg e) :
    ConfigInv e := by
  induction hr with
  | init =>
    refine ⟨fun _ _ h => (by cases h), fun w hw prep hp => ?_⟩
    simp only [Engine.init, List.mem_replicate] at hw
    rw [hw.2] at hp
    cases hp
  | step _ _ hs ih => exact step_configInv ih hs

/-- `createContextWithTimeout` panics only for a local-queue task. -/
theorem createContextWithTimeout_isSome (cfg : ProcessorConfig) {taskType : ImmediateTaskType}
    (h : taskType ≠ .newLocalQueueMessage) (c : Option AsyncStateConfig) :
    (createContextWithTimeout cfg taskType c).isSome := by
  cases c <;> cases taskType <;> simp_all [createContextWithTimeout]

/-- `processImmediateTask` reaches the worker call or returns on every store and task: the
    invalid task type of `createContextWithTimeout` is only reachable for a local-queue task,
    which never gets there. -/
theorem beginProcessImmediateTask_isSome (cfg : ProcessorConfig) (s : Store) (now : Int)
    (task : ImmediateTaskRow) (dbUp : Bool) :
    (beginProcessImmediateTask cfg s now task dbUp).isSome := by
  unfold beginProcessImmediateTask
  split
  · rfl
  rename_i ht
  split
  · rfl
  split
  · rfl
  split
  · simpa using createContextWithTimeout_isSome cfg ht _
  split
  · simpa using createContextWithTimeout_isSome cfg ht _
  · rfl

/-- In every reachable state no state row carries a config, and every worker waiting on a
    wait-until or execute call was given the configured default timeout, whatever config its
    state was created with; a failure of the call reaches `checkRetry` with no config to read
    a retry policy from. -/
theorem worker_calls_ignore_created_state_config {cfg : ProcessorConfig} {e : Engine}
    (hr : Reachable cfg e) :
    (∀ k r, e.store.asyncStateExecutions k = some r → r.info.stateConfig = none) ∧
      ∀ i task current prep, (e.workers.get? i = some (.waitUntilCall task current prep) ∨
          e.workers.get? i = some (.executeCall task current prep)) →
        createContextWithTimeout cfg task.taskType prep.info.stateConfig =
            some cfg.defaultAsyncStateAPITimeout ∧
          checkRetry current prep.info e.now = none := by
  have hi := reachable_configInv hr
  refine ⟨hi.rows, fun i task current prep hw => ?_⟩
  have hc := hi.of_get? hw
  simp [createContextWithTimeout, checkRetry, hc]

/-- Start process "p" at state "S" with a wait-until timeout of 5 seconds, poll its task, and
    hand it to worker 0. -/
def configuredStartRun : List Action :=
  [.startProcess ⟨"ns", "p", "t", "u", some "S", none,
      some { waitUntilApiTimeoutSeconds := some 5 }, none⟩,
    .poll ⟨0, 0, .minted 0, "S", 1, .waitUntil, {}⟩, .take 0 .buffer true]

theorem configured_wait_until_timeout_ignored :
    ∃ e task current prep,
      run exampleConfig (Engine.init exampleConfig 0) configuredStartRun = some e ∧
      e.workers.get? 0 = some (.waitUntilCall task current prep) ∧
      createContextWithTimeout exampleConfig .waitUntil
        (some { waitUntilApiTimeoutSeconds := some 5 }) = some 5 ∧
      createContextWithTimeout exampleConfig task.taskType prep.info.stateConfig = some 10 :=
  ⟨_, _, _, _, rfl, rfl, rfl, ((worker_calls_ignore_created_state_config
    (@reachable_of_run exampleConfig _ _ (.init 0) configuredStartRun rfl)).2 0 _ _ _
      (.inl rfl)).1⟩

/-- From every reachable state, a wait-until or execute call that fails, and an execute
    result whose decision `checkDecision` rejects, panic in `checkRetry`: the step is the
    restart of the server. Nothing before the call panics, on any store. -/
theorem failed_calls_panic_in_checkRetry {cfg : ProcessorConfig} {e : Engine}
    (hr : Reachable cfg e) :
    (∀ s now task dbUp, (beginProcessImmediateTask cfg s now task dbUp).isSome) ∧
      ∀ i task current prep,
        (e.workers.get? i = some (.waitUntilCall task current prep) →
          ∀ f, step cfg e (.waitUntilReturned i (.error f)) = some e.restart) ∧
        (e.workers.get? i = some (.executeCall task current prep) →
          (∀ f, step cfg e (.executeReturned i (.error f)) = some e.restart) ∧
          ∀ resp, checkDecision resp.stateDecision = false →
            step cfg e (.executeReturned i (.ok resp)) = some e.restart) := by
  have hi := reachable_configInv hr
  have hf : ∀ i task current prep f, prep.info.stateConfig = none →
      onWorkerFailure cfg e i task current prep f = none := fun _ _ _ _ _ hc => by
    simp [onWorkerFailure, checkRetry, hc]
  refine ⟨beginProcessImmediateTask_isSome cfg, fun i task current prep => ⟨fun hw f => ?_,
    fun hw => ?_⟩⟩
  · have hn := hf i task current prep f (hi.of_get? (.inl hw))
    rw [List.get?_eq_getElem?] at hw
    simp [step, hw, hn]
  · have hn := fun f => hf i task current prep f (hi.of_get? (.inr hw))
    rw [List.get?_eq_getElem?] at hw
    exact ⟨fun f => by simp [step, hw, hn], fun resp hd => by simp [step, hw, hd, hn]⟩

theorem failed_first_wait_until_call_panics :
    ∃ e, run exampleConfig (Engine.init exampleConfig 0) exampleStartRun = some e ∧
      e.workers.map WorkerState.isCall = [true, false] ∧
      step exampleConfig e (.waitUntilReturned 0 (.error ⟨"timeout", none⟩)) = some e.restart :=
  ⟨_, rfl, rfl, ((failed_calls_panic_in_checkRetry
    (@reachable_of_run exampleConfig _ _ (.init 0) exampleStartRun rfl)).2 0 _ _ _).1 rfl _⟩

end Xdb
