import Xdb.Theory.ProcessRows

/-!
# One Start per Process Id

`StartProcess` claims `(namespace, processId)` by inserting the latest-process pointer, whose
primary key is that pair: a second insert fails with a duplicate key, and the call answers
`alreadyStarted`. The deferred closure rolls back on `alreadyStarted` and on every error, so
such a call leaves the store as it was; a call that commits adds the pointer, the process
row, and with a start state its row and first task, and nothing else (`StartAdds`). The
process row's pending map is empty: the sequence blob names no pending pair.

No other transaction touches the pointers (`transition_latest`), so a pointer once inserted
stays, and along any run, from any state, no two starts for one pair commit
(`startsAlong_nodup`).

## Main definitions

* `StartAdds`: What a committed start adds to the store.
* `Action.committedStart`: The pair whose start an action commits.
* `startsAlong`: The pairs whose starts commit along a run.

## Theorems

* `transition_latest`: Only a start changes the latest-process pointers.
* `startProcess_startAdds`: A committed start adds exactly its rows.
* `startsAlong_nodup`: Along any run no pair is started twice.
* `start_process_atomic_and_unique`: The whole of it.
-/

namespace Xdb

/-! ### The pointers under every other transaction -/

section

variable {s s' : Store}

theorem conditionalUpdate_latest {k : AsyncStateExecutionKey} {v : Nat} {w : StatusWrite}
    {f : Option StateExecutionFailureJson} (h : s.conditionalUpdate k v w f = .ok s') :
    s'.latestProcessExecutions = s.latestProcessExecutions := by
  obtain ⟨_, -, -, rfl⟩ := Store.conditionalUpdate_eq_ok h
  rfl

theorem publishToLocalQueue_latest {pid : Uuid} {ms : List LocalQueueMessage}
    (h : publishToLocalQueue s pid ms = .ok s') :
    s'.latestProcessExecutions = s.latestProcessExecutions := by
  obtain ⟨_, _, -, rfl⟩ := publishToLocalQueue_eq_ok h
  rfl

theorem startNextStates_latest {pid : Uuid} {info : AsyncStateExecutionInfoJson}
    {shardId : Nat} :
    ∀ {s s' : Store} {nexts : List StateMovement} {m m' : StateExecutionSequenceMaps},
      startNextStates s pid info shardId nexts m = .ok (m', s') →
        s'.latestProcessExecutions = s.latestProcessExecutions
  | _, _, [], _, _, h => by cases h; rfl
  | _, _, next :: rest, _, _, h => by
    simp only [startNextStates, bind_eq_ok] at h
    obtain ⟨s₁, h₁, s₂, h₂, h⟩ := h
    obtain ⟨-, rfl⟩ := insertAsyncStateExecution_eq_ok h₁
    rw [insertImmediateTask_eq] at h₂
    cases h₂
    have h' := startNextStates_latest h
    exact h'

end

theorem processWaitUntilExecution_latest (s : Store) (request : ProcessWaitUntilExecutionRequest) :
    (processWaitUntilExecution s request).2.latestProcessExecutions =
      s.latestProcessExecutions := by
  unfold processWaitUntilExecution commitOrRollback
  split
  · obtain ⟨s₁, h₁, h₂⟩ := doProcessWaitUntilExecutionTx_eq_ok ‹_›
    rw [publishToLocalQueue_latest h₂, ← conditionalUpdate_latest h₁]
    split <;> rfl
  · rfl

theorem completeExecuteExecution_latest (s : Store) (request : CompleteExecuteExecutionRequest) :
    (completeExecuteExecution s request).2.latestProcessExecutions =
      s.latestProcessExecutions := by
  unfold completeExecuteExecution commitOrRollback
  split
  · obtain ⟨p, s₁, m, m', s₂, -, h₁, -, h₂, h₃⟩ := doCompleteExecuteExecutionTx_eq_ok ‹_›
    rw [publishToLocalQueue_latest h₃, ← conditionalUpdate_latest h₁, ← startNextStates_latest h₂,
      ProcessClose.write]
    split <;> rfl
  · rfl

theorem backoffImmediateTask_latest (s : Store) (request : BackoffImmediateTaskRequest) :
    (backoffImmediateTask s request).2.latestProcessExecutions = s.latestProcessExecutions := by
  unfold backoffImmediateTask
  split
  · obtain ⟨s₁, h₁, rfl⟩ := doBackoffImmediateTaskTx_eq_ok ‹_›
    have h' := conditionalUpdate_latest h₁
    exact h'
  · rfl

/-- Only a start changes the latest-process pointers. -/
theorem transition_latest {e : Engine} {s' : Store} (h : Transition e s') :
    s'.latestProcessExecutions = e.store.latestProcessExecutions ∨
      ∃ request, s' = (startProcess e.store request e.now).2 := by
  cases h with
  | stay | fireTimer | delete => exact .inl rfl
  | startProcess request => exact .inr ⟨request, rfl⟩
  | waitUntil => exact .inl (processWaitUntilExecution_latest _ _)
  | execute => exact .inl (completeExecuteExecution_latest _ _)
  | backoff => exact .inl (backoffImmediateTask_latest _ _)

/-! ### What one start does -/

/-- What a committed start for `request` adds to `s`, giving `s'`: the pointer of its pair
    where there was none, its running process row with nothing pending, and with a start
    state that state's row at sequence 1 and version 1 and its first task, whose type is
    `Execute` exactly when the row starts with the wait-until phase skipped. Nothing else
    changes. -/
structure StartAdds (s s' : Store) (request : ProcessExecutionStartRequest) (id : Uuid) :
    Prop where
  latest_none : s.latestProcessExecutions request.namespaceName request.processId = none
  latest : ∀ ns pid, s'.latestProcessExecutions ns pid =
    if ns = request.namespaceName ∧ pid = request.processId then some id
    else s.latestProcessExecutions ns pid
  process_none : s.processExecutions id = none
  process : ∃ p, (∀ i, s'.processExecutions i = if i = id then some p else s.processExecutions i) ∧
    p.namespaceName = request.namespaceName ∧ p.processId = request.processId ∧
    p.status = .running ∧ ∀ sid seq, ¬p.stateExecutionSequenceMaps.IsPending sid seq
  states : request.startStateId = none ∧ s'.asyncStateExecutions = s.asyncStateExecutions ∧
      s'.immediateTasks = s.immediateTasks ∨
    ∃ sid r t, request.startStateId = some sid ∧ s.asyncStateExecutions ⟨id, sid, 1⟩ = none ∧
      (∀ k, s'.asyncStateExecutions k =
        if k = ⟨id, sid, 1⟩ then some r else s.asyncStateExecutions k) ∧
      r.version = 1 ∧ s'.immediateTasks = s.immediateTasks ++ [t] ∧ t.key = ⟨id, sid, 1⟩ ∧
      (t.taskType = .execute ↔ r.phases = (.skipped, .running))
  timerTasks : s'.timerTasks = s.timerTasks
  localQueue : s'.localQueue = s.localQueue

theorem initialTaskType_eq_execute_iff (c : Option AsyncStateConfig) :
    initialTaskType c = .execute ↔ initialStatuses c = (.skipped, .running) := by
  unfold initialTaskType initialStatuses
  split <;> simp

/-- A committed start adds exactly its pointer, its process row and its start state. -/
theorem startProcess_startAdds {s s' : Store} {request : ProcessExecutionStartRequest}
    {now : Int} {id : Uuid} (h : doStartProcessTx s request now = .ok (.started id, s')) :
    StartAdds s s' request id := by
  obtain ⟨rfl, s₁, s₂, h₁, h₂, h₃⟩ := doStartProcessTx_eq_started h
  obtain ⟨hl, hs₁⟩ := Store.insertLatestProcessExecution_eq_ok h₁
  obtain ⟨hp, rfl⟩ := Store.insertProcessExecution_eq_ok h₃
  have hs₂ : s₂.latestProcessExecutions = s₁.latestProcessExecutions ∧
      s₂.processExecutions = s₁.processExecutions ∧ s₂.timerTasks = s₁.timerTasks ∧
      s₂.localQueue = s₁.localQueue := by
    rcases insertStartState_eq_ok h₂ with ⟨-, rfl⟩ | ⟨sid, -, -, rfl⟩ <;>
      exact ⟨rfl, rfl, rfl, rfl⟩
  subst hs₁
  refine ⟨hl, fun ns pid => by simp [Store.setProcessExecution, Store.mustNewUUID, hs₂.1],
    by rwa [hs₂.2.1] at hp, ⟨{ startProcessRow request now with waitToComplete := false },
      fun i => by simp [Store.setProcessExecution, Store.mustNewUUID, hs₂.2.1], rfl, rfl, rfl,
      fun sid seq => by simp [startProcessRow, startSequenceMaps,
        StateExecutionSequenceMaps.IsPending]⟩, ?_, hs₂.2.2.1, hs₂.2.2.2⟩
  rcases insertStartState_eq_ok h₂ with ⟨hn, rfl⟩ | ⟨sid, hsid, hk, rfl⟩
  · exact .inl ⟨hn, rfl, rfl⟩
  · refine .inr ⟨sid, initialRow request.startStateConfig request.startStateInput
      ⟨"", "", request.processType, request.workerUrl, none⟩, ⟨defaultShardId,
      s.nextImmediateTaskSequence, .minted s.nextUuid, sid, 1,
      initialTaskType request.startStateConfig, {}⟩, hsid, hk, fun k => ?_, rfl, rfl, rfl,
      initialTaskType_eq_execute_iff _⟩
    simp [Store.setProcessExecution, Store.appendImmediateTask, Store.mustNewUUID]

/-! ### Every run -/

/-- The pair whose start `a` commits at `e`, if it commits one. -/
def Action.committedStart (e : Engine) : Action → Option (String × String)
  | .startProcess request =>
    match (Xdb.startProcess e.store request e.now).1 with
    | .ok (.started _) => some (request.namespaceName, request.processId)
    | _ => none
  | _ => none

/-- The pairs whose starts commit along a run, in order. -/
def startsAlong (cfg : ProcessorConfig) : Engine → List Action → List (String × String)
  | _, [] => []
  | e, a :: as => match step cfg e a with
    | some e' => (a.committedStart e).toList ++ startsAlong cfg e' as
    | none => []

/-- A step keeps every pointer there is. -/
theorem step_latest_some {cfg : ProcessorConfig} {e e' : Engine} {a : Action}
    (h : step cfg e a = some e') {ns pid : String} {id : Uuid}
    (hl : e.store.latestProcessExecutions ns pid = some id) :
    e'.store.latestProcessExecutions ns pid = some id := by
  rcases transition_latest (step_transition h) with he | ⟨request, he⟩
  · rw [he, hl]
  rw [he]
  rcases startProcess_snd e.store request e.now with he' | ⟨id', hs⟩
  · rw [he', hl]
  · rw [(startProcess_startAdds hs).latest, if_neg]
    · exact hl
    · rintro ⟨rfl, rfl⟩
      rw [(startProcess_startAdds hs).latest_none] at hl
      cases hl

/-- A step that commits a start for a pair finds no pointer for it and leaves one. -/
theorem committedStart_latest {cfg : ProcessorConfig} {e e' : Engine} {a : Action}
    (h : step cfg e a = some e') {ns pid : String} (hc : a.committedStart e = some (ns, pid)) :
    e.store.latestProcessExecutions ns pid = none ∧
      ∃ id, e'.store.latestProcessExecutions ns pid = some id := by
  cases a with
  | startProcess request =>
    cases h
    simp only [Action.committedStart] at hc
    split at hc <;> cases hc
    rename_i id hr
    have hs : doStartProcessTx e.store request e.now =
        .ok (.started id, (startProcess e.store request e.now).2) := by
      unfold startProcess at hr ⊢
      split at hr <;> cases hr
      rename_i h
      rw [h]
    exact ⟨(startProcess_startAdds hs).latest_none, id,
      by simp [(startProcess_startAdds hs).latest]⟩
  | _ => cases hc

/-- Along any run from any state, no pair is started twice, and every pair started had no
    pointer before the run. -/
theorem startsAlong_nodup (cfg : ProcessorConfig) :
    ∀ (e : Engine) (as : List Action), (startsAlong cfg e as).Nodup ∧
      ∀ p ∈ startsAlong cfg e as, e.store.latestProcessExecutions p.1 p.2 = none
  | _, [] => ⟨.nil, fun _ h => nomatch h⟩
  | e, a :: as => by
    simp only [startsAlong]
    split
    · rename_i e' h
      obtain ⟨hnd, hnone⟩ := startsAlong_nodup cfg e' as
      have hback : ∀ p ∈ startsAlong cfg e' as,
      -- a pointer, once stored, stays, so a later start of its pair finds it
          e.store.latestProcessExecutions p.1 p.2 = none := by
        intro p hp
        cases hl : e.store.latestProcessExecutions p.1 p.2 with
        | none => rfl
        | some id =>
          have h' := step_latest_some h hl
          rw [hnone p hp] at h'
          cases h'
      cases hc : a.committedStart e with
      | none => exact ⟨hnd, fun p hp => hback p hp⟩
      | some q =>
        -- a committed start found no pointer for its pair, and stores one
        obtain ⟨hq, id, hq'⟩ := committedStart_latest h hc
        refine ⟨List.nodup_cons.2 ⟨fun hm => ?_, hnd⟩, fun p hp => ?_⟩
        · rw [hnone q hm] at hq'
          cases hq'
        · rcases List.mem_cons.1 hp with rfl | hp
          · exact hq
          · exact hback p hp
    · exact ⟨.nil, fun _ h => nomatch h⟩

/-- A start that returns `alreadyStarted` or an error leaves the store as it was; one that
    commits adds exactly its pointer, a running process row with nothing pending, and with a
    start state its row at sequence 1 and version 1 and its first task. Along any run from any
    state, no `(namespace, processId)` is started twice. -/
theorem start_process_atomic_and_unique :
    (∀ s request now,
      (∀ err, (startProcess s request now).1 = .error err → (startProcess s request now).2 = s) ∧
      ((startProcess s request now).1 = .ok .alreadyStarted → (startProcess s request now).2 = s) ∧
      ∀ id, (startProcess s request now).1 = .ok (.started id) →
        StartAdds s (startProcess s request now).2 request id) ∧
    ∀ cfg e as, (startsAlong cfg e as).Nodup ∧
      ∀ p ∈ startsAlong cfg e as, e.store.latestProcessExecutions p.1 p.2 = none := by
  refine ⟨fun s request now => ?_, startsAlong_nodup⟩
  unfold startProcess
  split
  · rename_i id h
    refine ⟨fun _ he => (nomatch he), fun he => (nomatch he), fun _ he => ?_⟩
    cases he
    exact startProcess_startAdds h
  all_goals exact ⟨fun _ _ => rfl, fun _ => rfl, fun _ he => nomatch he⟩

end Xdb
