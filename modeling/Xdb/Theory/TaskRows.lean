import Xdb.Theory.Coverage

/-!
# Every Task Names a Row

`processImmediateTask` starts by reading the task's state row with `PrepareStateExecution`, and
when that fails it returns the error, so the processor puts the task back for an immediate retry.
A task whose row did not exist would go round that loop for ever. It never does: in every
reachable state, every task the engine holds or stores that is not a message task, and every
timer task, names an existing state row (`tasks_name_existing_rows`).

The invariant holds because rows are never deleted (`RowStep` has no step from a row to none)
and every transaction that adds a task adds it for a row it has just written: the start
transaction writes the start state's row beside its task, a wait-until result with an empty
command writes the row whose execute task it adds, the next-state loop inserts each row beside
its task, a backoff writes the row whose timer it adds, and a due timer becomes an immediate task
of the same state execution. A copy the engine holds keeps its task's state execution and type.

## Main definitions

* `Store.HasRow`: The state row at a key exists.
* `RefStep`: A transaction seen from the rows its new tasks name.
* `RefInv`: The engine invariant.

## Theorems

* `transition_refStep`: Every transaction adds tasks only for rows that exist.
* `step_refInv`: Every step keeps `RefInv`.
* `tasks_name_existing_rows`: In every reachable state every task names a row, and preparing a
  task never fails.
-/

namespace Xdb

/-- The state row at `k` exists. -/
def Store.HasRow (s : Store) (k : AsyncStateExecutionKey) : Prop :=
  ∃ r, s.asyncStateExecutions k = some r

theorem Store.HasRow.of_rowStep {s s' : Store} {k : AsyncStateExecutionKey} (h : s.HasRow k)
    (hs : RowStep (s.asyncStateExecutions k) (s'.asyncStateExecutions k)) : s'.HasRow k := by
  obtain ⟨r, hr⟩ := h
  rw [hr] at hs
  obtain ⟨r', hr', -⟩ := hs.version_le
  exact ⟨r', hr'⟩

theorem Store.hasRow_setAsyncStateExecution (s : Store) (k : AsyncStateExecutionKey)
    (r : AsyncStateExecutionRow) : (s.setAsyncStateExecution k r).HasRow k :=
  ⟨r, by simp [Store.setAsyncStateExecution]⟩

/-- `PrepareStateExecution` succeeds on a key whose row exists. -/
theorem prepareStateExecution_of_hasRow {s : Store} {k : AsyncStateExecutionKey}
    (h : s.HasRow k) : ∃ prep, prepareStateExecution s k = .ok prep := by
  obtain ⟨r, hr⟩ := h
  exact ⟨_, by simp only [prepareStateExecution, Store.selectAsyncStateExecution, hr]; rfl⟩

/-- With the database up, `processImmediateTask` puts a task back only when its preparation
    fails. -/
theorem beginProcessImmediateTask_ne_putBack {cfg : ProcessorConfig} {s : Store} {now : Int}
    {t : ImmediateTaskRow}
    (h : t.taskType ≠ .newLocalQueueMessage → ∃ prep, prepareStateExecution s t.key = .ok prep) :
    beginProcessImmediateTask cfg s now t true ≠ some (.putBack t) := by
  unfold beginProcessImmediateTask
  split
  · exact fun h => nomatch h
  rw [if_neg Bool.noConfusion]
  obtain ⟨prep, hp⟩ := h ‹_›
  rw [hp]
  dsimp only
  split
  · exact fun h => by obtain ⟨_, -, h⟩ := Option.map_eq_some'.1 h; exact nomatch h
  split
  · exact fun h => by obtain ⟨_, -, h⟩ := Option.map_eq_some'.1 h; exact nomatch h
  · exact fun h => nomatch h

/-! ### What a transaction adds -/

/-- A transaction seen from the rows its tasks name: each immediate task afterwards was there
    before, is a message task, or names a row, and each timer task was there before or names a
    row. -/
structure RefStep (s s' : Store) : Prop where
  tasks : ∀ u ∈ s'.immediateTasks, u ∈ s.immediateTasks ∨
    u.taskType = .newLocalQueueMessage ∨ s'.HasRow u.key
  timers : ∀ t ∈ s'.timerTasks, t ∈ s.timerTasks ∨ s'.HasRow t.key

namespace RefStep

theorem refl (s : Store) : RefStep s s := ⟨fun _ hu => .inl hu, fun _ ht => .inl ht⟩

/-- No task that was not there before. -/
theorem of_subset {s s' : Store} (hi : ∀ u ∈ s'.immediateTasks, u ∈ s.immediateTasks)
    (ht : ∀ t ∈ s'.timerTasks, t ∈ s.timerTasks) : RefStep s s' :=
  ⟨fun u hu => .inl (hi u hu), fun t hτ => .inl (ht t hτ)⟩

/-- Publishing adds message tasks and touches no row. -/
theorem publishToLocalQueue {s s₁ s' : Store} {pid : Uuid} {ms : List LocalQueueMessage}
    (h₁ : RefStep s s₁) (h : Xdb.publishToLocalQueue s₁ pid ms = .ok s') : RefStep s s' := by
  have hrow : ∀ {k}, s₁.HasRow k → s'.HasRow k := fun {k} ⟨r, hr⟩ =>
    ⟨r, by rw [publishToLocalQueue_asyncStateExecutions h, hr]⟩
  obtain ⟨rows, n, -, rfl⟩ := publishToLocalQueue_eq_ok h
  refine ⟨fun u hu => ?_, fun t ht => (h₁.timers t ht).imp_right hrow⟩
  rcases List.mem_append.1 hu with hu | hu
  · exact (h₁.tasks u hu).imp_right (Or.imp_right hrow)
  · exact .inr (.inl (taskType_of_mem_localQueueTasks hu))

end RefStep

theorem startProcess_refStep (s : Store) (request : ProcessExecutionStartRequest) (now : Int) :
    RefStep s (startProcess s request now).2 := by
  rcases startProcess_snd s request now with he | ⟨id, hs⟩
  · rw [he]
    exact .refl s
  obtain ⟨-, s₁, s₂, h₁, h₂, h₃⟩ := doStartProcessTx_eq_started hs
  obtain ⟨-, rfl⟩ := Store.insertLatestProcessExecution_eq_ok h₁
  rw [(Store.insertProcessExecution_eq_ok h₃).2]
  rcases insertStartState_eq_ok h₂ with ⟨-, rfl⟩ | ⟨sid, -, -, rfl⟩
  · exact .of_subset (fun _ h => h) fun _ h => h
  refine ⟨fun u hu => ?_, fun t ht => .inl ht⟩
  rcases List.mem_append.1 hu with hu | hu
  · exact .inl hu
  · rw [List.mem_singleton.1 hu]
    exact .inr (.inr (Store.hasRow_setAsyncStateExecution _ _ _))

theorem convertTimerTaskToImmediateTask_refStep {s : Store} {t : TimerTaskRow}
    (ht : s.HasRow t.key) : RefStep s (convertTimerTaskToImmediateTask s t) := by
  refine ⟨fun u hu => ?_, fun τ hτ => .inl (List.mem_of_mem_filter hτ)⟩
  rcases List.mem_append.1 hu with hu | hu
  · exact .inl hu
  · rw [List.mem_singleton.1 hu]
    exact .inr (.inr ht)

theorem processWaitUntilExecution_refStep (s : Store) (request : ProcessWaitUntilExecutionRequest) :
    RefStep s (processWaitUntilExecution s request).2 := by
  unfold processWaitUntilExecution commitOrRollback
  split
  · rename_i h
    obtain ⟨r, -, -, hrows⟩ := doProcessWaitUntilExecutionTx_asyncStateExecutions h
    obtain ⟨s₁, h₁, h₂⟩ := doProcessWaitUntilExecutionTx_eq_ok h
    obtain ⟨r₁, -, -, rfl⟩ := Store.conditionalUpdate_eq_ok h₁
    refine RefStep.publishToLocalQueue ?_ h₂
    split
    · refine ⟨fun u hu => ?_, fun t ht => .inl ht⟩
      rcases List.mem_append.1 hu with hu | hu
      · exact .inl hu
      · rw [List.mem_singleton.1 hu]
        exact .inr (.inr (Store.hasRow_setAsyncStateExecution _ _ _))
    · exact .of_subset (fun _ h => h) fun _ h => h
  · exact .refl _

theorem completeExecuteExecution_refStep (s : Store) (request : CompleteExecuteExecutionRequest) :
    RefStep s (completeExecuteExecution s request).2 := by
  unfold completeExecuteExecution commitOrRollback
  split
  · obtain ⟨p, s₁, m, m', s₂, -, h₁, -, h₂, h₃⟩ := doCompleteExecuteExecutionTx_eq_ok ‹_›
    obtain ⟨-, hrows, -, ⟨ts, hts, hkeys⟩, -⟩ := startNextStates_insertsNext h₂
    obtain ⟨r, -, -, rfl⟩ := Store.conditionalUpdate_eq_ok h₁
    refine RefStep.publishToLocalQueue ⟨fun u hu => ?_, fun t ht => .inl ?_⟩ h₃
    · rw [ProcessClose.write_immediateTasks, hts] at hu
      rcases List.mem_append.1 hu with hu | hu
      · exact .inl hu
      · obtain ⟨r', -, hr', -⟩ := hrows u.key (hkeys ▸ List.mem_map_of_mem _ hu)
        refine .inr (.inr ?_)
        rw [Store.HasRow, ProcessClose.write_asyncStateExecutions, hr']
        split <;> exact ⟨_, rfl⟩
    · have hw := ProcessClose.write_timerTables (closeProcessExecution p.status p.waitToComplete
        m' request.stateDecision.threadCloseDecision) s₂ request.processExecutionId p
      have hn := startNextStates_timerTables h₂
      simp only [Store.timerTables, Prod.mk.injEq] at hw hn
      rwa [hw.1, hn.1] at ht
  · exact .refl _

theorem backoffImmediateTask_refStep (s : Store) (request : BackoffImmediateTaskRequest) :
    RefStep s (backoffImmediateTask s request).2 := by
  unfold backoffImmediateTask
  split
  · rename_i h
    obtain ⟨r, -, -, hrows⟩ := doBackoffImmediateTaskTx_asyncStateExecutions h
    obtain ⟨s₁, h₁, rfl⟩ := doBackoffImmediateTaskTx_eq_ok h
    obtain ⟨r₁, -, -, rfl⟩ := Store.conditionalUpdate_eq_ok h₁
    refine ⟨fun u hu => .inl (List.mem_of_mem_filter hu), fun t ht => ?_⟩
    rcases List.mem_append.1 ht with ht | ht
    · exact .inl ht
    · rw [List.mem_singleton.1 ht]
      exact .inr (Store.hasRow_setAsyncStateExecution _ _ _)
  · exact .refl _

/-- Every transaction adds tasks only for rows that exist afterwards, once every timer task of
    the store names a row. -/
theorem transition_refStep {e : Engine} {s' : Store}
    (hi : ∀ t ∈ e.store.timerTasks, e.store.HasRow t.key) (h : Transition e s') :
    RefStep e.store s' := by
  cases h with
  | stay => exact .refl _
  | startProcess request => exact startProcess_refStep ..
  | fireTimer t ht => exact convertTimerTaskToImmediateTask_refStep (hi t ht)
  | waitUntil => exact processWaitUntilExecution_refStep ..
  | execute => exact completeExecuteExecution_refStep ..
  | backoff => exact backoffImmediateTask_refStep ..
  | delete => exact .of_subset (fun _ h => List.mem_of_mem_filter h) fun _ h => h

/-! ### The engine invariant -/

/-- Every non-message task the engine stores or holds, and every timer task, names a row. -/
structure RefInv (e : Engine) : Prop where
  tasks : ∀ u ∈ e.store.immediateTasks, u.taskType ≠ .newLocalQueueMessage →
    e.store.HasRow u.key
  timers : ∀ t ∈ e.store.timerTasks, e.store.HasRow t.key
  held : ∀ t ∈ e.held, t.taskType ≠ .newLocalQueueMessage → e.store.HasRow t.key

theorem step_refInv {cfg : ProcessorConfig} {e e' : Engine} {a : Action} (hq : QueueInv e)
    (hr : RowsInv e) (hc : CoverInv e) (hi : RefInv e) (h : step cfg e a = some e') :
    RefInv e' := by
  have hkeep : ∀ {k}, e.store.HasRow k → e'.store.HasRow k := fun hk =>
    hk.of_rowStep ((transition_rows hr (step_transition h)).1 _)
  have hs := transition_refStep hi.timers (step_transition h)
  obtain ⟨_, _, -, hm, -⟩ := step_coverShape hq hr hc h
  refine ⟨fun u hu hne => ?_, fun t ht => ?_, fun t ht hne => ?_⟩
  · rcases hs.tasks u hu with hu | hlq | hrow
    · exact hkeep (hi.tasks u hu hne)
    · exact absurd hlq hne
    · exact hrow
  · exact (hs.timers t ht).elim (fun ht => hkeep (hi.timers t ht)) id
  · obtain ⟨t₀, h₀, hcp⟩ := hm.held t ht
    obtain ⟨-, -, hkey, hty⟩ := hcp.sameAs
    rw [← hty] at hne
    rw [← hkey]
    exact hkeep (h₀.elim (fun h => hi.held t₀ h hne) fun h => hi.tasks t₀ h hne)

theorem reachable_refInv {cfg : ProcessorConfig} {e : Engine} (hr : Reachable cfg e) :
    RefInv e := by
  induction hr with
  | init now =>
    have hn := Engine.not_mem_held_of_idle (e := Engine.init cfg now) rfl
      (fun _ hw => (List.mem_replicate.1 hw).2) rfl
    exact ⟨fun _ h => (nomatch h), fun _ h => (nomatch h), fun t ht => absurd ht (hn t)⟩
  | step _ hre hs ih =>
    exact step_refInv (reachable_queueInv hre) (reachable_rowsInv hre) (reachable_coverInv hre)
      ih hs

/-- In every reachable state, every non-message task the engine holds or stores, and every timer
    task, names an existing state row, so `PrepareStateExecution` succeeds on it; and
    `processImmediateTask` with the database up never puts a task the engine holds or stores
    back for a failed preparation. -/
theorem tasks_name_existing_rows {cfg : ProcessorConfig} {e : Engine} (hr : Reachable cfg e) :
    (∀ t, t ∈ e.held ∨ t ∈ e.store.immediateTasks → t.taskType ≠ .newLocalQueueMessage →
      ∃ prep, prepareStateExecution e.store t.key = .ok prep) ∧
    (∀ t ∈ e.store.timerTasks, ∃ prep, prepareStateExecution e.store t.key = .ok prep) ∧
    ∀ t, t ∈ e.held ∨ t ∈ e.store.immediateTasks → ∀ now,
      beginProcessImmediateTask cfg e.store now t true ≠ some (.putBack t) := by
  have hi := reachable_refInv hr
  have hprep : ∀ t, t ∈ e.held ∨ t ∈ e.store.immediateTasks →
      t.taskType ≠ .newLocalQueueMessage →
        ∃ prep, prepareStateExecution e.store t.key = .ok prep := fun t ht hne =>
    prepareStateExecution_of_hasRow (ht.elim (hi.held t · hne) (hi.tasks t · hne))
  exact ⟨hprep, fun t ht => prepareStateExecution_of_hasRow (hi.timers t ht),
    fun t ht _ => beginProcessImmediateTask_ne_putBack (hprep t ht)⟩

theorem started_task_names_its_row :
    ∃ e, run exampleConfig (Engine.init exampleConfig 0) exampleStartRun = some e ∧
      (∀ t, t ∈ e.held ∨ t ∈ e.store.immediateTasks → t.taskType ≠ .newLocalQueueMessage →
        ∃ prep, prepareStateExecution e.store t.key = .ok prep) ∧
      (∀ t ∈ e.store.timerTasks, ∃ prep, prepareStateExecution e.store t.key = .ok prep) ∧
      ∀ t, t ∈ e.held ∨ t ∈ e.store.immediateTasks → ∀ now,
        beginProcessImmediateTask exampleConfig e.store now t true ≠ some (.putBack t) :=
  ⟨_, rfl, tasks_name_existing_rows
    (@reachable_of_run exampleConfig _ _ (.init 0) exampleStartRun rfl)⟩

end Xdb
