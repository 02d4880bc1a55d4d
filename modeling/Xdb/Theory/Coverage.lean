import Xdb.Theory.TaskTables
import Xdb.Theory.Retry

/-!
# Every Running State Execution Keeps a Task

The engine runs a state execution at least once: in every reachable state, a state row whose
wait-until or execute phase is running has a task in the store that will run it. That is an
immediate task no worker has finished, which the poller will therefore not delete and will
hand to a worker again, or a timer task, which a due firing moves back to the immediate
table (`running_states_keep_a_task`).

No transaction gives this alone. A worker that finishes a task sends it on the commit
channel, and the poller then deletes every stored task of that shard and sequence, so the
invariant speaks about what the engine holds in memory as well as about the store
(`CoverInv`). Every task the engine holds carries a sequence below the store's counter and
agrees on its state execution and type with the stored task of its shard and sequence; a
worker in a local-queue call holds a message task; and every running row has an immediate
task that no finished task shares a shard and sequence with, or a timer task.

A worker finishes a task only when its row no longer runs the phase
(`beginProcessImmediateTask` found nothing running), when its own transaction moved the row on
(a wait-until result, whose empty command comes with an execute task under a fresh sequence,
or a decision, which completes the row), when a backoff moved the task to the timer table,
or when the task is a message task, which runs no row. Every transaction keeps the tasks of
the rows it leaves alone and gives each row it makes run a task of its own (`CoverStep`).

## Main definitions

* `WorkerState.tasks`, `Engine.held`: The tasks the engine holds in memory.
* `Engine.finished`: The tasks the poller will delete.
* `ImmediateTaskRow.CopyAt`: A copy the engine makes of a task: itself, or one more attempt.
* `Covered`: A running row's task in the store.
* `CoverStep`: A transaction seen from the tasks of running rows.
* `HeldStep`: A step seen from the tasks the engine holds.
* `CoverInv`: The engine invariant.

## Theorems

* `CoverStep.covered`: A transaction keeps every running row covered.
* `step_coverInv`: Every step keeps `CoverInv`.
* `running_states_keep_a_task`: In every reachable state every running row has a task.
* `held_tasks_match_stored_tasks`: A task held in memory agrees with the stored tasks of its
  shard and sequence.
-/

namespace Xdb

/-! ### What the engine holds -/

/-- The tasks a worker holds: the task it received and, during a call, the task as the call
    sees it. -/
def WorkerState.tasks : WorkerState → List ImmediateTaskRow
  | .idle => []
  | .waitUntilCall task current _ => [task, current]
  | .executeCall task current _ => [task, current]
  | .localQueueCall task => [task]
  | .putBack task => [task]
  | .commit task => [task]

/-- The task a worker has finished, on its way to the commit channel. -/
def WorkerState.done? : WorkerState → Option ImmediateTaskRow
  | .commit task => some task
  | _ => none

/-- The tasks the engine holds in memory: buffered, at a worker, or sent to be deleted. -/
def Engine.held (e : Engine) : List ImmediateTaskRow :=
  e.taskToProcessChan ++ e.workers.flatMap WorkerState.tasks ++ e.committed

/-- The tasks the engine has finished; the poller deletes their shard and sequence. -/
def Engine.finished (e : Engine) : List ImmediateTaskRow :=
  e.workers.filterMap WorkerState.done? ++ e.committed

/-- Two copies of one task: the same shard, sequence, state execution and type. -/
def ImmediateTaskRow.SameAs (a b : ImmediateTaskRow) : Prop :=
  a.shardId = b.shardId ∧ a.taskSequence = b.taskSequence ∧ a.key = b.key ∧
    a.taskType = b.taskType

theorem ImmediateTaskRow.SameAs.refl (a : ImmediateTaskRow) : a.SameAs a :=
  ⟨rfl, rfl, rfl, rfl⟩

theorem ImmediateTaskRow.SameAs.trans {a b c : ImmediateTaskRow} (h₁ : a.SameAs b)
    (h₂ : b.SameAs c) : a.SameAs c :=
  ⟨h₁.1.trans h₂.1, h₁.2.1.trans h₂.2.1, h₁.2.2.1.trans h₂.2.2.1, h₁.2.2.2.trans h₂.2.2.2⟩

/-- A call sees its task with one more attempt, and nothing else changed. -/
theorem sameAs_withAttempt (t : ImmediateTaskRow) (now : Int) : t.SameAs (withAttempt t now) :=
  ⟨rfl, rfl, rfl, rfl⟩

/-- A copy the engine makes of a task at clock `now`: the task itself, or the task as a call
    sees it. -/
def ImmediateTaskRow.CopyAt (t₀ t : ImmediateTaskRow) (now : Int) : Prop :=
  t = t₀ ∨ t = withAttempt t₀ now

theorem ImmediateTaskRow.CopyAt.sameAs {t₀ t : ImmediateTaskRow} {now : Int}
    (h : t₀.CopyAt t now) : t₀.SameAs t := by
  rcases h with rfl | rfl
  · exact .refl _
  · exact sameAs_withAttempt _ now

theorem Engine.mem_held {e : Engine} {w : WorkerState} {t : ImmediateTaskRow}
    (hw : w ∈ e.workers) (ht : t ∈ w.tasks) : t ∈ e.held := by
  simp only [Engine.held, List.mem_append, List.mem_flatMap]
  exact .inl (.inr ⟨w, hw, ht⟩)

theorem Engine.held_of_finished {e : Engine} {t : ImmediateTaskRow} (h : t ∈ e.finished) :
    t ∈ e.held := by
  simp only [Engine.finished, Engine.held, List.mem_append, List.mem_filterMap,
    List.mem_flatMap] at h ⊢
  rcases h with ⟨w, hw, hd⟩ | h
  · refine .inl (.inr ⟨w, hw, ?_⟩)
    cases w <;> cases hd
    exact List.mem_singleton_self _
  · exact .inr h

theorem Engine.mem_held_setWorker {e : Engine} {i : Nat} {w : WorkerState} {t : ImmediateTaskRow}
    (h : t ∈ (e.setWorker i w).held) : t ∈ e.held ∨ t ∈ w.tasks := by
  simp only [Engine.held, Engine.setWorker, List.mem_append, List.mem_flatMap] at h ⊢
  rcases h with (h | ⟨w', hw', ht⟩) | h
  · exact .inl (.inl (.inl h))
  · rcases List.mem_or_eq_of_mem_set hw' with hw' | rfl
    · exact .inl (.inl (.inr ⟨w', hw', ht⟩))
    · exact .inr ht
  · exact .inl (.inr h)

theorem Engine.mem_finished_setWorker {e : Engine} {i : Nat} {w : WorkerState}
    {t : ImmediateTaskRow} (h : t ∈ (e.setWorker i w).finished) :
    t ∈ e.finished ∨ w.done? = some t := by
  simp only [Engine.finished, Engine.setWorker, List.mem_append, List.mem_filterMap] at h ⊢
  rcases h with ⟨w', hw', ht⟩ | h
  · rcases List.mem_or_eq_of_mem_set hw' with hw' | rfl
    · exact .inl (.inl ⟨w', hw', ht⟩)
    · exact .inr ht
  · exact .inl (.inr h)

theorem Engine.mem_held_iff {e : Engine} {t : ImmediateTaskRow} :
    t ∈ e.held ↔ t ∈ e.taskToProcessChan ∨ (∃ w ∈ e.workers, t ∈ w.tasks) ∨ t ∈ e.committed := by
  simp only [Engine.held, List.mem_append, List.mem_flatMap, or_assoc]

theorem Engine.mem_finished_iff {e : Engine} {t : ImmediateTaskRow} :
    t ∈ e.finished ↔ WorkerState.commit t ∈ e.workers ∨ t ∈ e.committed := by
  simp only [Engine.finished, List.mem_append, List.mem_filterMap]
  refine or_congr_left ⟨fun ⟨w, hw, hd⟩ => ?_, fun h => ⟨_, h, rfl⟩⟩
  cases w <;> cases hd
  exact hw

/-- An engine with an empty buffer and commit channel and only idle workers holds no task. -/
theorem Engine.not_mem_held_of_idle {e : Engine} (hb : e.taskToProcessChan = [])
    (hw : ∀ w ∈ e.workers, w = .idle) (hc : e.committed = []) (t : ImmediateTaskRow) :
    t ∉ e.held := fun ht => by
  rcases Engine.mem_held_iff.1 ht with h | ⟨w, hw', ht⟩ | h
  · rw [hb] at h
    exact nomatch h
  · rw [hw w hw'] at ht
    exact nomatch ht
  · rw [hc] at h
    exact nomatch h

/-- What a step does to the tasks the engine holds: each task held afterwards copies one held
    before or one of the store's, each finished task was finished before or is `n`, and a
    worker in a local-queue call was in it before or holds a message task. -/
structure HeldStep (e e' : Engine) (n : Option ImmediateTaskRow) : Prop where
  held : ∀ t ∈ e'.held, ∃ t₀, (t₀ ∈ e.held ∨ t₀ ∈ e.store.immediateTasks) ∧
    t₀.CopyAt t e.now
  finished : ∀ t ∈ e'.finished, t ∈ e.finished ∨ n = some t
  lqCalls : ∀ t, WorkerState.localQueueCall t ∈ e'.workers →
    WorkerState.localQueueCall t ∈ e.workers ∨ t.taskType = .newLocalQueueMessage

namespace HeldStep

/-- Nothing held that was not held before. -/
theorem of_subset {e e' : Engine} (hh : ∀ t ∈ e'.held, t ∈ e.held)
    (hf : ∀ t ∈ e'.finished, t ∈ e.finished)
    (hl : ∀ t, WorkerState.localQueueCall t ∈ e'.workers →
      WorkerState.localQueueCall t ∈ e.workers) : HeldStep e e' none :=
  ⟨fun t ht => ⟨t, .inl (hh t ht), .inl rfl⟩, fun t ht => .inl (hf t ht),
    fun t ht => .inl (hl t ht)⟩

/-- Worker `i` moved to `w`, whose tasks copy tasks held or stored before. -/
theorem setWorker {e e₁ : Engine} (h₁ : HeldStep e e₁ none) (s' : Store) (i : Nat)
    {w : WorkerState}
    (hw : ∀ t ∈ w.tasks, ∃ t₀, (t₀ ∈ e.held ∨ t₀ ∈ e.store.immediateTasks) ∧
      t₀.CopyAt t e.now)
    (hl : ∀ t, w = .localQueueCall t → t.taskType = .newLocalQueueMessage) :
    HeldStep e ({ e₁ with store := s' }.setWorker i w) w.done? := by
  refine ⟨fun t ht => ?_, fun t ht => ?_, fun t ht => ?_⟩
  · rcases Engine.mem_held_setWorker ht with ht | ht
    · exact h₁.held t ht
    · exact hw t ht
  · rcases Engine.mem_finished_setWorker ht with ht | ht
    · exact (h₁.finished t ht).imp_right fun h => by cases h
    · exact .inr ht
  · rcases mem_setWorker ht with ht | ht
    · exact h₁.lqCalls t ht
    · exact .inr (hl t ht.symm)

/-- The buffer, the workers and the commit channel as they were. -/
theorem of_memory {e e' : Engine} (hb : e'.taskToProcessChan = e.taskToProcessChan)
    (hw : e'.workers = e.workers) (hc : e'.committed = e.committed) : HeldStep e e' none := by
  refine .of_subset (fun t ht => ?_) (fun t ht => ?_) fun t ht => hw ▸ ht
  · rwa [Engine.held, hb, hw, hc] at ht
  · rwa [Engine.finished, hw, hc] at ht

/-- A restart holds nothing. -/
theorem restart (e e₁ : Engine) : HeldStep e e₁.restart none := by
  have hw : ∀ w ∈ e₁.restart.workers, w = .idle := fun w hw => by
    obtain ⟨_, -, rfl⟩ := List.mem_map.1 hw
    rfl
  have hn := Engine.not_mem_held_of_idle rfl hw rfl
  exact .of_subset (fun t ht => absurd ht (hn t))
    (fun t ht => absurd (Engine.held_of_finished ht) (hn t)) fun t ht => nomatch hw _ ht

end HeldStep

/-! ### Running rows and their tasks -/

/-- A phase of the row is running. -/
def AsyncStateExecutionRow.Runs (r : AsyncStateExecutionRow) : Prop :=
  r.waitUntilStatus = .running ∨ r.executeStatus = .running

/-- The batch abort leaves no phase running. -/
theorem Store.abortRunning_not_runs (r : AsyncStateExecutionRow) :
    ¬(Store.abortRunning r).Runs := by
  obtain ⟨w, e, _⟩ := r
  cases w <;> cases e <;> simp [AsyncStateExecutionRow.Runs, Store.abortRunning,
    StateExecutionStatus.toNat]

/-- No task of `F` has the shard and sequence of `u`, so deleting `F` leaves `u`. -/
def Live (F : List ImmediateTaskRow) (u : ImmediateTaskRow) : Prop :=
  ∀ t ∈ F, t.shardId = u.shardId → t.taskSequence ≠ u.taskSequence

/-- The state execution at `k` has a task in the store that will run it: an immediate task
    of its phases that deleting `F` leaves, or a timer task. -/
def Covered (s : Store) (F : List ImmediateTaskRow) (k : AsyncStateExecutionKey) : Prop :=
  (∃ u ∈ s.immediateTasks, u.key = k ∧ u.taskType ≠ .newLocalQueueMessage ∧ Live F u) ∨
    ∃ t ∈ s.timerTasks, t.key = k

/-- An immediate task for `k` in `s'` under a sequence at or above `s`'s counter: one that a
    transaction from `s` added. -/
def FreshTask (s s' : Store) (k : AsyncStateExecutionKey) : Prop :=
  ∃ u ∈ s'.immediateTasks, u.key = k ∧ u.taskType ≠ .newLocalQueueMessage ∧
    s.nextImmediateTaskSequence ≤ u.taskSequence

/-- The store agrees with `n` on the state execution and type of `n`'s shard and sequence. -/
def Agrees (s : Store) (n : ImmediateTaskRow) : Prop :=
  ∀ u ∈ s.immediateTasks, u.shardId = n.shardId → u.taskSequence = n.taskSequence →
    u.key = n.key ∧ u.taskType = n.taskType

/-- A transaction from `s` to `s'` seen from the tasks of running rows. `own` names the rows
    whose task the worker that ran it is about to finish. An immediate task that deleting `F`
    leaves is kept unless its row is one of those, a timer task is kept or replaced by a fresh
    task, and a row that runs afterwards ran before and is not one of those, or has a task
    the transaction added. -/
structure CoverStep (s s' : Store) (own : AsyncStateExecutionKey → Prop)
    (F : List ImmediateTaskRow) : Prop where
  kept : ∀ u ∈ s.immediateTasks, Live F u → ¬own u.key → u ∈ s'.immediateTasks
  timers : ∀ t ∈ s.timerTasks, t ∈ s'.timerTasks ∨ FreshTask s s' t.key
  rows : ∀ k r', s'.asyncStateExecutions k = some r' → r'.Runs →
    (∃ r, s.asyncStateExecutions k = some r ∧ r.Runs ∧ ¬own k) ∨ FreshTask s s' k ∨
      ∃ t ∈ s'.timerTasks, t.key = k

/-- A transaction keeps every running row covered, when each task finished with it was
    finished before, or is below the counter, agrees with the store, and is a message task or
    the task of a row `own` names. -/
theorem CoverStep.covered {s s' : Store} {own : AsyncStateExecutionKey → Prop}
    {F F' : List ImmediateTaskRow} (hs : CoverStep s s' own F)
    (hc : ∀ k r, s.asyncStateExecutions k = some r → r.Runs → Covered s F k)
    (hF : ∀ n ∈ F', n.taskSequence < s.nextImmediateTaskSequence ∧ (n ∈ F ∨
      Agrees s n ∧ (n.taskType = .newLocalQueueMessage ∨ own n.key))) :
    ∀ k r, s'.asyncStateExecutions k = some r → r.Runs → Covered s' F' k := by
  have hfresh : ∀ {k}, FreshTask s s' k → Covered s' F' k := fun ⟨u, hu, hk, ht, hle⟩ =>
    .inl ⟨u, hu, hk, ht, fun n hn _ hseq => absurd hseq ((hF n hn).1.trans_le hle).ne⟩
  intro k r' hk hrun
  rcases hs.rows k r' hk hrun with ⟨r, hr, hrun₀, hown⟩ | hf | htm
  · rcases hc k r hr hrun₀ with ⟨u, hu, rfl, ht, hlive⟩ | ⟨t, htm, rfl⟩
    · refine .inl ⟨u, hs.kept u hu hlive hown, rfl, ht, fun n hn hsh hseq => ?_⟩
      rcases (hF n hn).2 with hn' | ⟨hag, hlq | hown'⟩
      · exact hlive n hn' hsh hseq
      · exact ht ((hag u hu hsh.symm hseq.symm).2.trans hlq)
      · exact hown ((hag u hu hsh.symm hseq.symm).1 ▸ hown')
    · exact (hs.timers t htm).elim (fun ht' => .inr ⟨t, ht', rfl⟩) hfresh
  · exact hfresh hf
  · exact .inr htm

namespace CoverStep

/-- Every task and timer kept, and a row changed only to give it a task of its own. -/
theorem of_rows {s s' : Store} {F : List ImmediateTaskRow}
    (himm : ∀ u ∈ s.immediateTasks, u ∈ s'.immediateTasks)
    (htm : ∀ t ∈ s.timerTasks, t ∈ s'.timerTasks)
    (hrows : ∀ k, s'.asyncStateExecutions k = s.asyncStateExecutions k ∨ FreshTask s s' k) :
    CoverStep s s' (fun _ => False) F :=
  ⟨fun u hu _ _ => himm u hu, fun t ht => .inl (htm t ht), fun k r' hk hrun =>
    (hrows k).elim (fun he => .inl ⟨r', he ▸ hk, hrun, id⟩) fun hf => .inr (.inl hf)⟩

theorem refl (s : Store) (F : List ImmediateTaskRow) : CoverStep s s (fun _ => False) F :=
  .of_rows (fun _ h => h) (fun _ h => h) fun _ => .inl rfl

/-- No transaction, and the row at `k₀` runs no phase. -/
theorem settled (s : Store) (F : List ImmediateTaskRow) {k₀ : AsyncStateExecutionKey}
    (hk₀ : ∀ r, s.asyncStateExecutions k₀ = some r → ¬r.Runs) : CoverStep s s (· = k₀) F :=
  ⟨fun _ hu _ _ => hu, fun _ ht => .inl ht, fun _ r hk hrun =>
    .inl ⟨r, hk, hrun, fun h => hk₀ r (h ▸ hk) hrun⟩⟩

end CoverStep

/-- A start gives the start state's row its first task. -/
theorem startProcess_coverStep (s : Store) (request : ProcessExecutionStartRequest) (now : Int)
    (F : List ImmediateTaskRow) :
    CoverStep s (startProcess s request now).2 (fun _ => False) F := by
  rcases startProcess_snd s request now with he | ⟨id, hs⟩
  · rw [he]
    exact .refl s F
  obtain ⟨-, s₁, s₂, h₁, h₂, h₃⟩ := doStartProcessTx_eq_started hs
  obtain ⟨-, rfl⟩ := Store.insertLatestProcessExecution_eq_ok h₁
  rw [(Store.insertProcessExecution_eq_ok h₃).2]
  rcases insertStartState_eq_ok h₂ with ⟨-, rfl⟩ | ⟨sid, -, -, rfl⟩
  · exact .of_rows (fun _ h => h) (fun _ h => h) fun _ => .inl rfl
  refine .of_rows (fun _ hu => List.mem_append_left _ hu) (fun _ h => h) fun k => ?_
  by_cases hk : k = ⟨id, sid, 1⟩
  · subst hk
    exact .inr ⟨_, List.mem_append_right _ (List.mem_singleton_self _), rfl,
      initialTaskType_ne _, le_rfl⟩
  · exact .inl (by simp [Store.setProcessExecution, Store.appendImmediateTask,
      Store.mustNewUUID, hk])

/-- A due timer becomes an immediate task of its state execution. -/
theorem convertTimerTaskToImmediateTask_coverStep {s : Store} (hq : TaskTableInv s)
    (hi : TimerInv s) {t : TimerTaskRow} (ht : t ∈ s.timerTasks) (F : List ImmediateTaskRow) :
    CoverStep s (convertTimerTaskToImmediateTask s t) (fun _ => False) F := by
  refine ⟨fun u hu _ _ => List.mem_append_left _ hu, fun τ hτ => ?_,
    fun k r hk hrun => .inl ⟨r, hk, hrun, id⟩⟩
  by_cases hm : τ.shardId = t.shardId ∧ τ.fireTimeUnixSeconds = t.fireTimeUnixSeconds ∧
      τ.taskSequence = t.taskSequence
  · exact .inr ⟨_, List.mem_append_right _ (List.mem_singleton_self _),
      (hi.agree τ hτ t ht hm.2.2).symm, hq.timers t ht, le_rfl⟩
  · exact .inl (List.mem_filter.2 ⟨hτ, decide_eq_true hm⟩)

/-- The loop leaves a row as it was or gives it a task under a fresh sequence. -/
theorem startNextStates_rows {s s' : Store} {pid : Uuid} {info : AsyncStateExecutionInfoJson}
    {shardId : Nat} {nexts : List StateMovement} {m m' : StateExecutionSequenceMaps}
    (h : startNextStates s pid info shardId nexts m = .ok (m', s')) (k : AsyncStateExecutionKey) :
    s'.asyncStateExecutions k = s.asyncStateExecutions k ∨ FreshTask s s' k := by
  obtain ⟨-, -, others, ⟨ts, hts, hkeys⟩, -⟩ := startNextStates_insertsNext h
  obtain ⟨ts', hts', -, hfresh⟩ := (startNextStates_eq_ok h).2.tasks
  obtain rfl := List.append_cancel_left (hts.symm.trans hts')
  by_cases hk : k ∈ nextStateKeys pid nexts m
  · obtain ⟨u, hu, rfl⟩ := List.mem_map.1 (hkeys ▸ hk)
    exact .inr ⟨u, hts ▸ List.mem_append_right _ hu, rfl, (hfresh u hu).2.2, (hfresh u hu).1⟩
  · exact .inl (others k hk)

/-- A committed wait-until result: its row waits, or runs its execute phase with a new task. -/
theorem doProcessWaitUntilExecutionTx_coverStep {s s' : Store}
    {request : ProcessWaitUntilExecutionRequest} {b : Bool}
    (h : doProcessWaitUntilExecutionTx s request = .ok (b, s'))
    (hrow : ∀ r, s.asyncStateExecutions request.key = some r →
      r.version = request.prepare.previousVersion → r.executeStatus ≠ .running)
    (F : List ImmediateTaskRow) : CoverStep s s' (· = request.key) F := by
  obtain ⟨r, hr, hv, hrows⟩ := doProcessWaitUntilExecutionTx_asyncStateExecutions h
  obtain ⟨s₁, h₁, h₂⟩ := doProcessWaitUntilExecutionTx_eq_ok h
  obtain ⟨r₁, -, -, rfl⟩ := Store.conditionalUpdate_eq_ok h₁
  obtain ⟨rows, n, -, rfl⟩ := publishToLocalQueue_eq_ok h₂
  refine ⟨fun u hu _ _ => ?_, fun t ht => .inl ?_, fun k r' hk hrun => ?_⟩
  · split <;> simp [Store.appendImmediateTask, Store.setAsyncStateExecution, hu]
  · split <;> exact ht
  rw [hrows, Store.setAsyncStateExecution_asyncStateExecutions] at hk
  split at hk
  · rename_i hkey
    subst hkey
    cases hk
    by_cases hc : request.commandRequest.waitingType = some .emptyCommand
    · refine .inr (.inl ⟨⟨request.taskShardId, s.nextImmediateTaskSequence,
        request.processExecutionId, request.stateId, request.stateIdSequence, .execute, {}⟩, ?_,
        rfl, fun h => ImmediateTaskType.noConfusion h, le_rfl⟩)
      simp [hc, Store.appendImmediateTask, Store.setAsyncStateExecution]
    · simp only [AsyncStateExecutionRow.Runs, AsyncStateExecutionRow.written,
        waitUntilStatusWrite, hc, if_false, StatusWrite.apply] at hrun
      exact absurd (hrun.resolve_left (by decide)) (hrow r hr hv)
  · exact .inl ⟨r', hk, hrun, ‹_›⟩

/-- A committed decision: its row completes, every next state gets a new task, and the batch
    abort leaves nothing running. -/
theorem doCompleteExecuteExecutionTx_coverStep {s s' : Store}
    {request : CompleteExecuteExecutionRequest} {b : Bool}
    (h : doCompleteExecuteExecutionTx s request = .ok (b, s'))
    (hrow : ∀ r, s.asyncStateExecutions request.key = some r →
      r.version = request.prepare.previousVersion → r.waitUntilStatus ≠ .running)
    (F : List ImmediateTaskRow) : CoverStep s s' (· = request.key) F := by
  obtain ⟨p, s₁, m, m', s₂, -, h₁, -, h₂, h₃⟩ := doCompleteExecuteExecutionTx_eq_ok h
  have htm : s'.timerTasks = s.timerTasks := congrArg Prod.fst <|
    show s'.timerTables = s.timerTables by
      rw [publishToLocalQueue_timerTables h₃, ProcessClose.write_timerTables,
        startNextStates_timerTables h₂, conditionalUpdate_timerTables h₁]
  obtain ⟨r, hr, hv, rfl⟩ := Store.conditionalUpdate_eq_ok h₁
  have hsub : ∀ u ∈ s₂.immediateTasks, u ∈ s'.immediateTasks := by
    obtain ⟨rows, n, -, rfl⟩ := publishToLocalQueue_eq_ok h₃
    intro u hu
    simp [hu]
  obtain ⟨ts, hts, -, -⟩ := (startNextStates_eq_ok h₂).2.tasks
  refine ⟨fun u hu _ _ => hsub u (hts ▸ List.mem_append_left _ hu),
    fun t ht => .inl (htm ▸ ht),
    fun k r' hk hrun => ?_⟩
  rw [publishToLocalQueue_asyncStateExecutions h₃, ProcessClose.write_asyncStateExecutions] at hk
  split at hk
  · obtain ⟨r₀, -, rfl⟩ := Option.map_eq_some'.1 hk
    exact absurd hrun (Store.abortRunning_not_runs r₀)
  rcases startNextStates_rows h₂ k with he | ⟨u, hu, hku, ht, hle⟩
  · rw [he, Store.setAsyncStateExecution_asyncStateExecutions] at hk
    split at hk
    · cases hk
      simp only [AsyncStateExecutionRow.Runs, AsyncStateExecutionRow.written,
        StatusWrite.apply, AsyncStateExecutionRow.phases] at hrun
      exact absurd (hrun.resolve_right (by decide)) (hrow r hr hv)
    · exact .inl ⟨r', hk, hrun, ‹_›⟩
  · exact .inr (.inl ⟨u, hsub u hu, hku, ht, hle⟩)

/-- A committed backoff moves the task of its row to the timer table. -/
theorem doBackoffImmediateTaskTx_coverStep {s s' : Store} {request : BackoffImmediateTaskRequest}
    (h : doBackoffImmediateTaskTx s request = .ok s') (hag : Agrees s request.task)
    (F : List ImmediateTaskRow) : CoverStep s s' (· = request.task.key) F := by
  obtain ⟨r, -, -, hrows⟩ := doBackoffImmediateTaskTx_asyncStateExecutions h
  obtain ⟨s₁, h₁, rfl⟩ := doBackoffImmediateTaskTx_eq_ok h
  obtain ⟨r₁, -, -, rfl⟩ := Store.conditionalUpdate_eq_ok h₁
  refine ⟨fun u hu _ hown => List.mem_filter.2 ⟨hu, decide_eq_true fun ⟨h₁, h₂⟩ =>
      hown (hag u hu h₁ h₂).1⟩, fun t ht => .inl (List.mem_append_left _ ht),
    fun k r' hk hrun => ?_⟩
  by_cases hkey : k = request.task.key
  · subst hkey
    exact .inr (.inr ⟨_, List.mem_append_right _ (List.mem_singleton_self _), rfl⟩)
  · rw [hrows, Store.setAsyncStateExecution_asyncStateExecutions, if_neg hkey] at hk
    exact .inl ⟨r', hk, hrun, hkey⟩

/-- The poller's delete removes only finished tasks. -/
theorem removeImmediateTask_coverStep (s : Store) {F : List ImmediateTaskRow}
    {t : ImmediateTaskRow} (ht : t ∈ F) :
    CoverStep s (s.removeImmediateTask t.shardId t.taskSequence) (fun _ => False) F :=
  ⟨fun _ hu hlive _ => List.mem_filter.2 ⟨hu, decide_eq_true fun ⟨h₁, h₂⟩ =>
      hlive t ht h₁.symm h₂.symm⟩, fun _ hτ => .inl hτ,
    fun _ r hk hrun => .inl ⟨r, hk, hrun, id⟩⟩

/-! ### What a worker holds -/

theorem finishTask_tasks {cfg : ProcessorConfig} {task t : ImmediateTaskRow} {ok : Bool}
    (h : t ∈ (finishTask cfg task ok).tasks) : t = task := by
  unfold finishTask at h
  split at h
  · split at h <;> exact List.mem_singleton.1 h
  · exact nomatch h

theorem finishTask_done? {cfg : ProcessorConfig} {task t : ImmediateTaskRow} {ok : Bool}
    (h : (finishTask cfg task ok).done? = some t) : t = task ∧ ok = true := by
  unfold finishTask at h
  split at h
  · split at h <;> cases h
    exact ⟨rfl, ‹_›⟩
  · cases h

theorem finishTask_ne_localQueueCall (cfg : ProcessorConfig) (task t : ImmediateTaskRow)
    (ok : Bool) : finishTask cfg task ok ≠ .localQueueCall t := by
  unfold finishTask
  split_ifs <;> exact fun h => nomatch h

/-- The task as the loop holds it after a call is the task received or the task as the call
    saw it. -/
theorem sharedView_mem (task current : ImmediateTaskRow) :
    sharedView task current ∈ [task, current] := by
  unfold sharedView
  split <;> simp

theorem sharedView_key {task current : ImmediateTaskRow} (h : current.key = task.key) :
    (sharedView task current).key = task.key := by
  unfold sharedView
  split
  · exact h
  · rfl

/-- `PrepareStateExecution` reads the row's statuses. -/
theorem prepareStateExecution_statuses {s : Store} {k : AsyncStateExecutionKey}
    {prep : PrepareStateExecutionResponse} (h : prepareStateExecution s k = .ok prep)
    {r : AsyncStateExecutionRow} (hr : s.asyncStateExecutions k = some r) :
    prep.waitUntilStatus = r.waitUntilStatus ∧ prep.executeStatus = r.executeStatus := by
  simp only [prepareStateExecution, bind_eq_ok, Store.selectAsyncStateExecution, hr] at h
  obtain ⟨_, h₁, h₂⟩ := h
  cases h₁
  cases h₂
  exact ⟨rfl, rfl⟩

/-- What `beginProcessImmediateTask` puts a worker into holds copies of the task, finishes
    it only when no phase of its row runs, and calls the local queue only on a message
    task. -/
theorem beginProcessImmediateTask_holds {cfg : ProcessorConfig} {s : Store} {now : Int}
    {task : ImmediateTaskRow} {dbUp : Bool} {w : WorkerState}
    (h : beginProcessImmediateTask cfg s now task dbUp = some w) :
    (∀ t ∈ w.tasks, task.CopyAt t now) ∧
      (∀ t, w.done? = some t →
        t = task ∧ ∀ r, s.asyncStateExecutions task.key = some r → ¬r.Runs) ∧
      ∀ t, w = .localQueueCall t → t.taskType = .newLocalQueueMessage := by
  have hone : ∀ t ∈ [task], task.CopyAt t now := fun t ht => .inl (List.mem_singleton.1 ht)
  have hcall : ∀ t ∈ [task, withAttempt task now], task.CopyAt t now := by
    simp only [List.forall_mem_cons]
    exact ⟨.inl rfl, .inr rfl, fun _ h => nomatch h⟩
  unfold beginProcessImmediateTask at h
  split at h
  · cases h
    exact ⟨hone, (fun _ h => nomatch h), fun t ht => by cases ht; assumption⟩
  split at h
  · cases h
    exact ⟨hone, (fun _ h => nomatch h), fun _ h => nomatch h⟩
  split at h
  · cases h
    exact ⟨hone, (fun _ h => nomatch h), fun _ h => nomatch h⟩
  rename_i prep hp
  split at h
  · obtain ⟨_, -, rfl⟩ := Option.map_eq_some'.1 h
    exact ⟨hcall, (fun _ h => nomatch h), fun _ h => nomatch h⟩
  split at h
  · obtain ⟨_, -, rfl⟩ := Option.map_eq_some'.1 h
    exact ⟨hcall, (fun _ h => nomatch h), fun _ h => nomatch h⟩
  cases h
  refine ⟨hone, fun t ht => ⟨(Option.some.inj ht).symm, fun r hr hrun => ?_⟩,
    fun _ h => nomatch h⟩
  obtain ⟨hw, he⟩ := prepareStateExecution_statuses hp hr
  rcases hrun with hrun | hrun
  · exact ‹¬prep.waitUntilStatus = _› (hw.trans hrun)
  · exact ‹¬prep.executeStatus = _› (he.trans hrun)

/-- A receive takes a task held or stored and holds nothing new. -/
theorem receive_heldStep {cfg : ProcessorConfig} {e e₁ : Engine} {src : Source}
    {t : ImmediateTaskRow} (h : receive cfg e src = some (t, e₁)) :
    (t ∈ e.held ∨ t ∈ e.store.immediateTasks) ∧ HeldStep e e₁ none := by
  unfold receive at h
  split at h
  · split at h <;> cases h
    rename_i rest hb
    refine ⟨.inl (Engine.mem_held_iff.2 (.inl (by simp [hb]))),
      .of_subset (fun x hx => ?_) (fun _ h => h) fun _ h => h⟩
    rcases Engine.mem_held_iff.1 hx with hx | hx
    · exact Engine.mem_held_iff.2 (.inl (by simp [hb, hx]))
    · exact Engine.mem_held_iff.2 (.inr hx)
  · split at h <;> cases h
    rename_i hi
    exact ⟨.inl (Engine.mem_held (List.get?_mem hi) (List.mem_singleton_self _)),
      (HeldStep.of_memory rfl rfl rfl).setWorker e.store _
        (fun _ h => nomatch h) fun _ h => nomatch h⟩
  · split at h <;> cases h
    rename_i hcond
    exact ⟨.inr hcond.2.1, .of_memory rfl rfl rfl⟩

namespace HeldStep

/-- A worker finishes a task it holds. -/
theorem finish {e : Engine} (s' : Store) (i : Nat) (cfg : ProcessorConfig)
    {t : ImmediateTaskRow} (ht : t ∈ e.held) (ok : Bool) :
    HeldStep e ({ e with store := s' }.setWorker i (finishTask cfg t ok))
      (finishTask cfg t ok).done? :=
  (HeldStep.of_memory rfl rfl rfl).setWorker s' i
    (fun _ hx => ⟨t, .inl ht, .inl (finishTask_tasks hx)⟩)
    fun x hx => absurd hx (finishTask_ne_localQueueCall cfg t x ok)

end HeldStep

/-! ### The engine invariant -/

/-- What the engine keeps about tasks: the tasks it holds lie below the counter and agree with
    the store, a local-queue call holds a message task, timer sequences name one state
    execution each, and every running row is covered against the finished tasks. -/
structure CoverInv (e : Engine) : Prop where
  below : ∀ t ∈ e.held, t.taskSequence < e.store.nextImmediateTaskSequence
  agree : ∀ t ∈ e.held, Agrees e.store t
  lqCalls : ∀ t, WorkerState.localQueueCall t ∈ e.workers → t.taskType = .newLocalQueueMessage
  timers : TimerInv e.store
  covered : ∀ k r, e.store.asyncStateExecutions k = some r → r.Runs →
    Covered e.store e.finished k

/-- A copy of a task held or stored lies below the counter and agrees with the store. -/
theorem CoverInv.copy {e : Engine} (hc : CoverInv e) (hq : TaskTableInv e.store)
    {t₀ t : ImmediateTaskRow} (h₀ : t₀ ∈ e.held ∨ t₀ ∈ e.store.immediateTasks)
    (hs : t₀.SameAs t) : t.taskSequence < e.store.nextImmediateTaskSequence ∧ Agrees e.store t := by
  obtain ⟨hsh, hseq, hk, hty⟩ := hs
  rcases h₀ with h₀ | h₀
  · refine ⟨hseq ▸ hc.below t₀ h₀, fun u hu h₁ h₂ => ?_⟩
    obtain ⟨hk', hty'⟩ := hc.agree t₀ h₀ u hu (h₁.trans hsh.symm) (h₂.trans hseq.symm)
    exact ⟨hk'.trans hk, hty'.trans hty⟩
  · refine ⟨hseq ▸ hq.below t₀ h₀, fun u hu _ h₂ => ?_⟩
    obtain rfl := hq.eq_of_taskSequence hu h₀ (h₂.trans hseq.symm)
    exact ⟨hk, hty⟩

/-- A step seen from coverage: a `CoverStep` of the store against the tasks finished before, a
    `HeldStep`, and a newly finished task that is a message task or the task of a row the
    step's transaction moved on. -/
def CoverShape (e e' : Engine) : Prop :=
  ∃ (own : AsyncStateExecutionKey → Prop) (n : Option ImmediateTaskRow),
    CoverStep e.store e'.store own e.finished ∧ HeldStep e e' n ∧
      ∀ t, n = some t → t.taskType = .newLocalQueueMessage ∨ own t.key

namespace CoverShape

theorem of_none {e e' : Engine} {own : AsyncStateExecutionKey → Prop}
    (hs : CoverStep e.store e'.store own e.finished) (hm : HeldStep e e' none) :
    CoverShape e e' :=
  ⟨own, none, hs, hm, fun _ h => nomatch h⟩

theorem stay {e e' : Engine} (hs : e'.store = e.store) (hm : HeldStep e e' none) :
    CoverShape e e' :=
  .of_none (by rw [hs]; exact .refl _ _) hm

/-- A worker gives a task it holds back, or drops it, with the store as it was. -/
theorem giveBack {cfg : ProcessorConfig} {e : Engine} (i : Nat) {t : ImmediateTaskRow}
    (ht : t ∈ e.held) : CoverShape e (e.setWorker i (finishTask cfg t false)) :=
  ⟨fun _ => False, _, .refl e.store e.finished, HeldStep.finish e.store i cfg ht false,
    fun _ h => absurd (finishTask_done? h).2 Bool.false_ne_true⟩

/-- A result committed through `commitOrRollback`: a rollback gives the task back, a commit
    finishes it with the row `k₀` its transaction moved on. -/
theorem ofCommit {α : Type} {cfg : ProcessorConfig} {e : Engine} {i : Nat}
    {t : ImmediateTaskRow} (ht : t ∈ e.held) {x : Except TxError (α × Store)}
    {k₀ : AsyncStateExecutionKey} (hk : t.key = k₀)
    (hok : ∀ a s', x = .ok (a, s') → CoverStep e.store s' (· = k₀) e.finished) :
    CoverShape e (commitResult cfg e i t (commitOrRollback e.store x)) := by
  rcases x with _ | ⟨a, s'⟩
  · exact giveBack i ht
  · exact ⟨(· = k₀), _, hok a s' rfl, HeldStep.finish s' i cfg ht true,
      fun _ h => .inr ((finishTask_done? h).1 ▸ hk)⟩

/-- A failed call backs its task off to the timer table, gives it back, or restarts. -/
theorem ofFailure {cfg : ProcessorConfig} {e e' : Engine} {i : Nat}
    {task current : ImmediateTaskRow} {prep : PrepareStateExecutionResponse} {f : WorkerFailure}
    (hc : CoverInv e) (hr : RowsInv e)
    (hw : e.workers.get? i = some (.waitUntilCall task current prep) ∨
      e.workers.get? i = some (.executeCall task current prep))
    (h : some ((onWorkerFailure cfg e i task current prep f).getD e.restart) = some e') :
    CoverShape e e' := by
  have hmem : ∀ t ∈ [task, current], t ∈ e.held := fun t ht => by
    rcases hw with hw | hw <;> exact Engine.mem_held (List.get?_mem hw) ht
  have hkey : current.key = task.key := by
    rcases hw with hw | hw <;> exact (snapshotOk_of_get? hr hw).1
  have hsv := hmem _ (sharedView_mem task current)
  cases hf : onWorkerFailure cfg e i task current prep f with
  | none =>
    simp only [hf, Option.getD_none, Option.some.injEq] at h
    subst h
    exact .stay rfl (.restart e e)
  | some e₁ =>
    simp only [hf, Option.getD_some, Option.some.injEq] at h
    subst h
    simp only [onWorkerFailure, Option.map_eq_some'] at hf
    obtain ⟨⟨interval, shouldRetry⟩, -, rfl⟩ := hf
    split
    · split
      · rename_i s' hb
        exact ⟨(· = current.key), _, doBackoffImmediateTaskTx_coverStep
            (backoffImmediateTask_eq_ok hb)
            (hc.agree current (hmem _ (by simp))) _, HeldStep.finish s' i cfg hsv true,
          fun _ h => .inr ((finishTask_done? h).1 ▸ (sharedView_key hkey).trans hkey.symm)⟩
      · exact giveBack i hsv
    · exact giveBack i hsv

end CoverShape

/-! ### Every step keeps the invariant -/

/-- Every step has a `CoverShape`. -/
theorem step_coverShape {cfg : ProcessorConfig} {e e' : Engine} {a : Action} (hq : QueueInv e)
    (hr : RowsInv e) (hc : CoverInv e) (h : step cfg e a = some e') : CoverShape e e' := by
  cases a with
  | startProcess request =>
    -- a start adds its own rows and tasks, and the engine holds nothing new
    cases h
    exact .of_none (startProcess_coverStep ..) (.of_memory rfl rfl rfl)
  | poll t =>
    -- the poller buffers a stored task of an owned shard
    simp only [step] at h
    split at h <;> cases h
    rename_i hcond
    refine .stay rfl ⟨fun x hx => ?_, fun _ h => .inl h, fun _ h => .inl h⟩
    rcases Engine.mem_held_iff.1 hx with hx | hx
    · rcases List.mem_append.1 hx with hx | hx
      · exact ⟨x, .inl (Engine.mem_held_iff.2 (.inl hx)), .inl rfl⟩
      · exact ⟨x, .inr (List.mem_singleton.1 hx ▸ hcond.1), .inl rfl⟩
    · exact ⟨x, .inl (Engine.mem_held_iff.2 (.inr hx)), .inl rfl⟩
  | fireTimer t =>
    -- a due timer task becomes an immediate task of the same state execution
    simp only [step] at h
    split at h <;> cases h
    exact .of_none (convertTimerTaskToImmediateTask_coverStep hq.table hc.timers ‹_ ∧ _›.1 _)
      (.of_memory rfl rfl rfl)
  | take j src dbUp =>
    -- a worker receives a held task and prepares it; a task with nothing to call is done
    -- at once, its transaction having moved its row on
    simp only [step] at h
    split at h
    · obtain ⟨⟨t, e₁⟩, hrecv, h⟩ := Option.bind_eq_some.1 h
      obtain ⟨hs, hn, -⟩ := receive_spec hrecv
      obtain ⟨ht, hm⟩ := receive_heldStep hrecv
      simp only at h
      split at h
      · split at h <;> cases h
        · rename_i w hb
          rw [hs, hn] at hb
          obtain ⟨htasks, hdone, hlq⟩ := beginProcessImmediateTask_holds hb
          have hm' := hm.setWorker e₁.store j (fun x hx => ⟨t, ht, htasks x hx⟩) hlq
          cases hd : w.done? with
          | none =>
            rw [hd] at hm'
            exact .stay hs hm'
          | some t' =>
            obtain ⟨rfl, hnr⟩ := hdone t' hd
            rw [hd] at hm'
            exact ⟨(· = t'.key), _, by rw [Engine.setWorker_store, hs]; exact .settled _ _ hnr,
              hm', fun _ hx => .inr (by cases hx; rfl)⟩
        · exact .stay hs (.restart e e₁)
      · cases h
        exact .stay hs hm
    · cases h
  | waitUntilReturned i r =>
    -- a result commits against the worker's snapshot, in which the wait-until phase runs
    simp only [step] at h
    split at h
    · rename_i task current prep hi
      obtain ⟨hkey, hrun, hsnap⟩ := snapshotOk_of_get? hr hi
      split at h
      · exact .ofFailure hc hr (.inl hi) h
      · cases h
        refine .ofCommit (Engine.mem_held (List.get?_mem hi) (sharedView_mem task current))
          (sharedView_key hkey) fun _ _ hx => doProcessWaitUntilExecutionTx_coverStep hx
            (fun r hr' hv he => ?_) _
        have hw := (hsnap.statuses r hr' hv).1.trans hrun
        exact absurd ((phasesOk_running (hr.phases _ _ hr') hw).symm.trans he) (by decide)
    · cases h
  | executeReturned i r =>
    -- likewise for the execute phase; a decision with both a close and next states fails
    simp only [step] at h
    split at h
    · rename_i task current prep hi
      obtain ⟨hkey, hwait, -, hsnap⟩ := snapshotOk_of_get? hr hi
      split at h
      · exact .ofFailure hc hr (.inr hi) h
      · split at h
        · cases h
          exact .ofCommit (Engine.mem_held (List.get?_mem hi) (sharedView_mem task current))
            (sharedView_key hkey) fun _ _ hx => doCompleteExecuteExecutionTx_coverStep hx
              (fun r hr' hv he => hwait ((hsnap.statuses r hr' hv).1 ▸ he)) _
        · exact .ofFailure hc hr (.inr hi) h
    · cases h
  | localQueueReturned i =>
    -- consuming a message leaves the store as it was and finishes the message task
    simp only [step] at h
    split at h
    · rename_i task hi
      have ht := Engine.mem_held (List.get?_mem hi) (List.mem_singleton_self task)
      have hlq := hc.lqCalls task (List.get?_mem hi)
      split at h <;> cases h
      · refine ⟨fun _ => False, _, ?_, HeldStep.finish _ i cfg ht _,
          fun _ hx => .inl ((finishTask_done? hx).1 ▸ hlq)⟩
        rw [commitResult_store, processLocalQueueMessage_snd]
        exact .refl _ _
      · exact .stay rfl (.restart e e)
    · cases h
  | dbFailure i =>
    -- a call that cannot reach the database gives its task back
    simp only [step] at h
    split at h <;> cases h
    · next task current _ hi =>
      exact .giveBack i (Engine.mem_held (List.get?_mem hi) (sharedView_mem task current))
    · next task current _ hi =>
      exact .giveBack i (Engine.mem_held (List.get?_mem hi) (sharedView_mem task current))
    · next task hi =>
      exact .giveBack i (Engine.mem_held (List.get?_mem hi) (List.mem_singleton_self task))
  | send i =>
    -- a put-back moves the worker's task into the buffer
    simp only [step] at h
    split at h
    · split at h <;> cases h
      rename_i t hi _
      refine .stay rfl (.of_subset (fun x hx => ?_) (fun x hx => ?_) fun x hx => ?_)
      · rcases Engine.mem_held_iff.1 hx with hx | ⟨w, hw, hx⟩ | hx
        · rcases List.mem_append.1 hx with hx | hx
          · exact Engine.mem_held_iff.2 (.inl hx)
          · exact List.mem_singleton.1 hx ▸
              Engine.mem_held (List.get?_mem hi) (List.mem_singleton_self t)
        · rcases mem_setWorker hw with hw | rfl
          · exact Engine.mem_held hw hx
          · exact nomatch hx
        · exact Engine.mem_held_iff.2 (.inr (.inr hx))
      · exact (Engine.mem_finished_setWorker hx).resolve_right fun h => nomatch h
      · exact (mem_setWorker hx).resolve_right fun h => nomatch h
    · cases h
  | commit i =>
    -- a finished task moves from its worker to the commit channel
    simp only [step] at h
    split at h <;> cases h
    rename_i t hi
    refine .stay rfl (.of_subset (fun x hx => ?_) (fun x hx => ?_) fun x hx => ?_)
    · rcases Engine.mem_held_iff.1 hx with hx | ⟨w, hw, hx⟩ | hx
      · exact Engine.mem_held_iff.2 (.inl hx)
      · rcases mem_setWorker hw with hw | rfl
        · exact Engine.mem_held hw hx
        · exact nomatch hx
      · rcases List.mem_append.1 hx with hx | hx
        · exact Engine.mem_held_iff.2 (.inr (.inr hx))
        · exact List.mem_singleton.1 hx ▸
            Engine.mem_held (List.get?_mem hi) (List.mem_singleton_self t)
    · rcases Engine.mem_finished_iff.1 hx with hx | hx
      · rcases mem_setWorker hx with hx | hx
        · exact Engine.mem_finished_iff.2 (.inl hx)
        · exact nomatch hx
      · rcases List.mem_append.1 hx with hx | hx
        · exact Engine.mem_finished_iff.2 (.inr hx)
        · exact List.mem_singleton.1 hx ▸ Engine.mem_finished_iff.2 (.inl (List.get?_mem hi))
    · exact (mem_setWorker hx).resolve_right fun h => nomatch h
  | delete t =>
    -- the poller deletes a finished task from the table and the channel
    simp only [step] at h
    split at h <;> cases h
    rename_i ht
    refine .of_none (removeImmediateTask_coverStep _ (Engine.mem_finished_iff.2 (.inr ht)))
      (.of_subset (fun x hx => ?_) (fun x hx => ?_) fun _ h => h)
    · rcases Engine.mem_held_iff.1 hx with hx | hx | hx
      · exact Engine.mem_held_iff.2 (.inl hx)
      · exact Engine.mem_held_iff.2 (.inr (.inl hx))
      · exact Engine.mem_held_iff.2 (.inr (.inr (List.mem_of_mem_erase hx)))
    · exact Engine.mem_finished_iff.2
        ((Engine.mem_finished_iff.1 hx).imp_right List.mem_of_mem_erase)
  | tick =>
    -- the clock moves and nothing else
    cases h
    exact .stay rfl (.of_memory rfl rfl rfl)
  | restart =>
    -- a crash drops everything held in memory
    cases h
    exact .stay rfl (.restart e e)

/-- A step of that shape keeps the invariant. -/
theorem CoverInv.of_shape {e e' : Engine} (hc : CoverInv e) (hq : TaskTableInv e.store)
    (hg : TaskGrowth e.store e'.store) (ht : TimerInv e'.store) (h : CoverShape e e') :
    CoverInv e' := by
  obtain ⟨own, n, hs, hm, hn⟩ := h
  have hcopy : ∀ t ∈ e'.held,
      t.taskSequence < e.store.nextImmediateTaskSequence ∧ Agrees e.store t := fun t ht => by
    obtain ⟨t₀, h₀, hcp⟩ := hm.held t ht
    exact hc.copy hq h₀ hcp.sameAs
  refine ⟨fun t ht => (hcopy t ht).1.trans_le hg.next, fun t ht u hu h₁ h₂ => ?_,
    fun t ht => (hm.lqCalls t ht).elim (hc.lqCalls t) id, ht,
    hs.covered hc.covered fun t ht => ⟨(hcopy t (Engine.held_of_finished ht)).1, ?_⟩⟩
  · rcases hg.fresh u hu with hu | hle
    · exact (hcopy t ht).2 u hu h₁ h₂
    · exact absurd h₂ ((hcopy t ht).1.trans_le hle).ne'
  · exact (hm.finished t ht).imp_right fun hnt =>
      ⟨(hcopy t (Engine.held_of_finished ht)).2, hn t hnt⟩

theorem step_coverInv {cfg : ProcessorConfig} {e e' : Engine} {a : Action} (hq : QueueInv e)
    (hr : RowsInv e) (hc : CoverInv e) (h : step cfg e a = some e') : CoverInv e' :=
  hc.of_shape hq.table (transition_taskGrowth (step_transition h))
    (transition_timerInv hc.timers (step_transition h)) (step_coverShape hq hr hc h)

theorem reachable_coverInv {cfg : ProcessorConfig} {e : Engine} (hr : Reachable cfg e) :
    CoverInv e := by
  induction hr with
  | init now =>
    have hw : ∀ w ∈ (Engine.init cfg now).workers, w = .idle := fun _ hw =>
      (List.mem_replicate.1 hw).2
    have hn := Engine.not_mem_held_of_idle rfl hw rfl
    exact ⟨fun t ht => absurd ht (hn t), fun t ht => absurd ht (hn t),
      fun t ht => (nomatch hw _ ht), ⟨fun _ h => (nomatch h), fun _ h => (nomatch h)⟩,
      fun _ _ h => (nomatch h)⟩
  | step _ hre hs ih => exact step_coverInv (reachable_queueInv hre) (reachable_rowsInv hre) ih hs

/-- In every reachable state, a task the engine holds in memory (buffered, at a worker, or on
    the commit channel) carries a sequence below the store's counter, and every stored immediate
    task of its shard and sequence is a copy of it, of the same state execution and type: the
    poller's delete by shard and sequence removes only copies of the task a worker finished. -/
theorem held_tasks_match_stored_tasks {cfg : ProcessorConfig} {e : Engine}
    (hr : Reachable cfg e) {t : ImmediateTaskRow} (ht : t ∈ e.held) :
    t.taskSequence < e.store.nextImmediateTaskSequence ∧
      ∀ u ∈ e.store.immediateTasks, u.shardId = t.shardId → u.taskSequence = t.taskSequence →
        u.key = t.key ∧ u.taskType = t.taskType :=
  ⟨(reachable_coverInv hr).below t ht, (reachable_coverInv hr).agree t ht⟩

theorem taken_task_matches_stored_task :
    ∃ e, run exampleConfig (Engine.init exampleConfig 0) exampleStartRun = some e ∧
      (⟨0, 0, .minted 0, "S", 1, .waitUntil, {}⟩ : ImmediateTaskRow) ∈ e.held ∧
      0 < e.store.nextImmediateTaskSequence ∧
      ∀ u ∈ e.store.immediateTasks, u.shardId = 0 → u.taskSequence = 0 →
        u.key = ⟨.minted 0, "S", 1⟩ ∧ u.taskType = .waitUntil :=
  ⟨_, rfl, .head _, held_tasks_match_stored_tasks
    (@reachable_of_run exampleConfig _ _ (.init 0) exampleStartRun rfl) (.head _)⟩

end Xdb
