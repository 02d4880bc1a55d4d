import Xdb.Theory.DecisionTable
import Mathlib.Data.List.Nodup

/-!
# The Task Tables Under Every Transaction

What each transaction does to the immediate-task and timer-task tables, said once, so that
the engine's invariants about tasks never unfold a transaction again.

The immediate-task table takes its sequences from one counter. A transaction either keeps a
task or deletes it, and every task it adds carries a sequence at or above the counter it
started from (`TaskGrowth`): `InsertImmediateTask` and the publish loop draw the next value,
and the backoff and the poller's delete only filter. So a sequence below the counter can
never come back, which is what lets a task held in memory be told apart from every task a
later transaction adds.

The timer-task table changes in two places only: a backoff appends under the next timer
sequence, and a due timer leaves. Its sequences stay below their counter and each names one
state execution (`TimerInv`), so the timer a firing removes is the one it converts.

## Main definitions

* `TaskGrowth`: The immediate-task table grows under fresh sequences.
* `Store.timerTables`: The timer-task table and its counter.
* `TimerInv`: Timer sequences lie below the counter and name one state execution each.

## Theorems

* `transition_taskGrowth`: Every transaction keeps or deletes tasks and adds fresh ones.
* `transition_timerInv`: Every transaction keeps `TimerInv`.
* `TaskTableInv.eq_of_taskSequence`: A sequence names one task of the table.
-/

namespace Xdb

/-! ### The immediate-task table -/

/-- The immediate-task table after a transaction: the counter does not go down, and every
    task was there before or carries a sequence at or above the old counter. -/
structure TaskGrowth (s s' : Store) : Prop where
  next : s.nextImmediateTaskSequence ≤ s'.nextImmediateTaskSequence
  fresh : ∀ u ∈ s'.immediateTasks,
    u ∈ s.immediateTasks ∨ s.nextImmediateTaskSequence ≤ u.taskSequence

namespace TaskGrowth

theorem refl (s : Store) : TaskGrowth s s := ⟨le_rfl, fun _ hu => .inl hu⟩

/-- The table and its counter unchanged. -/
theorem of_eq {s s' : Store} (he : s'.immediateTasks = s.immediateTasks)
    (hn : s'.nextImmediateTaskSequence = s.nextImmediateTaskSequence) : TaskGrowth s s' :=
  ⟨hn.ge, fun _ hu => .inl (he ▸ hu)⟩

theorem trans {s₁ s₂ s₃ : Store} (h₁ : TaskGrowth s₁ s₂) (h₂ : TaskGrowth s₂ s₃) :
    TaskGrowth s₁ s₃ :=
  ⟨h₁.next.trans h₂.next, fun u hu =>
    (h₂.fresh u hu).elim (h₁.fresh u) fun hle => .inr (h₁.next.trans hle)⟩

/-- Tasks appended at or above the counter. -/
theorem append {s s' : Store} (ts : List ImmediateTaskRow)
    (he : s'.immediateTasks = s.immediateTasks ++ ts)
    (hts : ∀ t ∈ ts, s.nextImmediateTaskSequence ≤ t.taskSequence)
    (hn : s.nextImmediateTaskSequence ≤ s'.nextImmediateTaskSequence) : TaskGrowth s s' :=
  ⟨hn, fun u hu => (List.mem_append.1 (he ▸ hu)).imp_right (hts u)⟩

end TaskGrowth

/-- A sequence names one task of a table in sequence order. -/
theorem TaskTableInv.eq_of_taskSequence {s : Store} (h : TaskTableInv s) {a b : ImmediateTaskRow}
    (ha : a ∈ s.immediateTasks) (hb : b ∈ s.immediateTasks)
    (hseq : a.taskSequence = b.taskSequence) : a = b :=
  List.inj_on_of_nodup_map ((List.pairwise_map.2 h.sorted).imp Nat.ne_of_lt) ha hb hseq

theorem appendImmediateTask_taskGrowth (s : Store) (shardId : Nat) (id : Uuid) (stateId : String)
    (seq : Nat) (taskType : ImmediateTaskType) (info : ImmediateTaskInfoJson) :
    TaskGrowth s (s.appendImmediateTask shardId id stateId seq taskType info) :=
  .append [_] rfl (by simp [Store.appendImmediateTask]) (Nat.le_succ _)

theorem conditionalUpdate_taskGrowth {s s' : Store} {k : AsyncStateExecutionKey} {v : Nat}
    {w : StatusWrite} {f : Option StateExecutionFailureJson}
    (h : s.conditionalUpdate k v w f = .ok s') : TaskGrowth s s' := by
  obtain ⟨_, _, _, rfl⟩ := Store.conditionalUpdate_eq_ok h
  exact .of_eq rfl rfl

theorem publishToLocalQueue_taskGrowth {s s' : Store} {pid : Uuid} {ms : List LocalQueueMessage}
    (h : publishToLocalQueue s pid ms = .ok s') : TaskGrowth s s' := by
  obtain ⟨rows, n, -, rfl⟩ := publishToLocalQueue_eq_ok h
  exact .append _ rfl (fun t ht => (localQueueTasks_seq pid _ rows t ht).1) (Nat.le_add_right _ _)

theorem StartsStates.taskGrowth {s s' : Store} (h : StartsStates s s') : TaskGrowth s s' := by
  obtain ⟨ts, he, -, hts⟩ := h.tasks
  exact .append ts he (fun t ht => (hts t ht).1) h.next

theorem ProcessClose.write_taskGrowth (c : ProcessClose) (s : Store) (pid : Uuid)
    (p : ProcessExecutionRow) : TaskGrowth s (c.write s pid p) := by
  unfold ProcessClose.write
  split <;> exact .of_eq rfl rfl

theorem removeImmediateTask_taskGrowth (s : Store) (shardId seq : Nat) :
    TaskGrowth s (s.removeImmediateTask shardId seq) :=
  ⟨le_rfl, fun _ hu => .inl (List.mem_of_mem_filter hu)⟩

theorem processWaitUntilExecution_taskGrowth (s : Store)
    (request : ProcessWaitUntilExecutionRequest) :
    TaskGrowth s (processWaitUntilExecution s request).2 := by
  unfold processWaitUntilExecution commitOrRollback
  split
  · obtain ⟨s₁, h₁, h₂⟩ := doProcessWaitUntilExecutionTx_eq_ok ‹_›
    refine (conditionalUpdate_taskGrowth h₁).trans (.trans ?_ (publishToLocalQueue_taskGrowth h₂))
    split
    · exact appendImmediateTask_taskGrowth ..
    · exact .refl s₁
  · exact .refl s

theorem completeExecuteExecution_taskGrowth (s : Store)
    (request : CompleteExecuteExecutionRequest) :
    TaskGrowth s (completeExecuteExecution s request).2 := by
  unfold completeExecuteExecution commitOrRollback
  split
  · obtain ⟨p, s₁, m, m', s₂, -, h₁, -, h₂, h₃⟩ := doCompleteExecuteExecutionTx_eq_ok ‹_›
    exact (conditionalUpdate_taskGrowth h₁).trans ((startNextStates_eq_ok h₂).2.taskGrowth.trans
      ((ProcessClose.write_taskGrowth ..).trans (publishToLocalQueue_taskGrowth h₃)))
  · exact .refl s

theorem backoffImmediateTask_taskGrowth (s : Store) (request : BackoffImmediateTaskRequest) :
    TaskGrowth s (backoffImmediateTask s request).2 := by
  unfold backoffImmediateTask
  split
  · obtain ⟨s₁, h₁, rfl⟩ := doBackoffImmediateTaskTx_eq_ok ‹_›
    exact (conditionalUpdate_taskGrowth h₁).trans
      ((removeImmediateTask_taskGrowth s₁ _ _).trans (.of_eq rfl rfl))
  · exact .refl s

theorem startProcess_taskGrowth (s : Store) (request : ProcessExecutionStartRequest) (now : Int) :
    TaskGrowth s (startProcess s request now).2 := by
  rcases startProcess_snd s request now with he | ⟨id, hs⟩
  · rw [he]
    exact .refl s
  obtain ⟨-, s₁, s₂, h₁, h₂, h₃⟩ := doStartProcessTx_eq_started hs
  obtain ⟨-, rfl⟩ := Store.insertLatestProcessExecution_eq_ok h₁
  rw [(Store.insertProcessExecution_eq_ok h₃).2]
  rcases insertStartState_eq_ok h₂ with ⟨-, rfl⟩ | ⟨sid, -, -, rfl⟩
  · exact .of_eq rfl rfl
  · exact .append [_] rfl (fun t ht => List.mem_singleton.1 ht ▸ le_rfl) (Nat.le_succ _)

theorem convertTimerTaskToImmediateTask_taskGrowth (s : Store) (t : TimerTaskRow) :
    TaskGrowth s (convertTimerTaskToImmediateTask s t) :=
  .append [_] rfl (by simp) (Nat.le_succ _)

/-- Every transaction keeps or deletes the tasks there were and adds tasks under fresh
    sequences. -/
theorem transition_taskGrowth {e : Engine} {s' : Store} (h : Transition e s') :
    TaskGrowth e.store s' := by
  cases h with
  | stay => exact .refl _
  | startProcess request => exact startProcess_taskGrowth ..
  | fireTimer t _ => exact convertTimerTaskToImmediateTask_taskGrowth ..
  | waitUntil => exact processWaitUntilExecution_taskGrowth ..
  | execute => exact completeExecuteExecution_taskGrowth ..
  | backoff => exact backoffImmediateTask_taskGrowth ..
  | delete t _ => exact removeImmediateTask_taskGrowth ..

/-! ### The timer-task table -/

/-- The timer-task table and the counter it draws sequences from. -/
def Store.timerTables (s : Store) : List TimerTaskRow × Nat :=
  (s.timerTasks, s.nextTimerTaskSequence)

/-- Timer sequences lie below the counter, and each names one state execution. -/
structure TimerInv (s : Store) : Prop where
  below : ∀ t ∈ s.timerTasks, t.taskSequence < s.nextTimerTaskSequence
  agree : ∀ a ∈ s.timerTasks, ∀ b ∈ s.timerTasks, a.taskSequence = b.taskSequence →
    a.key = b.key

theorem TimerInv.of_timerTables {s s' : Store} (h : TimerInv s)
    (he : s'.timerTables = s.timerTables) : TimerInv s' := by
  simp only [Store.timerTables, Prod.mk.injEq] at he
  obtain ⟨h₁, h₂⟩ := he
  exact ⟨h₁ ▸ h₂ ▸ h.below, h₁ ▸ h.agree⟩

/-- One timer under the next sequence. -/
theorem TimerInv.appendTimerTask {s : Store} (h : TimerInv s) (shardId : Nat) (fireTime : Int)
    (id : Uuid) (stateId : String) (seq : Nat) (taskType : ImmediateTaskType)
    (info : ImmediateTaskInfoJson) :
    TimerInv (s.appendTimerTask shardId fireTime id stateId seq taskType info) := by
  refine ⟨fun t ht => ?_, fun a ha b hb hab => ?_⟩ <;>
    simp only [Store.appendTimerTask, List.mem_append, List.mem_singleton] at *
  · rcases ht with ht | rfl
    · exact Nat.lt_succ_of_lt (h.below t ht)
    · exact Nat.lt_succ_self _
  · rcases ha with ha | rfl <;> rcases hb with hb | rfl
    · exact h.agree a ha b hb hab
    · exact absurd hab (h.below a ha).ne
    · exact absurd hab.symm (h.below b hb).ne
    · rfl

theorem conditionalUpdate_timerTables {s s' : Store} {k : AsyncStateExecutionKey} {v : Nat}
    {w : StatusWrite} {f : Option StateExecutionFailureJson}
    (h : s.conditionalUpdate k v w f = .ok s') : s'.timerTables = s.timerTables := by
  obtain ⟨_, _, _, rfl⟩ := Store.conditionalUpdate_eq_ok h
  rfl

theorem publishToLocalQueue_timerTables {s s' : Store} {pid : Uuid} {ms : List LocalQueueMessage}
    (h : publishToLocalQueue s pid ms = .ok s') : s'.timerTables = s.timerTables := by
  obtain ⟨_, _, -, rfl⟩ := publishToLocalQueue_eq_ok h
  rfl

theorem startNextStates_timerTables {pid : Uuid} {info : AsyncStateExecutionInfoJson}
    {shardId : Nat} : ∀ {nexts : List StateMovement} {m m' : StateExecutionSequenceMaps}
      {s s' : Store}, startNextStates s pid info shardId nexts m = .ok (m', s') →
        s'.timerTables = s.timerTables
  | [], _, _, _, _, h => by
    cases h
    rfl
  | _ :: _, _, _, _, _, h => by
    simp only [startNextStates, bind_eq_ok] at h
    obtain ⟨s₁, h₁, s₂, h₂, h⟩ := h
    obtain ⟨-, rfl⟩ := insertAsyncStateExecution_eq_ok h₁
    cases h₂
    rw [startNextStates_timerTables h]
    rfl

theorem ProcessClose.write_timerTables (c : ProcessClose) (s : Store) (pid : Uuid)
    (p : ProcessExecutionRow) : (c.write s pid p).timerTables = s.timerTables := by
  unfold ProcessClose.write
  split <;> rfl

theorem processWaitUntilExecution_timerTables (s : Store)
    (request : ProcessWaitUntilExecutionRequest) :
    (processWaitUntilExecution s request).2.timerTables = s.timerTables := by
  unfold processWaitUntilExecution commitOrRollback
  split
  · obtain ⟨s₁, h₁, h₂⟩ := doProcessWaitUntilExecutionTx_eq_ok ‹_›
    rw [publishToLocalQueue_timerTables h₂, ← conditionalUpdate_timerTables h₁]
    split <;> rfl
  · rfl

theorem completeExecuteExecution_timerTables (s : Store)
    (request : CompleteExecuteExecutionRequest) :
    (completeExecuteExecution s request).2.timerTables = s.timerTables := by
  unfold completeExecuteExecution commitOrRollback
  split
  · obtain ⟨p, s₁, m, m', s₂, -, h₁, -, h₂, h₃⟩ := doCompleteExecuteExecutionTx_eq_ok ‹_›
    rw [publishToLocalQueue_timerTables h₃, ProcessClose.write_timerTables,
      startNextStates_timerTables h₂, conditionalUpdate_timerTables h₁]
  · rfl

theorem startProcess_timerTables (s : Store) (request : ProcessExecutionStartRequest) (now : Int) :
    (startProcess s request now).2.timerTables = s.timerTables := by
  rcases startProcess_snd s request now with he | ⟨id, hs⟩
  · rw [he]
  obtain ⟨-, s₁, s₂, h₁, h₂, h₃⟩ := doStartProcessTx_eq_started hs
  obtain ⟨-, rfl⟩ := Store.insertLatestProcessExecution_eq_ok h₁
  rw [(Store.insertProcessExecution_eq_ok h₃).2]
  rcases insertStartState_eq_ok h₂ with ⟨-, rfl⟩ | ⟨sid, -, -, rfl⟩ <;> rfl

theorem backoffImmediateTask_timerInv {s : Store} (h : TimerInv s)
    (request : BackoffImmediateTaskRequest) : TimerInv (backoffImmediateTask s request).2 := by
  unfold backoffImmediateTask
  split
  · obtain ⟨s₁, h₁, rfl⟩ := doBackoffImmediateTaskTx_eq_ok ‹_›
    have h₂ : TimerInv (s₁.removeImmediateTask request.task.shardId request.task.taskSequence) :=
      h.of_timerTables (by rw [← conditionalUpdate_timerTables h₁]; rfl)
    exact h₂.appendTimerTask ..
  · exact h

theorem convertTimerTaskToImmediateTask_timerInv {s : Store} (h : TimerInv s) (t : TimerTaskRow) :
    TimerInv (convertTimerTaskToImmediateTask s t) :=
  ⟨fun u hu => h.below u (List.mem_of_mem_filter hu),
    fun a ha b hb => h.agree a (List.mem_of_mem_filter ha) b (List.mem_of_mem_filter hb)⟩

/-- Every transaction keeps `TimerInv`. -/
theorem transition_timerInv {e : Engine} {s' : Store} (hi : TimerInv e.store)
    (h : Transition e s') : TimerInv s' := by
  cases h with
  | stay => exact hi
  | startProcess request => exact hi.of_timerTables (startProcess_timerTables ..)
  | fireTimer t _ => exact convertTimerTaskToImmediateTask_timerInv hi t
  | waitUntil => exact hi.of_timerTables (processWaitUntilExecution_timerTables ..)
  | execute => exact hi.of_timerTables (completeExecuteExecution_timerTables ..)
  | backoff request => exact backoffImmediateTask_timerInv hi request
  | delete t _ => exact hi.of_timerTables rfl

end Xdb
