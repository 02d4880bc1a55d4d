import Xdb.Theory.Coverage

/-!
# The Attempt a Worker Call Reports

Every wait-until or execute call sends the worker an `xdbapi.Context` whose `Attempt` and
`FirstAttemptTimestamp` come from the task's backoff info (`createApiContext`). The processor
creates that info at the first call, with no completed attempt and the clock's time, and
counts the call into it before sending. A backoff stores the counted info in the timer task,
and a firing hands it back to the immediate table, so a retried call counts on from the
attempts before it.

This module shows that the context is always there and always sensible: in every reachable
state, a worker in a call reports the state execution of its task, an attempt one above the
count its task carried (so at least one, and at least two for a task that carried a count),
and a first-attempt time that its task carried over or that is the time of the call, never
after the clock (`worker_calls_report_attempts`). The backoff info is dereferenced without a
nil check, so the first fact is also what keeps `createApiContext` from panicking.

The theorem is stated for the retry path as the code writes it. As the sources stand, no
state row carries a config (`StateConfig`), so a failed call panics in `checkRetry` before
any backoff, and a task that reaches a call has carried no count so far.

The invariant behind it speaks about every copy of a task at once (`AttemptInv`): the stored
immediate and timer tasks, and the tasks the engine holds in memory. The transactions add
tasks without backoff info, or move a timer's info to the immediate table, or store the info
of the call that failed (`transition_attemptsOk`); a step copies the tasks it holds, or counts
one more attempt at the clock (`HeldStep`); and the clock only moves forward
(`MemoryStep`).

## Main definitions

* `ImmediateTaskInfoJson.AttemptsOk`: A task's backoff info counts an attempt begun by a time.
* `Store.AttemptsOk`: Every stored task's backoff info does.
* `WorkerState.CountsAttempt`: A worker in a call holds its task with one more attempt.
* `AttemptInv`: The engine invariant.

## Theorems

* `transition_attemptsOk`: Every transaction keeps the stored backoff infos sensible.
* `reachable_attemptInv`: Every reachable state keeps `AttemptInv`.
* `worker_calls_report_attempts`: Every worker call reports its task's next attempt.
-/

namespace Xdb

/-! ### Backoff info -/

/-- A task's backoff info, if it has one, counts at least one attempt, begun by `now`. -/
def ImmediateTaskInfoJson.AttemptsOk (now : Int) (i : ImmediateTaskInfoJson) : Prop :=
  ∀ b ∈ i.workerTaskBackoffInfo, 1 ≤ b.completedAttempts ∧ b.firstAttemptTimestampSeconds ≤ now

namespace ImmediateTaskInfoJson.AttemptsOk

theorem of_none {now : Int} {i : ImmediateTaskInfoJson} (h : i.workerTaskBackoffInfo = none) :
    i.AttemptsOk now := fun b hb => by
  rw [h] at hb
  cases hb

theorem mono {now now' : Int} {i : ImmediateTaskInfoJson} (h : i.AttemptsOk now)
    (hle : now ≤ now') : i.AttemptsOk now' :=
  fun b hb => (h b hb).imp_right (·.trans hle)

end ImmediateTaskInfoJson.AttemptsOk

theorem ImmediateTaskRow.CopyAt.attemptsOk {t₀ t : ImmediateTaskRow} {now : Int}
    (hc : t₀.CopyAt t now) (h : t₀.info.AttemptsOk now) : t.info.AttemptsOk now := by
  rcases hc with rfl | rfl
  · exact h
  intro b hb
  rw [withAttempt_workerTaskBackoffInfo, Option.mem_def, Option.some.injEq] at hb
  subst hb
  cases hb₀ : t₀.info.workerTaskBackoffInfo with
  | none => simp
  | some b₀ =>
    obtain ⟨h₁, h₂⟩ := h b₀ hb₀
    exact ⟨by simp only [Option.map_some', Option.getD_some]; omega, h₂⟩

/-- The context a call sends for a task it counted at `now`. -/
theorem createApiContext_withAttempt (prep : PrepareStateExecutionResponse)
    (t : ImmediateTaskRow) (now : Int) :
    createApiContext prep (withAttempt t now) =
      some ⟨prep.info.processId, t.processExecutionId, (t.stateId, t.stateIdSequence),
        (t.info.workerTaskBackoffInfo.map (·.completedAttempts)).getD 0 + 1,
        (t.info.workerTaskBackoffInfo.map (·.firstAttemptTimestampSeconds)).getD now⟩ := by
  rw [createApiContext, withAttempt_workerTaskBackoffInfo]
  rfl

/-! ### The stored tasks -/

/-- Every stored immediate and timer task carries a backoff info that `AttemptsOk` at `now`. -/
structure Store.AttemptsOk (now : Int) (s : Store) : Prop where
  tasks : ∀ t ∈ s.immediateTasks, t.info.AttemptsOk now
  timers : ∀ t ∈ s.timerTasks, t.info.AttemptsOk now

theorem Store.AttemptsOk.mono {now now' : Int} {s : Store} (h : s.AttemptsOk now)
    (hle : now ≤ now') : s.AttemptsOk now' :=
  ⟨fun t ht => (h.tasks t ht).mono hle, fun t ht => (h.timers t ht).mono hle⟩

/-- The immediate tasks after a transaction were there before or carry no backoff info. -/
structure PlainGrowth (s s' : Store) : Prop where
  plain : ∀ t ∈ s'.immediateTasks, t ∈ s.immediateTasks ∨ t.info.workerTaskBackoffInfo = none

namespace PlainGrowth

/-- The immediate-task table unchanged. -/
theorem of_eq {s s' : Store} (he : s'.immediateTasks = s.immediateTasks) : PlainGrowth s s' :=
  ⟨fun _ h => .inl (he ▸ h)⟩

theorem trans {s₁ s₂ s₃ : Store} (h₁ : PlainGrowth s₁ s₂) (h₂ : PlainGrowth s₂ s₃) :
    PlainGrowth s₁ s₃ :=
  ⟨fun t ht => (h₂.plain t ht).elim (h₁.plain t) .inr⟩

/-- Tasks without backoff info appended. -/
theorem append {s s' : Store} {ts : List ImmediateTaskRow}
    (he : s'.immediateTasks = s.immediateTasks ++ ts)
    (hts : ∀ t ∈ ts, t.info.workerTaskBackoffInfo = none) : PlainGrowth s s' :=
  ⟨fun t ht => (List.mem_append.1 (he ▸ ht)).imp_right (hts t)⟩

end PlainGrowth

/-- A transaction that adds only tasks without backoff info and keeps the timer table. -/
theorem Store.AttemptsOk.of_plain {now : Int} {s s' : Store} (h : s.AttemptsOk now)
    (hg : PlainGrowth s s') (ht : s'.timerTables = s.timerTables) : s'.AttemptsOk now := by
  simp only [Store.timerTables, Prod.mk.injEq] at ht
  exact ⟨fun t hm => (hg.plain t hm).elim (h.tasks t) .of_none, fun t hm => h.timers t (ht.1 ▸ hm)⟩

theorem localQueueTasks_backoffInfo (pid : Uuid) :
    ∀ (seq : Nat) (rows : List LocalQueueRow), ∀ t ∈ localQueueTasks pid seq rows,
      t.info.workerTaskBackoffInfo = none
  | _, [], _, h => nomatch h
  | seq, _ :: rows, t, h => by
    rcases List.mem_cons.1 h with rfl | h
    · rfl
    · exact localQueueTasks_backoffInfo pid (seq + 1) rows t h

theorem conditionalUpdate_plainGrowth {s s' : Store} {k : AsyncStateExecutionKey} {v : Nat}
    {w : StatusWrite} {f : Option StateExecutionFailureJson}
    (h : s.conditionalUpdate k v w f = .ok s') : PlainGrowth s s' := by
  obtain ⟨_, _, _, rfl⟩ := Store.conditionalUpdate_eq_ok h
  exact .of_eq rfl

theorem publishToLocalQueue_plainGrowth {s s' : Store} {pid : Uuid}
    {ms : List LocalQueueMessage} (h : publishToLocalQueue s pid ms = .ok s') :
    PlainGrowth s s' := by
  obtain ⟨rows, n, -, rfl⟩ := publishToLocalQueue_eq_ok h
  exact .append rfl (localQueueTasks_backoffInfo pid _ rows)

theorem appendImmediateTask_plainGrowth (s : Store) (shardId : Nat) (id : Uuid)
    (stateId : String) (seq : Nat) (taskType : ImmediateTaskType) :
    PlainGrowth s (s.appendImmediateTask shardId id stateId seq taskType {}) :=
  .append rfl fun _ ht => List.mem_singleton.1 ht ▸ rfl

theorem startNextStates_plainGrowth {pid : Uuid} {info : AsyncStateExecutionInfoJson}
    {shardId : Nat} : ∀ {nexts : List StateMovement} {m m' : StateExecutionSequenceMaps}
      {s s' : Store}, startNextStates s pid info shardId nexts m = .ok (m', s') →
        PlainGrowth s s'
  | [], _, _, _, _, h => by
    cases h
    exact .of_eq rfl
  | _ :: _, _, _, _, _, h => by
    simp only [startNextStates, bind_eq_ok] at h
    obtain ⟨s₁, h₁, s₂, h₂, h⟩ := h
    obtain ⟨-, rfl⟩ := insertAsyncStateExecution_eq_ok h₁
    cases h₂
    refine .trans ⟨?_⟩ (startNextStates_plainGrowth h)
    exact (appendImmediateTask_plainGrowth ..).plain

theorem ProcessClose.write_plainGrowth (c : ProcessClose) (s : Store) (pid : Uuid)
    (p : ProcessExecutionRow) : PlainGrowth s (c.write s pid p) := by
  unfold ProcessClose.write
  split <;> exact .of_eq rfl

theorem processWaitUntilExecution_plainGrowth (s : Store)
    (request : ProcessWaitUntilExecutionRequest) :
    PlainGrowth s (processWaitUntilExecution s request).2 := by
  unfold processWaitUntilExecution commitOrRollback
  split
  · obtain ⟨s₁, h₁, h₂⟩ := doProcessWaitUntilExecutionTx_eq_ok ‹_›
    refine (conditionalUpdate_plainGrowth h₁).trans (.trans ?_ (publishToLocalQueue_plainGrowth h₂))
    split
    · exact appendImmediateTask_plainGrowth ..
    · exact .of_eq rfl
  · exact .of_eq rfl

theorem completeExecuteExecution_plainGrowth (s : Store)
    (request : CompleteExecuteExecutionRequest) :
    PlainGrowth s (completeExecuteExecution s request).2 := by
  unfold completeExecuteExecution commitOrRollback
  split
  · obtain ⟨p, s₁, m, m', s₂, -, h₁, -, h₂, h₃⟩ := doCompleteExecuteExecutionTx_eq_ok ‹_›
    exact (conditionalUpdate_plainGrowth h₁).trans ((startNextStates_plainGrowth h₂).trans
      ((ProcessClose.write_plainGrowth ..).trans (publishToLocalQueue_plainGrowth h₃)))
  · exact .of_eq rfl

theorem startProcess_plainGrowth (s : Store) (request : ProcessExecutionStartRequest) (now : Int) :
    PlainGrowth s (startProcess s request now).2 := by
  rcases startProcess_snd s request now with he | ⟨id, hs⟩
  · exact .of_eq (by rw [he])
  obtain ⟨-, s₁, s₂, h₁, h₂, h₃⟩ := doStartProcessTx_eq_started hs
  obtain ⟨-, rfl⟩ := Store.insertLatestProcessExecution_eq_ok h₁
  rw [(Store.insertProcessExecution_eq_ok h₃).2]
  rcases insertStartState_eq_ok h₂ with ⟨-, rfl⟩ | ⟨sid, -, -, rfl⟩
  · exact .of_eq rfl
  · exact ⟨(appendImmediateTask_plainGrowth ..).plain⟩

/-- A committed backoff drops the task and stores the info it was given in a timer. -/
theorem backoffImmediateTask_attemptsOk {now : Int} {s : Store} (h : s.AttemptsOk now)
    (request : BackoffImmediateTaskRequest) (ht : request.task.info.AttemptsOk now) :
    (backoffImmediateTask s request).2.AttemptsOk now := by
  unfold backoffImmediateTask
  split
  · rename_i s' hb
    obtain ⟨seq, hτ⟩ := doBackoffImmediateTaskTx_timerTasks hb
    obtain ⟨s₁, h₁, rfl⟩ := doBackoffImmediateTaskTx_eq_ok hb
    obtain ⟨_, -, -, rfl⟩ := Store.conditionalUpdate_eq_ok h₁
    refine ⟨fun t hm => h.tasks t (List.mem_of_mem_filter hm), fun t hm => ?_⟩
    rcases List.mem_append.1 (hτ ▸ hm) with hm | hm
    · exact h.timers t hm
    · exact List.mem_singleton.1 hm ▸ ht
  · exact h

/-- Every transaction keeps the stored backoff infos sensible, given that the tasks the engine
    holds carry sensible ones. -/
theorem transition_attemptsOk {e : Engine} {s' : Store} (h : Transition e s')
    (hs : e.store.AttemptsOk e.now) (hh : ∀ t ∈ e.held, t.info.AttemptsOk e.now) :
    s'.AttemptsOk e.now := by
  cases h with
  | stay => exact hs
  | startProcess request =>
    exact hs.of_plain (startProcess_plainGrowth ..) (startProcess_timerTables ..)
  | fireTimer t ht =>
    -- the due timer task moves over with the attempt info it was filed with
    refine ⟨fun u hu => ?_, fun u hu => hs.timers u (List.mem_of_mem_filter hu)⟩
    rcases List.mem_append.1 hu with hu | hu
    · exact hs.tasks u hu
    · exact List.mem_singleton.1 hu ▸ hs.timers t ht
  | waitUntil =>
    exact hs.of_plain (processWaitUntilExecution_plainGrowth ..)
      (processWaitUntilExecution_timerTables ..)
  | execute =>
    exact hs.of_plain (completeExecuteExecution_plainGrowth ..)
      (completeExecuteExecution_timerTables ..)
  | backoff request hi _ hcur =>
    -- the task backed off is the one its worker holds
    refine backoffImmediateTask_attemptsOk hs request (hcur ▸ hh _ ?_)
    rcases hi with hi | hi <;>
      exact Engine.mem_held (List.get?_mem hi) (List.mem_cons_of_mem _ (List.mem_singleton_self _))
  | delete t _ => exact ⟨fun u hu => hs.tasks u (List.mem_of_mem_filter hu), hs.timers⟩

/-! ### The engine invariant -/

/-- A worker in a call holds its task as the call saw it: one more attempt at some clock. -/
def WorkerState.CountsAttempt : WorkerState → Prop
  | .waitUntilCall task current _ | .executeCall task current _ =>
    ∃ now, current = withAttempt task now
  | _ => True

/-- What the engine keeps about attempts: every stored task and every task held in memory
    carries a backoff info that `AttemptsOk` at the clock, and every worker in a call holds
    its task with one more attempt. -/
structure AttemptInv (e : Engine) : Prop where
  store : e.store.AttemptsOk e.now
  held : ∀ t ∈ e.held, t.info.AttemptsOk e.now
  calls : ∀ w ∈ e.workers, w.CountsAttempt

theorem step_attemptInv {cfg : ProcessorConfig} {e e' : Engine} {a : Action} (hq : QueueInv e)
    (hr : RowsInv e) (hc : CoverInv e) (hi : AttemptInv e) (h : step cfg e a = some e') :
    AttemptInv e' := by
  have hle := (step_memoryStep h).now
  obtain ⟨_, _, -, hm, -⟩ := step_coverShape hq hr hc h
  refine ⟨(transition_attemptsOk (step_transition h) hi.store hi.held).mono hle,
    fun t ht => ?_, fun w hw => ?_⟩
  · obtain ⟨t₀, h₀, hcp⟩ := hm.held t ht
    exact (hcp.attemptsOk (h₀.elim (hi.held t₀) (hi.store.tasks t₀))).mono hle
  · by_cases hcall : w.isCall = true
    · rcases step_worker_call h hw hcall with hw | ⟨-, task, dbUp, hb⟩
      · exact hi.calls w hw
      · obtain ⟨-, prep, -, ⟨rfl, -⟩ | ⟨rfl, -⟩⟩ := beginProcessImmediateTask_call hb hcall <;>
          exact ⟨_, rfl⟩
    · cases w <;> trivial

theorem reachable_attemptInv {cfg : ProcessorConfig} {e : Engine} (hr : Reachable cfg e) :
    AttemptInv e := by
  induction hr with
  | init now =>
    have hw : ∀ w ∈ (Engine.init cfg now).workers, w = .idle := fun _ hw =>
      (List.mem_replicate.1 hw).2
    have hn := Engine.not_mem_held_of_idle rfl hw rfl
    exact ⟨⟨fun _ h => (nomatch h), fun _ h => (nomatch h)⟩, fun t ht => absurd ht (hn t),
      fun w hw' => by rw [hw w hw']; trivial⟩
  | step _ hre hs ih =>
    exact step_attemptInv (reachable_queueInv hre) (reachable_rowsInv hre)
      (reachable_coverInv hre) ih hs

/-- In every reachable state, a worker in a wait-until or execute call sends a context: it
    names the state execution of the task it received, and reports a first-attempt time no
    later than the clock and an attempt one above the count its task carried. A task that
    carried no backoff info is at its first attempt; one that carried a count of at least one
    keeps its first-attempt time. -/
theorem worker_calls_report_attempts {cfg : ProcessorConfig} {e : Engine}
    (hr : Reachable cfg e) {task current : ImmediateTaskRow}
    {prep : PrepareStateExecutionResponse}
    (hw : WorkerState.waitUntilCall task current prep ∈ e.workers ∨
      WorkerState.executeCall task current prep ∈ e.workers) :
    ∃ ctx, createApiContext prep current = some ctx ∧
      ctx.processExecutionId = task.processExecutionId ∧
      ctx.stateExecutionId = (task.stateId, task.stateIdSequence) ∧
      ctx.firstAttemptTimestamp ≤ e.now ∧
      (task.info.workerTaskBackoffInfo = none ∧ ctx.attempt = 1 ∨
        ∃ b ∈ task.info.workerTaskBackoffInfo, 1 ≤ b.completedAttempts ∧
          ctx.attempt = b.completedAttempts + 1 ∧
          ctx.firstAttemptTimestamp = b.firstAttemptTimestampSeconds) := by
  have hi := reachable_attemptInv hr
  obtain ⟨w, hw', htasks, hcount⟩ : ∃ w ∈ e.workers, w.tasks = [task, current] ∧
      ∃ now, current = withAttempt task now := by
    rcases hw with hw | hw <;> exact ⟨_, hw, rfl, hi.calls _ hw⟩
  obtain ⟨now, rfl⟩ := hcount
  have htask := hi.held task (Engine.mem_held hw' (htasks ▸ List.mem_cons_self _ _))
  have hcur := hi.held _ (Engine.mem_held hw' (htasks ▸ List.mem_cons_of_mem _
    (List.mem_singleton_self _)))
  refine ⟨_, createApiContext_withAttempt prep task now, rfl, rfl,
    (hcur _ (withAttempt_workerTaskBackoffInfo task now)).2, ?_⟩
  cases hb : task.info.workerTaskBackoffInfo with
  | none => exact .inl ⟨rfl, by simp⟩
  | some b => exact .inr ⟨b, rfl, (htask b hb).1, by simp, by simp⟩

theorem started_call_reports_first_attempt :
    ∃ e, run exampleConfig (Engine.init exampleConfig 0) exampleStartRun = some e ∧
      ∃ current prep, WorkerState.waitUntilCall ⟨0, 0, .minted 0, "S", 1, .waitUntil, {}⟩
        current prep ∈ e.workers ∧
      ∃ ctx, createApiContext prep current = some ctx ∧ ctx.processExecutionId = .minted 0 ∧
        ctx.stateExecutionId = ("S", 1) ∧ ctx.firstAttemptTimestamp ≤ e.now ∧
        ctx.attempt = 1 := by
  refine ⟨_, rfl, _, _, List.mem_cons_self _ _, ?_⟩
  obtain ⟨ctx, hc, hp, hs, hf, ⟨-, ha⟩ | ⟨_, hb, -⟩⟩ := worker_calls_report_attempts
    (@reachable_of_run exampleConfig _ _ (.init 0) exampleStartRun rfl)
    (.inl (List.mem_cons_self _ _))
  · exact ⟨ctx, hc, hp, hs, hf, ha⟩
  · cases hb

end Xdb
