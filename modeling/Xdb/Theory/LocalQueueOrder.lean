import Xdb.Theory.StateRows

/-!
# The Order of Local-Queue Messages

`publishToLocalQueue` inserts, for each message in list order, its local-queue row and then a
`NewLocalQueueMessage` task naming it, and each task draws the next task sequence as it is
inserted. So the messages of one publish take increasing task sequences in the order they
are listed (`publish_orders_messages_by_task_sequence`).

Across transactions no order follows from the source: the database draws a sequence at the
INSERT and shows the row at the commit, so two transactions can commit in the other order
than their draws (`Theory.TaskCommits`). The engine model runs each transaction atomically
and draws at the commit; in it the immediate-task table stays in sequence order and its
message tasks follow the local-queue rows (`TaskTableInv`, kept by every transaction), which
is a fact of the atomic model that the engine invariants build on, not of the database.

Nor is the publish order the order of consumption. The processor runs one
`ProcessLocalQueueMessage` per task, on whichever worker took it, and two workers holding the
tasks of two messages of one queue commit in the order they finish
(`second_message_consumed_first`).

## Main definitions

* `ImmediateTaskRow.message?`: The message a task carries.
* `TaskTableInv`: The immediate-task table is sorted and its messages are published ones, in
  publish order.
* `consumedAlong`: The messages consumed along a run.

## Theorems

* `publish_orders_messages_by_task_sequence`: A publish appends one row and one task per
  message, in list order, under increasing sequences drawn from the counter.
* `transition_taskTableInv`: Every transaction keeps `TaskTableInv`.
* `reachable_queueInv`: Every reachable state keeps it.
-/

namespace Xdb

/-- The message a stored local-queue row holds: its process, queue and dedup id. -/
def LocalQueueRow.message (r : LocalQueueRow) : Uuid × String × Uuid :=
  (r.processExecutionId, r.queueName, r.dedupId)

/-- The message a `NewLocalQueueMessage` task carries; no other task carries one. -/
def ImmediateTaskRow.message? (t : ImmediateTaskRow) : Option (Uuid × String × Uuid) :=
  if t.taskType = .newLocalQueueMessage then
    t.info.localQueueMessageInfo.map fun m => (t.processExecutionId, m.queueName, m.dedupId)
  else none

theorem ImmediateTaskRow.message?_eq_none {t : ImmediateTaskRow}
    (h : t.taskType ≠ .newLocalQueueMessage) : t.message? = none := by
  simp [message?, h]

/-- The immediate-task table is in sequence order below the next sequence, its message tasks
    name published messages in publish order, and no timer task carries a message. -/
structure TaskTableInv (s : Store) : Prop where
  sorted : s.immediateTasks.Pairwise fun a b => a.taskSequence < b.taskSequence
  below : ∀ t ∈ s.immediateTasks, t.taskSequence < s.nextImmediateTaskSequence
  published : List.Sublist (s.immediateTasks.filterMap ImmediateTaskRow.message?)
    (s.localQueue.map LocalQueueRow.message)
  timers : ∀ t ∈ s.timerTasks, t.taskType ≠ .newLocalQueueMessage

/-- The task and local-queue tables of a store. -/
def Store.queueTables (s : Store) :
    List ImmediateTaskRow × Nat × List LocalQueueRow × List TimerTaskRow :=
  (s.immediateTasks, s.nextImmediateTaskSequence, s.localQueue, s.timerTasks)

/-! ### Three ways a table changes -/

theorem TaskTableInv.of_queueTables {s s' : Store} (h : TaskTableInv s)
    (he : s'.queueTables = s.queueTables) : TaskTableInv s' := by
  simp only [Store.queueTables, Prod.mk.injEq] at he
  obtain ⟨h₁, h₂, h₃, h₄⟩ := he
  exact ⟨h₁ ▸ h.sorted, h₁ ▸ h₂ ▸ h.below, h₁ ▸ h₃ ▸ h.published, h₄ ▸ h.timers⟩

/-- Tasks appended under fresh sequences, in order, and the rows of their messages. -/
theorem TaskTableInv.extend {s s' : Store} (h : TaskTableInv s) (ts : List ImmediateTaskRow)
    (rows : List LocalQueueRow) (htasks : s'.immediateTasks = s.immediateTasks ++ ts)
    (hsorted : ts.Pairwise fun a b => a.taskSequence < b.taskSequence)
    (hseq : ∀ t ∈ ts, s.nextImmediateTaskSequence ≤ t.taskSequence ∧
      t.taskSequence < s'.nextImmediateTaskSequence)
    (hnext : s.nextImmediateTaskSequence ≤ s'.nextImmediateTaskSequence)
    (hmsg : ts.filterMap ImmediateTaskRow.message? = rows.map LocalQueueRow.message)
    (hq : s'.localQueue = s.localQueue ++ rows)
    (htimers : ∀ t ∈ s'.timerTasks, t.taskType ≠ .newLocalQueueMessage) : TaskTableInv s' where
  sorted := htasks ▸ List.pairwise_append.2 ⟨h.sorted, hsorted, fun a ha b hb =>
    Nat.lt_of_lt_of_le (h.below a ha) (hseq b hb).1⟩
  below t ht := by
    rcases List.mem_append.1 (htasks ▸ ht) with ht | ht
    · exact Nat.lt_of_lt_of_le (h.below t ht) hnext
    · exact (hseq t ht).2
  published := by
    rw [htasks, hq, List.filterMap_append, hmsg, List.map_append]
    exact h.published.append (List.Sublist.refl _)
  timers := htimers

/-- Tasks deleted. -/
theorem TaskTableInv.filter {s s' : Store} (h : TaskTableInv s) (p : ImmediateTaskRow → Bool)
    (htasks : s'.immediateTasks = s.immediateTasks.filter p)
    (hnext : s'.nextImmediateTaskSequence = s.nextImmediateTaskSequence)
    (hq : s'.localQueue = s.localQueue)
    (htimers : ∀ t ∈ s'.timerTasks, t.taskType ≠ .newLocalQueueMessage) : TaskTableInv s' where
  sorted := htasks ▸ h.sorted.sublist (List.filter_sublist _)
  below t ht := hnext ▸ h.below t (List.mem_of_mem_filter (htasks ▸ ht))
  published := htasks ▸ hq ▸ ((List.filter_sublist _).filterMap _).trans h.published
  timers := htimers

/-- One task that carries no message, under the next sequence. -/
theorem appendImmediateTask_taskTableInv {s : Store} (h : TaskTableInv s) {shardId : Nat}
    {id : Uuid} {stateId : String} {seq : Nat} {taskType : ImmediateTaskType}
    {info : ImmediateTaskInfoJson} (ht : taskType ≠ .newLocalQueueMessage) :
    TaskTableInv (s.appendImmediateTask shardId id stateId seq taskType info) :=
  h.extend [_] [] rfl (List.pairwise_singleton _ _) (by simp [Store.appendImmediateTask])
    (Nat.le_succ _) (by simp [ImmediateTaskRow.message?, ht]) (List.append_nil _).symm h.timers

/-! ### Each transaction keeps the table invariant -/

theorem localQueueTasks_seq (pid : Uuid) : ∀ (seq : Nat) (rows : List LocalQueueRow),
    ∀ t ∈ localQueueTasks pid seq rows, seq ≤ t.taskSequence ∧ t.taskSequence < seq + rows.length
  | _, [] => by simp [localQueueTasks]
  | seq, _ :: rs => by
    intro t ht
    simp only [localQueueTasks, List.mem_cons] at ht
    rcases ht with rfl | ht
    · simp [localQueueTask]
    · have := localQueueTasks_seq pid (seq + 1) rs t ht
      simp only [List.length_cons]
      omega

theorem localQueueTasks_sorted (pid : Uuid) : ∀ (seq : Nat) (rows : List LocalQueueRow),
    (localQueueTasks pid seq rows).Pairwise fun a b => a.taskSequence < b.taskSequence
  | _, [] => .nil
  | seq, _ :: rs => List.pairwise_cons.2 ⟨fun t ht =>
      Nat.lt_of_lt_of_le (Nat.lt_succ_self seq) (localQueueTasks_seq pid (seq + 1) rs t ht).1,
    localQueueTasks_sorted pid (seq + 1) rs⟩

theorem filterMap_localQueueTasks {pid : Uuid} : ∀ {seq : Nat} {rows : List LocalQueueRow},
    (∀ r ∈ rows, r.processExecutionId = pid) →
    (localQueueTasks pid seq rows).filterMap ImmediateTaskRow.message? =
      rows.map LocalQueueRow.message
  | _, [], _ => rfl
  | _, r :: rs, h => by
    rw [localQueueTasks, List.filterMap_cons, List.map_cons,
      filterMap_localQueueTasks fun r' hr' => h r' (List.mem_cons_of_mem _ hr')]
    simp [ImmediateTaskRow.message?, localQueueTask, LocalQueueRow.message,
      h r (List.mem_cons_self _ _)]

theorem PublishedAs.processExecutionId {pid : Uuid} {rows : List LocalQueueRow}
    {ms : List LocalQueueMessage} (h : List.Forall₂ (PublishedAs pid) rows ms) :
    ∀ r ∈ rows, r.processExecutionId = pid := by
  induction h with
  | nil => simp
  | cons hr _ ih => exact List.forall_mem_cons.2 ⟨hr.1, ih⟩

theorem map_message?_localQueueTasks {pid : Uuid} : ∀ {seq : Nat} {rows : List LocalQueueRow},
    (∀ r ∈ rows, r.processExecutionId = pid) →
    (localQueueTasks pid seq rows).map ImmediateTaskRow.message? =
      rows.map (some ∘ LocalQueueRow.message)
  | _, [], _ => rfl
  | _, r :: rs, h => by
    rw [localQueueTasks, List.map_cons, List.map_cons,
      map_message?_localQueueTasks fun r' hr' => h r' (List.mem_cons_of_mem _ hr')]
    simp [ImmediateTaskRow.message?, localQueueTask, LocalQueueRow.message,
      h r (List.mem_cons_self _ _)]

/-- A publish appends, in list order, one local-queue row per message and one
    `NewLocalQueueMessage` task naming that row, and the tasks take increasing sequences
    drawn from the counter: the message listed first has the smaller task sequence. -/
theorem publish_orders_messages_by_task_sequence {s s' : Store} {pid : Uuid}
    {ms : List LocalQueueMessage} (h : publishToLocalQueue s pid ms = .ok s') :
    ∃ rows ts, List.Forall₂ (PublishedAs pid) rows ms ∧
      s'.localQueue = s.localQueue ++ rows ∧ s'.immediateTasks = s.immediateTasks ++ ts ∧
      ts.map ImmediateTaskRow.message? = rows.map (some ∘ LocalQueueRow.message) ∧
      ts.Pairwise (fun a b => a.taskSequence < b.taskSequence) ∧
      ∀ t ∈ ts, s.nextImmediateTaskSequence ≤ t.taskSequence ∧
        t.taskSequence < s'.nextImmediateTaskSequence := by
  obtain ⟨rows, n, hrows, rfl⟩ := publishToLocalQueue_eq_ok h
  refine ⟨rows, _, hrows, rfl, rfl,
    map_message?_localQueueTasks (PublishedAs.processExecutionId hrows),
    localQueueTasks_sorted _ _ _, fun t ht => ?_⟩
  rw [← hrows.length_eq]
  exact localQueueTasks_seq pid _ rows t ht

/-- After the start, a publish of two messages to queue "q" inserts their tasks under
    sequences 1 and 2, in list order. -/
theorem started_process_publishes_in_sequence_order :
    ∃ e s', run exampleConfig (Engine.init exampleConfig 0) exampleStartRun = some e ∧
      publishToLocalQueue e.store (.minted 0) [⟨"q", none, none⟩, ⟨"q", none, none⟩] =
        .ok s' ∧
      (s'.immediateTasks.drop 1).map (fun t => (t.taskSequence, t.message?)) =
        [(1, some (.minted 0, "q", .minted 1)), (2, some (.minted 0, "q", .minted 2))] ∧
      ∃ rows ts, List.Forall₂ (PublishedAs (.minted 0)) rows
          [⟨"q", none, none⟩, ⟨"q", none, none⟩] ∧
        s'.localQueue = e.store.localQueue ++ rows ∧
        s'.immediateTasks = e.store.immediateTasks ++ ts ∧
        ts.map ImmediateTaskRow.message? = rows.map (some ∘ LocalQueueRow.message) ∧
        ts.Pairwise (fun a b => a.taskSequence < b.taskSequence) ∧
        ∀ t ∈ ts, e.store.nextImmediateTaskSequence ≤ t.taskSequence ∧
          t.taskSequence < s'.nextImmediateTaskSequence :=
  ⟨_, _, rfl, rfl, rfl, publish_orders_messages_by_task_sequence rfl⟩

theorem publishToLocalQueue_taskTableInv {s s' : Store} {pid : Uuid}
    {ms : List LocalQueueMessage} (h : TaskTableInv s)
    (hp : publishToLocalQueue s pid ms = .ok s') : TaskTableInv s' := by
  obtain ⟨rows, n, hrows, rfl⟩ := publishToLocalQueue_eq_ok hp
  refine h.extend _ rows rfl (localQueueTasks_sorted _ _ _) (fun t ht => ?_) (Nat.le_add_right _ _)
    (filterMap_localQueueTasks (PublishedAs.processExecutionId hrows)) rfl h.timers
  have := localQueueTasks_seq pid _ rows t ht
  rw [hrows.length_eq] at this
  exact this

theorem conditionalUpdate_taskTableInv {s s' : Store} {k : AsyncStateExecutionKey} {v : Nat}
    {w : StatusWrite} {f : Option StateExecutionFailureJson} (h : TaskTableInv s)
    (hc : s.conditionalUpdate k v w f = .ok s') : TaskTableInv s' := by
  obtain ⟨_, _, -, rfl⟩ := Store.conditionalUpdate_eq_ok hc
  exact h.of_queueTables rfl

theorem startsStates_taskTableInv {s s' : Store} (h : TaskTableInv s) (hs : StartsStates s s') :
    TaskTableInv s' := by
  obtain ⟨ts, he, hsorted, hts⟩ := hs.tasks
  exact h.extend ts [] he hsorted (fun t ht => ⟨(hts t ht).1, (hts t ht).2.1⟩) hs.next
    (List.filterMap_eq_nil_iff.2 fun t ht => ImmediateTaskRow.message?_eq_none (hts t ht).2.2)
    (by rw [hs.localQueue, List.append_nil]) (hs.timerTasks ▸ h.timers)

theorem processWaitUntilExecution_taskTableInv {s : Store} (h : TaskTableInv s)
    (request : ProcessWaitUntilExecutionRequest) :
    TaskTableInv (processWaitUntilExecution s request).2 := by
  unfold processWaitUntilExecution commitOrRollback
  split
  · obtain ⟨s₁, h₁, h₂⟩ := doProcessWaitUntilExecutionTx_eq_ok ‹_›
    refine publishToLocalQueue_taskTableInv ?_ h₂
    split
    · exact appendImmediateTask_taskTableInv (conditionalUpdate_taskTableInv h h₁) (by decide)
    · exact conditionalUpdate_taskTableInv h h₁
  · exact h

theorem completeExecuteExecution_taskTableInv {s : Store} (h : TaskTableInv s)
    (request : CompleteExecuteExecutionRequest) :
    TaskTableInv (completeExecuteExecution s request).2 := by
  unfold completeExecuteExecution commitOrRollback
  split
  · obtain ⟨p, s₁, m, m', s₂, -, h₁, -, h₂, h₃⟩ := doCompleteExecuteExecutionTx_eq_ok ‹_›
    refine publishToLocalQueue_taskTableInv ?_ h₃
    refine (startsStates_taskTableInv (conditionalUpdate_taskTableInv h h₁)
      (startNextStates_eq_ok h₂).2).of_queueTables ?_
    unfold ProcessClose.write
    split <;> rfl
  · exact h

/-- A backoff deletes the task and files a timer task of the same type. -/
theorem backoffImmediateTask_taskTableInv {s : Store} (h : TaskTableInv s)
    (request : BackoffImmediateTaskRequest) (ht : request.task.taskType ≠ .newLocalQueueMessage) :
    TaskTableInv (backoffImmediateTask s request).2 := by
  unfold backoffImmediateTask
  split
  · obtain ⟨s₁, h₁, rfl⟩ := doBackoffImmediateTaskTx_eq_ok ‹_›
    have h₁' := conditionalUpdate_taskTableInv h h₁
    refine h₁'.filter _ rfl rfl rfl fun t ht' => ?_
    simp only [Store.appendTimerTask, Store.removeImmediateTask, List.mem_append,
      List.mem_singleton] at ht'
    rcases ht' with ht' | rfl
    · exact h₁'.timers t ht'
    · exact ht
  · exact h

/-- A due timer task moves to the end of the immediate-task table. -/
theorem convertTimerTaskToImmediateTask_taskTableInv {s : Store} (h : TaskTableInv s)
    {t : TimerTaskRow} (ht : t ∈ s.timerTasks) :
    TaskTableInv (convertTimerTaskToImmediateTask s t) :=
  h.extend [_] [] rfl (List.pairwise_singleton _ _) (by simp [convertTimerTaskToImmediateTask])
    (Nat.le_succ _) (by simp [ImmediateTaskRow.message?, h.timers t ht]) (List.append_nil _).symm
    fun u hu => h.timers u (List.mem_of_mem_filter hu)

theorem initialTaskType_ne (c : Option AsyncStateConfig) :
    initialTaskType c ≠ .newLocalQueueMessage := by
  unfold initialTaskType
  split <;> simp

theorem startProcess_taskTableInv {s : Store} (h : TaskTableInv s)
    (request : ProcessExecutionStartRequest) (now : Int) :
    TaskTableInv (startProcess s request now).2 := by
  rcases startProcess_snd s request now with he | ⟨id, hs⟩
  · rw [he]
    exact h
  obtain ⟨-, s₁, s₂, h₁, h₂, h₃⟩ := doStartProcessTx_eq_started hs
  obtain ⟨-, rfl⟩ := Store.insertLatestProcessExecution_eq_ok h₁
  rw [(Store.insertProcessExecution_eq_ok h₃).2]
  refine TaskTableInv.of_queueTables (s := s₂) ?_ rfl
  rcases insertStartState_eq_ok h₂ with ⟨-, rfl⟩ | ⟨sid, -, -, rfl⟩
  · exact h.of_queueTables rfl
  · exact appendImmediateTask_taskTableInv (by exact h.of_queueTables rfl) (initialTaskType_ne _)

/-! ### The engine keeps it -/

/-- The task a worker's call would back off. -/
def WorkerState.current? : WorkerState → Option ImmediateTaskRow
  | .waitUntilCall _ current _ => some current
  | .executeCall _ current _ => some current
  | _ => none

/-- The engine invariant of the task tables: no worker calls on a message task. -/
structure QueueInv (e : Engine) : Prop where
  table : TaskTableInv e.store
  calls : ∀ w ∈ e.workers, ∀ t ∈ w.current?, t.taskType ≠ .newLocalQueueMessage

/-- Every transaction keeps the table invariant. -/
theorem transition_taskTableInv {e : Engine} {s' : Store} (hi : QueueInv e)
    (h : Transition e s') : TaskTableInv s' := by
  cases h with
  | stay => exact hi.table
  | startProcess request => exact startProcess_taskTableInv hi.table request e.now
  | fireTimer t ht => exact convertTimerTaskToImmediateTask_taskTableInv hi.table ht
  | waitUntil resp _ => exact processWaitUntilExecution_taskTableInv hi.table _
  | execute resp _ _ => exact completeExecuteExecution_taskTableInv hi.table _
  | backoff request hw _ hcur =>
    refine backoffImmediateTask_taskTableInv hi.table request ?_
    rw [hcur]
    rcases hw with hw | hw <;> exact hi.calls _ (List.get?_mem hw) _ rfl
  | delete t _ => exact hi.table.filter _ rfl rfl rfl hi.table.timers

theorem step_queueInv {cfg : ProcessorConfig} {e e' : Engine} {a : Action} (hi : QueueInv e)
    (h : step cfg e a = some e') : QueueInv e' := by
  refine ⟨transition_taskTableInv hi (step_transition h), fun w hw t ht => ?_⟩
  cases hc : w.isCall
  · cases w <;> simp_all [WorkerState.current?, WorkerState.isCall]
  · rcases step_worker_call h hw hc with hw' | ⟨-, task, dbUp, hb⟩
    · exact hi.calls w hw' t ht
    · obtain ⟨hne, prep, -, ⟨rfl, -⟩ | ⟨rfl, -, -⟩⟩ := beginProcessImmediateTask_call hb hc <;>
        cases ht <;> exact hne

theorem reachable_queueInv {cfg : ProcessorConfig} {e : Engine} (hr : Reachable cfg e) :
    QueueInv e := by
  induction hr with
  | init =>
    refine ⟨⟨.nil, fun _ h => (nomatch h), .slnil, fun _ h => (nomatch h)⟩, fun w hw t ht => ?_⟩
    simp only [Engine.init, List.mem_replicate] at hw
    rw [hw.2] at ht
    cases ht
  | step _ _ hs ih => exact step_queueInv ih hs

/-! ### Consumption follows the workers -/

/-- The message whose `ProcessLocalQueueMessage` a step commits. -/
def consumedBy (e : Engine) : Action → Option LocalQueueMessageInfoJson
  | .localQueueReturned i =>
    match e.workers.get? i with
    | some (.localQueueCall task) => task.info.localQueueMessageInfo.filter fun m =>
        ((processLocalQueueMessage e.store (localQueueRequest task m)).1 matches .ok _)
    | _ => none
  | _ => none

/-- The messages consumed along a run, in order, up to the first action not enabled. -/
def consumedAlong (cfg : ProcessorConfig) : Engine → List Action → List LocalQueueMessageInfoJson
  | _, [] => []
  | e, a :: as => match step cfg e a with
    | none => []
    | some e' => (consumedBy e a).toList ++ consumedAlong cfg e' as

/-- The message task of dedup id `.minted n` at sequence `seq`. -/
def exampleMessageTask (seq n : Nat) : ImmediateTaskRow :=
  ⟨0, seq, .minted 0, "", 0, .newLocalQueueMessage,
    { localQueueMessageInfo := some ⟨"q", .minted n, none⟩ }⟩

/-- The start state's wait-until call publishes two messages to queue "q", and the two workers
    take their tasks in publish order. -/
def publishTwoRun : List Action :=
  exampleStartRun ++ [.waitUntilReturned 0 (.ok ⟨⟨some .emptyCommand, [], []⟩,
    [⟨"q", none, none⟩, ⟨"q", none, none⟩]⟩), .commit 0, .poll (exampleMessageTask 2 1),
    .poll (exampleMessageTask 3 2), .take 0 .buffer true, .take 1 .buffer true]

/-- The second message published is consumed first: worker 1 returns before worker 0. -/
theorem second_message_consumed_first :
    ∃ e, run exampleConfig (Engine.init exampleConfig 0) publishTwoRun = some e ∧
      e.store.localQueue.map LocalQueueRow.message =
        [(.minted 0, "q", .minted 1), (.minted 0, "q", .minted 2)] ∧
      consumedAlong exampleConfig e [.localQueueReturned 1, .localQueueReturned 0] =
        [⟨"q", .minted 2, none⟩, ⟨"q", .minted 1, none⟩] :=
  ⟨_, rfl, rfl, rfl⟩

end Xdb
