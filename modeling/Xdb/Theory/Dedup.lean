import Xdb.Theory.LocalQueueOrder
import Xdb.Theory.StartUnique
import Xdb.Theory.Waiting

/-!
# Repeated Dedup Ids

`publishToLocalQueue` reads each message's dedup id with `uuid.ParseUUID`, inserts the
message's row under it, or under a freshly minted id where the text is not a UUID, and
returns the insert's error. The local-queue table holds a dedup id once per process and
queue, so a message whose UUID dedup id a stored row of its process and queue already
carries, or an earlier message of the same list and queue, fails the insert. The error ends
the enclosing `ProcessWaitUntilExecution` or `CompleteExecuteExecution`, which rolls back
everything it wrote (`publishToLocalQueue_eq_dupEntry`).

A dedup id that is not a UUID never repeats anything, since the row gets a minted id: every
message of a committed transaction is stored, under a row and a `NewLocalQueueMessage` task
of its own, whatever its dedup id (`publishToLocalQueue_publishesAll`). No step removes a
row (`run_keeps_localQueue_rows`), so what one transaction publishes is there for every later
one to repeat.

## Main definitions

* `RepeatsDedupId`: A message repeats a UUID dedup id of its process and queue.
* `DedupStored`: The dedup id a message's row is stored under.
* `Store.messageTasks`: The messages the task table carries.
* `PublishesAll`: One row and one message task per published message, in order.

## Theorems

* `publishToLocalQueue_eq_dupEntry`: A repeated UUID dedup id fails the publish.
* `publishToLocalQueue_publishesAll`: A publish that commits stores every message.
* `processWaitUntilExecution_of_repeats`, `completeExecuteExecution_of_repeats`: The
  enclosing transactions fail and roll back.
* `run_keeps_localQueue_rows`: No run removes a local-queue row.
* `repeated_dedup_id_fails_or_adds_rows`: The whole of it.
-/

namespace Xdb

/-- The message's dedup id parses as a UUID that a stored row of its process and queue, or
    an earlier message of the same list and queue, already carries. -/
def RepeatsDedupId (q : List LocalQueueRow) (pid : Uuid) (pre : List LocalQueueMessage)
    (m : LocalQueueMessage) : Prop :=
  ∃ u, Uuid.parse (m.dedupId.getD "") = some u ∧
    ((∃ r ∈ q, r.processExecutionId = pid ∧ r.queueName = m.queueName ∧ r.dedupId = u) ∨
      ∃ m' ∈ pre, m'.queueName = m.queueName ∧ Uuid.parse (m'.dedupId.getD "") = some u)

/-- The dedup id a message's row is stored under: the worker's where it parses as a UUID, a
    minted one where it does not. -/
def DedupStored (r : LocalQueueRow) (m : LocalQueueMessage) : Prop :=
  match Uuid.parse (m.dedupId.getD "") with
  | some u => r.dedupId = u
  | none => ∃ n, r.dedupId = .minted n

/-- The messages the `NewLocalQueueMessage` tasks of the table carry, in table order. -/
def Store.messageTasks (s : Store) : List (Uuid × String × Uuid) :=
  s.immediateTasks.filterMap ImmediateTaskRow.message?

/-- What a committed transaction does to the local queue: one row per published message,
    in order, under the message's dedup id or a minted one, and one `NewLocalQueueMessage`
    task naming each row. -/
def PublishesAll (s s' : Store) (pid : Uuid) (ms : List LocalQueueMessage) : Prop :=
  ∃ rows, List.Forall₂ (fun r m => PublishedAs pid r m ∧ DedupStored r m) rows ms ∧
    s'.localQueue = s.localQueue ++ rows ∧
    s'.messageTasks = s.messageTasks ++ rows.map LocalQueueRow.message

/-! ### One message -/

theorem dedupIdOf_of_parse {s : Store} {m : LocalQueueMessage} {u : Uuid}
    (h : Uuid.parse (m.dedupId.getD "") = some u) : dedupIdOf s m = (u, s) := by
  simp [dedupIdOf, h]

@[simp] theorem dedupIdOf_localQueue (s : Store) (m : LocalQueueMessage) :
    (dedupIdOf s m).2.localQueue = s.localQueue := by
  obtain ⟨n, h⟩ := dedupIdOf_snd s m
  rw [h]

@[simp] theorem dedupIdOf_immediateTasks (s : Store) (m : LocalQueueMessage) :
    (dedupIdOf s m).2.immediateTasks = s.immediateTasks := by
  obtain ⟨n, h⟩ := dedupIdOf_snd s m
  rw [h]

theorem dedupStored_dedupIdOf (s : Store) (m : LocalQueueMessage) (pid : Uuid)
    (payload : Option EncodedObject) :
    DedupStored ⟨pid, m.queueName, (dedupIdOf s m).1, payload⟩ m := by
  cases h : Uuid.parse (m.dedupId.getD "") <;> simp [DedupStored, dedupIdOf, h, Store.mustNewUUID]

/-- One step of the publish loop: the row, then its task, then the rest. -/
theorem publishToLocalQueue_cons (s : Store) (pid : Uuid) (m : LocalQueueMessage)
    (ms : List LocalQueueMessage) :
    publishToLocalQueue s pid (m :: ms) =
      (dedupIdOf s m).2.insertLocalQueue ⟨pid, m.queueName, (dedupIdOf s m).1, m.payload⟩ >>=
        fun s₁ => publishToLocalQueue (s₁.appendImmediateTask defaultShardId pid "" 0
          .newLocalQueueMessage
          { localQueueMessageInfo := some ⟨m.queueName, (dedupIdOf s m).1, none⟩ }) pid ms :=
  rfl

theorem insertLocalQueue_eq_ok {s s' : Store} {row : LocalQueueRow}
    (h : s.insertLocalQueue row = .ok s') :
    s' = { s with localQueue := s.localQueue ++ [row] } := by
  unfold Store.insertLocalQueue at h
  split at h
  · cases h
  · exact (Except.ok.inj h).symm

theorem insertLocalQueue_eq_error {s : Store} {row : LocalQueueRow} {e : TxError}
    (h : s.insertLocalQueue row = .error e) : e = .dupEntry := by
  unfold Store.insertLocalQueue at h
  split at h <;> cases h
  rfl

/-- A stored row of the same process, queue and dedup id fails the insert. -/
theorem insertLocalQueue_eq_dupEntry {s : Store} {row r : LocalQueueRow} (hr : r ∈ s.localQueue)
    (h : r.processExecutionId = row.processExecutionId ∧ r.queueName = row.queueName ∧
      r.dedupId = row.dedupId) : s.insertLocalQueue row = .error .dupEntry :=
  if_pos (List.any_eq_true.2 ⟨r, hr, by simpa using h⟩)

/-- Publishing the first message of the list moves it from the earlier messages to the
    stored rows. -/
theorem RepeatsDedupId.cons {q : List LocalQueueRow} {pid : Uuid} {m' m : LocalQueueMessage}
    {pre : List LocalQueueMessage} (h : RepeatsDedupId q pid (m' :: pre) m) (s : Store)
    (payload : Option EncodedObject) :
    RepeatsDedupId (q ++ [⟨pid, m'.queueName, (dedupIdOf s m').1, payload⟩]) pid pre m := by
  obtain ⟨u, hu, ⟨r, hr, hq⟩ | ⟨m'', hm'', hq, hu'⟩⟩ := h
  · exact ⟨u, hu, .inl ⟨r, List.mem_append_left _ hr, hq⟩⟩
  rcases List.mem_cons.1 hm'' with rfl | hm''
  · exact ⟨u, hu, .inl ⟨_, List.mem_append_right _ (List.mem_singleton_self _), rfl, hq,
      by rw [dedupIdOf_of_parse hu']⟩⟩
  · exact ⟨u, hu, .inr ⟨m'', hm'', hq, hu'⟩⟩

/-! ### The publish loop -/

/-- A message that repeats a UUID dedup id of its process and queue fails the publish with
    the duplicate-key error, once the messages before it are in. -/
theorem publishToLocalQueue_eq_dupEntry {pid : Uuid} {m : LocalQueueMessage}
    {post : List LocalQueueMessage} : ∀ {s : Store} {pre : List LocalQueueMessage},
      RepeatsDedupId s.localQueue pid pre m →
        publishToLocalQueue s pid (pre ++ m :: post) = .error .dupEntry
  | s, [], ⟨u, hu, h⟩ => by
    -- the repeating message is first: its insert meets the stored row
    obtain ⟨r, hr, hq⟩ := h.resolve_right (by simp)
    rw [List.nil_append, publishToLocalQueue_cons, dedupIdOf_of_parse hu,
      insertLocalQueue_eq_dupEntry hr hq]
    rfl
  | s, m' :: pre, h => by
    -- an earlier message either fails the publish itself or goes in, and the repeat stays
    rw [List.cons_append, publishToLocalQueue_cons]
    cases h₁ : (dedupIdOf s m').2.insertLocalQueue
        ⟨pid, m'.queueName, (dedupIdOf s m').1, m'.payload⟩ with
    | error e =>
      rw [insertLocalQueue_eq_error h₁]
      rfl
    | ok s₁ =>
      rw [insertLocalQueue_eq_ok h₁]
      refine publishToLocalQueue_eq_dupEntry ?_
      simpa [Store.appendImmediateTask] using h.cons s m'.payload

/-- A publish that commits stores every message, in order: a row under its dedup id or a
    minted one, and a task naming the row. -/
theorem publishToLocalQueue_publishesAll {pid : Uuid} :
    ∀ {s s' : Store} {ms : List LocalQueueMessage}, publishToLocalQueue s pid ms = .ok s' →
      PublishesAll s s' pid ms
  | _, _, [], h => by
    cases h
    exact ⟨[], .nil, by simp, by simp⟩
  | s, s', m :: ms, h => by
    rw [publishToLocalQueue_cons, bind_eq_ok] at h
    obtain ⟨s₁, h₁, h⟩ := h
    rw [insertLocalQueue_eq_ok h₁] at h
    obtain ⟨rows, hrows, hq, ht⟩ := publishToLocalQueue_publishesAll h
    refine ⟨_ :: rows, .cons ⟨⟨rfl, rfl, rfl⟩, dedupStored_dedupIdOf s m pid _⟩ hrows, ?_, ?_⟩
    · simp [hq, Store.appendImmediateTask]
    · rw [ht]
      simp [Store.messageTasks, Store.appendImmediateTask, ImmediateTaskRow.message?,
        LocalQueueRow.message]

theorem PublishesAll.of_eq {s s₁ s' : Store} {pid : Uuid} {ms : List LocalQueueMessage}
    (h : PublishesAll s₁ s' pid ms) (hq : s₁.localQueue = s.localQueue)
    (ht : s₁.messageTasks = s.messageTasks) : PublishesAll s s' pid ms := by
  obtain ⟨rows, hrows, h₁, h₂⟩ := h
  exact ⟨rows, hrows, by rw [h₁, hq], by rw [h₂, ht]⟩

/-! ### The enclosing transactions -/

@[simp] theorem ProcessClose.write_localQueue (c : ProcessClose) (s : Store) (pid : Uuid)
    (p : ProcessExecutionRow) : (c.write s pid p).localQueue = s.localQueue := by
  unfold ProcessClose.write
  split <;> rfl

@[simp] theorem ProcessClose.write_immediateTasks (c : ProcessClose) (s : Store) (pid : Uuid)
    (p : ProcessExecutionRow) : (c.write s pid p).immediateTasks = s.immediateTasks := by
  unfold ProcessClose.write
  split <;> rfl

/-- The next-state loop adds no message task. -/
theorem StartsStates.messageTasks {s s' : Store} (h : StartsStates s s') :
    s'.messageTasks = s.messageTasks := by
  obtain ⟨ts, he, -, hts⟩ := h.tasks
  rw [Store.messageTasks, he, List.filterMap_append,
    List.filterMap_eq_nil_iff.2 fun t ht => ImmediateTaskRow.message?_eq_none (hts t ht).2.2,
    List.append_nil]
  rfl

/-- What a wait-until result writes before it publishes: no row and no message task. -/
theorem processWaitUntilExecution_before_publish {s s₁ : Store}
    {request : ProcessWaitUntilExecutionRequest} {w : StatusWrite}
    (h : s.conditionalUpdate request.key request.prepare.previousVersion w none = .ok s₁)
    (s₂ : Store) (hs₂ : s₂ = if request.commandRequest.waitingType = some .emptyCommand then
      s₁.appendImmediateTask request.taskShardId request.processExecutionId request.stateId
        request.stateIdSequence .execute {} else s₁) :
    s₂.localQueue = s.localQueue ∧ s₂.messageTasks = s.messageTasks := by
  obtain ⟨_, _, _, rfl⟩ := Store.conditionalUpdate_eq_ok h
  subst hs₂
  split
  · exact ⟨rfl, by simp [Store.messageTasks, Store.appendImmediateTask,
      Store.setAsyncStateExecution, ImmediateTaskRow.message?]⟩
  · exact ⟨rfl, rfl⟩

/-- What a completion writes before it publishes: no row and no message task. -/
theorem completeExecuteExecution_before_publish {s s₁ s₂ : Store}
    {request : CompleteExecuteExecutionRequest} {m m' : StateExecutionSequenceMaps}
    (h₁ : s.conditionalUpdate request.key request.prepare.previousVersion .completed none =
      .ok s₁)
    (h₂ : startNextStates s₁ request.processExecutionId request.prepare.info request.taskShardId
      request.stateDecision.nextStates m = .ok (m', s₂)) (c : ProcessClose)
    (p : ProcessExecutionRow) :
    (c.write s₂ request.processExecutionId p).localQueue = s.localQueue ∧
      (c.write s₂ request.processExecutionId p).messageTasks = s.messageTasks := by
  obtain ⟨_, _, _, rfl⟩ := Store.conditionalUpdate_eq_ok h₁
  have hs := (startNextStates_eq_ok h₂).2
  refine ⟨by rw [ProcessClose.write_localQueue, hs.localQueue]; rfl, ?_⟩
  rw [Store.messageTasks, ProcessClose.write_immediateTasks, ← Store.messageTasks,
    hs.messageTasks]
  rfl

/-- A repeated UUID dedup id fails a wait-until result, which rolls back. -/
theorem processWaitUntilExecution_of_repeats {s : Store}
    {request : ProcessWaitUntilExecutionRequest} {pre post : List LocalQueueMessage}
    {m : LocalQueueMessage} (hm : request.publishToLocalQueue = pre ++ m :: post)
    (h : RepeatsDedupId s.localQueue request.processExecutionId pre m) :
    ∃ err, processWaitUntilExecution s request = (.error err, s) := by
  unfold processWaitUntilExecution commitOrRollback
  split
  · obtain ⟨s₁, h₁, h₂⟩ := doProcessWaitUntilExecutionTx_eq_ok ‹_›
    rw [hm, publishToLocalQueue_eq_dupEntry] at h₂
    · cases h₂
    · rw [(processWaitUntilExecution_before_publish h₁ _ rfl).1]
      exact h
  · exact ⟨_, rfl⟩

/-- A repeated UUID dedup id fails a completion, which rolls back. -/
theorem completeExecuteExecution_of_repeats {s : Store}
    {request : CompleteExecuteExecutionRequest} {pre post : List LocalQueueMessage}
    {m : LocalQueueMessage} (hm : request.publishToLocalQueue = pre ++ m :: post)
    (h : RepeatsDedupId s.localQueue request.processExecutionId pre m) :
    ∃ err, completeExecuteExecution s request = (.error err, s) := by
  unfold completeExecuteExecution commitOrRollback
  split
  · obtain ⟨p, s₁, _, _, s₂, -, h₁, -, h₂, h₃⟩ := doCompleteExecuteExecutionTx_eq_ok ‹_›
    rw [hm, publishToLocalQueue_eq_dupEntry] at h₃
    · cases h₃
    · rw [(completeExecuteExecution_before_publish h₁ h₂ _ p).1]
      exact h
  · exact ⟨_, rfl⟩

/-- A committed wait-until result stores every message it publishes. -/
theorem processWaitUntilExecution_publishesAll {s : Store}
    {request : ProcessWaitUntilExecutionRequest} {b : Bool}
    (h : (processWaitUntilExecution s request).1 = .ok b) :
    PublishesAll s (processWaitUntilExecution s request).2 request.processExecutionId
      request.publishToLocalQueue := by
  obtain ⟨s₁, h₁, h₂⟩ := doProcessWaitUntilExecutionTx_eq_ok (commitOrRollback_eq_ok h)
  obtain ⟨hq, ht⟩ := processWaitUntilExecution_before_publish h₁ _ rfl
  exact (publishToLocalQueue_publishesAll h₂).of_eq hq ht

/-- A committed completion stores every message it publishes. -/
theorem completeExecuteExecution_publishesAll {s : Store}
    {request : CompleteExecuteExecutionRequest} {b : Bool}
    (h : (completeExecuteExecution s request).1 = .ok b) :
    PublishesAll s (completeExecuteExecution s request).2 request.processExecutionId
      request.publishToLocalQueue := by
  obtain ⟨p, s₁, _, _, s₂, -, h₁, -, h₂, h₃⟩ :=
    doCompleteExecuteExecutionTx_eq_ok (commitOrRollback_eq_ok h)
  obtain ⟨hq, ht⟩ := completeExecuteExecution_before_publish h₁ h₂ _ p
  exact (publishToLocalQueue_publishesAll h₃).of_eq hq ht

/-! ### No step removes a row -/

theorem commitOrRollback_keeps_localQueue_rows {α : Type} {s : Store}
    {x : Except TxError (α × Store)}
    (h : ∀ a, (commitOrRollback s x).1 = .ok a →
      s.localQueue <+: (commitOrRollback s x).2.localQueue) :
    s.localQueue <+: (commitOrRollback s x).2.localQueue := by
  rcases hx : (commitOrRollback s x).1 with e | a
  · rw [(commitOrRollback_eq_error hx).2]
  · exact h a hx

theorem transition_keeps_localQueue_rows {e : Engine} {s' : Store} (h : Transition e s') :
    e.store.localQueue <+: s'.localQueue := by
  cases h with
  | stay | fireTimer | delete => exact List.prefix_refl _
  | startProcess request =>
    rcases startProcess_snd e.store request e.now with he | ⟨id, hs⟩
    · rw [he]
    · rw [(startProcess_startAdds hs).localQueue]
  | waitUntil =>
    -- a committed result appends the rows it published
    refine commitOrRollback_keeps_localQueue_rows fun b hb => ?_
    obtain ⟨rows, -, hq, -⟩ := processWaitUntilExecution_publishesAll hb
    exact hq ▸ List.prefix_append _ _
  | execute =>
    refine commitOrRollback_keeps_localQueue_rows fun b hb => ?_
    obtain ⟨rows, -, hq, -⟩ := completeExecuteExecution_publishesAll hb
    exact hq ▸ List.prefix_append _ _
  | backoff request =>
    -- a backoff writes a state row and the task tables only
    unfold backoffImmediateTask
    split
    · obtain ⟨s₁, h₁, rfl⟩ := doBackoffImmediateTaskTx_eq_ok ‹_›
      obtain ⟨_, _, _, rfl⟩ := Store.conditionalUpdate_eq_ok h₁
      exact List.prefix_refl _
    · exact List.prefix_refl _

/-- Along every run, the local-queue rows of the first state stay, in place. -/
theorem run_keeps_localQueue_rows {cfg : ProcessorConfig} :
    ∀ {e e' : Engine} {as : List Action}, run cfg e as = some e' →
      e.store.localQueue <+: e'.store.localQueue
  | _, _, [], h => by
    cases h
    exact List.prefix_refl _
  | _, _, a :: as, h => by
    simp only [run, Option.bind_eq_some] at h
    obtain ⟨e₁, h₁, h⟩ := h
    exact (transition_keeps_localQueue_rows (step_transition h₁)).trans
      (run_keeps_localQueue_rows h)

/-! ### The whole of it -/

/-- A message whose UUID dedup id a stored row of its process and queue, or an earlier
    message of its list and queue, already carries fails `ProcessWaitUntilExecution` and
    `CompleteExecuteExecution`, which roll back. A committed one stores every message it
    publishes, repeated or not, under a row and a `NewLocalQueueMessage` task of its own. No
    run removes a row, so a dedup id published once is stored for every later transaction. -/
theorem repeated_dedup_id_fails_or_adds_rows :
    (∀ (s : Store) (pre : List LocalQueueMessage) (m : LocalQueueMessage)
        (post : List LocalQueueMessage),
      (∀ request : ProcessWaitUntilExecutionRequest,
        request.publishToLocalQueue = pre ++ m :: post →
        RepeatsDedupId s.localQueue request.processExecutionId pre m →
        ∃ err, processWaitUntilExecution s request = (.error err, s)) ∧
      ∀ request : CompleteExecuteExecutionRequest,
        request.publishToLocalQueue = pre ++ m :: post →
        RepeatsDedupId s.localQueue request.processExecutionId pre m →
        ∃ err, completeExecuteExecution s request = (.error err, s)) ∧
    (∀ (s : Store) (request : ProcessWaitUntilExecutionRequest) (b : Bool),
      (processWaitUntilExecution s request).1 = .ok b →
      PublishesAll s (processWaitUntilExecution s request).2 request.processExecutionId
        request.publishToLocalQueue) ∧
    (∀ (s : Store) (request : CompleteExecuteExecutionRequest) (b : Bool),
      (completeExecuteExecution s request).1 = .ok b →
      PublishesAll s (completeExecuteExecution s request).2 request.processExecutionId
        request.publishToLocalQueue) ∧
    ∀ (cfg : ProcessorConfig) (e e' : Engine) (as : List Action), run cfg e as = some e' →
      e.store.localQueue <+: e'.store.localQueue :=
  ⟨fun _ _ _ _ => ⟨fun _ => processWaitUntilExecution_of_repeats,
      fun _ => completeExecuteExecution_of_repeats⟩,
    fun _ _ _ => processWaitUntilExecution_publishesAll,
    fun _ _ _ => completeExecuteExecution_publishesAll,
    fun _ _ _ _ => run_keeps_localQueue_rows⟩

/-- A message to "q" whose dedup id is UUID text. -/
def uuidMessage : LocalQueueMessage := ⟨"q", some "00000000-0000-0000-0000-000000000001", none⟩

/-- A message to "q" whose dedup id is not a UUID. -/
def textMessage : LocalQueueMessage := ⟨"q", some "x", none⟩

/-- "S2"'s wait-until call of `twoStateStore` returns, publishing `ms`. -/
def waitPublishing (ms : List LocalQueueMessage) : ProcessWaitUntilExecutionRequest :=
  { waitOnTimerRequest with publishToLocalQueue := ms }

/-- "S1"'s execute call of `twoStateStore` returns a force complete, publishing `ms`. -/
def completePublishing (ms : List LocalQueueMessage) : CompleteExecuteExecutionRequest :=
  { forceCompleteRequest with publishToLocalQueue := ms }

theorem uuidMessage_repeats :
    RepeatsDedupId twoStateStore.localQueue (.minted 0) [uuidMessage] uuidMessage :=
  ⟨_, rfl, .inr ⟨_, List.mem_singleton_self _, rfl, rfl⟩⟩

/-- One UUID message commits and the same one twice fails both transactions; the text
    message twice commits and is stored twice, under two minted ids. The two rows a run
    publishes stay through the consumption of both. -/
theorem repeated_uuid_fails_repeated_text_stored :
    (processWaitUntilExecution twoStateStore (waitPublishing [uuidMessage])).1 = .ok true ∧
    (completeExecuteExecution twoStateStore (completePublishing [uuidMessage])).1 = .ok true ∧
    (∃ err, processWaitUntilExecution twoStateStore (waitPublishing [uuidMessage, uuidMessage]) =
      (.error err, twoStateStore)) ∧
    (∃ err, completeExecuteExecution twoStateStore
      (completePublishing [uuidMessage, uuidMessage]) = (.error err, twoStateStore)) ∧
    PublishesAll twoStateStore
      (processWaitUntilExecution twoStateStore (waitPublishing [textMessage, textMessage])).2
      (.minted 0) [textMessage, textMessage] ∧
    PublishesAll twoStateStore
      (completeExecuteExecution twoStateStore (completePublishing [textMessage, textMessage])).2
      (.minted 0) [textMessage, textMessage] ∧
    (processWaitUntilExecution twoStateStore
      (waitPublishing [textMessage, textMessage])).2.localQueue =
      [⟨.minted 0, "q", .minted 1, none⟩, ⟨.minted 0, "q", .minted 2, none⟩] ∧
    ∃ e e', run exampleConfig (Engine.init exampleConfig 0) publishTwoRun = some e ∧
      e.store.localQueue.length = 2 ∧
      run exampleConfig e [.localQueueReturned 1, .localQueueReturned 0] = some e' ∧
      e.store.localQueue <+: e'.store.localQueue := by
  obtain ⟨hrep, hwait, hcomplete, hrun⟩ := repeated_dedup_id_fails_or_adds_rows
  refine ⟨rfl, rfl, (hrep _ [uuidMessage] _ []).1 _ rfl uuidMessage_repeats,
    (hrep _ [uuidMessage] _ []).2 _ rfl uuidMessage_repeats, hwait _ _ true rfl,
    hcomplete _ _ true rfl, rfl, _, _, rfl, rfl, rfl,
    hrun exampleConfig _ _ [.localQueueReturned 1, .localQueueReturned 0] rfl⟩

end Xdb
