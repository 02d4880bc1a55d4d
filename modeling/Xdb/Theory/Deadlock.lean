import Xdb.Theory.Steps

/-!
# Re-queueing Can Deadlock the Pool

A worker whose `processImmediateTask` returned an error sends the task back into
`taskToProcessChan` with a plain blocking send, outside any `select`, and the workers are
the only receivers of that channel. Once every worker holds a task to send back and the
buffer is full, no send can complete: the poller cannot send either, and nothing receives.
Every step the engine can still take (a start, a timer, a delete, a tick) leaves the
workers and the channel as they are, so only a crash ends it (`run_keeps_blocked_pool`).

The state is reachable for every concurrency and every buffer size, as soon as the
processor owns the default shard (`requeue_deadlocks_pool`): one started process, its first
task taken by every worker while the database is down, and the poller filling the buffer
with it.

## Main definitions

* `WorkerState.isPutBack`: A worker is blocked sending its task back.
* `PoolBlocked`: Every worker is blocked on a send into a full channel.
* `blockedEngine`: The engine along the run that blocks the pool.

## Theorems

* `step_keeps_blocked_pool`: Every step but a restart leaves a blocked pool as it is.
* `run_keeps_blocked_pool`: So does every run without a restart.
* `reachable_blockedEngine`: The run that blocks the pool.
* `requeue_deadlocks_pool`: A blocked pool is reachable, and only a restart leaves it.
-/

namespace Xdb

/-- The worker is blocked in `w.taskToProcessChan <- task`. -/
def WorkerState.isPutBack : WorkerState → Bool
  | .putBack _ => true
  | _ => false

/-- Every worker is blocked sending a task back, and the channel's buffer is full. -/
def PoolBlocked (cfg : ProcessorConfig) (e : Engine) : Prop :=
  (∀ w ∈ e.workers, w.isPutBack = true) ∧ e.taskToProcessChan.length = cfg.processorBufferSize

instance (cfg : ProcessorConfig) (e : Engine) : Decidable (PoolBlocked cfg e) :=
  inferInstanceAs (Decidable (_ ∧ _))

/-- Every step but a restart leaves the workers and the channel of a blocked pool as they
    are: no worker can receive, and no send into the full buffer is enabled. -/
theorem step_keeps_blocked_pool {cfg : ProcessorConfig} {e e' : Engine} {a : Action}
    (hb : PoolBlocked cfg e) (ha : a ≠ .restart) (h : step cfg e a = some e') :
    e'.workers = e.workers ∧ e'.taskToProcessChan = e.taskToProcessChan := by
  have hw : ∀ {i w}, e.workers.get? i = some w → w.isPutBack = true :=
    fun hi => hb.1 _ (List.get?_mem hi)
  have hfull : ¬e.taskToProcessChan.length < cfg.processorBufferSize := by
    rw [hb.2]
    exact Nat.lt_irrefl _
  cases a with
  | startProcess request =>
    -- transactions on the store leave the memory alone
    cases h
    exact ⟨rfl, rfl⟩
  | poll t =>
    -- the poller's send needs room in the full buffer
    simp only [step] at h
    split at h
    · exact absurd ‹_ ∧ _ ∧ _›.2.2 hfull
    · cases h
  | fireTimer t =>
    simp only [step] at h
    split at h <;> cases h
    exact ⟨rfl, rfl⟩
  | take j src dbUp =>
    -- no worker is idle to receive
    simp only [step] at h
    split at h
    · rename_i hj
      cases hw hj
    · cases h
  | waitUntilReturned i r | executeReturned i r | localQueueReturned i | commit i =>
    -- no worker is in a call or holds a finished task
    simp only [step] at h
    split at h
    · rename_i hj
      cases hw hj
    · cases h
  | dbFailure i =>
    -- no worker is in a call to fail
    simp only [step] at h
    split at h
    any_goals rename_i hj; cases hw hj
    cases h
  | send i =>
    -- a put-back waits for room in the full buffer
    simp only [step] at h
    split at h
    · split at h
      · exact absurd ‹_› hfull
      · cases h
    · cases h
  | delete t =>
    simp only [step] at h
    split at h <;> cases h
    exact ⟨rfl, rfl⟩
  | tick =>
    cases h
    exact ⟨rfl, rfl⟩
  | restart => exact absurd rfl ha

/-- Every run without a restart leaves the workers and the channel of a blocked pool as
    they are. -/
theorem run_keeps_blocked_pool {cfg : ProcessorConfig} :
    ∀ {e e' : Engine} {as : List Action}, PoolBlocked cfg e → Action.restart ∉ as →
      run cfg e as = some e' → e'.workers = e.workers ∧ e'.taskToProcessChan = e.taskToProcessChan
  | _, _, [], _, _, h => by
    cases h
    exact ⟨rfl, rfl⟩
  | _, _, a :: as, hb, hr, h => by
    simp only [run, Option.bind_eq_some] at h
    obtain ⟨e₁, h₁, h⟩ := h
    obtain ⟨hw, hc⟩ := step_keeps_blocked_pool hb (fun ha => hr (ha ▸ List.mem_cons_self _ _)) h₁
    obtain ⟨hw', hc'⟩ := run_keeps_blocked_pool ⟨hw ▸ hb.1, hc ▸ hb.2⟩
      (fun ha => hr (List.mem_cons_of_mem _ ha)) h
    exact ⟨hw'.trans hw, hc'.trans hc⟩

/-! ### A run that blocks the pool -/

/-- The start of process "p" at state "S". -/
def blockedStart : ProcessExecutionStartRequest :=
  ⟨"ns", "p", "t", "u", some "S", none, none, none⟩

/-- The first task of that start on the empty store. -/
def blockedTask : ImmediateTaskRow := ⟨defaultShardId, 0, .minted 0, "S", 1, .waitUntil, {}⟩

/-- After the start: `k` workers hold the task to send back, the others are idle, and the
    buffer holds `b` copies of it. -/
def blockedEngine (cfg : ProcessorConfig) (k b : Nat) : Engine :=
  ⟨(startProcess Store.empty blockedStart 0).2, List.replicate b blockedTask,
    List.replicate k (.putBack blockedTask) ++ List.replicate (cfg.processorConcurrency - k) .idle,
    [], 0⟩

theorem blockedTask_mem :
    blockedTask ∈ (startProcess Store.empty blockedStart 0).2.immediateTasks :=
  List.mem_singleton_self _

section

variable {cfg : ProcessorConfig} (hs : defaultShardId ∈ cfg.currentShards)
include hs

/-- Worker `k` takes the task from the poller while the database is down. -/
theorem step_take_blockedEngine {k : Nat} (hk : k < cfg.processorConcurrency) :
    step cfg (blockedEngine cfg k 0) (.take k (.poller blockedTask) false) =
      some (blockedEngine cfg (k + 1) 0) := by
  obtain ⟨m, hm⟩ : ∃ m, cfg.processorConcurrency - k = m + 1 := ⟨_, (Nat.succ_pred_eq_of_pos
    (Nat.sub_pos_of_lt hk)).symm⟩
  have hget : (blockedEngine cfg k 0).workers.get? k = some .idle := by
    rw [List.get?_eq_getElem?, blockedEngine, List.getElem?_append_right (by simp)]
    simp [hm]
  have hrecv : receive cfg (blockedEngine cfg k 0) (.poller blockedTask) =
      some (blockedTask, blockedEngine cfg k 0) := by
    simp [receive, blockedEngine, blockedTask_mem, show blockedTask.shardId ∈ cfg.currentShards
      from hs]
  have hbegin : beginProcessImmediateTask cfg (blockedEngine cfg k 0).store 0 blockedTask false =
      some (.putBack blockedTask) := rfl
  simp only [step, hget, hrecv, Option.some_bind, show blockedTask.shardId ∈ cfg.currentShards
    from hs, ↓reduceIte]
  rw [show (blockedEngine cfg k 0).now = 0 from rfl, hbegin]
  simp only [blockedEngine, Engine.setWorker, Option.some.injEq, Engine.mk.injEq, true_and,
    and_true]
  rw [List.set_append_right _ _ (by simp), hm, show cfg.processorConcurrency - (k + 1) = m by omega,
    List.replicate_succ' k]
  simp [List.replicate_succ]

theorem reachable_blockedEngine_takes :
    ∀ k ≤ cfg.processorConcurrency, Reachable cfg (blockedEngine cfg k 0)
  | 0, _ =>
    .step (.startProcess blockedStart) (.init 0) (by simp [step, Engine.init, blockedEngine])
  | k + 1, hk => .step _ (reachable_blockedEngine_takes k (by omega))
      (step_take_blockedEngine hs (by omega))

/-- The poller fills the buffer with the task. -/
theorem reachable_blockedEngine :
    ∀ b ≤ cfg.processorBufferSize, Reachable cfg (blockedEngine cfg cfg.processorConcurrency b)
  | 0, _ => reachable_blockedEngine_takes hs _ le_rfl
  | b + 1, hb => .step (.poll blockedTask) (reachable_blockedEngine b (by omega)) (by
      simp [step, blockedEngine, blockedTask_mem, List.replicate_succ',
        show blockedTask.shardId ∈ cfg.currentShards from hs,
        show b < cfg.processorBufferSize by omega])

end

/-- For every concurrency and every buffer size of a processor that owns the default shard,
    a state is reachable in which every worker is blocked sending the same task back into a
    full `taskToProcessChan`; every run without a restart leaves the workers and the channel
    as they are from there on. -/
theorem requeue_deadlocks_pool {cfg : ProcessorConfig} (hs : defaultShardId ∈ cfg.currentShards) :
    ∃ e, Reachable cfg e ∧ PoolBlocked cfg e ∧
      e.workers = List.replicate cfg.processorConcurrency (.putBack blockedTask) ∧
      ∀ as e', Action.restart ∉ as → run cfg e as = some e' →
        e'.workers = e.workers ∧ e'.taskToProcessChan = e.taskToProcessChan := by
  have hb : PoolBlocked cfg (blockedEngine cfg cfg.processorConcurrency cfg.processorBufferSize) :=
    ⟨by simp [blockedEngine, WorkerState.isPutBack], by simp [blockedEngine]⟩
  exact ⟨_, reachable_blockedEngine hs _ le_rfl, hb, by simp [blockedEngine],
    fun _ _ hr h => run_keeps_blocked_pool hb hr h⟩

theorem two_workers_block_on_full_buffer :
    defaultShardId ∈ exampleConfig.currentShards ∧ ∃ e, Reachable exampleConfig e ∧
      PoolBlocked exampleConfig e ∧ e.workers = [.putBack blockedTask, .putBack blockedTask] ∧
      ∀ as e', Action.restart ∉ as → run exampleConfig e as = some e' →
        e'.workers = e.workers ∧ e'.taskToProcessChan = e.taskToProcessChan :=
  ⟨by decide, requeue_deadlocks_pool (by decide)⟩

end Xdb
