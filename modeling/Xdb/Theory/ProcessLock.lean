import Xdb.Theory.ProcessRows

/-!
# The Process Row as a Lock

A transaction that rewrites a process row first reads it with
`SelectProcessExecutionForUpdate`, which takes the row lock until the transaction commits
or rolls back, and writes back a row computed from what it read: `CompleteExecuteExecution`
always, the consumption of local-queue messages always, and `ProcessWaitUntilExecution` on
the command path when it registers local-queue commands. The rest of this development runs
every transaction atomically on the store. This module runs the transactions of the
database interleaved: a transaction that locks reads its process row when it takes the
lock, and when it commits its body runs with that row in place of the current one. A
transaction that takes no lock runs its body on the store as it is when it commits.

What makes the interleaving harmless is a fact about the source: no transaction body
changes a process row it did not lock (`ProcessTx.run_processExecutions`). So while a
transaction holds its row, the row stays the one it read, and each commit is its body run on
the store the commits before it left. The process table the transactions leave is the one
their bodies leave when run one after another in commit order (`locked_commits_serialize`).
The statement is about process rows, the data the lock guards: task sequences are drawn at
INSERT (`Theory.TaskCommits`), which this model, running each body at its commit, does not
take.

## Main definitions

* `ProcessTx`: A transaction on a process row, with its request.
* `ProcessTx.locks`, `ProcessTx.commit`: Whether its body locks the row, and what it commits.
* `LockState`, `lockStep`, `lockRun`: Transactions interleaved under the row locks.
* `serialRun`: The bodies run one after another.

## Theorems

* `ProcessTx.run_processExecutions`: A body changes no process row but the one it locks.
* `lockStep_lockInv`, `lockRun_lockInv`: Every event, and so every run, keeps the lock
  invariant.
* `locked_commits_serialize`: The committed process table is the serial one in commit order.
-/

namespace Xdb

/-- A transaction on a process row, with its request. -/
inductive ProcessTx
  | completeExecute (request : CompleteExecuteExecutionRequest)
  | waitUntil (request : ProcessWaitUntilExecutionRequest)
  | localQueue (request : ProcessLocalQueueMessagesRequest)

/-- The process a transaction is about. -/
def ProcessTx.processExecutionId : ProcessTx → Uuid
  | .completeExecute request => request.processExecutionId
  | .waitUntil request => request.processExecutionId
  | .localQueue request => request.processExecutionId

/-- Whether the body calls `SelectProcessExecutionForUpdate`: a wait-until result only on
    the command path, and there only with local-queue commands (`registerOnProcessRow`). -/
def ProcessTx.locks : ProcessTx → Bool
  | .completeExecute _ => true
  | .waitUntil request => request.commandRequest.waitingType != some .emptyCommand &&
      !request.commandRequest.localQueueCommands.isEmpty
  | .localQueue _ => true

/-- The transaction body of the source. -/
def ProcessTx.run : ProcessTx → Store → Except TxError (Bool × Store)
  | .completeExecute request, s => doCompleteExecuteExecutionTx s request
  | .waitUntil request, s => doProcessWaitUntilExecutionTx s request
  | .localQueue request, s => doProcessLocalQueueMessageTx s request

/-- The store the body commits, or `none` where it returns an error and rolls back. -/
def ProcessTx.commit (tx : ProcessTx) (s : Store) : Option Store :=
  match tx.run s with
  | .ok (_, s') => some s'
  | .error _ => none

theorem ProcessTx.commit_eq_some {tx : ProcessTx} {s s' : Store} :
    tx.commit s = some s' ↔ ∃ b, tx.run s = .ok (b, s') := by
  unfold ProcessTx.commit
  split <;> simp_all

/-- A transaction body changes no process row but the one it locks: every path of the source
    that writes a process row read it with `SelectProcessExecutionForUpdate` first. -/
theorem ProcessTx.run_processExecutions {tx : ProcessTx} {s s' : Store} {b : Bool}
    (h : tx.run s = .ok (b, s')) {id : Uuid}
    (hid : tx.locks = true → id ≠ tx.processExecutionId) :
    s'.processExecutions id = s.processExecutions id := by
  cases tx with
  | completeExecute request =>
    -- the close is written to the locked row only
    obtain ⟨p, m, -, -, he⟩ := doCompleteExecuteExecutionTx_processExecutions h
    exact (he id).trans (if_neg (hid rfl))
  | waitUntil request => rw [doProcessWaitUntilExecutionTx_processExecutions h]
  | localQueue request => rw [(doProcessLocalQueueMessageTx_eq_ok h).2]

/-- Putting back the row a store holds leaves the store as it was. -/
theorem Store.setProcessExecution_of_eq {s : Store} {id : Uuid} {r : ProcessExecutionRow}
    (h : s.processExecutions id = some r) : s.setProcessExecution id r = s := by
  cases s
  simp only [Store.setProcessExecution, Store.mk.injEq, true_and, and_true]
  funext i
  split <;> simp_all

/-! ### Transactions interleaved under the row locks -/

/-- Where a transaction is: waiting, holding its lock with the row it read, or finished,
    committed or rolled back. -/
inductive LockPhase
  | waiting
  | holding (read : ProcessExecutionRow)
  | finished

/-- The store, the holder of each row lock, and `n` transactions. -/
structure LockState (n : Nat) where
  store : Store
  holder : Uuid → Option (Fin n)
  phase : Fin n → LockPhase
  commits : List (Fin n)

/-- Before any transaction ran. -/
def LockState.init (n : Nat) (s : Store) : LockState n :=
  ⟨s, fun _ => none, fun _ => .waiting, []⟩

/-- What happens to one transaction. -/
inductive LockEvent (n : Nat)
  | lock (i : Fin n)
  | commit (i : Fin n)
  | abort (i : Fin n)

/-- One event. A transaction that locks reads its row when the row's lock is free, and
    commits its body run with the row it read, releasing the lock; one that does not lock
    commits its body on the store as it is. A rollback leaves the store and frees the lock. -/
def lockStep {n : Nat} (txs : Fin n → ProcessTx) (σ : LockState n) :
    LockEvent n → Option (LockState n)
  | .lock i =>
    match (txs i).locks, σ.holder (txs i).processExecutionId, σ.phase i,
      σ.store.processExecutions (txs i).processExecutionId with
    | true, none, .waiting, some read => some { σ with
        holder := Function.update σ.holder (txs i).processExecutionId (some i)
        phase := Function.update σ.phase i (.holding read) }
    | _, _, _, _ => none
  | .commit i => match σ.phase i, (txs i).locks with
    | .holding read, _ =>
      ((txs i).commit (σ.store.setProcessExecution (txs i).processExecutionId read)).map
        fun s => { σ with
          store := s
          holder := Function.update σ.holder (txs i).processExecutionId none
          phase := Function.update σ.phase i .finished
          commits := σ.commits ++ [i] }
    | .waiting, false => ((txs i).commit σ.store).map fun s => { σ with
        store := s
        phase := Function.update σ.phase i .finished
        commits := σ.commits ++ [i] }
    | _, _ => none
  | .abort i => match σ.phase i with
    | .holding _ => some { σ with
        holder := Function.update σ.holder (txs i).processExecutionId none
        phase := Function.update σ.phase i .finished }
    | .waiting => some { σ with phase := Function.update σ.phase i .finished }
    | .finished => none

/-- A sequence of events, stopping at the first that is not enabled. -/
def lockRun {n : Nat} (txs : Fin n → ProcessTx) : LockState n → List (LockEvent n) →
    Option (LockState n)
  | σ, [] => some σ
  | σ, ev :: evs => (lockStep txs σ ev).bind fun σ' => lockRun txs σ' evs

/-- The transaction bodies run one after another, in the given order. -/
def serialRun {n : Nat} (txs : Fin n → ProcessTx) : List (Fin n) → Store → Option Store
  | [], s => some s
  | i :: is, s => ((txs i).commit s).bind (serialRun txs is)

theorem serialRun_append {n : Nat} (txs : Fin n → ProcessTx) (is : List (Fin n)) (i : Fin n)
    (s : Store) : serialRun txs (is ++ [i]) s = (serialRun txs is s).bind (txs i).commit := by
  induction is generalizing s with
  | nil => simp [serialRun]
  | cons j is ih =>
    simp only [List.cons_append, serialRun]
    cases (txs j).commit s <;> simp [ih]

section LockInv

variable {n : Nat} {txs : Fin n → ProcessTx} {s₀ : Store}

/-- The lock invariant: the store is the committed bodies run in commit order from `s₀`, and
    a transaction that holds a lock holds its own row's, which is still the row it read. -/
structure LockInv (txs : Fin n → ProcessTx) (s₀ : Store) (σ : LockState n) : Prop where
  serial : serialRun txs σ.commits s₀ = some σ.store
  holding : ∀ i read, σ.phase i = .holding read →
    σ.holder (txs i).processExecutionId = some i ∧
      σ.store.processExecutions (txs i).processExecutionId = some read

theorem lockInv_init (txs : Fin n → ProcessTx) (s₀ : Store) :
    LockInv txs s₀ (LockState.init n s₀) :=
  ⟨rfl, fun _ _ h => nomatch h⟩

/-- Two transactions that hold locks hold those of different rows. -/
theorem LockInv.processExecutionId_ne {σ : LockState n} (hi : LockInv txs s₀ σ) {i j : Fin n}
    {read read' : ProcessExecutionRow} (h : σ.phase i = .holding read)
    (h' : σ.phase j = .holding read') (hji : j ≠ i) :
    (txs j).processExecutionId ≠ (txs i).processExecutionId := by
  intro heq
  have hj := (hi.holding j read' h').1
  rw [heq, (hi.holding i read h).1] at hj
  exact hji (Option.some.inj hj).symm

/-- After `i` finished, a transaction that holds a lock is another one, and held it before. -/
theorem holding_of_update_finished {phase : Fin n → LockPhase} {i j : Fin n}
    {read : ProcessExecutionRow} (h : Function.update phase i .finished j = .holding read) :
    j ≠ i ∧ phase j = .holding read := by
  by_cases hji : j = i
  · subst hji
    simp at h
  · exact ⟨hji, by rwa [Function.update_noteq hji] at h⟩

/-- A commit from `σ` to store `s` that changes no row locked by another transaction keeps
    the invariant, whichever lock it releases. -/
theorem LockInv.commit {σ : LockState n} (hi : LockInv txs s₀ σ) {i : Fin n} {s : Store}
    {holder : Uuid → Option (Fin n)} (hs : (txs i).commit σ.store = some s)
    (hholder : ∀ j read, j ≠ i → σ.phase j = .holding read →
      holder (txs j).processExecutionId = σ.holder (txs j).processExecutionId ∧
        s.processExecutions (txs j).processExecutionId =
          σ.store.processExecutions (txs j).processExecutionId) :
    LockInv txs s₀ ⟨s, holder, Function.update σ.phase i .finished, σ.commits ++ [i]⟩ where
  serial := by rw [serialRun_append, hi.serial, Option.some_bind, hs]
  holding j read hj := by
    obtain ⟨hji, hj⟩ := holding_of_update_finished hj
    exact ⟨(hholder j read hji hj).1.trans (hi.holding j read hj).1,
      (hholder j read hji hj).2.trans (hi.holding j read hj).2⟩

/-- Every event keeps the lock invariant. -/
theorem lockStep_lockInv {σ σ' : LockState n} {ev : LockEvent n} (hi : LockInv txs s₀ σ)
    (h : lockStep txs σ ev = some σ') : LockInv txs s₀ σ' := by
  cases ev with
  | lock i =>
    simp only [lockStep] at h
    split at h <;> cases h
    rename_i hfree hwait hrow
    refine ⟨hi.serial, fun j read hj => ?_⟩
    by_cases hji : j = i
    · -- the new holder read its row now
      subst hji
      simp only [Function.update_same, LockPhase.holding.injEq] at hj
      exact ⟨Function.update_same _ _ _, hj ▸ hrow⟩
    · -- another holder holds another row, since this one was free
      simp only [Function.update_noteq hji] at hj ⊢
      have hne : (txs j).processExecutionId ≠ (txs i).processExecutionId := fun heq => by
        simpa [heq, hfree] using (hi.holding j read hj).1
      exact ⟨(Function.update_noteq hne _ _).trans (hi.holding j read hj).1,
        (hi.holding j read hj).2⟩
  | commit i =>
    simp only [lockStep] at h
    split at h
    · -- a lock holder commits its body, run on the row it read, which is the current one
      rename_i read hr
      obtain ⟨s, hs, rfl⟩ := Option.map_eq_some'.1 h
      rw [Store.setProcessExecution_of_eq (hi.holding i read hr).2] at hs
      obtain ⟨b, hrun⟩ := ProcessTx.commit_eq_some.1 hs
      refine hi.commit hs fun j read' hji hj => ?_
      have hne := hi.processExecutionId_ne hr hj hji
      exact ⟨Function.update_noteq hne _ _, ProcessTx.run_processExecutions hrun fun _ => hne⟩
    · -- a transaction that takes no lock changes no process row
      rename_i hw hl
      obtain ⟨s, hs, rfl⟩ := Option.map_eq_some'.1 h
      obtain ⟨b, hrun⟩ := ProcessTx.commit_eq_some.1 hs
      exact hi.commit hs fun j _ _ _ =>
        ⟨rfl, ProcessTx.run_processExecutions hrun fun hl' => absurd hl' (by simp [hl])⟩
    · cases h
  | abort i =>
    simp only [lockStep] at h
    split at h <;> cases h
    · -- a holder rolls back and frees its row
      rename_i read hr
      refine ⟨hi.serial, fun j read' hj => ?_⟩
      obtain ⟨hji, hj⟩ := holding_of_update_finished hj
      exact ⟨(Function.update_noteq (hi.processExecutionId_ne hr hj hji) _ _).trans
        (hi.holding j read' hj).1, (hi.holding j read' hj).2⟩
    · exact ⟨hi.serial, fun j read' hj => hi.holding j read' (holding_of_update_finished hj).2⟩

/-- Every run of events keeps the lock invariant. -/
theorem lockRun_lockInv : ∀ {σ σ' : LockState n} (evs : List (LockEvent n)),
    LockInv txs s₀ σ → lockRun txs σ evs = some σ' → LockInv txs s₀ σ'
  | _, _, [], hi, h => by cases h; exact hi
  | _, _, _ :: evs, hi, h => by
    obtain ⟨σ₁, h₁, h⟩ := Option.bind_eq_some.1 h
    exact lockRun_lockInv evs (lockStep_lockInv hi h₁) h

end LockInv

/-- However the transactions interleave under the row locks, the process table they leave is
    the one their bodies leave when run one after another in commit order: no read-modify-write
    of a process row is lost. -/
theorem locked_commits_serialize {n : Nat} (txs : Fin n → ProcessTx) (s₀ : Store)
    (evs : List (LockEvent n)) {σ : LockState n}
    (h : lockRun txs (LockState.init n s₀) evs = some σ) :
    (serialRun txs σ.commits s₀).map Store.processExecutions = some σ.store.processExecutions :=
  by rw [(lockRun_lockInv evs (lockInv_init txs s₀) h).serial, Option.map_some']

/-- The two pending siblings of `twoStateStore` complete their execute phases with no
    decision. -/
def siblingCompletions : Fin 2 → ProcessTx
  | 0 => .completeExecute ⟨.minted 0, "S1", 1,
      ⟨.skipped, .running, 1, exampleStateInfo, none, {}⟩, ⟨[], none⟩, [], 0⟩
  | 1 => .completeExecute ⟨.minted 0, "S2", 1,
      ⟨.completed, .running, 1, exampleStateInfo, none, {}⟩, ⟨[], none⟩, [], 0⟩

theorem sibling_completions_serialize :
    lockRun siblingCompletions (LockState.init 2 twoStateStore) [.lock 1, .lock 0] = none ∧
    ∃ σ, lockRun siblingCompletions (LockState.init 2 twoStateStore)
        [.lock 1, .commit 1, .lock 0, .commit 0] = some σ ∧ σ.commits = [1, 0] ∧
      (σ.store.processExecutions (.minted 0)).map
        (·.stateExecutionSequenceMaps.isPendingEmpty) = some true ∧
      (serialRun siblingCompletions σ.commits twoStateStore).map Store.processExecutions =
        some σ.store.processExecutions :=
  ⟨rfl, _, rfl, rfl, rfl, locked_commits_serialize siblingCompletions twoStateStore
    [.lock 1, .commit 1, .lock 0, .commit 0] rfl⟩

/-- Without the lock, "S2"'s completion run on the row read before "S1"'s commit puts "S1"
    back in the pending map. -/
example : (((siblingCompletions 0).commit twoStateStore).bind fun s =>
    (siblingCompletions 1).commit (s.setProcessExecution (.minted 0) twoStateProcessRow)).map
      (fun s => (s.processExecutions (.minted 0)).map
        (·.stateExecutionSequenceMaps.isPendingEmpty)) = some (some false) := by
  rfl

end Xdb
