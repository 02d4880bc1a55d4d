import Xdb.Theory.TaskPages
import Xdb.Theory.LocalQueueOrder

/-!
# Task Sequences Drawn at Insert

`InsertImmediateTask` leaves `task_sequence` to the column's default, the next value of a
database sequence. The value is drawn when the INSERT runs and is not given back on rollback,
while the row is seen by other sessions only when its transaction commits.
`BatchSelectWorkerTasks` and `BatchDeleteWorkerTask` run outside any transaction and see
committed rows only. The rest of this development runs each transaction atomically and draws
the sequence at the commit (`Store.insertImmediateTask`). That is the serial case of this
module's model, where one transaction inserts and commits while no other is in flight
(`insertImmediateTask_eq_insert_commit`).

Here transactions interleave. Every row, committed or in flight, keeps a distinct sequence
below the counter (`InsertInv`, kept by every event). The committed table is no longer in
sequence order, since a transaction that drew early can commit late. So when the poller
deletes a page's range, from the start sequence to the page's last sequence, the delete
takes the page's rows and, with them, every row that was in flight at the read and has since
committed with a sequence in the range. No read returned those rows. Every row inserted after
the read lies above the range (`range_delete_takes_in_flight_tasks`).

## Main definitions

* `ImmediateTaskRowForInsert`: A task row before the database gives it a sequence.
* `InsertState`, `insertStep`, `insertRun`: Committed rows and rows in flight under
  interleaved inserts, commits, rollbacks and deletes.
* `InsertInv`: Sequences are distinct and below the counter.

## Theorems

* `insertImmediateTask_eq_insert_commit`: The atomic insert is an insert and a commit with
  nothing else in flight.
* `insertStep_cases`, `insertRun_rows`: What events do to the rows.
* `mem_batchSelectWorkerTasks_iff`: Over distinct sequences, a page is the rows of its range.
* `range_delete_takes_in_flight_tasks`: What the range delete of a page deletes.
-/

namespace Xdb

/-- `extensions.ImmediateTaskRowForInsert`: an immediate-task row before the database gives it
    a sequence. -/
structure ImmediateTaskRowForInsert where
  shardId : Nat
  processExecutionId : Uuid
  stateId : String
  stateIdSequence : Nat
  taskType : ImmediateTaskType
  info : ImmediateTaskInfoJson
  deriving DecidableEq, Repr

/-- The row stored under sequence `seq`. -/
def ImmediateTaskRowForInsert.withSequence (row : ImmediateTaskRowForInsert) (seq : Nat) :
    ImmediateTaskRow :=
  ⟨row.shardId, seq, row.processExecutionId, row.stateId, row.stateIdSequence, row.taskType,
    row.info⟩

/-- The committed store and the rows open transactions inserted, in insert order, each with
    the transaction that inserted it. -/
structure InsertState (n : Nat) where
  store : Store
  pending : List (Fin n × ImmediateTaskRow)

/-- No transaction in flight. -/
def InsertState.init (n : Nat) (s : Store) : InsertState n := ⟨s, []⟩

/-- The rows inserted and not committed. -/
def InsertState.inFlight {n : Nat} (σ : InsertState n) : List ImmediateTaskRow :=
  σ.pending.map Prod.snd

/-- Every row, committed or in flight. -/
def InsertState.rows {n : Nat} (σ : InsertState n) : List ImmediateTaskRow :=
  σ.store.immediateTasks ++ σ.inFlight

/-- What happens to the task table: a transaction inserts a row, commits or rolls back, or a
    committed statement deletes the rows a predicate selects. -/
inductive InsertEvent (n : Nat)
  | insert (i : Fin n) (row : ImmediateTaskRowForInsert)
  | commit (i : Fin n)
  | rollback (i : Fin n)
  | delete (p : ImmediateTaskRow → Bool)

/-- One event. An insert draws the counter at once; a commit shows the transaction's rows;
    a rollback drops them and leaves the counter where it is. -/
def insertStep {n : Nat} (σ : InsertState n) : InsertEvent n → InsertState n
  | .insert i row => ⟨{ σ.store with
      nextImmediateTaskSequence := σ.store.nextImmediateTaskSequence + 1 },
      σ.pending ++ [(i, row.withSequence σ.store.nextImmediateTaskSequence)]⟩
  | .commit i => ⟨{ σ.store with
      immediateTasks := σ.store.immediateTasks ++ (σ.pending.filter (·.1 == i)).map Prod.snd },
      σ.pending.filter (·.1 != i)⟩
  | .rollback i => ⟨σ.store, σ.pending.filter (·.1 != i)⟩
  | .delete p => ⟨{ σ.store with immediateTasks := σ.store.immediateTasks.filter (!p ·) },
      σ.pending⟩

/-- A sequence of events. -/
def insertRun {n : Nat} : InsertState n → List (InsertEvent n) → InsertState n
  | σ, [] => σ
  | σ, ev :: evs => insertRun (insertStep σ ev) evs

/-- The atomic model's insert is the serial case: one transaction inserts and commits while
    no other is in flight. -/
theorem insertImmediateTask_eq_insert_commit {n : Nat} {σ : InsertState n} (hσ : σ.pending = [])
    (i : Fin n) (row : ImmediateTaskRowForInsert) :
    σ.store.insertImmediateTask row.shardId row.processExecutionId row.stateId
        row.stateIdSequence row.taskType row.info =
      .ok (insertRun σ [.insert i row, .commit i]).store ∧
    (insertRun σ [.insert i row, .commit i]).pending = [] := by
  simp [insertRun, insertStep, hσ, Store.insertImmediateTask, Store.appendImmediateTask,
    ImmediateTaskRowForInsert.withSequence]

/-! ### What events do to the rows -/

section Rows

variable {n : Nat}

/-- What one event does to the rows: an insert adds one under the counter and advances it;
    a commit, a rollback or a delete keeps the counter and a part of the rows. -/
theorem insertStep_cases (σ : InsertState n) (ev : InsertEvent n) :
    (∃ t, (insertStep σ ev).rows = σ.rows ++ [t] ∧
      t.taskSequence = σ.store.nextImmediateTaskSequence ∧
      (insertStep σ ev).store.nextImmediateTaskSequence =
        σ.store.nextImmediateTaskSequence + 1) ∨
    (∃ l, (insertStep σ ev).rows.Perm l ∧ l.Sublist σ.rows) ∧
      (insertStep σ ev).store.nextImmediateTaskSequence = σ.store.nextImmediateTaskSequence := by
  cases ev with
  | insert i row =>
    -- the row takes the counter at once, though only its transaction sees it
    exact .inl ⟨row.withSequence σ.store.nextImmediateTaskSequence,
      by simp [insertStep, InsertState.rows, InsertState.inFlight], rfl, rfl⟩
  | commit i =>
    -- the committed rows move over from in flight
    refine .inr ⟨⟨σ.rows, ?_, .refl _⟩, rfl⟩
    simp only [insertStep, InsertState.rows, InsertState.inFlight, List.append_assoc]
    refine .append_left _ ?_
    rw [← List.map_append]
    exact (List.filter_append_perm _ _).map _
  | rollback i =>
    -- the rows in flight lose the transaction's; the drawn values stay used
    exact .inr ⟨⟨_, .refl _, ((List.filter_sublist _).map _).append_left _⟩, rfl⟩
  | delete p =>
    -- the committed rows lose those the predicate selects
    exact .inr ⟨⟨_, .refl _, (List.filter_sublist _).append_right _⟩, rfl⟩

/-- Every row after the events was a row before them, or was drawn by them at or above the
    counter, which never goes back. -/
theorem insertRun_rows : ∀ (σ : InsertState n) (evs : List (InsertEvent n)),
    σ.store.nextImmediateTaskSequence ≤ (insertRun σ evs).store.nextImmediateTaskSequence ∧
      ∀ u ∈ (insertRun σ evs).rows, u ∈ σ.rows ∨
        σ.store.nextImmediateTaskSequence ≤ u.taskSequence
  | σ, [] => ⟨le_rfl, fun _ hu => .inl hu⟩
  | σ, ev :: evs => by
    obtain ⟨hle, hrows⟩ := insertRun_rows (insertStep σ ev) evs
    rw [insertRun]
    rcases insertStep_cases σ ev with ⟨t, ht, hseq, hnext⟩ | ⟨⟨l, hperm, hsub⟩, hnext⟩
    · -- an insert: the new row takes the counter
      refine ⟨by omega, fun u hu => ?_⟩
      rcases hrows u hu with h | h
      · rcases List.mem_append.1 (ht ▸ h) with h | h
        · exact .inl h
        · exact .inr (List.mem_singleton.1 h ▸ hseq.ge)
      · exact .inr (by omega)
    · -- a commit, a rollback or a delete: no new row
      refine ⟨by omega, fun u hu => ?_⟩
      rcases hrows u hu with h | h
      · exact .inl (hsub.subset (hperm.subset h))
      · exact .inr (hnext ▸ h)

/-- Sequences are distinct and below the counter, over the committed rows and those in
    flight. -/
structure InsertInv (σ : InsertState n) : Prop where
  nodup : (σ.rows.map ImmediateTaskRow.taskSequence).Nodup
  below : ∀ t ∈ σ.rows, t.taskSequence < σ.store.nextImmediateTaskSequence

theorem insertStep_insertInv {σ : InsertState n} (hi : InsertInv σ) (ev : InsertEvent n) :
    InsertInv (insertStep σ ev) := by
  rcases insertStep_cases σ ev with ⟨t, ht, hseq, hnext⟩ | ⟨⟨l, hperm, hsub⟩, hnext⟩
  · -- the new row takes the counter, above every row there was
    refine ⟨?_, fun u hu => ?_⟩
    · rw [ht, List.map_append, List.nodup_append]
      refine ⟨hi.nodup, List.nodup_singleton _, fun a ha hb => ?_⟩
      obtain ⟨u, hu, rfl⟩ := List.mem_map.1 ha
      rw [List.map_singleton, List.mem_singleton, hseq] at hb
      exact (hi.below u hu).ne hb
    · rw [hnext]
      rcases List.mem_append.1 (ht ▸ hu) with hu | hu
      · exact Nat.lt_succ_of_lt (hi.below u hu)
      · rw [List.mem_singleton.1 hu, hseq]
        exact Nat.lt_succ_self _
  · exact ⟨(hperm.map _).nodup_iff.2 (hi.nodup.sublist (hsub.map _)),
      fun u hu => hnext ▸ hi.below u (hsub.subset (hperm.subset hu))⟩

theorem insertRun_insertInv {σ : InsertState n} (hi : InsertInv σ) :
    ∀ evs, InsertInv (insertRun σ evs)
  | [] => hi
  | ev :: evs => insertRun_insertInv (insertStep_insertInv hi ev) evs

/-- Every store the engine reaches is a state of this model with nothing in flight. -/
theorem insertInv_of_reachable {cfg : ProcessorConfig} {e : Engine} (hr : Reachable cfg e) :
    InsertInv (InsertState.init n e.store) := by
  have hq := (reachable_queueInv hr).table
  have hrows : (InsertState.init n e.store).rows = e.store.immediateTasks := List.append_nil _
  refine ⟨?_, fun t ht => hq.below t (hrows ▸ ht)⟩
  rw [hrows]
  exact List.pairwise_map.2 (hq.sorted.imp Nat.ne_of_lt)

end Rows

/-! ### The immediate-task page over distinct sequences -/

section WorkerPage

variable {s : Store} {shardId : Nat} {start : Int} {pageSize : Nat}

/-- `ORDER BY task_sequence` over rows with distinct sequences puts them in strictly
    increasing order. -/
theorem mergeSort_sequenceOrder {l : List ImmediateTaskRow}
    (hl : (l.map ImmediateTaskRow.taskSequence).Nodup) :
    (l.mergeSort sequenceOrder).Pairwise fun a b => a.taskSequence < b.taskSequence := by
  have hsorted : (l.mergeSort sequenceOrder).Pairwise (sequenceOrder · ·) := List.sorted_mergeSort
    (fun a b c h₁ h₂ => by simp only [sequenceOrder, decide_eq_true_eq] at *; omega)
    (fun a b => by simp only [sequenceOrder, Bool.or_eq_true, decide_eq_true_eq]; omega) l
  have hne : (l.mergeSort sequenceOrder).Pairwise fun a b => a.taskSequence ≠ b.taskSequence :=
    List.pairwise_map.1 (((List.mergeSort_perm l _).map _).nodup_iff.2 hl)
  exact (hsorted.and hne).imp fun ⟨h₁, h₂⟩ =>
    Nat.lt_of_le_of_ne (by simpa [sequenceOrder] using h₁) h₂

/-- The rows the page query sorts come out in increasing sequence order. -/
theorem mergeSort_filter_sequenceOrder
    (hs : (s.immediateTasks.map ImmediateTaskRow.taskSequence).Nodup) :
    ((s.immediateTasks.filter fun t => t.shardId = shardId ∧ start ≤ t.taskSequence).mergeSort
      sequenceOrder).Pairwise fun a b => a.taskSequence < b.taskSequence :=
  mergeSort_sequenceOrder (hs.sublist ((List.filter_sublist _).map _))

/-- A row of a page is a stored row of the shard from the start sequence, at most the page's
    last. -/
theorem mem_batchSelectWorkerTasks
    (hs : (s.immediateTasks.map ImmediateTaskRow.taskSequence).Nodup) {last : ImmediateTaskRow}
    (hlast : (batchSelectWorkerTasks s shardId start pageSize).getLast? = some last)
    {u : ImmediateTaskRow} (hu : u ∈ batchSelectWorkerTasks s shardId start pageSize) :
    u ∈ s.immediateTasks ∧ u.shardId = shardId ∧ start ≤ u.taskSequence ∧
      u.taskSequence ≤ last.taskSequence := by
  have hm : ((s.immediateTasks.filter fun t => t.shardId = shardId ∧
      start ≤ t.taskSequence).mergeSort sequenceOrder).Pairwise
        fun a b => a.taskSequence < b.taskSequence :=
    mergeSort_filter_sequenceOrder hs
  obtain ⟨ys, hys⟩ := List.getLast?_eq_some_iff.1 hlast
  have hf := List.mem_filter.1 ((List.mergeSort_perm _ _).subset (List.mem_of_mem_take hu))
  simp only [decide_eq_true_eq] at hf
  refine ⟨hf.1, hf.2.1, hf.2.2, ?_⟩
  -- the page is in increasing order and ends at `last`
  have hp := (hm.sublist (List.take_sublist pageSize _))
  unfold batchSelectWorkerTasks at hys hu
  rw [hys] at hp hu
  rcases List.mem_append.1 hu with hu | hu
  · exact Nat.le_of_lt ((List.pairwise_append.1 hp).2.2 u hu last (List.mem_singleton_self _))
  · rw [List.mem_singleton.1 hu]

/-- Over distinct sequences, a stored row is on a page exactly when it is of the shard and its
    sequence lies from the start sequence to the page's last. -/
theorem mem_batchSelectWorkerTasks_iff
    (hs : (s.immediateTasks.map ImmediateTaskRow.taskSequence).Nodup) {last : ImmediateTaskRow}
    (hlast : (batchSelectWorkerTasks s shardId start pageSize).getLast? = some last)
    {u : ImmediateTaskRow} (hu : u ∈ s.immediateTasks) :
    u ∈ batchSelectWorkerTasks s shardId start pageSize ↔
      u.shardId = shardId ∧ start ≤ u.taskSequence ∧ u.taskSequence ≤ last.taskSequence := by
  refine ⟨fun h => (mem_batchSelectWorkerTasks hs hlast h).2, fun ⟨hsh, hst, hle⟩ => ?_⟩
  -- a row left off the page sorts after its last row
  by_contra hn
  have := rel_of_not_mem_take (mergeSort_filter_sequenceOrder hs) pageSize
    (List.mem_of_getLast?_eq_some hlast)
    ((List.mergeSort_perm _ _).mem_iff.2 (List.mem_filter.2 ⟨hu, by simp [hsh, hst]⟩)) hn
  omega

end WorkerPage

/-- After a page read at `σ₀` and any events since, the range delete from the start sequence
    to the page's last sequence deletes, of the committed rows, the page's rows and the rows
    that were in flight at the read with a sequence in the range, and no other. No row in
    flight at the read is on the page, and every row inserted since the read lies above the
    range. -/
theorem range_delete_takes_in_flight_tasks {n : Nat} {σ₀ : InsertState n} (hi : InsertInv σ₀)
    (evs : List (InsertEvent n)) (shardId : Nat) (start : Int) (pageSize : Nat)
    {last : ImmediateTaskRow}
    (hlast : (batchSelectWorkerTasks σ₀.store shardId start pageSize).getLast? = some last) :
    (batchDeleteWorkerTask (insertRun σ₀ evs).store
        ⟨shardId, start, last.taskSequence⟩).immediateTasks =
      (insertRun σ₀ evs).store.immediateTasks.filter (fun u =>
        ¬(u ∈ batchSelectWorkerTasks σ₀.store shardId start pageSize ∨
          u ∈ σ₀.inFlight ∧ u.shardId = shardId ∧ start ≤ u.taskSequence ∧
            u.taskSequence ≤ last.taskSequence)) ∧
    (∀ u ∈ σ₀.inFlight, u ∉ batchSelectWorkerTasks σ₀.store shardId start pageSize) ∧
    ∀ u ∈ (insertRun σ₀ evs).store.immediateTasks, u ∉ σ₀.rows →
      last.taskSequence < u.taskSequence := by
  have hnd := List.nodup_append.1 (List.map_append _ σ₀.store.immediateTasks _ ▸ hi.nodup)
  have hpage := fun {u} (hu : u ∈ batchSelectWorkerTasks σ₀.store shardId start pageSize) =>
    mem_batchSelectWorkerTasks hnd.1 hlast hu
  have hbelow : last.taskSequence < σ₀.store.nextImmediateTaskSequence :=
    hi.below last (List.mem_append_left _ (hpage (List.mem_of_getLast?_eq_some hlast)).1)
  have hrows := (insertRun_rows σ₀ evs).2
  refine ⟨List.filter_congr fun u hu => ?_, fun u hf hp => ?_, fun u hu hu₀ => ?_⟩
  · -- in the range, a row came from the table read (then it is on the page), was in flight
    -- at the read, or was drawn since (then it lies above the range)
    have key : (u ∈ batchSelectWorkerTasks σ₀.store shardId start pageSize ∨
        u ∈ σ₀.inFlight ∧ u.shardId = shardId ∧ start ≤ u.taskSequence ∧
          u.taskSequence ≤ last.taskSequence) ↔
        u.shardId = shardId ∧ start ≤ u.taskSequence ∧ u.taskSequence ≤ last.taskSequence := by
      refine ⟨fun h => h.elim (fun h => (hpage h).2) And.right, fun hr => ?_⟩
      rcases hrows u (List.mem_append_left _ hu) with h | h
      · rcases List.mem_append.1 h with h | h
        · exact .inl ((mem_batchSelectWorkerTasks_iff hnd.1 hlast h).2 hr)
        · exact .inr ⟨h, hr⟩
      · exact absurd hr.2.2 (by omega)
    simp only [batchDeleteWorkerTask, key, Int.ofNat_le]
  · -- a row in flight at the read has a sequence no committed row has
    exact hnd.2.2 (List.mem_map_of_mem _ (hpage hp).1) (List.mem_map_of_mem _ hf)
  · rcases hrows u (List.mem_append_left _ hu) with h | h
    · exact absurd h hu₀
    · omega

/-- Transaction 0 draws sequence 0 and transaction 1 sequence 1; transaction 1 commits first. -/
def earlyDrawLateCommit : List (InsertEvent 2) :=
  [.insert 0 ⟨0, .minted 0, "A", 1, .execute, {}⟩, .insert 1 ⟨0, .minted 0, "B", 1, .execute, {}⟩,
    .commit 1]

/-- The page read after the first commit holds "B" alone; "A" commits after the read, and the
    range delete of the page takes it unread. -/
theorem late_commit_deleted_unread :
    batchSelectWorkerTasks (insertRun (InsertState.init 2 Store.empty) earlyDrawLateCommit).store
        0 0 10 = [⟨0, 1, .minted 0, "B", 1, .execute, {}⟩] ∧
    (insertRun (insertRun (InsertState.init 2 Store.empty) earlyDrawLateCommit)
        [.commit 0]).store.immediateTasks =
      [⟨0, 1, .minted 0, "B", 1, .execute, {}⟩, ⟨0, 0, .minted 0, "A", 1, .execute, {}⟩] ∧
    (batchDeleteWorkerTask (insertRun (insertRun (InsertState.init 2 Store.empty)
        earlyDrawLateCommit) [.commit 0]).store ⟨0, 0, 1⟩).immediateTasks = [] ∧
    (batchDeleteWorkerTask (insertRun (insertRun (InsertState.init 2 Store.empty)
        earlyDrawLateCommit) [.commit 0]).store ⟨0, 0, 1⟩).immediateTasks =
      (insertRun (insertRun (InsertState.init 2 Store.empty) earlyDrawLateCommit)
          [.commit 0]).store.immediateTasks.filter (fun u =>
        ¬(u ∈ batchSelectWorkerTasks (insertRun (InsertState.init 2 Store.empty)
            earlyDrawLateCommit).store 0 0 10 ∨
          u ∈ (insertRun (InsertState.init 2 Store.empty) earlyDrawLateCommit).inFlight ∧
            u.shardId = 0 ∧ (0 : Int) ≤ u.taskSequence ∧ u.taskSequence ≤ 1)) ∧
    (∀ u ∈ (insertRun (InsertState.init 2 Store.empty) earlyDrawLateCommit).inFlight,
      u ∉ batchSelectWorkerTasks (insertRun (InsertState.init 2 Store.empty)
        earlyDrawLateCommit).store 0 0 10) ∧
    ∀ u ∈ (insertRun (insertRun (InsertState.init 2 Store.empty) earlyDrawLateCommit)
        [.commit 0]).store.immediateTasks,
      u ∉ (insertRun (InsertState.init 2 Store.empty) earlyDrawLateCommit).rows →
        1 < u.taskSequence := by
  have hpage : batchSelectWorkerTasks (insertRun (InsertState.init 2 Store.empty)
      earlyDrawLateCommit).store 0 0 10 = [⟨0, 1, .minted 0, "B", 1, .execute, {}⟩] := by
    have hrows : (insertRun (InsertState.init 2 Store.empty)
        earlyDrawLateCommit).store.immediateTasks = [⟨0, 1, .minted 0, "B", 1, .execute, {}⟩] :=
      rfl
    rw [batchSelectWorkerTasks, hrows,
      List.mergeSort_of_sorted ((List.pairwise_singleton _ _).sublist (List.filter_sublist _))]
    rfl
  have hi := insertRun_insertInv (σ := InsertState.init 2 Store.empty)
    ⟨List.nodup_nil, fun _ h => nomatch h⟩ earlyDrawLateCommit
  exact ⟨hpage, rfl, rfl, range_delete_takes_in_flight_tasks hi [.commit 0] 0 0 10
    (by rw [hpage]; rfl)⟩

end Xdb
