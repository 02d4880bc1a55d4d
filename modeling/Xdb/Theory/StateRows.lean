import Xdb.Theory.Steps

/-!
# State Rows: Phase Progressions and the Version Gate

Every committed value of a state row follows the phase progressions of the spec, and every
change of a row raises its version by exactly one (`RowStep`). Three facts carry it.

* The processor calls a phase only from a snapshot in which that phase is running, and the
  transaction that commits the call's result is gated on the snapshot's version. A row at
  the snapshot's version still has the snapshot's statuses, since every change bumps the
  version (`SnapshotOk`).
* A row only ever holds one of nine pairs of phase statuses (`phasesOk`), so a running
  wait-until phase has an undefined execute phase, and an execute phase that runs has a
  wait-until phase that completed or was skipped.
* The batch abort bumps exactly the rows it changes, and a force close carries no next
  state (`checkDecision`), so no row is inserted and aborted in one transaction.

This module states each transaction's effect on the state-row table once
(`*_asyncStateExecutions`), proves that every `Transition` moves each row by a `RowStep`
and keeps `phasesOk`, and that every step keeps the snapshots of the workers valid.

## Main definitions

* `phasesOk`: The pairs of phase statuses a row may hold.
* `WaitUntilStep`, `ExecuteStep`, `RowStep`: One committed change of a row.
* `SnapshotOk`: What a worker in a call holds about its row.
* `RowsInv`: The engine invariant of the state rows.

## Theorems

* `transition_rows`: Every transaction moves each row by a `RowStep` and keeps `phasesOk`.
* `reachable_rowsInv`: Every reachable state keeps `RowsInv`.
* `state_rows_follow_phase_progressions`: Every step of every run moves each row by a
  `RowStep`.
* `worker_calls_hold_running_snapshots`: Every worker in a call holds a valid snapshot.
-/

namespace Xdb

/-- The pairs of phase statuses a state row can hold. -/
def phasesOk : StateExecutionStatus × StateExecutionStatus → Bool
  | (.running, .undefined) | (.waiting, .undefined) | (.aborted, .undefined) => true
  | (.completed, .running) | (.completed, .completed) | (.completed, .aborted) => true
  | (.skipped, .running) | (.skipped, .completed) | (.skipped, .aborted) => true
  | _ => false

/-- One committed value of the wait-until phase after another. -/
def WaitUntilStep (w w' : StateExecutionStatus) : Prop :=
  w' = w ∨ w = .running ∧ (w' = .waiting ∨ w' = .completed ∨ w' = .aborted) ∨
    w = .waiting ∧ (w' = .completed ∨ w' = .aborted)

/-- One committed value of the execute phase after another: it starts running only beside a
    wait-until phase that has left running and waiting. -/
def ExecuteStep (p p' : StateExecutionStatus × StateExecutionStatus) : Prop :=
  p'.2 = p.2 ∨ p.2 = .undefined ∧ p'.2 = .running ∧ p'.1 ≠ .running ∧ p'.1 ≠ .waiting ∨
    p.2 = .running ∧ (p'.2 = .completed ∨ p'.2 = .aborted)

/-- Two consecutive committed values of a state row: inserted at version 1 with initial
    statuses, unchanged, or one version up under the phase progressions; never deleted. -/
def RowStep : Option AsyncStateExecutionRow → Option AsyncStateExecutionRow → Prop
  | none, none => True
  | none, some r => r.version = 1 ∧
      (r.phases = (.skipped, .running) ∨ r.phases = (.running, .undefined))
  | some _, none => False
  | some r, some r' => r' = r ∨ r'.version = r.version + 1 ∧
      WaitUntilStep r.waitUntilStatus r'.waitUntilStatus ∧ ExecuteStep r.phases r'.phases

/-- Every state row holds a legal pair of phase statuses. -/
def PhasesInv (s : Store) : Prop :=
  ∀ k r, s.asyncStateExecutions k = some r → phasesOk r.phases = true

/-- A running wait-until phase sits beside an undefined execute phase. -/
theorem phasesOk_running {p : StateExecutionStatus × StateExecutionStatus} (h : phasesOk p = true)
    (hw : p.1 = .running) : p.2 = .undefined := by
  obtain ⟨w, e⟩ := p
  subst hw
  cases e <;> simp_all [phasesOk]

theorem rowStep_refl : ∀ o : Option AsyncStateExecutionRow, RowStep o o
  | none => trivial
  | some _ => .inl rfl

theorem rowStep_written {r : AsyncStateExecutionRow} {w : StatusWrite}
    {f : Option StateExecutionFailureJson}
    (hw : WaitUntilStep r.waitUntilStatus (w.apply r.phases).1)
    (he : ExecuteStep r.phases (w.apply r.phases)) : RowStep (some r) (some (r.written w f)) :=
  .inr ⟨rfl, hw, he⟩

theorem rowStep_unchanged (r : AsyncStateExecutionRow) (f : Option StateExecutionFailureJson) :
    RowStep (some r) (some (r.written .unchanged f)) :=
  rowStep_written (.inl rfl) (.inl rfl)

/-- A legal row under the batch abort: a running phase becomes aborted, one version up. -/
theorem abortRunning_rowStep {r : AsyncStateExecutionRow} (h : phasesOk r.phases = true) :
    RowStep (some r) (some (Store.abortRunning r)) ∧
      phasesOk (Store.abortRunning r).phases = true := by
  obtain ⟨w, e, v, c, cr, f, i, input⟩ := r
  simp only [AsyncStateExecutionRow.phases] at h
  cases w <;> cases e <;> simp_all [phasesOk, RowStep,
    Store.abortRunning, StateExecutionStatus.toNat, AsyncStateExecutionRow.phases, WaitUntilStep,
    ExecuteStep]

/-! ### Each transaction's effect on the state-row table -/

theorem conditionalUpdate_asyncStateExecutions {s s' : Store} {k : AsyncStateExecutionKey}
    {v : Nat} {w : StatusWrite} {f : Option StateExecutionFailureJson}
    (h : s.conditionalUpdate k v w f = .ok s') :
    ∃ r, s.asyncStateExecutions k = some r ∧ r.version = v ∧
      s'.asyncStateExecutions =
        (s.setAsyncStateExecution k (r.written w f)).asyncStateExecutions := by
  obtain ⟨r, hr, hv, rfl⟩ := Store.conditionalUpdate_eq_ok h
  exact ⟨r, hr, hv, rfl⟩

theorem publishToLocalQueue_asyncStateExecutions {s s' : Store} {pid : Uuid}
    {ms : List LocalQueueMessage} (h : publishToLocalQueue s pid ms = .ok s') :
    s'.asyncStateExecutions = s.asyncStateExecutions := by
  obtain ⟨_, _, -, rfl⟩ := publishToLocalQueue_eq_ok h
  rfl

/-- A committed wait-until result writes its row once, under the snapshot's version. -/
theorem doProcessWaitUntilExecutionTx_asyncStateExecutions {s s' : Store}
    {request : ProcessWaitUntilExecutionRequest} {b : Bool}
    (h : doProcessWaitUntilExecutionTx s request = .ok (b, s')) :
    ∃ r, s.asyncStateExecutions request.key = some r ∧ r.version = request.prepare.previousVersion ∧
      s'.asyncStateExecutions = (s.setAsyncStateExecution request.key
        (r.written (waitUntilStatusWrite request.commandRequest) none)).asyncStateExecutions := by
  obtain ⟨s₁, h₁, h₂⟩ := doProcessWaitUntilExecutionTx_eq_ok h
  obtain ⟨r, hr, hv, he⟩ := conditionalUpdate_asyncStateExecutions h₁
  refine ⟨r, hr, hv, ?_⟩
  rw [publishToLocalQueue_asyncStateExecutions h₂, ← he]
  split <;> rfl

/-- A backoff that commits rewrites its row once with the same statuses, one version up. -/
theorem doBackoffImmediateTaskTx_asyncStateExecutions {s s' : Store}
    {request : BackoffImmediateTaskRequest} (h : doBackoffImmediateTaskTx s request = .ok s') :
    ∃ r, s.asyncStateExecutions request.task.key = some r ∧
      r.version = request.prep.previousVersion ∧
      s'.asyncStateExecutions = (s.setAsyncStateExecution request.task.key (r.written .unchanged
        (some ⟨request.lastFailureStatus, request.lastFailureDetails⟩))).asyncStateExecutions := by
  obtain ⟨s₁, h₁, rfl⟩ := doBackoffImmediateTaskTx_eq_ok h
  obtain ⟨r, hr, hv, he⟩ := conditionalUpdate_asyncStateExecutions h₁
  exact ⟨r, hr, hv, he⟩

theorem ProcessClose.write_asyncStateExecutions (c : ProcessClose) (s : Store) (pid : Uuid)
    (p : ProcessExecutionRow) (k : AsyncStateExecutionKey) :
    (c.write s pid p).asyncStateExecutions k =
      if c.toAbortRunningAsyncStates = true ∧ k.processExecutionId = pid then
        (s.asyncStateExecutions k).map Store.abortRunning
      else s.asyncStateExecutions k := by
  unfold ProcessClose.write
  by_cases hc : c.toAbortRunningAsyncStates = true <;> by_cases hk : k.processExecutionId = pid <;>
    simp [hc, hk, Store.writeProcessExecution, Store.abortRunningOf]

theorem toAbortRunningAsyncStates_isSome {status : ProcessExecutionStatus} {w : Bool}
    {m : StateExecutionSequenceMaps} {decision : Option ThreadCloseType}
    (h : (closeProcessExecution status w m decision).toAbortRunningAsyncStates = true) :
    decision.isSome = true := by
  unfold closeProcessExecution at h
  split at h
  · cases h
  · split at h <;> first | cases h | rfl

/-- A committed completion: its row completed under the snapshot's version, the next states
    inserted, and, when the close asks for it, the batch abort over the process's rows. -/
theorem doCompleteExecuteExecutionTx_asyncStateExecutions {s s' : Store}
    {request : CompleteExecuteExecutionRequest} {b : Bool}
    (h : doCompleteExecuteExecutionTx s request = .ok (b, s')) :
    ∃ r s₂, ∃ abort : Bool, s.asyncStateExecutions request.key = some r ∧
      r.version = request.prepare.previousVersion ∧
      StartsStates (s.setAsyncStateExecution request.key (r.written .completed none)) s₂ ∧
      (request.stateDecision.nextStates = [] →
        s₂ = s.setAsyncStateExecution request.key (r.written .completed none)) ∧
      (abort = true → request.stateDecision.threadCloseDecision.isSome = true) ∧
      ∀ k, s'.asyncStateExecutions k =
        if abort = true ∧ k.processExecutionId = request.processExecutionId then
          (s₂.asyncStateExecutions k).map Store.abortRunning
        else s₂.asyncStateExecutions k := by
  obtain ⟨p, s₁, m, m', s₂, -, h₁, -, h₂, h₃⟩ := doCompleteExecuteExecutionTx_eq_ok h
  obtain ⟨r, hr, hv, rfl⟩ := Store.conditionalUpdate_eq_ok h₁
  refine ⟨r, s₂, (closeProcessExecution p.status p.waitToComplete m'
    request.stateDecision.threadCloseDecision).toAbortRunningAsyncStates, hr, hv,
    (startNextStates_eq_ok h₂).2, fun hn => ?_, toAbortRunningAsyncStates_isSome, fun k => ?_⟩
  · rw [hn] at h₂
    cases h₂
    rfl
  · rw [publishToLocalQueue_asyncStateExecutions h₃, ProcessClose.write_asyncStateExecutions]

/-- A committed start inserts the start state's row where there was none. -/
theorem startProcess_asyncStateExecutions (s : Store) (request : ProcessExecutionStartRequest)
    (now : Int) (k : AsyncStateExecutionKey) :
    (startProcess s request now).2.asyncStateExecutions k = s.asyncStateExecutions k ∨
      s.asyncStateExecutions k = none ∧ ∃ r c,
        (startProcess s request now).2.asyncStateExecutions k = some r ∧ r.version = 1 ∧
          r.phases = initialStatuses c := by
  rcases startProcess_snd s request now with he | ⟨id, h⟩
  · exact .inl (by rw [he])
  obtain ⟨-, s₁, s₂, h₁, h₂, h₃⟩ := doStartProcessTx_eq_started h
  obtain ⟨-, rfl⟩ := Store.insertLatestProcessExecution_eq_ok h₁
  rw [(Store.insertProcessExecution_eq_ok h₃).2]
  rcases insertStartState_eq_ok h₂ with ⟨-, rfl⟩ | ⟨sid, -, hn, rfl⟩
  · exact .inl rfl
  by_cases hk : k = ⟨id, sid, 1⟩
  · subst hk
    exact .inr ⟨hn, initialRow request.startStateConfig request.startStateInput
      ⟨"", "", request.processType, request.workerUrl, none⟩, request.startStateConfig,
      by simp [Store.setProcessExecution, Store.appendImmediateTask], rfl, rfl⟩
  · exact .inl (by simp [Store.setProcessExecution, Store.appendImmediateTask, Store.mustNewUUID,
      hk])

/-! ### Every transaction moves each row by a `RowStep` -/

/-- The state-row table moves by a `RowStep` at every key and stays legal. -/
def RowsAdvance (s s' : Store) : Prop :=
  (∀ k, RowStep (s.asyncStateExecutions k) (s'.asyncStateExecutions k)) ∧ PhasesInv s'

theorem RowsAdvance.of_eq {s s' : Store} (hi : PhasesInv s)
    (h : s'.asyncStateExecutions = s.asyncStateExecutions) : RowsAdvance s s' :=
  ⟨fun _ => h ▸ rowStep_refl _, fun k r hr => hi k r (h ▸ hr)⟩

theorem RowsAdvance.of_write {s s' : Store} {k : AsyncStateExecutionKey}
    {r x : AsyncStateExecutionRow} (hi : PhasesInv s) (hr : s.asyncStateExecutions k = some r)
    (hs : RowStep (some r) (some x)) (hx : phasesOk x.phases = true)
    (h : s'.asyncStateExecutions = (s.setAsyncStateExecution k x).asyncStateExecutions) :
    RowsAdvance s s' := by
  refine ⟨fun k' => ?_, fun k' r' hr' => ?_⟩ <;> rw [h] at *
  · by_cases hk : k' = k
    · subst hk
      simpa [hr] using hs
    · simpa [hk] using rowStep_refl _
  · by_cases hk : k' = k
    · subst hk
      simp only [Store.setAsyncStateExecution_asyncStateExecutions, ite_true,
        Option.some.injEq] at hr'
      exact hr' ▸ hx
    · simp only [Store.setAsyncStateExecution_asyncStateExecutions, hk, ite_false] at hr'
      exact hi k' r' hr'

theorem phasesOk_initialStatuses (c : Option AsyncStateConfig) :
    phasesOk (initialStatuses c) = true := by
  rcases initialStatuses_cases c with h | h <;> rw [h] <;> rfl

theorem RowsAdvance.of_inserts {s s' : Store} (hi : PhasesInv s)
    (h : ∀ k, s'.asyncStateExecutions k = s.asyncStateExecutions k ∨
      s.asyncStateExecutions k = none ∧ ∃ r c, s'.asyncStateExecutions k = some r ∧
        r.version = 1 ∧ r.phases = initialStatuses c) : RowsAdvance s s' := by
  refine ⟨fun k => ?_, fun k r hr => ?_⟩
  · rcases h k with he | ⟨hn, r, c, hr, hv, hp⟩
    · exact he ▸ rowStep_refl _
    · rw [hn, hr]
      exact ⟨hv, hp ▸ initialStatuses_cases c⟩
  · rcases h k with he | ⟨-, r', c, hr', -, hp⟩
    · exact hi k r (he ▸ hr)
    · rw [hr] at hr'
      cases hr'
      exact hp ▸ phasesOk_initialStatuses c

/-- The write of a wait-until result, from a row whose wait-until phase runs. -/
theorem rowStep_waitUntilStatusWrite {r : AsyncStateExecutionRow}
    (hw : r.waitUntilStatus = .running) (he : r.executeStatus = .undefined) (c : CommandRequest) :
    RowStep (some r) (some (r.written (waitUntilStatusWrite c) none)) ∧
      phasesOk (r.written (waitUntilStatusWrite c) none).phases = true := by
  unfold waitUntilStatusWrite
  split <;> simp [RowStep, WaitUntilStep, ExecuteStep, AsyncStateExecutionRow.written,
    AsyncStateExecutionRow.phases, StatusWrite.apply, hw, he, phasesOk]

/-- The write of a completion, from a row whose execute phase runs beside a finished
    wait-until phase. -/
theorem rowStep_completed {r : AsyncStateExecutionRow} (hp : phasesOk r.phases = true)
    (hw : r.waitUntilStatus ≠ .running) (he : r.executeStatus = .running) :
    RowStep (some r) (some (r.written .completed none)) ∧
      phasesOk (r.written .completed none).phases = true ∧
      Store.abortRunning (r.written .completed none) = r.written .completed none := by
  obtain ⟨w, e, v, c, cr, f, i, input⟩ := r
  simp only [AsyncStateExecutionRow.phases] at hp hw he
  subst he
  cases w <;> simp_all [RowStep, WaitUntilStep, ExecuteStep, AsyncStateExecutionRow.written,
    AsyncStateExecutionRow.phases, StatusWrite.apply, phasesOk, Store.abortRunning,
    StateExecutionStatus.toNat]

theorem nextStates_eq_nil_of_checkDecision {d : StateDecision} (h : checkDecision d = true)
    (hc : d.threadCloseDecision.isSome = true) : d.nextStates = [] := by
  simpa [checkDecision, hc] using h

/-- Starting next states keeps the row written before them. -/
theorem StartsStates.written_row {s s₂ : Store} {k : AsyncStateExecutionKey}
    {x : AsyncStateExecutionRow} (h : StartsStates (s.setAsyncStateExecution k x) s₂) :
    s₂.asyncStateExecutions k = some x := by
  rcases h.row k with h' | ⟨hn, -⟩
  · simpa using h'
  · simp at hn

/-- A row written and then new rows inserted around it. -/
theorem RowsAdvance.of_write_inserts {s s₂ s' : Store} {k : AsyncStateExecutionKey}
    {r x : AsyncStateExecutionRow} (hi : PhasesInv s) (hr : s.asyncStateExecutions k = some r)
    (hs : RowStep (some r) (some x)) (hx : phasesOk x.phases = true)
    (h₂ : StartsStates (s.setAsyncStateExecution k x) s₂)
    (h : s'.asyncStateExecutions = s₂.asyncStateExecutions) : RowsAdvance s s' := by
  have A := RowsAdvance.of_write hi hr hs hx rfl
  have B := RowsAdvance.of_inserts A.2 h₂.row
  refine ⟨fun k' => ?_, fun k' r' hr' => B.2 k' r' (h ▸ hr')⟩
  rw [h]
  by_cases hk : k' = k
  · subst hk
    simpa [h₂.written_row, hr] using hs
  · simpa [hk] using B.1 k'

/-- A row written, then the batch abort over the rows of its process. -/
theorem RowsAdvance.of_write_abort {s s' : Store} {k : AsyncStateExecutionKey}
    {r x : AsyncStateExecutionRow} {pid : Uuid} (hi : PhasesInv s)
    (hr : s.asyncStateExecutions k = some r) (hs : RowStep (some r) (some x))
    (hx : phasesOk x.phases = true) (hfix : Store.abortRunning x = x)
    (h : ∀ k', s'.asyncStateExecutions k' = if k'.processExecutionId = pid then
      ((s.setAsyncStateExecution k x).asyncStateExecutions k').map Store.abortRunning
      else (s.setAsyncStateExecution k x).asyncStateExecutions k') : RowsAdvance s s' := by
  refine ⟨fun k' => ?_, fun k' r' hr' => ?_⟩ <;> rw [h] at * <;> by_cases hk : k' = k
  · subst hk
    simpa [hr, hfix] using hs
  · split
    · cases hs' : s.asyncStateExecutions k'
      · simp [hk, hs', RowStep]
      · simpa [hk, hs'] using (abortRunning_rowStep (hi _ _ hs')).1
    · simpa [hk] using rowStep_refl _
  · subst hk
    simp only [Store.setAsyncStateExecution_asyncStateExecutions, ite_true, Option.map_some',
      hfix, ite_self, Option.some.injEq] at hr'
    exact hr' ▸ hx
  · split at hr'
    · simp only [Store.setAsyncStateExecution_asyncStateExecutions, hk, ite_false,
        Option.map_eq_some'] at hr'
      obtain ⟨r₀, h₀, rfl⟩ := hr'
      exact (abortRunning_rowStep (hi _ _ h₀)).2
    · simp only [Store.setAsyncStateExecution_asyncStateExecutions, hk, ite_false] at hr'
      exact hi _ _ hr'

/-- A committed completion from a valid snapshot moves every row by a `RowStep`. -/
theorem rowsAdvance_completeExecuteExecution {s : Store} (hi : PhasesInv s)
    {request : CompleteExecuteExecutionRequest} (hd : checkDecision request.stateDecision = true)
    (hw : request.prepare.waitUntilStatus ≠ .running)
    (he : request.prepare.executeStatus = .running)
    (hsnap : ∀ r, s.asyncStateExecutions request.key = some r →
      r.version = request.prepare.previousVersion →
      r.waitUntilStatus = request.prepare.waitUntilStatus ∧
        r.executeStatus = request.prepare.executeStatus) :
    RowsAdvance s (completeExecuteExecution s request).2 := by
  unfold completeExecuteExecution commitOrRollback
  split
  · rename_i h
    obtain ⟨r, s₂, abort, hr, hv, hs, hnil, habort, he'⟩ :=
      doCompleteExecuteExecutionTx_asyncStateExecutions h
    obtain ⟨hsw, hse⟩ := hsnap r hr hv
    obtain ⟨hstep, hok, hfix⟩ := rowStep_completed (hi _ _ hr) (hsw ▸ hw) (hse ▸ he)
    cases abort with
    | true =>
      rw [hnil (nextStates_eq_nil_of_checkDecision hd (habort rfl))] at he'
      exact .of_write_abort hi hr hstep hok hfix (by simpa using he')
    | false =>
      exact .of_write_inserts hi hr hstep hok hs (funext fun k => by simpa using he' k)
  · exact .of_eq hi rfl

/-! ### Snapshots -/

/-- The row at `k` was once at the snapshot's version with the snapshot's statuses. -/
def SnapshotOf (s : Store) (k : AsyncStateExecutionKey) (prep : PrepareStateExecutionResponse) :
    Prop :=
  ∃ r, s.asyncStateExecutions k = some r ∧ prep.previousVersion ≤ r.version ∧
    (r.version = prep.previousVersion →
      r.waitUntilStatus = prep.waitUntilStatus ∧ r.executeStatus = prep.executeStatus)

/-- What a worker in a call holds: the phase it calls is running in its snapshot, and the
    snapshot is one of its row's values. -/
def SnapshotOk (s : Store) : WorkerState → Prop
  | .waitUntilCall task current prep => current.key = task.key ∧
      prep.waitUntilStatus = .running ∧ SnapshotOf s task.key prep
  | .executeCall task current prep => current.key = task.key ∧
      prep.waitUntilStatus ≠ .running ∧ prep.executeStatus = .running ∧ SnapshotOf s task.key prep
  | _ => True

/-- A row only moves up in version, and a row at its old version is the old row. -/
theorem RowStep.version_le {r : AsyncStateExecutionRow} {o : Option AsyncStateExecutionRow}
    (h : RowStep (some r) o) :
    ∃ r', o = some r' ∧ r.version ≤ r'.version ∧ (r'.version = r.version → r' = r) := by
  cases o with
  | none => exact h.elim
  | some r' =>
    rcases h with rfl | ⟨hv, -⟩
    · exact ⟨r', rfl, le_rfl, fun _ => rfl⟩
    · exact ⟨r', rfl, by omega, fun h => by omega⟩

/-- The engine invariant of the state rows. -/
structure RowsInv (e : Engine) : Prop where
  phases : PhasesInv e.store
  snapshots : ∀ w ∈ e.workers, SnapshotOk e.store w

theorem snapshotOf_of_rowStep {s s' : Store} {k : AsyncStateExecutionKey}
    {prep : PrepareStateExecutionResponse} (h : SnapshotOf s k prep)
    (hs : RowStep (s.asyncStateExecutions k) (s'.asyncStateExecutions k)) :
    SnapshotOf s' k prep := by
  obtain ⟨r, hr, hle, heq⟩ := h
  rw [hr] at hs
  obtain ⟨r', hr', hle', hsame⟩ := hs.version_le
  refine ⟨r', hr', hle.trans hle', fun hv => ?_⟩
  rw [hsame (by omega)]
  exact heq (by omega)

/-- A row at the snapshot's version has the snapshot's statuses. -/
theorem SnapshotOf.statuses {s : Store} {k : AsyncStateExecutionKey}
    {prep : PrepareStateExecutionResponse} (h : SnapshotOf s k prep) (r : AsyncStateExecutionRow)
    (hr : s.asyncStateExecutions k = some r) (hv : r.version = prep.previousVersion) :
    r.waitUntilStatus = prep.waitUntilStatus ∧ r.executeStatus = prep.executeStatus := by
  obtain ⟨r₀, hr₀, -, hsnap⟩ := h
  rw [hr₀] at hr
  cases hr
  exact hsnap hv

theorem snapshotOk_of_rowSteps {s s' : Store} {w : WorkerState} (h : SnapshotOk s w)
    (hs : ∀ k, RowStep (s.asyncStateExecutions k) (s'.asyncStateExecutions k)) :
    SnapshotOk s' w := by
  cases w with
  | waitUntilCall task current prep =>
    exact ⟨h.1, h.2.1, snapshotOf_of_rowStep h.2.2 (hs _)⟩
  | executeCall task current prep =>
    exact ⟨h.1, h.2.1, h.2.2.1, snapshotOf_of_rowStep h.2.2.2 (hs _)⟩
  | _ => trivial

theorem snapshotOf_prepareStateExecution {s : Store} {k : AsyncStateExecutionKey}
    {prep : PrepareStateExecutionResponse} (h : prepareStateExecution s k = .ok prep) :
    SnapshotOf s k prep := by
  simp only [prepareStateExecution, bind_eq_ok, Store.selectAsyncStateExecution] at h
  obtain ⟨r, hr, h⟩ := h
  split at hr <;> cases hr
  cases h
  exact ⟨r, ‹_›, le_rfl, fun _ => ⟨rfl, rfl⟩⟩

theorem snapshotOk_beginProcessImmediateTask {cfg : ProcessorConfig} {s : Store} {now : Int}
    {task : ImmediateTaskRow} {dbUp : Bool} {w : WorkerState}
    (h : beginProcessImmediateTask cfg s now task dbUp = some w) : SnapshotOk s w := by
  cases hc : w.isCall
  · cases w <;> trivial
  · obtain ⟨-, prep, hp, ⟨rfl, hw⟩ | ⟨rfl, hw, he⟩⟩ := beginProcessImmediateTask_call h hc
    · exact ⟨rfl, hw, snapshotOf_prepareStateExecution hp⟩
    · exact ⟨rfl, hw, he, snapshotOf_prepareStateExecution hp⟩

theorem snapshotOk_of_get? {e : Engine} (hi : RowsInv e) {i : Nat} {w : WorkerState}
    (h : e.workers.get? i = some w) : SnapshotOk e.store w :=
  hi.snapshots w (List.get?_mem h)

/-! ### Every step keeps the invariant -/

/-- Every transaction moves each row by a `RowStep` and keeps every row legal. -/
theorem transition_rows {e : Engine} {s' : Store} (hi : RowsInv e) (h : Transition e s') :
    RowsAdvance e.store s' := by
  cases h with
  | stay => exact .of_eq hi.phases rfl
  | startProcess request =>
    -- a start inserts fresh rows at their initial statuses
    exact .of_inserts hi.phases (startProcess_asyncStateExecutions e.store request e.now)
  | fireTimer => exact .of_eq hi.phases rfl
  | waitUntil resp hw =>
    -- the result is written under the snapshot's version, in which the wait-until phase runs
    obtain ⟨-, hrun, hsnap⟩ := snapshotOk_of_get? hi hw
    unfold processWaitUntilExecution commitOrRollback
    split
    · rename_i h
      obtain ⟨r, hr, hv, he⟩ := doProcessWaitUntilExecutionTx_asyncStateExecutions h
      have hw' := (hsnap.statuses r hr hv).1.trans hrun
      obtain ⟨hs, hok⟩ := rowStep_waitUntilStatusWrite hw' (phasesOk_running (hi.phases _ _ hr) hw')
        (waitUntilRequest _ _ resp).commandRequest
      exact .of_write hi.phases hr hs hok he
    · exact .of_eq hi.phases rfl
  | execute resp hw hd =>
    -- a completion completes its row and inserts fresh ones
    obtain ⟨-, hrun, hex, hsnap⟩ := snapshotOk_of_get? hi hw
    exact rowsAdvance_completeExecuteExecution hi.phases hd hrun hex hsnap.statuses
  | backoff request _ _ _ =>
    -- a backoff keeps the statuses and records the failure
    unfold backoffImmediateTask
    split
    · rename_i h
      obtain ⟨r, hr, -, he⟩ := doBackoffImmediateTaskTx_asyncStateExecutions h
      exact .of_write hi.phases hr (rowStep_unchanged r _)
        (by simpa [StatusWrite.apply] using hi.phases _ _ hr) he
    · exact .of_eq hi.phases rfl
  | delete => exact .of_eq hi.phases rfl

/-- Every step keeps the state-row invariant. -/
theorem step_rowsInv {cfg : ProcessorConfig} {e e' : Engine} {a : Action} (hi : RowsInv e)
    (h : step cfg e a = some e') : RowsInv e' := by
  have hadv := transition_rows hi (step_transition h)
  refine ⟨hadv.2, fun w hw => ?_⟩
  cases hc : w.isCall
  · cases w <;> trivial
  · rcases step_worker_call h hw hc with hw' | ⟨hs, task, dbUp, hb⟩
    · exact snapshotOk_of_rowSteps (hi.snapshots w hw') hadv.1
    · rw [hs]
      exact snapshotOk_beginProcessImmediateTask hb

/-- Every reachable state keeps the state-row invariant. -/
theorem reachable_rowsInv {cfg : ProcessorConfig} {e : Engine} (hr : Reachable cfg e) :
    RowsInv e := by
  induction hr with
  | init =>
    refine ⟨fun _ _ h => (by cases h), fun w hw => ?_⟩
    simp only [Engine.init, List.mem_replicate] at hw
    rw [hw.2]
    trivial
  | step _ _ hs ih => exact step_rowsInv ih hs

/-- Every step of every run moves each state row by a `RowStep` and leaves it legal: each
    phase follows its progression, a changed row is one version up, an unchanged row keeps
    its version, and no row is deleted. -/
theorem state_rows_follow_phase_progressions {cfg : ProcessorConfig} {e e' : Engine}
    {a : Action} (hr : Reachable cfg e) (h : step cfg e a = some e') (k : AsyncStateExecutionKey) :
    RowStep (e.store.asyncStateExecutions k) (e'.store.asyncStateExecutions k) ∧
      ∀ r, e'.store.asyncStateExecutions k = some r → phasesOk r.phases = true :=
  have hadv := transition_rows (reachable_rowsInv hr) (step_transition h)
  ⟨hadv.1 k, hadv.2 k⟩

theorem wait_until_result_moves_row_to_waiting :
    ∃ e e', run exampleConfig (Engine.init exampleConfig 0) exampleStartRun = some e ∧
      step exampleConfig e (.waitUntilReturned 0 (.ok exampleTimerWait)) = some e' ∧
      (e.store.asyncStateExecutions ⟨.minted 0, "S", 1⟩).map
        (fun r => (r.phases, r.version)) = some ((.running, .undefined), 1) ∧
      (e'.store.asyncStateExecutions ⟨.minted 0, "S", 1⟩).map
        (fun r => (r.phases, r.version)) = some ((.waiting, .undefined), 2) ∧
      RowStep (e.store.asyncStateExecutions ⟨.minted 0, "S", 1⟩)
        (e'.store.asyncStateExecutions ⟨.minted 0, "S", 1⟩) ∧
      ∀ r, e'.store.asyncStateExecutions ⟨.minted 0, "S", 1⟩ = some r →
        phasesOk r.phases = true := by
  refine ⟨_, _, rfl, rfl, rfl, rfl, ?_⟩
  exact state_rows_follow_phase_progressions (a := .waitUntilReturned 0 (.ok exampleTimerWait))
    (@reachable_of_run exampleConfig _ _ (.init 0) exampleStartRun rfl) rfl _

/-- In every reachable state, each worker waiting on a call holds a snapshot of its own row in
    which the phase it calls is running, and while the row stays at the snapshot's version it
    keeps the snapshot's statuses. -/
theorem worker_calls_hold_running_snapshots {cfg : ProcessorConfig} {e : Engine}
    (hr : Reachable cfg e) : ∀ w ∈ e.workers, SnapshotOk e.store w :=
  (reachable_rowsInv hr).snapshots

theorem started_worker_holds_running_snapshot :
    ∃ e, run exampleConfig (Engine.init exampleConfig 0) exampleStartRun = some e ∧
      e.workers.map WorkerState.isCall = [true, false] ∧ ∀ w ∈ e.workers, SnapshotOk e.store w :=
  ⟨_, rfl, rfl, worker_calls_hold_running_snapshots
    (@reachable_of_run exampleConfig _ _ (.init 0) exampleStartRun rfl)⟩

end Xdb
