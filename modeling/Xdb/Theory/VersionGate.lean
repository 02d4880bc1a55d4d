import Xdb.Theory.StateRows

/-!
# The Version Gate

`UpdateAsyncStateExecution` writes a state row only where the row is still at the version the
caller's snapshot read, and raises it by one. A wait-until result and a decision are committed
under the version of the snapshot their worker's call started from, so one snapshot, handed to
any number of workers by duplicate polls, put-backs and restarts, commits at most once: the
first commit moves the row past the snapshot's version, and a row's version never goes back
(`RowStep.version_le`). A result that does not commit returns an error, and the transaction's
rollback leaves the whole store as it was, so nothing it would have inserted exists.

`CompleteWaitUntilExecution` runs inside `ProcessWaitUntilExecution` for an empty command, under
the same version, so it is counted with it.

## Main definitions

* `rowVersion`: The version of a state row.
* `versionGated`: The version-gated transaction a step runs, and whether it committed.
* `commitsAt`: How many gated transactions under one row and version commit along a run.

## Theorems

* `step_versionGated`: A committed gated step moves its row from the snapshot's version to
  the next; one that fails leaves the store unchanged.
* `commitsAt_eq_zero`: Nothing commits under a version the row has passed.
* `version_gate_commits_once`: From every reachable state, both of the above, and at most one
  commit under each row and version along every run.
-/

namespace Xdb

/-- The version of the row at `k`, if there is one. -/
def rowVersion (s : Store) (k : AsyncStateExecutionKey) : Option Nat :=
  (s.asyncStateExecutions k).map AsyncStateExecutionRow.version

/-- The version-gated transaction a step runs: the row it writes, the version its snapshot
    read, and whether it committed. -/
def versionGated (e : Engine) : Action → Option (AsyncStateExecutionKey × Nat × Bool)
  | .waitUntilReturned i (.ok resp) =>
    match e.workers.get? i with
    | some (.waitUntilCall task _ prep) => some (task.key, prep.previousVersion,
        (processWaitUntilExecution e.store (waitUntilRequest task prep resp)).1 matches .ok _)
    | _ => none
  | .executeReturned i (.ok resp) =>
    match e.workers.get? i with
    | some (.executeCall task _ prep) =>
      if checkDecision resp.stateDecision then some (task.key, prep.previousVersion,
        (completeExecuteExecution e.store (executeRequest task prep resp)).1 matches .ok _)
      else none
    | _ => none
  | _ => none

/-- The gated transactions under row `k` and version `v` that commit along a run, up to the
    first action that is not enabled. -/
def commitsAt (cfg : ProcessorConfig) (k : AsyncStateExecutionKey) (v : Nat) :
    Engine → List Action → Nat
  | _, [] => 0
  | e, a :: as => match step cfg e a with
    | none => 0
    | some e' => (if versionGated e a = some (k, v, true) then 1 else 0) + commitsAt cfg k v e' as

/-- A committed wait-until result moves its row from the snapshot's version to the next. -/
theorem doProcessWaitUntilExecutionTx_rowVersion {s s' : Store}
    {request : ProcessWaitUntilExecutionRequest} {b : Bool}
    (h : doProcessWaitUntilExecutionTx s request = .ok (b, s')) :
    rowVersion s request.key = some request.prepare.previousVersion ∧
      rowVersion s' request.key = some (request.prepare.previousVersion + 1) := by
  obtain ⟨r, hr, hv, he⟩ := doProcessWaitUntilExecutionTx_asyncStateExecutions h
  simp [rowVersion, hr, hv, he]

/-- A committed decision from a valid snapshot moves its row from the snapshot's version to
    the next: the batch abort finds nothing running in the completed row. -/
theorem doCompleteExecuteExecutionTx_rowVersion {s s' : Store} (hi : PhasesInv s)
    {request : CompleteExecuteExecutionRequest} {b : Bool}
    (h : doCompleteExecuteExecutionTx s request = .ok (b, s'))
    (hw : request.prepare.waitUntilStatus ≠ .running)
    (he : request.prepare.executeStatus = .running)
    (hsnap : ∀ r, s.asyncStateExecutions request.key = some r →
      r.version = request.prepare.previousVersion →
      r.waitUntilStatus = request.prepare.waitUntilStatus ∧
        r.executeStatus = request.prepare.executeStatus) :
    rowVersion s request.key = some request.prepare.previousVersion ∧
      rowVersion s' request.key = some (request.prepare.previousVersion + 1) := by
  obtain ⟨r, s₂, abort, hr, hv, hs, -, -, he'⟩ :=
    doCompleteExecuteExecutionTx_asyncStateExecutions h
  obtain ⟨hsw, hse⟩ := hsnap r hr hv
  have hfix := (rowStep_completed (hi _ _ hr) (hsw ▸ hw) (hse ▸ he)).2.2
  refine ⟨by simp [rowVersion, hr, hv], ?_⟩
  rw [rowVersion, he', hs.written_row]
  split <;> simp [hfix, hv]

/-- A gated step that commits moves its row from the snapshot's version to the next; one that
    fails is rolled back. -/
theorem step_versionGated {cfg : ProcessorConfig} {e e' : Engine} {a : Action}
    {k : AsyncStateExecutionKey} {v : Nat} {b : Bool} (hi : RowsInv e)
    (h : step cfg e a = some e') (hg : versionGated e a = some (k, v, b)) :
    (b = true → rowVersion e.store k = some v ∧ rowVersion e'.store k = some (v + 1)) ∧
      (b = false → e'.store = e.store) := by
  cases a with
  | waitUntilReturned i r =>
    -- a committed result raises the version its snapshot read by one; a rollback leaves
    -- the store
    cases r with
    | error => cases hg
    | ok resp =>
      simp only [versionGated] at hg
      split at hg
      · rename_i task current prep hw
        cases hg
        simp only [step, hw, Option.some.injEq] at h
        subst h
        simp only [commitResult_store, processWaitUntilExecution, commitOrRollback]
        rcases hx : doProcessWaitUntilExecutionTx e.store (waitUntilRequest task prep resp) with
          _ | ⟨_, _⟩
        · exact ⟨nofun, fun _ => rfl⟩
        · exact ⟨fun _ => doProcessWaitUntilExecutionTx_rowVersion hx, nofun⟩
      · cases hg
  | executeReturned i r =>
    -- likewise for an execute result with a well-formed decision
    cases r with
    | error => cases hg
    | ok resp =>
      simp only [versionGated] at hg
      split at hg
      · rename_i task current prep hw
        split at hg
        · rename_i hd
          cases hg
          simp only [step, hw, hd, ite_true, Option.some.injEq] at h
          subst h
          obtain ⟨-, hrun, hex, hsnap⟩ := snapshotOk_of_get? hi hw
          simp only [commitResult_store, completeExecuteExecution, commitOrRollback]
          rcases hx : doCompleteExecuteExecutionTx e.store (executeRequest task prep resp) with
            _ | ⟨_, _⟩
          · exact ⟨nofun, fun _ => rfl⟩
          · exact ⟨fun _ => doCompleteExecuteExecutionTx_rowVersion hi.phases hx hrun hex
              hsnap.statuses, nofun⟩
        · cases hg
      · cases hg
  | _ => cases hg

/-- A step never lowers a row's version. -/
theorem rowVersion_le_of_step {cfg : ProcessorConfig} {e e' : Engine} {a : Action}
    (hi : RowsInv e) (h : step cfg e a = some e') {k : AsyncStateExecutionKey} {n : Nat}
    (hn : rowVersion e.store k = some n) : ∃ n', rowVersion e'.store k = some n' ∧ n ≤ n' := by
  obtain ⟨r, hr, rfl⟩ := Option.map_eq_some'.1 hn
  have hs := (transition_rows hi (step_transition h)).1 k
  rw [hr] at hs
  obtain ⟨r', hr', hle, -⟩ := hs.version_le
  exact ⟨r'.version, by simp [rowVersion, hr'], hle⟩

/-- Once a row has passed version `v`, nothing commits under `v` again. -/
theorem commitsAt_eq_zero {cfg : ProcessorConfig} {k : AsyncStateExecutionKey} {v : Nat} :
    ∀ {e : Engine} (as : List Action), RowsInv e →
      (∃ n, rowVersion e.store k = some n ∧ v < n) → commitsAt cfg k v e as = 0
  | _, [], _, _ => rfl
  | e, a :: as, hi, ⟨n, hn, hv⟩ => by
    unfold commitsAt
    split
    · rfl
    · rename_i e' h
      obtain ⟨n', hn', hle⟩ := rowVersion_le_of_step hi h hn
      rw [commitsAt_eq_zero as (step_rowsInv hi h) ⟨n', hn', by omega⟩, if_neg fun hg => ?_]
      rw [(step_versionGated hi h hg).1 rfl |>.1] at hn
      cases hn
      omega

/-- From every reachable state, a gated step under row `k` and version `v` that commits moves
    the row from `v` to `v + 1`, one that fails leaves the whole store as it was, and along
    every run at most one of them commits. -/
theorem version_gate_commits_once {cfg : ProcessorConfig} {e : Engine} (hr : Reachable cfg e)
    (k : AsyncStateExecutionKey) (v : Nat) :
    (∀ a e' b, step cfg e a = some e' → versionGated e a = some (k, v, b) →
      (b = true → rowVersion e.store k = some v ∧ rowVersion e'.store k = some (v + 1)) ∧
        (b = false → e'.store = e.store)) ∧
      ∀ as, commitsAt cfg k v e as ≤ 1 := by
  refine ⟨fun a e' b h hg => step_versionGated (reachable_rowsInv hr) h hg, fun as => ?_⟩
  induction as generalizing e with
  | nil => exact Nat.zero_le _
  | cons a as ih =>
    unfold commitsAt
    split
    · exact Nat.zero_le _
    · rename_i e' h
      split
      -- the commit: the row is now at `v + 1`, past the version for the rest of the run
      · rename_i hg
        have hv := ((step_versionGated (reachable_rowsInv hr) h hg).1 rfl).2
        rw [commitsAt_eq_zero as (step_rowsInv (reachable_rowsInv hr) h) ⟨v + 1, hv, by omega⟩]
      · simpa using ih (hr.step a h)

/-- The same wait-until task polled twice, so that both workers call the worker from one
    snapshot, and worker 0's result committed. -/
def exampleDuplicateRun : List Action :=
  exampleStartRun ++ [.poll ⟨0, 0, .minted 0, "S", 1, .waitUntil, {}⟩, .take 1 .buffer true,
    .waitUntilReturned 0 (.ok exampleTimerWait)]

theorem duplicate_delivery_commits_once :
    ∃ e e', run exampleConfig (Engine.init exampleConfig 0) exampleDuplicateRun = some e ∧
      step exampleConfig e (.waitUntilReturned 1 (.ok exampleTimerWait)) = some e' ∧
      versionGated e (.waitUntilReturned 1 (.ok exampleTimerWait)) =
        some (⟨.minted 0, "S", 1⟩, 1, false) ∧
      e'.store = e.store ∧
      commitsAt exampleConfig ⟨.minted 0, "S", 1⟩ 1 (Engine.init exampleConfig 0)
        (exampleDuplicateRun ++ [.waitUntilReturned 1 (.ok exampleTimerWait)]) = 1 := by
  refine ⟨_, _, rfl, rfl, rfl, ?_, rfl⟩
  exact ((version_gate_commits_once
    (@reachable_of_run exampleConfig _ _ (.init 0) exampleDuplicateRun rfl) _ _).1
    (.waitUntilReturned 1 (.ok exampleTimerWait)) _ _ rfl rfl).2 rfl

end Xdb
