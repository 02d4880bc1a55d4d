import Xdb.Theory.Steps

/-!
# Retry Intervals

`GetNextBackoff` turns a retry policy and an attempt count into an interval:
`int32(initial · coefficient ^ attempts)`, clamped from above by the maximum interval. The
product is exact here (`backoffProduct`), and `toInt32` is the conversion, so the interval is
the product's floor while the product stays below `2^31`, and the minimum `int32` from there
on. Below the conversion's range, every interval lies between the smaller of the initial and
the maximum interval and the maximum, and never decreases as the attempt count grows
(`backoff_intervals_bounded_until_int32_overflow`). Past it the interval is negative: under
the default policy, initial 1 and coefficient 2 with no attempt limit, that is the 31st
attempt.

## Main definitions

* `backoffProduct`: The exact interval before the `int32` conversion.
* `backoffExhausted`: `GetNextBackoff`'s condition to stop retrying.

## Theorems

* `getNextBackoff_eq`: `GetNextBackoff` stops, or returns the clamped converted product.
* `backoff_intervals_bounded_until_int32_overflow`: Bounds and monotonicity below `2^31`, and
  the minimum `int32` from there on.
* `doBackoffImmediateTaskTx_timerTasks`: A committed backoff appends one timer task.
* `backoffImmediateTask_eq_error`: A backoff fails only when its row moved on.
* `failed_attempt_schedules_coefficient_to_attempts`: What a failed call does when the state's
  config is present: the attempt count already includes the failed attempt, and an exhausted
  policy puts the task back.
-/

namespace Xdb

/-- The product `GetNextBackoff` converts to `int32`: the initial interval times the
    coefficient to the attempt count, exactly. -/
def backoffProduct (p : RetryPolicy) (completedAttempts : Int) : ℚ :=
  (p.initialIntervalSeconds.getD 0 : ℚ) * (p.backoffCoefficient.getD 0) ^ completedAttempts

/-- `GetNextBackoff` stops retrying: the attempts are used up, or the attempt duration has
    passed. -/
def backoffExhausted (p : RetryPolicy) (completedAttempts first now : Int) : Bool :=
  (p.maximumAttempts.getD 0 > 0 && completedAttempts ≥ p.maximumAttempts.getD 0) ||
    (p.maximumAttemptsDurationSeconds.getD 0 > 0 &&
      first + p.maximumAttemptsDurationSeconds.getD 0 < now)

/-- `GetNextBackoff` in its two outcomes. -/
theorem getNextBackoff_eq (completedAttempts first now : Int) (policy : Option RetryPolicy) :
    getNextBackoff completedAttempts first now policy =
      if backoffExhausted (setDefaultRetryPolicyValue policy) completedAttempts first now then
        (0, false)
      else (min (toInt32 (backoffProduct (setDefaultRetryPolicyValue policy) completedAttempts))
        ((setDefaultRetryPolicyValue policy).maximumIntervalSeconds.getD 0), true) := by
  unfold getNextBackoff backoffExhausted backoffProduct
  generalize setDefaultRetryPolicyValue policy = p
  by_cases h₁ : p.maximumAttempts.getD 0 > 0 ∧ completedAttempts ≥ p.maximumAttempts.getD 0 <;>
    by_cases h₂ : p.maximumAttemptsDurationSeconds.getD 0 > 0 ∧
      first + p.maximumAttemptsDurationSeconds.getD 0 < now <;>
    simp [h₁, h₂]

/-- A retried attempt waits the converted product, clamped by the maximum interval. -/
theorem getNextBackoff_fst_of_snd {completedAttempts first now : Int}
    {policy : Option RetryPolicy}
    (h : (getNextBackoff completedAttempts first now policy).2 = true) :
    (getNextBackoff completedAttempts first now policy).1 =
      min (toInt32 (backoffProduct (setDefaultRetryPolicyValue policy) completedAttempts))
        ((setDefaultRetryPolicyValue policy).maximumIntervalSeconds.getD 0) := by
  rw [getNextBackoff_eq] at h ⊢
  split_ifs at h ⊢
  rfl

/-- In range, the conversion is the floor. -/
theorem toInt32_of_lt {x : ℚ} (h₀ : 0 ≤ x) (h : x < 2147483648) : toInt32 x = ⌊x⌋ := by
  have h₁ : ⌊x⌋ < 2147483648 := Int.floor_lt.2 (by exact_mod_cast h)
  have h₂ : 0 ≤ ⌊x⌋ := Int.floor_nonneg.2 h₀
  simp only [toInt32, if_pos h₀]
  rw [if_pos ⟨by omega, h₁⟩]

/-- Out of range above, the conversion gives the minimum `int32`. -/
theorem toInt32_of_le {x : ℚ} (h : 2147483648 ≤ x) : toInt32 x = -2147483648 := by
  have h₁ : 2147483648 ≤ ⌊x⌋ := Int.le_floor.2 (by exact_mod_cast h)
  simp only [toInt32, if_pos (le_trans (by norm_num) h : (0 : ℚ) ≤ x)]
  rw [if_neg (by omega)]

section

variable {p : RetryPolicy} (hi : 1 ≤ p.initialIntervalSeconds.getD 0)
  (hc : 1 ≤ p.backoffCoefficient.getD 0)
include hi hc

/-- The product is at least the initial interval. -/
theorem initial_le_backoffProduct {a : Int} (ha : 0 ≤ a) :
    (p.initialIntervalSeconds.getD 0 : ℚ) ≤ backoffProduct p a :=
  le_mul_of_one_le_right (by exact_mod_cast (zero_le_one.trans hi)) (one_le_zpow₀ hc ha)

/-- The product never decreases with the attempt count. -/
theorem backoffProduct_mono {a b : Int} (hab : a ≤ b) :
    backoffProduct p a ≤ backoffProduct p b :=
  mul_le_mul_of_nonneg_left (zpow_le_zpow_right₀ hc hab)
    (by exact_mod_cast (zero_le_one.trans hi))

end

/-- For a policy whose initial interval, maximum interval and coefficient are at least 1
    once defaults are filled in, and attempt counts `0 ≤ a ≤ b` that are retried: while the
    product for `b` stays below `2^31`, the interval for `a` lies between the smaller of the
    initial and maximum intervals and the interval for `b`, which is at most the maximum;
    once the product reaches `2^31`, the interval for `b` is the minimum `int32`. -/
theorem backoff_intervals_bounded_until_int32_overflow {policy : Option RetryPolicy}
    (hi : 1 ≤ (setDefaultRetryPolicyValue policy).initialIntervalSeconds.getD 0)
    (hm : 1 ≤ (setDefaultRetryPolicyValue policy).maximumIntervalSeconds.getD 0)
    (hc : 1 ≤ (setDefaultRetryPolicyValue policy).backoffCoefficient.getD 0)
    {a b : Int} (ha : 0 ≤ a) (hab : a ≤ b) {fa na fb nb : Int}
    (hra : (getNextBackoff a fa na policy).2 = true)
    (hrb : (getNextBackoff b fb nb policy).2 = true) :
    let p := setDefaultRetryPolicyValue policy
    (backoffProduct p b < 2147483648 →
      min (p.initialIntervalSeconds.getD 0) (p.maximumIntervalSeconds.getD 0) ≤
          (getNextBackoff a fa na policy).1 ∧
        (getNextBackoff a fa na policy).1 ≤ (getNextBackoff b fb nb policy).1 ∧
        (getNextBackoff b fb nb policy).1 ≤ p.maximumIntervalSeconds.getD 0) ∧
      (2147483648 ≤ backoffProduct p b → (getNextBackoff b fb nb policy).1 = -2147483648) := by
  intro p
  rw [getNextBackoff_fst_of_snd hra, getNextBackoff_fst_of_snd hrb]
  have hab' := backoffProduct_mono hi hc hab
  have hia := initial_le_backoffProduct hi hc ha
  refine ⟨fun hb => ?_, fun hb => by rw [toInt32_of_le hb]; omega⟩
  have h₀ : (0 : ℚ) ≤ backoffProduct p a :=
    le_trans (by exact_mod_cast (zero_le_one.trans hi)) hia
  rw [toInt32_of_lt h₀ (lt_of_le_of_lt hab' hb), toInt32_of_lt (h₀.trans hab') hb]
  have hfa : p.initialIntervalSeconds.getD 0 ≤ ⌊backoffProduct p a⌋ := Int.le_floor.2 hia
  have hfab := Int.floor_le_floor hab'
  exact ⟨min_le_min_right _ hfa, min_le_min_right _ hfab, min_le_right _ _⟩

/-- Under the default policy the 30th attempt waits the maximum, 60 seconds, and the 31st,
    whose product is `2^31`, the minimum `int32`. -/
theorem default_backoff_turns_negative_at_thirty_one :
    (getNextBackoff 30 0 0 none).1 = 60 ∧
      2147483648 ≤ backoffProduct (setDefaultRetryPolicyValue none) 31 ∧
      (getNextBackoff 31 0 0 none).1 = -2147483648 := by
  have hb : 2147483648 ≤ backoffProduct (setDefaultRetryPolicyValue none) 31 := by
    norm_num [backoffProduct, setDefaultRetryPolicyValue, defaultWorkerTaskBackoffRetryPolicy]
  have h30 : backoffProduct (setDefaultRetryPolicyValue none) 30 = 1073741824 := by
    norm_num [backoffProduct, setDefaultRetryPolicyValue, defaultWorkerTaskBackoffRetryPolicy]
  refine ⟨?_, hb, (@backoff_intervals_bounded_until_int32_overflow none (by decide)
    (by decide) (by norm_num [setDefaultRetryPolicyValue, defaultWorkerTaskBackoffRetryPolicy])
    30 31 (by decide) (by decide) 0 0 0 0 (by decide) (by decide)).2 hb⟩
  rw [getNextBackoff_eq, if_neg (by decide), h30, toInt32_of_lt (by norm_num) (by norm_num)]
  rfl

/-! ### Retry scheduling -/

/-- A worker call counts one more attempt than its task carried, none for a task that never
    failed, and keeps the first attempt's time. -/
theorem withAttempt_workerTaskBackoffInfo (t : ImmediateTaskRow) (now : Int) :
    (withAttempt t now).info.workerTaskBackoffInfo =
      some ⟨(t.info.workerTaskBackoffInfo.map (·.completedAttempts)).getD 0 + 1,
        (t.info.workerTaskBackoffInfo.map (·.firstAttemptTimestampSeconds)).getD now⟩ := by
  cases h : t.info.workerTaskBackoffInfo <;> simp [withAttempt, h]

/-- A backoff that commits is its transaction's commit. -/
theorem backoffImmediateTask_eq_ok {s s' : Store} {request : BackoffImmediateTaskRequest}
    (h : backoffImmediateTask s request = (.ok (), s')) :
    doBackoffImmediateTaskTx s request = .ok s' := by
  unfold backoffImmediateTask at h
  split at h <;> cases h
  assumption

/-- A committed backoff appends one timer task for the task, at the requested fire time and
    carrying the task's info. -/
theorem doBackoffImmediateTaskTx_timerTasks {s s' : Store} {request : BackoffImmediateTaskRequest}
    (h : doBackoffImmediateTaskTx s request = .ok s') :
    ∃ seq, s'.timerTasks = s.timerTasks ++ [⟨request.task.shardId,
      request.fireTimestampSeconds, seq, request.task.processExecutionId, request.task.stateId,
      request.task.stateIdSequence, request.task.taskType, request.task.info⟩] := by
  obtain ⟨s₁, h₁, rfl⟩ := doBackoffImmediateTaskTx_eq_ok h
  obtain ⟨_, -, -, rfl⟩ := Store.conditionalUpdate_eq_ok h₁
  exact ⟨_, rfl⟩

/-- A backoff fails only when the task's row is gone or has moved past the snapshot. -/
theorem backoffImmediateTask_eq_error {s s' : Store} {request : BackoffImmediateTaskRequest}
    {err : TxError} (h : backoffImmediateTask s request = (.error err, s')) :
    ∀ r, s.asyncStateExecutions request.task.key = some r →
      r.version ≠ request.prep.previousVersion := by
  intro r hr hv
  unfold backoffImmediateTask at h
  split at h
  · cases h
  · rename_i hs
    simp only [doBackoffImmediateTaskTx, Store.conditionalUpdate, hr, hv, ↓reduceIte,
      Store.deleteImmediateTask, Store.insertTimerTask] at hs
    cases hs

/-- A failed worker call, from a snapshot whose state info carries a config and a task view
    at attempt `k`, under the config's wait-until retry policy `p`. When `GetNextBackoff`
    stops, the task goes back to the processor's channel for immediate processing. Otherwise
    the backoff moves the task to a timer `min(int32(initial · coefficient ^ k), maximum)`
    seconds from now, carrying the call's attempt count `k`; only when its row is gone or has
    moved past the snapshot does the backoff fail and the task go back. -/
theorem failed_attempt_schedules_coefficient_to_attempts {cfg : ProcessorConfig} {e : Engine}
    {i : Nat} {task current : ImmediateTaskRow} {prep : PrepareStateExecutionResponse}
    (f : WorkerFailure) {c : AsyncStateConfig} (hc : prep.info.stateConfig = some c)
    {k first : Int} (hk : current.info.workerTaskBackoffInfo = some ⟨k, first⟩) :
    let p := setDefaultRetryPolicyValue c.waitUntilApiRetryPolicy
    ∃ e', onWorkerFailure cfg e i task current prep f = some e' ∧
      (backoffExhausted p k first e.now = true →
        e' = e.setWorker i (finishTask cfg (sharedView task current) false)) ∧
      (backoffExhausted p k first e.now = false →
        (∀ r, e.store.asyncStateExecutions current.key = some r →
            r.version ≠ prep.previousVersion) ∧
          e' = e.setWorker i (finishTask cfg (sharedView task current) false) ∨
          e'.workers = (e.setWorker i (finishTask cfg (sharedView task current) true)).workers ∧
          ∃ seq, e'.store.timerTasks = e.store.timerTasks ++ [⟨current.shardId,
            e.now + min (toInt32 (backoffProduct p k)) (p.maximumIntervalSeconds.getD 0), seq,
            current.processExecutionId, current.stateId, current.stateIdSequence,
            current.taskType, current.info⟩]) := by
  intro p
  have hcr : checkRetry current prep.info e.now =
      some (getNextBackoff k first e.now c.waitUntilApiRetryPolicy) := by
    simp [checkRetry, hc, hk]
  simp only [onWorkerFailure, hcr, Option.map_some']
  refine ⟨_, rfl, fun hx => ?_, fun hx => ?_⟩
  · rw [getNextBackoff_eq, if_pos hx]
    rfl
  · rw [getNextBackoff_eq, if_neg (Bool.eq_false_iff.1 hx)]
    simp only [↓reduceIte]
    split
    · rename_i s' hb
      exact .inr ⟨rfl, doBackoffImmediateTaskTx_timerTasks (backoffImmediateTask_eq_ok hb)⟩
    · exact .inl ⟨backoffImmediateTask_eq_error ‹_›, rfl⟩

/-- State info whose config leaves every retry field to the default policy. -/
def configuredInfo : AsyncStateExecutionInfoJson := ⟨"", "", "t", "u", some {}⟩

/-- A wait-until task that never failed. -/
def firstAttemptTask : ImmediateTaskRow := ⟨0, 0, .minted 0, "S", 1, .waitUntil, {}⟩

/-- The snapshot of that state, read at version 1. -/
def configuredPrep : PrepareStateExecutionResponse :=
  ⟨.running, .undefined, 1, configuredInfo, none, {}⟩

/-- The engine holding that state's row at version 1. -/
def configuredEngine : Engine :=
  { Engine.init exampleConfig 0 with
    store := Store.empty.setAsyncStateExecution firstAttemptTask.key
      (initialRow none none configuredInfo) }

theorem first_retry_waits_two_seconds :
    backoffExhausted (setDefaultRetryPolicyValue none) 1 0 0 = false ∧
      min (toInt32 (backoffProduct (setDefaultRetryPolicyValue none) 1)) 60 = 2 ∧
      ∃ e', onWorkerFailure exampleConfig configuredEngine 0 firstAttemptTask
          (withAttempt firstAttemptTask 0) configuredPrep ⟨"timeout", none⟩ = some e' ∧
        ∃ seq, e'.store.timerTasks =
          [⟨0, 2, seq, .minted 0, "S", 1, .waitUntil, (withAttempt firstAttemptTask 0).info⟩] := by
  have hx : backoffExhausted (setDefaultRetryPolicyValue none) 1 0 0 = false := by decide
  have hi : min (toInt32 (backoffProduct (setDefaultRetryPolicyValue none) 1)) 60 = 2 := by
    rw [toInt32_of_lt (by norm_num [backoffProduct, setDefaultRetryPolicyValue,
      defaultWorkerTaskBackoffRetryPolicy]) (by norm_num [backoffProduct,
      setDefaultRetryPolicyValue, defaultWorkerTaskBackoffRetryPolicy])]
    norm_num [backoffProduct, setDefaultRetryPolicyValue, defaultWorkerTaskBackoffRetryPolicy]
  obtain ⟨e', h, -, hr⟩ := @failed_attempt_schedules_coefficient_to_attempts exampleConfig
    configuredEngine 0 firstAttemptTask (withAttempt firstAttemptTask 0) configuredPrep
    ⟨"timeout", none⟩ {} rfl 1 0 rfl
  refine ⟨hx, hi, e', h, ?_⟩
  rcases hr hx with ⟨hv, -⟩ | ⟨-, seq, ht⟩
  · exact absurd rfl (hv _ rfl)
  · refine ⟨seq, ?_⟩
    rw [ht]
    show [(⟨0, 0 + min (toInt32 (backoffProduct (setDefaultRetryPolicyValue none) 1)) 60, seq,
      _, _, _, _, _⟩ : TimerTaskRow)] = _
    rw [Int.zero_add, hi]
    rfl

end Xdb
