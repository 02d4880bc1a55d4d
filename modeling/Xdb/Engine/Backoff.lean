import Xdb.Model.Rows
import Mathlib.Data.Rat.Floor

/-!
# Retry Backoff

`GetNextBackoff` (`backoff.go`) decides whether a failed worker call is retried and after
how many seconds. `setDefaultRetryPolicyValue` first fills every unset field from
`defaultWorkerTaskBackoffRetryPolicy`; that constant is not among the sources and is
modelled from the spec's defaults: initial interval 1, coefficient 2, maximum interval 60,
maximum attempts and maximum attempt duration 0 (unbounded).

The interval is `int32(float64(initial) * math.Pow(float64(coefficient), float64(attempts)))`,
clamped from above by the maximum interval. The coefficient is a `float32`, so a dyadic
rational, and the model takes it as that rational and computes the product exactly over ℚ.
Go computes it in `float64`, rounding each product of `math.Pow`'s repeated squaring and the
final product to 53 significant bits. The two agree whenever no step rounds: for the default
coefficient 2, and any power of two, every product below `2^1024` is exact. For another
coefficient each attempt needs more bits, and after a few attempts the float result can lie
on either side of the exact one, which can move the truncated interval by one second. The
conversion to `int32` truncates toward zero and, out of range, gives the minimum `int32`, as
the amd64 conversion instruction does.

## Main definitions

* `setDefaultRetryPolicyValue`: The policy with its defaults filled in.
* `getNextBackoff`: `GetNextBackoff`, with the clock passed in.
-/

namespace Xdb

/-- `defaultWorkerTaskBackoffRetryPolicy`. Modelled from the spec's defaults. -/
def defaultWorkerTaskBackoffRetryPolicy : RetryPolicy :=
  ⟨some 1, some 2, some 60, some 0, some 0⟩

/-- `setDefaultRetryPolicyValue`: each unset field takes the default. -/
def setDefaultRetryPolicyValue (policy : Option RetryPolicy) : RetryPolicy :=
  let p := policy.getD {}
  ⟨p.initialIntervalSeconds.orElse fun _ =>
     defaultWorkerTaskBackoffRetryPolicy.initialIntervalSeconds,
   p.backoffCoefficient.orElse fun _ => defaultWorkerTaskBackoffRetryPolicy.backoffCoefficient,
   p.maximumIntervalSeconds.orElse fun _ =>
     defaultWorkerTaskBackoffRetryPolicy.maximumIntervalSeconds,
   p.maximumAttempts.orElse fun _ => defaultWorkerTaskBackoffRetryPolicy.maximumAttempts,
   p.maximumAttemptsDurationSeconds.orElse fun _ =>
     defaultWorkerTaskBackoffRetryPolicy.maximumAttemptsDurationSeconds⟩

/-- Go's `int32(x)` of a float: truncation toward zero, the minimum `int32` out of range. -/
def toInt32 (x : ℚ) : Int :=
  let t := if 0 ≤ x then ⌊x⌋ else ⌈x⌉
  if -2147483648 ≤ t ∧ t < 2147483648 then t else -2147483648

/-- `GetNextBackoff`: the next interval and whether to retry, at clock `nowSeconds`. -/
def getNextBackoff (completedAttempts : Int) (firstAttemptStartTimestampSeconds : Int)
    (nowSeconds : Int) (policy : Option RetryPolicy) : Int × Bool :=
  let p := setDefaultRetryPolicyValue policy
  let maximumAttempts := p.maximumAttempts.getD 0
  let maximumAttemptsDurationSeconds := p.maximumAttemptsDurationSeconds.getD 0
  if maximumAttempts > 0 ∧ completedAttempts ≥ maximumAttempts then (0, false)
  else if maximumAttemptsDurationSeconds > 0 ∧
      firstAttemptStartTimestampSeconds + maximumAttemptsDurationSeconds < nowSeconds then
    (0, false)
  else
    let nextInterval := toInt32 ((p.initialIntervalSeconds.getD 0 : ℚ) *
      (p.backoffCoefficient.getD 0) ^ completedAttempts)
    (min nextInterval (p.maximumIntervalSeconds.getD 0), true)

end Xdb
