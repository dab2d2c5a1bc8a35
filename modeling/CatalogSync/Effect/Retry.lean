import CatalogSync.Effect.Proc
import CatalogSync.Time.Span
/-!
# Bounded retry

An operation is attempted until it succeeds, fails in a way that another attempt cannot mend, or
has been attempted as often as the policy allows. The pauses between attempts grow by a factor of
two up to a cap; their length is varied at random and has no influence on the result.
-/

namespace CatalogSync

/-- How often an operation is attempted and how long to pause in between. -/
structure RetryPolicy where
  -- The number of attempts, the first included; 0 counts as 1.
  maxAttempts : Nat
  -- The pause after the first attempt, before it is varied.
  initialDelay : Span
  -- The longest pause, before it is varied.
  maxDelay : Span
  deriving DecidableEq, Repr

namespace RetryPolicy

/-- Three attempts, with pauses from 200 ms to 5 s. -/
def standard : RetryPolicy := ⟨3, .ofMillis 200, .ofSecs 5⟩

def withMaxAttempts (attempts : Nat) : RetryPolicy :=
  { standard with maxAttempts := max attempts 1 }

def single : RetryPolicy := withMaxAttempts 1

/-- The pause after an attempt that failed, counted from 0, before it is varied. -/
def delay (policy : RetryPolicy) : Nat → Span
  | 0 => policy.initialDelay
  | n + 1 => .ofNanos (min (2 * (policy.delay n).nanos) policy.maxDelay.nanos)

end RetryPolicy

namespace Proc

variable {I : Interface} {α ε : Type}

/-- Attempt an operation; up to `more` attempts follow a failure that another attempt may mend. -/
def attempts (mendable : ε → Bool) (operation : Proc I (Except ε α)) :
    (more : Nat) → Proc I (Except ε α)
  | 0 => operation
  | more + 1 => do
    match ← operation with
    | .ok a => return .ok a
    -- The last failure is the one that is reported.
    | .error e => if mendable e then attempts mendable operation more else return .error e

/-- Attempt an operation as often as a policy allows. -/
def retry (policy : RetryPolicy) (mendable : ε → Bool) (operation : Proc I (Except ε α)) :
    Proc I (Except ε α) :=
  attempts mendable operation (policy.maxAttempts - 1)

end Proc

/-- Attempt a task while its faults are worth another attempt. -/
def Task.retry {I : Interface} {α : Type} (policy : RetryPolicy) (t : Task I α) : Task I α :=
  .ofProc (Proc.retry policy Fault.retryable t.proc)

end CatalogSync
