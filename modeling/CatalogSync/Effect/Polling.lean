import CatalogSync.Effect.Proc
import CatalogSync.Time.Span
/-!
# Bounded polling

Ask again and again until something is ready. The time between two questions is at least the
interval, and no question is asked once the timeout has passed.
-/

namespace CatalogSync.Polling

/-- The number of questions that begin before the timeout, the first at time zero. An interval of
zero counts as one nanosecond. -/
def maxPolls (timeout interval : Span) : Nat :=
  let pause := max interval.nanos 1
  (timeout.nanos + pause - 1) / pause

/-- What is said when nothing was ready in time. -/
def timeoutMessage (description : String) (timeout : Span) : String :=
  "Timeout after " ++ timeout.render ++ " waiting for " ++ description

/-- Ask at most the given number of times. A failed question counts as "not ready". -/
def pollAtMost {I : Interface} {α : Type} (poll : Proc I (Except String (Option α))) :
    Nat → Proc I (Option α)
  | 0 => return none
  | polls + 1 => do
    match ← poll with
    | .ok (some a) => return some a
    -- That the question failed says nothing about the thing that is waited for.
    | _ => pollAtMost poll polls

/-- Ask until something is ready or the timeout has passed. -/
def await {I : Interface} {α : Type} (description : String) (timeout interval : Span)
    (poll : Proc I (Except String (Option α))) : Proc I (Except String α) := do
  match ← pollAtMost poll (maxPolls timeout interval) with
  | some a => return .ok a
  | none => return .error (timeoutMessage description timeout)

end CatalogSync.Polling
