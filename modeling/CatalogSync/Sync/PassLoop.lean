/-!
# When full passes run

One loop runs all full passes. A pass is due at the start and whenever the interval has passed, and
it can be requested. However many requests and intervals fall into the time of one pass, each kind
leads to a single further pass. A requested pass goes before a due one, and cancellation before
both.
-/

namespace CatalogSync.Sync

/-- What the loop is doing. -/
inductive PassLoop.Phase where
  | waiting
  | passing
  | stopped
  deriving DecidableEq, Repr

structure PassLoop where
  -- Whether a pass has been requested since the last one that a request started.
  requested : Bool := false
  -- Whether the interval has passed since the last pass that it started.
  due : Bool := true
  cancelled : Bool := false
  phase : PassLoop.Phase := .waiting
  deriving DecidableEq, Repr

namespace PassLoop

/-- What happens to the loop from outside. -/
inductive Event where
  | request
  | tick
  | cancel
  -- The running pass has ended, and was perhaps itself cancelled.
  | passEnded (cancelled : Bool)
  deriving DecidableEq, Repr

/-- Take notice of an event. -/
def notice (s : PassLoop) : Event → PassLoop
  | .request => { s with requested := true }
  | .tick => { s with due := true }
  | .cancel => { s with cancelled := true }
  | .passEnded cancelled =>
    -- A pass that was cancelled ends the loop.
    if s.phase = .passing then { s with phase := if cancelled then .stopped else .waiting } else s

/-- What the loop does by itself: waiting, it stops or starts a pass when it has a reason. -/
def proceed (s : PassLoop) : PassLoop :=
  if s.phase = .waiting then
    if s.cancelled then { s with phase := .stopped }
    -- A request comes before the interval, which then still starts a pass of its own.
    else if s.requested then { s with requested := false, phase := .passing }
    else if s.due then { s with due := false, phase := .passing }
    else s
  else s

/-- Take notice of an event and go on. -/
def step (s : PassLoop) (e : Event) : PassLoop := (s.notice e).proceed

/-- The loop when it has been started. -/
def start : PassLoop := ({} : PassLoop).proceed

def isPassing (s : PassLoop) : Bool := s.phase == .passing

end PassLoop

end CatalogSync.Sync
