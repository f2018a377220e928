import TestHarness.Timer

/-!
# Watching a timer

An onlooker starts and stops a timer, lets time pass, and looks at it after each step.  What is seen
does not depend on how fast the onlooker is, as long as every look takes some time.
-/

namespace TestHarness

namespace Timer

/-- How much of a limit is left. -/
inductive Remaining where
  | zero
  /-- The whole limit, since the timer was never started. -/
  | full
  /-- Anything else. -/
  | rest
deriving DecidableEq, Repr

/-- What is seen of a timer. -/
structure View where
  started : Bool
  running : Bool
  expired : Bool
  /-- Absent without a limit. -/
  remaining : Option Remaining
  /-- Whether two looks see the same elapsed time; absent while the timer runs. -/
  still : Option Bool
deriving DecidableEq, Repr

/-- One step of the onlooker. -/
inductive Step where
  | start
  | stop
  | sleep (time : Duration)
deriving DecidableEq, Repr

/-- The time that a step or a look takes. -/
def tick : Duration := 1

/-- The time between the two looks of a view. -/
def pause : Duration := Duration.millis 1

end Timer

namespace DatedTimer

open Timer

/-- What is left of the limit when the clock shows `now`. -/
def remainingKind (t : DatedTimer) (now : Duration) : Option Remaining :=
  (t.remaining now).map fun left =>
    if left = 0 then .zero else if t.started.isNone ∧ t.limit = some left then .full else .rest

/-- What is seen when the clock shows `now` at the first look and `later` at the second. -/
def view (t : DatedTimer) (now later : Duration) : View :=
  { started := t.startedAt.isSome
    running := t.isRunning
    expired := t.isExpired now
    remaining := t.remainingKind now
    still := if t.isRunning then none else some (t.elapsed now == t.elapsed later) }

/-- The timer and the clock after one step.  The dates go with the clock. -/
def take (t : DatedTimer) (now : Duration) : Step → DatedTimer × Duration
  | .start => (t.start now now, now + tick)
  | .stop => (t.stop now, now + tick)
  | .sleep time => (t, now + time + tick)

/-- The clock after a view: the second look comes a pause later, if there is one. -/
def afterView (t : DatedTimer) (now : Duration) : Duration :=
  if t.started.isSome && !t.isRunning then now + pause else now + tick

/-- The views before the first step and after each step. -/
def watch (t : DatedTimer) (now : Duration) (steps : List Step) : List View :=
  t.view now (now + pause) ::
    match steps with
    | [] => []
    | step :: rest =>
      let (next, clock) := t.take (t.afterView now) step
      next.watch clock rest

end DatedTimer

/-- The views of a timer that has no date yet. -/
def Timer.watch (t : Timer) (now : Duration) (steps : List Timer.Step) : List Timer.View :=
  DatedTimer.watch { toTimer := t } now steps

end TestHarness
