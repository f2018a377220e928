import TestHarness.Options.Basic

/-!
# Timers

A timer measures one test against an optional limit.  It holds readings of a clock and never reads
the clock itself: whoever asks about elapsed time says what the clock shows.

A stopped timer is frozen at the reading of its stop.  Starting again forgets the stop.

Beside the clock there is the date, which is for people only.  It may be set back while a timer runs, so
no span of time is measured with it.

## Contents
* `Timer`, its start and its stop, and what can be asked of it
* `DatedTimer`, a timer that keeps the date of its last start
-/

namespace TestHarness

/-- A timer with its `limit` and the clock readings of its start and stop. -/
structure Timer where
  limit : Option Duration := none
  started : Option Duration := none
  stopped : Option Duration := none
deriving DecidableEq, Repr, Inhabited

namespace Timer

/-- A timer with the `timeout` that the options set. -/
def ofOptions (o : Options) : Timer := { limit := o.runner.timeout }

/-- Starts or restarts the timer when the clock shows `now`. -/
def start (t : Timer) (now : Duration) : Timer := { t with started := some now, stopped := none }

/-- Whether the timer has been started and not stopped since. -/
def isRunning (t : Timer) : Bool := t.started.isSome && t.stopped.isNone

/-- Stops a running timer when the clock shows `now`. -/
def stop (t : Timer) (now : Duration) : Timer :=
  if t.isRunning then { t with stopped := some now } else t

/-- The time between start and stop, or between start and `now`; zero before any start. -/
def elapsed (t : Timer) (now : Duration) : Duration :=
  match t.started with
  | none => 0
  | some started => t.stopped.getD now - started

/-- The time left before the `limit`; none without a limit. -/
def remaining (t : Timer) (now : Duration) : Option Duration :=
  t.limit.map fun limit => limit - t.elapsed now

/-- Whether a started timer has reached its `limit`. -/
def isExpired (t : Timer) (now : Duration) : Bool :=
  match t.limit with
  | none => false
  | some limit => t.started.isSome && limit ≤ t.elapsed now

end Timer

/-! ## Dates -/

/-- A date, in microseconds since the start of an epoch. -/
abbrev Date := Int

/-- A `Timer` with the date of its last start. -/
structure DatedTimer extends Timer where
  startedAt : Option Date := none
deriving DecidableEq, Repr, Inhabited

namespace DatedTimer

/-- Starts or restarts the timer when the clock shows `now` on that date. -/
def start (t : DatedTimer) (now : Duration) (date : Date) : DatedTimer :=
  { toTimer := t.toTimer.start now, startedAt := some date }

/-- Stops a running timer when the clock shows `now`.  The date of the start is kept. -/
def stop (t : DatedTimer) (now : Duration) : DatedTimer := { t with toTimer := t.toTimer.stop now }

end DatedTimer

end TestHarness
