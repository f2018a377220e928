import TestHarness.Runner.Core
import TestHarness.Timer

/-!
# Replaying a run

A replay runner starts nothing: the octets that the test wrote and its exit code are known
beforehand.  It has only what every runner has to have, so it cannot be signalled, and killing it
changes nothing.
-/

namespace TestHarness

/-- A runner that plays back recorded octets and an exit code. -/
structure ReplayRunner where
  core : Core
  data : Bytes := []
  code : Int := 0
deriving Inhabited

namespace ReplayRunner

/-- The runner's name. -/
def name : String := "replay"

/-- Starts the run and the timer. -/
def spawn (r : ReplayRunner) (timer : Timer) (now : Duration) :
    ReplayRunner × Timer × Except RunnerError Unit :=
  match r.core.markSpawned with
  | (core, .error e) => ({ r with core }, timer, .error e)
  | (core, .ok ()) => ({ r with core }, timer.start now, .ok ())

/-- Plays the recording back and finishes the output. -/
def wait (r : ReplayRunner) (timer : Timer) (files : FileView) (now : Duration) :
    ReplayRunner × Timer × Except RunnerError Unit :=
  match r.core.ensureSpawned "wait" with
  | .error e => (r, timer, .error e)
  | .ok () =>
    match r.core.appendBytes r.data with
    | (core, .error e) => ({ r with core }, timer, .error e)
    | (core, .ok ()) =>
      let (core, result) := core.complete files r.code
      ({ r with core }, timer.stop now, result)

/-- A replay takes no signals. -/
def sendSignal (_ : Signal) : Except RunnerError Unit :=
  .error (.unsupportedOperation "send_signal" name)

end ReplayRunner

end TestHarness
