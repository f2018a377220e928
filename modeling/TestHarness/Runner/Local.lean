import TestHarness.Runner.Core
import TestHarness.Timer

/-!
# Running a child process

A local runner starts the test's command as a child process, waits for it by looking at it again and
again, and asks it to end when the timer has expired: first with `SIGTERM`, then with `SIGKILL` once
per grace period.

The runner decides; it does not act.  What the operating system shows comes in as an argument (what
came of a start, what each look at the child shows, what the child has written), and the signals to
be delivered come out as results.  Deliveries may fail, and the wait goes on all the same.

Each function on the child (`look`, `kill`, the second half of `sendSignal`) is one step that no
other call can divide: the child is held as long as it lasts.

## Contents
* `ExitStatus`
* `LocalRunner`, `spawn`, `kill`, `sendSignal`
* a wait: `Look`, `look`, `watch`, `conclude`, and all of it in `wait`
-/

namespace TestHarness

/-- How a process ended. -/
inductive ExitStatus where
  | exited (code : Nat)
  /-- A signal with this number ended it. -/
  | signalled (number : Nat)
deriving DecidableEq, Repr, Inhabited

/-- The exit code that a test reports: minus the `number` of the signal if a signal ended it. -/
def ExitStatus.code : ExitStatus → Int
  | exited code => code
  | signalled number => -(number : Int)

/-- **A runner of one child process**: the shared state, `core`, and what it knows of the child. -/
structure LocalRunner where
  core : Core
  /-- The process that runs, from its start until its end is seen. -/
  child : Option Nat := none
  /-- Whether the child's output is held and has not been read yet. -/
  capturing : Bool := false
  /-- Whether a kill has found the child running. -/
  killed : Bool := false
  /-- Whether the timer was found expired while the child ran. -/
  timedOut : Bool := false
deriving Inhabited

namespace LocalRunner

/-- The runner's name. -/
def name : String := "local"

/-- The runner of a job, in phase `created` and without a child. -/
def ofJob (job : Job) (options : Options) : LocalRunner := { core := { job, options } }

/-- The command that is run: what the job's `tester` says under the options. -/
def command (r : LocalRunner) : Command := r.core.job.tester.command r.core.options

/-! ## Starting -/

/-- What came of starting a process. -/
inductive Start where
  /-- There is nowhere to put the output. -/
  | noCapture (reason : String)
  /-- The command cannot be started. -/
  | refused (reason : String)
  | started (pid : Nat)
deriving DecidableEq, Repr

/-- The runner that holds a new `child` and its output. -/
def hold (r : LocalRunner) (pid : Nat) : LocalRunner :=
  { r with child := some pid, capturing := true }

/-- Starts the child and the timer.  Nothing is started, and nothing changes, unless the run is in
    phase `created`. -/
def spawn (r : LocalRunner) (timer : Timer) (start : Start) (now : Duration) :
    LocalRunner × Timer × Except RunnerError Unit :=
  if r.core.phase ≠ .created then (r, timer, .error (.invalidState "spawn" r.core.phase))
  else match start with
    | .noCapture reason => (r, timer, .error (.io reason))
    | .refused reason =>
      (r, timer, .error (.spawnFailed (Utf8.decodeLossy r.command.program) reason))
    | .started pid =>
      match (r.hold pid).core.markSpawned with
      | (core, .error e) => ({ r.hold pid with core }, timer, .error e)
      | (core, .ok ()) => ({ r.hold pid with core }, timer.start now, .ok ())

/-! ## Signals from outside -/

/-- Kills the child if there is one: the signal to be delivered. -/
def kill (r : LocalRunner) : LocalRunner × Option Signal :=
  if r.child.isSome then ({ r with killed := true }, some .kill) else (r, none)

/-- Why a signal finds no `child`. -/
def alreadyExited : String := "process has already exited"

/-- The `child` that a signal goes to. -/
def signalTarget (r : LocalRunner) (signal : Signal) : Except RunnerError Nat :=
  match r.child with
  | some pid => .ok pid
  | none => .error (.signalFailed signal alreadyExited)

/-- Sends a signal in phase `spawned`, given what comes of its delivery. -/
def sendSignal (r : LocalRunner) (signal : Signal) (delivery : Except String Unit) :
    Except RunnerError Unit :=
  match r.core.ensureSpawned "send_signal" with
  | .error e => .error e
  | .ok () =>
    match r.signalTarget signal with
    | .error e => .error e
    | .ok _ =>
      match delivery with
      | .error reason => .error (.signalFailed signal reason)
      | .ok () => .ok ()

/-! ## Looking at the child -/

/-- What the operating system says of the child. -/
inductive Sight where
  | running
  | ended (status : ExitStatus)
  | lost (reason : String)
deriving DecidableEq, Repr

/-- One look at the child: the `sight`, with what is read off the timer and the clock on the way. -/
structure Look where
  sight : Sight
  /-- Whether the timer is expired. -/
  expired : Bool := false
  /-- The clock when the grace period is checked. -/
  checked : Duration := 0
  /-- The clock after a signal was sent. -/
  sent : Duration := 0
deriving DecidableEq, Repr

/-- A wait under way: the runner, and when the last signal was sent, `lastSent`. -/
structure Wait where
  runner : LocalRunner
  lastSent : Option Duration := none

/-- What one look comes to. -/
inductive Verdict where
  | running
  | ended (status : ExitStatus)
  | failed (e : RunnerError)
deriving Repr

/-- Why a wait finds no `child`. -/
def noChild : String := "no child process to wait for"

/-- **Deadline.** `SIGTERM` at the first look after the timer has expired; `SIGKILL` at every later
    look at which a grace period has passed since the last signal. -/
def enforce (w : Wait) (look : Look) : Wait × Option Signal :=
  match w.lastSent with
  | none => ({ runner := { w.runner with timedOut := true }, lastSent := some look.sent }, some .term)
  | some last =>
    if w.runner.core.options.runner.killGrace ≤ look.checked - last then
      ({ w with lastSent := some look.sent }, some .kill)
    else (w, none)

/-- **One look.** A child that has `ended` is let go; a child that is `running` past the deadline is
    signalled by `enforce`. -/
def look (w : Wait) (l : Look) : Wait × Option Signal × Verdict :=
  match w.runner.child with
  | none => (w, none, .failed (.waitFailed noChild))
  | some _ =>
    match l.sight with
    | .ended status => ({ w with runner := { w.runner with child := none } }, none, .ended status)
    | .lost reason => (w, none, .failed (.waitFailed reason))
    | .running =>
      let (w, signal) := if l.expired then enforce w l else (w, none)
      (w, signal, .running)

/-- Looks, with `look`, until one of them settles the wait, with the signal of each. -/
def watch (w : Wait) : List Look → Wait × List (Option Signal) × Verdict
  | [] => (w, [], .running)
  | l :: looks =>
    match look w l with
    | (w, signal, .running) =>
      let (w, signals, verdict) := watch w looks
      (w, signal :: signals, verdict)
    | (w, signal, verdict) => (w, [signal], verdict)

/-! ## Finishing -/

/-- The status of a test that ran out of time: `timeout`, with the message `TIMEOUT`. -/
def timeoutStatus : Status := { kind := .timeout, message := "TIMEOUT" }

/-- Adds the child's output with `append`, and holds it no longer, so that it is read at most
    once. -/
def collect (r : LocalRunner) (captured : Stream) : LocalRunner × Except RunnerError Unit :=
  if r.capturing then
    let (core, text) := r.core.readStream captured
    let (core, result) := core.append text
    ({ r with core, capturing := false }, result)
  else (r, .ok ())

/-- Sets `timeoutStatus` if the run timed out. -/
def reportTimeout (r : LocalRunner) : LocalRunner :=
  if r.timedOut then
    { r with core := { r.core with job := r.core.job.setStatus timeoutStatus } }
  else r

/-- What a wait finds after the child has ended: what the child has written, `captured`, the files
    of that moment, and the clock. -/
structure Ending where
  captured : Stream
  files : FileView
  now : Duration

/-- The last part of a wait, once the child's end is seen: the timer stops, and then
    `reportTimeout`, `collect` and `complete`. -/
def conclude (r : LocalRunner) (timer : Timer) (status : ExitStatus) (ending : Ending) :
    LocalRunner × Timer × Except RunnerError Unit :=
  let timer := timer.stop ending.now
  match r.reportTimeout.collect ending.captured with
  | (r, .error e) => (r, timer, .error e)
  | (r, .ok ()) =>
    let (core, result) := r.core.complete ending.files status.code
    ({ r with core }, timer, result)

/-- **A whole wait**, given its looks: `none` if they end while the child still runs. -/
def wait (r : LocalRunner) (timer : Timer) (looks : List Look) (ending : Ending) :
    Option (LocalRunner × Timer × Except RunnerError Unit) :=
  match r.core.ensureSpawned "wait" with
  | .error e => some (r, timer, .error e)
  | .ok () =>
    match watch { runner := r } looks with
    | (_, _, .running) => none
    | (w, _, .failed e) => some (w.runner, timer, .error e)
    | (w, _, .ended status) => some (w.runner.conclude timer status ending)

end LocalRunner

end TestHarness
