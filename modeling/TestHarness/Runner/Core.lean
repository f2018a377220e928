import TestHarness.Job.Basic
import TestHarness.Output
import TestHarness.Runner.Error

/-!
# What every runner shares

A runner starts a test's command and waits for it.  However it does that, the life of the run, its
exit code and its output obey the rules of this module.

Each function that takes a `Core` and gives back a `Core` with a result is one call of a runner's
shared state.  `append`, `noteSubstitution`, `setExitCode` and `finalize` are single steps that no
other call can divide; `appendBytes` and `complete` are sequences of such steps, and other calls may
run in between.

## Contents
* `Core`, its views and its single steps
* the calls made of several steps
* `Operation`, the calls as data, with `Core.perform` and `Core.run`
-/

namespace TestHarness

/-- **The shared state of one run**: its job and options, the phase, the exit code, the `output` so
    far, and whether decoding has substituted characters, `replacedInvalid`. -/
structure Core where
  job : Job
  options : Options := {}
  phase : Phase := .created
  exitCode : Option Int := none
  output : String := ""
  replacedInvalid : Bool := false
deriving Inhabited

namespace Core

/-- A call's result beside the state after it. -/
abbrev Outcome (α : Type) := Core × Except RunnerError α

/-! ## Single steps -/

/-- From `created` to `spawned`, once the test's process or job exists. -/
def markSpawned (c : Core) : Outcome Unit :=
  if c.phase = .created then ({ c with phase := .spawned }, .ok ())
  else (c, .error (.invalidState "spawn" c.phase))

/-- Refuses `operation` unless the run is in phase `spawned`. -/
def ensureSpawned (c : Core) (operation : String) : Except RunnerError Unit :=
  if c.phase = .spawned then .ok () else .error (.invalidState operation c.phase)

/-- Adds text to the `output`, which can only grow until it is finished. -/
def append (c : Core) (text : String) : Outcome Unit :=
  if c.phase = .completed then (c, .error (.invalidState "append output" c.phase))
  else ({ c with output := c.output ++ text }, .ok ())

/-- Remembers in `replacedInvalid` that decoding has substituted characters. -/
def noteSubstitution (c : Core) : Core := { c with replacedInvalid := true }

/-- Records the exit code, once, in phase `spawned`. -/
def setExitCode (c : Core) (code : Int) : Outcome Unit :=
  if c.phase ≠ .spawned then (c, .error (.invalidState "set exit code" c.phase))
  else match c.exitCode with
    | some existing => (c, .error (.exitCodeAlreadySet existing))
    | none => ({ c with exitCode := some code }, .ok ())

/-- The redirected files that the job's `tester` declares. -/
def redirectedFiles (c : Core) : List Path := c.job.tester.redirectedFiles c.options

/-- The width of section headers, `headerWidth` of the options. -/
def headerWidth (c : Core) : Nat := c.options.output.headerWidth.toNat

/-- The finished output under `files`, with its notices. -/
def finished (c : Core) (files : FileView) : String × List Notice :=
  Output.finish files c.redirectedFiles c.headerWidth c.replacedInvalid c.output

/-- **Finishing.** From `spawned` to `completed` once an exit code is recorded: the output is put
    together and repaired, and the job takes the notices. -/
def finalize (c : Core) (files : FileView) : Outcome Unit :=
  if c.phase ≠ .spawned then (c, .error (.invalidState "finalize" c.phase))
  else match c.exitCode with
    | none => (c, .error .exitCodeMissing)
    | some _ =>
      let (output, notices) := c.finished files
      ({ c with output, phase := .completed, job := c.job.notifyAll notices }, .ok ())

/-! ## Calls made of several steps -/

/-- Adds octets to the output as text, `Utf8.decodeLossy`. A substitution is remembered even if the
    text is refused. -/
def appendBytes (c : Core) (bytes : Bytes) : Outcome Unit :=
  let c := if Utf8.wellFormed bytes then c else c.noteSubstitution
  c.append (Utf8.decodeLossy bytes)

/-- Reads a stream as text with `readText`, with the job taking the notices. -/
def readStream (c : Core) (stream : Stream) : Core × String :=
  let (text, notices) := stream.readText
  ({ c with job := c.job.notifyAll notices }, text)

/-- Makes the calls `setExitCode` and `finalize`: the last step of every wait. -/
def complete (c : Core) (files : FileView) (code : Int) : Outcome Unit :=
  match c.ensureSpawned "complete" with
  | .error e => (c, .error e)
  | .ok () =>
    match c.setExitCode code with
    | (c, .error e) => (c, .error e)
    | (c, .ok ()) => c.finalize files

end Core

/-! ## Calls as data -/

/-- A call of the shared state. One that finishes output, `finalize` or `complete`, carries the
    files of that moment. -/
inductive Operation where
  | markSpawned
  | ensureSpawned (operation : String)
  | append (text : String)
  | appendBytes (bytes : Bytes)
  | readStream (stream : Stream)
  | setExitCode (code : Int)
  | finalize (files : FileView)
  | complete (files : FileView) (code : Int)

namespace Core

/-- The state and result of one call, each by the function of its name. -/
def perform (c : Core) : Operation → Outcome Unit
  | .markSpawned => c.markSpawned
  | .ensureSpawned operation => (c, c.ensureSpawned operation)
  | .append text => c.append text
  | .appendBytes bytes => c.appendBytes bytes
  | .readStream stream => ((c.readStream stream).1, .ok ())
  | .setExitCode code => c.setExitCode code
  | .finalize files => c.finalize files
  | .complete files code => c.complete files code

/-- The state after calls made one after the other, each with `perform`. -/
def run (c : Core) (operations : List Operation) : Core :=
  operations.foldl (fun c operation => (c.perform operation).1) c

end Core

end TestHarness
