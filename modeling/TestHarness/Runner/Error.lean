import TestHarness.Runner.Signal

/-!
# What a runner call can fail with

Only misuse and failures of the operating system are errors here.  Problems of the *output* of a
test are notices, so that a test always has a result.
-/

namespace TestHarness

/-- The life of one runner: `created`, then `spawned`, then `completed`. -/
inductive Phase where
  /-- Nothing has been started. -/
  | created
  /-- The test runs, and can be waited for and signalled. -/
  | spawned
  /-- The output is finished. -/
  | completed
deriving DecidableEq, Repr, Inhabited

/-- The phase as it is displayed, such as `spawned`. -/
def Phase.name : Phase → String
  | created => "created"
  | spawned => "spawned"
  | completed => "completed"

/-- A failed runner call. -/
inductive RunnerError where
  /-- The runner has no such operation. -/
  | unsupportedOperation (operation runner : String)
  /-- The operation does not belong to the present phase. -/
  | invalidState (operation : String) (phase : Phase)
  /-- The program could not be started. -/
  | spawnFailed (program reason : String)
  /-- The process could not be waited for. -/
  | waitFailed (reason : String)
  /-- The signal could not be delivered. -/
  | signalFailed (signal : Signal) (reason : String)
  /-- An exit code has been recorded before. -/
  | exitCodeAlreadySet (existing : Int)
  /-- No exit code has been recorded yet. -/
  | exitCodeMissing
  /-- Some other input or output failed. -/
  | io (reason : String)
deriving DecidableEq, Repr

namespace RunnerError

/-- The text of the error. -/
def message : RunnerError → String
  | unsupportedOperation operation runner =>
    operation ++ " is not supported by the " ++ runner ++ " runner"
  | invalidState operation phase =>
    "Cannot " ++ operation ++ " while the runner is " ++ phase.name
  | spawnFailed program reason => "Failed to spawn '" ++ program ++ "': " ++ reason
  | waitFailed reason => "Failed to wait for test process: " ++ reason
  | signalFailed signal reason => "Failed to deliver " ++ signal.name ++ ": " ++ reason
  | exitCodeAlreadySet existing => "Exit code already recorded as " ++ toString existing
  | exitCodeMissing => "Cannot finalize before an exit code is recorded"
  | io reason => reason

end RunnerError

end TestHarness
