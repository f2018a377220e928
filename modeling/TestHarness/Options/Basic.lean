import TestHarness.Path

/-!
# Options

What a harness is configured with: how processes are supervised, how the report is laid out, and
the defaults of every test.  Options that were read from a file are validated; options that a
program builds need not be.

## Contents
* `Options` and its three sections, with their defaults
* durations: `RunnerOptions.timeout`, `killGrace`, `pollInterval`
* `Options.validate`
-/

namespace TestHarness

/-- A span of time in microseconds. -/
abbrev Duration := Nat

/-- The span of `n` milliseconds. -/
def Duration.millis (n : Nat) : Duration := n * 1000

/-- The span of `n` seconds. -/
def Duration.seconds (n : Nat) : Duration := n * 1000000

/-- The whole milliseconds in a span. -/
def Duration.toMillis (d : Duration) : Nat := d / 1000

/-- Supervision of the test's process: the section `[runner]`. -/
structure RunnerOptions where
  /-- The limit of one test's running time; none when absent. -/
  timeoutSecs : Option UInt64 := none
  /-- The time between asking a process to end and ending it. -/
  killGraceMs : UInt64 := 2000
  /-- The time between two looks at the process. -/
  pollIntervalMs : UInt64 := 10
deriving DecidableEq, Repr, Inhabited

/-- Layout of the report: the section `[output]`. -/
structure OutputOptions where
  headerWidth : UInt64 := 80
deriving DecidableEq, Repr, Inhabited

/-- Defaults for every test: the section `[tests]`. -/
structure TestOptions where
  /-- The processor count of a test that does not set its own. -/
  processors : UInt32 := 1
  /-- Where redirected output is written. -/
  outputDir : Option Path := none
deriving DecidableEq, Repr, Inhabited

/-- **The options of a harness**: `verbose`, and the three sections. -/
structure Options where
  verbose : Bool := false
  runner : RunnerOptions := {}
  output : OutputOptions := {}
  tests : TestOptions := {}
deriving DecidableEq, Repr, Inhabited

/-! ## Durations -/

/-- The limit of one test's running time, `timeoutSecs` as a span. -/
def RunnerOptions.timeout (o : RunnerOptions) : Option Duration :=
  o.timeoutSecs.map fun n => Duration.seconds n.toNat

/-- The time between asking a process to end and ending it, `killGraceMs` as a span. -/
def RunnerOptions.killGrace (o : RunnerOptions) : Duration := Duration.millis o.killGraceMs.toNat

/-- The time between two looks at the process, `pollIntervalMs` as a span. -/
def RunnerOptions.pollInterval (o : RunnerOptions) : Duration :=
  Duration.millis o.pollIntervalMs.toNat

/-! ## Validation -/

/-- A setting whose value has the right type and makes no sense. -/
inductive InvalidSetting where
  | pollInterval
  | timeout
  | headerWidth
  | processors
deriving DecidableEq, Repr

namespace InvalidSetting

/-- The setting's dotted name, such as `tests.processors`. -/
def key : InvalidSetting → String
  | pollInterval => "runner.poll_interval_ms"
  | timeout => "runner.timeout_secs"
  | headerWidth => "output.header_width"
  | processors => "tests.processors"

/-- What its value has to satisfy. -/
def requirement : InvalidSetting → String
  | pollInterval => "must be greater than 0"
  | timeout => "must be greater than 0 when set"
  | headerWidth => "must be greater than 0"
  | processors => "must be at least 1"

/-- The complaint about the setting, with its `key` and `requirement`. -/
def message (s : InvalidSetting) : String :=
  "Invalid configuration value for " ++ s.key ++ ": " ++ s.requirement

end InvalidSetting

/-- The first setting that is out of range, in the order `poll_interval_ms`, `timeout_secs`,
    `header_width`, `processors`. -/
def Options.invalidSetting? (o : Options) : Option InvalidSetting :=
  if o.runner.pollIntervalMs = 0 then some .pollInterval
  else if o.runner.timeoutSecs = some 0 then some .timeout
  else if o.output.headerWidth = 0 then some .headerWidth
  else if o.tests.processors = 0 then some .processors
  else none

/-- Accepts options without an `invalidSetting?`. -/
def Options.validate (o : Options) : Except InvalidSetting Unit :=
  match o.invalidSetting? with
  | some setting => .error setting
  | none => .ok ()

end TestHarness
