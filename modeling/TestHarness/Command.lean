import TestHarness.Path

/-!
# Commands

The command of one test: a program, its arguments as separate octet strings, a working directory
and environment overrides.  A command is built by a sequence of steps, each of which changes one of
these parts and leaves the others alone.

## Contents
* `Environment`: overrides, sorted by key, one value per key
* `Command`, its building steps, and its display text
* `Launch`: what a command hands to the operating system
-/

namespace TestHarness

/-! ## Environments -/

/-- Environment overrides in ascending order of their keys. -/
abbrev Environment := List (Bytes × Bytes)

namespace Environment

/-- Sets `key` to `value`.  A later value replaces an earlier one. -/
def set (key value : Bytes) : Environment → Environment
  | [] => [(key, value)]
  | (k, v) :: rest =>
    if key = k then (key, value) :: rest
    else if key < k then (key, value) :: (k, v) :: rest
    else (k, v) :: set key value rest

/-- Sets every pair in order, each with `set`. -/
def setAll (env : Environment) (pairs : List (Bytes × Bytes)) : Environment :=
  pairs.foldl (fun env pair => env.set pair.1 pair.2) env

/-- The value of `key`. -/
def get? (env : Environment) (key : Bytes) : Option Bytes := env.lookup key

end Environment

/-! ## Commands -/

/-- The command that runs one test. -/
structure Command where
  program : Bytes
  args : List Bytes := []
  cwd : Option Path := none
  env : Environment := []
deriving DecidableEq, Repr, Inhabited

namespace Command

/-- The command that runs `program` without arguments. -/
def ofProgram (program : Bytes) : Command := { program }

/-- Adds one argument at the end of `args`. -/
def arg (c : Command) (value : Bytes) : Command := { c with args := c.args ++ [value] }

/-- Adds arguments at the end of `args`, in order. -/
def addArgs (c : Command) (values : List Bytes) : Command := { c with args := c.args ++ values }

/-- Sets the working directory, `cwd`. -/
def inDirectory (c : Command) (dir : Path) : Command := { c with cwd := some dir }

/-- Sets one variable of `env`. -/
def setEnv (c : Command) (key value : Bytes) : Command := { c with env := c.env.set key value }

/-- Sets variables of `env` in order. -/
def setEnvs (c : Command) (pairs : List (Bytes × Bytes)) : Command :=
  { c with env := c.env.setAll pairs }

/-- One step of building a command, named as the call that makes it: `arg`, `args`, `cwd`, `env`,
    `envs`. -/
inductive Step where
  | arg (value : Bytes)
  | args (values : List Bytes)
  | cwd (dir : Path)
  | env (key value : Bytes)
  | envs (pairs : List (Bytes × Bytes))
deriving Repr

/-- The command after one `Step`. -/
def apply (c : Command) : Step → Command
  | .arg value => c.arg value
  | .args values => c.addArgs values
  | .cwd dir => c.inDirectory dir
  | .env key value => c.setEnv key value
  | .envs pairs => c.setEnvs pairs

/-- The command that the steps build from `program`. -/
def build (program : Bytes) (steps : List Step) : Command :=
  steps.foldl apply (ofProgram program)

/-- Program and arguments with a blank between them, for people.  The words are not quoted, so the
    text cannot be read back. -/
def display (c : Command) : String :=
  c.args.foldl (fun text value => text ++ " " ++ Utf8.decodeLossy value) (Utf8.decodeLossy c.program)

/-- Every octet string of the command. -/
def octetStrings (c : Command) : List Bytes :=
  c.program :: c.args ++ c.cwd.toList.map Path.bytes ++ c.env.flatMap fun pair => [pair.1, pair.2]

/-- Whether some octet string of the command contains a NUL, which no operating system call
    carries. -/
def hasNul (c : Command) : Bool := c.octetStrings.any (·.contains 0)

end Command

/-! ## Launching -/

/-- What is handed to the operating system to start a process. -/
structure Launch where
  program : Bytes
  args : List Bytes
  cwd : Option Path
  env : Environment
deriving DecidableEq, Repr

/-- The launch of a command, if each of its octet strings can be carried. -/
def Command.launch? (c : Command) : Option Launch :=
  if c.hasNul then none else some { program := c.program, args := c.args, cwd := c.cwd, env := c.env }

end TestHarness
