import TestHarness.Command
import TestHarness.Host.Process

/-!
# Starting programs

How a program's name leads to a program, and how a command becomes the first process of a group.

## Contents
* the programs of a host, and `Host.withPrograms`
* `Host.findProgram`
* `Host.start`
-/

namespace TestHarness

/-! ## Programs -/

/-- The programs that every host has. -/
def programNames : List String :=
  ["[", "basename", "cat", "cp", "dash", "dirname", "echo", "env", "false", "grep", "head", "kill",
    "ls", "mkdir", "mv", "printenv", "printf", "pwd", "rm", "rmdir", "seq", "sh", "sleep", "sort",
    "tail", "test", "touch", "tr", "true", "wc", "yes"]

/-- The location of a path of names. -/
def locationOf (names : List String) : Location := names.map Utf8.encode

/-- The directories of programs. -/
def programDirectories : List Location := [locationOf ["bin"], locationOf ["usr", "bin"]]

/-- The directories that every host has. -/
def systemDirectories : List Location :=
  [["bin"], ["dev"], ["etc"], ["home"], ["root"], ["sbin"], ["tmp"], ["usr"], ["usr", "bin"], ["usr", "local"],
    ["usr", "local", "bin"], ["usr", "local", "sbin"], ["usr", "sbin"]].map locationOf

/-- A tree with the directories, the programs and the devices that every host has. -/
def FileTree.withSystem (t : FileTree) : FileTree :=
  let directories := systemDirectories.map fun location => (location, Entry.directory)
  let programs := programDirectories.flatMap fun location =>
    programNames.map fun name => (location ++ [Utf8.encode name], Entry.program)
  let devices := [(locationOf ["dev", "null"], Entry.nullDevice), (locationOf ["dev", "zero"], .zeroDevice)]
  ⟨t.entries ++ directories ++ devices ++ programs⟩

/-- The environment in which a harness runs. -/
def systemEnvironment : List (Octets × Octets) :=
  [("PATH", "/usr/local/sbin:/usr/local/bin:/usr/sbin:/usr/bin:/sbin:/bin"), ("HOME", "/root")].map
    fun (name, value) => (name.toList, value.toList)

/-! ## Finding a program -/

/-- The text of a fault. -/
def FileFault.text : FileFault → String
  | missing => "No such file or directory"
  | notDirectory => "Not a directory"
  | isDirectory => "Is a directory"
  | denied => "Permission denied"
  | nul => "No such file or directory"

/-- The text of a fault with its number, as a failed start reports it. -/
def FileFault.reason (f : FileFault) : String :=
  f.text ++ match f with
    | missing => " (os error 2)"
    | notDirectory => " (os error 20)"
    | isDirectory => " (os error 21)"
    | denied => " (os error 13)"
    | nul => " (os error 2)"

namespace Host

/-- The location of the program at a path; only a program can be executed. -/
def programAt (h : Host) (cwd : Location) (path : Path) : Except FileFault Location :=
  match h.tree.resolve cwd path with
  | .error e => .error e
  | .ok location => if h.tree.entry? location = some .program then .ok location else .error .denied

/-- The first program in some directories.  A file that may not be executed is passed over, and is
    what is reported if there is none. -/
def searchProgram (h : Host) (cwd : Location) (name : Path) (found : FileFault) :
    List Octets → Except FileFault Location
  | [] => .error found
  | directory :: rest =>
    let directory := if directory.isEmpty then ['.'] else directory
    match h.programAt cwd ((pathOf directory).join name) with
    | .ok location => .ok location
    | .error .denied => h.searchProgram cwd name .denied rest
    | .error _ => h.searchProgram cwd name found rest

/-- The program that a name means: a path if the name contains a `/`, and else a program in one of
    the directories of the environment's `PATH`. -/
def findProgram (h : Host) (cwd : Location) (env : List (Octets × Octets)) (name : Octets) :
    Except FileFault Location :=
  if name.isEmpty then .error .missing
  else if name.contains '/' then h.programAt cwd (pathOf name)
  else
    let directories := (env.lookup "PATH".toList).getD "/bin:/usr/bin".toList
    h.searchProgram cwd (pathOf name) .missing (Octets.split ':' directories)

/-- What a process does after it has become the program at a location. -/
def execute (location : Location) (called : Octets) (args : List Octets)
    (env : List (Octets × Octets)) : Activity :=
  .program (Octets.ofBytes (location.getLastD [])) called args env

/-! ## Starting a group -/

/-- Why a command with a NUL cannot be started. -/
def nulReason : String := "nul byte found in provided data"

/-- The environment with overrides. -/
def override (env : List (Octets × Octets)) (overrides : Environment) : List (Octets × Octets) :=
  overrides.foldl
    (fun env (key, value) =>
      env.filter (·.1 ≠ Octets.ofBytes key) ++ [(Octets.ofBytes key, Octets.ofBytes value)])
    env

/-- The directory that a command runs in: its own, seen from the directory that it is started from, or
    else that one. -/
def directoryFor (h : Host) (cwd : Location) : Option Path → Except FileFault Location
  | none => .ok cwd
  | some path =>
    match h.tree.resolve cwd path with
    | .error e => .error e
    | .ok location => if h.tree.isDirectory location then .ok location else .error .notDirectory

/-- The program of a launch, looked for from the directory that it runs in. -/
def programOf (h : Host) (directory : Location) (launch : Launch) : Except FileFault Location :=
  h.findProgram directory (override systemEnvironment launch.env) (Octets.ofBytes launch.program)

/-- Adds the first process of a group, which becomes the program at a location.  Its input is empty,
    and its output and errors go to the capture. -/
def beginGroup (h : Host) (directory location : Location) (launch : Launch) : Host × Nat :=
  let (h, input) := h.openHandle { target := .null }
  let (h, output) := h.openHandle { target := .capture }
  let (h, pid) := h.number
  (h.add
    { pid, cwd := directory, descriptors := [(0, input), (1, output), (2, output)]
      activity := execute location (Octets.ofBytes launch.program) (launch.args.map Octets.ofBytes)
        (override systemEnvironment launch.env) }, pid)

/-- Starts a command from a directory, or says why it cannot be started. -/
def start (h : Host) (cwd : Location) (c : Command) : Except String (Host × Nat) :=
  match c.launch? with
  | none => .error nulReason
  | some launch =>
    match h.startFault with
    | some reason => .error reason
    | none =>
      match h.directoryFor cwd launch.cwd with
      | .error e => .error e.reason
      | .ok directory =>
        match h.programOf directory launch with
        | .error e => .error e.reason
        | .ok location => .ok (h.beginGroup directory location launch)

end Host

end TestHarness
