import TestHarness.Files.Tree
import TestHarness.Runner.Local
import TestHarness.Shell.State

/-!
# A host and its processes

A host has a clock, files, pipes and processes.  All processes belong to the group of one command
that was started from outside; they share one capture, to which their output goes.

Nothing here runs a process: these are the calls that processes make on the host.

## Contents
* `Target`, `Handle`, `Process`, `Host`
* descriptors, reading and writing
* signals: `Process.receive`, `Host.signal`
-/

namespace TestHarness

/-! ## Files that are open -/

/-- What an open file leads to. -/
inductive Target where
  /-- Nothing: empty when read, and swallowing what is written. -/
  | null
  /-- The capture of the group's output. -/
  | capture
  | file (location : Location)
  | readEnd (pipe : Nat)
  | writeEnd (pipe : Nat)
deriving DecidableEq, Repr, Inhabited

/-- An open file, which several descriptors may share. -/
structure Handle where
  target : Target
  /-- Where reading and writing continue. -/
  offset : Nat := 0
  /-- Whether everything is written at the end. -/
  appends : Bool := false
  readable : Bool := true
  writable : Bool := true
deriving DecidableEq, Repr, Inhabited

/-! ## Processes -/

/-- What a process does. -/
inductive Activity where
  | shell (s : Shell.State)
  /-- Sleeps until the clock shows a time. -/
  | sleeping (wake : Duration)
  /-- A program that is about to run: which one, the name it was called by, its arguments and its
      environment. -/
  | program (name called : Octets) (args : List Octets) (env : List (Octets × Octets))
  /-- A program that has read some of its input and does its work at the end of it. -/
  | reading (name called : Octets) (args : List Octets) (input : Octets)
  /-- A program that writes the same text for ever. -/
  | repeating (text : Octets)
  /-- Has ended, and has not been waited for. -/
  | ended (status : ExitStatus)
deriving Repr, Inhabited

/-- A process. -/
structure Process where
  pid : Nat
  /-- The process that waits for it; zero stands for the harness. -/
  parent : Nat := 0
  /-- Its descriptors, with the numbers of their handles. -/
  descriptors : List (Nat × Nat) := []
  cwd : Location := []
  /-- The signals that it ignores. -/
  ignored : List Nat := []
  /-- Whether it is stopped, and takes no steps until it is continued. -/
  stopped : Bool := false
  activity : Activity
deriving Repr, Inhabited

namespace Process

/-- Whether the process has ended. -/
def hasEnded (p : Process) : Bool :=
  match p.activity with
  | .ended _ => true
  | _ => false

/-- The process at its end. -/
def finish (p : Process) (status : ExitStatus) : Process :=
  { p with activity := .ended status, descriptors := [] }

/-- Gives a descriptor a handle. -/
def setDescriptor (p : Process) (descriptor handle : Nat) : Process :=
  { p with descriptors := (descriptor, handle) :: p.descriptors.filter (·.1 ≠ descriptor) }

/-- Closes a descriptor. -/
def closeDescriptor (p : Process) (descriptor : Nat) : Process :=
  { p with descriptors := p.descriptors.filter (·.1 ≠ descriptor) }

/-- The signals that do nothing unless they are caught. -/
def harmless : List Nat := [17, 23, 28]

/-- The signals that stop a process unless it ignores or catches them. -/
def stopping : List Nat := [20, 21, 22]

/-- What a signal does that the process neither ignores nor catches. -/
def suffer (p : Process) (signal : Nat) : Process :=
  if signal = 18 ∨ harmless.contains signal then p
  else if stopping.contains signal then { p with stopped := true }
  else p.finish (.signalled signal)

/-- **A signal.** It ends the process unless the process ignores or catches it; nothing ignores or
    catches `SIGKILL` and `SIGSTOP`, and `SIGCONT` always continues a stopped process. -/
def receive (p : Process) (signal : Nat) : Process :=
  if p.hasEnded then p
  else if signal = 9 then p.finish (.signalled signal)
  else if signal = 19 then { p with stopped := true }
  else
    let p := if signal = 18 then { p with stopped := false } else p
    if p.ignored.contains signal then p
    else match p.activity with
      | .shell s =>
        if (s.traps.lookup signal).isSome then
          { p with activity := .shell { s with pending := s.pending ++ [signal] } }
        else p.suffer signal
      | _ => p.suffer signal

end Process

/-! ## The host -/

/-- A host. -/
structure Host where
  clock : Duration := 0
  tree : FileTree := {}
  /-- What has been written to the capture, newest first. -/
  captured : List Octets := []
  handles : List (Nat × Handle) := []
  /-- What has been written to each pipe and not been read. -/
  pipes : List (Nat × Octets) := []
  processes : List Process := []
  /-- A number that no process, handle or pipe has yet. -/
  fresh : Nat := 100
  /-- Why no capture can be made, if none can: it takes a file and two more handles on it. -/
  captureFault : Option String := none
  /-- Why no command can be started, if none can, whatever the command. -/
  startFault : Option String := none
deriving Repr, Inhabited

namespace Host

/-- The process of that number. -/
def process? (h : Host) (pid : Nat) : Option Process := h.processes.find? (·.pid = pid)

/-- Puts a process in its place. -/
def store (h : Host) (p : Process) : Host :=
  { h with processes := h.processes.map fun q => if q.pid = p.pid then p else q }

/-- Adds a process. -/
def add (h : Host) (p : Process) : Host := { h with processes := h.processes ++ [p] }

/-- A number that is not in use. -/
def number (h : Host) : Host × Nat := ({ h with fresh := h.fresh + 1 }, h.fresh)

/-- All that has been written to the capture. -/
def capture (h : Host) : Bytes := Octets.toBytes h.captured.reverse.flatten

/-- The path of octets. -/
def pathOf (name : Octets) : Path := ⟨Octets.toBytes name⟩

/-- What a name denotes. -/
def entryAt (h : Host) (cwd : Location) (name : Octets) : Option Entry :=
  (h.tree.resolve cwd (pathOf name)).toOption.bind h.tree.entry?

/-! ### Handles -/

/-- Opens a handle. -/
def openHandle (h : Host) (handle : Handle) : Host × Nat :=
  let (h, n) := h.number
  ({ h with handles := (n, handle) :: h.handles }, n)

/-- Forgets the handles that no process has. -/
def release (h : Host) : Host :=
  { h with handles := h.handles.filter fun (n, _) =>
      h.processes.any fun p => p.descriptors.any (·.2 = n) }

/-- The handle of a descriptor. -/
def handleOf (h : Host) (p : Process) (descriptor : Nat) : Option (Nat × Handle) :=
  (p.descriptors.lookup descriptor).bind fun n => (h.handles.lookup n).map fun handle => (n, handle)

/-- Moves a handle to an offset. -/
def seek (h : Host) (n offset : Nat) : Host :=
  { h with handles := h.handles.map fun (m, handle) =>
      (m, if m = n then { handle with offset } else handle) }

/-- Whether some process holds an open file with that target. -/
def isHeld (h : Host) (target : Target) : Bool :=
  h.processes.any fun p => p.descriptors.any fun (_, n) =>
    (h.handles.lookup n).any fun handle => handle.target = target

/-- The octets in a pipe. -/
def inPipe (h : Host) (pipe : Nat) : Octets := (h.pipes.lookup pipe).getD []

/-- Sets the octets in a pipe. -/
def setPipe (h : Host) (pipe : Nat) (text : Octets) : Host :=
  { h with pipes := (pipe, text) :: h.pipes.filter (·.1 ≠ pipe) }

/-- The octets of a file. -/
def fileData (h : Host) (location : Location) : Bytes :=
  match h.tree.entry? location with
  | some (.file data) => data
  | _ => []

/-! ### Writing -/

/-- What comes of writing. -/
inductive Written where
  | ok
  /-- The descriptor is closed or cannot be written. -/
  | closed
  /-- Nobody reads the pipe. -/
  | broken
deriving DecidableEq, Repr

/-- Octets with others written over them from an offset on. -/
def overwrite (data : Bytes) (offset : Nat) (more : Bytes) : Bytes :=
  data.take offset ++ List.replicate (offset - data.length) 0 ++ more ++
    data.drop (offset + more.length)

/-- Writes to a descriptor. -/
def write (h : Host) (p : Process) (descriptor : Nat) (text : Octets) : Host × Written :=
  match h.handleOf p descriptor with
  | none => (h, .closed)
  | some (n, handle) =>
    if !handle.writable then (h, .closed)
    else if text.isEmpty then (h, .ok)
    else match handle.target with
      | .null => (h, .ok)
      | .capture => ({ h with captured := text :: h.captured }, .ok)
      | .readEnd _ => (h, .closed)
      | .writeEnd pipe =>
        if h.isHeld (.readEnd pipe) then (h.setPipe pipe (h.inPipe pipe ++ text), .ok)
        else (h, .broken)
      | .file location =>
        let data := h.fileData location
        let offset := if handle.appends then data.length else handle.offset
        let more := Octets.toBytes text
        let tree := match h.tree.entry? location with
          | some _ => h.tree.modifyAt location fun _ => overwrite data offset more
          | none => h.tree
        ({ h with tree }.seek n (offset + more.length), .ok)

/-! ### Reading -/

/-- What comes of reading. -/
inductive Read where
  /-- Nothing at the end. -/
  | text (text : Octets)
  /-- There is nothing yet, and someone may still write. -/
  | blocked
  | closed
  | directory
deriving DecidableEq, Repr

/-- Reads from a descriptor.  A reader that wants more than is there waits if someone may still
    write. -/
def read (h : Host) (p : Process) (descriptor : Nat) (take : Octets → Option Nat) : Host × Read :=
  match h.handleOf p descriptor with
  | none => (h, .closed)
  | some (n, handle) =>
    if !handle.readable then (h, .closed)
    else match handle.target with
      | .null => (h, .text [])
      | .capture => (h, .text [])
      | .writeEnd _ => (h, .closed)
      | .readEnd pipe =>
        let available := h.inPipe pipe
        match take available with
        | some size => (h.setPipe pipe (available.drop size), .text (available.take size))
        | none =>
          if h.isHeld (.writeEnd pipe) then (h, .blocked)
          else (h.setPipe pipe [], .text available)
      | .file location =>
        if h.tree.isDirectory location then (h, .directory)
        else
        let available := (Octets.ofBytes (h.fileData location)).drop handle.offset
        let size := (take available).getD available.length
        (h.seek n (handle.offset + size), .text (available.take size))

/-- Takes whatever is there, if anything. -/
def takeAny (available : Octets) : Option Nat :=
  if available.isEmpty then none else some available.length

/-- Takes a line with its newline. -/
def takeLine (available : Octets) : Option Nat :=
  if available.contains '\n' then some ((available.takeWhile (· ≠ '\n')).length + 1) else none

/-! ### Signals -/

/-- Sends a signal to every process of the group. -/
def signalGroup (h : Host) (signal : Nat) : Host :=
  release { h with processes := h.processes.map (Process.receive · signal) }

/-- Sends a signal to one process, if it exists. -/
def signal (h : Host) (pid signal : Nat) : Option Host :=
  (h.process? pid).map fun p => (h.store (p.receive signal)).release

end Host

end TestHarness
