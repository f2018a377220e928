import TestHarness.Host.Utility

/-!
# A shell at its turn

While a shell takes a step it is held apart from its host, and the host is updated when the step is
over.  This module has what every step is made of: complaints, descriptors, pathnames and new
processes.

## Contents
* `Turn`, `Turn.commit`
* output: `say`, `complain`, `report`, `fail`
* redirections: `redirect`, `restore`
* new processes: `fork`, `startProgram`
-/

namespace TestHarness

open Shell

/-- A shell at its turn: its host, its process and its state, and what the process has become if it
    is no longer a shell. -/
structure Turn where
  host : Host
  process : Process
  shell : Shell.State
  replaced : Option Activity := none

namespace Turn

/-- The host after the turn. -/
def commit (t : Turn) : Host :=
  let p := match t.replaced with
    | some (.ended status) => t.process.finish status
    | some activity => { t.process with activity }
    | none => { t.process with activity := .shell t.shell }
  (t.host.store p).release

/-- The shell with more tasks in front. -/
def push (t : Turn) (tasks : List Task) : Turn := { t with shell := t.shell.push tasks }

/-- The shell with a status of the last command. -/
def withStatus (t : Turn) (n : Nat) : Turn := { t with shell := t.shell.withStatus n }

/-- The shell with other variables. -/
def withScope (t : Turn) (scope : Scope) : Turn := { t with shell := { t.shell with scope } }

/-- The end of the process. -/
def become (t : Turn) (activity : Activity) : Turn := { t with replaced := some activity }

/-- Takes a signal. -/
def receive (t : Turn) (signal : Nat) : Turn :=
  let p := { t.process with activity := .shell t.shell }.receive signal
  match p.activity with
  | .shell shell => { t with process := p, shell }
  | other => { t with process := p }.become other

/-! ## Output -/

/-- Writes to a descriptor.  Writing to a pipe that nobody reads brings a signal. -/
def say (t : Turn) (descriptor : Nat) (text : Octets) : Turn × Host.Written :=
  match t.host.write t.process descriptor text with
  | (host, .broken) => (({ t with host }).receive 13, .broken)
  | (host, result) => ({ t with host }, result)

/-- The shell's name and line in front of a complaint. -/
def complain (t : Turn) (text : Octets) : Turn :=
  (t.say 2 (t.shell.scope.zero ++ ": ".toList ++ Octets.ofNat t.shell.line ++ ": ".toList ++ text ++
    ['\n'])).1

/-- A complaint after which the shell ends with a status. -/
def failWith (t : Turn) (status : Nat) (text : Octets) : Turn :=
  let t := (t.complain text).withStatus status
  { t with shell := { t.shell with tasks := [.finish] } }

/-- A complaint after which the shell ends. -/
def fail (t : Turn) (text : Octets) : Turn := t.failWith 2 text

/-- The end of a command inside the shell: first its complaints, then its output. -/
def report (t : Turn) (name : Octets) (r : Report) : Turn :=
  let t := r.complaints.foldl (fun t text => t.complain (name ++ ": ".toList ++ text)) t
  if r.output.isEmpty then t.withStatus r.status
  else match t.say 1 r.output with
    | (t, .ok) => t.withStatus r.status
    | (t, _) => (t.complain (name ++ ": ".toList ++ name ++ ": I/O error".toList)).withStatus 1

/-! ## Pathnames -/

/-- The paths that names after a location lead to, when each may be a pattern. -/
def matching (w : Workplace) : Location → Octets → List Field → List Octets
  | _, _, [] => []
  | location, before, name :: rest =>
    let go (text : Octets) (location : Location) : List Octets :=
      if rest.isEmpty then [before ++ text] else matching w location (before ++ text ++ ['/']) rest
    if name.isPattern then
      ((w.list location).filter fun n =>
        name.accepts n && (n.head? ≠ some '.' || (name.text).head? = some '.')).flatMap fun n =>
          go n (location ++ [Octets.toBytes n])
    else match w.tree.follow location (Octets.toBytes name.text) with
      | .ok location => go name.text location
      | .error _ => []

/-- Splits a field at each `/`. -/
def splitField : Field → List Field
  | [] => [[]]
  | (c, quoted) :: rest =>
    if c = '/' then [] :: splitField rest
    else match splitField rest with
      | [] => [[(c, quoted)]]
      | name :: names => ((c, quoted) :: name) :: names

/-- The paths that a field matches, or the field itself if there are none. -/
def pathnames (t : Turn) (f : Field) : List Octets :=
  if f.isPattern then
    let w : Workplace := { tree := t.host.tree, cwd := t.process.cwd }
    let found := match splitField f with
      | [] :: rest => matching w [] ['/'] rest
      | names => matching w t.process.cwd [] names
    if found.isEmpty then [f.text] else found
  else [f.text]

/-! ## Redirections -/

/-- The lowest descriptor that the shell keeps for itself. -/
def firstPrivate : Nat := 10

/-- A private descriptor that is not in use. -/
def freeDescriptor (p : Process) : Nat :=
  (p.descriptors.foldl (fun n (d, _) => max n (d + 1)) firstPrivate)

/-- Why a file cannot be opened. -/
def openComplaint (creates : Bool) (name : Octets) (e : FileFault) : Octets :=
  let why := match e with
    | .missing => if creates then "Directory nonexistent" else "No such file"
    | .notDirectory => if creates then "Directory nonexistent" else "No such file"
    | e => e.text
  (if creates then "cannot create ".toList else "cannot open ".toList) ++ name ++ ": ".toList ++
    why.toList

/-- The handle's target for an entry. -/
def targetOf (h : Host) (location : Location) : Target :=
  if h.tree.entry? location = some .nullDevice then .null else .file location

/-- Opens the file of a redirection. -/
def openFile (t : Turn) (direction : Direction) (name : Octets) : Except Octets (Turn × Nat) :=
  let path := Host.pathOf name
  let opened (h : Host) (handle : Handle) : Except Octets (Turn × Nat) :=
    let (host, n) := h.openHandle handle
    .ok ({ t with host }, n)
  match direction with
  | .read =>
    match t.host.tree.resolve t.process.cwd path with
    | .error e => .error (openComplaint false name e)
    | .ok location => opened t.host { target := targetOf t.host location, writable := false }
  | _ =>
    match t.host.tree.target t.process.cwd path with
    | .error e => .error (openComplaint true name e)
    | .ok location =>
      let keeps := direction != .write
      let tree := t.host.tree.modifyAt location fun data => if keeps then data else []
      opened { t.host with tree }
        { target := targetOf t.host location
          appends := direction = .append
          readable := direction = .both }

/-- Sets a descriptor, and keeps what it was in a private one. -/
def replaceDescriptor (t : Turn) (keep : Bool) (descriptor : Nat) (handle : Option Nat) :
    Turn × List (Nat × Option Nat) :=
  let p := t.process
  let put (p : Process) : Process := match handle with
    | some n => p.setDescriptor descriptor n
    | none => p.closeDescriptor descriptor
  if !keep then ({ t with process := put p }, [])
  else match p.descriptors.lookup descriptor with
    | some old =>
      let free := freeDescriptor p
      ({ t with process := put (p.setDescriptor free old) }, [(descriptor, some free)])
    | none => ({ t with process := put p }, [(descriptor, none)])

/-- Makes one redirection. -/
def redirectOne (t : Turn) (keep : Bool) (r : Redirection) :
    Except Octets (Turn × List (Nat × Option Nat)) :=
  match expandText t.shell.scope r.target with
  | .error e => .error e
  | .ok (name, scope) =>
    let t := t.withScope scope
    match r.direction with
    | .document =>
      let (host, pipe) := t.host.number
      let (host, handle) :=
        (host.setPipe pipe name).openHandle { target := .readEnd pipe, writable := false }
      .ok ({ t with host }.replaceDescriptor keep r.descriptor (some handle))
    | .copy =>
      if name = ['-'] then .ok (t.replaceDescriptor keep r.descriptor none)
      else match Octets.natural? name with
        | none => .error "Bad fd number".toList
        | some source =>
          match t.process.descriptors.lookup source with
          | some handle =>
            if source < firstPrivate then .ok (t.replaceDescriptor keep r.descriptor (some handle))
            else .error (name ++ ": Bad file descriptor".toList)
          | none => .error (name ++ ": Bad file descriptor".toList)
    | direction =>
      match t.openFile direction name with
      | .error e => .error e
      | .ok (t, handle) => .ok (t.replaceDescriptor keep r.descriptor (some handle))

/-- Gives descriptors back what they were. -/
def restore (t : Turn) (saved : List (Nat × Option Nat)) : Turn :=
  let process := saved.foldl
    (fun p (descriptor, free) =>
      match free with
      | none => p.closeDescriptor descriptor
      | some free =>
        match p.descriptors.lookup free with
        | some handle => (p.setDescriptor descriptor handle).closeDescriptor free
        | none => p)
    t.process
  { t with process }

/-- Makes redirections from left to right, and gives what undoes them, the last one first.  If one
    fails, those before it are undone. -/
def redirect (t : Turn) (keep : Bool) (rs : List Redirection) :
    Except (Octets × Turn) (Turn × List (Nat × Option Nat)) :=
  rs.foldlM
    (fun (t, saved) r =>
      match t.redirectOne keep r with
      | .error e => .error (e, t.restore saved)
      | .ok (t, more) => .ok (t, more ++ saved))
    (t, [])

/-! ## New processes -/

/-- The descriptors that another process gets. -/
def publicDescriptors (p : Process) : List (Nat × Nat) :=
  p.descriptors.filter fun (d, _) => d < firstPrivate

/-- Adds a child with some activity, and gives its number. -/
def addChild (t : Turn) (descriptors : List (Nat × Nat)) (activity : Activity) : Turn × Nat :=
  let (host, pid) := t.host.number
  let child : Process :=
    { pid, parent := t.process.pid, descriptors, cwd := t.process.cwd, ignored := t.process.ignored
      activity }
  ({ t with host := host.add child }, pid)

/-- Starts a copy of the shell that runs one command.  A copy catches no signals. -/
def fork (t : Turn) (descriptors : List (Nat × Nat)) (c : Cmd) : Turn × Nat :=
  let shell : Shell.State :=
    { tasks := [.run c], scope := t.shell.scope, functions := t.shell.functions, line := t.shell.line }
  t.addChild descriptors (.shell shell)

/-- What comes of a name that leads to no program: the complaint and the status. -/
def notFound (name : Octets) (e : FileFault) : Octets × Nat :=
  match e with
  | .denied => (name ++ ": Permission denied".toList, if name.contains '/' then 126 else 127)
  | _ => (name ++ ": not found".toList, 127)

/-- The program of a name under the variables that programs see. -/
def programOf (t : Turn) (env : List (Octets × Octets)) (name : Octets) :
    Except FileFault Location :=
  let path := match env.lookup "PATH".toList with
    | some path => some path
    | none => t.shell.scope.store.lookup "PATH".toList
  t.host.findProgram t.process.cwd ((path.map fun p => ("PATH".toList, p)).toList) name

end Turn

end TestHarness
